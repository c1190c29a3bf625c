import Mathlib.Data.Finset.Insert
import RefineId.Rapp.Message
import RefineId.Semantics.Run

/-! The requester's operations of one session
(`crates/rapp/src/requester_engine.rs`), and what becomes of every operation
it begins. -/
namespace RefineId.Rapp

open Data Semantics List OperationResultMessage Option

inductive RequesterDispatch where
  | cardStatus (status : CardStatusMessage)
  | progress (operationId : OperationId) (event : ProgressEvent)
  | completed (operationId : OperationId) (result : CardOperationResult)
  | ended (operationId : OperationId) (status : ResultStatus) (error : ResultError)
  | refused (operationId : OperationId) (error : ResultError)
  | peerError (error : ResultError)
  | ignored (operationId : OperationId)
  | notOperation (message : TypedMessage)

inductive RequesterViolation where
  | requesterOnlyMessage
  | invalidResult
  deriving DecidableEq

inductive RequesterEngineError where
  | liveOperation
  | duplicateLocalOperationId
  | invalidLocalRequest (error : CardOperationError)
  | unknownLocalOperation
  | authenticatedProtocolViolation (violation : RequesterViolation)
  deriving DecidableEq

structure RequesterOperationEngine where
  live : Option OperationRequest
  used : Finset OperationId

namespace RequesterOperationEngine

def new : RequesterOperationEngine :=
  ⟨none, ∅⟩

variable (engine : RequesterOperationEngine)

def liveId : Option OperationId :=
  engine.live.map OperationRequest.operationId

variable (request : OperationRequest)

def begin : Except RequesterEngineError TypedMessage × RequesterOperationEngine :=
  if engine.live.isSome then (.error .liveOperation, engine)
  else if request.operationId ∈ engine.used then (.error .duplicateLocalOperationId, engine)
  else
    match request.validate with
    | .error error => (.error (.invalidLocalRequest error), engine)
    | .ok () =>
      (.ok (.operationRequest request), ⟨some request, insert request.operationId engine.used⟩)

/-- Stop waiting for the live operation; nothing travels. -/
def cancel (operationId : OperationId) :
    Except RequesterEngineError Unit × RequesterOperationEngine :=
  if engine.liveId ≠ some operationId then (.error .unknownLocalOperation, engine)
  else (.ok (), { engine with live := none })

def receiveError (error : ProtocolErrorMessage) : RequesterDispatch × RequesterOperationEngine :=
  match error.operationId with
  | some operationId =>
    if engine.liveId = some operationId then
      (.refused operationId error.error, { engine with live := none })
    else (.ignored operationId, engine)
  | none => (.peerError error.error, engine)

/-- What a result means once its request has been taken out of the engine. -/
def resultDispatch (result : OperationResultMessage) :
    Except RequesterEngineError RequesterDispatch :=
  match result.validateFor result.operationId request.operation with
  | .error _ => .error (.authenticatedProtocolViolation .invalidResult)
  | .ok () =>
    match result.status, result.response, result.error with
    | .completed, some response, none =>
      match response.typedFor request.operation with
      | .ok typed => .ok (.completed result.operationId typed)
      | .error _ => .error (.authenticatedProtocolViolation .invalidResult)
    | status, none, some error => .ok (.ended result.operationId status error)
    | _, _, _ => .error (.authenticatedProtocolViolation .invalidResult)

/-- Results take the live request out of the engine before they are checked
against it. -/
def receiveResult (result : OperationResultMessage) :
    Except RequesterEngineError RequesterDispatch × RequesterOperationEngine :=
  match engine.live with
  | some request =>
    if request.operationId = result.operationId then
      (resultDispatch request result, { engine with live := none })
    else (.ok (.ignored result.operationId), engine)
  | none => (.ok (.ignored result.operationId), engine)

def receive (message : TypedMessage) :
    Except RequesterEngineError RequesterDispatch × RequesterOperationEngine :=
  match message with
  | .cardStatus status => (.ok (.cardStatus status), engine)
  | .error error =>
    match engine.receiveError error with
    | (dispatch, engine) => (.ok dispatch, engine)
  | .operationProgress progress =>
    if engine.liveId = some progress.operationId then
      (.ok (.progress progress.operationId progress.event), engine)
    else (.ok (.ignored progress.operationId), engine)
  | .operationResult result => engine.receiveResult result
  | .operationRequest _ | .operationRequestRefused _ =>
    (.error (.authenticatedProtocolViolation .requesterOnlyMessage), engine)
  | other => (.ok (.notOperation other), engine)

/-- The session closed: the live operation, if any, is lost with it. -/
def sessionClosed : Option OperationId × RequesterOperationEngine :=
  (engine.liveId, ⟨none, ∅⟩)

end RequesterOperationEngine

inductive RequesterCall where
  | begin (request : OperationRequest)
  | cancel (operationId : OperationId)
  | receive (message : TypedMessage)

inductive RequesterReply where
  | begun (result : Except RequesterEngineError TypedMessage)
  | cancelled (result : Except RequesterEngineError Unit)
  | received (result : Except RequesterEngineError RequesterDispatch)

def RequesterReply.outgoing : RequesterReply → List TypedMessage
  | .begun (.ok message) => [message]
  | _ => []

def RequesterReply.violation? : RequesterReply → Option RequesterViolation
  | .begun (.error (.authenticatedProtocolViolation violation)) => some violation
  | .cancelled (.error (.authenticatedProtocolViolation violation)) => some violation
  | .received (.error (.authenticatedProtocolViolation violation)) => some violation
  | _ => none

abbrev RequesterEvent := Event RequesterOperationEngine RequesterCall RequesterReply

namespace RequesterOperationEngine

variable (engine : RequesterOperationEngine)

def step : RequesterCall → RequesterReply × RequesterOperationEngine
  | .begin request =>
    match engine.begin request with
    | (result, engine) => (.begun result, engine)
  | .cancel operationId =>
    match engine.cancel operationId with
    | (result, engine) => (.cancelled result, engine)
  | .receive message =>
    match engine.receive message with
    | (result, engine) => (.received result, engine)

variable (event : RequesterEvent)

def begunBy : Option OperationRequest :=
  match event.call, event.reply with
  | .begin request, .begun (.ok _) => some request
  | _, _ => none

def namedBy : Option OperationId :=
  match event.call, event.reply with
  | _, .received (.ok (.completed operationId _)) => some operationId
  | _, .received (.ok (.ended operationId _ _)) => some operationId
  | _, .received (.ok (.refused operationId _)) => some operationId
  | .cancel operationId, .cancelled (.ok ()) => some operationId
  | _, _ => none

def answeredBy : Option OperationId :=
  match event.reply with
  | .received (.ok (.completed operationId _)) => some operationId
  | .received (.ok (.ended operationId _ _)) => some operationId
  | _ => none

def cancelledBy : Option OperationId :=
  match event.call, event.reply with
  | .cancel operationId, .cancelled (.ok ()) => some operationId
  | _, _ => none

/-- Whether a call brings no result for the live operation that fails to
answer it. -/
def answersLive (call : RequesterCall) : Bool :=
  match call, engine.live with
  | .receive (.operationResult result), some request =>
    result.operationId ≠ request.operationId ||
      (result.validateFor request.operationId request.operation).isOk
  | _, _ => true

/-- The operation an event loses: live before it, and neither named nor live
afterwards. -/
def lostBy : Option OperationId :=
  if event.state.answersLive event.call then none else event.state.liveId

def released : RequesterOperationEngine :=
  { engine with live := none }

/-- Everything one call can do. -/
inductive Effect (engine : RequesterOperationEngine) :
    RequesterCall → RequesterReply → RequesterOperationEngine → Prop where
  | quiet {call : RequesterCall} {reply : RequesterReply} (hSilent : reply.outgoing = [])
      (hNamed : namedBy ⟨engine, call, reply⟩ = none) (hAnswers : engine.answersLive call = true)
      (hHonest : reply.violation? = none ∨
        ∃ message operationId, call = .receive message ∧ message.requestedId? = some operationId) :
      Effect engine call reply engine
  | begun {request : OperationRequest} (hFree : engine.live = none)
      (hFresh : request.operationId ∉ engine.used) (hValid : request.validate = .ok ()) :
      Effect engine (.begin request) (.begun (.ok (.operationRequest request)))
        ⟨some request, insert request.operationId engine.used⟩
  | cancelled {request : OperationRequest} (hLive : engine.live = some request) :
      Effect engine (.cancel request.operationId) (.cancelled (.ok ())) engine.released
  | refused {request : OperationRequest} {error : ProtocolErrorMessage}
      (hLive : engine.live = some request) :
      Effect engine (.receive (.error error))
        (.received (.ok (.refused request.operationId error.error))) engine.released
  | completed {request : OperationRequest} {result : OperationResultMessage}
      {response : ResultResponse} {typed : CardOperationResult}
      (hLive : engine.live = some request)
      (hValid : result.validateFor request.operationId request.operation = .ok ())
      (hResponse : result.response = some response)
      (hTyped : response.typedFor request.operation = .ok typed) :
      Effect engine (.receive (.operationResult result))
        (.received (.ok (.completed request.operationId typed))) engine.released
  | ended {request : OperationRequest} {result : OperationResultMessage} {error : ResultError}
      (hLive : engine.live = some request)
      (hValid : result.validateFor request.operationId request.operation = .ok ())
      (hError : result.error = some error) :
      Effect engine (.receive (.operationResult result))
        (.received (.ok (.ended request.operationId result.status error))) engine.released
  | lost {request : OperationRequest} {result : OperationResultMessage}
      (hLive : engine.live = some request) (hNamed : result.operationId = request.operationId)
      (hInvalid : result.validateFor request.operationId request.operation ≠ .ok ()) :
      Effect engine (.receive (.operationResult result))
        (.received (.error (.authenticatedProtocolViolation .invalidResult))) engine.released

variable {engine : RequesterOperationEngine} {request : OperationRequest}
  {result : OperationResultMessage}

theorem begin_effect (engine : RequesterOperationEngine) (request : OperationRequest) :
    Effect engine (.begin request) (.begun (engine.begin request).1) (engine.begin request).2 := by
  rw [begin]
  split
  · exact .quiet rfl rfl rfl (.inl rfl)
  rename_i hFree
  split
  · exact .quiet rfl rfl rfl (.inl rfl)
  rename_i hFresh
  split
  · exact .quiet rfl rfl rfl (.inl rfl)
  · rename_i hValid
    exact .begun (by simpa using hFree) hFresh hValid

theorem cancel_effect (engine : RequesterOperationEngine) (operationId : OperationId) :
    Effect engine (.cancel operationId) (.cancelled (engine.cancel operationId).1)
      (engine.cancel operationId).2 := by
  rw [cancel]
  split
  · exact .quiet rfl rfl rfl (.inl rfl)
  rename_i hFound
  obtain ⟨request, hLive, rfl⟩ := map_eq_some_iff.mp (not_not.mp hFound)
  exact .cancelled hLive

theorem receiveError_effect (engine : RequesterOperationEngine) (error : ProtocolErrorMessage) :
    Effect engine (.receive (.error error)) (.received (.ok (engine.receiveError error).1))
      (engine.receiveError error).2 := by
  rw [receiveError]
  split
  · split
    · rename_i hFound
      obtain ⟨request, hLive, rfl⟩ := map_eq_some_iff.mp hFound
      exact .refused hLive
    · exact .quiet rfl rfl rfl (.inl rfl)
  · exact .quiet rfl rfl rfl (.inl rfl)

/-- A result that answers the live request ends it; one that does not is a
violation, and the request is gone. -/
theorem resultDispatch_effect (hLive : engine.live = some request)
    (hNamed : result.operationId = request.operationId) :
    Effect engine (.receive (.operationResult result))
      (.received (resultDispatch request result)) engine.released := by
  rw [resultDispatch]
  split
  · rename_i error hInvalid
    rw [hNamed] at hInvalid
    exact .lost hLive hNamed (by simp [hInvalid])
  rename_i hValid
  rw [hNamed] at hValid ⊢
  obtain ⟨-, hConsistent, hTyped⟩ := validateFor_ok hValid
  rcases isConsistent_cases hConsistent with
    ⟨hStatus, hError, response, hResponse⟩ | ⟨hResponse, error, hError⟩
  · obtain ⟨typed, hTyped⟩ := hTyped response hResponse
    simp only [hStatus, hError, hResponse, hTyped]
    exact .completed hLive hValid hResponse hTyped
  · simp only [hError, hResponse]
    exact .ended hLive hValid hError

theorem receiveResult_effect (engine : RequesterOperationEngine) (result : OperationResultMessage) :
    Effect engine (.receive (.operationResult result)) (.received (engine.receiveResult result).1)
      (engine.receiveResult result).2 := by
  rw [receiveResult]
  split
  · rename_i request hLive
    split
    · exact resultDispatch_effect hLive (Eq.symm ‹_›)
    rename_i hOther
    refine .quiet rfl rfl ?_ (.inl rfl)
    simp [answersLive, hLive, Ne.symm hOther]
  · rename_i hLive
    exact .quiet rfl rfl (by simp [answersLive, hLive]) (.inl rfl)

theorem receive_effect (engine : RequesterOperationEngine) (message : TypedMessage) :
    Effect engine (.receive message) (.received (engine.receive message).1)
      (engine.receive message).2 := by
  cases message with
  | operationResult result => exact receiveResult_effect engine result
  | error error => exact receiveError_effect engine error
  | operationProgress progress =>
    rw [receive]
    split <;> exact .quiet rfl rfl rfl (.inl rfl)
  | operationRequest request | operationRequestRefused refusal =>
    exact .quiet rfl rfl rfl (.inr ⟨_, _, rfl, rfl⟩)
  | _ => exact .quiet rfl rfl rfl (.inl rfl)

theorem step_effect (engine : RequesterOperationEngine) (call : RequesterCall) :
    Effect engine call (step engine call).1 (step engine call).2 := by
  cases call with
  | begin request => exact begin_effect engine request
  | cancel operationId => exact cancel_effect engine operationId
  | receive message => exact receive_effect engine message

/-- The account of a run: each operation begun is named once, lost once or
still live. -/
structure Accounted (begun : List OperationRequest) (named lost : List OperationId)
    (engine : RequesterOperationEngine) : Prop where
  begunOnce : (begun.map OperationRequest.operationId).Nodup
  begunUsed : ∀ request ∈ begun, request.operationId ∈ engine.used
  liveBegun : ∀ request, engine.live = some request → request ∈ begun
  balance : ∀ operationId, (begun.map OperationRequest.operationId).count operationId =
    named.count operationId + lost.count operationId + engine.liveId.toList.count operationId

def AccountedBy (past : List RequesterEvent) (engine : RequesterOperationEngine) : Prop :=
  Accounted (past.filterMap begunBy) (past.filterMap namedBy) (past.filterMap lostBy) engine

section Run
variable {begun : List OperationRequest} {named lost : List OperationId}
  {past : List RequesterEvent} {after : RequesterOperationEngine} {call : RequesterCall}
  {reply : RequesterReply}

section
variable (h : Accounted begun named lost engine)
include h

theorem Accounted.begins (hFree : engine.live = none) (hFresh : request.operationId ∉ engine.used) :
    Accounted (begun ++ [request]) named lost
      ⟨some request, insert request.operationId engine.used⟩ where
  begunOnce := nodup_map_snoc h.begunOnce fun other hOther hSame =>
    hFresh (hSame ▸ h.begunUsed other hOther)
  begunUsed := forall_mem_snoc
    (fun other hOther => Finset.mem_insert_of_mem (h.begunUsed other hOther))
    (Finset.mem_insert_self _ _)
  liveBegun := by
    intro other hOther
    cases hOther
    exact mem_append_right _ (mem_singleton_self _)
  balance := by
    intro operationId
    have hBalance := h.balance operationId
    simp only [liveId, hFree, map_none, toList_none, count_nil] at hBalance
    simp only [liveId, map_some, toList_some, map_append, map_cons,
      map_nil, count_append, hBalance, add_zero]

section
variable (hLive : engine.live = some request)
include hLive

theorem Accounted.releases {named' lost'}
    (hCount : ∀ operationId, named'.count operationId + lost'.count operationId =
      named.count operationId + lost.count operationId + [request.operationId].count operationId) :
    Accounted begun named' lost' engine.released where
  begunOnce := h.begunOnce
  begunUsed := h.begunUsed
  liveBegun := by
    intro other hOther
    cases hOther
  balance := by
    intro operationId
    have hBalance := h.balance operationId
    simp only [liveId, hLive, map_some, toList_some] at hBalance
    rw [hBalance, ← hCount]
    rfl

theorem Accounted.names : Accounted begun (named ++ [request.operationId]) lost engine.released :=
  h.releases hLive fun operationId => by
    rw [count_append]
    omega

theorem Accounted.loses : Accounted begun named (lost ++ [request.operationId]) engine.released :=
  h.releases hLive fun operationId => by
    rw [count_append]
    omega

end

end

theorem begunBy_of_silent (hSilent : reply.outgoing = []) :
    begunBy ⟨engine, call, reply⟩ = none := by
  unfold begunBy
  split
  · rename_i hReply
    rw [show reply = _ from hReply] at hSilent
    cases hSilent
  · rfl

theorem lostBy_of_answers (hAnswers : engine.answersLive call = true) :
    lostBy ⟨engine, call, reply⟩ = none := by
  simp [lostBy, hAnswers]

variable {event : RequesterEvent}

/-- Each effect keeps the requester's account. -/
theorem AccountedBy.effect (h : AccountedBy past engine) (hEffect : Effect engine call reply after) :
    AccountedBy (past ++ [⟨engine, call, reply⟩]) after := by
  rw [AccountedBy, filterMap_append_singleton, filterMap_append_singleton,
    filterMap_append_singleton]
  cases hEffect with
  | quiet hSilent hNamed hAnswers hHonest =>
    simpa [begunBy_of_silent hSilent, hNamed, lostBy_of_answers hAnswers, AccountedBy] using h
  | begun hFree hFresh hValid =>
    simpa [begunBy, namedBy, lostBy, answersLive] using h.begins hFree hFresh
  | cancelled hLive | refused hLive =>
    simpa [begunBy, namedBy, lostBy, answersLive] using h.names hLive
  | @completed _ result _ _ hLive hValid | @ended _ result _ hLive hValid =>
    have hAnswers : engine.answersLive (.receive (.operationResult result)) = true := by
      simp [answersLive, hLive, hValid, Except.isOk, Except.toBool]
    simpa [begunBy, namedBy, lostBy_of_answers hAnswers] using h.names hLive
  | @lost request result hLive hNamed hInvalid =>
    have hLost : lostBy ⟨engine, .receive (.operationResult result),
        .received (.error (.authenticatedProtocolViolation .invalidResult))⟩ =
        some request.operationId := by
      cases hCheck : result.validateFor request.operationId request.operation with
      | ok => exact absurd hCheck hInvalid
      | error error =>
        simp [lostBy, answersLive, hLive, hNamed, hCheck, liveId, Except.isOk, Except.toBool]
    simpa [begunBy, namedBy, hLost] using h.loses hLive

variable (calls : List RequesterCall)

theorem accounted : AccountedBy (history step new calls) (final step new calls) :=
  history_invariant step ⟨nodup_nil, by simp, by simp [new], by simp [new, liveId]⟩
    (fun _ state call h => h.effect (step_effect state call)) calls

variable {operationId : OperationId}

theorem namedBy_of_answeredBy (h : answeredBy event = some operationId) :
    namedBy event = some operationId := by
  obtain ⟨state, call, reply⟩ := event
  unfold answeredBy at h
  split at h <;> cases h
  all_goals
    rename_i hReply
    simp only at hReply
    simp [namedBy, hReply]

theorem namedBy_of_cancelledBy (h : cancelledBy event = some operationId) :
    namedBy event = some operationId ∧ answeredBy event = none := by
  obtain ⟨state, call, reply⟩ := event
  unfold cancelledBy at h
  split at h
  · cases h
    rename_i hCall hReply
    simp only at hCall hReply
    simp [namedBy, answeredBy, hCall, hReply]
  · cases h

/-- No operation is answered twice, or answered and cancelled. -/
theorem AccountedBy.answered_add_cancelled_le_one (h : AccountedBy past engine)
    (operationId : OperationId) : (past.filterMap answeredBy).count operationId +
      (past.filterMap cancelledBy).count operationId ≤ 1 := by
  have hBalance := h.balance operationId
  have hOnce := nodup_iff_count_le_one.mp h.begunOnce operationId
  refine Nat.le_trans (m := (past.filterMap namedBy).count operationId) ?_ (by omega)
  refine count_filterMap_add_le (fun (event : RequesterEvent) _ h => namedBy_of_answeredBy h)
    (fun _ _ h => (namedBy_of_cancelledBy h).1) (fun event => ?_) operationId
  cases hCancelled : cancelledBy event with
  | none => exact Or.inr rfl
  | some other => exact Or.inl (namedBy_of_cancelledBy hCancelled).2

def namedAtClose (past : List RequesterEvent) (engine : RequesterOperationEngine) :
    List OperationId :=
  past.filterMap namedBy ++ engine.sessionClosed.1.toList

theorem Accounted.count_begun (h : Accounted begun named lost engine) (hMem : request ∈ begun) :
    (begun.map OperationRequest.operationId).count request.operationId = 1 :=
  count_eq_one_of_mem h.begunOnce (mem_map_of_mem hMem)

/-- The session ends with every operation named exactly once if and only if
no result for the live operation failed to answer it. -/
theorem named_once_iff :
    (∀ request ∈ (history step new calls).filterMap begunBy,
        (namedAtClose (history step new calls) (final step new calls)).count
          request.operationId = 1) ↔
      ∀ event ∈ history step new calls, event.state.answersLive event.call = true := by
  have hAccount := accounted calls
  generalize history step new calls = past at hAccount
  generalize final step new calls = engine at hAccount
  have hCount : ∀ operationId, (namedAtClose past engine).count operationId =
      (past.filterMap namedBy).count operationId + engine.liveId.toList.count operationId :=
    fun operationId => count_append
  constructor
  · intro hNamed event hEvent
    by_contra hLoses
    obtain ⟨operationId, hLost⟩ : ∃ operationId, lostBy event = some operationId := by
      have hLost : lostBy event = event.state.liveId := if_neg hLoses
      unfold answersLive at hLoses
      split at hLoses
      · exact ⟨_, by rw [hLost, liveId, ‹event.state.live = _›]; rfl⟩
      · exact absurd rfl hLoses
    have hLostMem : operationId ∈ past.filterMap lostBy := mem_filterMap.mpr ⟨event, hEvent, hLost⟩
    have hLostCount := count_pos_iff.mpr hLostMem
    have hBalance := hAccount.balance operationId
    have hBegun : operationId ∈ (past.filterMap begunBy).map OperationRequest.operationId :=
      count_pos_iff.mp (by omega)
    obtain ⟨request, hRequest, rfl⟩ := mem_map.mp hBegun
    have hOnce := hNamed request hRequest
    rw [hCount] at hOnce
    rw [hAccount.count_begun hRequest] at hBalance
    omega
  intro hAnswers request hMem
  have hLost : past.filterMap lostBy = [] := by
    refine filterMap_eq_nil_iff.mpr fun event hEvent => ?_
    simp [lostBy, hAnswers event hEvent]
  have hBalance := hAccount.balance request.operationId
  rw [hAccount.count_begun hMem, hLost, count_nil] at hBalance
  rw [hCount]
  omega

def inspectRequest : OperationRequest :=
  ⟨FixedBytes.replicate operationIdSize 1, .cardStatus, 1000, 5000, .inspectCard⟩

/-- A signature in answer to a request that asked for none. -/
def misfitResult : OperationResultMessage :=
  .completed inspectRequest.operationId (.signature [7])

/-- The request is begun, its result does not answer it, and the session that
the violation closes names nothing. -/
theorem misfitResult_loses_inspection :
    let calls := [.begin inspectRequest, .receive (.operationResult misfitResult)]
    (history step new calls).filterMap begunBy = [inspectRequest] ∧
      (final step new calls).sessionClosed.1 = none ∧
      (namedAtClose (history step new calls) (final step new calls)).count
        inspectRequest.operationId = 0 := by
  decide +kernel

end Run

end RequesterOperationEngine

end RefineId.Rapp
