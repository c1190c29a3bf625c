import RefineId.Rapp.ProxyEngine

/-! Runs of the custodian's engine: what any order of peer messages and local
calls can make it hand to the card. -/
namespace RefineId.Rapp

open Data Semantics AuthorizationTransaction Finset List

inductive ProxyLocalCall where
  | prerequisitesComplete (operationId : OperationId) (nowMs maximumLifetimeMs : UInt64)
  | approve (operationId : OperationId) (approval : UserApproval) (nowMs maximumLifetimeMs : UInt64)
  | expireDue (nowMs maximumLifetimeMs : UInt64)
  | finishCompleted (operationId : OperationId) (result : OperationResultMessage)
  | finishFailure (operationId : OperationId) (failure : ProxyFailure)
  | recordBatchSignature (operationId : OperationId) (signature : Bytes)
  | completeBatch (operationId : OperationId)
  | reportProgress (operationId : OperationId) (event : ProgressEvent)

inductive ProxyCall where
  | receive (message : TypedMessage)
  | perform (call : ProxyLocalCall)

/-- What the caller is told to do, if anything. A progress message is handed
to the session like any other message to send. -/
abbrev ProxyReply := Except ProxyEngineError (Option ProxyDispatch)

abbrev ProxyEvent := Event ProxyOperationEngine ProxyCall ProxyReply

def ProxyReply.violation? : ProxyReply → Option ProxyViolation
  | .error (.authenticatedProtocolViolation violation) => some violation
  | _ => none

/-- Replies that neither send a result nor start anything. -/
inductive ProxyReply.Quiet : ProxyReply → Prop where
  | failed (error : ProxyEngineError) : Quiet (.error error)
  | nothing : Quiet (.ok none)
  | notOperation (message : TypedMessage) : Quiet (.ok (some (.notOperation message)))
  | refusal (error : ProtocolErrorMessage) : Quiet (.ok (some (.send (.error error))))
  | progress (message : OperationProgressMessage) :
      Quiet (.ok (some (.send (.operationProgress message))))

namespace ProxyOperationEngine

variable (engine : ProxyOperationEngine)

def performed (call : ProxyLocalCall) :
    Except ProxyEngineError (Option ProxyDispatch × ProxyOperationEngine) :=
  match call with
  | .prerequisitesComplete operationId nowMs maximumLifetimeMs =>
    Prod.map some id <$> engine.prerequisitesComplete operationId nowMs maximumLifetimeMs
  | .approve operationId approval nowMs maximumLifetimeMs =>
    Prod.map some id <$> engine.approve operationId approval nowMs maximumLifetimeMs
  | .expireDue nowMs maximumLifetimeMs => engine.expireDue nowMs maximumLifetimeMs
  | .finishCompleted operationId result =>
    Prod.map some id <$> engine.finishCompleted operationId result
  | .finishFailure operationId failure =>
    Prod.map some id <$> engine.finishFailure operationId failure
  | .recordBatchSignature operationId signature =>
    Prod.map (fun _ => none) id <$> engine.recordBatchSignature operationId signature
  | .completeBatch operationId => Prod.map some id <$> engine.completeBatch operationId
  | .reportProgress operationId event =>
    (fun message => (some (.send message), engine)) <$> engine.reportProgress operationId event

/-- One call. A failed call leaves the engine as it was. -/
def step (call : ProxyCall) : ProxyReply × ProxyOperationEngine :=
  let outcome :=
    match call with
    | .receive message => Prod.map some id <$> engine.receive message
    | .perform call => engine.performed call
  match outcome with
  | .error error => (.error error, engine)
  | .ok (dispatch, engine) => (.ok dispatch, engine)

/-- The engine after one more identifier counts as seen. -/
def remember (operationId : OperationId) : ProxyOperationEngine :=
  { engine with seen := insert operationId engine.seen }

def withLive (operation : AuthorizationTransaction) : ProxyOperationEngine :=
  { engine with live := some operation }

theorem remember_card_le (engine : ProxyOperationEngine) (operationId : OperationId) :
    (engine.remember operationId).seen.card ≤ engine.seen.card + 1 :=
  card_insert_le _ _

/-- Everything one call can do. -/
inductive Effect (engine : ProxyOperationEngine) :
    ProxyCall → ProxyReply → ProxyOperationEngine → Prop where
  | quiet {call : ProxyCall} {reply : ProxyReply} (hQuiet : reply.Quiet) :
      Effect engine call reply engine
  | busy {message : TypedMessage} {operationId : OperationId}
      (hNamed : message.requestedId? = some operationId) (hFresh : operationId ∉ engine.seen) :
      Effect engine (.receive message) (.ok (some (.send (.error (.busy operationId)))))
        (engine.remember operationId)
  | rejected {message : TypedMessage} {operationId : OperationId} {error : ResultError}
      (hNamed : message.requestedId? = some operationId) (hFresh : operationId ∉ engine.seen)
      (hError : ∀ request, message = .operationRequest request → error = .unauthorized) :
      Effect engine (.receive message)
        (.ok (some (.send (.operationResult (.rejection operationId .rejected error)))))
        (engine.remember operationId)
  | admitted {request : OperationRequest} (hFresh : request.operationId ∉ engine.seen)
      (hFree : engine.occupied = false) (hGranted : request.profile ∈ engine.grantedProfiles) :
      Effect engine (.receive (.operationRequest request))
        (.ok (some (.inspectPrerequisites request.operationId)))
        ((engine.remember request.operationId).withLive (.prepare request))
  | consent {call : ProxyLocalCall} {operation : AuthorizationTransaction}
      (hLive : engine.live = some operation) (hStage : operation.stage = .requested) :
      Effect engine (.perform call) (.ok (some (.awaitConsent operation.operationId)))
        (engine.withLive { operation with stage := .awaitingConsent })
  | safeRead {call : ProxyLocalCall} {operation : AuthorizationTransaction}
      (hLive : engine.live = some operation) (hStage : operation.stage = .requested)
      (hSafe : operation.request.operation.isConsequential = false) :
      Effect engine (.perform call)
        (.ok (some (.executeSafeRead operation.operationId ⟨operation.request.operation⟩)))
        (engine.withLive { operation with stage := .executingSafeRead })
  | command {operation : AuthorizationTransaction} {approval : UserApproval}
      {nowMs maximumLifetimeMs deadline : UInt64} (hLive : engine.live = some operation)
      (hStage : operation.stage = .awaitingConsent)
      (hNamed : approval.operationId = operation.operationId)
      (hDeadline : operation.request.localDeadlineMs maximumLifetimeMs = .ok deadline)
      (hApproved : approval.approvedAtMs ≤ deadline) (hNow : nowMs ≤ deadline) :
      Effect engine (.perform (.approve operation.operationId approval nowMs maximumLifetimeMs))
        (.ok (some (.executeCardCommand operation.operationId ⟨operation.request.operation⟩)))
        (engine.withLive { operation with stage := .executing })
  | recorded {call : ProxyLocalCall} {operation : AuthorizationTransaction}
      {signatures : List Bytes} (hLive : engine.live = some operation) :
      Effect engine (.perform call) (.ok none)
        (engine.withLive { operation with batchSignatures := signatures })
  | finished {call : ProxyLocalCall} {operation : AuthorizationTransaction}
      {result : OperationResultMessage} (hLive : engine.live = some operation)
      (hOpen : operation.isTerminal = false)
      (hValid : result.validateFor operation.operationId operation.request.operation = .ok ()) :
      Effect engine (.perform call) (.ok (some (.send (.operationResult result))))
        (engine.withLive { operation with stage := .terminal })

variable {engine after : ProxyOperationEngine} {operationId : OperationId}
  {operation : AuthorizationTransaction} {α : Type} {call : ProxyLocalCall} {event : ProgressEvent}
  {outcome : Except AuthorizationError (α × AuthorizationTransaction)}

section Effect
theorem liveMut_ok (h : engine.liveMut operationId = .ok operation) :
    engine.live = some operation ∧ operation.operationId = operationId := by
  unfold liveMut at h
  split at h
  · rename_i live hLive
    split at h
    · cases h
      exact ⟨hLive, ‹_›⟩
    · cases h
  · cases h

theorem transition_ok {value} (h : engine.transition outcome = .ok (value, after)) :
    ∃ operation, outcome = .ok (value, operation) ∧ after = engine.withLive operation := by
  unfold transition at h
  split at h
  · cases h
  · cases h
    exact ⟨_, rfl, rfl⟩

/-- An answer refuses admission; without one the identifier was fresh and no
operation is pending. -/
theorem admissionRefusal_ok {answer}
    (h : engine.admissionRefusal operationId = .ok (answer, after)) :
    match answer with
    | some dispatch => ∀ message : TypedMessage, message.requestedId? = some operationId →
        Effect engine (.receive message) (.ok (some dispatch)) after
    | none => operationId ∉ engine.seen ∧ after = engine.remember operationId ∧
        engine.occupied = false := by
  unfold admissionRefusal at h
  split at h
  · cases h
    exact fun _ _ => .quiet (.refusal _)
  rename_i hFresh
  split at h
  · cases h
  split at h
  · cases h
    exact fun _ hNamed => .busy hNamed hFresh
  · rename_i hFree
    cases h
    exact ⟨hFresh, rfl, by simpa using hFree⟩

variable {message : TypedMessage} {dispatch : ProxyDispatch}

theorem receive_effect (h : engine.receive message = .ok (dispatch, after)) :
    Effect engine (.receive message) (.ok (some dispatch)) after := by
  cases message with
  | operationRequest request =>
    obtain ⟨⟨answer, remembered⟩, hRefusal, h⟩ := bind_eq_ok.mp h
    cases answer with
    | some answer =>
      cases h
      exact admissionRefusal_ok hRefusal _ rfl
    | none =>
      obtain ⟨hFresh, rfl, hFree⟩ := admissionRefusal_ok hRefusal
      by_cases hGranted : request.profile ∈ engine.grantedProfiles
      · simp only [remember, contains_eq_mem, hGranted, decide_true, Bool.not_true,
          Bool.false_eq_true, if_false] at h
        cases h
        exact .admitted hFresh hFree hGranted
      · simp only [remember, contains_eq_mem, hGranted, decide_false, Bool.not_false, if_true] at h
        cases h
        exact .rejected rfl hFresh fun _ _ => rfl
  | operationRequestRefused refusal =>
    obtain ⟨⟨answer, remembered⟩, hRefusal, h⟩ := bind_eq_ok.mp h
    cases answer with
    | some answer =>
      cases h
      exact admissionRefusal_ok hRefusal _ rfl
    | none =>
      obtain ⟨hFresh, rfl, -⟩ := admissionRefusal_ok hRefusal
      cases h
      exact .rejected rfl hFresh fun _ hOther => by cases hOther
  | operationResult | operationProgress | cardStatus => cases h
  | _ =>
    cases h
    exact .quiet (.notOperation _)

theorem finishFailure_effect {failure}
    (h : engine.finishFailure operationId failure = .ok (dispatch, after)) :
    Effect engine (.perform call) (.ok (some dispatch)) after := by
  obtain ⟨operation, hLive, h⟩ := bind_eq_ok.mp h
  obtain ⟨finished, hFinish, rfl⟩ := transition_ok h
  obtain ⟨finished, hFinish, hEq⟩ := bind_eq_ok.mp hFinish
  obtain ⟨hOpen, hValid, rfl⟩ := finishFailure_ok hFinish
  cases hEq
  exact .finished (liveMut_ok hLive).1 hOpen hValid

theorem finishCompleted_effect {result}
    (h : engine.finishCompleted operationId result = .ok (dispatch, after)) :
    Effect engine (.perform call) (.ok (some dispatch)) after := by
  obtain ⟨operation, hLive, h⟩ := bind_eq_ok.mp h
  obtain ⟨finished, hFinish, rfl⟩ := transition_ok h
  obtain ⟨finished, hFinish, hEq⟩ := bind_eq_ok.mp hFinish
  obtain ⟨hOpen, hValid, rfl, -⟩ := finishCompleted_ok hFinish
  cases hEq
  exact .finished (liveMut_ok hLive).1 hOpen hValid

variable {nowMs maximumLifetimeMs : UInt64}

theorem prerequisitesComplete_effect
    (h : engine.prerequisitesComplete operationId nowMs maximumLifetimeMs = .ok (dispatch, after)) :
    Effect engine (.perform call) (.ok (some dispatch)) after := by
  obtain ⟨operation, hFound, h⟩ := bind_eq_ok.mp h
  obtain ⟨hLive, rfl⟩ := liveMut_ok hFound
  split at h
  · exact finishFailure_effect h
  obtain ⟨moved, hMoved, rfl⟩ := transition_ok h
  obtain ⟨⟨outcome, moved⟩, hOutcome, hEq⟩ := bind_eq_ok.mp hMoved
  obtain ⟨hStage, ⟨rfl, rfl⟩ | ⟨hSafe, rfl, rfl⟩⟩ :=
    prerequisitesComplete_ok hOutcome
  · cases hEq
    exact .consent hLive hStage
  · cases hEq
    exact .safeRead hLive hStage hSafe

theorem approve_effect {approval}
    (h : engine.approve operationId approval nowMs maximumLifetimeMs = .ok (dispatch, after)) :
    Effect engine (.perform (.approve operationId approval nowMs maximumLifetimeMs))
      (.ok (some dispatch)) after := by
  obtain ⟨operation, hFound, h⟩ := bind_eq_ok.mp h
  obtain ⟨hLive, rfl⟩ := liveMut_ok hFound
  split at h
  · exact finishFailure_effect h
  obtain ⟨moved, hMoved, rfl⟩ := transition_ok h
  obtain ⟨⟨command, moved⟩, hApprove, hEq⟩ := bind_eq_ok.mp hMoved
  obtain ⟨hStage, hNamed, ⟨deadline, hDeadline, hApproved, hNow⟩, rfl, rfl⟩ :=
    approve_ok hApprove
  cases hEq
  exact .command hLive hStage hNamed hDeadline hApproved hNow

theorem expireDue_effect {dispatch}
    (h : engine.expireDue nowMs maximumLifetimeMs = .ok (dispatch, after)) :
    Effect engine (.perform call) (.ok dispatch) after := by
  unfold expireDue at h
  split at h
  · cases h
    exact .quiet .nothing
  simp only at h
  split at h
  · cases h
    exact .quiet .nothing
  · obtain ⟨⟨dispatch, moved⟩, hFinish, h⟩ := bind_eq_ok.mp h
    cases h
    exact finishFailure_effect hFinish

end Effect

/-- A call that succeeds with a value tells its caller what the value says. -/
theorem effect_of_map {call told dispatch} {outcome : Except ProxyEngineError (α × ProxyOperationEngine)}
    (h : Prod.map told id <$> outcome = .ok (dispatch, after))
    (hEffect : ∀ value, outcome = .ok (value, after) → Effect engine call (.ok (told value)) after) :
    Effect engine call (.ok dispatch) after := by
  obtain ⟨⟨value, moved⟩, hCall, hEq⟩ := map_eq_ok.mp h
  cases hEq
  exact hEffect value hCall

theorem performed_effect {dispatch : Option ProxyDispatch}
    (h : engine.performed call = .ok (dispatch, after)) :
    Effect engine (.perform call) (.ok dispatch) after := by
  cases call with
  | prerequisitesComplete operationId nowMs maximumLifetimeMs =>
    exact effect_of_map h fun _ => prerequisitesComplete_effect
  | approve operationId approval nowMs maximumLifetimeMs =>
    exact effect_of_map h fun _ => approve_effect
  | expireDue nowMs maximumLifetimeMs => exact expireDue_effect h
  | finishCompleted operationId result => exact effect_of_map h fun _ => finishCompleted_effect
  | finishFailure operationId failure => exact effect_of_map h fun _ => finishFailure_effect
  | recordBatchSignature operationId signature =>
    refine effect_of_map h fun _ h => ?_
    obtain ⟨operation, hLive, h⟩ := bind_eq_ok.mp h
    obtain ⟨moved, hMoved, rfl⟩ := transition_ok h
    obtain ⟨moved, hRecord, hEq⟩ := bind_eq_ok.mp hMoved
    obtain ⟨-, -, rfl⟩ := recordBatchSignature_ok hRecord
    cases hEq
    exact .recorded (liveMut_ok hLive).1
  | completeBatch operationId =>
    refine effect_of_map h fun _ h => ?_
    obtain ⟨operation, -, h⟩ := bind_eq_ok.mp h
    exact finishCompleted_effect h
  | reportProgress operationId event =>
    obtain ⟨message, hCall, hEq⟩ := map_eq_ok.mp h
    cases hEq
    unfold reportProgress at hCall
    split at hCall
    · split at hCall
      · split_ifs at hCall
        cases hCall
        exact .quiet (.progress _)
      · cases hCall
    · cases hCall

variable {request : OperationRequest}

section Errors
variable {error : ProxyEngineError}

/-- Errors of local calls, which the peer has no part in. -/
inductive LocalError : ProxyEngineError → Prop where
  | transition : LocalError .invalidLocalTransition
  | unknown : LocalError .unknownLocalOperation

theorem liveMut_error (h : engine.liveMut operationId = .error error) : LocalError error := by
  unfold liveMut at h
  split at h
  · split_ifs at h
    cases h
    exact .unknown
  · cases h
    exact .unknown

theorem transition_error (h : engine.transition outcome = .error error) : LocalError error := by
  unfold transition at h
  split at h
  · cases h
    exact .transition
  · cases h

theorem liveTransition_error
    {act : AuthorizationTransaction → Except AuthorizationError (α × AuthorizationTransaction)}
    (h : (engine.liveMut operationId >>= fun operation => engine.transition (act operation)) =
      .error error) : LocalError error := by
  rcases bind_eq_error.mp h with h | ⟨operation, -, h⟩
  · exact liveMut_error h
  · exact transition_error h

theorem expireDue_error {nowMs maximumLifetimeMs : UInt64}
    (h : engine.expireDue nowMs maximumLifetimeMs = .error error) : LocalError error := by
  unfold expireDue at h
  split at h
  · cases h
  simp only at h
  split_ifs at h
  rcases bind_eq_error.mp h with h | ⟨moved, -, h⟩
  · exact liveTransition_error h
  · cases h

theorem reportProgress_error (h : engine.reportProgress operationId event = .error error) :
    LocalError error := by
  unfold reportProgress at h
  split at h
  · split at h
    · split at h
      · cases h
        exact .transition
      · cases h
    · cases h
      exact .unknown
  · cases h
    exact .unknown

theorem performed_error (h : engine.performed call = .error error) : LocalError error := by
  cases call with
  | prerequisitesComplete operationId nowMs maximumLifetimeMs
  | approve operationId approval nowMs maximumLifetimeMs =>
    rcases bind_eq_error.mp (map_eq_error.mp h) with h | ⟨operation, -, h⟩
    · exact liveMut_error h
    split at h
    · exact liveTransition_error h
    · exact transition_error h
  | expireDue nowMs maximumLifetimeMs => exact expireDue_error h
  | finishCompleted operationId result | finishFailure operationId failure
  | recordBatchSignature operationId signature => exact liveTransition_error (map_eq_error.mp h)
  | completeBatch operationId =>
    rcases bind_eq_error.mp (map_eq_error.mp h) with h | ⟨operation, -, h⟩
    · exact liveMut_error h
    · exact liveTransition_error h
  | reportProgress operationId event => exact reportProgress_error (map_eq_error.mp h)

/-- A request is refused as a violation only once the session remembers as
many identifiers as it may. -/
theorem receive_request_error (h : engine.receive (.operationRequest request) = .error error) :
    maxSeenOperationIds ≤ engine.seen.card := by
  rcases bind_eq_error.mp h with h | ⟨⟨answer, remembered⟩, -, h⟩
  · unfold admissionRefusal at h
    split at h
    · cases h
    split at h
    · assumption
    · split at h <;> cases h
  · cases answer with
    | some answer => cases h
    | none =>
      by_cases hGranted : request.profile ∈ remembered.grantedProfiles <;> simp [hGranted] at h

end Errors

theorem step_effect (engine : ProxyOperationEngine) (call : ProxyCall) :
    Effect engine call (step engine call).1 (step engine call).2 := by
  unfold step
  simp only
  split
  · exact .quiet (.failed _)
  rename_i dispatch after hOutcome
  cases call with
  | receive message => exact effect_of_map hOutcome fun _ => receive_effect
  | perform call => exact performed_effect hOutcome

theorem violation_of_step {call violation}
    (h : ProxyReply.violation? (step engine call).1 = some violation) :
    ∃ message error, call = .receive message ∧ engine.receive message = .error error := by
  unfold step at h
  simp only at h
  split at h
  · rename_i error hOutcome
    cases call with
    | receive message => exact ⟨message, error, rfl, map_eq_error.mp hOutcome⟩
    | perform call => cases performed_error hOutcome <;> cases h
  · cases h

def admittedBy (event : ProxyEvent) : Option OperationRequest :=
  match event.reply with
  | .ok (some (.inspectPrerequisites _)) =>
    match event.call with
    | .receive (.operationRequest request) => some request
    | _ => none
  | _ => none

def executedBy (event : ProxyEvent) : Option OperationId :=
  match event.reply with
  | .ok (some (.executeSafeRead operationId _)) => some operationId
  | .ok (some (.executeCardCommand operationId _)) => some operationId
  | _ => none

def resultBy (event : ProxyEvent) : Option OperationResultMessage :=
  match event.reply with
  | .ok (some (.send (.operationResult result))) => some result
  | _ => none

variable (past : List ProxyEvent)

/-- The identifiers admitted so far, oldest first. -/
def admittedIds : List OperationId :=
  (past.filterMap admittedBy).map OperationRequest.operationId

/-- The identifiers of the results sent so far, oldest first. -/
def resultIds : List OperationId :=
  (past.filterMap resultBy).map OperationResultMessage.operationId

def pendingIds : List OperationId :=
  (admittedIds past).filter fun operationId => !(resultIds past).contains operationId

structure LiveAccount (profiles : List ProfileName) (admitted : List OperationRequest)
    (executed answered : List OperationId) (operation : AuthorizationTransaction) : Prop where
  admitted : operation.request ∈ admitted
  granted : operation.request.profile ∈ profiles
  unexecuted : operation.stage = .requested ∨ operation.stage = .awaitingConsent →
    operation.operationId ∉ executed
  unanswered : operation.isTerminal = false → operation.operationId ∉ answered

/-- The account of a run: the requests it admitted, the operations that
reached the card and those that have their result. -/
structure Accounted (profiles : List ProfileName) (admitted : List OperationRequest)
    (executed answered : List OperationId) (engine : ProxyOperationEngine) : Prop where
  granted : engine.grantedProfiles = profiles
  admittedOnce : (admitted.map OperationRequest.operationId).Nodup
  admittedSeen : ∀ request ∈ admitted, request.operationId ∈ engine.seen
  executedOnce : executed.Nodup
  executedAdmitted : ∀ operationId ∈ executed, ∃ request ∈ admitted,
    request.operationId = operationId
  answeredOnce : answered.Nodup
  answeredSeen : ∀ operationId ∈ answered, operationId ∈ engine.seen
  live : ∀ operation, engine.live = some operation →
    LiveAccount profiles admitted executed answered operation
  pending : ∀ request ∈ admitted, request.operationId ∉ answered →
    ∃ operation, engine.live = some operation ∧ operation.request = request ∧
      operation.isTerminal = false

variable {profiles : List ProfileName}

section Account
variable {admitted : List OperationRequest} {executed answered : List OperationId}

theorem Accounted.new : Accounted profiles [] [] [] (new profiles) := by
  constructor <;> simp [ProxyOperationEngine.new]

section
variable (h : Accounted profiles admitted executed answered engine)
include h

theorem Accounted.executedSeen (hMem : operationId ∈ executed) : operationId ∈ engine.seen := by
  obtain ⟨request, hAdmitted, rfl⟩ := h.executedAdmitted operationId hMem
  exact h.admittedSeen request hAdmitted

/-- Remembering one more identifier changes nothing else. -/
theorem Accounted.remember (operationId : OperationId) :
    Accounted profiles admitted executed answered (engine.remember operationId) :=
  { h with
    admittedSeen := fun request hMem => mem_insert_of_mem (h.admittedSeen request hMem)
    answeredSeen := fun other hMem => mem_insert_of_mem (h.answeredSeen other hMem) }

/-- A live operation that has no result may move on to any state in which it
still has none. -/
theorem Accounted.moved (moved : AuthorizationTransaction) (hLive : engine.live = some operation)
    (hRequest : moved.request = operation.request)
    (hTerminal : moved.isTerminal = operation.isTerminal)
    (hAccount : LiveAccount profiles admitted executed answered moved) :
    Accounted profiles admitted executed answered (engine.withLive moved) := by
  refine { h with live := ?_, pending := ?_ }
  · intro other hOther
    cases hOther
    exact hAccount
  · intro request hMem hOpen
    obtain ⟨other, hOther, hSame, hNot⟩ := h.pending request hMem hOpen
    rw [hLive] at hOther
    cases hOther
    exact ⟨moved, rfl, hRequest.trans hSame, hTerminal.trans hNot⟩

/-- An operation that had not reached the card reaches it. -/
theorem Accounted.executes (moved : AuthorizationTransaction) (hLive : engine.live = some operation)
    (hStage : operation.stage = .requested ∨ operation.stage = .awaitingConsent)
    (hRequest : moved.request = operation.request)
    (hLater : ¬(moved.stage = .requested ∨ moved.stage = .awaitingConsent))
    (hStill : moved.isTerminal = false) :
    Accounted profiles admitted (executed ++ [operation.operationId]) answered
      (engine.withLive moved) := by
  have hAccount := h.live operation hLive
  have hOpen : operation.isTerminal = false := by
    rcases hStage with hStage | hStage <;> simp [isTerminal, hStage]
  have hId : moved.operationId = operation.operationId :=
    congrArg OperationRequest.operationId hRequest
  have hBefore : LiveAccount profiles admitted executed answered moved := by
    constructor
    · rw [hRequest]
      exact hAccount.admitted
    · rw [hRequest]
      exact hAccount.granted
    · exact fun hEarly => absurd hEarly hLater
    · intro _
      rw [hId]
      exact hAccount.unanswered hOpen
  have hKept := h.moved moved hLive hRequest (hStill.trans hOpen.symm) hBefore
  refine { hKept with executedOnce := ?_, executedAdmitted := ?_, live := ?_ }
  · exact nodup_snoc h.executedOnce (hAccount.unexecuted hStage)
  · exact forall_mem_snoc h.executedAdmitted ⟨operation.request, hAccount.admitted, rfl⟩
  intro other hOther
  cases hOther
  exact { hBefore with unexecuted := fun hEarly => absurd hEarly hLater }

/-- A request with a fresh identifier is admitted while nothing is pending. -/
theorem Accounted.admits (hFresh : request.operationId ∉ engine.seen)
    (hFree : engine.occupied = false) (hGranted : request.profile ∈ engine.grantedProfiles) :
    Accounted profiles (admitted ++ [request]) executed answered
      ((engine.remember request.operationId).withLive (.prepare request)) := by
  have hKept := h.remember request.operationId
  refine { hKept with
    admittedOnce := ?_, admittedSeen := ?_, executedAdmitted := ?_, live := ?_, pending := ?_ }
  · exact nodup_map_snoc h.admittedOnce fun other hOther hSame =>
      hFresh (hSame ▸ h.admittedSeen other hOther)
  · exact forall_mem_snoc hKept.admittedSeen (mem_insert_self _ _)
  · intro operationId hMem
    obtain ⟨other, hOther, hSame⟩ := h.executedAdmitted operationId hMem
    exact ⟨other, mem_append_left _ hOther, hSame⟩
  · intro operation hLive
    cases hLive
    constructor
    · exact List.mem_append_right _ (List.mem_singleton_self _)
    · rw [← h.granted]
      exact hGranted
    · exact fun _ hMem => hFresh (h.executedSeen hMem)
    · exact fun _ hMem => hFresh (h.answeredSeen _ hMem)
  · refine forall_mem_snoc (fun other hMem hOpen => ?_) fun _ => ⟨.prepare request, rfl, rfl, rfl⟩
    obtain ⟨operation, hLive, -, hNot⟩ := h.pending other hMem hOpen
    simp [occupied, hLive, hNot] at hFree

/-- A request that is not admitted gets the one result of its identifier. -/
theorem Accounted.rejects (hFresh : operationId ∉ engine.seen) :
    Accounted profiles admitted executed (answered ++ [operationId])
      (engine.remember operationId) := by
  have hKept := h.remember operationId
  refine { hKept with answeredOnce := ?_, answeredSeen := ?_, live := ?_, pending := ?_ }
  · exact nodup_snoc h.answeredOnce fun hMem => hFresh (h.answeredSeen _ hMem)
  · exact forall_mem_snoc hKept.answeredSeen (mem_insert_self _ _)
  · intro operation hLive
    have hAccount := h.live operation hLive
    refine { hAccount with unanswered := fun hOpen hMem => ?_ }
    rcases mem_append.mp hMem with hMem | hMem
    · exact hAccount.unanswered hOpen hMem
    · rw [← List.mem_singleton.mp hMem] at hFresh
      exact hFresh (h.admittedSeen _ hAccount.admitted)
  · intro request hMem hOpen
    exact h.pending request hMem fun hAnswered => hOpen (mem_append_left _ hAnswered)

theorem Accounted.finishes
    (hLive : engine.live = some operation) (hOpen : operation.isTerminal = false) :
    Accounted profiles admitted executed (answered ++ [operation.operationId])
      (engine.withLive { operation with stage := .terminal }) := by
  have hAccount := h.live operation hLive
  refine { h with answeredOnce := ?_, answeredSeen := ?_, live := ?_, pending := ?_ }
  · exact nodup_snoc h.answeredOnce (hAccount.unanswered hOpen)
  · exact forall_mem_snoc h.answeredSeen (h.admittedSeen _ hAccount.admitted)
  · intro other hOther
    cases hOther
    exact ⟨hAccount.admitted, hAccount.granted, by simp, by simp [isTerminal]⟩
  intro request hMem hUnanswered
  simp only [List.mem_append, List.mem_singleton, not_or] at hUnanswered
  obtain ⟨other, hOther, hSame, -⟩ := h.pending request hMem hUnanswered.1
  rw [hLive] at hOther
  cases hOther
  exact absurd (congrArg OperationRequest.operationId hSame).symm hUnanswered.2

end

end Account

def AccountedBy (profiles : List ProfileName) (past : List ProxyEvent)
    (engine : ProxyOperationEngine) : Prop :=
  Accounted profiles (past.filterMap admittedBy) (past.filterMap executedBy) (resultIds past) engine

section Run
variable {past : List ProxyEvent} {call : ProxyCall} {reply : ProxyReply}

theorem resultIds_append_singleton (event : ProxyEvent) : resultIds (past ++ [event]) =
      resultIds past ++ ((resultBy event).map OperationResultMessage.operationId).toList := by
  rw [resultIds, filterMap_append_singleton, map_append, resultIds]
  cases resultBy event <;> rfl

/-- Each effect keeps the custodian's account. -/
theorem AccountedBy.effect (h : AccountedBy profiles past engine)
    (hEffect : Effect engine call reply after) :
    AccountedBy profiles (past ++ [⟨engine, call, reply⟩]) after := by
  rw [AccountedBy, filterMap_append_singleton, filterMap_append_singleton,
    resultIds_append_singleton]
  cases hEffect with
  | quiet hQuiet =>
    cases hQuiet <;> simpa [admittedBy, executedBy, resultBy, AccountedBy] using h
  | busy hNamed hFresh => simpa [admittedBy, executedBy, resultBy] using h.remember _
  | rejected hNamed hFresh hError =>
    simpa [admittedBy, executedBy, resultBy, OperationResultMessage.rejection] using
      h.rejects hFresh
  | admitted hFresh hFree hGranted =>
    simpa [admittedBy, executedBy, resultBy] using h.admits hFresh hFree hGranted
  | @consent call operation hLive hStage =>
    have hAccount := h.live operation hLive
    have hOpen : operation.isTerminal = false := by
      simp [isTerminal, hStage]
    have hMoved := h.moved { operation with stage := .awaitingConsent }
      hLive rfl hOpen.symm ⟨hAccount.admitted, hAccount.granted,
        fun _ => hAccount.unexecuted (Or.inl hStage), fun _ => hAccount.unanswered hOpen⟩
    simpa [admittedBy, executedBy, resultBy] using hMoved
  | @safeRead call operation hLive hStage hSafe =>
    simpa [admittedBy, executedBy, resultBy] using
      h.executes { operation with stage := .executingSafeRead } hLive (Or.inl hStage) rfl
        (by simp) rfl
  | @command operation approval nowMs maximumLifetimeMs deadline hLive hStage _ _ _ _ =>
    simpa [admittedBy, executedBy, resultBy] using
      h.executes { operation with stage := .executing } hLive (Or.inr hStage) rfl
        (by simp) rfl
  | @recorded call operation signatures hLive =>
    have hAccount := h.live operation hLive
    have hMoved := h.moved { operation with batchSignatures := signatures }
      hLive rfl rfl ⟨hAccount.admitted, hAccount.granted, hAccount.unexecuted, hAccount.unanswered⟩
    simpa [admittedBy, executedBy, resultBy] using hMoved
  | finished hLive hOpen hValid =>
    have hNamed := (OperationResultMessage.validateFor_ok hValid).1
    simpa [admittedBy, executedBy, resultBy, hNamed] using h.finishes hLive hOpen

theorem accounted (profiles : List ProfileName) (calls : List ProxyCall) :
    AccountedBy profiles (history step (new profiles) calls) (final step (new profiles) calls) :=
  history_invariant step Accounted.new (fun _ state call h => h.effect (step_effect state call)) calls

theorem AccountedBy.pending_le_one (h : AccountedBy profiles past engine) :
    (pendingIds past).length ≤ 1 := by
  have hLive : ∀ operationId ∈ pendingIds past,
      (engine.live.map AuthorizationTransaction.operationId) = some operationId := by
    intro operationId hMem
    obtain ⟨hAdmitted, hOpen⟩ := mem_filter.mp hMem
    obtain ⟨request, hRequest, rfl⟩ := mem_map.mp hAdmitted
    obtain ⟨operation, hLive, hSame, -⟩ := h.pending request hRequest (by simpa using hOpen)
    rw [hLive, ← hSame]
    rfl
  have hNodup : (pendingIds past).Nodup := h.admittedOnce.filter _
  rcases hList : pendingIds past with _ | ⟨first, _ | ⟨second, rest⟩⟩
  · simp
  · simp
  rw [hList] at hLive hNodup
  have hFirst := hLive first (by simp)
  rw [hLive second (by simp)] at hFirst
  cases hFirst
  simp at hNodup

/-- A card command carries the operation of a request admitted before it,
whose profile is granted, and answers an approval of that operation within
its deadline. -/
def CommandAuthorized (profiles : List ProfileName) (before : List ProxyEvent)
    (event : ProxyEvent) : Prop :=
  ∀ operationId command, event.reply = .ok (some (.executeCardCommand operationId command)) →
      ∃ request approval nowMs maximumLifetimeMs,
        event.call = .perform (.approve operationId approval nowMs maximumLifetimeMs) ∧
        request ∈ before.filterMap admittedBy ∧ request.operationId = operationId ∧
        command.operation = request.operation ∧ request.profile ∈ profiles ∧
        approval.operationId = operationId ∧
        nowMs.toNat ≤ request.localStartMs.toNat +
          min request.expiresAfterMs.toNat maximumLifetimeMs.toNat ∧
        approval.approvedAtMs.toNat ≤ request.localStartMs.toNat +
          min request.expiresAfterMs.toNat maximumLifetimeMs.toNat

/-- A read without consent is the operation of a request admitted before it
and commands no private key. -/
def ReadHarmless (before : List ProxyEvent) (event : ProxyEvent) : Prop :=
  ∀ operationId read, event.reply = .ok (some (.executeSafeRead operationId read)) →
    ∃ request ∈ before.filterMap admittedBy, request.operationId = operationId ∧
      read.operation = request.operation ∧ read.operation.isConsequential = false

theorem Effect.authorized (h : AccountedBy profiles past engine)
    (hEffect : Effect engine call reply after) :
    CommandAuthorized profiles past ⟨engine, call, reply⟩ ∧ ReadHarmless past ⟨engine, call, reply⟩ := by
  cases hEffect with
  | quiet hQuiet => cases hQuiet <;> exact ⟨nofun, nofun⟩
  | @command operation approval nowMs maximumLifetimeMs deadline hLive hStage hNamed hDeadline
      hApproved hNow =>
      refine ⟨?_, nofun⟩
      rintro operationId command ⟨⟩
      have hAccount := h.live operation hLive
      have hBound := OperationRequest.localDeadlineMs_le hDeadline
      have hNowNat : nowMs.toNat ≤ deadline.toNat := hNow
      have hApprovedNat : approval.approvedAtMs.toNat ≤ deadline.toNat := hApproved
      exact ⟨operation.request, approval, nowMs, maximumLifetimeMs, rfl, hAccount.admitted, rfl, rfl,
        hAccount.granted, hNamed, hNowNat.trans hBound, hApprovedNat.trans hBound⟩
  | @safeRead call operation hLive hStage hSafe =>
    refine ⟨nofun, ?_⟩
    rintro operationId read ⟨⟩
    exact ⟨operation.request, (h.live operation hLive).admitted, rfl, rfl, hSafe⟩
  | _ => exact ⟨nofun, nofun⟩

/-- In every run of a session the card is commanded only as the holder
approved: at most one operation is pending, identifiers are admitted,
executed and answered at most once, commands carry an admitted operation of
a granted profile and answer an approval within its deadline, and reads
without consent command no private key. -/
theorem card_command_authorization (profiles : List ProfileName) (calls : List ProxyCall) :
    let past := history step (new profiles) calls
    (pendingIds past).length ≤ 1 ∧ (admittedIds past).Nodup ∧ (past.filterMap executedBy).Nodup ∧
      (∀ operationId ∈ past.filterMap executedBy, operationId ∈ admittedIds past) ∧
      (resultIds past).Nodup ∧
      ∀ before event after, past = before ++ event :: after →
        CommandAuthorized profiles before event ∧ ReadHarmless before event := by
  intro past
  have hAccount := accounted profiles calls
  refine ⟨hAccount.pending_le_one, hAccount.admittedOnce, hAccount.executedOnce,
    fun operationId hMem => mem_map.mpr (hAccount.executedAdmitted operationId hMem),
    hAccount.answeredOnce, fun before event after hSplit => ?_⟩
  obtain ⟨first, -, -, rfl, hEvent, -⟩ := history_split step hSplit
  rw [hEvent]
  exact (step_effect (final step (new profiles) first) event.call).authorized (accounted profiles first)

end Run

end ProxyOperationEngine

end RefineId.Rapp
