import RefineId.Rapp.ProxyRun
import RefineId.Rapp.RequesterEngine

/-! The two operation engines of one session, joined by queues that lose and
reorder nothing. -/
namespace RefineId.Rapp

open Data Semantics ProxyOperationEngine ProxyReply RequesterOperationEngine
open List OperationResultMessage Option

structure OperationLink where
  requester : RequesterOperationEngine
  custodian : ProxyOperationEngine
  toCustodian : List TypedMessage
  toRequester : List TypedMessage

inductive OperationLinkCall where
  | begin (request : OperationRequest)
  | cancel (operationId : OperationId)
  | deliverToCustodian
  | deliverToRequester
  | custodian (call : ProxyLocalCall)

/-- The reply of the engine that was called; a delivery from an empty queue
calls neither. -/
inductive OperationLinkReply where
  | idle
  | requester (reply : RequesterReply)
  | custodian (reply : ProxyReply)

abbrev OperationLinkEvent := Event OperationLink OperationLinkCall OperationLinkReply

def ProxyReply.outgoing : ProxyReply → List TypedMessage
  | .ok (some (.send message)) => [message]
  | _ => []

namespace OperationLink

def start (profiles : List ProfileName) : OperationLink :=
  ⟨.new, .new profiles, [], []⟩

variable (link : OperationLink)

def ask (call : RequesterCall) : OperationLinkReply × OperationLink :=
  match link.requester.step call with
  | (reply, requester) =>
    (.requester reply,
      { link with requester := requester, toCustodian := link.toCustodian ++ reply.outgoing })

def serve (call : ProxyCall) : OperationLinkReply × OperationLink :=
  match link.custodian.step call with
  | (reply, custodian) =>
    (.custodian reply,
      { link with custodian := custodian
                  toRequester := link.toRequester ++ ProxyReply.outgoing reply })

def step : OperationLinkCall → OperationLinkReply × OperationLink
  | .begin request => link.ask (.begin request)
  | .cancel operationId => link.ask (.cancel operationId)
  | .deliverToCustodian =>
    match link.toCustodian with
    | [] => (.idle, link)
    | message :: rest => { link with toCustodian := rest }.serve (.receive message)
  | .deliverToRequester =>
    match link.toRequester with
    | [] => (.idle, link)
    | message :: rest => { link with toRequester := rest }.ask (.receive message)
  | .custodian call => link.serve (.perform call)

def requesterCall : OperationLinkCall → Option RequesterCall
  | .begin request => some (.begin request)
  | .cancel operationId => some (.cancel operationId)
  | .deliverToRequester => link.toRequester.head?.map .receive
  | _ => none

def custodianCall : OperationLinkCall → Option ProxyCall
  | .deliverToCustodian => link.toCustodian.head?.map .receive
  | .custodian call => some (.perform call)
  | _ => none

def requesterEvent (event : OperationLinkEvent) : Option RequesterEvent :=
  match event.state.requesterCall event.call, event.reply with
  | some call, .requester reply => some ⟨event.state.requester, call, reply⟩
  | _, _ => none

def custodianEvent (event : OperationLinkEvent) : Option ProxyEvent :=
  match event.state.custodianCall event.call, event.reply with
  | some call, .custodian reply => some ⟨event.state.custodian, call, reply⟩
  | _, _ => none

def begun (past : List OperationLinkEvent) : List OperationRequest :=
  (past.filterMap requesterEvent).filterMap RequesterOperationEngine.begunBy

def results (past : List OperationLinkEvent) : List OperationResultMessage :=
  (past.filterMap custodianEvent).filterMap ProxyOperationEngine.resultBy

variable (call : OperationLinkCall)

theorem requesterEvent_event : requesterEvent (event step link call) =
      (link.requesterCall call).map (event RequesterOperationEngine.step link.requester) := by
  cases call with
  | deliverToRequester =>
    cases hQueue : link.toRequester with
    | nil => simp [requesterEvent, event, requesterCall, hQueue]
    | cons message rest => simp [requesterEvent, event, requesterCall, hQueue, step, ask]
  | _ => rfl

theorem custodianEvent_event : custodianEvent (event step link call) =
      (link.custodianCall call).map (event ProxyOperationEngine.step link.custodian) := by
  cases call with
  | deliverToCustodian =>
    cases hQueue : link.toCustodian with
    | nil => simp [custodianEvent, event, custodianCall, hQueue]
    | cons message rest => simp [custodianEvent, event, custodianCall, hQueue, step, serve]
  | _ => rfl

theorem requester_step : (step link call).2.requester = ((link.requesterCall call).map fun part =>
        (RequesterOperationEngine.step link.requester part).2).getD link.requester := by
  cases call with
  | deliverToCustodian => cases hQueue : link.toCustodian <;> simp [step, requesterCall, hQueue, serve]
  | deliverToRequester => cases hQueue : link.toRequester <;> simp [step, requesterCall, hQueue, ask]
  | _ => rfl

theorem custodian_step : (step link call).2.custodian = ((link.custodianCall call).map fun part =>
        (ProxyOperationEngine.step link.custodian part).2).getD link.custodian := by
  cases call with
  | deliverToCustodian => cases hQueue : link.toCustodian <;> simp [step, custodianCall, hQueue, serve]
  | deliverToRequester => cases hQueue : link.toRequester <;> simp [step, custodianCall, hQueue, ask]
  | _ => rfl

variable (profiles : List ProfileName)

/-- The requester's share of a run is a run of its engine. -/
theorem requester_accounted (calls : List OperationLinkCall) : RequesterOperationEngine.AccountedBy
      ((history step (start profiles) calls).filterMap requesterEvent)
      (final step (start profiles) calls).requester := by
  obtain ⟨partCalls, hHistory, hFinal⟩ :=
    history_project step requesterEvent_event requester_step (start profiles) calls
  rw [← hHistory, ← hFinal]
  exact accounted partCalls

/-- What may travel to the requester: a result the custodian sent for a begun
request which it answers, an error or a progress message. -/
inductive Answer (begun : List OperationRequest) (results : List OperationResultMessage) :
    TypedMessage → Prop where
  | result {request : OperationRequest} {result : OperationResultMessage}
      (hBegun : request ∈ begun) (hSent : result ∈ results)
      (hValid : result.validateFor request.operationId request.operation = .ok ()) :
      Answer begun results (.operationResult result)
  | error (error : ProtocolErrorMessage) : Answer begun results (.error error)
  | progress (progress : OperationProgressMessage) :
      Answer begun results (.operationProgress progress)

variable {message : TypedMessage}

theorem Answer.mono {begun begun' results results'} (h : Answer begun results message)
    (hBegun : begun ⊆ begun') (hResults : results ⊆ results') : Answer begun' results' message := by
  cases h with
  | result hMem hSent hValid => exact .result (hBegun hMem) (hResults hSent) hValid
  | error error => exact .error error
  | progress progress => exact .progress progress

/-- Both queues and the custodian hold only what belongs to begun requests,
and each of these was remembered at most once. -/
structure Joined (begun : List OperationRequest) (results : List OperationResultMessage)
    (link : OperationLink) : Prop where
  requests : ∀ message ∈ link.toCustodian, ∃ request ∈ begun, message = .operationRequest request
  admitted : ∀ operation, link.custodian.live = some operation → operation.request ∈ begun
  answers : ∀ message ∈ link.toRequester, Answer begun results message
  remembered : link.custodian.seen.card + link.toCustodian.length ≤ begun.length

variable {requests : List OperationRequest} {sent : List OperationResultMessage}
  {link : OperationLink} {call : RequesterCall} {reply : RequesterReply}

section Joined
theorem Joined.ask (h : Joined requests sent link) (call : RequesterCall) :
    Joined (requests ++ (begunBy (event RequesterOperationEngine.step link.requester call)).toList)
      sent (link.ask call).2 := by
  have hEffect := step_effect link.requester call
  unfold OperationLink.ask event
  generalize RequesterOperationEngine.step link.requester call = answer at hEffect ⊢
  obtain ⟨reply, after⟩ := answer
  dsimp only at hEffect ⊢
  have hOutgoing : reply.outgoing = (begunBy ⟨link.requester, call, reply⟩).toList.map
        .operationRequest := by
    cases hEffect with
    | quiet hSilent => simp [hSilent, begunBy_of_silent hSilent]
    | _ => rfl
  have hMore : requests ⊆ requests ++ (begunBy ⟨link.requester, call, reply⟩).toList :=
    subset_append_left _ _
  constructor
  · intro message hMem
    rw [hOutgoing] at hMem
    rcases mem_append.mp hMem with hMem | hMem
    · obtain ⟨request, hRequest, rfl⟩ := h.requests message hMem
      exact ⟨request, hMore hRequest, rfl⟩
    · obtain ⟨request, hRequest, rfl⟩ := mem_map.mp hMem
      exact ⟨request, mem_append_right _ hRequest, rfl⟩
  · exact fun operation hLive => hMore (h.admitted operation hLive)
  · exact fun message hMem => (h.answers message hMem).mono hMore (Subset.refl _)
  · have hSize := h.remembered
    simp only [hOutgoing, length_append, length_map]
    omega

theorem Joined.admitted_moved (h : Joined requests sent link)
    {operation moved} (hLive : link.custodian.live = some operation)
    (hRequest : moved.request = operation.request) :
    ∀ other, (link.custodian.withLive moved).live = some other → other.request ∈ requests := by
  intro other hOther
  cases hOther
  rw [hRequest]
  exact h.admitted operation hLive

variable {after : ProxyOperationEngine}

/-- A new state of the custodian together with what it sends. -/
theorem Joined.answered (h : Joined requests sent link) {more} {messages : List TypedMessage}
    (hLive : ∀ operation, after.live = some operation → operation.request ∈ requests)
    (hSeen : after.seen.card + link.toCustodian.length ≤ requests.length)
    (hMessages : ∀ message ∈ messages, Answer requests (sent ++ more) message) :
    Joined requests (sent ++ more)
      { link with custodian := after, toRequester := link.toRequester ++ messages } where
  requests := h.requests
  admitted := hLive
  answers := forall_mem_append.mpr ⟨fun message hMem =>
    (h.answers message hMem).mono (Subset.refl _) (subset_append_left _ _), hMessages⟩
  remembered := hSeen

section
variable (h : Joined requests sent link)
include h

/-- Serving a call keeps everything within the begun requests. -/
theorem Joined.serve {call} (hCall : ∀ message, call = .receive message →
      (∃ request ∈ requests, message = .operationRequest request) ∧
        link.custodian.seen.card + link.toCustodian.length < requests.length) :
    Joined requests (sent ++ (resultBy (event ProxyOperationEngine.step link.custodian call)).toList)
      (link.serve call).2 := by
  have hEffect := step_effect link.custodian call
  unfold OperationLink.serve event
  generalize ProxyOperationEngine.step link.custodian call = answer at hEffect ⊢
  obtain ⟨reply, after⟩ := answer
  dsimp only at hEffect ⊢
  cases hEffect with
  | quiet hQuiet =>
    refine h.answered h.admitted h.remembered ?_
    cases hQuiet with
    | refusal error => exact forall_mem_singleton.mpr (.error error)
    | progress progress => exact forall_mem_singleton.mpr (.progress progress)
    | _ => exact fun _ hMem => by cases hMem
  | @busy message operationId hNamed hFresh =>
    have hSize := (hCall message rfl).2
    have hCard := link.custodian.remember_card_le operationId
    exact h.answered h.admitted (by omega) (forall_mem_singleton.mpr (.error _))
  | @rejected message operationId error hNamed hFresh hError =>
    obtain ⟨⟨request, hBegun, rfl⟩, hSize⟩ := hCall message rfl
    obtain rfl := hError request rfl
    obtain rfl := some.inj hNamed
    have hCard := link.custodian.remember_card_le request.operationId
    exact h.answered h.admitted (by omega)
      (forall_mem_singleton.mpr (.result hBegun (mem_append_right _ (mem_singleton_self _))
        (by simp [validateFor, rejection, isConsistent, ResultError.permits])))
  | @admitted request hFresh hFree hGranted =>
    obtain ⟨⟨other, hBegun, hSame⟩, hSize⟩ := hCall _ rfl
    cases hSame
    have hCard := link.custodian.remember_card_le request.operationId
    refine h.answered ?_ (Nat.le_trans (Nat.add_le_add_right hCard _) (by omega))
      (by simp [outgoing])
    intro operation hLive
    cases hLive
    exact hBegun
  | finished hLive hOpen hValid =>
    exact h.answered (h.admitted_moved hLive rfl) h.remembered (forall_mem_singleton.mpr
      (.result (h.admitted _ hLive) (mem_append_right _ (mem_singleton_self _)) hValid))
  | consent hLive hStage | safeRead hLive hStage hSafe | command hLive | recorded hLive =>
    exact h.answered (h.admitted_moved hLive rfl) h.remembered (by simp [outgoing])

/-- The first message of a queue leaves room for one more identifier. -/
theorem Joined.deliver {rest : List TypedMessage} (hQueue : link.toCustodian = message :: rest) :
    Joined requests (sent ++ (resultBy
        (event ProxyOperationEngine.step link.custodian (.receive message))).toList)
      ({ link with toCustodian := rest }.serve (.receive message)).2 := by
  have hRequests := h.requests
  have hSize := h.remembered
  rw [hQueue] at hRequests hSize
  have hRest : Joined requests sent { link with toCustodian := rest } :=
    ⟨fun other hMem => hRequests other (mem_cons_of_mem _ hMem), h.admitted, h.answers,
      Nat.le_trans (Nat.add_le_add_left (by simp) _) hSize⟩
  refine hRest.serve ?_
  intro other hOther
  cases hOther
  refine ⟨hRequests message mem_cons_self, ?_⟩
  rw [length_cons] at hSize
  exact hSize

end

end Joined

section Run
variable {past : List OperationLinkEvent}

theorem begun_append (event : OperationLinkEvent) : begun (past ++ [event]) =
      begun past ++ ((requesterEvent event).bind begunBy).toList := filterMap_filterMap_append_singleton _ _ event

theorem results_append (event : OperationLinkEvent) : results (past ++ [event]) =
      results past ++ ((custodianEvent event).bind resultBy).toList := filterMap_filterMap_append_singleton _ _ event

theorem Joined.step (h : Joined (begun past) (results past) link) (call : OperationLinkCall) :
    Joined (begun (past ++ [event step link call])) (results (past ++ [event step link call]))
      (step link call).2 := by
  rw [begun_append, results_append, requesterEvent_event, custodianEvent_event]
  cases call <;> simp only [requesterCall, custodianCall, OperationLink.step]
  case begin request => simpa using h.ask (.begin request)
  case cancel operationId => simpa using h.ask (.cancel operationId)
  case deliverToCustodian =>
    cases hQueue : link.toCustodian with
    | nil => simpa using h
    | cons message rest => simpa using h.deliver hQueue
  case deliverToRequester =>
    cases hQueue : link.toRequester with
    | nil => simpa using h
    | cons message rest =>
      have hRest : Joined (begun past) (results past) { link with toRequester := rest } := by
        refine { h with answers := fun other hMem => h.answers other ?_ }
        rw [hQueue]
        exact mem_cons_of_mem _ hMem
      simpa using hRest.ask (.receive message)
  case custodian call => simpa using @Joined.serve _ _ _ h (.perform call) nofun

theorem joined (calls : List OperationLinkCall) :
    Joined (begun (history step (start profiles) calls)) (results (history step (start profiles) calls))
      (final step (start profiles) calls) :=
  history_invariant step (P := fun past link => Joined (begun past) (results past) link)
    ⟨by simp [start], by simp [start, ProxyOperationEngine.new], by simp [start],
      by simp [start, ProxyOperationEngine.new]⟩
    (fun _ _ call h => h.step call) calls

/-- A completed or ended dispatch carries what the custodian sent for the
begun request of that identifier. -/
def CarriesResult (requests : List OperationRequest) (sent : List OperationResultMessage)
    (event : RequesterEvent) : Prop :=
  (∀ operationId typed, event.reply = .received (.ok (.completed operationId typed)) →
    ∃ request ∈ requests, ∃ result ∈ sent,
      request.operationId = operationId ∧ result.operationId = operationId ∧
      ∃ response, result.response = some response ∧
        response.typedFor request.operation = .ok typed) ∧
  ∀ operationId status error, event.reply = .received (.ok (.ended operationId status error)) →
      ∃ request ∈ requests, ∃ result ∈ sent,
        request.operationId = operationId ∧ result.operationId = operationId ∧
        result.status = status ∧ result.error = some error

section Delivery
variable {engine after : RequesterOperationEngine}

/-- What the requester's engine is given is an answer whenever it is a
message. -/
def Fed (requests : List OperationRequest) (sent : List OperationResultMessage)
    (call : RequesterCall) : Prop :=
  ∀ message, call = .receive message → Answer requests sent message

theorem Fed.mem_sent {result}
    (h : Fed requests sent (.receive (.operationResult result))) : result ∈ sent := by
  cases h _ rfl with
  | result hBegun hSent hValid => exact hSent

section
variable (hFed : Fed requests sent call)
  (hLiveBegun : ∀ request, engine.live = some request → request ∈ requests)
  (hEffect : RequesterOperationEngine.Effect engine call reply after)
include hFed hLiveBegun hEffect

theorem carriesResult_of_effect : CarriesResult requests sent ⟨engine, call, reply⟩ := by
  cases hEffect with
  | quiet hSilent hNamed =>
    refine ⟨fun operationId typed hReply => ?_, fun operationId status error hReply => ?_⟩ <;>
    · rw [show reply = _ from hReply] at hNamed
      cases hNamed
  | @completed request result response typed hLive hValid hResponse hTyped =>
    refine ⟨fun operationId typed hReply => ?_, nofun⟩
    cases hReply
    exact ⟨request, hLiveBegun request hLive, result, hFed.mem_sent, rfl,
      (validateFor_ok hValid).1, response, hResponse, hTyped⟩
  | @ended request result error hLive hValid hError =>
    refine ⟨nofun, fun operationId status error hReply => ?_⟩
    cases hReply
    exact ⟨request, hLiveBegun request hLive, result, hFed.mem_sent, rfl,
      (validateFor_ok hValid).1, rfl, hError⟩
  | _ => exact ⟨nofun, nofun⟩

theorem no_violation_of_effect (hOnce : (requests.map OperationRequest.operationId).Nodup) :
    reply.violation? = none := by
  cases hEffect with
  | quiet hSilent hNamed hAnswers hHonest =>
    rcases hHonest with hNone | ⟨message, operationId, rfl, hRequested⟩
    · exact hNone
    · cases hFed message rfl <;> cases hRequested
  | @lost request result hLive hNamed hInvalid =>
    exfalso
    cases hFed _ rfl with
    | @result other _ hBegun hSent hValid =>
      have hOther := (validateFor_ok hValid).1
      have hSame := inj_on_of_nodup_map hOnce hBegun (hLiveBegun request hLive)
        (hOther.symm.trans hNamed)
      rw [hSame] at hValid
      exact hInvalid hValid
  | _ => rfl

end

theorem Joined.fed (h : Joined requests sent link) {call part} (hPart : link.requesterCall call = some part) :
    Fed requests sent part := by
  intro message hMessage
  subst hMessage
  cases call with
  | deliverToRequester =>
    cases hQueue : link.toRequester with
    | nil => simp [requesterCall, hQueue] at hPart
    | cons head rest =>
      simp only [requesterCall, hQueue, head?_cons, map_some, some.injEq,
        RequesterCall.receive.injEq] at hPart
      subst hPart
      exact h.answers head (by simp [hQueue])
  | _ => cases hPart

/-- A request that waits to be delivered is remembered without exhausting
the custodian, as long as few enough were begun. -/
theorem Joined.no_custodian_violation (h : Joined requests sent link)
    (hFew : requests.length ≤ maxSeenOperationIds) {call part}
    (hPart : link.custodianCall call = some part) :
    violation? (ProxyOperationEngine.step link.custodian part).1 = none := by
  rw [eq_none_iff_forall_ne_some]
  intro violation hViolation
  obtain ⟨message, error, rfl, hError⟩ := violation_of_step hViolation
  cases call with
  | deliverToCustodian =>
    cases hQueue : link.toCustodian with
    | nil => simp [custodianCall, hQueue] at hPart
    | cons head rest =>
      simp only [custodianCall, hQueue, head?_cons, map_some, some.injEq,
        ProxyCall.receive.injEq] at hPart
      subst hPart
      obtain ⟨request, -, rfl⟩ := h.requests head (by simp [hQueue])
      have hFull := receive_request_error hError
      have hSize := h.remembered
      rw [hQueue, length_cons] at hSize
      omega
  | _ => cases hPart

end Delivery

/-- A violation either engine reports. -/
def violates (event : OperationLinkEvent) : Bool :=
  match event.reply with
  | .idle => false
  | .requester reply => reply.violation?.isSome
  | .custodian reply => (ProxyReply.violation? reply).isSome

theorem not_violates_of_parts {call}
    (hRequester : ∀ part, link.requesterCall call = some part →
      (RequesterOperationEngine.step link.requester part).1.violation? = none)
    (hCustodian : ∀ part, link.custodianCall call = some part →
      ProxyReply.violation? (ProxyOperationEngine.step link.custodian part).1 = none) :
    violates (event step link call) = false := by
  cases call with
  | begin request | cancel operationId => simpa [violates, event, step, ask] using hRequester _ rfl
  | deliverToCustodian =>
    cases hQueue : link.toCustodian with
    | nil => simp [violates, event, step, hQueue]
    | cons message rest =>
      simpa [violates, event, step, hQueue, serve] using
        hCustodian (.receive message) (by simp [custodianCall, hQueue])
  | deliverToRequester =>
    cases hQueue : link.toRequester with
    | nil => simp [violates, event, step, hQueue]
    | cons message rest =>
      simpa [violates, event, step, hQueue, ask] using
        hRequester (.receive message) (by simp [requesterCall, hQueue])
  | custodian call => simpa [violates, event, step, serve] using hCustodian _ rfl

/-- The operations completed or ended so far, as the requester reported them. -/
def answeredIds (past : List OperationLinkEvent) : List OperationId :=
  (past.filterMap requesterEvent).filterMap RequesterOperationEngine.answeredBy

def cancelledIds (past : List OperationLinkEvent) : List OperationId :=
  (past.filterMap requesterEvent).filterMap RequesterOperationEngine.cancelledBy

/-- No operation is answered twice, or answered and cancelled, and only begun
ones are answered. -/
theorem answered_once (calls : List OperationLinkCall) :
    (answeredIds (history step (start profiles) calls)).Nodup ∧
      ∀ operationId ∈ answeredIds (history step (start profiles) calls),
        operationId ∈ (begun (history step (start profiles) calls)).map
            OperationRequest.operationId ∧
          operationId ∉ cancelledIds (history step (start profiles) calls) := by
  have hRequester := requester_accounted profiles calls
  have hCount := hRequester.answered_add_cancelled_le_one
  refine ⟨nodup_iff_count_le_one.mpr fun operationId => ?_, fun operationId hMem => ⟨?_, ?_⟩⟩
  · exact Nat.le_trans (Nat.le_add_right _ _) (hCount operationId)
  · obtain ⟨event, hEvent, hAnswered⟩ := mem_filterMap.mp hMem
    have hNamed := mem_filterMap.mpr ⟨event, hEvent, namedBy_of_answeredBy hAnswered⟩
    have hBalance := hRequester.balance operationId
    have hPos := count_pos_iff.mpr hNamed
    rw [← count_pos_iff, begun]
    omega
  · intro hCancelled
    have hBoth := hCount operationId
    have hFirst := count_pos_iff.mpr hMem
    have hSecond := count_pos_iff.mpr hCancelled
    rw [answeredIds] at hFirst
    rw [cancelledIds] at hSecond
    omega

variable {calls : List OperationLinkCall} {profiles : List ProfileName} {event : OperationLinkEvent}

/-- While the custodian remembers every operation begun, neither engine finds
a violation. -/
theorem no_violation_while_few
    (hFew : (begun (history step (start profiles) calls)).length < maxSeenOperationIds)
    (hMem : event ∈ history step (start profiles) calls) : violates event = false := by
  obtain ⟨before, after, hSplit⟩ := append_of_mem hMem
  have hLess : (begun before).length ≤ (begun (history step (start profiles) calls)).length := by
    rw [hSplit, begun, begun, filterMap_append, filterMap_append, length_append]
    omega
  obtain ⟨first, second, rfl, rfl, hEvent, -⟩ := history_split step hSplit
  have hJoined := joined profiles first
  have hBefore := requester_accounted profiles first
  rw [hEvent]
  refine not_violates_of_parts (fun part hPart => ?_) (fun part hPart => ?_)
  · exact no_violation_of_effect (hJoined.fed hPart) hBefore.liveBegun (step_effect _ part)
      hBefore.begunOnce
  · exact hJoined.no_custodian_violation (by omega) hPart

/-- In every run of the joined engines, each completed or ended dispatch names
an operation that was begun and not cancelled, at most once, and carries the
one result the custodian sent for the request of that identifier. While fewer
operations are begun than a session remembers, neither engine reports a
violation. -/
theorem answers_reach_requests (profiles : List ProfileName) (calls : List OperationLinkCall) :
    let past := history step (start profiles) calls
    (answeredIds past).Nodup ∧ (∀ operationId ∈ answeredIds past,
        operationId ∈ (begun past).map OperationRequest.operationId ∧
          operationId ∉ cancelledIds past) ∧
      ((begun past).map OperationRequest.operationId).Nodup ∧
      ((results past).map OperationResultMessage.operationId).Nodup ∧
      (∀ before event after, past = before ++ event :: after →
        ∀ part, requesterEvent event = some part →
          CarriesResult (begun before) (results before) part) ∧
      ((begun past).length < maxSeenOperationIds → ∀ event ∈ past, violates event = false) := by
  intro past
  obtain ⟨hNodup, hBegun⟩ := answered_once profiles calls
  refine ⟨hNodup, hBegun, (requester_accounted profiles calls).begunOnce, ?_, ?_, ?_⟩
  · -- The custodian's share of a run is a run of its engine.
    obtain ⟨partCalls, hHistory, -⟩ :=
      history_project step custodianEvent_event custodian_step (start profiles) calls
    rw [results, ← hHistory]
    exact (accounted profiles partCalls).answeredOnce
  · intro before event after hSplit part hPart
    obtain ⟨first, -, -, rfl, hEvent, -⟩ := history_split step hSplit
    rw [hEvent, requesterEvent_event] at hPart
    obtain ⟨call, hCall, rfl⟩ := map_eq_some_iff.mp hPart
    exact carriesResult_of_effect ((joined profiles first).fed hCall)
      (requester_accounted profiles first).liveBegun (step_effect _ call)
  · exact fun hFew event hMem => no_violation_while_few hFew hMem

end Run

end OperationLink

end RefineId.Rapp
