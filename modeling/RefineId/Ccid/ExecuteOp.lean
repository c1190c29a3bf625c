import RefineId.Ccid.EngineRun

/-! The host that drives the slot engine (`CcidCardTransport::execute_op` of
`crates/ccid/src/transport.rs`): it performs the actions of the engine one by
one, reports each transfer's outcome and the deadline once it has passed. -/
namespace RefineId.Ccid

open Data Semantics CcidEngine List Nat Option CcidEngine

inductive HostCall where
  | bulkOut (endpoint : UInt8) (data : Bytes) (timeoutMs : Nat)
  | bulkIn (endpoint : UInt8) (bufferSize timeoutMs : Nat)
  | controlTransfer (requestType request : UInt8) (value index : UInt16) (data : Bytes)
      (timeoutMs : Nat)
  deriving DecidableEq

/-- The block that a call passes to the reader, without its header. -/
def HostCall.block : HostCall → Bytes
  | bulkOut _ data _ => data.drop ccidHeaderSize
  | _ => []

/-- One turn of the loop as the world answers it: the clock before the action,
the outcome of the transfer that the action asks for, and the clock after it.
A bulk-in fills the buffer and says how much of it counts. -/
structure Turn where
  now : MonotonicTime
  bulkOut : Except CcidError Nat
  bulkIn : Except CcidError (Bytes × Nat)
  control : Except CcidError Nat
  after : MonotonicTime

structure Ports where
  bulkOutEndpoint : UInt8
  bulkInEndpoint : UInt8
  timeoutMs : Nat

/-- The loop between two actions. -/
structure Execution where
  engine : CcidEngine
  queue : List Action
  currentDeadline : Option Deadline
  calls : List HostCall

inductive Progress where
  | running (execution : Execution)
  | returned (result : Except CcidError OperationResult) (execution : Execution)

def Progress.calls : Progress → List HostCall
  | running execution => execution.calls
  | returned _ execution => execution.calls

/-- The blocks that host calls pass to the reader, one after the other. -/
def passedBlocks (calls : List HostCall) : Bytes :=
  calls.flatMap HostCall.block

/-- The blocks passed, with those that the next actions pass. -/
def Execution.passing (execution : Execution) : Bytes :=
  passedBlocks execution.calls ++ execution.queue.flatMap Action.block

/-- The blocks passed and those still kept for the reader to ask for. -/
def Execution.blocks (execution : Execution) : Bytes :=
  execution.passing ++ execution.engine.outgoingChain.flatten

/-- A buffer of `size` zeros after the host wrote `content` into it. -/
def filled (size : Nat) (content : Bytes) : Bytes :=
  content.take size ++ replicate (size - content.length) 0

namespace Execution

variable (execution : Execution)

/-- The engine is given an event; what it asks for comes after the actions
that wait. -/
def give (now : MonotonicTime) (event : InputEvent) (waiting : List Action) : Execution :=
  let next := execution.engine.step now event
  { execution with
    engine := next.2
    queue := waiting ++ next.1.actions
    currentDeadline := next.1.nextDeadline }

def isEnding : Action → Bool
  | .cancelTransfers | .complete .. => true
  | _ => false

def isComplete : Action → Bool
  | .complete .. => true
  | _ => false

/-- The deadline that has passed, unless the action ends the operation anyway. -/
def passed (action : Action) (now : MonotonicTime) : Option Deadline :=
  execution.currentDeadline.filter fun deadline => !isEnding action && deadline.expiresAt ≤ now

/-- How long one transfer may take, in a word of 32 bits. -/
def transferTimeout (ports : Ports) (now : MonotonicTime) : Nat :=
  match execution.currentDeadline with
  | some deadline => max (min ports.timeoutMs ((deadline.expiresAt - now) % 2 ^ 32)) 1
  | none => ports.timeoutMs

def called (call : HostCall) : Execution :=
  { execution with calls := execution.calls ++ [call] }

def completion {α : Type} (outcome : Except CcidError α) (completed : α → IoCompletion) :
    InputEvent :=
  match outcome with
  | .ok value => .ioCompleted (completed value)
  | .error error => .ioCompleted (.failure error)

/-- The host call of an action that asks for a transfer, and the event that
reports its outcome. -/
def perform (ports : Ports) (turn : Turn) : Action → Option (HostCall × InputEvent)
  | .submitBulkOut _ data =>
    some (.bulkOut ports.bulkOutEndpoint data (execution.transferTimeout ports turn.now),
      completion turn.bulkOut .bulkOut)
  | .submitBulkIn bufferSize =>
    some (.bulkIn ports.bulkInEndpoint bufferSize (execution.transferTimeout ports turn.now),
      completion turn.bulkIn fun (content, len) =>
        .bulkIn ((filled bufferSize content).take len))
  | .submitControl requestType request value index data =>
    some (.controlTransfer requestType request value index data
      (execution.transferTimeout ports turn.now),
      completion turn.control fun _ => .control)
  | _ => none

def conclude (opId : OperationId) (action : Action) (waiting : List Action) : Progress :=
  match action with
  | .cancelTransfers =>
    .running { execution with queue := waiting.filter isComplete, currentDeadline := none }
  | .complete id result =>
    if id = opId then .returned result { execution with queue := [] }
    else .running { execution with queue := waiting }
  | _ => .running { execution with queue := waiting }

def turn (execution : Execution) (ports : Ports) (opId : OperationId) (turn : Turn) : Progress :=
  match execution.queue with
  | [] => .returned (.error (.protocolDesync .terminatedWithoutCompletion)) execution
  | action :: waiting =>
    match execution.passed action turn.now with
    | some deadline =>
      .running (execution.give turn.now (.deadlineExpired deadline.id) waiting)
    | none =>
      match execution.perform ports turn action with
      | some (call, event) => .running ((execution.called call).give turn.after event waiting)
      | none => execution.conclude opId action waiting

def run (ports : Ports) (opId : OperationId) : Execution → List Turn → Progress
  | execution, [] => .running execution
  | execution, next :: turns =>
    match execution.turn ports opId next with
    | .running after => run ports opId after turns
    | .returned result after => .returned result after

def begin (engine : CcidEngine) (now : MonotonicTime) (opId : OperationId) (op : Operation) :
    Execution :=
  let transition := engine.step now (.start opId op)
  ⟨transition.2, transition.1.actions, transition.1.nextDeadline, []⟩

end Execution

variable {engine : CcidEngine} {op : Operation}

section Liveness
variable {ports : Ports} {opId : OperationId} {execution : Execution} {kind : PendingOperation}

/-- The loop with its operation in flight: the next action is a transfer of
the operation, a control transfer only for an abort. -/
structure InFlight (opId : OperationId) (kind : PendingOperation) (execution : Execution) :
    Prop where
  pending : execution.engine.pendingOp = some (opId, kind)
  queue : ∃ action transfer, execution.queue = [action] ∧ action.transfer? = some transfer ∧
    (transfer = .control → kind = .abort)
  deadline : execution.currentDeadline = execution.engine.currentDeadline

/-- The loop with the completion of its operation in the queue. -/
structure Settled (opId : OperationId) (execution : Execution) : Prop where
  pending : execution.engine.pendingOp = none
  ending : Ending opId execution.queue

/-- What a turn may leave of the deadline and of the times it may be moved. -/
def Drawn (before after : CcidEngine) : Prop :=
  (after.currentDeadline = before.currentDeadline ∧ after.extensions = before.extensions) ∨
    after.extensions < before.extensions

variable {event : InputEvent}

open Execution

theorem give_of_handled (now : MonotonicTime) (hEvent : event.started? = none)
    (waiting : List Action) :
    execution.give now event waiting = { execution with
        engine := (execution.engine.handle now event).engine
        queue := waiting ++ (execution.engine.handle now event).actions
        currentDeadline :=
          if (execution.engine.handle now event).engine.pendingOp.isSome then
            (execution.engine.handle now event).engine.currentDeadline else none } := by
  rw [give, step_of_handled execution.engine now hEvent]

theorem settled_of_ends {now} (hEvent : event.started? = none)
    (hEnds : (execution.engine.handle now event).Ends opId) :
    Settled opId (execution.give now event []) := by
  rw [give_of_handled now hEvent]
  exact ⟨hEnds.pending, hEnds.ending⟩

def Reports (transfer : Transfer) (event : InputEvent) : Prop :=
  event.started? = none ∧
    (event.answered? = some transfer ∨ ∃ error, event = .ioCompleted (.failure error))

variable {transfer : Transfer}

/-- Every transfer asked for is performed and its outcome reported. -/
theorem perform_of_transfer (execution : Execution) (ports : Ports) (next : Turn) {action}
    (h : action.transfer? = some transfer) :
    ∃ call event, execution.perform ports next action = some (call, event) ∧
      Reports transfer event ∧ call.block = action.block := by
  cases action with
  | submitBulkOut seq data | submitBulkIn bufferSize
  | submitControl requestType request value index data =>
    cases h
    refine ⟨_, _, rfl, ?_, rfl⟩
    unfold completion
    split
    · exact ⟨rfl, .inl rfl⟩
    · exact ⟨rfl, .inr ⟨_, rfl⟩⟩
  | _ => cases h

/-- The report on the transfer that the queue asked for ends the operation or
keeps it in flight. -/
theorem give_report (h : InFlight opId kind execution) (hReports : Reports transfer event)
    (hControl : transfer = .control → kind = .abort) (now : MonotonicTime) :
    Settled opId (execution.give now event []) ∨ (InFlight opId kind (execution.give now event []) ∧
        Drawn execution.engine (execution.give now event []).engine ∧
        (execution.give now event []).blocks =
          passedBlocks execution.calls ++ execution.engine.outgoingChain.flatten) := by
  obtain ⟨hEvent, hAnswered | ⟨error, rfl⟩⟩ := hReports
  · rcases handle_pending now h.pending hEvent with hEnds | ⟨hGoes, -⟩ | ⟨-, hBeside⟩
    · exact .inl (settled_of_ends hEvent hEnds)
    · obtain ⟨action, next, hAction, hTransfer, hBulk, hBlocks⟩ := hGoes.action
      have hPending := hGoes.pending.trans h.pending
      rw [give_of_handled now hEvent]
      refine .inr ⟨⟨hPending, ?_, ?_⟩, hGoes.deadline, ?_⟩
      · exact ⟨action, next, hAction, hTransfer, fun hNext => absurd hNext hBulk⟩
      · simp [hPending]
      · simp only [Execution.blocks, passing, nil_append, hAction,
          flatMap_singleton, append_assoc, hBlocks]
    · -- only an abort asks for a control transfer, and its report is not beside it
      obtain ⟨rfl, hKind⟩ := hBeside transfer hAnswered
      exact absurd (hControl rfl) hKind
  · exact .inl (settled_of_ends hEvent (failureCompleted_ends h.pending error))

theorem InFlight.called (h : InFlight opId kind execution) (call : HostCall) :
    InFlight opId kind (execution.called call) :=
  ⟨h.pending, h.queue, h.deadline⟩

variable (ports) in
/-- One turn with the operation in flight. Past the deadline it ends; before it,
the next block is passed to the reader. -/
theorem turn_inFlight (h : InFlight opId kind execution) (next : Turn) :
    ∃ after, execution.turn ports opId next = .running after ∧
      ((Settled opId after ∧ passedBlocks after.calls <+: execution.passing) ∨
        (InFlight opId kind after ∧ Drawn execution.engine after.engine ∧
          after.blocks = execution.blocks ∧
          ∀ deadline, execution.engine.currentDeadline = some deadline →
            next.now < deadline.expiresAt)) := by
  obtain ⟨action, transfer, hQueue, hTransfer, hControl⟩ := h.queue
  have hNotEnding : isEnding action = false := by
    cases action <;> first | rfl | cases hTransfer
  cases hPassed : execution.passed action next.now with
  | some deadline =>
    obtain ⟨hDeadline, hLate⟩ := filter_eq_some_iff.mp hPassed
    rw [hNotEnding, Bool.not_false, Bool.true_and, decide_eq_true_eq] at hLate
    rw [h.deadline] at hDeadline
    refine ⟨execution.give next.now (.deadlineExpired deadline.id) [], ?_, .inl ⟨?_, ?_⟩⟩
    · rw [turn, hQueue]
      simp only [hPassed]
    · exact settled_of_ends rfl (deadlineExpired_ends h.pending hDeadline hLate)
    · exact prefix_append _ _
  | none =>
    have hEarly : ∀ deadline, execution.engine.currentDeadline = some deadline →
        next.now < deadline.expiresAt := by
      intro deadline hDeadline
      rw [← h.deadline] at hDeadline
      rw [passed, hDeadline] at hPassed
      simpa [Option.filter, hNotEnding] using hPassed
    obtain ⟨call, event, hPerform, hReports, hBlock⟩ :=
      perform_of_transfer execution ports next hTransfer
    have hCalled : passedBlocks (execution.called call).calls = execution.passing := by
      simp [called, passing, passedBlocks, hQueue, hBlock]
    refine ⟨(execution.called call).give next.after event [], ?_, ?_⟩
    · rw [turn, hQueue]
      simp only [hPassed, hPerform]
    rcases give_report (h.called call) hReports hControl next.after with
      hSettled | ⟨hFlight, hDrawn, hBlocks⟩
    · refine .inl ⟨hSettled, ?_⟩
      rw [← hCalled]
      exact prefix_rfl
    · refine .inr ⟨hFlight, hDrawn, ?_, hEarly⟩
      rw [hBlocks, hCalled]
      rfl

theorem turn_consistent (h : execution.engine.Consistent) {next after}
    (hTurn : execution.turn ports opId next = .running after) : after.engine.Consistent := by
  unfold turn at hTurn
  split at hTurn
  · cases hTurn
  split at hTurn
  · cases hTurn
    exact h.step next.now _
  split at hTurn
  · cases hTurn
    exact h.step next.after _
  unfold conclude at hTurn
  split at hTurn
  · cases hTurn
    exact h
  · split_ifs at hTurn
    cases hTurn
    exact h
  · cases hTurn
    exact h

def Returned (progress : Progress) : Prop :=
  ∃ result after, progress = .returned result after ∧ after.engine.pendingOp = none

/-- The deadline does not matter to an action that ends the operation. -/
theorem passed_of_isEnding {action} (h : isEnding action = true)
    (now : MonotonicTime) : execution.passed action now = none := by
  rw [passed, filter_eq_none_iff]
  simp [h]

theorem turn_complete {result published}
    (hQueue : execution.queue = .complete opId result :: published) (next : Turn) :
    execution.turn ports opId next = .returned result { execution with queue := [] } := by
  have hPassed : execution.passed (.complete opId result) next.now = none :=
    passed_of_isEnding rfl next.now
  rw [turn, hQueue]
  simp [hPassed, perform, conclude]

theorem turn_cancelTransfers {waiting}
    (hQueue : execution.queue = .cancelTransfers :: waiting) (next : Turn) :
    execution.turn ports opId next = .running { execution with
        queue := waiting.filter isComplete, currentDeadline := none } := by
  have hPassed : execution.passed .cancelTransfers next.now = none :=
    passed_of_isEnding rfl next.now
  rw [turn, hQueue]
  simp [hPassed, perform, conclude]

theorem settled_returns (h : Settled opId execution) (first second : Turn) (turns : List Turn) :
    Returned (execution.run ports opId (first :: second :: turns)) := by
  obtain ⟨cancelled, result, published, hQueue, hCancelled, -⟩ := h.ending
  rcases hCancelled with rfl | rfl
  · rw [nil_append] at hQueue
    simp only [run, turn_complete hQueue]
    exact ⟨result, _, rfl, h.pending⟩
  · rw [singleton_append] at hQueue
    simp only [run, turn_cancelTransfers hQueue]
    rw [filter_cons_of_pos rfl, turn_complete rfl]
    exact ⟨result, _, rfl, h.pending⟩

/-- A loop whose operation is completed makes no more calls. -/
theorem ending_calls (h : Ending opId execution.queue) (turns : List Turn) :
    (execution.run ports opId turns).calls = execution.calls := by
  obtain ⟨cancelled, result, published, hQueue, hCancelled, -⟩ := h
  rcases hCancelled with rfl | rfl
  · rw [nil_append] at hQueue
    cases turns with
    | nil => rfl
    | cons first turns => simp only [run, turn_complete hQueue, Progress.calls]
  rw [singleton_append] at hQueue
  match turns with
  | [] => rfl
  | [first] => simp only [run, turn_cancelTransfers hQueue, Progress.calls]
  | first :: second :: turns =>
    simp only [run, turn_cancelTransfers hQueue]
    rw [filter_cons_of_pos rfl, turn_complete rfl]
    rfl

variable (ports) in
/-- Whatever the world answers, the blocks passed are the first of those the
operation has. -/
theorem inFlight_passed (h : InFlight opId kind execution) (turns : List Turn) :
    passedBlocks (execution.run ports opId turns).calls <+: execution.blocks := by
  have hPassing : execution.passing <+: execution.blocks := prefix_append _ _
  induction turns generalizing execution with
  | nil =>
    have hNow : passedBlocks execution.calls <+: execution.passing := prefix_append _ _
    exact hNow.trans hPassing
  | cons next turns ih =>
    obtain ⟨after, hTurn, hAfter⟩ := turn_inFlight ports h next
    simp only [run, hTurn]
    rcases hAfter with ⟨hSettled, hPassed⟩ | ⟨hFlight, -, hBlocks, -⟩
    · rw [ending_calls hSettled.ending]
      exact hPassed.trans hPassing
    · rw [← hBlocks]
      exact ih hFlight (prefix_append _ _)

def turnsFrom (world : Nat → Turn) (start count : Nat) : List Turn :=
  (range' start count).map world

theorem turnsFrom_succ (world : Nat → Turn) (start count : Nat) :
    turnsFrom world start (count + 1) = world start :: turnsFrom world (start + 1) count := by
  simp [turnsFrom, range'_succ]

/-- The clock of the world passes every time. -/
def ClockAdvances (world : Nat → Turn) : Prop :=
  ∀ start limit, ∃ later, start ≤ later ∧ limit ≤ (world later).now

variable {world : Nat → Turn}

/-- While the deadline stays where it is, the clock reaches it. -/
theorem returns_before {left}
    (hLess : ∀ start execution, InFlight opId kind execution → execution.engine.Consistent →
      execution.engine.extensions < left → ∃ count, Returned (execution.run ports opId (turnsFrom world start count)))
    (distance : Nat) {start deadline} (hDeadline : execution.engine.currentDeadline = some deadline)
    (hLate : deadline.expiresAt ≤ (world (start + distance)).now) (h : InFlight opId kind execution)
    (hConsistent : execution.engine.Consistent) (hLeft : execution.engine.extensions = left) :
    ∃ count, Returned (execution.run ports opId (turnsFrom world start count)) := by
  induction distance generalizing start execution with
  | zero =>
    obtain ⟨after, hTurn, hAfter⟩ := turn_inFlight ports h (world start)
    rcases hAfter with ⟨hSettled, -⟩ | ⟨-, -, -, hEarly⟩
    · refine ⟨3, ?_⟩
      rw [turnsFrom_succ, turnsFrom_succ, turnsFrom_succ]
      simp only [run, hTurn]
      exact settled_returns hSettled _ _ _
    · exact absurd (hEarly deadline hDeadline) (not_lt.mpr hLate)
  | succ distance ih =>
    obtain ⟨after, hTurn, hAfter⟩ := turn_inFlight ports h (world start)
    have hKept := turn_consistent hConsistent hTurn
    have hNext : (∃ count, Returned (after.run ports opId (turnsFrom world (start + 1) count))) →
        ∃ count, Returned (execution.run ports opId (turnsFrom world start count)) := by
      rintro ⟨count, hReturned⟩
      refine ⟨count + 1, ?_⟩
      rw [turnsFrom_succ]
      simp only [run, hTurn]
      exact hReturned
    rcases hAfter with ⟨hSettled, -⟩ | ⟨hFlight, hSame | hFewer, -⟩
    · apply hNext
      refine ⟨2, ?_⟩
      rw [turnsFrom_succ, turnsFrom_succ]
      exact settled_returns hSettled _ _ _
    · apply hNext
      refine ih (hSame.1.trans hDeadline) ?_ hFlight hKept (hSame.2.trans hLeft)
      rwa [add_assoc, add_comm 1 distance]
    · exact hNext (hLess (start + 1) after hFlight hKept (by omega))

/-- An operation in flight returns: its deadline moves only finitely often,
and the clock passes every deadline. -/
theorem inFlight_returns (hClock : ClockAdvances world) (start : Nat)
    (h : InFlight opId kind execution) (hConsistent : execution.engine.Consistent) :
    ∃ count, Returned (execution.run ports opId (turnsFrom world start count)) := by
  induction hLeft : execution.engine.extensions using Nat.strong_induction_on
    generalizing start execution with
  | _ left ih =>
    obtain ⟨-, hArmed⟩ := hConsistent.pending (by simp [h.pending])
    obtain ⟨deadline, hDeadline⟩ := isSome_iff_exists.mp hArmed
    obtain ⟨later, hLater, hLate⟩ := hClock start deadline.expiresAt
    obtain ⟨distance, rfl⟩ := Nat.exists_eq_add_of_le hLater
    exact returns_before (fun start execution hFlight hKept hFewer =>
      ih _ hFewer start hFlight hKept rfl) distance hDeadline hLate h hConsistent hLeft

variable (opId) in
theorem begin_inFlight (hRefusal : engine.refusal op = none) (now : MonotonicTime) :
    InFlight opId op.kind (begin engine now opId op) := by
  obtain ⟨transfer, hTransfer, hControl⟩ := opening_transfer engine op
  simp only [begin, step, start_accepted hRefusal]
  exact ⟨started_pendingOp, ⟨_, transfer, rfl, hTransfer, hControl⟩, rfl⟩

variable (ports opId) in
theorem begin_returns (hClock : ClockAdvances world) (hConsistent : engine.Consistent)
    (hIdle : engine.pendingOp = none) (now : MonotonicTime) (op : Operation) :
    ∃ count, Returned ((begin engine now opId op).run ports opId
      (turnsFrom world 0 count)) := by
  cases hRefusal : engine.refusal op with
  | some error =>
    refine ⟨2, ?_⟩
    rw [turnsFrom_succ, turnsFrom_succ]
    apply settled_returns
    simp only [begin, step, start_refused hRefusal]
    exact ⟨hIdle, .plain opId _⟩
  | none =>
    exact inFlight_returns hClock 0 (begin_inFlight opId hRefusal now) (hConsistent.step now _)

variable (ports opId) in
/-- However an operation runs, what it passes to the reader of a transfer's data
is a first part of the data, once and in order. -/
theorem begin_passed (engine : CcidEngine) (now : MonotonicTime) (bWi : UInt8)
    (wLevelParameter : UInt16) (data : Bytes) (turns : List Turn) :
    passedBlocks ((begin engine now opId (.transferBlock bWi wLevelParameter data)).run
      ports opId turns).calls <+: data := by
  cases hRefusal : engine.refusal (.transferBlock bWi wLevelParameter data) with
  | some error =>
    simp only [begin, step, start_refused hRefusal]
    rw [ending_calls (.plain opId _)]
    exact nil_prefix
  | none =>
    have hBlocks : (begin engine now opId
        (.transferBlock bWi wLevelParameter data)).blocks = data := by
      simp only [Execution.blocks, passing, begin, step,
        start_accepted hRefusal, passedBlocks, flatMap_nil, nil_append, flatMap_singleton]
      exact opening_blocks
    have hFlight := begin_inFlight opId hRefusal now
    have hPassed := inFlight_passed ports hFlight turns
    rwa [hBlocks] at hPassed

end Liveness

/-- A start is answered by its completion at once, and the engine stays as it
is. -/
def Refused (engine : CcidEngine) (op : Operation) : Prop :=
  ∀ now id, ∃ error, engine.step now (.start id op) = (⟨[.complete id (.error error)], none⟩, engine)

theorem refused_of_refusal (h : engine.refusal op ≠ none) : Refused engine op := by
  intro now id
  obtain ⟨error, hError⟩ := ne_none_iff_exists'.mp h
  exact ⟨error, start_refused hError⟩

/-- The account of an engine after any events. Every start of an id is answered
by one completion or still pending; a pending operation keeps others out, has a
transfer out and a deadline that ends it; and the loop of `execute_op` returns
from an idle engine whenever the clock goes on. -/
theorem operations_accounted (interfaceNumber bSlot : UInt8)
    (descriptor : CcidFunctionalDescriptor) (given : List Given) (past : List EngineEvent)
    (engine : CcidEngine)
    (hPast : past = history engineStep (new interfaceNumber bSlot descriptor) given)
    (hEngine : engine = final engineStep (new interfaceNumber bSlot descriptor) given) :
    (∀ id, (startedIds past).count id = (completedIds past).count id + engine.pendingId.count id) ∧
      (∀ id kind, engine.pendingOp = some (id, kind) →
        (∀ op, Refused engine op) ∧ outstanding past ≠ [] ∧
          ∃ deadline, engine.currentDeadline = some deadline ∧ ∀ now, deadline.expiresAt ≤ now →
            completions (engine.step now (.deadlineExpired deadline.id)).1.actions = [id]) ∧
      (engine.activated = true → engine.cardPresent = true ∧ engine.connected = true) ∧
      (engine.needsRecovery = true → ∀ op, op ≠ .abort → Refused engine op) ∧
      (engine.pendingOp = none → ∀ ports opId op now world, ClockAdvances world →
        ∃ count result after,
          (Execution.begin engine now opId op).run ports opId (turnsFrom world 0 count) =
            .returned result after ∧ after.engine.pendingOp = none) := by
  have hAccount := Accounted.run interfaceNumber bSlot descriptor given
  rw [← hPast, ← hEngine] at hAccount
  refine ⟨hAccount.ids, ?_, hAccount.consistent.activated,
    fun hRecovery op hOp => refused_of_refusal fun hNone =>
      hOp ((refusal_eq_none hNone).2.1 hRecovery), ?_⟩
  · intro id kind hPending
    have hSome : engine.pendingOp.isSome := by simp [hPending]
    obtain ⟨deadline, hDeadline⟩ :=
      isSome_iff_exists.mp (hAccount.consistent.pending hSome).2
    refine ⟨fun op => refused_of_refusal fun hNone => ?_, (hAccount.transfers id kind hPending).1,
      deadline, hDeadline, fun now hLate => ?_⟩
    · rw [(refusal_eq_none hNone).2.2] at hPending
      cases hPending
    rw [step_of_handled engine now rfl]
    exact (deadlineExpired_ends hPending hDeadline hLate).ending.completions
  · intro hIdle ports opId op now world hClock
    obtain ⟨count, result, after, hReturned, hAfter⟩ :=
      begin_returns ports opId hClock hAccount.consistent hIdle now op
    exact ⟨count, result, after, hReturned, hAfter⟩

variable (n : Nat)

/-- A world whose clock gains a second with each turn and whose transfers all
fail. -/
def failingWorld : Turn :=
  ⟨1000 * n, .error .timeout, .error .timeout, .error .timeout, 1000 * n⟩

theorem operations_accounted_idle_reader : ClockAdvances failingWorld ∧ ∃ count result after,
        (Execution.begin (new 0 0 shortReader) 0 7 .powerOff).run ⟨2, 0x81, 5000⟩ 7
          (turnsFrom failingWorld 0 count) = .returned result after ∧
          after.engine.pendingOp = none := by
  have hClock : ClockAdvances failingWorld := by
    intro start (limit : Nat)
    have hLater : limit ≤ 1000 * (start + limit) := by omega
    exact ⟨start + limit, le_add_right start limit, hLater⟩
  exact ⟨hClock, (operations_accounted 0 0 shortReader [] _ _ rfl rfl).2.2.2.2 rfl ⟨2, 0x81, 5000⟩ 7
    .powerOff 0 failingWorld hClock⟩

/-- A first block of a longer response that holds no bytes. -/
def emptyBlock (seq : UInt8) : Bytes :=
  [rdrToPcDataBlock, 0, 0, 0, 0, 0, seq, 0, 0, 1]

/-- The host's reports when the reader answers every request for the next
block by an empty first block. -/
def emptyRounds : Nat → List Given
  | 0 => []
  | n + 1 => emptyRounds n ++ [(0, .ioCompleted (.bulkOut 10)),
      (0, .ioCompleted (.bulkIn (emptyBlock (UInt8.ofNat n))))]

def stalled : CcidEngine :=
  { new 0 0 shortReader with
    nextSeq := UInt8.ofNat n + 1
    pendingOp := some (1, .transferBlock)
    expectedResponseType := rdrToPcDataBlock
    expectedSeq := UInt8.ofNat n
    expectedBulkOutLen := 10
    activeDeadlineId := 1
    currentDeadline := some ⟨1, 5000⟩ }

theorem stalled_bulkOut : engineStep (stalled n) (0, .ioCompleted (.bulkOut 10)) =
      (⟨[.submitBulkIn 271], some ⟨1, 5000⟩⟩, stalled n) := by
  rfl

theorem decode_emptyBlock (seq : UInt8) :
    decodeResponse (emptyBlock seq) rdrToPcDataBlock 0 seq = .ok (.dataBlock .active .begin []) := by
  have hStatus : cardStatusOf 0 = some .active := by decide
  have hLength : beValue [0, 0, 0, 0] = 0 := by decide
  have hChain : chainParameterOf 1 = some .begin := by decide
  simp [decodeResponse, emptyBlock, hLength, hStatus, decodeSucceeded, hChain, ccidHeaderSize,
    rdrToPcDataBlock, rdrToPcSlotStatus]

theorem stalled_bulkIn :
    engineStep (stalled n) (0, .ioCompleted (.bulkIn (emptyBlock (UInt8.ofNat n)))) =
      (⟨[.submitBulkOut (UInt8.ofNat (n + 1))
          (encodeXfrBlock 0 (UInt8.ofNat (n + 1)) 0 chainCommandContinuationExpected.toUInt16 [])],
        some ⟨1, 5000⟩⟩, stalled (n + 1)) := by
  have hSeq : UInt8.ofNat (n + 1) = UInt8.ofNat n + 1 := by rw [UInt8.ofNat_add]; rfl
  have hBulkIn : (stalled n).bulkInCompleted 0 (emptyBlock (UInt8.ofNat n)) =
      (stalled n).dataBlock 0 1 .transferBlock .begin [] := by
    simp only [bulkInCompleted, stalled, new, decode_emptyBlock]
    rfl
  simp only [engineStep, step, handle, hBulkIn]
  rw [hSeq]
  simp only [stalled, hSeq]
  rfl

def submittedTransfers (past : List EngineEvent) : List Transfer :=
  past.flatMap fun e => submissions e.reply.actions

def startEmpty : Given := (0, .start 1 (.transferBlock 0 0 []))

theorem emptyRounds_run :
    final engineStep (new 0 0 shortReader) (startEmpty :: emptyRounds n) = stalled n ∧
      completedIds (history engineStep (new 0 0 shortReader)
        (startEmpty :: emptyRounds n)) = [] ∧
      submittedTransfers (history engineStep (new 0 0 shortReader)
        (startEmpty :: emptyRounds n)) =
        (emptyRounds n).filterMap (·.2.answered?) ++ [.bulkOut] := by
  induction n with
  | zero => exact ⟨rfl, rfl, rfl⟩
  | succ n ih =>
    obtain ⟨hFinal, hCompleted, hSubmitted⟩ := ih
    rw [emptyRounds, ← cons_append, history_append, final_append, hFinal]
    simp only [final, history, event, stalled_bulkOut, stalled_bulkIn, completedIds,
      submittedTransfers] at hCompleted hSubmitted ⊢
    refine ⟨trivial, ?_, ?_⟩
    · rw [flatMap_append, hCompleted]
      rfl
    · rw [flatMap_append, hSubmitted, filterMap_append, append_assoc, append_assoc]
      rfl

/-- A host that answers every transfer once need not reach the completion: for
any number of answers only the last transfer is unanswered and nothing is
completed. And an id that is started twice is completed twice. -/
theorem answered_transfers_never_complete : (∀ n, (emptyRounds n).length = 2 * n ∧
      submittedTransfers (history engineStep (new 0 0 shortReader)
        (startEmpty :: emptyRounds n)) =
        (emptyRounds n).filterMap (·.2.answered?) ++ [.bulkOut] ∧
      completedIds (history engineStep (new 0 0 shortReader)
        (startEmpty :: emptyRounds n)) = []) ∧
      completedIds (history engineStep (new 0 0 shortReader)
        [(0, .start 1 .powerOff), (0, .start 1 .powerOff), (0, .cancel 1)]) = [1, 1] := by
  refine ⟨fun n => ⟨?_, (emptyRounds_run n).2.2, (emptyRounds_run n).2.1⟩, rfl⟩
  induction n with
  | zero => rfl
  | succ n ih =>
    rw [emptyRounds, length_append, ih]
    rfl

end RefineId.Ccid
