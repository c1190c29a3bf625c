import RefineId.Ccid.Engine

/-! What one step of the slot engine can do, said once: it ends the pending
operation, keeps it going by one more transfer, refuses or begins an operation,
or leaves the pending operation alone. -/
namespace RefineId.Ccid

open Data List Ccid Ccid.Action InputEvent

inductive Transfer where
  | bulkOut
  | bulkIn
  | control
  deriving DecidableEq

def Action.transfer? : Action → Option Transfer
  | submitBulkOut .. => some .bulkOut
  | submitBulkIn _ => some .bulkIn
  | submitControl .. => some .control
  | _ => none

def Action.completed? : Action → Option OperationId
  | complete id _ => some id
  | _ => none

def submissions (actions : List Action) : List Transfer :=
  actions.filterMap Action.transfer?

def completions (actions : List Action) : List OperationId :=
  actions.filterMap Action.completed?

/-- The block that an action passes to the reader, without its header. -/
def Action.block : Action → Bytes
  | submitBulkOut _ data => data.drop ccidHeaderSize
  | _ => []

/-- The transfer whose completion an event reports. -/
def InputEvent.answered? : InputEvent → Option Transfer
  | ioCompleted (.bulkOut _) => some .bulkOut
  | ioCompleted (.bulkIn _) => some .bulkIn
  | ioCompleted .control => some .control
  | _ => none

def InputEvent.started? : InputEvent → Option OperationId
  | start id _ => some id
  | _ => none

namespace CcidEngine

section Updates
variable (engine : CcidEngine)

@[simp] theorem finish_pendingOp : engine.finish.pendingOp = none := by rfl
@[simp] theorem requireRecovery_pendingOp :
    engine.requireRecovery.pendingOp = engine.pendingOp := by rfl
@[simp] theorem deactivate_pendingOp : engine.deactivate.pendingOp = engine.pendingOp := by rfl
@[simp] theorem appendChain_pendingOp (payload : Bytes) :
    (engine.appendChain payload).pendingOp = engine.pendingOp := rfl
@[simp] theorem notePresence_pendingOp (present : Bool) :
    (engine.notePresence present).pendingOp = engine.pendingOp := by rfl

/-- How often the deadline of the pending operation may still be moved. -/
def extensions : Nat :=
  (maxTimeExtensions - engine.wtxCount) + engine.outgoingChain.length

end Updates

/-- The actions that end an operation: transfers cancelled or not, then its
completion, then what is published about the slot. -/
def Ending (id : OperationId) (actions : List Action) : Prop :=
  ∃ cancelled result published, actions = cancelled ++ .complete id result :: published ∧
    (cancelled = [] ∨ cancelled = [.cancelTransfers]) ∧
    ∀ action ∈ published, action.transfer? = none ∧ action.completed? = none

theorem Ending.plain (id : OperationId) (result : Except CcidError OperationResult) :
    Ending id [.complete id result] :=
  ⟨[], result, [], rfl, .inl rfl, by simp⟩

theorem Ending.cancelled (id : OperationId) (result : Except CcidError OperationResult) :
    Ending id [.cancelTransfers, .complete id result] :=
  ⟨[.cancelTransfers], result, [], rfl, .inr rfl, by simp⟩

section
variable {id : OperationId} {actions : List Action} (h : Ending id actions)
include h

theorem Ending.reads {β : Type} {read : Action → Option β} (hCancel : read .cancelTransfers = none)
    (hQuiet : ∀ action, action.transfer? = none ∧ action.completed? = none → read action = none) :
    ∃ result, actions.filterMap read = (read (.complete id result)).toList := by
  obtain ⟨cancelled, result, published, rfl, hCancelled, hPublished⟩ := h
  have hBefore : cancelled.filterMap read = [] := by
    rcases hCancelled with rfl | rfl <;> simp [hCancel]
  have hAfter : published.filterMap read = [] :=
    filterMap_eq_nil_iff.mpr fun action hAction => hQuiet action (hPublished action hAction)
  refine ⟨result, ?_⟩
  rw [filterMap_append, hBefore, nil_append, filterMap_cons, hAfter]
  cases read (.complete id result) <;> rfl

theorem Ending.completions : completions actions = [id] :=
  (h.reads rfl fun _ hQuiet => hQuiet.2).choose_spec

end

structure Outcome.Ends (outcome : Outcome) (id : OperationId) : Prop where
  pending : outcome.engine.pendingOp = none
  ending : Ending id outcome.actions

/-- The handler keeps the pending operation going by one bulk transfer, which
takes its block from the blocks kept. The deadline moves only against the number
of extensions left. -/
structure Outcome.GoesOn (outcome : Outcome) (engine : CcidEngine) : Prop where
  pending : outcome.engine.pendingOp = engine.pendingOp
  action : ∃ action transfer, outcome.actions = [action] ∧ action.transfer? = some transfer ∧
    transfer ≠ .control ∧
    action.block ++ outcome.engine.outgoingChain.flatten = engine.outgoingChain.flatten
  deadline : (outcome.engine.currentDeadline = engine.currentDeadline ∧
      outcome.engine.extensions = engine.extensions) ∨
    outcome.engine.extensions < engine.extensions

/-- An action that submits a transfer completes nothing. -/
theorem readings_of_transfer {action transfer} (h : action.transfer? = some transfer) :
    completions [action] = [] ∧ submissions [action] = [transfer] := by
  refine ⟨?_, by rw [submissions, filterMap_cons_some h, filterMap_nil]⟩
  cases action with
  | complete id result => cases h
  | _ => rfl

/-- The handler leaves the pending operation alone. -/
structure Outcome.Leaves (outcome : Outcome) (engine : CcidEngine) : Prop where
  pending : outcome.engine.pendingOp = engine.pendingOp
  deadline : engine.pendingOp.isSome → outcome.engine.currentDeadline = engine.currentDeadline
  actions : ∀ action ∈ outcome.actions, action.transfer? = none ∧ action.completed? = none

variable {outcome : Outcome} {engine : CcidEngine}

theorem Outcome.Leaves.readings (h : outcome.Leaves engine) :
    completions outcome.actions = [] ∧ submissions outcome.actions = [] :=
  ⟨filterMap_eq_nil_iff.mpr fun action hAction => (h.actions action hAction).2,
    filterMap_eq_nil_iff.mpr fun action hAction => (h.actions action hAction).1⟩

variable {kind : PendingOperation} {now : MonotonicTime}

section BulkIn
variable {id : OperationId}

theorem extendTime_effect (multiplier : UInt8) : (engine.extendTime now id multiplier).Ends id ∨
      (engine.extendTime now id multiplier).GoesOn engine := by
  unfold extendTime
  dsimp only
  split
  · exact .inl ⟨rfl, .cancelled id _⟩
  rename_i hBound
  refine .inr ⟨rfl, ⟨_, _, rfl, rfl, by decide, rfl⟩, .inr ?_⟩
  simp only [extensions, armDeadline, countExtension, maxTimeExtensions] at hBound ⊢
  omega

theorem keepBlock_effect (payload : Bytes) :
    (engine.keepBlock id payload).Ends id ∨ (engine.keepBlock id payload).GoesOn engine := by
  unfold keepBlock
  split
  · exact .inl ⟨rfl, .plain id _⟩
  · refine .inr ⟨engine.appendChain_pendingOp payload, ⟨_, _, rfl, rfl, by decide, ?_⟩,
      .inl ⟨rfl, rfl⟩⟩
    rw [Action.block, encodeXfrBlock, payloadMessage_drop]
    rfl

theorem chainDesync_ends (reason : CcidProtocolDesync) : (engine.chainDesync id reason).Ends id :=
  ⟨rfl, .plain id _⟩

theorem dataBlock_effect (chainParameter : ChainParameter) (payload : Bytes) :
    (engine.dataBlock now id kind chainParameter payload).Ends id ∨
      (engine.dataBlock now id kind chainParameter payload).GoesOn engine := by
  unfold dataBlock
  cases chainParameter with
  | begin | «continue» =>
    dsimp only
    split
    · exact .inl (chainDesync_ends _)
    · exact keepBlock_effect payload
  | finish | complete =>
    dsimp only
    split
    · exact .inl (chainDesync_ends _)
    split
    · exact .inl ⟨rfl, .plain id _⟩
    · refine .inl ⟨?_, .plain id _⟩
      unfold answerData
      split <;> rfl
  | commandContinuationExpected =>
    dsimp only
    split
    · rename_i nextChunk rest hChain
      refine .inr ⟨rfl, ⟨_, _, rfl, rfl, by decide, ?_⟩, .inr ?_⟩
      · rw [block, encodeXfrBlock, payloadMessage_drop, hChain]
        rfl
      · simp [extensions, armDeadline, sendBlock, expectBulkOut, allocateSeq, setOutgoing, hChain]
    · exact .inl ⟨rfl, .plain id _⟩

theorem noteSlotStatus_pendingOp (present : Bool) :
    (engine.noteSlotStatus present).pendingOp = none := by
  unfold noteSlotStatus
  split <;> rfl

theorem noteStatus_pendingOp (cardStatus : CardStatus) :
    (engine.noteStatus cardStatus).pendingOp = none := by
  unfold noteStatus
  split <;> rfl

theorem bulkInCompleted_effect (hPending : engine.pendingOp = some (id, kind)) (frame : Bytes) :
    (engine.bulkInCompleted now frame).Ends id ∨
      (engine.bulkInCompleted now frame).GoesOn engine := by
  unfold bulkInCompleted
  simp only [hPending]
  split
  · exact extendTime_effect _
  · split
    · exact .inl ⟨rfl, .plain id _⟩
    · exact dataBlock_effect _ _
  · cases kind <;> exact .inl ⟨noteSlotStatus_pendingOp _, .plain id _⟩
  · exact .inl ⟨noteStatus_pendingOp _, .plain id _⟩
  · exact .inl ⟨noteStatus_pendingOp _, .plain id _⟩
  · unfold undecodable
    split
    · exact .inr ⟨rfl, ⟨_, _, rfl, rfl, by decide, rfl⟩, .inl ⟨rfl, rfl⟩⟩
    · exact .inl ⟨rfl, .plain id _⟩

end BulkIn

variable {event : InputEvent}

section Handle
variable {id : OperationId}

theorem Outcome.Leaves.of_same (hEngine : outcome.engine = engine) (hActions : outcome.actions = []) :
    outcome.Leaves engine where
  pending := by rw [hEngine]
  deadline := fun _ => by rw [hEngine]
  actions := by simp [hActions]

/-- The handler ends the operation that is pending, if any, or leaves it alone. -/
def Outcome.Settles (outcome : Outcome) (engine : CcidEngine) : Prop :=
  (∃ id kind, engine.pendingOp = some (id, kind) ∧ outcome.Ends id) ∨ outcome.Leaves engine

theorem slotChanged_settles (present changed : Bool) :
    Outcome.Settles (engine.slotChanged present changed) engine := by
  unfold slotChanged
  split
  · split
    · cases hPending : engine.pendingOp with
      | some pending =>
        refine .inl ⟨_, _, hPending, by simp, [.cancelTransfers], .error .cardRemoved,
          [.publishSlotChange engine.bSlot present (engine.notePresence present).cardGen],
          by simp [cancelPending, hPending], .inr rfl, ?_⟩
        simp [transfer?, completed?]
      | none =>
        refine .inr ⟨by simp [hPending], by simp [hPending], ?_⟩
        simp [cancelPending, hPending, transfer?, completed?]
    · exact .inr ⟨rfl, fun _ => rfl, by simp [transfer?, completed?]⟩
  · exact .inr (.of_same rfl rfl)

theorem interruptReceived_settles (rawBytes : Bytes) :
    Outcome.Settles (engine.interruptReceived rawBytes) engine := by
  unfold interruptReceived
  split
  · split
    · split
      · cases hPending : engine.pendingOp with
        | some pending =>
          exact .inl ⟨_, _, hPending, rfl, by rw [cancelPending, hPending]; exact .cancelled _ _⟩
        | none =>
          exact .inr ⟨hPending.symm, by simp [hPending], by simp [cancelPending, hPending]⟩
      · exact .inr (.of_same rfl rfl)
    · exact .inr (.of_same rfl rfl)
  · split
    · exact slotChanged_settles _ _
    · exact .inr (.of_same rfl rfl)

theorem failureCompleted_ends (hPending : engine.pendingOp = some (id, kind)) (error : CcidError) :
    (engine.failureCompleted error).Ends id := by
  simp only [failureCompleted, hPending]
  refine ⟨?_, .cancelled id _⟩
  cases error <;> rfl

theorem deadlineExpired_ends (hPending : engine.pendingOp = some (id, kind)) {deadline}
    (hDeadline : engine.currentDeadline = some deadline) (hPassed : deadline.expiresAt ≤ now) :
    (engine.deadlineExpired now deadline.id).Ends id := by
  simp only [deadlineExpired, hPending, hDeadline, hPassed, and_self, ↓reduceIte]
  exact ⟨rfl, .cancelled id _⟩

/-- An event that keeps the pending operation going answers a transfer, and a
control transfer only for an abort. -/
def Answers (kind : PendingOperation) (event : InputEvent) : Prop :=
  ∃ transfer, event.answered? = some transfer ∧ (transfer = .control → kind = .abort)

/-- An event that leaves the pending operation alone answers none of its
transfers: only an abort submits a control transfer. -/
def Beside (kind : PendingOperation) (event : InputEvent) : Prop :=
  ∀ transfer, event.answered? = some transfer → transfer = .control ∧ kind ≠ .abort

variable (now) in
/-- What any event but a start does to a pending operation. -/
theorem handle_pending (hPending : engine.pendingOp = some (id, kind))
    (hEvent : event.started? = none) :
    (engine.handle now event).Ends id ∨
      ((engine.handle now event).GoesOn engine ∧ Answers kind event) ∨
      ((engine.handle now event).Leaves engine ∧ Beside kind event) := by
  cases event with
  | start other op => cases hEvent
  | ioCompleted completion =>
    cases completion with
    | bulkOut transferred =>
      by_cases hLength : transferred = engine.expectedBulkOutLen
      · refine .inr (.inl ⟨?_, .bulkOut, rfl, by simp⟩)
        simp only [handle, bulkOutCompleted, hLength, ne_eq, not_true_eq_false, ↓reduceIte]
        exact ⟨rfl, ⟨_, _, rfl, rfl, by decide, rfl⟩, .inl ⟨rfl, rfl⟩⟩
      · refine .inl ?_
        simp only [handle, bulkOutCompleted, ne_eq, hLength, not_false_eq_true, ↓reduceIte,
          hPending]
        exact ⟨rfl, .cancelled id _⟩
    | control =>
      by_cases hKind : kind = .abort
      · subst hKind
        refine .inr (.inl ⟨?_, .control, rfl, fun _ => rfl⟩)
        simp only [handle, controlCompleted, hPending]
        exact ⟨hPending.symm ▸ rfl, ⟨_, _, rfl, rfl, by decide, rfl⟩, .inl ⟨rfl, rfl⟩⟩
      · refine .inr (.inr ⟨?_, by simp [Beside, answered?, hKind]⟩)
        cases kind with
        | abort => exact absurd rfl hKind
        | _ => exact .of_same (by simp [handle, controlCompleted, hPending])
                (by simp [handle, controlCompleted, hPending])
    | bulkIn frame =>
      rcases bulkInCompleted_effect hPending frame with hEnds | hGoes
      · exact .inl hEnds
      · exact .inr (.inl ⟨hGoes, .bulkIn, rfl, by simp⟩)
    | failure error => exact .inl (failureCompleted_ends hPending error)
  | interruptReceived rawBytes =>
    rcases engine.interruptReceived_settles rawBytes with ⟨other, _, hOther, hEnds⟩ | hLeaves
    · cases hPending.symm.trans hOther
      exact .inl hEnds
    · exact .inr (.inr ⟨hLeaves, by simp [Beside, answered?]⟩)
  | deadlineExpired expired =>
    have hBeside : Beside kind (.deadlineExpired expired) := by simp [Beside, answered?]
    simp only [handle, deadlineExpired, hPending]
    cases engine.currentDeadline with
    | none => exact .inr (.inr ⟨.of_same rfl rfl, hBeside⟩)
    | some deadline =>
      dsimp only
      split
      · exact .inl ⟨rfl, .cancelled id _⟩
      · exact .inr (.inr ⟨.of_same rfl rfl, hBeside⟩)
  | cancel cancelled =>
    have hBeside : Beside kind (.cancel cancelled) := by simp [Beside, answered?]
    simp only [handle, cancel, hPending]
    split
    · exact .inl ⟨rfl, .cancelled id _⟩
    · exact .inr (.inr ⟨.of_same rfl rfl, hBeside⟩)
  | connectionLost =>
    refine .inl ?_
    simp only [handle, connectionLost, hPending]
    exact ⟨rfl, .plain id _⟩

/-- The event by which an idle engine is not silent: the completion of a
bulk-out transfer of the awaited length, which no operation awaits. -/
def StrayBulkOut (engine : CcidEngine) (event : InputEvent) : Prop :=
  event = .ioCompleted (.bulkOut engine.expectedBulkOutLen)

theorem handle_stray (hEvent : engine.StrayBulkOut event) :
    engine.handle now event = ⟨engine, [engine.submitBulkIn]⟩ := by
  rw [hEvent]
  simp [handle, bulkOutCompleted]

variable (now) in
theorem handle_idle (hPending : engine.pendingOp = none) (hStray : ¬engine.StrayBulkOut event) :
    (engine.handle now event).Leaves engine := by
  cases event with
  | start other op => exact .of_same rfl rfl
  | ioCompleted completion =>
    cases completion with
    | bulkOut transferred =>
      have hLength : transferred ≠ engine.expectedBulkOutLen := fun h => hStray (by rw [h]; rfl)
      simp only [handle, bulkOutCompleted, ne_eq, hLength, not_false_eq_true, ↓reduceIte, hPending]
      exact .of_same rfl rfl
    | control | bulkIn frame =>
      simp only [handle, controlCompleted, bulkInCompleted, hPending]
      exact .of_same rfl rfl
    | failure error =>
      simp only [handle, failureCompleted, hPending]
      exact ⟨rfl, fun _ => rfl, by simp⟩
  | interruptReceived rawBytes =>
    rcases engine.interruptReceived_settles rawBytes with ⟨_, _, hOther, -⟩ | hLeaves
    · cases hPending.symm.trans hOther
    · exact hLeaves
  | deadlineExpired expired =>
    simp only [handle, deadlineExpired, hPending]
    cases engine.currentDeadline <;> exact .of_same rfl rfl
  | cancel cancelled =>
    simp only [handle, cancel, hPending]
    exact .of_same rfl rfl
  | connectionLost =>
    simp only [handle, connectionLost, hPending]
    exact ⟨hPending.symm, by simp [hPending], by simp⟩

end Handle

/-- What the flags of the engine say of each other, of the pending operation
and of its deadline. -/
structure Consistent (engine : CcidEngine) : Prop where
  activated : engine.activated = true → engine.cardPresent = true ∧ engine.connected = true
  pending : engine.pendingOp.isSome → engine.connected = true ∧ engine.currentDeadline.isSome
  recovery : engine.needsRecovery = true →
    ∀ id kind, engine.pendingOp = some (id, kind) → kind = .abort

namespace Consistent
variable (h : engine.Consistent)
include h

theorem finish : engine.finish.Consistent where
  activated := h.activated
  pending := by simp
  recovery := by simp

theorem requireRecovery (hPending : engine.pendingOp = none) :
    engine.requireRecovery.Consistent where
  activated := h.activated
  pending := h.pending
  recovery := by simp [hPending]

theorem loseCard : engine.loseCard.Consistent where
  activated := by simp [CcidEngine.loseCard]
  pending := h.pending
  recovery := h.recovery

theorem deactivate : engine.deactivate.Consistent where
  activated := by simp [CcidEngine.deactivate]
  pending := h.pending
  recovery := h.recovery

theorem activate (hConnected : engine.connected = true) :
    engine.activate.Consistent where
  activated := fun _ => ⟨rfl, hConnected⟩
  pending := h.pending
  recovery := h.recovery

theorem disconnect (hPending : engine.pendingOp = none) :
    engine.disconnect.Consistent where
  activated := by simp [CcidEngine.disconnect]
  pending := by simp [CcidEngine.disconnect, hPending]
  recovery := h.recovery

theorem armDeadline (expiresAt : MonotonicTime) :
    (engine.armDeadline expiresAt).Consistent where
  activated := h.activated
  pending := fun hSome => ⟨(h.pending hSome).1, rfl⟩
  recovery := h.recovery

/-- Updates of the fields the flags say nothing about. -/
theorem of_flags {changed : CcidEngine} (hActivated : changed.activated = engine.activated)
    (hPresent : changed.cardPresent = engine.cardPresent)
    (hConnected : changed.connected = engine.connected)
    (hRecovery : changed.needsRecovery = engine.needsRecovery)
    (hPending : changed.pendingOp = engine.pendingOp)
    (hDeadline : changed.currentDeadline = engine.currentDeadline) : changed.Consistent where
  activated := by rw [hActivated, hPresent, hConnected]; exact h.activated
  pending := by rw [hPending, hConnected, hDeadline]; exact h.pending
  recovery := by rw [hRecovery, hPending]; exact h.recovery

theorem clearChain : engine.clearChain.Consistent :=
  h.of_flags rfl rfl rfl rfl rfl rfl

theorem clearOutgoing : engine.clearOutgoing.Consistent :=
  h.of_flags rfl rfl rfl rfl rfl rfl

theorem sendBlock (bWi : UInt8) (wLevelParameter : UInt16)
    (block : Bytes) : (engine.sendBlock bWi wLevelParameter block).engine.Consistent :=
  h.of_flags rfl rfl rfl rfl rfl rfl

theorem extendTime (now : MonotonicTime) (id : OperationId)
    (multiplier : UInt8) : (engine.extendTime now id multiplier).engine.Consistent := by
  have hCounted : engine.countExtension.Consistent := h.of_flags rfl rfl rfl rfl rfl rfl
  unfold CcidEngine.extendTime
  dsimp only
  split
  · exact hCounted.finish.requireRecovery rfl
  · exact hCounted.armDeadline _

variable (id : OperationId)

theorem keepBlock (payload : Bytes) : (engine.keepBlock id payload).engine.Consistent := by
  have hKept : (engine.appendChain payload).Consistent := h.of_flags rfl rfl rfl rfl rfl rfl
  unfold CcidEngine.keepBlock
  split
  · exact h.clearChain.finish
  · exact hKept.sendBlock _ _ _

theorem chainDesync
    (reason : CcidProtocolDesync) : (engine.chainDesync id reason).engine.Consistent :=
  h.finish.requireRecovery rfl

theorem answerData (hConnected : engine.connected = true)
    (id : OperationId) (kind : PendingOperation) (data : Bytes) :
    (engine.answerData id kind data).engine.Consistent := by
  unfold CcidEngine.answerData
  split
  · exact h.finish.activate hConnected
  · exact h.finish

theorem dataBlock (hConnected : engine.connected = true)
    (now : MonotonicTime) (id : OperationId) (kind : PendingOperation)
    (chainParameter : ChainParameter) (payload : Bytes) :
    (engine.dataBlock now id kind chainParameter payload).engine.Consistent := by
  unfold CcidEngine.dataBlock
  cases chainParameter with
  | begin =>
    dsimp only
    split
    · exact h.clearChain.chainDesync id _
    · exact h.keepBlock id payload
  | «continue» =>
    dsimp only
    split
    · exact h.chainDesync id _
    · exact h.keepBlock id payload
  | finish =>
    dsimp only
    split
    · exact h.chainDesync id _
    split
    · exact h.clearChain.finish
    · exact h.clearChain.answerData hConnected id kind _
  | complete =>
    dsimp only
    split
    · exact h.clearChain.chainDesync id _
    split
    · exact h.finish
    · exact h.answerData hConnected id kind _
  | commandContinuationExpected =>
    dsimp only
    split
    · rename_i nextChunk rest hChain
      have hRest : (engine.setOutgoing rest).Consistent := h.of_flags rfl rfl rfl rfl rfl rfl
      exact (hRest.sendBlock _ _ _).armDeadline _
    · exact h.finish

theorem noteSlotStatus (present : Bool) : (engine.noteSlotStatus present).Consistent := by
  unfold CcidEngine.noteSlotStatus
  split
  · exact h.finish.loseCard
  rename_i hPresent
  -- with no card before, the card was not activated either
  refine ⟨fun hActivated => ⟨?_, (h.activated hActivated).2⟩, by simp, by simp⟩
  have hWas := (h.activated hActivated).1
  simpa [hWas] using hPresent

theorem slotStatus (kind : PendingOperation)
    (present : Bool) : (engine.slotStatus id kind present).engine.Consistent := by
  have hNoted := h.noteSlotStatus present
  cases kind with
  | powerOff => exact hNoted.deactivate
  | abort => exact ⟨hNoted.activated, hNoted.pending, by simp [CcidEngine.slotStatus]⟩
  | _ => exact hNoted

theorem noteStatus (cardStatus : CardStatus) : (engine.noteStatus cardStatus).Consistent := by
  unfold CcidEngine.noteStatus
  split
  · exact h.finish.loseCard
  · exact h.finish

theorem undecodable (kind : PendingOperation)
    (error : CcidError) : (engine.undecodable id kind error).engine.Consistent := by
  unfold CcidEngine.undecodable
  split
  · exact h.of_flags rfl rfl rfl rfl rfl rfl
  · exact h.finish.requireRecovery rfl

theorem bulkInCompleted (now : MonotonicTime) (frame : Bytes) :
    (engine.bulkInCompleted now frame).engine.Consistent := by
  unfold CcidEngine.bulkInCompleted
  split
  · exact h
  rename_i id kind hPending
  have hConnected : engine.connected = true := (h.pending (by simp [hPending])).1
  split
  · exact h.extendTime now id _
  · split
    · exact h.finish.loseCard
    · exact h.dataBlock hConnected now id kind _ _
  · exact h.slotStatus id kind _
  · exact h.noteStatus _
  · exact h.noteStatus _
  · exact h.undecodable id kind _

theorem slotChanged (present changed : Bool) :
    (engine.slotChanged present changed).engine.Consistent := by
  unfold CcidEngine.slotChanged
  split
  · have hNoted : (engine.notePresence present).deactivate.Consistent :=
      ⟨by simp [CcidEngine.deactivate], h.pending, h.recovery⟩
    split
    · split
      · exact hNoted.finish
      · exact hNoted
    · rename_i hStays
      have hStill : changed = false ∧ present = true := by simpa using hStays
      exact ⟨fun hActivated => ⟨hStill.2, (h.activated hActivated).2⟩, h.pending, h.recovery⟩
  · exact h

theorem interruptReceived (rawBytes : Bytes) :
    (engine.interruptReceived rawBytes).engine.Consistent := by
  unfold CcidEngine.interruptReceived
  split
  · split
    · split
      · exact h.finish.loseCard.requireRecovery rfl
      · exact h
    · exact h
  · split
    · exact h.slotChanged _ _
    · exact h

theorem failureCompleted (error : CcidError) :
    (engine.failureCompleted error).engine.Consistent := by
  unfold CcidEngine.failureCompleted
  split
  · exact h.clearOutgoing
  split
  · exact h.clearOutgoing.finish.loseCard
  · exact h.clearOutgoing.finish.requireRecovery rfl
  · exact h.clearOutgoing.finish.requireRecovery rfl
  · exact h.clearOutgoing.finish

theorem handle (now : MonotonicTime) (event : InputEvent) :
    (engine.handle now event).engine.Consistent := by
  cases event with
  | start id op => exact h
  | ioCompleted completion =>
    cases completion with
    | bulkOut transferred =>
      unfold CcidEngine.handle bulkOutCompleted
      dsimp only
      split
      · split
        · exact h.finish.requireRecovery rfl
        · exact h
      · exact h
    | control =>
      unfold CcidEngine.handle controlCompleted
      dsimp only
      split
      · exact h.of_flags rfl rfl rfl rfl rfl rfl
      · exact h
    | bulkIn frame => exact h.bulkInCompleted now frame
    | failure error => exact h.failureCompleted error
  | interruptReceived rawBytes => exact h.interruptReceived rawBytes
  | deadlineExpired expired | cancel cancelled =>
    dsimp only [CcidEngine.handle, deadlineExpired, cancel]
    split
    · split
      · exact h.clearOutgoing.finish.requireRecovery rfl
      · exact h
    · exact h
  | connectionLost =>
    dsimp only [CcidEngine.handle, connectionLost]
    split <;> exact h.clearOutgoing.finish.disconnect rfl

end Consistent

section Start
variable {id : OperationId} {op : Operation}

/-- An operation is taken on only by a connected engine with nothing pending,
and while recovery is needed only an abort is. -/
theorem refusal_eq_none (h : engine.refusal op = none) :
    engine.connected = true ∧ (engine.needsRecovery = true → op = .abort) ∧
      engine.pendingOp = none := by
  unfold refusal at h
  split at h
  · cases h
  rename_i hConnected
  split at h
  · cases h
  rename_i hRecovery
  split_ifs at h with hPending
  refine ⟨by simpa using hConnected, fun hNeeds => ?_, by simpa using hPending⟩
  simpa [hNeeds] using hRecovery

theorem started_pendingOp : (engine.started now id op).pendingOp = some (id, op.kind) := by
  cases op <;> rfl

theorem started_currentDeadline : (engine.started now id op).currentDeadline =
      some ⟨engine.activeDeadlineId + 1, now + engine.defaultTimeoutMs⟩ := by
  cases op with
  | transferBlock bWi wLevelParameter data =>
    simp only [started, armDeadline, keepChain]
    split <;> rfl
  | _ => rfl

variable (engine now id op) in
theorem started_flags : (engine.started now id op).activated = engine.activated ∧
      (engine.started now id op).cardPresent = engine.cardPresent ∧
      (engine.started now id op).connected = engine.connected ∧
      (engine.started now id op).needsRecovery = engine.needsRecovery := by
  cases op with
  | transferBlock bWi wLevelParameter data =>
    simp only [started, armDeadline, keepChain]
    split <;> exact ⟨rfl, rfl, rfl, rfl⟩
  | _ => exact ⟨rfl, rfl, rfl, rfl⟩

theorem Consistent.started (h : engine.Consistent) (hAccepted : engine.refusal op = none) :
    (engine.started now id op).Consistent := by
  obtain ⟨hConnected, hRecovery, -⟩ := refusal_eq_none hAccepted
  obtain ⟨hActivated, hPresent, hSame, hNeeds⟩ := started_flags engine now id op
  refine ⟨?_, ?_, ?_⟩
  · rw [hActivated, hPresent, hSame]
    exact h.activated
  · intro _
    rw [hSame, started_currentDeadline]
    exact ⟨hConnected, rfl⟩
  intro hNeeded other kind hPending
  rw [started_pendingOp] at hPending
  cases hPending
  rw [hNeeds] at hNeeded
  rw [hRecovery hNeeded]
  rfl

variable (engine op) in
/-- The opening transfer of an operation, a control transfer only for an
abort. -/
theorem opening_transfer : ∃ transfer, (engine.opening op).transfer? = some transfer ∧
    (transfer = .control → op.kind = .abort) := by
  cases op <;> exact ⟨_, rfl, by simp [Operation.kind]⟩

theorem opening_blocks {bWi wLevelParameter data} :
    (engine.opening (.transferBlock bWi wLevelParameter data)).block ++
      (engine.started now id (.transferBlock bWi wLevelParameter data)).outgoingChain.flatten =
      data := by
  have hSplits : ((engine.reset now).allocateSeq).splits data = engine.splits data := rfl
  simp only [opening, block, encode, started, armDeadline, keepChain, hSplits]
  split
  · rename_i hLong
    have hBlock : 0 < engine.maxPayloadLength := by
      simp only [splits, Bool.and_eq_true, decide_eq_true_eq] at hLong
      exact hLong.1.2
    rw [encodeXfrBlock, payloadMessage_drop]
    show data.take engine.maxPayloadLength ++
      (chunks engine.maxPayloadLength (data.drop engine.maxPayloadLength)).flatten = data
    rw [chunks_flatten hBlock, take_append_drop]
  · rw [encodeXfrBlock, payloadMessage_drop]
    exact append_nil data

theorem start_refused {error} (h : engine.refusal op = some error) :
    engine.start now id op = (⟨[.complete id (.error error)], none⟩, engine) := by
  simp [start, h]

theorem start_accepted (h : engine.refusal op = none) : engine.start now id op =
      (⟨[engine.opening op], (engine.started now id op).currentDeadline⟩,
        engine.started now id op) := by
  simp [start, h]

end Start

theorem step_of_handled (engine : CcidEngine) (now : MonotonicTime) (hEvent : event.started? = none) :
    engine.step now event = (⟨(engine.handle now event).actions,
        if (engine.handle now event).engine.pendingOp.isSome then
          (engine.handle now event).engine.currentDeadline else none⟩,
        (engine.handle now event).engine) := by
  cases event with
  | start id op => cases hEvent
  | _ => rfl

theorem Consistent.step (h : engine.Consistent) (now : MonotonicTime) (event : InputEvent) :
    (engine.step now event).2.Consistent := by
  cases event with
  | start id op =>
    show (engine.start now id op).2.Consistent
    cases hRefusal : engine.refusal op with
    | some error =>
      rw [start_refused hRefusal]
      exact h
    | none =>
      rw [start_accepted hRefusal]
      exact h.started hRefusal
  | _ => exact h.handle now _

end CcidEngine

end RefineId.Ccid
