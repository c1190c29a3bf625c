import RefineId.Ccid.EngineStep
import RefineId.Semantics.Run

/-! Runs of the slot engine on any events: every operation started is completed
once or still pending, and a pending operation has a transfer out. -/
namespace RefineId.Ccid

open Data Semantics List CcidEngine InputEvent

/-- One event of a run, with the time at which it is given to the engine. -/
abbrev Given := MonotonicTime × InputEvent

abbrev EngineEvent := Event CcidEngine Given Transition

def engineStep (engine : CcidEngine) (given : Given) : Transition × CcidEngine :=
  engine.step given.1 given.2

variable (past : List EngineEvent)

/-- The ids started in a run, in order and with repetitions. -/
def startedIds : List OperationId :=
  past.filterMap (·.call.2.started?)

/-- The ids completed in a run, in order and with repetitions. -/
def completedIds : List OperationId :=
  past.flatMap fun e => completions e.reply.actions

/-- The transfers submitted for the pending operation and not answered. A start
that meets no pending operation opens a new ledger; a completion answers one
transfer of its kind. -/
def recordTransfers (ledger : List Transfer) (e : EngineEvent) : List Transfer :=
  match e.call.2.started?, e.state.pendingOp with
  | some _, none => submissions e.reply.actions
  | _, _ => (match e.call.2.answered? with
      | some transfer => ledger.erase transfer
      | none => ledger) ++ submissions e.reply.actions

def outstanding : List Transfer :=
  past.foldl recordTransfers []

def CcidEngine.pendingId (engine : CcidEngine) : List OperationId :=
  (engine.pendingOp.map Prod.fst).toList

section Readings
variable (past : List EngineEvent) (e : EngineEvent)

theorem startedIds_append :
    startedIds (past ++ [e]) = startedIds past ++ e.call.2.started?.toList :=
  filterMap_append_singleton _ e

theorem completedIds_append :
    completedIds (past ++ [e]) = completedIds past ++ completions e.reply.actions := by
  simp [completedIds]

theorem outstanding_append : outstanding (past ++ [e]) = recordTransfers (outstanding past) e := by
  simp [outstanding]

end Readings

/-- The completed ids and the pending one are the started ones, and the
pending operation has a transfer out. -/
structure Accounted (past : List EngineEvent) (engine : CcidEngine) : Prop where
  consistent : engine.Consistent
  ids : ∀ id, (startedIds past).count id = (completedIds past).count id + engine.pendingId.count id
  transfers : ∀ id kind, engine.pendingOp = some (id, kind) →
    outstanding past ≠ [] ∧ (kind ≠ .abort → .control ∉ outstanding past)

namespace Accounted

variable (interfaceNumber bSlot : UInt8)

open CcidEngine

theorem initial (descriptor : CcidFunctionalDescriptor) :
    Accounted [] (new interfaceNumber bSlot descriptor) where
  consistent := by constructor <;> simp [new]
  ids := by simp [startedIds, completedIds, pendingId, new]
  transfers := by simp [new]

variable {past : List EngineEvent} {engine : CcidEngine} {now : MonotonicTime}

/-- What a run adds up to after an event of which these are the readings. -/
theorem after {given} (h : Accounted past engine)
    (hIds : ∀ id, given.2.started?.toList.count id + engine.pendingId.count id =
      (completions (engineStep engine given).1.actions).count id +
        (engineStep engine given).2.pendingId.count id)
    (hTransfers : ∀ id kind, (engineStep engine given).2.pendingOp = some (id, kind) →
      recordTransfers (outstanding past) (event engineStep engine given) ≠ [] ∧
      (kind ≠ .abort →
        .control ∉ recordTransfers (outstanding past) (event engineStep engine given))) :
    Accounted (past ++ [event engineStep engine given]) (engineStep engine given).2 where
  consistent := h.consistent.step given.1 given.2
  ids := by
    intro id
    have hBefore := h.ids id
    have hNow := hIds id
    rw [startedIds_append, completedIds_append, count_append, count_append]
    simp only [event]
    omega
  transfers := by
    intro id kind hPending
    rw [outstanding_append]
    exact hTransfers id kind hPending

theorem start (h : Accounted past engine) (id : OperationId) (op : Operation) :
    Accounted (past ++ [event engineStep engine (now, .start id op)])
      (engineStep engine (now, .start id op)).2 := by
  have hStep : engineStep engine (now, .start id op) = engine.start now id op := rfl
  cases hRefusal : engine.refusal op with
  | some error =>
    rw [start_refused hRefusal] at hStep
    apply h.after
    · intro other
      rw [hStep]
      rfl
    intro other kind hPending
    rw [hStep] at hPending
    have hPending : engine.pendingOp = some (other, kind) := hPending
    have hSame : recordTransfers (outstanding past)
        (event engineStep engine (now, .start id op)) = outstanding past := by
      simp [recordTransfers, event, hStep, started?, answered?, hPending,
        submissions, Action.transfer?]
    rw [hSame]
    exact h.transfers other kind hPending
  | none =>
    obtain ⟨-, -, hIdle⟩ := refusal_eq_none hRefusal
    rw [start_accepted hRefusal] at hStep
    obtain ⟨transfer, hTransfer, hControl⟩ := opening_transfer engine op
    obtain ⟨hCompletes, hSubmits⟩ := readings_of_transfer hTransfer
    apply h.after
    · intro other
      rw [hStep]
      simp [hCompletes, pendingId, started_pendingOp, hIdle, started?]
    intro other kind hPending
    rw [hStep] at hPending
    have hLedger : recordTransfers (outstanding past)
        (event engineStep engine (now, .start id op)) = [transfer] := by
      simp [recordTransfers, event, hStep, started?, hIdle, hSubmits]
    rw [started_pendingOp] at hPending
    cases hPending
    rw [hLedger]
    refine ⟨by simp, fun hKind hMember => hKind (hControl ?_)⟩
    exact (mem_singleton.mp hMember).symm

/-- Every input but a start keeps the account. -/
theorem handled (h : Accounted past engine) {input} (hEvent : input.started? = none) :
    Accounted (past ++ [event engineStep engine (now, input)])
      (engineStep engine (now, input)).2 := by
  have hStep := step_of_handled engine now hEvent
  have hStepActions : (engineStep engine (now, input)).1.actions =
      (engine.handle now input).actions := by
    rw [engineStep, hStep]
  have hStepAfter : (engineStep engine (now, input)).2 = (engine.handle now input).engine := by
    rw [engineStep, hStep]
  cases hPending : engine.pendingOp with
  | none =>
    have hQuiet : completions (engine.handle now input).actions = [] ∧
        (engine.handle now input).engine.pendingOp = none := by
      by_cases hStray : engine.StrayBulkOut input
      · rw [handle_stray hStray]
        exact ⟨rfl, hPending⟩
      · have hLeaves := handle_idle now hPending hStray
        exact ⟨hLeaves.readings.1, hLeaves.pending.trans hPending⟩
    apply h.after
    · intro other
      simp [hStepActions, hStepAfter, hQuiet, pendingId, hPending, hEvent]
    · intro other kind hSome
      rw [hStepAfter, hQuiet.2] at hSome
      cases hSome
  | some pending =>
    obtain ⟨id, kind⟩ := pending
    obtain ⟨-, hControl⟩ := h.transfers id kind hPending
    have hLedger : recordTransfers (outstanding past) (event engineStep engine (now, input)) =
        (match input.answered? with
          | some transfer => (outstanding past).erase transfer
          | none => outstanding past) ++ submissions (engine.handle now input).actions := by
      simp only [recordTransfers, event, hEvent, engineStep, step_of_handled engine now hEvent]
    rcases handle_pending now hPending hEvent with hEnds | ⟨hGoes, hAnswers⟩ | ⟨hLeaves, hBeside⟩
    · apply h.after
      · intro other
        simp [hStepActions, hStepAfter, hEnds.pending, hEnds.ending.completions,
          pendingId, hPending, hEvent]
      · intro other kind hSome
        rw [hStepAfter, hEnds.pending] at hSome
        cases hSome
    · obtain ⟨action, transfer, hAction, hTransfer, hBulk, -⟩ := hGoes.action
      obtain ⟨hCompletes, hSubmits⟩ := readings_of_transfer hTransfer
      apply h.after
      · intro other
        simp [hStepActions, hStepAfter, hGoes.pending, hAction, hCompletes, pendingId, hEvent]
      intro other otherKind hSome
      rw [hStepAfter, hGoes.pending, hPending] at hSome
      cases hSome
      rw [hLedger, hAction, hSubmits]
      refine ⟨by simp, fun hKind hMember => ?_⟩
      rcases mem_append.mp hMember with hEarlier | hLast
      · refine hControl hKind ?_
        split at hEarlier
        · exact mem_of_mem_erase hEarlier
        · exact hEarlier
      · exact hBulk (mem_singleton.mp hLast).symm
    have hKept : recordTransfers (outstanding past) (event engineStep engine (now, input)) =
        outstanding past := by
      rw [hLedger, hLeaves.readings.2, append_nil]
      split
      · rename_i transfer hAnswered
        obtain ⟨rfl, hKind⟩ := hBeside transfer hAnswered
        exact erase_of_not_mem (hControl hKind)
      · rfl
    apply h.after
    · intro other
      simp [hStepActions, hStepAfter, hLeaves.pending, hLeaves.readings.1, pendingId, hEvent]
    · intro other otherKind hSome
      rw [hStepAfter, hLeaves.pending] at hSome
      rw [hKept]
      exact h.transfers other otherKind hSome

theorem step (h : Accounted past engine) (given : Given) :
    Accounted (past ++ [event engineStep engine given]) (engineStep engine given).2 := by
  obtain ⟨-, input⟩ := given
  cases input with
  | start id op => exact h.start id op
  | _ => exact h.handled rfl

theorem run (descriptor : CcidFunctionalDescriptor) (calls : List Given) :
    Accounted (history engineStep (new interfaceNumber bSlot descriptor) calls)
      (final engineStep (new interfaceNumber bSlot descriptor) calls) :=
  history_invariant engineStep (initial interfaceNumber bSlot descriptor)
    (fun _ _ given h => h.step given) calls

end Accounted

open CcidEngine

/-- An idle engine is silent at any event but a start, unless the event is a
bulk-out completion of just the length last submitted. It then submits a
bulk-in that no operation awaits. -/
theorem idle_step_silent_iff (interfaceNumber bSlot : UInt8)
    (descriptor : CcidFunctionalDescriptor) (given : List Given) (e : EngineEvent)
    (hEvent : e ∈ history engineStep (new interfaceNumber bSlot descriptor) given)
    (hStart : e.call.2.started? = none) (hIdle : e.state.pendingOp = none) :
    (submissions e.reply.actions = [] ∧ completions e.reply.actions = []) ↔
      e.call.2 ≠ .ioCompleted (.bulkOut e.state.expectedBulkOutLen) := by
  have hReply : e.reply.actions = (e.state.handle e.call.1 e.call.2).actions := by
    obtain ⟨before, after, hSplit⟩ := append_of_mem hEvent
    obtain ⟨first, -, -, -, he, -⟩ := history_split engineStep hSplit
    rw [he] at hStart ⊢
    simp only [event, engineStep] at hStart ⊢
    rw [step_of_handled _ _ hStart]
  rw [hReply]
  by_cases hStray : e.state.StrayBulkOut e.call.2
  · rw [handle_stray hStray]
    constructor
    · rintro ⟨hSubmits, -⟩
      cases hSubmits
    · intro hOther
      exact absurd hStray hOther
  · obtain ⟨hCompletes, hSubmits⟩ := (handle_idle e.call.1 hIdle hStray).readings
    exact ⟨fun _ => hStray, fun _ => ⟨hSubmits, hCompletes⟩⟩

def shortReader : CcidFunctionalDescriptor := ⟨.shortApdu, 271, 0⟩

/-- A bulk-in completion that comes after its operation was cancelled. -/
def lateBulkIn : EngineEvent :=
  event engineStep (final engineStep (new 0 0 shortReader)
    [(0, .start 1 .powerOff), (1, .cancel 1)]) (2, .ioCompleted (.bulkIn []))

theorem idle_step_silent_iff_lateBulkIn :
    submissions lateBulkIn.reply.actions = [] ∧ completions lateBulkIn.reply.actions = [] := by
  have hMember : lateBulkIn ∈ history engineStep (new 0 0 shortReader)
      [(0, .start 1 .powerOff), (1, .cancel 1), (2, .ioCompleted (.bulkIn []))] := by
    rw [history, history, history]
    exact mem_cons_of_mem _ (mem_cons_of_mem _ mem_cons_self)
  exact (idle_step_silent_iff 0 0 shortReader _ lateBulkIn hMember rfl rfl).mpr (by decide)

/-- The bulk-out of a cancelled operation, reported late, makes the idle engine
submit a bulk-in. -/
theorem late_bulk_out_submits : (final engineStep (new 0 0 shortReader)
      [(0, .start 1 .powerOff), (1, .cancel 1)]).pendingOp = none ∧
      submissions (engineStep (final engineStep (new 0 0 shortReader)
        [(0, .start 1 .powerOff), (1, .cancel 1)]) (2, .ioCompleted (.bulkOut 10))).1.actions =
        [.bulkIn] :=
  ⟨rfl, rfl⟩

end RefineId.Ccid
