import RefineId.Semantics.Dialogue

/-! What passes between a program and its peer, and rules for what holds of the
result, the peer's last state and everything that passed. -/
namespace RefineId.Semantics

variable {State Request Reply α β ε : Type}

structure Exchange (State Request Reply : Type) where
  state : State
  request : Request
  reply : Reply
  next : State

/-- Exchanges that follow one another from one state to another. -/
def Linked (first : State) : List (Exchange State Request Reply) → State → Prop
  | [], last => first = last
  | exchange :: rest, last => exchange.state = first ∧ Linked exchange.next rest last

/-- A property that no exchange breaks holds after each of them. -/
theorem Linked.forall_next {first last} {log : List (Exchange State Request Reply)}
    {P : State → Prop} (h : Linked first log last) (hFirst : P first)
    (hStep : ∀ exchange ∈ log, P exchange.state → P exchange.next) :
    (∀ exchange ∈ log, P exchange.next) ∧ P last := by
  induction log generalizing first with
  | nil =>
    rw [Linked] at h
    rw [← h]
    exact ⟨by simp, hFirst⟩
  | cons exchange rest ih =>
    obtain ⟨hState, hRest⟩ := h
    have hNext : P exchange.next :=
      hStep exchange List.mem_cons_self (by rw [hState]; exact hFirst)
    obtain ⟨hAll, hLast⟩ :=
      ih hRest hNext fun other hOther => hStep other (List.mem_cons_of_mem _ hOther)
    exact ⟨List.forall_mem_cons.mpr ⟨hNext, hAll⟩, hLast⟩

namespace Dialogue
variable (peer : State → Request → Reply × State)

/-- Everything that passes between the program and the peer. -/
def exchanges : Dialogue Request Reply α → State → List (Exchange State Request Reply)
  | done _, _ => []
  | ask request next, state =>
    ⟨state, request, (peer state request).1, (peer state request).2⟩ ::
      (next (peer state request).1).exchanges (peer state request).2

variable {peer}

theorem linked_exchanges (program : Dialogue Request Reply α) (state : State) :
    Linked state (program.exchanges peer state) (program.run peer state).2 := by
  induction program generalizing state with
  | done result => rfl
  | ask request next ih => exact ⟨rfl, ih _ _⟩

theorem exchanges_bind (first : Dialogue Request Reply α) (next : α → Dialogue Request Reply β)
    (state : State) :
    (first >>= next).exchanges peer state =
      first.exchanges peer state ++
        (next (first.run peer state).1).exchanges peer (first.run peer state).2 := by
  induction first generalizing state with
  | done result => rfl
  | ask request rest ih => exact congrArg (_ :: ·) (ih _ _)

variable (peer) in
/-- The result, the last state and the exchanges of a program that may fail. -/
def Ends (program : Failing ε Request Reply α) (state : State)
    (Q : Except ε α → State → List (Exchange State Request Reply) → Prop) : Prop :=
  Q (program.run.run peer state).1 (program.run.run peer state).2 (program.run.exchanges peer state)

section Ends
variable {state : State} {Q R : Except ε α → State → List (Exchange State Request Reply) → Prop}

theorem Ends.mono {program} (h : Ends peer program state Q)
    (hImp : ∀ result last log, Q result last log → R result last log) : Ends peer program state R :=
  hImp _ _ _ h

theorem ends_pure {result} :
    Ends peer (pure result : Failing ε Request Reply α) state Q ↔ Q (.ok result) state [] :=
  Iff.rfl

theorem ends_mk {result} :
    Ends peer (ExceptT.mk (pure result) : Failing ε Request Reply α) state Q ↔ Q result state [] :=
  Iff.rfl

/-- A program that fails passes nothing more. -/
theorem ends_bind {first} {next : β → Failing ε Request Reply α}
    (h : Ends peer first state fun result last log =>
      match result with
      | .ok value => Ends peer (next value) last fun final end' log' => Q final end' (log ++ log')
      | .error error => Q (.error error) last log) : Ends peer (first >>= next) state Q := by
  rw [Ends] at h
  have hRun := run_bind peer first.run (ExceptT.bindCont next) state
  have hExchanges := @exchanges_bind _ _ _ _ _ peer first.run (ExceptT.bindCont next) state
  change Q ((first.run >>= ExceptT.bindCont next).run peer state).1
    ((first.run >>= ExceptT.bindCont next).run peer state).2
    ((first.run >>= ExceptT.bindCont next).exchanges peer state)
  rw [hRun, hExchanges]
  cases hFirst : (first.run.run peer state).1 with
  | ok value =>
    rw [hFirst] at h
    exact h
  | error error =>
    rw [hFirst] at h
    exact (List.append_nil (first.run.exchanges peer state)).symm ▸ h

theorem ends_map {f} {program : Failing ε Request Reply β}
    (h : Ends peer program state fun result last log => Q (f <$> result) last log) :
    Ends peer (f <$> program) state Q := by
  refine ends_bind (h.mono ?_)
  rintro (error | value) last log hLog
  · exact hLog
  · exact ends_pure.mpr (by rw [List.append_nil]; exact hLog)

end Ends

end Dialogue

end RefineId.Semantics
