import Mathlib.Data.List.Induction

/-! Runs of a deterministic component that answers one call at a time. A run
keeps every call with the state it met and the reply it got, so invariants
may relate the whole past to the present state. -/
namespace RefineId.Semantics

open List

universe u v w

structure Event (State : Type u) (Call : Type v) (Reply : Type w) where
  state : State
  call : Call
  reply : Reply

variable {State : Type u} {Call : Type v} {Reply : Type w} (step : State → Call → Reply × State)

variable (state : State)

def event (call : Call) : Event State Call Reply :=
  ⟨state, call, (step state call).1⟩

def final (state : State) : List Call → State
  | [] => state
  | call :: rest => final (step state call).2 rest

def history (state : State) : List Call → List (Event State Call Reply)
  | [] => []
  | call :: rest => event step state call :: history (step state call).2 rest

theorem final_append (first second : List Call) :
    final step state (first ++ second) = final step (final step state first) second := by
  induction first generalizing state with
  | nil => rfl
  | cons call rest ih => exact ih _

theorem history_append (first second : List Call) :
    history step state (first ++ second) =
      history step state first ++ history step (final step state first) second := by
  induction first generalizing state with
  | nil => rfl
  | cons call rest ih => simp only [cons_append, history, final, ih]

variable {P : List (Event State Call Reply) → State → Prop} {start : State}

/-- Induction over the past of a run: a relation between history and state
that every step keeps holds at the end of every run. -/
theorem history_invariant (hStart : P [] start) (hStep : ∀ past state call, P past state →
      P (past ++ [event step state call]) (step state call).2) (calls : List Call) :
    P (history step start calls) (final step start calls) := by
  induction calls using reverseRecOn with
  | nil => exact hStart
  | append_singleton calls call ih =>
    rw [history_append, final_append]
    exact hStep _ _ call ih

variable {P : State → Prop}

/-- A state property kept by every step holds at the end of every run. -/
theorem final_invariant (hStart : P start) (hStep : ∀ state call, P state → P (step state call).2)
    (calls : List Call) : P (final step start calls) :=
  history_invariant step (P := fun _ state => P state) hStart
    (fun _ state call h => hStep state call h) calls

variable {Q : Event State Call Reply → Prop}

/-- Every event of a run meets whatever a kept state property guarantees of
one step. -/
theorem history_forall (hStart : P start) (hKeep : ∀ state call, P state → P (step state call).2)
    (hEvent : ∀ state call, P state → Q (event step state call)) (calls : List Call) :
    ∀ e ∈ history step start calls, Q e := by
  induction calls generalizing start with
  | nil => simp [history]
  | cons call rest ih =>
    exact forall_mem_cons.mpr ⟨hEvent start call hStart, ih (hKeep start call hStart)⟩

variable {before after : List (Event State Call Reply)} {calls : List Call}
  {e : Event State Call Reply}

/-- Any event of a run splits it: the calls before it reach its state and
the later events are a run from the state it leaves. -/
theorem history_split (h : history step start calls = before ++ e :: after) :
    ∃ first second, calls = first ++ e.call :: second ∧
      before = history step start first ∧ e = event step (final step start first) e.call ∧
      after = history step (step e.state e.call).2 second := by
  induction calls generalizing start before with
  | nil => simp [history] at h
  | cons call rest ih =>
    cases before with
    | nil =>
      simp only [history, nil_append, cons.injEq] at h
      obtain ⟨rfl, rfl⟩ := h
      exact ⟨[], rest, rfl, rfl, rfl, rfl⟩
    | cons head tail =>
      simp only [history, cons_append, cons.injEq] at h
      obtain ⟨rfl, hTail⟩ := h
      obtain ⟨first, second, rfl, rfl, he, rfl⟩ := ih hTail
      exact ⟨call :: first, second, rfl, rfl, he, rfl⟩

/-- Once an event of a run brings about a kept property, the run ends with
it and every later event has what it guarantees of one step. -/
theorem history_after {R : Event State Call Reply → Prop}
    (hReach : ∀ state call, Q (event step state call) → P (step state call).2)
    (hKeep : ∀ state call, P state → P (step state call).2 ∧ R (event step state call))
    (hSplit : history step start calls = before ++ e :: after) (hEvent : Q e) :
    P (final step start calls) ∧ ∀ later ∈ after, R later := by
  obtain ⟨first, second, rfl, -, he, rfl⟩ := history_split step hSplit
  have hNow : P (step e.state e.call).2 := by
    rw [he] at hEvent ⊢
    exact hReach _ _ hEvent
  have hState : final step start first = e.state := by rw [he]; rfl
  rw [final_append, hState]
  exact ⟨final_invariant step hNow (fun state call h => (hKeep state call h).1) second,
    history_forall step hNow (fun state call h => (hKeep state call h).1)
      (fun state call h => (hKeep state call h).2) second⟩

/-- A component whose state moves only by its own calls: a run of the whole
is, for the component, a run of its own. -/
theorem history_project {Part : Type u} {PartCall : Type v} {PartReply : Type w}
    {partStep} {project : State → Part} {partCall : State → Call → Option PartCall}
    {partEvent : Event State Call Reply → Option (Event Part PartCall PartReply)}
    (hEvent : ∀ state call, partEvent (event step state call) =
      (partCall state call).map (event partStep (project state)))
    (hState : ∀ state call, project (step state call).2 =
      ((partCall state call).map fun part => (partStep (project state) part).2).getD (project state))
    (start : State) (calls : List Call) :
    ∃ partCalls,
      history partStep (project start) partCalls = (history step start calls).filterMap partEvent ∧
      final partStep (project start) partCalls = project (final step start calls) := by
  induction calls generalizing start with
  | nil => exact ⟨[], rfl, rfl⟩
  | cons call rest ih =>
    obtain ⟨partCalls, hHistory, hFinal⟩ := ih (step start call).2
    rw [hState start call] at hHistory hFinal
    rw [history, final, filterMap_cons, hEvent]
    cases hPart : partCall start call with
    | none =>
      rw [hPart] at hHistory hFinal
      exact ⟨partCalls, hHistory, hFinal⟩
    | some part =>
      rw [hPart] at hHistory hFinal
      exact ⟨part :: partCalls, congrArg _ hHistory, hFinal⟩

section Log
variable {α : Type u} {log : List α}

theorem getElem?_append_singleton {last entry index} :
    (log ++ [last])[index]? = some entry ↔
      log[index]? = some entry ∨ (index = log.length ∧ entry = last) := by
  by_cases hIndex : index < log.length
  · rw [getElem?_append_left hIndex]
    exact ⟨.inl, fun h => h.resolve_right fun hLast => Nat.ne_of_lt hIndex hLast.1⟩
  have hPast : log.length ≤ index := Nat.le_of_not_lt hIndex
  rw [getElem?_append_right hPast, getElem?_eq_none hPast]
  by_cases hLast : index = log.length
  · simp [hLast, eq_comm]
  · have hMore : index - log.length ≠ 0 := by omega
    simp [hLast, hMore]

variable {β : Type v}

/-- What a log says of an event is added at its end. -/
theorem filterMap_append_singleton (read : α → Option β) (last : α) :
    (log ++ [last]).filterMap read = log.filterMap read ++ (read last).toList := by
  rw [filterMap_append]
  cases hRead : read last with
  | none | some value => simp [hRead]

theorem filterMap_filterMap_append_singleton {γ : Type v} (part : α → Option β)
    (read : β → Option γ) (last : α) :
    ((log ++ [last]).filterMap part).filterMap read =
      (log.filterMap part).filterMap read ++ ((part last).bind read).toList := by
  rw [filterMap_filterMap, filterMap_append_singleton, filterMap_filterMap]

/-- A reading that finds nothing after the first entry it reads finds at
most one. -/
theorem length_filterMap_le_one {read : α → Option β}
    (hLast : ∀ before entry after, log = before ++ entry :: after → (read entry).isSome →
      ∀ later ∈ after, read later = none) : (log.filterMap read).length ≤ 1 := by
  induction log with
  | nil => simp
  | cons entry rest ih =>
    cases hRead : read entry with
    | none =>
      rw [filterMap_cons_none hRead]
      exact ih fun before other after hSplit =>
        hLast (entry :: before) other after (by rw [hSplit, cons_append])
    | some value =>
      have hRest : rest.filterMap read = [] :=
        filterMap_eq_nil_iff.mpr (hLast [] entry rest rfl (by simp [hRead]))
      simp [filterMap_cons_some hRead, hRest]

/-- Two exclusive readings of a log, both parts of a third, count no more
than it. -/
theorem count_filterMap_add_le [BEq β] {whole first second}
    (hFirst : ∀ entry value, first entry = some value → whole entry = some value)
    (hSecond : ∀ entry value, second entry = some value → whole entry = some value)
    (hExclusive : ∀ entry, first entry = none ∨ second entry = none) (value : β) :
    (log.filterMap first).count value + (log.filterMap second).count value ≤
      (log.filterMap whole).count value := by
  induction log with
  | nil => simp
  | cons entry rest ih =>
    simp only [filterMap_cons]
    cases hF : first entry with
    | none =>
      cases hS : second entry with
      | none => cases whole entry <;> simp only [count_cons] <;> omega
      | some other =>
        rw [hSecond entry other hS]
        simp only [count_cons]
        omega
    | some other =>
      have hS : second entry = none := (hExclusive entry).resolve_left (by simp [hF])
      rw [hFirst entry other hF, hS]
      simp only [count_cons]
      omega

/-- The entries after the last one that is marked. -/
def since (marked : α → Bool) : List α → Option (List α)
  | [] => none
  | entry :: rest =>
    match since marked rest with
    | some later => some later
    | none => if marked entry then some rest else none

theorem since_append_singleton (marked : α → Bool) (last : α) : since marked (log ++ [last]) =
      if marked last then some [] else (since marked log).map (· ++ [last]) := by
  induction log with
  | nil => cases hLast : marked last <;> simp [since, hLast]
  | cons entry rest ih =>
    rw [cons_append, since, ih]
    cases hLast : marked last with
    | true => simp
    | false =>
      cases hRest : since marked rest with
      | some later => simp [since, hRest]
      | none => cases hEntry : marked entry <;> simp [since, hRest, hEntry]

end Log

end RefineId.Semantics
