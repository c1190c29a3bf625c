import Mathlib.Data.List.Nodup
import Mathlib.Data.List.Induction

/-! Depth-first enumeration of paths in which every candidate is tested, each
test is paid from a budget, and the number of results and the length of a path
are bounded. -/
namespace RefineId.Data.PathSearch

open List Nat

universe u

variable {α : Type u}

/-- The candidates that pass, as far as the budget pays for their tests. -/
def paid (pass : α → Bool) : List α → Nat → List α × Nat
  | [], budget => ([], budget)
  | _ :: rest, 0 => paid pass rest 0
  | candidate :: rest, budget + 1 =>
    let (passed, left) := paid pass rest budget
    (if pass candidate then candidate :: passed else passed, left)

structure Problem (α : Type u) where
  tests : List α → List α
  pass : List α → α → Bool
  goal : List α → Bool
  same : α → α → Bool
  depth : Nat
  limit : Nat

/-- What was found, what is left to pay with, and whether a test was to be made
that it does not pay for. Nothing is decided by `refused`. -/
structure State (α : Type u) where
  found : List (List α)
  budget : Nat
  refused : Bool

namespace Problem
variable (problem : Problem α)

/-- The search from a path upward. `fuel` bounds the recursion; a path that is
too long stops it before the fuel does. -/
def run : Nat → List α → State α → State α
  | 0, _, state => state
  | fuel + 1, path, state =>
    if problem.depth < path.length ∨ problem.limit ≤ state.found.length then state
    else if problem.goal path then { state with found := state.found ++ [path] }
    else
      let refused := state.refused || state.budget < (problem.tests path).length
      if state.budget = 0 then { state with refused }
      else
        let (passed, budget) := paid (problem.pass path) (problem.tests path) state.budget
        passed.foldl (fun state next =>
          if path.any (problem.same next) then state
          else run fuel (path ++ [next]) state) { state with budget, refused }

/-- The same search where every test is paid for: what it finds, and how many
candidates it tests, from those found and tested before. -/
def unbounded : Nat → List α → List (List α) × Nat → List (List α) × Nat
  | 0, _, outcome => outcome
  | fuel + 1, path, (found, tested) =>
    if problem.depth < path.length ∨ problem.limit ≤ found.length then (found, tested)
    else if problem.goal path then (found ++ [path], tested)
    else
      ((problem.tests path).filter (problem.pass path)).foldl (fun outcome next =>
        if path.any (problem.same next) then outcome
        else unbounded fuel (path ++ [next]) outcome) (found, tested + (problem.tests path).length)

def successors (path : List α) : List α :=
  ((problem.tests path).filter (problem.pass path)).filter fun next =>
    !path.any (problem.same next)

inductive Reaches : List α → List α → Prop where
  | goal {path : List α} (hDepth : path.length ≤ problem.depth) (hGoal : problem.goal path = true) :
      Reaches path path
  | step {path last : List α} {next : α} (hDepth : path.length ≤ problem.depth)
      (hGoal : problem.goal path = false) (hNext : next ∈ problem.successors path)
      (hRest : Reaches (path ++ [next]) last) : Reaches path last

def paths : Nat → List α → List (List α)
  | 0, _ => []
  | fuel + 1, path =>
    if problem.depth < path.length then []
    else if problem.goal path then [path]
    else (problem.successors path).flatMap fun next => paths fuel (path ++ [next])

end Problem

section Paid
variable {pass : α → Bool}

theorem paid_left_le (candidates : List α) (budget : Nat) :
    (paid pass candidates budget).2 ≤ budget := by
  induction candidates generalizing budget with
  | nil => exact Nat.le_refl _
  | cons candidate rest ih =>
    cases budget with
    | zero => exact ih 0
    | succ budget => exact le_succ_of_le (ih budget)

variable {candidates : List α} {budget : Nat}

theorem mem_paid {candidate} (h : candidate ∈ (paid pass candidates budget).1) :
    candidate ∈ candidates ∧ pass candidate = true := by
  induction candidates generalizing budget with
  | nil => cases h
  | cons first rest ih =>
    cases budget with
    | zero =>
      obtain ⟨hMem, hPass⟩ := ih h
      exact ⟨mem_cons_of_mem _ hMem, hPass⟩
    | succ budget =>
      rw [paid] at h
      dsimp only at h
      split at h
      · rename_i hFirst
        rcases mem_cons.mp h with rfl | h
        · exact ⟨by simp, hFirst⟩
        · obtain ⟨hMem, hPass⟩ := ih h
          exact ⟨mem_cons_of_mem _ hMem, hPass⟩
      · obtain ⟨hMem, hPass⟩ := ih h
        exact ⟨mem_cons_of_mem _ hMem, hPass⟩

/-- A budget for all candidates pays for every test, a smaller one is spent. -/
theorem paid_eq (candidates : List α) (budget : Nat) :
    (candidates.length ≤ budget →
      paid pass candidates budget = (candidates.filter pass, budget - candidates.length)) ∧
    (budget ≤ candidates.length → (paid pass candidates budget).2 = 0) := by
  induction candidates generalizing budget with
  | nil => exact ⟨fun _ => rfl, le_zero.mp⟩
  | cons candidate rest ih =>
    cases budget with
    | zero => exact ⟨fun h => absurd h (by simp), fun _ => (ih 0).2 (Nat.zero_le _)⟩
    | succ budget =>
      rw [paid, length_cons, Nat.add_le_add_iff_right, Nat.add_le_add_iff_right, filter_cons]
      refine ⟨fun h => ?_, (ih budget).2⟩
      rw [(ih budget).1 h, Nat.add_sub_add_right]

end Paid

namespace Problem
variable {problem : Problem α} {fuel : Nat} {path : List α} {state other : State α}

/-- One step of the loop over the candidates that passed. -/
def visit (problem : Problem α) (fuel : Nat) (path : List α) (state : State α) (next : α) : State α :=
  if path.any (problem.same next) then state else problem.run fuel (path ++ [next]) state

theorem run_succ (fuel : Nat) (path : List α) (state : State α) :
    problem.run (fuel + 1) path state =
      if problem.depth < path.length ∨ problem.limit ≤ state.found.length then state
      else if problem.goal path then { state with found := state.found ++ [path] }
      else if state.budget = 0 then
        { state with refused := state.refused || state.budget < (problem.tests path).length }
      else
        (paid (problem.pass path) (problem.tests path) state.budget).1.foldl
          (problem.visit fuel path)
          ⟨state.found, (paid (problem.pass path) (problem.tests path) state.budget).2,
            state.refused || state.budget < (problem.tests path).length⟩ :=
  rfl

variable {last : List α}

/-- Whatever the search adds is reached from its start. -/
theorem run_sound (h : last ∈ (problem.run fuel path state).found) :
    last ∈ state.found ∨ problem.Reaches path last := by
  induction fuel generalizing path state with
  | zero => exact .inl h
  | succ fuel ih =>
    rw [run_succ] at h
    split_ifs at h with hStop hGoal hSpent
    · exact .inl h
    · rcases mem_append.mp h with h | h
      · exact .inl h
      · rw [mem_singleton.mp h]
        exact .inr (.goal (by omega) hGoal)
    · exact .inl h
    -- The loop, from the last candidate back.
    have hLoop : ∀ passed : List α, (∀ next ∈ passed, next ∈ problem.tests path ∧
        problem.pass path next = true) → ∀ start : State α,
        last ∈ (passed.foldl (problem.visit fuel path) start).found →
        last ∈ start.found ∨ problem.Reaches path last := by
      intro passed hPassed start hLast
      induction passed using List.reverseRecOn with
      | nil => exact .inl hLast
      | append_singleton passed next ihLoop =>
        have hBefore := ihLoop fun other hOther => hPassed other (mem_append_left _ hOther)
        rw [foldl_append, foldl_cons, foldl_nil, visit] at hLast
        split at hLast
        · exact hBefore hLast
        rename_i hNew
        rcases ih hLast with hLast | hReaches
        · exact hBefore hLast
        obtain ⟨hTest, hPass⟩ := hPassed next (by simp)
        refine .inr (.step (by omega) (by simpa using hGoal) ?_ hReaches)
        exact mem_filter.mpr ⟨mem_filter.mpr ⟨hTest, hPass⟩, by simpa using hNew⟩
    have hFound := hLoop _ (fun next hNext => mem_paid hNext) _ h
    exact hFound

/-- No more is left than a budget, and a refusal, if there was one, is noted. -/
def Within (budget : Nat) (refused : Prop) (state : State α) : Prop :=
  state.budget ≤ budget ∧ (refused → state.refused = true)

variable {budget : Nat} {refused : Prop} {passed : List α}

theorem loop_within (hRun : ∀ {path} {state : State α}, Within budget refused state →
      Within budget refused (problem.run fuel path state)) (h : Within budget refused state) :
    Within budget refused (passed.foldl (problem.visit fuel path) state) := by
  induction passed generalizing state with
  | nil => exact h
  | cons next rest ih =>
    refine ih ?_
    rw [visit]
    split
    · exact h
    · exact hRun h

/-- A budget is only spent, and a refusal stays. -/
theorem run_within (h : Within budget refused state) :
    Within budget refused (problem.run fuel path state) := by
  induction fuel generalizing path state with
  | zero => exact h
  | succ fuel ih =>
    have hRefused (hTrue : refused) :
        (state.refused || decide (state.budget < (problem.tests path).length)) = true := by
      rw [h.2 hTrue, Bool.true_or]
    rw [run_succ]
    split_ifs
    · exact h
    · exact h
    · exact ⟨h.1, hRefused⟩
    · exact loop_within ih ⟨Nat.le_trans (paid_left_le _ _) h.1, hRefused⟩

theorem left_of_loop (h : (passed.foldl (problem.visit fuel path) state).budget ≠ 0) :
    state.budget ≠ 0 := by
  have hLe := (loop_within run_within ⟨Nat.le_refl state.budget, False.elim⟩ :
    Within _ _ (passed.foldl (problem.visit fuel path) state)).1
  omega

/-- The loop over the candidates that passed, given the search above each. -/
theorem loop_complete
    (hRun : ∀ {path : List α} {state : State α}, (problem.run fuel path state).budget ≠ 0 →
      state.found.length + (problem.paths fuel path).length < problem.limit →
      (problem.run fuel path state).found = state.found ++ problem.paths fuel path)
    (hBudget : (passed.foldl (problem.visit fuel path) state).budget ≠ 0)
    (hRoom : state.found.length + ((passed.filter fun next => !path.any (problem.same next)).flatMap
      fun next => problem.paths fuel (path ++ [next])).length < problem.limit) :
    (passed.foldl (problem.visit fuel path) state).found = state.found ++
      (passed.filter fun next => !path.any (problem.same next)).flatMap
        fun next => problem.paths fuel (path ++ [next]) := by
  induction passed generalizing state with
  | nil => simp
  | cons next rest ih =>
    rw [foldl_cons] at hBudget ⊢
    by_cases hSeen : path.any (problem.same next) = true
    · rw [filter_cons_of_neg (by simpa using hSeen)] at hRoom ⊢
      rw [visit, if_pos hSeen] at hBudget ⊢
      exact ih hBudget hRoom
    · rw [filter_cons_of_pos (by simpa using hSeen), flatMap_cons] at hRoom ⊢
      rw [length_append] at hRoom
      rw [visit, if_neg hSeen] at hBudget ⊢
      have hFound := hRun (left_of_loop hBudget) (by omega)
      rw [ih hBudget (by rw [hFound, length_append]; omega), hFound, append_assoc]

/-- A search that ends with budget left has found every path, unless it ran
into its number of results. -/
theorem run_complete (hBudget : (problem.run fuel path state).budget ≠ 0)
    (hRoom : state.found.length + (problem.paths fuel path).length < problem.limit) :
    (problem.run fuel path state).found = state.found ++ problem.paths fuel path := by
  induction fuel generalizing path state with
  | zero => simp [run, paths]
  | succ fuel ih =>
    rw [run_succ] at hBudget ⊢
    rw [paths] at hRoom ⊢
    by_cases hLong : problem.depth < path.length
    · simp [hLong]
    rw [if_neg hLong] at hRoom ⊢
    rw [if_neg (by omega)] at hBudget ⊢
    by_cases hGoal : problem.goal path = true
    · simp [hGoal]
    rw [if_neg hGoal] at hBudget hRoom ⊢
    rw [if_neg hGoal]
    by_cases hSpent : state.budget = 0
    · rw [if_pos hSpent] at hBudget
      exact absurd hSpent hBudget
    rw [if_neg hSpent] at hBudget ⊢
    -- Every test was paid for, so the loop is over all the successors.
    have hFits : (problem.tests path).length ≤ state.budget :=
      Nat.le_of_not_le fun hMany => left_of_loop hBudget ((paid_eq _ _).2 hMany)
    rw [(paid_eq _ _).1 hFits] at hBudget ⊢
    exact loop_complete ih hBudget hRoom

theorem mem_paths_iff (hFuel : problem.depth < fuel + path.length) :
    last ∈ problem.paths fuel path ↔ problem.Reaches path last := by
  induction fuel generalizing path with
  | zero =>
    refine iff_of_false (by simp [paths]) fun h => ?_
    cases h <;> omega
  | succ fuel ih =>
    rw [paths]
    have hNext (next : α) : problem.depth < fuel + (path ++ [next]).length := by
      rw [length_append, length_singleton]
      omega
    split_ifs with hLong hGoal
    · refine iff_of_false (by simp) fun h => ?_
      cases h <;> omega
    · rw [mem_singleton]
      constructor
      · rintro rfl
        exact .goal (by omega) hGoal
      intro h
      cases h with
      | goal _ _ => rfl
      | step _ hOther _ _ =>
        rw [hGoal] at hOther
        cases hOther
    rw [mem_flatMap]
    constructor
    · rintro ⟨next, hMem, hLast⟩
      exact .step (by omega) (by simpa using hGoal) hMem ((ih (hNext next)).mp hLast)
    intro h
    cases h with
    | goal _ hOther => exact absurd hOther hGoal
    | step _ _ hMem hRest => exact ⟨_, hMem, (ih (hNext _)).mpr hRest⟩

theorem Reaches.isPrefix (h : problem.Reaches path last) : path <+: last := by
  induction h with
  | goal _ _ => exact prefix_refl _
  | step _ _ _ _ ih => exact (prefix_append _ _).trans ih

/-- No path is listed twice. -/
theorem paths_nodup (hTests : ∀ path, (problem.tests path).Nodup)
    (hFuel : problem.depth < fuel + path.length) : (problem.paths fuel path).Nodup := by
  induction fuel generalizing path with
  | zero => exact nodup_nil
  | succ fuel ih =>
    rw [paths]
    have hNext (next : α) : problem.depth < fuel + (path ++ [next]).length := by
      rw [length_append, length_singleton]
      omega
    split_ifs
    · exact nodup_nil
    · exact nodup_singleton _
    refine nodup_flatMap.mpr ⟨fun next _ => ih (hNext next), ?_⟩
    refine (((hTests path).filter _).filter _).imp ?_
    intro first second hDistinct last hFirst hSecond
    -- Both would be the entry that follows the path.
    have hOne := ((mem_paths_iff (hNext first)).mp hFirst).isPrefix
    have hTwo := ((mem_paths_iff (hNext second)).mp hSecond).isPrefix
    have hSame := (prefix_of_prefix_length_le hOne hTwo (by simp)).eq_of_length (by simp)
    exact hDistinct (by simpa using hSame)

/-- A run with a budget beside the search that pays for everything: all it
tested is paid for, or it tested more than there is to pay with. -/
def Tracks (budget : Nat) (outcome : List (List α) × Nat) (state : State α) : Prop :=
  outcome.2 ≤ budget ∧ state = ⟨outcome.1, budget - outcome.2, false⟩ ∨
    budget < outcome.2 ∧ state.budget = 0 ∧ state.refused = true

variable {outcome : List (List α) × Nat}

/-- One step of the loop of the search that pays for everything. -/
def visitAll (problem : Problem α) (fuel : Nat) (path : List α) (outcome : List (List α) × Nat)
    (next : α) : List (List α) × Nat :=
  if path.any (problem.same next) then outcome else problem.unbounded fuel (path ++ [next]) outcome

theorem unbounded_succ (fuel : Nat) (path : List α) (outcome : List (List α) × Nat) :
    problem.unbounded (fuel + 1) path outcome =
      if problem.depth < path.length ∨ problem.limit ≤ outcome.1.length then outcome
      else if problem.goal path then (outcome.1 ++ [path], outcome.2)
      else ((problem.tests path).filter (problem.pass path)).foldl (problem.visitAll fuel path)
        (outcome.1, outcome.2 + (problem.tests path).length) :=
  rfl

theorem loop_tested (hRun : ∀ path outcome, outcome.2 ≤ (problem.unbounded fuel path outcome).2)
    (passed : List α) (outcome : List (List α) × Nat) :
    outcome.2 ≤ (passed.foldl (problem.visitAll fuel path) outcome).2 := by
  induction passed generalizing outcome with
  | nil => exact Nat.le_refl _
  | cons next rest ih =>
    refine Nat.le_trans ?_ (ih _)
    rw [visitAll]
    split
    · exact Nat.le_refl _
    · exact hRun _ outcome

theorem unbounded_tested (fuel : Nat) (path : List α) (outcome : List (List α) × Nat) :
    outcome.2 ≤ (problem.unbounded fuel path outcome).2 := by
  induction fuel generalizing path outcome with
  | zero => exact Nat.le_refl _
  | succ fuel ih =>
    rw [unbounded_succ]
    split_ifs
    · exact Nat.le_refl _
    · exact Nat.le_refl _
    · exact Nat.le_trans (Nat.le_add_right _ _) (loop_tested ih _ (_, _))

theorem loop_tracks (hRun : ∀ {path outcome} {state : State α}, Tracks budget outcome state →
      Tracks budget (problem.unbounded fuel path outcome) (problem.run fuel path state))
    (h : Tracks budget outcome state) :
    Tracks budget (passed.foldl (problem.visitAll fuel path) outcome)
      (passed.foldl (problem.visit fuel path) state) := by
  induction passed generalizing outcome state with
  | nil => exact h
  | cons next rest ih =>
    rw [foldl_cons, foldl_cons, visitAll, visit]
    split
    · exact ih h
    · exact ih (hRun h)

/-- The search with a budget is the one without until it is to make a test that it
cannot pay for. -/
theorem run_tracks (h : Tracks budget outcome state) :
    Tracks budget (problem.unbounded fuel path outcome) (problem.run fuel path state) := by
  induction fuel generalizing path outcome state with
  | zero => exact h
  | succ fuel ih =>
    rcases h with ⟨hPaid, rfl⟩ | ⟨hMore, hSpent, hRefused⟩
    · obtain ⟨found, tested⟩ := outcome
      have hTested := @loop_tested _ problem fuel path (unbounded_tested fuel)
        ((problem.tests path).filter (problem.pass path))
        (found, tested + (problem.tests path).length)
      rw [unbounded_succ, run_succ]
      dsimp only at hTested ⊢
      split_ifs with hStop hGoal hSpent
      · exact .inl ⟨hPaid, rfl⟩
      · exact .inl ⟨hPaid, rfl⟩
      · by_cases hNone : problem.tests path = []
        · exact .inl ⟨by simp [hNone, hPaid], by simp [hNone]⟩
        · have hSome := length_pos_iff.mpr hNone
          exact .inr ⟨by omega, hSpent, decide_eq_true (by omega)⟩
      · by_cases hFits : (problem.tests path).length ≤ budget - tested
        · rw [(paid_eq _ _).1 hFits, decide_eq_false (Nat.not_lt.mpr hFits)]
          exact loop_tracks ih (.inl ⟨by dsimp only; omega, by rw [Nat.sub_sub]; rfl⟩)
        · have hMany := Nat.not_le.mp hFits
          obtain ⟨hLeft, hStays⟩ := @loop_within _ problem fuel path ⟨found, _, _⟩ 0 True _ run_within
            ⟨Nat.le_of_eq ((paid_eq _ _).2 (Nat.le_of_lt hMany)), fun _ => decide_eq_true hMany⟩
          exact .inr ⟨by omega, le_zero.mp hLeft, hStays trivial⟩
    -- Already refused: what follows tests no fewer and has nothing left.
    · obtain ⟨hLeft, hStays⟩ := run_within (⟨Nat.le_of_eq hSpent, fun _ => hRefused⟩ :
        Within 0 True state)
      exact .inr ⟨Nat.lt_of_lt_of_le hMore (unbounded_tested _ _ _), le_zero.mp hLeft,
        hStays trivial⟩

end Problem

end RefineId.Data.PathSearch
