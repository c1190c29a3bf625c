import Mathlib.Data.List.Forall2

/-! Computations that may fail: what a successful sequence consists of. -/
namespace RefineId.Data

variable {ε α β : Type} {first : Except ε α} {next : α → Except ε β} {result : β}

theorem bind_eq_ok :
    (first >>= next) = .ok result ↔ ∃ value, first = .ok value ∧ next value = .ok result := by
  cases first with
  | error e =>
    constructor
    · intro h
      cases h
    · rintro ⟨value, h, _⟩
      cases h
  | ok value =>
    constructor
    · intro h
      exact ⟨value, rfl, h⟩
    · rintro ⟨other, h, hNext⟩
      cases h
      exact hNext

theorem bind_eq_error {error} : (first >>= next) = .error error ↔
      first = .error error ∨ ∃ value, first = .ok value ∧ next value = .error error := by
  cases first with
  | error e =>
    constructor
    · intro h
      cases h
      exact Or.inl rfl
    · rintro (h | ⟨value, h, -⟩)
      · cases h
        rfl
      · cases h
  | ok value =>
    constructor
    · intro h
      exact Or.inr ⟨value, rfl, h⟩
    rintro (h | ⟨other, h, hNext⟩)
    · cases h
    · cases h
      exact hNext

variable {outcome : Except ε α} {f : α → β}

theorem map_eq_error {error} : f <$> outcome = .error error ↔ outcome = .error error := by
  cases outcome with
  | error e =>
    constructor
    · intro h
      cases h
      rfl
    · intro h
      cases h
      rfl
  | ok value =>
    constructor
    · intro h
      cases h
    · intro h
      cases h

theorem map_eq_ok :
    f <$> outcome = .ok result ↔ ∃ value, outcome = .ok value ∧ f value = result := by
  cases outcome with
  | error e =>
    constructor
    · intro h
      cases h
    · rintro ⟨value, h, _⟩
      cases h
  | ok value =>
    constructor
    · intro h
      cases h
      exact ⟨value, rfl, rfl⟩
    · rintro ⟨other, h, rfl⟩
      cases h
      rfl

variable {value : α}

theorem toOption_eq_some : outcome.toOption = some value ↔ outcome = .ok value := by
  cases outcome <;> simp [Except.toOption]

theorem exists_of_isOk (h : outcome.isOk = true) : ∃ value, outcome = .ok value := by
  cases outcome with
  | error e => cases h
  | ok value => exact ⟨value, rfl⟩

@[simp] theorem ok_bind (value : α) (next : α → Except ε β) :
    ((.ok value : Except ε α) >>= next) = next value :=
  rfl

@[simp] theorem error_bind (error : ε) (next : α → Except ε β) :
    ((.error error : Except ε α) >>= next) = .error error := by
  rfl

theorem mapError_eq_ok {δ : Type} {f : ε → δ} :
    outcome.mapError f = .ok value ↔ outcome = .ok value := by
  cases outcome <;> simp [Except.mapError]

variable {g : β → α} {values : List α} {results : List β}

/-- A list read element by element, when each reading determines what was
read. -/
theorem mapM_eq_ok {f : α → Except ε β}
    (hRead : ∀ {value result}, f value = .ok result ↔ value = g result) :
    values.mapM f = .ok results ↔ values = results.map g := by
  constructor
  · intro h
    induction values generalizing results with
    | nil =>
      cases h
      rfl
    | cons value rest ih =>
      rw [List.mapM_cons] at h
      obtain ⟨head, hHead, h⟩ := bind_eq_ok.mp h
      obtain ⟨tail, hTail, h⟩ := bind_eq_ok.mp h
      cases h
      rw [List.map_cons, ← hRead.mp hHead, ← ih hTail]
  · rintro rfl
    induction results with
    | nil => rfl
    | cons value rest ih =>
      rw [List.map_cons, List.mapM_cons, hRead.mpr rfl, ih]
      rfl

/-- The same reading, with no reason given for a refusal. -/
theorem mapM_eq_some {f} (hRead : ∀ {value result}, f value = some result ↔ value = g result) :
    values.mapM f = some results ↔ values = results.map g := by
  induction values generalizing results with
  | nil => cases results <;> simp
  | cons value rest ih =>
    cases results with
    | nil => simp [List.mapM_cons, Option.bind_eq_some_iff]
    | cons head tail => simp [List.mapM_cons, Option.bind_eq_some_iff, hRead, ih]

section State
variable {σ : Type}

@[simp] theorem stateT_bind_apply (first : StateT σ (Except ε) α)
    (next : α → StateT σ (Except ε) β) (state : σ) :
    (first >>= next) state = first state >>= fun result => next result.1 result.2 :=
  rfl

@[simp] theorem stateT_map_apply (f : α → β) (first : StateT σ (Except ε) α) (state : σ) :
    (f <$> first) state = first state >>= fun result => .ok (f result.1, result.2) := by
  rfl

@[simp] theorem stateT_pure_apply (value : α) (state : σ) :
    (pure value : StateT σ (Except ε) α) state = .ok (value, state) :=
  rfl

@[simp] theorem stateT_lift_apply (result : Except ε α) (state : σ) :
    (liftM result : StateT σ (Except ε) α) state = result >>= fun value => .ok (value, state) := by
  rfl

theorem stateT_bind_eq_ok {first} {next : α → StateT σ (Except ε) β} {state} {result : β × σ} :
    (first >>= next) state = .ok result ↔
      ∃ value middle, first state = .ok (value, middle) ∧ next value middle = .ok result := by
  rw [stateT_bind_apply, bind_eq_ok, Prod.exists]

theorem stateT_lift_eq_ok {state after} :
    (liftM outcome : StateT σ (Except ε) α) state = .ok (value, after) ↔
      outcome = .ok value ∧ state = after := by
  cases outcome <;> simp

theorem stateT_pure_eq_ok {state after result} :
    (pure value : StateT σ (Except ε) α) state = .ok (result, after) ↔
      value = result ∧ state = after := by
  simp

end State

end RefineId.Data
