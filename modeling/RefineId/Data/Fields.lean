import RefineId.Data.BTreeMap
import RefineId.Data.Result

/-! Taking a map apart field by field. Each step removes the field it reads,
so that what is left at the end is exactly what nobody asked for. -/
namespace RefineId.Data

open BTreeMap

/-- Computations that remove entries from a map. -/
abbrev Fields (K V : Type) [LinearOrder K] (ε α : Type) := StateT (BTreeMap K V) (Except ε) α

variable {K V ε α : Type} [LinearOrder K]

/-- Remove a required field and insist on its shape. -/
def takeField (missing wrong : ε) (select : V → Option α) (key : K) : Fields K V ε α := fun map =>
  match map.get? key with
  | none => .error missing
  | some value =>
    match select value with
    | none => .error wrong
    | some result => .ok (result, map.erase key)

/-- Remove a field that may be absent; one that is present has its shape. -/
def takeOptional (wrong : ε) (select : V → Option α) (key : K) : Fields K V ε (Option α) :=
  fun map =>
    match map.get? key with
    | none => .ok (none, map.erase key)
    | some value =>
      match select value with
      | none => .error wrong
      | some result => .ok (some result, map.erase key)

/-- Insist that every field has been taken. -/
def requireEmpty (error : ε) : Fields K V ε Unit := fun map =>
  if map.isEmpty then .ok ((), map) else .error error

def rejectOutside (error : ε) (schema : List K) : Fields K V ε Unit := fun map =>
  if map.keys.list.any fun key => !schema.contains key then .error error else .ok ((), map)

/-- Refuse unless the condition holds. -/
def ensure (condition : Bool) (error : ε) : Fields K V ε Unit := fun map =>
  if condition then .ok ((), map) else .error error

/-- The shapes of all elements of a list, in order. -/
def selectAll (wrong : ε) (select : V → Option α) : List V → Except ε (List α)
  | [] => .ok []
  | value :: rest =>
    match select value with
    | none => .error wrong
    | some head => do
        let tail ← selectAll wrong select rest
        .ok (head :: tail)

variable {wrong : ε} {select : V → Option α}

theorem selectAll_map {f values} (h : ∀ value ∈ values, select (f value) = some value) :
    selectAll wrong select (values.map f) = .ok values := by
  induction values with
  | nil => rfl
  | cons value rest ih =>
    have hTail := ih fun other hMem => h other (List.mem_cons_of_mem _ hMem)
    simp [selectAll, h value List.mem_cons_self, hTail]

/-- What a taken field was, and what is left, when its shape determines it. -/
theorem takeField_eq_ok {missing} {inject : α → V}
    (hSelect : ∀ {value result}, select value = some result ↔ value = inject result) {key}
    {map rest : BTreeMap K V} {result : α} :
    takeField missing wrong select key map = .ok (result, rest) ↔
      map.get? key = some (inject result) ∧ map.erase key = rest := by
  unfold takeField
  cases hGet : map.get? key with
  | none => simp
  | some value =>
    cases hValue : select value with
    | none =>
      have hOther : value ≠ inject result := fun h => by
        rw [hSelect.mpr h] at hValue
        cases hValue
      simp [hValue, hOther]
    | some found =>
      obtain rfl := hSelect.mp hValue
      have hInject : inject found = inject result ↔ found = result :=
        ⟨fun h => Option.some.inj ((hSelect.mpr rfl).symm.trans (hSelect.mpr h)),
          congrArg inject⟩
      simp [hValue, hInject]

section Checks
variable {map rest : BTreeMap K V} {schema : List K} {error : ε} {done : Unit}

theorem rejectOutside_eq_ok : rejectOutside error schema map = .ok (done, rest) ↔
      (∀ key ∈ map.keys.list, key ∈ schema) ∧ map = rest := by
  have hKnown : (map.keys.list.any fun key => !schema.contains key) = false ↔
      ∀ key ∈ map.keys.list, key ∈ schema := by
    simp
  unfold rejectOutside
  rw [← hKnown]
  cases map.keys.list.any fun key => !schema.contains key <;> simp

theorem ensure_eq_ok {condition} :
    ensure condition error map = .ok (done, rest) ↔ condition = true ∧ map = rest := by
  cases condition <;> simp [ensure]

theorem requireEmpty_eq_ok :
    requireEmpty error map = .ok (done, rest) ↔ (∀ key, map.get? key = none) ∧ map = rest := by
  have hEmpty : map.isEmpty = true ↔ ∀ key, map.get? key = none := by
    simp only [isEmpty, List.isEmpty_iff, get?_eq_none_iff, List.eq_nil_iff_forall_not_mem]
  unfold requireEmpty
  rw [← hEmpty]
  cases map.isEmpty <;> simp

end Checks

theorem selectAll_eq_ok {inject}
    (hSelect : ∀ {value result}, select value = some result ↔ value = inject result)
    {values results} :
    selectAll wrong select values = .ok results ↔ values = results.map inject := by
  constructor
  · intro h
    induction values generalizing results with
    | nil =>
      cases h
      rfl
    | cons value rest ih =>
      rw [selectAll] at h
      cases hHead : select value with
      | none => simp [hHead] at h
      | some head =>
        rw [hHead] at h
        obtain ⟨tail, hTail, h⟩ := bind_eq_ok.mp h
        cases h
        rw [List.map_cons, ← hSelect.mp hHead, ← ih hTail]
  · rintro rfl
    exact selectAll_map fun _ _ => hSelect.mpr rfl

@[simp] theorem isEmpty_empty : (empty : BTreeMap K V).isEmpty = true := by
  rfl

@[simp] theorem requireEmpty_empty (error : ε) :
    requireEmpty error (empty : BTreeMap K V) = .ok ((), empty) := by
  rfl

end RefineId.Data
