import Mathlib.Data.List.Perm.Lattice

/-! Values collected into one slot per known key. Unknown and repeated keys
are refused, so a collection is determined by its entries in any order. -/
namespace RefineId.Data

open Function List Option

variable {K V : Type} [DecidableEq K]

def fillSlots (keys : List K) : List (K × V) → List (Option V) → Option (List (Option V))
  | [], slots => some slots
  | (key, value) :: rest, slots => do
      let index ← keys.findIdx? (· = key)
      let slot ← slots[index]?
      if slot.isSome then none else fillSlots keys rest (slots.set index (some value))

/-- The entries name known keys only, each at most once. -/
structure Keyed (keys : List K) (entries : List (K × V)) : Prop where
  once : (entries.map Prod.fst).Nodup
  known : ∀ entry ∈ entries, entry.1 ∈ keys

variable {keys : List K} {key : K}

theorem findIdx?_of_mem (h : key ∈ keys) : keys.findIdx? (· = key) = some (keys.idxOf key) := by
  rw [findIdx?_eq_some_iff_findIdx_eq]
  refine ⟨idxOf_lt_length_iff.mpr h, ?_⟩
  rw [idxOf]
  congr 1

theorem findIdx?_of_not_mem (h : key ∉ keys) : keys.findIdx? (· = key) = none := by
  rw [findIdx?_eq_none_iff]
  intro known hKnown
  exact decide_eq_false fun hEq => h (hEq ▸ hKnown)

def valueOf (entries : List (K × V)) (key : K) : Option V :=
  entries.lookup key

@[simp] theorem valueOf_nil (key : K) : valueOf ([] : List (K × V)) key = none := by
  rfl

@[simp] theorem valueOf_cons (first : K) (value : V) (rest : List (K × V)) (key : K) :
    valueOf ((first, value) :: rest) key =
      if key = first then some value else valueOf rest key := by
  by_cases hKey : key = first
  · rw [if_pos hKey, hKey, valueOf, lookup_cons_self]
  · rw [if_neg hKey, valueOf, lookup_cons, beq_false_of_ne hKey, valueOf]

variable {entries : List (K × V)}

theorem valueOf_eq_none_of_not_mem (h : key ∉ entries.map Prod.fst) :
    valueOf entries key = none := by
  rw [valueOf, lookup_eq_none_iff]
  intro entry hEntry
  exact bne_iff_ne.mpr fun hEq => h (hEq ▸ mem_map_of_mem hEntry)

variable {rest : List (K × V)}

/-- A value taken into its slot is found there as if it were still listed. -/
theorem valueOf_or_update (hFresh : key ∉ rest.map Prod.fst) (value : V) (held : K → Option V)
    (other : K) :
    (valueOf rest other).or (Function.update held key (some value) other) =
      (valueOf ((key, value) :: rest) other).or (held other) := by
  rw [valueOf_cons]
  by_cases hOther : other = key
  · subst hOther
    rw [valueOf_eq_none_of_not_mem hFresh, update_self, if_pos rfl]
    rfl
  · rw [update_of_ne hOther, if_neg hOther]

variable {value : V}

omit [DecidableEq K] in
theorem keyed_cons : Keyed keys ((key, value) :: rest) ↔
      key ∈ keys ∧ key ∉ rest.map Prod.fst ∧ Keyed keys rest := by
  constructor
  · rintro ⟨hOnce, hKnown⟩
    obtain ⟨hFresh, hRest⟩ := nodup_cons.mp hOnce
    obtain ⟨hKey, hKnown⟩ := forall_mem_cons.mp hKnown
    exact ⟨hKey, hFresh, hRest, hKnown⟩
  · rintro ⟨hKey, hFresh, hRest, hKnown⟩
    exact ⟨nodup_cons.mpr ⟨hFresh, hRest⟩, forall_mem_cons.mpr ⟨hKey, hKnown⟩⟩

theorem free_update {held : K → Option V} :
    (∀ entry ∈ rest, Function.update held key (some value) entry.1 = none) ↔
      key ∉ rest.map Prod.fst ∧ ∀ entry ∈ rest, held entry.1 = none := by
  constructor
  · intro hFree
    have hFresh : key ∉ rest.map Prod.fst := by
      intro hMem
      obtain ⟨entry, hEntry, rfl⟩ := mem_map.mp hMem
      have hTaken := hFree entry hEntry
      rw [update_self] at hTaken
      cases hTaken
    refine ⟨hFresh, fun entry hEntry => ?_⟩
    have hNe : entry.1 ≠ key := fun hEq => hFresh (hEq ▸ mem_map_of_mem hEntry)
    rw [← hFree entry hEntry, update_of_ne hNe]
  · rintro ⟨hFresh, hFree⟩ entry hEntry
    have hNe : entry.1 ≠ key := fun hEq => hFresh (hEq ▸ mem_map_of_mem hEntry)
    rw [update_of_ne hNe, hFree entry hEntry]

variable {slots : List (Option V)}

/-- Slots fill exactly when the entries are keyed and find theirs empty. -/
theorem fillSlots_map (hKeys : keys.Nodup) (held : K → Option V) :
    fillSlots keys entries (keys.map held) = some slots ↔
      Keyed keys entries ∧ (∀ entry ∈ entries, held entry.1 = none) ∧
        slots = keys.map fun key => (valueOf entries key).or (held key) := by
  induction entries generalizing held with
  | nil =>
    simp only [fillSlots, some.injEq, valueOf_nil, none_or]
    constructor
    · rintro rfl
      exact ⟨⟨by simp, by simp⟩, by simp, rfl⟩
    · rintro ⟨-, -, rfl⟩
      rfl
  | cons entry rest ih =>
    obtain ⟨key, value⟩ := entry
    rw [keyed_cons]
    by_cases hKey : key ∈ keys
    · have hIndex : (keys.map held)[keys.idxOf key]? = some (held key) := by
        rw [getElem?_map, getElem?_idxOf hKey]
        rfl
      have hSet : (keys.map held).set (keys.idxOf key) (some value) =
          keys.map (Function.update held key (some value)) := by
        rw [hKeys.map_update, if_pos hKey]
      simp only [fillSlots, findIdx?_of_mem hKey, bind_eq_bind, bind_some, hIndex, hSet]
      cases hHeld : held key with
      | some old => simp [hHeld]
      | none =>
        simp only [isSome_none, Bool.false_eq_true, if_false]
        rw [ih, free_update, forall_mem_cons]
        constructor
        · rintro ⟨hRest, ⟨hFresh, hFree⟩, rfl⟩
          exact ⟨⟨hKey, hFresh, hRest⟩, ⟨hHeld, hFree⟩,
            map_congr_left fun other _ => valueOf_or_update hFresh value held other⟩
        · rintro ⟨⟨-, hFresh, hRest⟩, ⟨-, hFree⟩, rfl⟩
          exact ⟨hRest, ⟨hFresh, hFree⟩,
            map_congr_left fun other _ => (valueOf_or_update hFresh value held other).symm⟩
    · simp [fillSlots, findIdx?_of_not_mem hKey, hKey]

section Order
variable {left right : List (K × V)}

theorem valueOf_eq_some_of_once (hOnce : (entries.map Prod.fst).Nodup) :
    valueOf entries key = some value ↔ (key, value) ∈ entries := by
  induction entries with
  | nil => simp
  | cons entry rest ih =>
    obtain ⟨first, found⟩ := entry
    obtain ⟨hFresh, hRest⟩ := nodup_cons.mp hOnce
    rw [mem_cons, Prod.mk.injEq, valueOf_cons]
    by_cases hKey : key = first
    · subst hKey
      have hNotRest : (key, value) ∉ rest := fun hMem =>
        hFresh (mem_map.mpr ⟨_, hMem, rfl⟩)
      simp [hNotRest, eq_comm]
    · simp [hKey, ih hRest]

/-- Entries of known keys, each listed once, are the same up to order when
each key has the same value. -/
theorem perm_iff_valueOf (hLeft : Keyed keys left) (hRight : Keyed keys right) :
    left.Perm right ↔ ∀ key ∈ keys, valueOf left key = valueOf right key := by
  rw [perm_ext_iff_of_nodup hLeft.once.of_map hRight.once.of_map]
  constructor
  · intro hSame key _
    apply ext
    intro value
    rw [valueOf_eq_some_of_once hLeft.once, valueOf_eq_some_of_once hRight.once, hSame]
  rintro hSame ⟨key, value⟩
  rw [← valueOf_eq_some_of_once hLeft.once, ← valueOf_eq_some_of_once hRight.once]
  by_cases hKey : key ∈ keys
  · rw [hSame key hKey]
  have hNone : ∀ entries : List (K × V), Keyed keys entries → valueOf entries key = none :=
    fun entries hKeyed => valueOf_eq_none_of_not_mem fun hMem => by
      obtain ⟨entry, hEntry, rfl⟩ := mem_map.mp hMem
      exact hKey (hKeyed.known entry hEntry)
  rw [hNone left hLeft, hNone right hRight]

omit [DecidableEq K] in
theorem Keyed.perm (h : Keyed keys left) (hPerm : left.Perm right) : Keyed keys right where
  once := (hPerm.map Prod.fst).nodup_iff.mp h.once
  known entry hEntry := h.known entry (hPerm.mem_iff.mpr hEntry)

end Order

end RefineId.Data
