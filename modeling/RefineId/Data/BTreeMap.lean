import Mathlib.Data.List.Sort

/-! Finite maps over a linear order. The keys are a strictly increasing list
and every key has exactly one value, so two maps with the same lookups are
equal. Key order is part of the type and is what iteration follows. -/
namespace RefineId.Data

open List

universe u v

/-- Strictly increasing finite key lists. -/
structure SortedKeys (K : Type u) [LinearOrder K] where
  list : List K
  sorted : list.Pairwise (· < ·)

/-- A value at each key of a strictly increasing list. The invariant speaks
of keys alone, so the value type may be an inductive type under definition. -/
structure BTreeMap (K : Type u) [LinearOrder K] (V : Type v) where
  keys : SortedKeys K
  value : {key // key ∈ keys.list} → V

/-- Insert a key at its place; a present key is kept. -/
def insertKey {K : Type u} [LinearOrder K] (key : K) : List K → List K
  | [] => [key]
  | head :: tail =>
    if key < head then key :: head :: tail
    else if head < key then head :: insertKey key tail
    else head :: tail

section Keys
variable {K : Type u} [LinearOrder K] {list : List K}

@[simp] theorem mem_insertKey {key other} :
    other ∈ insertKey key list ↔ other = key ∨ other ∈ list := by
  induction list with
  | nil => simp [insertKey]
  | cons head tail ih =>
    unfold insertKey
    split
    · simp
    split
    · simp only [mem_cons, ih]
      tauto
    · have hEq : key = head := le_antisymm (not_lt.mp ‹_›) (not_lt.mp ‹_›)
      subst hEq
      simp

theorem insertKey_sorted {key} (h : list.Pairwise (· < ·)) :
    (insertKey key list).Pairwise (· < ·) := by
  induction list with
  | nil => simp [insertKey]
  | cons head tail ih =>
    obtain ⟨hHead, hTail⟩ := pairwise_cons.mp h
    unfold insertKey
    split
    · rename_i hLt
      exact pairwise_cons.mpr ⟨forall_mem_cons.mpr
        ⟨hLt, fun other hMem => hLt.trans (hHead other hMem)⟩, h⟩
    split
    · rename_i hLt
      refine pairwise_cons.mpr ⟨?_, ih hTail⟩
      intro other hMem
      rcases mem_insertKey.mp hMem with rfl | hMem
      · exact hLt
      · exact hHead other hMem
    · exact h

theorem SortedKeys.nodup (keys : SortedKeys K) : keys.list.Nodup :=
  keys.sorted.imp (fun h => ne_of_lt h)

/-- A strictly increasing list is determined by its members. -/
theorem SortedKeys.ext_mem {left right : SortedKeys K}
    (h : ∀ key, key ∈ left.list ↔ key ∈ right.list) : left = right := by
  have hPerm : left.list.Perm right.list :=
    (perm_ext_iff_of_nodup left.nodup right.nodup).mpr h
  have hEq : left.list = right.list :=
    hPerm.eq_of_pairwise (fun _ _ _ _ hab hba => absurd hba hab.asymm) left.sorted right.sorted
  cases left
  cases right
  simpa using hEq

end Keys

namespace BTreeMap
variable {K : Type u} [LinearOrder K] {V : Type v}

def empty : BTreeMap K V where
  keys := ⟨[], Pairwise.nil⟩
  value key := absurd key.property (not_mem_nil)

variable (map : BTreeMap K V)

def get? (key : K) : Option V :=
  if h : key ∈ map.keys.list then some (map.value ⟨key, h⟩) else none

def insert (map : BTreeMap K V) (key : K) (value : V) : BTreeMap K V where
  keys := ⟨insertKey key map.keys.list, insertKey_sorted map.keys.sorted⟩
  value other :=
    if h : other.val = key then value
    else map.value ⟨other.val, (mem_insertKey.mp other.property).resolve_left h⟩

/-- The map without one key; an absent key changes nothing. -/
def erase (map : BTreeMap K V) (key : K) : BTreeMap K V where
  keys := ⟨map.keys.list.filter (· ≠ key), map.keys.sorted.filter _⟩
  value other := map.value ⟨other.val, (mem_filter.mp other.property).1⟩

def contains (key : K) : Bool :=
  decide (key ∈ map.keys.list)

def isEmpty (map : BTreeMap K V) : Bool :=
  map.keys.list.isEmpty

def length (map : BTreeMap K V) : Nat :=
  map.keys.list.length

def entries : List (K × V) :=
  map.keys.list.attach.map fun key => (key.val, map.value key)

/-- Insert the pairs from the left; a later pair replaces an earlier one. -/
def insertAll (pairs : List (K × V)) : BTreeMap K V :=
  pairs.foldl (fun acc pair => acc.insert pair.1 pair.2) map

def ofList (pairs : List (K × V)) : BTreeMap K V :=
  empty.insertAll pairs

@[simp] theorem get?_empty (key : K) : (empty : BTreeMap K V).get? key = none := by
  simp [get?, empty]

variable {key : K}

theorem get?_eq_none_iff {map : BTreeMap K V} : map.get? key = none ↔ key ∉ map.keys.list := by
  unfold get?
  split <;> simp_all

variable (map : BTreeMap K V)

theorem get?_value (key : {key // key ∈ map.keys.list}) :
    map.get? key.val = some (map.value key) := by
  simp [get?, key.property]

theorem get?_insert (key other : K) (value : V) :
    (map.insert key value).get? other = if other = key then some value else map.get? other := by
  unfold get? insert
  by_cases hKey : other = key
  · simp [hKey]
  by_cases hMem : other ∈ map.keys.list
  · simp [hKey, hMem]
  · simp [hKey, hMem]

theorem get?_erase (key other : K) :
    (map.erase key).get? other = if other = key then none else map.get? other := by
  unfold get? erase
  by_cases hKey : other = key
  · simp [hKey]
  by_cases hMem : other ∈ map.keys.list
  · simp [hKey, hMem]
  · simp [hKey, hMem]

@[simp] theorem get?_insert_self (key : K) (value : V) :
    (map.insert key value).get? key = some value := by
  simp [get?_insert]

/-- Lookups determine the whole map, its key list included. -/
theorem ext_get? {left right : BTreeMap K V} (h : ∀ key, left.get? key = right.get? key) :
    left = right := by
  have hKeys : left.keys = right.keys := by
    apply SortedKeys.ext_mem
    intro key
    have hNone := not_congr (Iff.of_eq (congrArg (· = none) (h key)))
    simpa only [get?_eq_none_iff, not_not] using hNone
  cases left with
  | mk keys value =>
    cases right with
    | mk keys' value' =>
      subst hKeys
      congr 1
      funext key
      have hKey := h key.val
      simpa [get?, key.property] using hKey

@[simp] theorem erase_empty (key : K) : (empty : BTreeMap K V).erase key = empty := by
  apply ext_get?
  intro other
  rw [get?_erase, get?_empty, ite_self]

@[simp] theorem erase_insert_self (key : K) (value : V) :
    (map.insert key value).erase key = map.erase key := by
  apply ext_get?
  intro other
  rw [get?_erase, get?_erase, get?_insert]
  split <;> rfl

@[simp] theorem erase_insert_of_ne {other : K} (value : V) (h : key ≠ other) :
    (map.insert key value).erase other = (map.erase other).insert key value := by
  apply ext_get?
  intro third
  rw [get?_erase, get?_insert, get?_insert, get?_erase]
  by_cases hThird : third = other
  · subst hThird
    rw [if_pos rfl, if_neg h.symm, if_pos rfl]
  · rw [if_neg hThird, if_neg hThird]

theorem contains_eq_isSome (key : K) : map.contains key = (map.get? key).isSome := by
  unfold contains get?
  split <;> simp_all

theorem mem_keys_iff {map : BTreeMap K V} :
    key ∈ map.keys.list ↔ ∃ value, map.get? key = some value := by
  rw [← Option.isSome_iff_exists, ← contains_eq_isSome, contains, decide_eq_true_eq]

theorem mem_entries {map : BTreeMap K V} {value : V} :
    (key, value) ∈ map.entries ↔ map.get? key = some value := by
  simp only [entries, mem_map, mem_attach, true_and]
  constructor
  · rintro ⟨other, hEq⟩
    cases hEq
    exact get?_value map other
  intro h
  have hMem : key ∈ map.keys.list := mem_keys_iff.mpr ⟨value, h⟩
  refine ⟨⟨key, hMem⟩, ?_⟩
  have hValue := get?_value map ⟨key, hMem⟩
  rw [h] at hValue
  simp [Option.some.inj hValue]

@[simp] theorem entries_keys : map.entries.map Prod.fst = map.keys.list := by
  simp [entries, Function.comp_def]

@[simp] theorem entries_length : map.entries.length = map.length := by
  simp [entries, length]

variable {pairs : List (K × V)}

theorem get?_insertAll_of_not_mem {map : BTreeMap K V} (h : key ∉ pairs.map Prod.fst) :
    (map.insertAll pairs).get? key = map.get? key := by
  induction pairs generalizing map with
  | nil => rfl
  | cons pair rest ih =>
    simp only [map_cons, mem_cons, not_or] at h
    change ((map.insert pair.1 pair.2).insertAll rest).get? key = _
    rw [ih h.2, get?_insert, if_neg h.1]

theorem get?_insertAll_of_mem {map : BTreeMap K V} {value : V} (hNodup : (pairs.map Prod.fst).Nodup)
    (h : (key, value) ∈ pairs) : (map.insertAll pairs).get? key = some value := by
  induction pairs generalizing map with
  | nil => cases h
  | cons pair rest ih =>
    obtain ⟨hFresh, hRest⟩ := nodup_cons.mp hNodup
    change ((map.insert pair.1 pair.2).insertAll rest).get? key = _
    rcases mem_cons.mp h with rfl | hMem
    · rw [get?_insertAll_of_not_mem hFresh, get?_insert_self]
    · exact ih hRest hMem

/-- Inserting the entries of a map in any order rebuilds it. -/
theorem insertAll_perm_entries {map : BTreeMap K V} (h : pairs.Perm map.entries) :
    empty.insertAll pairs = map := by
  have hNodup : (pairs.map Prod.fst).Nodup := by
    rw [(h.map Prod.fst).nodup_iff, entries_keys]
    exact map.keys.nodup
  apply ext_get?
  intro key
  cases hGet : map.get? key with
  | some value =>
    exact get?_insertAll_of_mem hNodup (h.mem_iff.mpr (mem_entries.mpr hGet))
  | none =>
    rw [get?_insertAll_of_not_mem, get?_empty]
    rw [(h.map Prod.fst).mem_iff, entries_keys]
    exact get?_eq_none_iff.mp hGet

/-- A map written out with distinct keys has exactly the entries written. -/
theorem ofList_entries_perm (h : (pairs.map Prod.fst).Nodup) :
    (ofList pairs).entries.Perm pairs := by
  have hEntries : (ofList pairs).entries.Nodup := by
    apply Nodup.of_map Prod.fst
    rw [entries_keys]
    exact (ofList pairs).keys.nodup
  refine (perm_ext_iff_of_nodup hEntries (Nodup.of_map _ h)).mpr ?_
  rintro ⟨key, -⟩
  rw [mem_entries]
  constructor
  · intro hGet
    by_contra hPair
    by_cases hKey : key ∈ pairs.map Prod.fst
    · obtain ⟨⟨other, stored⟩, hMem, rfl⟩ := mem_map.mp hKey
      rw [ofList, get?_insertAll_of_mem h hMem] at hGet
      cases hGet
      exact hPair hMem
    · rw [ofList, get?_insertAll_of_not_mem hKey, get?_empty] at hGet
      cases hGet
  · exact get?_insertAll_of_mem h

/-- A map is the one written out exactly when it has each entry written and
no other key. -/
theorem eq_ofList_iff {map : BTreeMap K V} (hNodup : (pairs.map Prod.fst).Nodup) :
    map = ofList pairs ↔ (∀ key ∈ map.keys.list, key ∈ pairs.map Prod.fst) ∧
      ∀ pair ∈ pairs, map.get? pair.1 = some pair.2 := by
  have hWritten : ∀ key, key ∉ pairs.map Prod.fst → (ofList pairs).get? key = none := by
    intro key hKey
    rw [ofList, get?_insertAll_of_not_mem hKey, get?_empty]
  constructor
  · rintro rfl
    refine ⟨fun key hMem => ?_, fun pair hPair => get?_insertAll_of_mem hNodup hPair⟩
    by_contra hKey
    exact get?_eq_none_iff.mp (hWritten key hKey) hMem
  rintro ⟨hKeys, hValues⟩
  apply ext_get?
  intro key
  by_cases hKey : key ∈ pairs.map Prod.fst
  · obtain ⟨⟨other, value⟩, hPair, rfl⟩ := mem_map.mp hKey
    rw [hValues _ hPair, ofList, get?_insertAll_of_mem hNodup hPair]
  · rw [hWritten key hKey, get?_eq_none_iff]
    exact fun hMem => hKey (hKeys key hMem)

end BTreeMap
end RefineId.Data
