import Mathlib.Data.List.Basic

/-! Cutting a list into chunks of one size, the last of which may be shorter. -/
namespace RefineId.Data

open List

variable {α : Type}

def chunks (size : Nat) (list : List α) : List (List α) :=
  (range ((list.length + (size - 1)) / size)).map fun index =>
    (list.drop (index * size)).take size

variable {size : Nat}

section
variable (hSize : 0 < size)
include hSize

theorem chunks_nil : chunks size ([] : List α) = [] := by
  have hCount : (([] : List α).length + (size - 1)) / size = 0 := by
    rw [length_nil, Nat.zero_add]
    exact Nat.div_eq_of_lt (by omega)
  rw [chunks, hCount, range_zero, map_nil]

/-- A list that is not empty has one chunk more than what its first leaves. -/
theorem chunks_cons {list : List α} (hList : list ≠ []) :
    chunks size list = list.take size :: chunks size (list.drop size) := by
  have hPositive : 0 < list.length := length_pos_iff.mpr hList
  have hCount : (list.length + (size - 1)) / size =
      ((list.drop size).length + (size - 1)) / size + 1 := by
    rw [length_drop, ← Nat.add_div_right _ hSize]
    by_cases hShort : list.length ≤ size
    · have hLow : (list.length + (size - 1)) / size = 1 := by
        rw [Nat.div_eq_iff hSize]
        omega
      have hHigh : (list.length - size + (size - 1) + size) / size = 1 := by
        rw [Nat.div_eq_iff hSize]
        omega
      rw [hLow, hHigh]
    · congr 1
      omega
  rw [chunks, hCount, range_succ_eq_map, map_cons, map_map, Nat.zero_mul, drop_zero]
  congr 1
  refine map_congr_left fun index _ => ?_
  simp only [Function.comp_apply, drop_drop, Nat.succ_mul, Nat.add_comm]

theorem chunks_induction {P : List α → Prop} (nil : P [])
    (cons : ∀ list, list ≠ [] → P (list.drop size) → P list) (list : List α) : P list := by
  induction hLength : list.length using Nat.strongRecOn generalizing list with
  | _ length ih =>
    by_cases hList : list = []
    · exact hList ▸ nil
    have hPositive : 0 < list.length := length_pos_iff.mpr hList
    refine cons list hList (ih _ ?_ _ rfl)
    rw [length_drop]
    omega

variable (list : List α)

theorem chunks_flatten : (chunks size list).flatten = list := by
  induction list using chunks_induction hSize with
  | nil => rw [chunks_nil hSize, flatten_nil]
  | cons list hList ih => rw [chunks_cons hSize hList, flatten_cons, ih, take_append_drop]

theorem chunks_bounds : ∀ chunk ∈ chunks size list, chunk ≠ [] ∧ chunk.length ≤ size := by
  induction list using chunks_induction hSize with
  | nil => simp [chunks_nil hSize]
  | cons list hList ih =>
    rw [chunks_cons hSize hList, forall_mem_cons]
    refine ⟨⟨?_, length_take_le size list⟩, ih⟩
    simp [take_eq_nil_iff, hList, Nat.ne_of_gt hSize]

theorem chunks_full : ∀ chunk ∈ (chunks size list).dropLast, chunk.length = size := by
  induction list using chunks_induction hSize with
  | nil => simp [chunks_nil hSize]
  | cons list hList ih =>
    rw [chunks_cons hSize hList]
    by_cases hRest : list.drop size = []
    · simp [hRest, chunks_nil hSize]
    have hTail : chunks size (list.drop size) ≠ [] := by
      rw [chunks_cons hSize hRest]
      exact cons_ne_nil _ _
    rw [dropLast_cons_of_ne_nil hTail, forall_mem_cons]
    refine ⟨?_, ih⟩
    have hLong : size < list.length := by
      simpa [drop_eq_nil_iff] using hRest
    rw [length_take, Nat.min_eq_left (Nat.le_of_lt hLong)]

end

theorem chunks_length (list : List α) :
    (chunks size list).length = (list.length + (size - 1)) / size := by
  simp [chunks]

end RefineId.Data
