import RefineId.Pades.XrefStream

/-! The rows a cross-reference stream carries: PNG filters are undone. -/
namespace RefineId.Pades

open Data List

/-- The five row filters of PNG. -/
inductive PngFilter where
  | none
  | sub
  | up
  | average
  | paeth
  deriving DecidableEq

namespace PngFilter

def code : PngFilter → UInt8
  | none => 0
  | sub => 1
  | up => 2
  | average => 3
  | paeth => 4

/-- The prediction PNG defines, from the octets to the left, above and above
to the left. -/
def predict : PngFilter → UInt8 → UInt8 → UInt8 → UInt8
  | none, _, _, _ => 0
  | sub, a, _, _ => a
  | up, _, b, _ => b
  | average, a, b, _ => UInt8.ofNat ((a.toNat + b.toNat) / 2)
  | paeth, a, b, c =>
    let pa := (b.toNat - c.toNat : Int).natAbs
    let pb := (a.toNat - c.toNat : Int).natAbs
    let pc := (a.toNat + b.toNat - 2 * c.toNat : Int).natAbs
    if pa ≤ pb ∧ pa ≤ pc then a else if pb ≤ pc then b else c

theorem prediction_code (filter : PngFilter) (left upper upperLeft : UInt8) :
    prediction filter.code left upper upperLeft = some (filter.predict left upper upperLeft) := by
  cases filter with
  | none | sub | up | average => rfl
  | paeth =>
    have hLeft : ((left.toNat + upper.toNat - upperLeft.toNat - left.toNat : Int)) =
        upper.toNat - upperLeft.toNat := by ring
    have hUpper : ((left.toNat + upper.toNat - upperLeft.toNat - upper.toNat : Int)) =
        left.toNat - upperLeft.toNat := by ring
    have hBoth : ((left.toNat + upper.toNat - upperLeft.toNat - upperLeft.toNat : Int)) =
        left.toNat + upper.toNat - 2 * upperLeft.toNat := by ring
    change some (Pades.paeth left upper upperLeft) = _
    rw [Pades.paeth, hLeft, hUpper, hBoth, predict]

/-- One row filtered, given what is to its left, above it to the left and
above it. -/
def row (filter : PngFilter) (left upperLeft : UInt8) : Bytes → Bytes → Bytes
  | byte :: rest, upper :: above =>
    (byte - filter.predict left upper upperLeft) :: filter.row byte upper rest above
  | _, _ => []

/-- Rows filtered one below the other, each behind the code of its filter. -/
def rows : Bytes → List (PngFilter × Bytes) → Bytes
  | _, [] => []
  | above, (filter, row) :: rest => filter.code :: filter.row 0 0 row above ++ rows row rest

variable {filter : PngFilter} {left upperLeft : UInt8} {original above : Bytes}

theorem row_length (h : original.length = above.length) :
    (filter.row left upperLeft original above).length = original.length := by
  induction original generalizing left upperLeft above with
  | nil => cases above <;> rfl
  | cons byte rest ih =>
    cases above with
    | nil => cases h
    | cons upper above => rw [row, length_cons, length_cons, ih (Nat.succ.inj h)]

theorem unfilteredRow_row (h : original.length = above.length) :
    unfilteredRow filter.code left upperLeft (filter.row left upperLeft original above) above =
      some original := by
  induction original generalizing left upperLeft above with
  | nil => cases above <;> rfl
  | cons byte rest ih =>
    cases above with
    | nil => cases h
    | cons upper above =>
      have hByte : byte - filter.predict left upper upperLeft +
          filter.predict left upper upperLeft = byte := UInt8.sub_add_cancel ..
      simp [row, unfilteredRow, prediction_code, hByte, ih (Nat.succ.inj h)]

variable {columns : Nat} {written : List (PngFilter × Bytes)}

theorem unfilteredRows_rows (hAbove : above.length = columns)
    (hWritten : ∀ each ∈ written, each.2.length = columns) :
    (rows above written).length = written.length * (columns + 1) ∧
      unfilteredRows columns written.length above (rows above written) =
        some (written.flatMap Prod.snd) := by
  induction written generalizing above with
  | nil => exact ⟨(Nat.zero_mul _).symm, rfl⟩
  | cons each rest ih =>
    obtain ⟨filter, original⟩ := each
    obtain ⟨hOriginal, hRest⟩ := forall_mem_cons.mp hWritten
    have hSame : original.length = above.length := hOriginal.trans hAbove.symm
    have hRow : (filter.row 0 0 original above).length = columns := (row_length hSame).trans hOriginal
    obtain ⟨hLength, hRows⟩ := ih hOriginal hRest
    constructor
    · rw [rows, length_append, length_cons, hRow, hLength, length_cons]
      ring
    · simp [rows, unfilteredRows, take_left' hRow, drop_left' hRow, unfilteredRow_row hSame, hRows]

end PngFilter

/-- Filtered rows of one width, whatever filter each has, come back as they
were. -/
theorem png_filters_inverted {columns : Nat} (hColumns : 0 < columns)
    {written : List (PngFilter × Bytes)} (hWritten : ∀ each ∈ written, each.2.length = columns) :
    pngUnfiltered (PngFilter.rows (replicate columns 0) written) columns =
      .ok (written.flatMap Prod.snd) := by
  obtain ⟨hLength, hRows⟩ := PngFilter.unfilteredRows_rows length_replicate hWritten
  have hWhole : ¬(columns = 0 ∨
      (PngFilter.rows (replicate columns 0) written).length % (columns + 1) ≠ 0) := by
    rw [hLength, Nat.mul_mod_left]
    omega
  rw [pngUnfiltered, if_neg hWhole, hLength, Nat.mul_div_cancel _ columns.succ_pos, hRows]
  rfl

theorem png_filters_inverted_two : pngUnfiltered (PngFilter.rows [0, 0]
      [(.sub, [7, 9]), (.paeth, [200, 3])]) 2 = .ok [7, 9, 200, 3] :=
  png_filters_inverted (by decide) (by decide)

end RefineId.Pades
