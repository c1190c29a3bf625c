import RefineId.Data.Words

/-! The strings CPace hashes (`crates/rapp/src/cpace.rs`). Lengths are unbounded
here; the source's are lengths of slices, whose sums fit a machine word. -/
namespace RefineId.Rapp

open Data List Nat

/-- Seven bits in each byte, the least significant first. -/
def encodeLeb128Len (len : Nat) : Bytes :=
  if len < 128 then [UInt8.ofNat len]
  else (UInt8.ofNat (len &&& 0x7f) ||| 0x80) :: encodeLeb128Len (len >>> 7)
termination_by len
decreasing_by
  rw [shiftRight_eq_div_pow]
  omega

def prependLen (data : Bytes) : Bytes :=
  encodeLeb128Len data.length ++ data

def lvCat (slices : List Bytes) : Bytes :=
  slices.flatMap fun slice => encodeLeb128Len slice.length ++ slice

/-- The zeros that bring the two secret fields to one input block of the hash;
one byte is set aside for their own length. -/
def zeroPadding (dsi prs : Bytes) (sInBytes : Nat) : Bytes :=
  let dsiLen := (encodeLeb128Len dsi.length).length + dsi.length
  let prsLen := (encodeLeb128Len prs.length).length + prs.length
  let used := 1 + prsLen + dsiLen
  replicate (sInBytes - used) 0

def generatorString (dsi prs ci sid : Bytes) (sInBytes : Nat) : Bytes :=
  lvCat [dsi, prs, zeroPadding dsi prs sInBytes, ci, sid]

theorem leb128_continued (len : Nat) :
    (UInt8.ofNat (len &&& 0x7f) ||| 0x80).toNat = len % 128 + 128 := by
  have hSeven : ∀ low < 128, (UInt8.ofNat low ||| 0x80).toNat = low + 128 := by decide
  have hLow : len &&& 0x7f = len % 128 := and_two_pow_sub_one_eq_mod len 7
  rw [hLow, hSeven _ (mod_lt _ (by decide))]

/-- No length's encoding begins another's. -/
theorem encodeLeb128Len_append_inj {left right after following}
    (h : encodeLeb128Len left ++ after = encodeLeb128Len right ++ following) :
    left = right ∧ after = following := by
  induction left using Nat.strongRecOn generalizing right with
  | ind left ih =>
    have hOnly {len : Nat} (hLen : len < 128) : (UInt8.ofNat len).toNat = len :=
      UInt8.toNat_ofNat_of_lt' (hLen.trans (by decide))
    rw [encodeLeb128Len, encodeLeb128Len.eq_def right] at h
    split at h <;> split at h <;> simp only [cons_append, nil_append] at h <;>
      obtain ⟨hHead, hRest⟩ := cons.inj h <;> have hByte := congrArg UInt8.toNat hHead
    · rename_i hLeft hRight
      rw [hOnly hLeft, hOnly hRight] at hByte
      exact ⟨hByte, hRest⟩
    -- a last byte is below 128, a continued one is not
    · rename_i hLeft hRight
      rw [hOnly hLeft, leb128_continued] at hByte
      omega
    · rename_i hLeft hRight
      rw [leb128_continued, hOnly hRight] at hByte
      omega
    · rename_i hLeft hRight
      rw [leb128_continued, leb128_continued] at hByte
      simp only [shiftRight_eq_div_pow] at hRest
      obtain ⟨hHigh, hAfter⟩ := ih (left / 2 ^ 7) (by omega) hRest
      exact ⟨by omega, hAfter⟩

theorem encodeLeb128Len_ne_nil (len : Nat) : encodeLeb128Len len ≠ [] := by
  rw [encodeLeb128Len]
  split <;> simp

theorem encodeLeb128Len_length_eq_one {len} : (encodeLeb128Len len).length = 1 ↔ len < 128 := by
  rw [encodeLeb128Len]
  split
  · rename_i hLen
    simp [hLen]
  · rename_i hLen
    simp [hLen, encodeLeb128Len_ne_nil]

theorem lvCat_cons (slice : Bytes) (slices : List Bytes) :
    lvCat (slice :: slices) = encodeLeb128Len slice.length ++ (slice ++ lvCat slices) := by
  rw [lvCat, flatMap_cons, append_assoc, ← lvCat]

theorem lvCat_cons_ne_nil (slice : Bytes) (slices : List Bytes) : lvCat (slice :: slices) ≠ [] := by
  rw [lvCat_cons]
  simp [encodeLeb128Len_ne_nil]

theorem lvCat_inj {slices others} (h : lvCat slices = lvCat others) : slices = others := by
  induction slices generalizing others with
  | nil =>
    cases others with
    | nil => rfl
    | cons other others => exact absurd h.symm (lvCat_cons_ne_nil other others)
  | cons slice slices ih =>
    cases others with
    | nil => exact absurd h (lvCat_cons_ne_nil slice slices)
    | cons other others =>
      rw [lvCat_cons, lvCat_cons] at h
      obtain ⟨hLength, hAfter⟩ := encodeLeb128Len_append_inj h
      obtain ⟨rfl, hRest⟩ := append_inj hAfter hLength
      rw [ih hRest]

/-- Strings built from different parts differ, and the fields before the
context fill the hash's first block when the padding is shorter than 128 bytes,
as it is for the blocks of SHA-512. -/
theorem cpace_strings_unambiguous :
    (∀ slices others, lvCat slices = lvCat others → slices = others) ∧
    (∀ dsi prs ci sid dsi' prs' ci' sid' sInBytes,
      generatorString dsi prs ci sid sInBytes = generatorString dsi' prs' ci' sid' sInBytes →
        dsi = dsi' ∧ prs = prs' ∧ ci = ci' ∧ sid = sid') ∧
    ∀ dsi prs ci sid sInBytes, generatorString dsi prs ci sid sInBytes =
        lvCat [dsi, prs, zeroPadding dsi prs sInBytes] ++ lvCat [ci, sid] ∧
      (1 + (prependLen prs).length + (prependLen dsi).length ≤ sInBytes →
        (zeroPadding dsi prs sInBytes).length < 128 →
        (lvCat [dsi, prs, zeroPadding dsi prs sInBytes]).length = sInBytes) := by
  refine ⟨fun slices others => lvCat_inj, ?_, ?_⟩
  · intro dsi prs ci sid dsi' prs' ci' sid' sInBytes h
    obtain ⟨rfl, rfl, -, rfl, rfl⟩ : dsi = dsi' ∧ prs = prs' ∧ _ ∧ ci = ci' ∧ sid = sid' := by
      simpa using lvCat_inj h
    exact ⟨rfl, rfl, rfl, rfl⟩
  · intro dsi prs ci sid sInBytes
    refine ⟨@flatMap_append _ _ [dsi, prs, _] [ci, sid] prependLen, fun hRoom hShort => ?_⟩
    rw [← encodeLeb128Len_length_eq_one] at hShort
    simp only [prependLen, lvCat, zeroPadding, length_append, length_replicate,
      flatMap_cons, flatMap_nil, length_nil] at hRoom hShort ⊢
    omega

/-- Two empty fields leave 197 zeros of a block of 200 bytes, and their length
takes two bytes: the block is overrun by one. -/
theorem wide_block_overrun : 1 + (prependLen []).length + (prependLen []).length ≤ 200 ∧
      (lvCat [[], [], zeroPadding [] [] 200]).length = 201 := by
  have hShort : (encodeLeb128Len 0).length = 1 := encodeLeb128Len_length_eq_one.mpr (by decide)
  have hLong : (encodeLeb128Len 197).length = 2 := by
    simp [encodeLeb128Len]
  simp only [prependLen, lvCat, zeroPadding, flatMap_cons, flatMap_nil, length_append,
    length_nil, length_replicate, hShort]
  exact ⟨by decide, by rw [hLong]⟩

end RefineId.Rapp
