import RefineId.Data.Words

/-! The digest of a `CKM_ECDSA` call fitted to the 48 bytes the card signs.
Zeroed and erased buffers are refused by their bytes, before the fit. -/
namespace RefineId.Pkcs11

open Data List

/-- The return values a `C_Sign` input is refused with. -/
inductive DataError where
  | dataInvalid
  | dataLenRange
  deriving DecidableEq

def rejectDegenerateDigest (digest : Bytes) : Except DataError Unit :=
  let allZero := digest.all (· == 0)
  let allOnes := digest.all (· == 0xFF)
  let zerosExceptLast := digest.getLast? == some 1 && digest.dropLast.all (· == 0)
  let zerosExceptFirst := digest.head? == some 1 && digest.tail.all (· == 0)
  if allZero || allOnes || zerosExceptLast || zerosExceptFirst then .error .dataInvalid else .ok ()

/-- Copies the leading bytes to the end of a zeroed array. -/
def fitP384 (input : Bytes) : Except DataError (FixedBytes 48) :=
  if input.isEmpty then .error .dataLenRange
  else
    match rejectDegenerateDigest input with
    | .error error => .error error
    | .ok () =>
      let src := input.take (min input.length 48)
      .ok ⟨replicate (48 - src.length) 0 ++ src, by
        simp only [src, length_append, length_replicate, length_take]
        omega⟩

/-- The leftmost 384 bits of a digest as a number. -/
def messageInteger (input : Bytes) : Nat :=
  beValue input / 2 ^ (8 * input.length - 384)

theorem beValue_zeros (count : Nat) (bytes : Bytes) :
    beValue (replicate count 0 ++ bytes) = beValue bytes := by
  induction count with
  | zero => rfl
  | succ count ih => rw [replicate_succ, cons_append, beValue_cons, ih]; simp

variable {input : Bytes} {digest : FixedBytes 48}

theorem fitP384_eq_ok (h : fitP384 input = .ok digest) :
    input ≠ [] ∧ rejectDegenerateDigest input = .ok () ∧
      digest.val = replicate (48 - input.length) 0 ++ input.take 48 := by
  rw [fitP384] at h
  split_ifs at h with hEmpty
  split at h
  · cases h
  · next hReject =>
    cases h
    refine ⟨by simpa using hEmpty, hReject, ?_⟩
    have hTake : input.take (min input.length 48) = input.take 48 :=
      take_eq_take_iff.mpr (by omega)
    simp only [hTake, length_take]
    congr 2
    omega

/-- Zeros in front of a digest that passes do not make it degenerate. -/
theorem rejectDegenerateDigest_zeros (hInput : input ≠ [])
    (h : rejectDegenerateDigest input = .ok ()) (count : Nat) :
    rejectDegenerateDigest (replicate count 0 ++ input) = .ok () := by
  induction count with
  | zero => exact h
  | succ count ih =>
    obtain ⟨first, rest, hCons⟩ := exists_cons_of_ne_nil
      (append_ne_nil_of_right_ne_nil (replicate count 0) hInput)
    rw [replicate_succ, cons_append]
    rw [hCons] at ih ⊢
    simp [rejectDegenerateDigest] at ih ⊢
    exact ⟨ih.1.1.1, ih.1.2⟩

/-- The card signs the integer of the digest. It never signs a degenerate one
exactly when no bytes are cut off or those that are left pass the check too. -/
theorem fitted_digest_sound_iff (h : fitP384 input = .ok digest) :
    beValue digest.val = messageInteger input ∧
      (rejectDegenerateDigest digest.val = .ok () ↔ input.length ≤ 48 ∨
        rejectDegenerateDigest (input.take 48) = .ok ()) := by
  obtain ⟨hInput, hReject, hDigest⟩ := fitP384_eq_ok h
  rw [hDigest, beValue_zeros, beValue_take]
  refine ⟨rfl, ?_⟩
  by_cases hLength : input.length ≤ 48
  · rw [take_of_length_le hLength]
    simp only [rejectDegenerateDigest_zeros hInput hReject, hLength, true_or]
  · rw [Nat.sub_eq_zero_of_le (by omega)]
    simp [hLength]

theorem fitted_digest_sound_short :
    ∃ digest, fitP384 [2] = .ok digest ∧ beValue digest.val = messageInteger [2] ∧
      rejectDegenerateDigest digest.val = .ok () := by
  have hSound := @fitted_digest_sound_iff [2] _ rfl
  exact ⟨_, rfl, hSound.1, hSound.2.mpr (.inl (by decide))⟩

/-- A byte behind the 48 lets a zeroed buffer through. -/
theorem zeroed_digest_signed :
    fitP384 (replicate 48 0 ++ [2]) = .ok (.replicate 48 0) ∧
      rejectDegenerateDigest (replicate 48 0) = .error .dataInvalid := by
  decide

end RefineId.Pkcs11
