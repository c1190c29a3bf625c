import RefineId.Ber.Distinguished
import RefineId.Cms.Standard

/-! The forms of an ECDSA signature: the raw pair `r || s` of a card and the DER
sequence the verifier reads (`crates/cms/src/ecdsa.rs`). -/
namespace RefineId.Cms

open Data Ber EcdsaHelpers List

def sigComponentCount : Nat := 2

def oneByteFormCeiling : Nat := 0x100

def u16Max : Nat := 2 ^ 16 - 1

namespace EcdsaHelpers

/-- Append the octets of a length, which is clamped to what two octets hold. -/
def encodeDerLength (out : Bytes) (len : Nat) : Bytes :=
  if len < shortFormCeiling then out ++ [UInt8.ofNat len]
  else if len < oneByteFormCeiling then out ++ [longForm1b, UInt8.ofNat len]
  else out ++ longForm2b :: beBytes 2 (min len u16Max)

/-- A magnitude without its leading zeros. One octet always stays. -/
def trimZeros : Bytes → Bytes
  | [] => []
  | [last] => [last]
  | first :: next :: rest => if first = 0 then trimZeros (next :: rest) else first :: next :: rest

def encodeDerInteger (out value : Bytes) : Bytes :=
  let trimmed := trimZeros value
  let needsPad := trimmed.head?.any (highBitSet ≤ ·)
  let out := encodeDerLength (out ++ [asn1IntegerTag.toUInt8]) (trimmed.length + needsPad.toNat)
  (if needsPad then out ++ [derSignPad] else out) ++ trimmed

def encodeBody (raw : Bytes) : Bytes :=
  let half := raw.length >>> 1
  encodeDerInteger (encodeDerInteger [] (raw.take half)) (raw.drop half)

def encodeSequence (raw : Bytes) : Bytes :=
  let body := encodeBody raw
  encodeDerLength [asn1SequenceTag.toUInt8] body.length ++ body

end EcdsaHelpers

def fromRawConcatenation (raw : Bytes) : Except EcdsaError Bytes :=
  if raw = [] ∨ raw.length % sigComponentCount ≠ 0 then .error .badSignature
  else .ok (encodeSequence raw)

/-- The conversion of a card's signature, on either curve. -/
def intoDer (raw : Bytes) : Option Bytes :=
  if raw.length % sigComponentCount ≠ 0 ∨ raw = [] then none else some (encodeSequence raw)

/-- The octets of a positive integer: its magnitude, after a zero octet exactly
if the top bit is set. -/
def signedOctets (magnitude : Bytes) : Bytes :=
  if magnitude.head?.any (highBitSet ≤ ·) then derSignPad :: magnitude else magnitude

/-- The distinguished encoding of two positive integers in a sequence. -/
def IsDerPair (signature r s : Bytes) : Prop :=
  ∃ first second, IsDerRecord 0x02 (signedOctets r) first ∧
    IsDerRecord 0x02 (signedOctets s) second ∧ IsDerRecord 0x30 (first ++ second) signature

variable {octets magnitude signature r s : Bytes}

theorem highBitSet_le_iff (byte : UInt8) : highBitSet ≤ byte ↔ byte &&& highBitSet ≠ 0 := by
  revert byte
  exact forall_byte (by decide +kernel)

theorem positiveMagnitude_eq_ok : positiveMagnitude octets = .ok magnitude ↔
      IsMagnitude magnitude ∧ octets = signedOctets magnitude := by
  constructor
  · intro h
    refine ⟨(positiveMagnitude_sound h).1, ?_⟩
    rcases octets with _ | ⟨first, rest⟩
    · cases h
    rw [positiveMagnitude.eq_def] at h
    dsimp only at h
    split_ifs at h with hSign hPad
    · rcases rest with _ | ⟨second, rest⟩
      · cases h
      dsimp only at h
      split_ifs at h with hMinimal
      cases h
      simp [signedOctets, highBitSet_le_iff, hMinimal, hPad]
    · cases h
      simp [signedOctets, highBitSet_le_iff, not_not.mp hSign]
  · rintro ⟨⟨first, rest, rfl, hFirst⟩, rfl⟩
    by_cases hTop : first &&& highBitSet = 0
    · simp [signedOctets, highBitSet_le_iff, hTop, positiveMagnitude, derSignPad, hFirst]
    · simp [signedOctets, highBitSet_le_iff, hTop, positiveMagnitude, derSignPad]

/-- An accepted signature is two integer records in a sequence record, with
lengths in any form. -/
theorem parseEcdsaSignature_layout : parseEcdsaSignature signature = .ok (r, s) ↔
      IsMagnitude r ∧ IsMagnitude s ∧ ∃ first second, IsRecord 0x02 (signedOctets r) first ∧
        IsRecord 0x02 (signedOctets s) second ∧ IsRecord 0x30 (first ++ second) signature := by
  rw [parseEcdsaSignature_eq_ok]
  simp only [records_pair_iff, positiveMagnitude_eq_ok]
  constructor
  · rintro ⟨⟨_, body, -⟩, ⟨_, _, firstSize⟩, ⟨_, _, secondSize⟩, hOuter, rfl, rfl,
      ⟨hFirst, hSecond, hEnd⟩, rfl, rfl, ⟨hR, rfl⟩, hS, rfl⟩
    obtain ⟨octets, rest, hRecord, hSignature, hSize⟩ :=
      (parse_single_iff 0x30 (by decide)).mp hOuter
    obtain ⟨first, following, hFirstRecord, rfl, rfl⟩ :=
      (parse_single_iff 0x02 (by decide)).mp hFirst
    rw [drop_left] at hSecond hEnd
    obtain ⟨second, last, hSecondRecord, rfl, rfl⟩ :=
      (parse_single_iff 0x02 (by decide)).mp hSecond
    rw [drop_left] at hEnd
    subst hEnd
    have hRest : rest = [] := by simpa [hSignature] using hSize
    rw [hRest, append_nil] at hSignature
    rw [append_nil] at hRecord
    exact ⟨hR, hS, first, second, hFirstRecord, hSecondRecord, hSignature ▸ hRecord⟩
  rintro ⟨hR, hS, first, second, hFirst, hSecond, hOuter⟩
  refine ⟨⟨0x30, first ++ second, _⟩, ⟨0x02, _, first.length⟩, ⟨0x02, _, second.length⟩,
    (parse_single_iff 0x30 (by decide)).mpr
      ⟨signature, [], hOuter, (append_nil _).symm, rfl⟩, rfl, rfl,
    ⟨(parse_single_iff 0x02 (by decide)).mpr ⟨first, second, hFirst, rfl, rfl⟩, ?_, ?_⟩,
    rfl, rfl, ⟨hR, rfl⟩, hS, rfl⟩
  · rw [drop_left]
    exact (parse_single_iff 0x02 (by decide)).mpr ⟨second, [], hSecond, (append_nil _).symm, rfl⟩
  · simp

theorem IsDerPair.accepted (h : IsDerPair signature r s) (hR : IsMagnitude r)
    (hS : IsMagnitude s) : parseEcdsaSignature signature = .ok (r, s) := by
  obtain ⟨first, second, hFirst, hSecond, hOuter⟩ := h
  exact parseEcdsaSignature_layout.mpr
    ⟨hR, hS, first, second, hFirst.isRecord, hSecond.isRecord, hOuter.isRecord⟩

/-- What is accepted as a pair has a distinguished encoding, which is accepted as
the same pair, and is that encoding exactly if it is no longer. -/
theorem accepted_eq_der_iff (h : parseEcdsaSignature signature = .ok (r, s)) :
    ∃ der, IsDerPair der r s ∧ parseEcdsaSignature der = .ok (r, s) ∧
      ∀ other, parseEcdsaSignature other = .ok (r, s) →
        (other = der ↔ other.length ≤ der.length) := by
  obtain ⟨hR, hS, first, second, hFirst, hSecond, hOuter⟩ := parseEcdsaSignature_layout.mp h
  obtain ⟨firstDer, hFirstDer, hFirstLength⟩ := hFirst.exists_der le_rfl
  obtain ⟨secondDer, hSecondDer, hSecondLength⟩ := hSecond.exists_der le_rfl
  have hBody : (firstDer ++ secondDer).length ≤ (first ++ second).length := by
    simp only [length_append]
    omega
  obtain ⟨der, hDer, -⟩ := hOuter.exists_der hBody
  have hPair : IsDerPair der r s := ⟨firstDer, secondDer, hFirstDer, hSecondDer, hDer⟩
  refine ⟨der, hPair, hPair.accepted hR hS, fun other hOther => ⟨fun hEq => hEq ▸ le_rfl, ?_⟩⟩
  intro hShort
  obtain ⟨-, -, first, second, hFirst, hSecond, hOuter⟩ := parseEcdsaSignature_layout.mp hOther
  -- Each of the three headers has at least the octets of its shortest form, so
  -- none can have more.
  have hFirstLe := hFirstDer.length_le hFirst
  have hSecondLe := hSecondDer.length_le hSecond
  have hBody : (firstDer ++ secondDer).length ≤ (first ++ second).length := by
    simp only [length_append]
    omega
  obtain ⟨twin, hTwin, hLength⟩ := hOuter.exists_der hBody
  have hTwinLength := hDer.length_le hTwin.isRecord
  simp only [length_append] at hLength
  obtain rfl := hFirstDer.eq_of_length_le hFirst (by omega)
  obtain rfl := hSecondDer.eq_of_length_le hSecond (by omega)
  exact hDer.eq_of_length_le hOuter hShort

theorem accepted_eq_der_small :
    ∃ der, IsDerPair der [1] [1] ∧ parseEcdsaSignature der = .ok ([1], [1]) ∧
      ∀ other, parseEcdsaSignature other = .ok ([1], [1]) →
        (other = der ↔ other.length ≤ der.length) :=
  @accepted_eq_der_iff [0x30, 6, 2, 1, 1, 2, 1, 1] _ _ (by decide)

/-- The length of the sequence written in the short form and in the long form. -/
theorem signature_malleable : parseEcdsaSignature [0x30, 6, 2, 1, 1, 2, 1, 1] = .ok ([1], [1]) ∧
      parseEcdsaSignature [0x30, 0x81, 6, 2, 1, 1, 2, 1, 1] = .ok ([1], [1]) := by
  decide

section Raw
variable {value rest : Bytes}

theorem encodeDerLength_append (out : Bytes) (len : Nat) :
    encodeDerLength out len = out ++ encodeDerLength [] len := by
  simp only [encodeDerLength, nil_append]
  split_ifs <;> rfl

theorem encodeDerLength_clamped {len} (h : u16Max ≤ len) :
    encodeDerLength [] len = encodeDerLength [] u16Max := by
  have hShort : ¬len < shortFormCeiling := not_lt.mpr (le_trans (by decide) h)
  have hOne : ¬len < oneByteFormCeiling := not_lt.mpr (le_trans (by decide) h)
  rw [encodeDerLength, if_neg hShort, if_neg hOne, Nat.min_eq_right h]
  rfl

theorem isDerRecord_encoded (tag : UInt8) (h : value.length ≤ u16Max) :
    IsDerRecord tag value (tag :: encodeDerLength [] value.length ++ value) := by
  have hOctets : lengthOctets value.length = .ok (encodeDerLength [] value.length) := by
    have hTwo : value.length < 2 ^ 16 := h.trans_lt (by decide)
    rw [lengthOctets, encodeDerLength, Nat.min_eq_left h, if_pos hTwo, apply_ite Except.ok,
      apply_ite Except.ok]
    rfl
  obtain ⟨octets, hWritten, hForm, hShortest⟩ :=
    lengthOctets_of_lt (h.trans_lt (by decide : u16Max < 2 ^ 32))
  obtain rfl := Except.ok.inj (hWritten.symm.trans hOctets)
  exact ⟨_, hForm, hShortest, rfl⟩

def derInteger (value : Bytes) : Bytes :=
  0x02 :: encodeDerLength [] (signedOctets (trimZeros value)).length ++
    signedOctets (trimZeros value)

theorem encodeDerInteger_eq (out value : Bytes) :
    encodeDerInteger out value = out ++ derInteger value := by
  simp only [encodeDerInteger, derInteger, signedOctets, encodeDerLength_append (out ++ _)]
  cases (trimZeros value).head?.any (highBitSet ≤ ·) <;> simp [asn1IntegerTag]

theorem derInteger_record (h : (derInteger value).length ≤ u16Max) :
    IsDerRecord 0x02 (signedOctets (trimZeros value)) (derInteger value) := by
  refine isDerRecord_encoded _ (le_trans ?_ h)
  rw [derInteger, length_append]
  exact Nat.le_add_left _ _

theorem beValue_trimZeros (value : Bytes) : beValue (trimZeros value) = beValue value := by
  induction value using trimZeros.induct with
  | case1 | case2 => rfl
  | case3 next rest ih =>
    rw [trimZeros, if_pos rfl, ih, beValue_cons 0, UInt8.toNat_zero, Nat.zero_mul, Nat.zero_add]
  | case4 first next rest hFirst => rw [trimZeros, if_neg hFirst]

/-- What is trimmed starts with an octet other than zero, or is one zero. -/
theorem trimZeros_cases (h : value ≠ []) :
    IsMagnitude (trimZeros value) ∨ trimZeros value = [0] := by
  induction value using trimZeros.induct with
  | case1 => exact absurd rfl h
  | case2 last =>
    by_cases hLast : last = 0
    · exact .inr (by rw [trimZeros, hLast])
    · exact .inl ⟨last, [], rfl, hLast⟩
  | case3 next rest ih =>
    rw [trimZeros, if_pos rfl]
    exact ih (cons_ne_nil _ _)
  | case4 first next rest hFirst =>
    exact .inl ⟨first, next :: rest, by rw [trimZeros, if_neg hFirst], hFirst⟩

theorem trimZeros_of_zero (hSome : value ≠ []) (hZero : beValue value = 0) :
    trimZeros value = [0] := by
  refine (trimZeros_cases hSome).resolve_left fun h => h.beValue_pos.ne' ?_
  rw [beValue_trimZeros, hZero]

theorem trimZeros_of_ne_zero (h : beValue value ≠ 0) : IsMagnitude (trimZeros value) := by
  have hSome : value ≠ [] := by
    rintro rfl
    exact h rfl
  refine (trimZeros_cases hSome).resolve_right fun hZero => h ?_
  rw [← beValue_trimZeros, hZero]
  rfl

theorem encodeBody_append (hHalves : r.length = s.length) :
    encodeBody (r ++ s) = derInteger r ++ derInteger s := by
  have hHalf : (r ++ s).length >>> 1 = r.length := by
    rw [length_append, ← hHalves, Nat.shiftRight_one]
    omega
  rw [encodeBody, hHalf, take_left, drop_left, encodeDerInteger_eq, encodeDerInteger_eq, nil_append]

theorem zero_half_refused {body} (hBody : body = derInteger r ++ derInteger s)
    (hZero : trimZeros r = [0] ∨ trimZeros s = [0]) (pair : Bytes × Bytes) :
    parseEcdsaSignature (0x30 :: encodeDerLength [] body.length ++ body) ≠ .ok pair := by
  intro hParse
  obtain ⟨hR, hS, first, second, hFirst, hSecond, hOuter⟩ := parseEcdsaSignature_layout.mp hParse
  -- A clamped length ends the sequence before its octets end.
  have hFits : body.length ≤ u16Max := by
    by_contra hLong
    have hTake : (body.take u16Max).length = u16Max := by
      rw [length_take]
      omega
    have hRecord := (isDerRecord_encoded 0x30 hTake.le).isRecord
    rw [hTake, ← encodeDerLength_clamped (le_of_not_ge hLong)] at hRecord
    obtain ⟨-, -, hRest⟩ := hOuter.append_inj (by decide) hRecord
      (show _ ++ [] = _ ++ body.drop u16Max by simp)
    exact hLong (drop_eq_nil_iff.mp hRest.symm)
  obtain ⟨hSequence, -⟩ := hOuter.append_inj (by decide) (isDerRecord_encoded 0x30 hFits).isRecord
    (rfl : _ ++ [] = _ ++ [])
  rw [hBody, length_append] at hFits
  have hRRecord := @derInteger_record r (by omega)
  have hSRecord := @derInteger_record s (by omega)
  obtain ⟨hREq, -, rfl⟩ := hFirst.append_inj (by decide) hRRecord.isRecord (hSequence.trans hBody)
  obtain ⟨hSEq, -⟩ := hSecond.append_inj (by decide) hSRecord.isRecord (rfl : _ ++ [] = _ ++ [])
  rcases hZero with hZero | hZero
  · rw [hZero] at hREq
    cases positiveMagnitude_eq_ok.mpr ⟨hR, hREq.symm⟩
  · rw [hZero] at hSEq
    cases positiveMagnitude_eq_ok.mpr ⟨hS, hSEq.symm⟩

theorem forms_eq (h : r.length = s.length) (hSome : r ≠ []) :
    fromRawConcatenation (r ++ s) = .ok (encodeSequence (r ++ s)) ∧
      intoDer (r ++ s) = some (encodeSequence (r ++ s)) := by
  have hEven : (r ++ s).length % sigComponentCount = 0 := by
    rw [length_append, sigComponentCount]
    omega
  simp only [fromRawConcatenation, intoDer, hEven, append_eq_nil_iff, hSome, false_and, ne_eq,
    not_true_eq_false, or_self, if_false, and_self]

/-- Both conversions of a raw pair write its distinguished encoding, which is
read back as the same two numbers. What they write for a pair with a zero is
refused. -/
theorem raw_forms_agree (hHalves : r.length = s.length) :
    (beValue r ≠ 0 → beValue s ≠ 0 → (encodeBody (r ++ s)).length ≤ u16Max →
      ∃ der rBytes sBytes, fromRawConcatenation (r ++ s) = .ok der ∧
        intoDer (r ++ s) = some der ∧ parseEcdsaSignature der = .ok (rBytes, sBytes) ∧
        beValue rBytes = beValue r ∧ beValue sBytes = beValue s ∧
        IsMagnitude rBytes ∧ IsMagnitude sBytes ∧ IsDerPair der rBytes sBytes) ∧
    (beValue r = 0 ∨ beValue s = 0 →
      ∀ der, fromRawConcatenation (r ++ s) = .ok der ∨ intoDer (r ++ s) = some der →
        ∀ pair, parseEcdsaSignature der ≠ .ok pair) := by
  by_cases hSome : r = []
  · subst hSome
    obtain rfl : s = [] := length_eq_zero_iff.mp hHalves.symm
    refine ⟨fun h => absurd rfl h, ?_⟩
    rintro - der (h | h) <;> cases h
  have hSome' : s ≠ [] := by
    rintro rfl
    exact hSome (length_eq_zero_iff.mp hHalves)
  obtain ⟨hRaw, hCard⟩ := forms_eq hHalves hSome
  rw [hRaw, hCard, encodeSequence, encodeDerLength_append, encodeBody_append hHalves]
  constructor
  · intro hR hS hFits
    have hOuter := isDerRecord_encoded 0x30 hFits
    rw [length_append] at hFits
    have hPair : IsDerPair _ (trimZeros r) (trimZeros s) :=
      ⟨_, _, derInteger_record (by omega), derInteger_record (by omega), hOuter⟩
    have hRShape := trimZeros_of_ne_zero hR
    have hSShape := trimZeros_of_ne_zero hS
    exact ⟨_, _, _, rfl, rfl, hPair.accepted hRShape hSShape, beValue_trimZeros r,
      beValue_trimZeros s, hRShape, hSShape, hPair⟩
  · intro hZero der hDer
    have hTrimmed := hZero.imp (trimZeros_of_zero hSome) (trimZeros_of_zero hSome')
    rcases hDer with h | h <;> cases h <;> exact zero_half_refused rfl hTrimmed

theorem raw_forms_small : (encodeBody [1, 0x80]).length ≤ u16Max ∧
      ∃ der r s, fromRawConcatenation [1, 0x80] = .ok der ∧ intoDer [1, 0x80] = some der ∧
        parseEcdsaSignature der = .ok (r, s) ∧ beValue r = 1 ∧ beValue s = 128 ∧
        IsMagnitude r ∧ IsMagnitude s ∧ IsDerPair der r s :=
  ⟨by decide, (@raw_forms_agree [1] [0x80] rfl).1 (by decide) (by decide) (by decide)⟩

end Raw

end RefineId.Cms
