import RefineId.Cms.CurveLaw

/-! Verification as the standard states it: a public key is a point of the
curve's group, a signature a pair of numbers, and it is accepted when one
equation holds in the group. The verifier decides exactly this. -/
namespace RefineId.Cms

open Data Ber CurveCtx List Nat ZMod CurveCtx BerTlvAny

/-- A curve together with what makes its parameters a domain: prime field and
prime order, a smooth curve, a base point on it, and an order that fills the
octets of a field element. -/
structure Domain where
  curve : Curve
  ctx : CurveCtx
  new_eq : new curve = .ok ctx
  fieldPrime : ctx.pUint.Prime
  orderPrime : ctx.nUint.Prime
  odd : ctx.pUint ≠ 2
  smooth : ctx.curve.Δ ≠ 0
  base : ctx.curve.Point
  g_eq : ctx.g = encode base
  fieldFits : ctx.pUint ≤ 256 ^ ctx.fieldLen
  fieldBits : ctx.bitsP = 8 * ctx.fieldLen
  orderBits : ctx.bitsN = bitsVartime ctx.nUint
  orderOctets : ctx.bitsN % 8 = 0
  near : ctx.pUint < 2 * ctx.nUint

namespace Domain

variable (domain : Domain)

abbrev Group := domain.ctx.curve.Point

instance : Fact domain.ctx.pUint.Prime := ⟨domain.fieldPrime⟩

instance : Fact domain.ctx.nUint.Prime := ⟨domain.orderPrime⟩

/-- The octets of a point other than infinity: the tag and both coordinates in
the width of the field. -/
def octets : domain.Group → Option Bytes
  | .zero => none
  | .some x y _ =>
    some (sec1UncompressedTag ::
      (beBytes domain.ctx.fieldLen x.val ++ beBytes domain.ctx.fieldLen y.val))

/-- The abscissa of a point other than infinity. -/
def abscissa : domain.Group → Option ℕ
  | .zero => none
  | .some x _ _ => some x.val

/-- The leftmost bits of a digest, at most as many as the order has. -/
def leftmost (digest : Bytes) : ℕ :=
  beValue digest / 2 ^ (8 * digest.length - bitsVartime domain.ctx.nUint)

/-- The signature `(r, s)` of a digest is accepted for a public key: the key
encodes a point `Q`, both numbers lie in `1..n-1`, and the abscissa of
`[e/s]G + [r/s]Q` is `r` modulo `n`. -/
def Accepts (key digest : Bytes) (r s : ℕ) : Prop :=
  ∃ Q : domain.Group, domain.octets Q = some key ∧
    (1 ≤ r ∧ r < domain.ctx.nUint) ∧ (1 ≤ s ∧ s < domain.ctx.nUint) ∧
    ∃ x, domain.abscissa (((domain.leftmost digest : ZMod domain.ctx.nUint) / s).val • domain.base +
          ((r : ZMod domain.ctx.nUint) / s).val • Q) = some x ∧
      x ≡ r [MOD domain.ctx.nUint]

end Domain

/-- The shortest octets of a positive integer whose top bit is its sign. -/
def IsPositiveInteger (octets : Bytes) (value : ℕ) : Prop :=
  0 < value ∧ beValue octets = value ∧ ∃ first rest, octets = first :: rest ∧ first.toNat < 128 ∧
      (first = 0 → ∃ second, rest.head? = some second ∧ 128 ≤ second.toNat)

/-- One sequence of exactly two positive integers. -/
def EncodesPair (signature : Bytes) (r s : ℕ) : Prop :=
  ∃ outer first second, parse signature = .ok outer ∧ outer.tag = asn1SequenceTag ∧
    outer.size = signature.length ∧ records outer.value = .ok [first, second] ∧
    first.tag = asn1IntegerTag ∧ second.tag = asn1IntegerTag ∧
    IsPositiveInteger first.value r ∧ IsPositiveInteger second.value s

variable {value : ℕ} {bytes : Bytes}

section Signature
open EcdsaHelpers

theorem and_highBitSet_eq_zero_iff (byte : UInt8) : byte &&& highBitSet = 0 ↔ byte.toNat < 128 := by
  revert byte
  exact forall_byte (by decide +kernel)

/-- A number whose first octet is not zero needs all its octets. -/
theorem pow_le_beValue {first} (hFirst : first ≠ 0) (rest : Bytes) :
    256 ^ rest.length ≤ beValue (first :: rest) := by
  have hPositive : 0 < first.toNat := by
    refine pos_of_ne_zero fun hZero => hFirst ?_
    rw [← UInt8.toNat_inj, hZero]
    rfl
  rw [beValue_cons]
  exact (Nat.le_mul_of_pos_left _ hPositive).trans (Nat.le_add_right _ _)

/-- A magnitude starts with an octet other than zero. -/
def IsMagnitude (octets : Bytes) : Prop :=
  ∃ first rest, octets = first :: rest ∧ first ≠ 0

variable {octets : Bytes}

theorem IsMagnitude.beValue_pos (h : IsMagnitude octets) : 0 < beValue octets := by
  obtain ⟨first, rest, rfl, hFirst⟩ := h
  exact (Nat.pow_pos (by decide)).trans_le (pow_le_beValue hFirst rest)

theorem positiveMagnitude_sound {magnitude} (h : positiveMagnitude octets = .ok magnitude) :
    IsMagnitude magnitude ∧ IsPositiveInteger octets (beValue magnitude) := by
  rcases octets with _ | ⟨first, rest⟩
  · cases h
  rw [positiveMagnitude.eq_def] at h
  dsimp only at h
  split_ifs at h with hSign hPad
  · rcases rest with _ | ⟨second, rest⟩
    · cases h
    dsimp only at h
    split_ifs at h with hMinimal
    cases h
    have hSecond : 128 ≤ second.toNat :=
      Nat.le_of_not_lt fun hLow => hMinimal ((and_highBitSet_eq_zero_iff second).mpr hLow)
    have hShape : IsMagnitude (second :: rest) := by
      refine ⟨second, rest, rfl, ?_⟩
      rintro rfl
      exact absurd hSecond (by decide)
    refine ⟨hShape, hShape.beValue_pos, ?_, 0, second :: rest, by rw [hPad, derSignPad],
      by decide, fun _ => ⟨second, rfl, hSecond⟩⟩
    rw [beValue_cons first, hPad, derSignPad, UInt8.toNat_zero, Nat.zero_mul, Nat.zero_add]
  · cases h
    have hShape : IsMagnitude (first :: rest) := ⟨first, rest, rfl, hPad⟩
    exact ⟨hShape, hShape.beValue_pos, rfl, first, rest, rfl,
      (and_highBitSet_eq_zero_iff first).mp (not_not.mp hSign), fun hZero => absurd hZero hPad⟩

theorem positiveMagnitude_complete (h : IsPositiveInteger octets value) :
    ∃ magnitude, positiveMagnitude octets = .ok magnitude ∧ beValue magnitude = value := by
  obtain ⟨-, rfl, first, rest, rfl, hFirst, hMinimal⟩ := h
  have hSign : ¬(first &&& highBitSet ≠ 0) :=
    not_not.mpr ((and_highBitSet_eq_zero_iff first).mpr hFirst)
  by_cases hPad : first = 0
  · obtain ⟨second, hHead, hSecond⟩ := hMinimal hPad
    obtain ⟨following, rfl⟩ := head?_eq_some_iff.mp hHead
    refine ⟨second :: following, ?_, ?_⟩
    · rw [positiveMagnitude.eq_def]
      dsimp only
      rw [if_neg hSign, if_pos (by rw [hPad, derSignPad])]
      exact if_neg fun hLow => absurd ((and_highBitSet_eq_zero_iff second).mp hLow) (by omega)
    · rw [beValue_cons first, hPad, UInt8.toNat_zero, Nat.zero_mul, Nat.zero_add]
  · refine ⟨first :: rest, ?_, rfl⟩
    rw [positiveMagnitude.eq_def]
    dsimp only
    rw [if_neg hSign, if_neg (by rwa [derSignPad])]

theorem nextInteger_eq_ok {components magnitude following} :
    nextInteger components = .ok (magnitude, following) ↔
      ∃ child, parse components = .ok child ∧ child.tag = asn1IntegerTag ∧
        positiveMagnitude child.value = .ok magnitude ∧ components.drop child.size = following := by
  unfold nextInteger
  split_ifs with hEmpty
  · subst hEmpty
    constructor
    · intro h
      cases h
    · rintro ⟨child, hParse, -⟩
      cases hParse
  cases hParse : parse components with
  | error error => simp
  | ok child =>
    dsimp only
    split_ifs with hTag
    · constructor
      · intro h
        cases h
      · rintro ⟨other, hOther, hInteger, -⟩
        cases hOther
        exact absurd hInteger hTag
    rw [bind_eq_ok]
    constructor
    · rintro ⟨found, hFound, hResult⟩
      cases hResult
      exact ⟨child, rfl, not_not.mp hTag, hFound, rfl⟩
    · rintro ⟨other, hOther, -, hFound, rfl⟩
      cases hOther
      exact ⟨magnitude, hFound, rfl⟩

theorem records_eq_nil_iff : records bytes = .ok [] ↔ bytes = [] := by
  refine ⟨fun h => ?_, fun h => by rw [h, records_nil]⟩
  by_contra hEmpty
  rw [records_cons hEmpty, bind_eq_ok] at h
  obtain ⟨parsed, -, hRest⟩ := h
  obtain ⟨following, -, hResult⟩ := bind_eq_ok.mp hRest
  cases hResult

/-- Two records are the first, then the second, then nothing. -/
theorem records_pair_iff {first second} : records bytes = .ok [first, second] ↔
      parse bytes = .ok first ∧ parse (bytes.drop first.size) = .ok second ∧
        (bytes.drop first.size).drop second.size = [] := by
  have hStep : ∀ (remaining : Bytes) (child : BerTlvAny) (rest : List BerTlvAny),
      records remaining = .ok (child :: rest) ↔
        parse remaining = .ok child ∧ records (remaining.drop child.size) = .ok rest := by
    intro remaining child rest
    by_cases hEmpty : remaining = []
    · subst hEmpty
      constructor
      · intro h
        cases h
      · rintro ⟨hParse, -⟩
        cases hParse
    rw [records_cons hEmpty, bind_eq_ok]
    constructor
    · rintro ⟨parsed, hParsed, hRest⟩
      obtain ⟨following, hFollowing, hResult⟩ := bind_eq_ok.mp hRest
      cases hResult
      exact ⟨hParsed, hFollowing⟩
    · rintro ⟨hParsed, hFollowing⟩
      exact ⟨child, hParsed, bind_eq_ok.mpr ⟨rest, hFollowing, rfl⟩⟩
  rw [hStep, hStep, records_eq_nil_iff]

variable {signature : Bytes}

/-- A signature parses exactly as a sequence of two positive integers. -/
theorem parseEcdsaSignature_eq_ok {rBytes sBytes} :
    parseEcdsaSignature signature = .ok (rBytes, sBytes) ↔
      ∃ outer first second, parse signature = .ok outer ∧ outer.tag = asn1SequenceTag ∧
        outer.size = signature.length ∧ records outer.value = .ok [first, second] ∧
        first.tag = asn1IntegerTag ∧ second.tag = asn1IntegerTag ∧
        positiveMagnitude first.value = .ok rBytes ∧
        positiveMagnitude second.value = .ok sBytes := by
  constructor
  · intro hParse
    unfold parseEcdsaSignature at hParse
    cases hOuter : parse signature with
    | error error =>
      rw [hOuter] at hParse
      cases hParse
    | ok outer =>
      rw [hOuter] at hParse
      dsimp only at hParse
      split_ifs at hParse with hTag hSize
      obtain ⟨⟨rFound, components⟩, hFirst, hRest⟩ := bind_eq_ok.mp hParse
      obtain ⟨⟨sFound, following⟩, hSecond, hEnd⟩ := bind_eq_ok.mp hRest
      split_ifs at hEnd with hNone
      cases hEnd
      obtain ⟨first, hFirstRecord, hFirstTag, hFirstValue, rfl⟩ := nextInteger_eq_ok.mp hFirst
      obtain ⟨second, hSecondRecord, hSecondTag, hSecondValue, rfl⟩ :=
        nextInteger_eq_ok.mp hSecond
      exact ⟨outer, first, second, rfl, not_not.mp hTag, not_not.mp hSize,
        records_pair_iff.mpr ⟨hFirstRecord, hSecondRecord, not_not.mp hNone⟩, hFirstTag,
        hSecondTag, hFirstValue, hSecondValue⟩
  rintro ⟨outer, first, second, hOuter, hTag, hSize, hRecords, hFirstTag, hSecondTag, hR, hS⟩
  obtain ⟨hFirstRecord, hSecondRecord, hNone⟩ := records_pair_iff.mp hRecords
  have hFirst := nextInteger_eq_ok.mpr ⟨first, hFirstRecord, hFirstTag, hR, rfl⟩
  have hSecond := nextInteger_eq_ok.mpr ⟨second, hSecondRecord, hSecondTag, hS, rfl⟩
  rw [parseEcdsaSignature, hOuter]
  dsimp only
  rw [if_neg (not_not.mpr hTag), if_neg (not_not.mpr hSize), hFirst, ok_bind]
  rw [hSecond, ok_bind]
  exact if_neg (not_not.mpr hNone)

/-- The parser accepts exactly the encoded pairs, and finds their numbers. -/
theorem encodesPair_iff {r s} : EncodesPair signature r s ↔
      ∃ rBytes sBytes, parseEcdsaSignature signature = .ok (rBytes, sBytes) ∧
        beValue rBytes = r ∧ beValue sBytes = s := by
  constructor
  · rintro ⟨outer, first, second, hOuter, hTag, hSize, hRecords, hFirstTag, hSecondTag, hR, hS⟩
    obtain ⟨rBytes, hFirst, hR⟩ := positiveMagnitude_complete hR
    obtain ⟨sBytes, hSecond, hS⟩ := positiveMagnitude_complete hS
    exact ⟨rBytes, sBytes, parseEcdsaSignature_eq_ok.mpr ⟨outer, first, second, hOuter, hTag,
      hSize, hRecords, hFirstTag, hSecondTag, hFirst, hSecond⟩, hR, hS⟩
  · rintro ⟨rBytes, sBytes, hParse, rfl, rfl⟩
    obtain ⟨outer, first, second, hOuter, hTag, hSize, hRecords, hFirstTag, hSecondTag, hFirst,
      hSecond⟩ := parseEcdsaSignature_eq_ok.mp hParse
    exact ⟨outer, first, second, hOuter, hTag, hSize, hRecords, hFirstTag, hSecondTag,
      (positiveMagnitude_sound hFirst).2, (positiveMagnitude_sound hSecond).2⟩

end Signature

namespace Domain

open EcdsaHelpers

variable (domain : Domain)

theorem order_lt : domain.ctx.nUint < 256 ^ (domain.ctx.bitsN / 8) := by
  rw [show (256 : ℕ) = 2 ^ 8 from rfl, ← pow_mul,
    Nat.mul_div_cancel' (Nat.dvd_of_mod_eq_zero domain.orderOctets), orderBits, bitsVartime, if_neg domain.orderPrime.ne_zero]
  exact lt_log2_self

theorem fromBeSlice_bitsN (bytes : Bytes) : fromBeSlice bytes domain.ctx.bitsN =
      if bytes.length ≤ domain.ctx.bitsN / 8 then some (beValue bytes) else none := by
  have hOctets := domain.orderOctets
  unfold fromBeSlice
  split_ifs <;> first | rfl | omega

section Key
variable {domain}

theorem fieldElement_eq_ok : domain.ctx.fieldElement bytes = .ok value ↔
      value < domain.ctx.pUint ∧ bytes = beBytes domain.ctx.fieldLen value := by
  have hBits := domain.fieldBits
  unfold fieldElement
  constructor
  · intro h
    split_ifs at h with hLength
    obtain ⟨found, hFound, hBelow⟩ := bind_eq_ok.mp h
    rw [fromBeSlice, if_neg (by omega)] at hFound
    cases hFound
    split_ifs at hBelow with hField
    cases hBelow
    refine ⟨Nat.lt_of_not_le hField, ?_⟩
    rw [← not_not.mp hLength, beBytes_beValue]
  · rintro ⟨hField, rfl⟩
    have hLength : (beBytes domain.ctx.fieldLen value).length = domain.ctx.fieldLen :=
      beBytes_length _ _
    rw [if_neg (not_not.mpr hLength), fromBeSlice, if_neg (by omega),
      beValue_beBytes (hField.trans_le domain.fieldFits)]
    exact if_neg (not_le.mpr hField)

variable {key : Sec1UncompressedPoint} {q : AffinePoint}

/-- Only uncompressed points with reduced coordinates are parsed. -/
theorem parseAffine_eq_ok : domain.ctx.parseAffine key = .ok q ↔
      ∃ x y, x < domain.ctx.pUint ∧ y < domain.ctx.pUint ∧ q = ⟨some (x, y)⟩ ∧
        key.bytes = sec1UncompressedTag ::
          (beBytes domain.ctx.fieldLen x ++ beBytes domain.ctx.fieldLen y) := by
  obtain ⟨body, hBody⟩ := head?_eq_some_iff.mp key.tagged
  unfold parseAffine
  rw [if_neg (not_not.mpr key.tagged), hBody, drop_one, tail_cons]
  dsimp only
  constructor
  · intro h
    split_ifs at h with hLength
    obtain ⟨x, hX, hRest⟩ := bind_eq_ok.mp h
    obtain ⟨y, hY, hResult⟩ := bind_eq_ok.mp hRest
    cases hResult
    obtain ⟨hXField, hXBytes⟩ := fieldElement_eq_ok.mp hX
    obtain ⟨hYField, hYBytes⟩ := fieldElement_eq_ok.mp hY
    refine ⟨x, y, hXField, hYField, rfl, ?_⟩
    rw [← hXBytes, ← hYBytes, take_append_drop]
  rintro ⟨x, y, hXField, hYField, rfl, hBytes⟩
  obtain ⟨-, rfl⟩ := cons.inj hBytes
  have hLength : (beBytes domain.ctx.fieldLen x ++ beBytes domain.ctx.fieldLen y).length =
      domain.ctx.fieldLen * pointCoordinateCount := by
    rw [length_append, beBytes_length, beBytes_length, pointCoordinateCount, mul_two]
  have hTake : (beBytes domain.ctx.fieldLen x ++ beBytes domain.ctx.fieldLen y).take
      domain.ctx.fieldLen = beBytes domain.ctx.fieldLen x :=
    take_left' (beBytes_length _ _)
  have hDrop : (beBytes domain.ctx.fieldLen x ++ beBytes domain.ctx.fieldLen y).drop
      domain.ctx.fieldLen = beBytes domain.ctx.fieldLen y :=
    drop_left' (beBytes_length _ _)
  rw [if_neg (not_not.mpr hLength), hTake, hDrop, fieldElement_eq_ok.mpr ⟨hXField, rfl⟩, ok_bind,
    fieldElement_eq_ok.mpr ⟨hYField, rfl⟩, ok_bind]

theorem isOnCurve_iff (x y : ℕ) : domain.ctx.isOnCurve ⟨some (x, y)⟩ = true ↔
      domain.ctx.curve.Equation (domain.ctx.pMont x) (domain.ctx.pMont y) := by
  rw [equation_curve]
  exact decide_eq_true_iff

theorem publicKey_eq_ok : domain.ctx.publicKey key = .ok q ↔
      ∃ Q : domain.Group, domain.octets Q = some key.bytes ∧ q = encode Q := by
  rw [publicKey, bind_eq_ok]
  constructor
  · rintro ⟨found, hFound, hCurve⟩
    split_ifs at hCurve with hOn
    cases hCurve
    obtain ⟨x, y, hX, hY, rfl, hBytes⟩ := parseAffine_eq_ok.mp hFound
    have hPoint := (WeierstrassCurve.Affine.equation_iff_nonsingular_of_Δ_ne_zero
      domain.smooth).mp ((isOnCurve_iff x y).mp hOn)
    have hXVal : (domain.ctx.pMont x).val = x := val_natCast_of_lt hX
    have hYVal : (domain.ctx.pMont y).val = y := val_natCast_of_lt hY
    refine ⟨.some _ _ hPoint, ?_, ?_⟩
    · rw [octets, hXVal, hYVal, hBytes]
    · rw [encode, hXVal, hYVal]
  rintro ⟨Q, hOctets, rfl⟩
  rcases Q with _ | ⟨x, y, hPoint⟩
  · cases hOctets
  refine ⟨encode (.some x y hPoint), ?_, ?_⟩
  · exact parseAffine_eq_ok.mpr ⟨x.val, y.val, val_lt x, val_lt y, rfl,
      (Option.some.inj hOctets).symm⟩
  · refine if_pos ((isOnCurve_iff x.val y.val).mpr ?_)
    rw [pMont_val, pMont_val]
    exact hPoint.left

end Key

/-- The order fills its octets, so no bits are shifted out of the last one. -/
theorem digestToScalar_eq (digest : Bytes) :
    digestToScalar digest domain.ctx = domain.leftmost digest := by
  have hOctets := domain.orderOctets
  have hBits := domain.orderBits
  have hCount : (bitsVartime domain.ctx.nUint + (bitsPerByte - 1)) / bitsPerByte =
      domain.ctx.bitsN / 8 := by
    rw [← hBits, bitsPerByte]
    omega
  have hExtra : (bitsPerByte - bitsVartime domain.ctx.nUint % bitsPerByte) % bitsPerByte = 0 := by
    rw [← hBits, bitsPerByte, hOctets]
  have hTake : (digest.take (domain.ctx.bitsN / 8)).length ≤ domain.ctx.bitsN / 8 :=
    length_take_le _ _
  unfold digestToScalar leftmost
  dsimp only
  rw [hCount, hExtra, if_neg (by decide), fromBeSlice_bitsN, if_pos hTake, Option.getD_some, ← hBits]
  rw [beValue_take, Nat.mul_div_cancel' (by omega)]

theorem bytesIntoN_eq {x} (hField : x < domain.ctx.pUint) :
    bytesIntoN x domain.ctx = x % domain.ctx.nUint := by
  have hNear := domain.near
  unfold bytesIntoN
  split_ifs with hReduce
  · rw [mod_eq_sub_mod hReduce, mod_eq_of_lt (by omega)]
  · exact (mod_eq_of_lt (by omega)).symm

/-- Boxing a magnitude loses nothing that could be in range. -/
theorem boxed_eq_ok (hShape : IsMagnitude bytes) (hRange : beValue bytes < domain.ctx.nUint) :
    boxed bytes domain.ctx.bitsN = .ok (beValue bytes) := by
  have hShort : bytes.length ≤ domain.ctx.bitsN / 8 := by
    obtain ⟨first, rest, rfl, hFirst⟩ := hShape
    have hLower := pow_le_beValue hFirst rest
    have hPower := hLower.trans_lt (hRange.trans domain.order_lt)
    exact (Nat.pow_lt_pow_iff_right (by decide)).mp hPower
  rw [boxed, fromBeSlice_bitsN, if_pos hShort]
  rfl

theorem beValue_of_boxed (h : boxed bytes domain.ctx.bitsN = .ok value) :
    value = beValue bytes := by
  rw [boxed, fromBeSlice_bitsN] at h
  split_ifs at h <;> cases h
  rfl

/-- The abscissa the verifier compares with `r`, for the point that encodes
the sum of the standard. -/
theorem compareAbscissa_iff {P r} (hRange : r < domain.ctx.nUint) :
    compareAbscissa domain.ctx (encode P) r = .ok () ↔
      ∃ x, domain.abscissa P = some x ∧ x ≡ r [MOD domain.ctx.nUint] := by
  rcases P with _ | ⟨x, y, hPoint⟩
  · constructor
    · intro h
      cases h
    · rintro ⟨x, hX, -⟩
      cases hX
  have hReduced := domain.bytesIntoN_eq (val_lt x)
  change (if bytesIntoN x.val domain.ctx = r then _ else _) = _ ↔ _
  rw [hReduced]
  constructor
  · intro h
    split_ifs at h with hEq
    exact ⟨x.val, rfl, hEq.trans (mod_eq_of_lt hRange).symm⟩
  · rintro ⟨x', hX, hCongruent⟩
    cases hX
    exact if_pos (Eq.trans hCongruent (mod_eq_of_lt hRange))

/-- What the verifier computes once the key and both numbers are read. -/
theorem verifyEquation_iff {Q r s} (digest : Bytes)
    (hR : r < domain.ctx.nUint) (hS : 1 ≤ s ∧ s < domain.ctx.nUint) :
    verifyEquation domain.ctx (encode Q) r s digest = .ok () ↔ ∃ x, domain.abscissa
          (((domain.leftmost digest : ZMod domain.ctx.nUint) / s).val • domain.base +
            ((r : ZMod domain.ctx.nUint) / s).val • Q) = some x ∧
        x ≡ r [MOD domain.ctx.nUint] := by
  have hInvertible : domain.ctx.nMont s ≠ 0 := by
    intro hZero
    have hDvd := (natCast_eq_zero_iff s domain.ctx.nUint).mp hZero
    exact absurd (le_of_dvd hS.1 hDvd) (not_le.mpr hS.2)
  rw [verifyEquation, invert_of_ne_zero hInvertible, Option.elim_some, ok_bind, domain.g_eq]
  dsimp only
  rw [scalarMul_encode domain.odd, scalarMul_encode domain.odd,
    add_encode domain.odd, domain.digestToScalar_eq, domain.compareAbscissa_iff hR,
    div_eq_mul_inv, div_eq_mul_inv]
  rfl

/-- The verifier accepts exactly what the standard accepts. -/
theorem verifyPrehashed_iff (key : Sec1UncompressedPoint) (signature digest : Bytes) :
    verifyPrehashed domain.curve key signature digest = .ok () ↔
      ∃ r s, EncodesPair signature r s ∧ domain.Accepts key.bytes digest r s := by
  unfold verifyPrehashed
  rw [domain.new_eq, ok_bind]
  constructor
  · intro h
    obtain ⟨q, hKey, hRest⟩ := bind_eq_ok.mp h
    obtain ⟨⟨rBytes, sBytes⟩, hParse, hRest⟩ := bind_eq_ok.mp hRest
    obtain ⟨r, hR, hRest⟩ := bind_eq_ok.mp hRest
    obtain ⟨s, hS, hRest⟩ := bind_eq_ok.mp hRest
    obtain rfl := domain.beValue_of_boxed hR
    obtain rfl := domain.beValue_of_boxed hS
    obtain ⟨Q, hOctets, rfl⟩ := publicKey_eq_ok.mp hKey
    split_ifs at hRest with hRange
    push Not at hRange
    obtain ⟨hRLow, hRHigh, hSLow, hSHigh⟩ := hRange
    exact ⟨_, _, encodesPair_iff.mpr ⟨rBytes, sBytes, hParse, rfl, rfl⟩, Q, hOctets,
      ⟨hRLow, hRHigh⟩, ⟨hSLow, hSHigh⟩,
      (domain.verifyEquation_iff digest hRHigh ⟨hSLow, hSHigh⟩).mp hRest⟩
  rintro ⟨r, s, hPair, Q, hOctets, hR, hS, hSum⟩
  obtain ⟨rBytes, sBytes, hParse, rfl, rfl⟩ := encodesPair_iff.mp hPair
  obtain ⟨_, _, _, -, -, -, -, -, -, hFirst, hSecond⟩ := parseEcdsaSignature_eq_ok.mp hParse
  have hRShape := (positiveMagnitude_sound hFirst).1
  have hSShape := (positiveMagnitude_sound hSecond).1
  have hRange : ¬(beValue rBytes < 1 ∨ beValue rBytes ≥ domain.ctx.nUint ∨
      beValue sBytes < 1 ∨ beValue sBytes ≥ domain.ctx.nUint) := by omega
  rw [publicKey_eq_ok.mpr ⟨Q, hOctets, rfl⟩, ok_bind, hParse, ok_bind]
  dsimp only
  rw [domain.boxed_eq_ok hRShape hR.2, ok_bind, domain.boxed_eq_ok hSShape hS.2, ok_bind,
    if_neg hRange]
  exact (domain.verifyEquation_iff digest hR.2 hS).mpr hSum

end Domain

end RefineId.Cms
