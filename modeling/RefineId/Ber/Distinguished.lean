import RefineId.Ber.Records

/-! Records under a tag of one octet, and the one among them that states its
length in the fewest octets. -/
namespace RefineId.Ber

open Data BerTlvAny List

variable {octets other value bytes : Bytes} {len : Nat} {tag : UInt8}

theorem LengthForm.unique (h : LengthForm octets len) (hOther : LengthForm other len)
    (hLength : octets.length = other.length) : octets = other := by
  cases h with
  | short octet _ =>
    generalize hLen : octet.toNat = len at hOther
    cases hOther with
    | short twin _ => rw [UInt8.toNat_inj.mp hLen]
    | long others hSome _ =>
      simp only [length_cons, length_nil] at hLength
      omega
  | long octets hSome _ =>
    generalize hLen : beValue octets = len at hOther
    cases hOther with
    | short twin _ =>
      simp only [length_cons, length_nil] at hLength
      omega
    | long others _ _ =>
      have hCount : octets.length = others.length := by simpa using hLength
      rw [← beBytes_beValue octets, hLen, hCount, beBytes_beValue]

/-- As many octets state every smaller length. -/
theorem LengthForm.shrink (h : LengthForm octets len) {less} (hLess : less ≤ len) :
    ∃ other, LengthForm other less ∧ other.length = octets.length := by
  cases h with
  | short octet hShort =>
    have hOctet : (UInt8.ofNat less).toNat = less :=
      UInt8.toNat_ofNat_of_lt' (hLess.trans_lt octet.toNat_lt)
    have hForm := LengthForm.short (UInt8.ofNat less) (by rw [hOctet]; exact hLess.trans_lt hShort)
    rw [hOctet] at hForm
    exact ⟨_, hForm, rfl⟩
  | long octets hSome hMost =>
    exact ⟨_, .of_beBytes octets.length hSome hMost (hLess.trans_lt (beValue_lt octets)), by simp⟩

def IsRecord (tag : UInt8) (value octets : Bytes) : Prop :=
  ∃ length, LengthForm length value.length ∧ octets = tag :: length ++ value

/-- A record whose length no form states in fewer octets. -/
def IsDerRecord (tag : UInt8) (value octets : Bytes) : Prop :=
  ∃ length, LengthForm length value.length ∧ Shortest length value.length ∧
    octets = tag :: length ++ value

theorem IsDerRecord.isRecord (h : IsDerRecord tag value octets) : IsRecord tag value octets := by
  obtain ⟨length, hForm, -, hOctets⟩ := h
  exact ⟨length, hForm, hOctets⟩

theorem TagForm.eq_singleton (h : TagForm octets tag.toUInt16) : octets = [tag] := by
  generalize hWord : tag.toUInt16 = word at h
  cases h with
  | single first _ =>
    rw [← UInt8.toUInt8_toUInt16 tag, hWord, UInt8.toUInt8_toUInt16]
  | double first second hLeader _ =>
    have hSmall := tag.toNat_lt
    have hLarge := hLeader.pos
    have hValue := congrArg UInt16.toNat hWord
    rw [u16FromBytes_toNat, UInt8.toNat_toUInt16] at hValue
    omega

theorem parse_single_iff (tag : UInt8) (hTag : ¬IsLeader tag) {size} :
    parse bytes = .ok ⟨tag.toUInt16, value, size⟩ ↔
      ∃ octets rest, IsRecord tag value octets ∧ bytes = octets ++ rest ∧ size = octets.length := by
  rw [parse_eq_ok]
  constructor
  · rintro ⟨tagOctets, length, rest, hForm, hLength, hBytes, hSize⟩
    obtain rfl := hForm.eq_singleton
    exact ⟨_, rest, ⟨length, hLength, rfl⟩, hBytes, hSize⟩
  · rintro ⟨_, rest, ⟨length, hLength, rfl⟩, hBytes, hSize⟩
    exact ⟨[tag], length, rest, .single tag hTag, hLength, hBytes, hSize⟩

/-- Where a record ends can be read off its octets. -/
theorem IsRecord.append_inj (hTag : ¬IsLeader tag) {otherValue rest otherRest}
    (h : IsRecord tag value octets) (hOther : IsRecord tag otherValue other)
    (hBytes : octets ++ rest = other ++ otherRest) :
    value = otherValue ∧ octets = other ∧ rest = otherRest := by
  have hParse := (parse_single_iff tag hTag).mpr ⟨octets, rest, h, rfl, rfl⟩
  have hParseOther := (parse_single_iff tag hTag).mpr ⟨other, otherRest, hOther, rfl, rfl⟩
  rw [hBytes, hParseOther, Except.ok.injEq, BerTlvAny.mk.injEq] at hParse
  exact ⟨hParse.2.1.symm, List.append_inj hBytes hParse.2.2.symm⟩

/-- A value no longer than that of a record has a shortest record, which has no
more octets before its value. -/
theorem IsRecord.exists_der (h : IsRecord tag value octets) {less}
    (hLess : less.length ≤ value.length) :
    ∃ der, IsDerRecord tag less der ∧ der.length + value.length ≤ octets.length + less.length := by
  obtain ⟨length, hForm, rfl⟩ := h
  obtain ⟨shortest, -, hShortestForm, hShortest⟩ :=
    lengthOctets_of_lt (hLess.trans_lt hForm.lt)
  obtain ⟨shrunk, hShrunk, hLength⟩ := hForm.shrink hLess
  have hLe := hShortest shrunk hShrunk
  refine ⟨_, ⟨shortest, hShortestForm, hShortest, rfl⟩, ?_⟩
  simp only [length_append, length_cons]
  omega

variable {der : Bytes}

theorem IsDerRecord.length_le (hDer : IsDerRecord tag value der) (h : IsRecord tag value octets) :
    der.length ≤ octets.length := by
  obtain ⟨shortest, -, hShortest, rfl⟩ := hDer
  obtain ⟨length, hForm, rfl⟩ := h
  have hLe := hShortest length hForm
  simp only [length_append, length_cons]
  omega

theorem IsDerRecord.eq_of_length_le (hDer : IsDerRecord tag value der)
    (h : IsRecord tag value octets) (hLength : octets.length ≤ der.length) : octets = der := by
  have hLe := hDer.length_le h
  obtain ⟨shortest, hShortest, -, rfl⟩ := hDer
  obtain ⟨length, hForm, rfl⟩ := h
  simp only [length_append, length_cons] at hLe hLength
  rw [hForm.unique hShortest (by omega)]

end RefineId.Ber
