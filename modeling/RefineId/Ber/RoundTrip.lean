import RefineId.Ber.Tlv
import Mathlib.Tactic.IntervalCases

/-! The octets a record may begin with, and that reading and writing agree on
them. The reader takes lengths in any of five forms, the writer writes the
shortest. -/
namespace RefineId.Ber

open Data List BerEncoder

inductive TagForm : Bytes → UInt16 → Prop where
  | single (first : UInt8) (hSingle : ¬IsLeader first) : TagForm [first] first.toUInt16
  | double (first second : UInt8) (hLeader : IsLeader first)
      (hLast : second &&& tagMoreOctets = 0) :
      TagForm [first, second] (u16FromBytes first second)

variable (count : Nat)

def longFormMarker : UInt8 :=
  UInt8.ofNat (0x80 + count)

/-- The octets that state a length, minimal or not. -/
inductive LengthForm : Bytes → Nat → Prop where
  | short (octet : UInt8) (hShort : octet.toNat < shortFormCeiling) : LengthForm [octet] octet.toNat
  | long (octets : Bytes) (hSome : 1 ≤ octets.length) (hMost : octets.length ≤ 4) :
      LengthForm (longFormMarker octets.length :: octets) (beValue octets)

variable {after : Cursor} {tag : UInt16} {cursor : Cursor}

theorem readTag_eq_ok : readTag cursor = .ok (tag, after) ↔
      ∃ octets, TagForm octets tag ∧ Consumes cursor octets after := by
  rw [readTag, stateT_bind_eq_ok]
  simp only [byte_eq_ok]
  constructor
  · rintro ⟨first, middle, hFirst, h⟩
    split at h
    next hLeader =>
      obtain ⟨second, last, hSecond, h⟩ := stateT_bind_eq_ok.mp h
      split at h
      next => cases h
      next hLast =>
        cases h
        exact ⟨_, .double first second hLeader (not_not.mp hLast),
          hFirst.trans (byte_eq_ok.mp hSecond)⟩
    next hSingle =>
      cases h
      exact ⟨_, .single first hSingle, hFirst⟩
  rintro ⟨octets, hForm, hConsumes⟩
  cases hForm with
  | single first hSingle =>
    refine ⟨first, after, hConsumes, ?_⟩
    rw [if_neg hSingle]
    rfl
  | double first second hLeader hLast =>
    obtain ⟨middle, hFirst, hSecond⟩ := Consumes.split [first] hConsumes
    refine ⟨first, middle, hFirst, ?_⟩
    rw [if_pos hLeader, stateT_bind_eq_ok]
    refine ⟨second, after, byte_eq_ok.mpr hSecond, ?_⟩
    rw [if_neg (not_not.mpr hLast)]
    rfl

theorem lengthOctetCount_eq_ok {marker count} :
    lengthOctetCount marker = .ok count ↔
      1 ≤ count ∧ count ≤ 4 ∧ marker = longFormMarker count := by
  constructor
  · intro h
    rw [lengthOctetCount] at h
    split at h
    next hMarker =>
      cases h
      rcases hMarker with rfl | rfl | rfl | rfl <;> decide
    next => cases h
  · rintro ⟨hSome, hMost, rfl⟩
    interval_cases count <;> rfl

theorem longFormMarker_not_short {count} (hMost : count ≤ 4) :
    ¬(longFormMarker count).toNat < shortFormCeiling := by
  interval_cases count <;> decide

variable {length : Nat}

/-- A length is read exactly from one of its forms. -/
theorem readLength_eq_ok (hWord : cursor.offset + 5 < 2 ^ 64) :
    readLength cursor = .ok (length, after) ↔
      ∃ octets, LengthForm octets length ∧ Consumes cursor octets after := by
  rw [readLength, stateT_bind_eq_ok]
  simp only [byte_eq_ok]
  constructor
  · rintro ⟨first, middle, hFirst, h⟩
    split at h
    next hShort =>
      cases h
      exact ⟨_, .short first hShort, hFirst⟩
    next =>
      obtain ⟨count, _, hLift, hRest⟩ := stateT_bind_eq_ok.mp h
      obtain ⟨hCount, rfl⟩ := stateT_lift_eq_ok.mp hLift
      obtain ⟨octets, _, hTake, hValue⟩ := stateT_bind_eq_ok.mp hRest
      obtain ⟨rfl, -, hOctets⟩ := take_eq_ok.mp hTake
      obtain ⟨hSome, hMost, rfl⟩ := lengthOctetCount_eq_ok.mp hCount
      cases hValue
      rw [foldl_shift_eq_beValue]
      exact ⟨_, .long octets hSome hMost, hFirst.trans hOctets⟩
  rintro ⟨octets, hForm, hConsumes⟩
  cases hForm with
  | short octet hShort =>
    refine ⟨octet, after, hConsumes, ?_⟩
    rw [if_pos hShort]
    rfl
  | long octets hSome hMost =>
    obtain ⟨middle, hFirst, hOctets⟩ :=
      Consumes.split [longFormMarker octets.length] hConsumes
    have hOffset : after.offset < 2 ^ 64 := by
      rw [hOctets.offset, hFirst.offset, length_singleton]
      omega
    refine ⟨_, middle, hFirst, ?_⟩
    rw [if_neg (longFormMarker_not_short hMost), stateT_bind_eq_ok]
    refine ⟨octets.length, middle,
      stateT_lift_eq_ok.mpr ⟨lengthOctetCount_eq_ok.mpr ⟨hSome, hMost, rfl⟩, rfl⟩, ?_⟩
    rw [stateT_bind_eq_ok]
    refine ⟨octets, after, take_eq_ok.mpr ⟨rfl, hOffset, hOctets⟩, ?_⟩
    rw [foldl_shift_eq_beValue]
    rfl

variable {octets : Bytes}

theorem TagForm.length_le (h : TagForm octets tag) : octets.length ≤ 2 := by
  cases h <;> simp

theorem TagForm.length_pos (h : TagForm octets tag) : 0 < octets.length := by
  cases h <;> simp

theorem LengthForm.length_le (h : LengthForm octets length) : octets.length ≤ 5 := by
  cases h with
  | short _ _ => simp
  | long octets _ hMost =>
    rw [length_cons]
    omega

theorem LengthForm.lt (h : LengthForm octets length) : length < 2 ^ 32 := by
  cases h with
  | short octet _ =>
    have hOctet := octet.toNat_lt
    omega
  | long octets _ hMost =>
    calc beValue octets < 256 ^ octets.length := beValue_lt octets
      _ ≤ 256 ^ 4 := Nat.pow_le_pow_right (by decide) hMost
      _ = 2 ^ 32 := by decide

theorem TagForm.offset_lt {bytes} (hTag : TagForm octets tag)
    (h : Consumes ⟨bytes, 0⟩ octets after) : after.offset + 5 < 2 ^ 64 := by
  have hLength := hTag.length_le
  have hOffset : after.offset = 0 + octets.length := h.offset
  omega

/-- A record is read from tag octets, length octets and as many value bytes as
they state, whatever follows. -/
theorem BerTlvAny.parse_eq_ok {bytes record} : parse bytes = .ok record ↔
      ∃ tagOctets lengthOctets rest, TagForm tagOctets record.tag ∧
        LengthForm lengthOctets record.value.length ∧
        bytes = tagOctets ++ lengthOctets ++ record.value ++ rest ∧
        record.size = (tagOctets ++ lengthOctets ++ record.value).length := by
  rw [parse]
  simp only [bind_eq_ok, Prod.exists, readTag_eq_ok, take_eq_ok]
  constructor
  · rintro ⟨tag, first, ⟨tagOctets, hTag, hFirst⟩, length, second, hLength, value, last,
      ⟨hValueLength, -, hValue⟩, h⟩
    obtain ⟨lengthOctets, hLength, hSecond⟩ :=
      (readLength_eq_ok (hTag.offset_lt hFirst)).mp hLength
    cases h
    obtain ⟨⟨rest, hBytes⟩, rfl⟩ := consumes_start.mp ((hFirst.trans hSecond).trans hValue)
    exact ⟨tagOctets, lengthOctets, rest, hTag, hValueLength ▸ hLength, hBytes, rfl⟩
  rintro ⟨tagOctets, lengthOctets, rest, hTag, hLength, hBytes, hSize⟩
  have hTagLength := hTag.length_le
  have hLengthLength := hLength.length_le
  have hValueLength := hLength.lt
  obtain ⟨second, hHeader, hValue⟩ :=
    (consumes_start.mpr ⟨⟨rest, hBytes⟩, rfl⟩).split (tagOctets ++ lengthOctets)
  obtain ⟨first, hFirst, hSecond⟩ := hHeader.split tagOctets
  refine ⟨record.tag, first, ⟨tagOctets, hTag, hFirst⟩, record.value.length, second,
    (readLength_eq_ok (hTag.offset_lt hFirst)).mpr ⟨lengthOctets, hLength, hSecond⟩,
    record.value, _, ⟨rfl, ?_, hValue⟩, ?_⟩
  · simp only [length_append]
    omega
  · rw [← hSize]

variable {len : Nat}

theorem LengthForm.of_beBytes (hSome : 1 ≤ count) (hMost : count ≤ 4)
    (hFits : len < 256 ^ count) : LengthForm (longFormMarker count :: beBytes count len) len := by
  have hForm := LengthForm.long (beBytes count len) (by simpa using hSome) (by simpa using hMost)
  rwa [beBytes_length, beValue_beBytes hFits] at hForm

theorem LengthForm.lt_of_length_lt (h : LengthForm octets len)
    (hFew : octets.length < count + 2) : len < shortFormCeiling ∨ len < 256 ^ count := by
  cases h with
  | short octet hShort => exact .inl hShort
  | long octets _ _ =>
    have hCount : octets.length ≤ count := by
      rw [length_cons] at hFew
      omega
    exact .inr ((beValue_lt octets).trans_le (Nat.pow_le_pow_right (by decide) hCount))

def Shortest (octets : Bytes) (len : Nat) : Prop :=
  ∀ other, LengthForm other len → octets.length ≤ other.length

theorem shortest_long {marker} (hCeiling : shortFormCeiling ≤ len)
    (hLarge : 256 ^ count ≤ len) : Shortest (marker :: beBytes (count + 1) len) len := by
  intro other hOther
  rw [length_cons, beBytes_length]
  by_contra hFew
  rcases hOther.lt_of_length_lt count (by omega) with hLt | hLt <;> omega

/-- The writer states every length that fits four octets, in the shortest
form. -/
theorem lengthOctets_of_lt (h : len < 2 ^ 32) :
    ∃ octets, lengthOctets len = .ok octets ∧ LengthForm octets len ∧ Shortest octets len := by
  rw [lengthOctets]
  split_ifs with hShort hOne hTwo hThree
  · have hOctet : (UInt8.ofNat len).toNat = len := by
      rw [UInt8.toNat_ofNat']
      unfold shortFormCeiling at hShort
      omega
    have hForm := LengthForm.short (UInt8.ofNat len) (by rwa [hOctet])
    rw [hOctet] at hForm
    refine ⟨_, rfl, hForm, fun other hOther => ?_⟩
    cases hOther <;> simp
  · exact ⟨_, rfl, .of_beBytes 1 (by decide) (by decide) hOne,
      shortest_long 0 (not_lt.mp hShort) (by unfold shortFormCeiling at hShort; omega)⟩
  · exact ⟨_, rfl, .of_beBytes 2 (by decide) (by decide) hTwo,
      shortest_long 1 (not_lt.mp hShort) (not_lt.mp hOne)⟩
  · have hFits : len < 256 ^ 3 := by
      unfold u24Max at hThree
      omega
    exact ⟨_, rfl, .of_beBytes 3 (by decide) (by decide) hFits,
      shortest_long 2 (not_lt.mp hShort) (not_lt.mp hTwo)⟩
  · have hLarge : 256 ^ 3 ≤ len := by
      unfold u24Max at hThree
      omega
    exact ⟨_, rfl, .of_beBytes 4 (by decide) (by decide) h,
      shortest_long 3 (not_lt.mp hShort) hLarge⟩

theorem lengthOctets_of_ge (h : 2 ^ 32 ≤ len) :
    lengthOctets len = .error (.lengthTooLarge len) := by
  have hCeiling : shortFormCeiling ≤ len := le_trans (by decide) h
  have hThree : u24Max < len := lt_of_lt_of_le (by decide) h
  rw [lengthOctets, if_neg (by omega), if_neg (by omega), if_neg (by omega), if_neg (by omega),
    if_neg (by omega)]

theorem lengthOctets_accepted : (∃ octets, lengthOctets len = .ok octets) ↔ len < 2 ^ 32 := by
  constructor
  · rintro ⟨octets, h⟩
    by_contra hLarge
    rw [lengthOctets_of_ge (not_lt.mp hLarge)] at h
    cases h
  · intro h
    obtain ⟨octets, hOctets, -⟩ := lengthOctets_of_lt h
    exact ⟨octets, hOctets⟩

def written (tagOctets value : Bytes) : Except BerEncodeError Bytes :=
  finished (BerEncoder.empty.pushOctets tagOctets value)

variable {value tagOctets encoded : Bytes}

theorem written_eq_ok : written tagOctets value = .ok encoded ↔
      ∃ octets, lengthOctets value.length = .ok octets ∧
        encoded = tagOctets ++ octets ++ value := by
  rw [written, pushOctets, pushLength]
  cases lengthOctets value.length with
  | error error => simp [finished]
  | ok octets =>
    simp [finished, finish, extend, BerEncoder.empty, eq_comm]

theorem tlv_of_single {tag} (h : ¬IsLeader tag) (value : Bytes) :
    tlv tag value = written [tag] value := by
  rw [tlv, pushTlv, if_neg h, written]

/-- A two-octet tag: a leading octet and one that does not continue. -/
def IsDouble (tag2 : UInt16) : Prop :=
  IsLeader (u16BeBytes tag2).1 ∧ (u16BeBytes tag2).2 &&& tagMoreOctets = 0

variable {tag2 : UInt16}

theorem tlv2_of_double (h : IsDouble tag2) (value : Bytes) :
    tlv2 tag2 value = written [(u16BeBytes tag2).1, (u16BeBytes tag2).2] value := by
  rw [tlv2, pushTlvTag2]
  simp only [h.1, h.2, ne_eq, not_true_eq_false, or_self, if_false, written]

theorem tlv2_of_not_double (h : ¬IsDouble tag2) (value : Bytes) :
    tlv2 tag2 value = .error (.malformedTag tag2) := by
  rw [tlv2, pushTlvTag2]
  simp only
  rw [if_pos, finished]
  simpa [IsDouble, imp_iff_not_or] using h

theorem written_accepted :
    (∃ encoded, written tagOctets value = .ok encoded) ↔ value.length < 2 ^ 32 := by
  rw [← lengthOctets_accepted]
  constructor
  · rintro ⟨encoded, h⟩
    obtain ⟨octets, hOctets, -⟩ := written_eq_ok.mp h
    exact ⟨octets, hOctets⟩
  · rintro ⟨octets, hOctets⟩
    exact ⟨_, written_eq_ok.mpr ⟨octets, hOctets, rfl⟩⟩

theorem tlv_accepted {tag} :
    (∃ encoded, tlv tag value = .ok encoded) ↔ ¬IsLeader tag ∧ value.length < 2 ^ 32 := by
  by_cases hTag : IsLeader tag
  · simp [tlv, pushTlv, finished, hTag]
  · rw [tlv_of_single hTag, written_accepted]
    simp [hTag]

theorem tlv2_accepted :
    (∃ encoded, tlv2 tag2 value = .ok encoded) ↔ IsDouble tag2 ∧ value.length < 2 ^ 32 := by
  by_cases hTag : IsDouble tag2
  · rw [tlv2_of_double hTag, written_accepted]
    simp [hTag]
  · simp [tlv2_of_not_double hTag, hTag]

/-- What was written is read back, and nothing behind it is touched. -/
theorem TagForm.parse_written (hTag : TagForm tagOctets tag)
    (hWritten : written tagOctets value = .ok encoded) (suffix : Bytes) :
    BerTlvAny.parse (encoded ++ suffix) = .ok ⟨tag, value, encoded.length⟩ := by
  have hLength := written_accepted.mp ⟨encoded, hWritten⟩
  obtain ⟨octets, hOctets, rfl⟩ := written_eq_ok.mp hWritten
  obtain ⟨octets', hOctets', hForm, -⟩ := lengthOctets_of_lt hLength
  obtain rfl := Except.ok.inj (hOctets.symm.trans hOctets')
  exact BerTlvAny.parse_eq_ok.mpr ⟨tagOctets, octets, suffix, hTag, hForm, rfl, rfl⟩

theorem parse_tlv {tag} (h : tlv tag value = .ok encoded) (suffix : Bytes) :
    BerTlvAny.parse (encoded ++ suffix) = .ok ⟨tag.toUInt16, value, encoded.length⟩ := by
  have hSingle := (tlv_accepted.mp ⟨encoded, h⟩).1
  rw [tlv_of_single hSingle] at h
  exact (TagForm.single tag hSingle).parse_written h suffix

theorem IsLeader.pos {octet} (h : IsLeader octet) : 0 < octet.toNat := by
  by_contra hZero
  obtain rfl : octet = 0 := UInt8.toNat_inj.mp (Nat.eq_zero_of_not_pos hZero)
  exact absurd h (by decide)

theorem TagForm.reencode_eq (hTag : TagForm tagOctets tag) (value : Bytes) :
    reencode tag value = written tagOctets value := by
  cases hTag with
  | single first hSingle =>
    have hFits : first.toUInt16.toNat < 2 ^ 8 := first.toNat_lt
    rw [reencode, if_pos hFits, UInt8.toUInt8_toUInt16, tlv_of_single hSingle]
  | double first second hLeader hLast =>
    have hLarge : ¬(u16FromBytes first second).toNat < 2 ^ 8 := by
      have hPos := hLeader.pos
      rw [u16FromBytes_toNat]
      omega
    have hDouble : IsDouble (u16FromBytes first second) := by
      rw [IsDouble, u16BeBytes_fromBytes]
      exact ⟨hLeader, hLast⟩
    rw [reencode, if_neg hLarge, tlv2_of_double hDouble, u16BeBytes_fromBytes]

theorem IsDouble.tagForm (h : IsDouble tag2) :
    TagForm [(u16BeBytes tag2).1, (u16BeBytes tag2).2] tag2 := by
  have hForm := TagForm.double _ _ h.1 h.2
  rwa [u16FromBytes_beBytes] at hForm

/-- A value shorter than `2 ^ 32` bytes is written under every tag of one or two octets,
and under no other. What was written is read back with its tag, its value and
its length, whatever follows. What was read can be written again in no more
bytes, and is then read the same. -/
theorem BerTlvAny.tlv_round_trip : (∀ (tag : UInt8) (value : Bytes),
      ((∃ encoded, tlv tag value = .ok encoded) ↔ ¬IsLeader tag ∧ value.length < 2 ^ 32) ∧
      ∀ encoded suffix, tlv tag value = .ok encoded →
        parse (encoded ++ suffix) = .ok ⟨tag.toUInt16, value, encoded.length⟩) ∧
    (∀ (tag2 : UInt16) (value : Bytes),
      ((∃ encoded, tlv2 tag2 value = .ok encoded) ↔ IsDouble tag2 ∧ value.length < 2 ^ 32) ∧
      ∀ encoded suffix, tlv2 tag2 value = .ok encoded →
        parse (encoded ++ suffix) = .ok ⟨tag2, value, encoded.length⟩) ∧
    ∀ (input : Bytes) (record : BerTlvAny), parse input = .ok record →
      ∃ encoded, reencode record.tag record.value = .ok encoded ∧ encoded.length ≤ record.size ∧
        ∀ suffix, parse (encoded ++ suffix) = .ok ⟨record.tag, record.value, encoded.length⟩ := by
  refine ⟨fun tag value => ⟨tlv_accepted, fun encoded suffix h => parse_tlv h suffix⟩,
    fun tag2 value => ⟨tlv2_accepted, fun encoded suffix h => ?_⟩, fun input record h => ?_⟩
  · have hDouble := (tlv2_accepted.mp ⟨encoded, h⟩).1
    rw [tlv2_of_double hDouble] at h
    exact hDouble.tagForm.parse_written h suffix
  obtain ⟨tagOctets, lengthOctets, -, hTag, hForm, -, hSize⟩ := parse_eq_ok.mp h
  obtain ⟨encoded, hWritten⟩ := written_accepted.mpr hForm.lt
  refine ⟨encoded, (hTag.reencode_eq record.value).trans hWritten, ?_, hTag.parse_written hWritten⟩
  -- Written again, a record is no longer than it was.
  obtain ⟨octets, hOctets, rfl⟩ := written_eq_ok.mp hWritten
  obtain ⟨octets', hOctets', -, hShortest⟩ := lengthOctets_of_lt hForm.lt
  obtain rfl := Except.ok.inj (hOctets.symm.trans hOctets')
  have hLe := hShortest lengthOctets hForm
  simp only [hSize, length_append]
  omega

end RefineId.Ber
