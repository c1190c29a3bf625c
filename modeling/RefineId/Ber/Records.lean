import RefineId.Ber.RoundTrip

/-! The records of a byte string, one after another (`BerTlvIter` of
`crates/ber/src/lib.rs`). -/
namespace RefineId.Ber

open Data BerTlvAny List Nat

/-- What the iterator yields while `fuel` lasts. The first error ends it. -/
def recordsFrom : Nat → Bytes → Except BerError (List BerTlvAny)
  | 0, _ => .ok []
  | fuel + 1, remaining =>
    if remaining = [] then .ok []
    else do
      let parsed ← BerTlvAny.parse remaining
      let rest ← recordsFrom fuel (remaining.drop parsed.size)
      .ok (parsed :: rest)

/-- All records of a byte string. No record is empty, so the fuel lasts. -/
def records (bytes : Bytes) : Except BerError (List BerTlvAny) :=
  recordsFrom bytes.length bytes

@[simp] theorem records_nil : records [] = .ok [] :=
  rfl

variable {bytes : Bytes} {record : BerTlvAny}

theorem BerTlvAny.parse_size_pos (h : parse bytes = .ok record) : 0 < record.size := by
  obtain ⟨tagOctets, lengthOctets, -, hTag, -, -, hSize⟩ := parse_eq_ok.mp h
  have hFirst := hTag.length_pos
  rw [hSize, length_append, length_append]
  omega

theorem recordsFrom_eq {fuel} (hFuel : bytes.length ≤ fuel) :
    recordsFrom fuel bytes = records bytes := by
  induction fuel using Nat.strongRecOn generalizing bytes with
  | _ fuel ih =>
    by_cases hBytes : bytes = []
    · subst hBytes
      cases fuel <;> rfl
    have hPositive : 0 < bytes.length := length_pos_iff.mpr hBytes
    obtain ⟨fuel, rfl⟩ := exists_eq_succ_of_ne_zero (ne_of_gt (hPositive.trans_le hFuel))
    obtain ⟨length, hLength⟩ := exists_eq_succ_of_ne_zero (ne_of_gt hPositive)
    rw [records, hLength, recordsFrom, recordsFrom, if_neg hBytes, if_neg hBytes]
    cases hParse : BerTlvAny.parse bytes with
    | error error => rfl
    | ok parsed =>
      have hSize := parse_size_pos hParse
      have hShort : (bytes.drop parsed.size).length ≤ length := by
        rw [length_drop]
        omega
      have hLeft := ih fuel (lt_succ_self fuel) (hShort.trans (by omega))
      have hRight := ih length (by omega) hShort
      change (recordsFrom fuel (bytes.drop parsed.size) >>= _) = _
      rw [hLeft, ← hRight]
      rfl

theorem records_cons (hBytes : bytes ≠ []) : records bytes = (do
      let parsed ← BerTlvAny.parse bytes
      let rest ← records (bytes.drop parsed.size)
      .ok (parsed :: rest)) := by
  obtain ⟨length, hLength⟩ :=
    exists_eq_succ_of_ne_zero (ne_of_gt (length_pos_iff.mpr hBytes))
  rw [records, hLength, recordsFrom, if_neg hBytes]
  cases hParse : BerTlvAny.parse bytes with
  | error error => rfl
  | ok parsed =>
    have hSize := parse_size_pos hParse
    have hShort : (bytes.drop parsed.size).length ≤ length := by
      rw [length_drop]
      omega
    change (recordsFrom length (bytes.drop parsed.size) >>= _) = _
    rw [recordsFrom_eq hShort]
    rfl

section Append
variable {octets rest : Bytes} {before following : List BerTlvAny}

theorem records_of_parse (hParse : BerTlvAny.parse (octets ++ rest) = .ok record)
    (hSize : record.size = octets.length) (hRest : records rest = .ok following) :
    records (octets ++ rest) = .ok (record :: following) := by
  have hSome : octets ++ rest ≠ [] := by
    intro hNil
    rw [hNil] at hParse
    cases hParse
  rw [records_cons hSome, hParse]
  change (records ((octets ++ rest).drop record.size) >>= _) = _
  rw [hSize, drop_left, hRest]
  rfl

/-- Records behind records are the records of both. -/
theorem records_append (hBytes : records bytes = .ok before) (hRest : records rest = .ok following) :
    records (bytes ++ rest) = .ok (before ++ following) := by
  induction before generalizing bytes with
  | nil =>
    by_cases hNil : bytes = []
    · rwa [hNil]
    rw [records_cons hNil, bind_eq_ok] at hBytes
    obtain ⟨parsed, -, hBytes⟩ := hBytes
    obtain ⟨others, -, hCons⟩ := bind_eq_ok.mp hBytes
    cases hCons
  | cons record before ih =>
    have hNil : bytes ≠ [] := by
      rintro rfl
      cases hBytes
    rw [records_cons hNil, bind_eq_ok] at hBytes
    obtain ⟨parsed, hParse, hBytes⟩ := hBytes
    obtain ⟨others, hOthers, hCons⟩ := bind_eq_ok.mp hBytes
    cases hCons
    obtain ⟨tagOctets, lengthOctets, more, hTag, hForm, rfl, hSize⟩ := parse_eq_ok.mp hParse
    rw [hSize, drop_left] at hOthers
    rw [append_assoc]
    refine records_of_parse ?_ hSize (ih hOthers)
    exact parse_eq_ok.mpr ⟨tagOctets, lengthOctets, more ++ rest, hTag, hForm, rfl, hSize⟩

end Append

section Written
variable {tag : UInt8} {value encoded rest : Bytes}

/-- An encoded record is the first of the records it stands before. -/
theorem records_tlv (h : tlv tag value = .ok encoded) {following}
    (hRest : records rest = .ok following) :
    records (encoded ++ rest) = .ok (⟨tag.toUInt16, value, encoded.length⟩ :: following) :=
  records_of_parse (parse_tlv h rest) rfl hRest

/-- The tag and the value can be read off an encoded record. -/
theorem tlv_inj {other otherValue} (h : tlv tag value = .ok encoded)
    (hOther : tlv other otherValue = .ok encoded) : tag = other ∧ value = otherValue := by
  injection (parse_tlv hOther []).symm.trans (parse_tlv h []) with hRecord
  injection hRecord with hTag hValue
  refine ⟨?_, hValue.symm⟩
  rw [← UInt8.toUInt8_toUInt16 tag, ← hTag, UInt8.toUInt8_toUInt16]

end Written

/-- One call of the iterator: the item and the bytes that remain. -/
def BerTlvIter.next (remaining : Bytes) : Option (Except BerError BerTlvAny × Bytes) :=
  if remaining = [] then none
  else
    match BerTlvAny.parse remaining with
    | .ok parsed => some (.ok parsed, remaining.drop parsed.size)
    | .error error => some (.error error, [])

/-- The items of the calls up to the one that has none. -/
inductive Yields : Bytes → List (Except BerError BerTlvAny) → Prop where
  | finished {remaining : Bytes} (hNext : BerTlvIter.next remaining = none) : Yields remaining []
  | item {remaining after : Bytes} {item : Except BerError BerTlvAny}
      {items : List (Except BerError BerTlvAny)}
      (hNext : BerTlvIter.next remaining = some (item, after)) (rest : Yields after items) :
      Yields remaining (item :: items)

/-- Records that stand one behind the other from the first byte on, each the
record of its own octets. -/
inductive Consecutive : Bytes → List BerTlvAny → Prop where
  | nil (bytes : Bytes) : Consecutive bytes []
  | cons {octets bytes : Bytes} {record : BerTlvAny} {records : List BerTlvAny}
      (hSize : octets.length = record.size) (hParse : BerTlvAny.parse octets = .ok record)
      (rest : Consecutive bytes records) : Consecutive (octets ++ bytes) (record :: records)

/-- Records written by `tlv` or `tlv2`, one behind the other. -/
inductive Encodes : List BerTlvAny → Bytes → Prop where
  | nil : Encodes [] []
  | tlv {tag : UInt8} {value encoded bytes : Bytes} {records : List BerTlvAny}
      (h : Ber.tlv tag value = .ok encoded) (rest : Encodes records bytes) :
      Encodes (⟨tag.toUInt16, value, encoded.length⟩ :: records) (encoded ++ bytes)
  | tlv2 {tag2 : UInt16} {value encoded bytes : Bytes} {records : List BerTlvAny}
      (h : Ber.tlv2 tag2 value = .ok encoded) (rest : Encodes records bytes) :
      Encodes (⟨tag2, value, encoded.length⟩ :: records) (encoded ++ bytes)

theorem Yields.unique {items others} (h : Yields bytes items)
    (hOther : Yields bytes others) : others = items := by
  induction h generalizing others with
  | finished hNext =>
    cases hOther with
    | finished => rfl
    | item hOther => cases hNext.symm.trans hOther
  | item hNext _ ih =>
    cases hOther with
    | finished hOther => cases hNext.symm.trans hOther
    | item hOther rest =>
      cases hNext.symm.trans hOther
      rw [ih rest]

theorem next_of_parse {octets} (hSize : octets.length = record.size)
    (hParse : BerTlvAny.parse (octets ++ bytes) = .ok record) :
    BerTlvIter.next (octets ++ bytes) = some (.ok record, bytes) := by
  have hSome : octets ++ bytes ≠ [] := by
    intro hNil
    rw [hNil] at hParse
    cases hParse
  rw [BerTlvIter.next, if_neg hSome, hParse]
  simp only [← hSize, drop_left]

theorem Encodes.yields {records} (h : Encodes records bytes) : Yields bytes (records.map .ok) := by
  induction h with
  | nil => exact .finished rfl
  | tlv h _ ih => exact .item (next_of_parse rfl (parse_tlv h _)) ih
  | tlv2 h _ ih =>
    have hDouble := (tlv2_accepted.mp ⟨_, h⟩).1
    rw [tlv2_of_double hDouble] at h
    exact .item (next_of_parse rfl (hDouble.tagForm.parse_written h _)) ih

theorem exists_yields (bytes : Bytes) : ∃ records failed,
    Yields bytes (records.map .ok ++ failed) ∧ (failed = [] ∨ ∃ error, failed = [.error error]) ∧
    records.length + failed.length ≤ bytes.length ∧ Consecutive bytes records := by
  induction hLength : bytes.length using Nat.strongRecOn generalizing bytes with
  | _ length ih =>
    by_cases hNil : bytes = []
    · exact ⟨[], [], .finished (if_pos hNil), .inl rfl, by simp, .nil bytes⟩
    cases hParse : BerTlvAny.parse bytes with
    | error error =>
      have hSome := length_pos_iff.mpr hNil
      refine ⟨[], [.error error], .item ?_ (.finished (rfl : BerTlvIter.next [] = none)), .inr ⟨error, rfl⟩,
        hLength ▸ succ_le_of_lt hSome, .nil bytes⟩
      rw [BerTlvIter.next, if_neg hNil, hParse]
    | ok record =>
      obtain ⟨tagOctets, lengthOctets, rest, hTag, hForm, rfl, hSize⟩ :=
        parse_eq_ok.mp hParse
      have hFirst := hTag.length_pos
      rw [length_append] at hLength
      obtain ⟨records, failed, hYields, hFailed, hCount, hConsecutive⟩ :=
        ih rest.length (by simp only [length_append] at hLength; omega) rest rfl
      refine ⟨record :: records, failed, .item (next_of_parse hSize.symm hParse) hYields,
        hFailed, ?_, .cons hSize.symm ?_ hConsecutive⟩
      · simp only [length_append] at hLength
        rw [length_cons]
        omega
      · exact parse_eq_ok.mpr ⟨tagOctets, lengthOctets, [], hTag, hForm, by simp, hSize⟩

/-- What was written record by record is iterated record by record. Over any
bytes the iterator ends, after no more items than there are bytes; the records
it yields stand one behind the other from the start, and an error comes last. -/
theorem iteration_faithful :
    (∀ records bytes, Encodes records bytes → Yields bytes (records.map .ok)) ∧
    ∀ bytes, ∃ items, (∀ others, Yields bytes others ↔ others = items) ∧
      items.length ≤ bytes.length ∧
      ∃ records failed, items = records.map .ok ++ failed ∧
        (failed = [] ∨ ∃ error, failed = [.error error]) ∧ Consecutive bytes records := by
  refine ⟨fun _ _ h => h.yields, fun bytes => ?_⟩
  obtain ⟨records, failed, hYields, hFailed, hCount, hConsecutive⟩ := exists_yields bytes
  refine ⟨_, fun others => ⟨hYields.unique, fun h => h ▸ hYields⟩, ?_, records, failed, rfl, hFailed,
    hConsecutive⟩
  rwa [length_append, length_map]

end RefineId.Ber
