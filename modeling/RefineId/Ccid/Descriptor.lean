import RefineId.Ccid.Engine

/-! The functional descriptor of one interface and setting, searched in the
descriptors of a USB configuration (`crates/ccid/src/descriptor.rs`). -/
namespace RefineId.Ccid

open Data List

def usbInterfaceDescriptorType : UInt8 := 0x04
def ccidInterfaceClass : UInt8 := 0x0B
def ccidFunctionalDescriptorType : UInt8 := 0x21

/-- The parsed descriptor: what the engine reads of it and its other fields. -/
structure ParsedDescriptor extends CcidFunctionalDescriptor where
  features : UInt32
  protocols : UInt32
  pinSupport : UInt8

def exchangeLevelOf (features : UInt32) : Except CcidError CcidExchangeLevel :=
  match features &&& 0x00070000 with
  | 0x00000000 => .ok .character
  | 0x00010000 => .ok .tpdu
  | 0x00020000 => .ok .shortApdu
  | 0x00040000 => .ok .shortAndExtendedApdu
  | _ => .error .invalidExchangeLevel

def minimumMessageLength : CcidExchangeLevel → Nat
  | .character => ccidHeaderSize + 1
  | .tpdu => ccidHeaderSize + 260
  | .shortApdu | .shortAndExtendedApdu => ccidHeaderSize + 261

def parseFunctionalDescriptor (bytes : Bytes) : Except CcidError ParsedDescriptor := do
  let word (offset : Nat) := leValue ((bytes.drop offset).take 4)
  if bytes.length < 54 then throw .ccidDescriptorTooShort
  if bytes.getD 1 0 ≠ ccidFunctionalDescriptorType then
    throw (.invalidCcidDescriptor (bytes.getD 1 0))
  let protocols := UInt32.ofNat (word 6)
  if protocols &&& 0x00000003 = 0 then throw .unsupportedProtocol
  let features := UInt32.ofNat (word 40)
  let exchangeLevel ← exchangeLevelOf features
  if features &&& 0x00000040 ≠ 0 ∧ features &&& 0x00000080 ≠ 0 then
    throw .invalidApduConfiguration
  if ccidHeaderSize + 65544 < word 44 then throw .messageLengthOutOfRange
  if word 44 < minimumMessageLength exchangeLevel then throw .transferMessageBoundTooSmall
  return ⟨⟨exchangeLevel, word 44, bytes.getD 4 0⟩, features, protocols, bytes.getD 52 0⟩

section Search
variable (interfaceNumber alternateSetting : UInt8)

/-- The test of an interface descriptor, on what follows its length and type. -/
def targets (body : Bytes) : Bool :=
  body[0]? = some interfaceNumber && body[1]? = some alternateSetting &&
    body[3]? = some ccidInterfaceClass

def searchDescriptors (isTargetInterface : Bool) : Bytes → Except CcidError ParsedDescriptor
  | [] => .error .missingCcidDescriptor
  | [_] => .error .truncatedDescriptorHeader
  | bLength :: descriptorType :: rest =>
    let body := rest.take (bLength.toNat - 2)
    let following := rest.drop (bLength.toNat - 2)
    if bLength.toNat < 2 then .error .invalidDescriptorLength
    else if rest.length + 2 < bLength.toNat then .error .truncatedDescriptor
    else if descriptorType = usbInterfaceDescriptorType then
      if bLength.toNat < 9 then .error .invalidInterfaceDescriptor
      else searchDescriptors (targets interfaceNumber alternateSetting body) following
    else if descriptorType = ccidFunctionalDescriptorType ∧ isTargetInterface then
      parseFunctionalDescriptor (bLength :: descriptorType :: body)
    else searchDescriptors isTargetInterface following
termination_by remaining => remaining.length
decreasing_by all_goals simp only [length_drop, length_cons]; omega

def parseFromUsbDescriptors (rawDescriptors : Bytes) : Except CcidError ParsedDescriptor :=
  searchDescriptors interfaceNumber alternateSetting false rawDescriptors

end Search

/-- A descriptor behind its length and its type. An interface descriptor has
its fields. -/
structure UsbDescriptor where
  kind : UInt8
  body : Bytes
  fits : body.length ≤ 253
  fields : kind = usbInterfaceDescriptorType → 7 ≤ body.length

namespace UsbDescriptor

variable (descriptor : UsbDescriptor)

def octets : Bytes :=
  UInt8.ofNat (descriptor.body.length + 2) :: descriptor.kind :: descriptor.body

variable (number setting : UInt8)

/-- A functional descriptor, and the last interface descriptor before it is the
CCID interface of this number at this setting. -/
def placed (passed : List UsbDescriptor) (found : UsbDescriptor) : Bool :=
  found.kind = ccidFunctionalDescriptorType ∧
    (passed.findRev? (·.kind = usbInterfaceDescriptorType)).any (targets number setting ·.body)

/-- None of the descriptors is placed behind the passed ones. -/
def Unplaced (passed descriptors : List UsbDescriptor) : Prop :=
  ∀ first descriptor last, descriptors = first ++ descriptor :: last →
    ¬placed number setting (passed ++ first) descriptor

/-- The loop with the flag that the passed descriptors have left. -/
abbrev searchAfter (passed : List UsbDescriptor) (bytes : Bytes) :
    Except CcidError ParsedDescriptor :=
  searchDescriptors number setting
    ((passed.findRev? (·.kind = usbInterfaceDescriptorType)).any (targets number setting ·.body)) bytes

variable {number setting} {passed : List UsbDescriptor}

theorem search_octets (rest : Bytes) :
    searchAfter number setting passed (descriptor.octets ++ rest) =
      if placed number setting passed descriptor then parseFunctionalDescriptor descriptor.octets
      else searchAfter number setting (passed ++ [descriptor]) rest := by
  have hFits := descriptor.fits
  have hLength : (UInt8.ofNat (descriptor.body.length + 2)).toNat = descriptor.body.length + 2 := by
    rw [UInt8.toNat_ofNat']
    omega
  rw [octets, cons_append, cons_append, searchAfter, searchDescriptors]
  simp only [hLength, Nat.add_sub_cancel, take_left, drop_left, length_append, searchAfter, placed,
    findRev?_eq_find?_reverse, reverse_append, reverse_singleton, singleton_append, find?_cons]
  rw [if_neg (by omega), if_neg (by omega)]
  by_cases hKind : descriptor.kind = usbInterfaceDescriptorType
  · have hFields := descriptor.fields hKind
    have hOther : usbInterfaceDescriptorType ≠ ccidFunctionalDescriptorType := by decide
    rw [if_pos hKind, if_neg (by omega)]
    simp [hKind, hOther]
  · simp [hKind]

variable {bytes : Bytes} {found : ParsedDescriptor}

theorem framed (h : searchAfter number setting passed bytes = .ok found) :
    ∃ descriptor rest, bytes = octets descriptor ++ rest := by
  rcases bytes with _ | ⟨bLength, _ | ⟨descriptorType, rest⟩⟩
  · rw [searchAfter, searchDescriptors] at h
    cases h
  · rw [searchAfter, searchDescriptors] at h
    cases h
  rw [searchAfter, searchDescriptors] at h
  split at h
  · cases h
  split at h
  · cases h
  have hByte := bLength.toNat_lt
  have hBody : (rest.take (bLength.toNat - 2)).length = bLength.toNat - 2 := by
    rw [length_take]
    omega
  refine ⟨⟨descriptorType, rest.take (bLength.toNat - 2), by omega, fun hKind => ?_⟩,
    rest.drop (bLength.toNat - 2), ?_⟩
  · rw [if_pos hKind] at h
    split_ifs at h
    omega
  · simp only [octets, hBody, cons_append, take_append_drop]
    rw [Nat.sub_add_cancel (by omega), UInt8.ofNat_toNat]

theorem search_list {descriptors} (rest : Bytes) (h : Unplaced number setting passed descriptors) :
    searchAfter number setting passed (descriptors.flatMap octets ++ rest) =
      searchAfter number setting (passed ++ descriptors) rest := by
  induction descriptors generalizing passed with
  | nil => rw [append_nil]; rfl
  | cons descriptor descriptors ih =>
    have hHead : ¬placed number setting passed descriptor := by
      simpa using h [] descriptor descriptors rfl
    rw [flatMap_cons, append_assoc, search_octets, if_neg hHead, ih, append_assoc]
    · rfl
    · intro first other last hSplit
      simpa using h (descriptor :: first) other last (by rw [hSplit, cons_append])

theorem search_sound (h : searchAfter number setting passed bytes = .ok found) :
    ∃ more functional rest, bytes = more.flatMap octets ++ (octets functional ++ rest) ∧
      placed number setting (passed ++ more) functional ∧
      parseFunctionalDescriptor functional.octets = .ok found := by
  induction hLength : bytes.length using Nat.strongRecOn generalizing bytes passed with
  | _ length ih =>
    obtain ⟨descriptor, rest, rfl⟩ := framed h
    rw [search_octets] at h
    split at h
    · rename_i hPlaced
      exact ⟨[], descriptor, rest, rfl, by simpa using hPlaced, h⟩
    · have hShorter : rest.length < length := by
        rw [← hLength, octets, length_append, length_cons]
        omega
      obtain ⟨more, functional, last, rfl, hFound⟩ := ih _ hShorter h rfl
      exact ⟨descriptor :: more, functional, last, by simp, by simpa using hFound⟩

/-- For every interface number and setting, the search over well-formed
descriptors returns what the first functional descriptor of that CCID interface
and setting parses to, whatever bytes follow it, and finds none where there is
none. Whatever a search over any bytes returns is such a descriptor, at its own
place behind whole descriptors. -/
theorem descriptor_of_interface (number setting : UInt8) :
    (∀ passed functional rest, placed number setting passed functional →
      Unplaced number setting [] passed →
      parseFromUsbDescriptors number setting (passed.flatMap octets ++ (functional.octets ++ rest)) =
        parseFunctionalDescriptor functional.octets) ∧
    (∀ descriptors, Unplaced number setting [] descriptors →
      parseFromUsbDescriptors number setting (descriptors.flatMap octets) =
        .error .missingCcidDescriptor) ∧
    ∀ bytes found, parseFromUsbDescriptors number setting bytes = .ok found →
      ∃ passed functional rest, bytes = passed.flatMap octets ++ (octets functional ++ rest) ∧
        placed number setting passed functional ∧
        parseFunctionalDescriptor functional.octets = .ok found := by
  refine ⟨fun passed functional rest hPlaced hFirst => ?_, fun descriptors hNone => ?_,
    fun bytes found h => @search_sound _ _ [] _ _ h⟩
  · have hPassed := search_list (functional.octets ++ rest) hFirst
    rw [nil_append, search_octets, if_pos hPlaced] at hPassed
    exact hPassed
  · have hPassed := search_list [] hNone
    rw [append_nil, nil_append, searchAfter, searchAfter, searchDescriptors] at hPassed
    exact hPassed

/-- An interface of another class, at the number and setting asked for. -/
def otherClass : UsbDescriptor :=
  ⟨usbInterfaceDescriptorType, [0, 0, 2, 3, 0, 0, 0], by decide, fun _ => by decide⟩

def shortApduReader : UsbDescriptor :=
  ⟨ccidFunctionalDescriptorType, replicate 4 0 ++ 1 :: replicate 35 0 ++ [2, 0, 0x0F, 1] ++
    replicate 8 0, by decide, by decide⟩

theorem other_class_missed : (parseFunctionalDescriptor shortApduReader.octets).isOk ∧
      parseFromUsbDescriptors 0 0 ([otherClass, shortApduReader].flatMap octets) =
        .error .missingCcidDescriptor := by
  refine ⟨by decide, ?_⟩
  change searchAfter 0 0 [] (otherClass.octets ++ (shortApduReader.octets ++ [])) = _
  rw [search_octets, if_neg (by decide), search_octets, if_neg (by decide), searchAfter,
    searchDescriptors]

end UsbDescriptor

end RefineId.Ccid
