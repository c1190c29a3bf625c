import RefineId.DocSign.ZipReader

/-! What the archive reader has consumed when it accepts: local entries in the
layout of the format. -/
namespace RefineId.DocSign

open Data List

section Words
variable {error : AsicReadError} {cursor after : Cursor} {value : Nat}

theorem word_eq_ok {width} :
    ((do let bytes ← Reader.take error error width
         pure (leValue bytes)) : ZipReader Nat) cursor = .ok (value, after) ↔
      value < 256 ^ width ∧ after.offset < 2 ^ 64 ∧
        Consumes cursor (leBytes width value) after := by
  rw [stateT_bind_eq_ok]
  constructor
  · rintro ⟨bytes, middle, hTake, hValue⟩
    obtain ⟨rfl, rfl⟩ := stateT_pure_eq_ok.mp hValue
    obtain ⟨rfl, hWord, hConsumes⟩ := take_eq_ok.mp hTake
    rw [leBytes_leValue]
    exact ⟨leValue_lt bytes, hWord, hConsumes⟩
  · rintro ⟨hValue, hWord, hConsumes⟩
    refine ⟨leBytes width value, after, take_eq_ok.mpr ⟨leBytes_length _ _, hWord, hConsumes⟩, ?_⟩
    rw [leValue_leBytes hValue, stateT_pure_apply]

theorem u16_eq_ok : u16 error cursor = .ok (value, after) ↔
      value < 2 ^ 16 ∧ after.offset < 2 ^ 64 ∧ Consumes cursor (leBytes 2 value) after :=
  word_eq_ok

theorem u32_eq_ok : u32 error cursor = .ok (value, after) ↔
      value < 2 ^ 32 ∧ after.offset < 2 ^ 64 ∧ Consumes cursor (leBytes 4 value) after :=
  word_eq_ok

theorem expect_eq_ok {signature} (hSignature : signature < 2 ^ 32) {done} :
    expect signature error cursor = .ok (done, after) ↔
      after.offset < 2 ^ 64 ∧ Consumes cursor (leBytes 4 signature) after := by
  rw [expect, stateT_bind_eq_ok]
  constructor
  · rintro ⟨found, middle, hFound, hSame⟩
    split at hSame
    next h =>
      obtain ⟨-, rfl⟩ := stateT_pure_eq_ok.mp hSame
      subst h
      exact (u32_eq_ok.mp hFound).2
    next => cases hSame
  · rintro ⟨hWord, hConsumes⟩
    refine ⟨signature, after, u32_eq_ok.mpr ⟨hSignature, hWord, hConsumes⟩, ?_⟩
    rw [if_pos rfl, stateT_pure_apply]

end Words

/-- The fields of a local header that no reader compares. -/
structure LocalStamp where
  versionNeeded : Nat
  modificationTime : Nat
  modificationDate : Nat

structure LocalStamp.Fits (stamp : LocalStamp) : Prop where
  versionNeeded : stamp.versionNeeded < 2 ^ 16
  modificationTime : stamp.modificationTime < 2 ^ 16
  modificationDate : stamp.modificationDate < 2 ^ 16

structure LocalHeader.Fits (header : LocalHeader) : Prop where
  flags : header.flags < 2 ^ 16
  method : header.method < 2 ^ 16
  crc : header.crc < 2 ^ 32
  compressedLen : header.compressedLen < 2 ^ 32
  uncompressedLen : header.uncompressedLen < 2 ^ 32
  nameLen : header.nameLen < 2 ^ 16
  extraLen : header.extraLen < 2 ^ 16

def LocalHeader.bytes (stamp : LocalStamp) (header : LocalHeader) : Bytes :=
  leBytes 2 stamp.versionNeeded ++ (leBytes 2 header.flags ++ (leBytes 2 header.method ++
    (leBytes 2 stamp.modificationTime ++ (leBytes 2 stamp.modificationDate ++
      (leBytes 4 header.crc ++ (leBytes 4 header.compressedLen ++
        (leBytes 4 header.uncompressedLen ++ (leBytes 2 header.nameLen ++
          leBytes 2 header.extraLen))))))))

open LocalHeader

theorem LocalHeader.bytes_length (stamp : LocalStamp) (header : LocalHeader) :
    (header.bytes stamp).length = 26 := by
  simp [bytes]

/-- A header is read exactly from its own bytes. -/
theorem LocalHeader.read_eq_ok {header cursor after} :
    read cursor = .ok (header, after) ↔ after.offset < 2 ^ 64 ∧ header.Fits ∧
        ∃ stamp : LocalStamp, stamp.Fits ∧ Consumes cursor (header.bytes stamp) after := by
  simp only [read, stateT_bind_eq_ok, stateT_pure_eq_ok]
  constructor
  · rintro ⟨version, _, hVersion, flags, _, hFlags, method, _, hMethod, time, _, hTime, date, _,
      hDate, crc, _, hCrc, compressed, _, hCompressed, uncompressed, _, hUncompressed, nameLen, _,
      hNameLen, extraLen, _, hExtraLen, rfl, rfl⟩
    rw [u16_eq_ok] at hVersion hFlags hMethod hTime hDate hNameLen hExtraLen
    rw [u32_eq_ok] at hCrc hCompressed hUncompressed
    refine ⟨hExtraLen.2.1, ⟨hFlags.1, hMethod.1, hCrc.1, hCompressed.1, hUncompressed.1,
      hNameLen.1, hExtraLen.1⟩, ⟨version, time, date⟩, ⟨hVersion.1, hTime.1, hDate.1⟩, ?_⟩
    exact hVersion.2.2.trans (hFlags.2.2.trans (hMethod.2.2.trans (hTime.2.2.trans
      (hDate.2.2.trans (hCrc.2.2.trans (hCompressed.2.2.trans (hUncompressed.2.2.trans
        (hNameLen.2.2.trans hExtraLen.2.2))))))))
  rintro ⟨hWord, hFits, stamp, hStamp, hConsumes⟩
  obtain ⟨c₁, h₁, hConsumes⟩ := hConsumes.split (leBytes 2 stamp.versionNeeded)
  obtain ⟨c₂, h₂, hConsumes⟩ := hConsumes.split (leBytes 2 header.flags)
  obtain ⟨c₃, h₃, hConsumes⟩ := hConsumes.split (leBytes 2 header.method)
  obtain ⟨c₄, h₄, hConsumes⟩ := hConsumes.split (leBytes 2 stamp.modificationTime)
  obtain ⟨c₅, h₅, hConsumes⟩ := hConsumes.split (leBytes 2 stamp.modificationDate)
  obtain ⟨c₆, h₆, hConsumes⟩ := hConsumes.split (leBytes 4 header.crc)
  obtain ⟨c₇, h₇, hConsumes⟩ := hConsumes.split (leBytes 4 header.compressedLen)
  obtain ⟨c₈, h₈, hConsumes⟩ := hConsumes.split (leBytes 4 header.uncompressedLen)
  obtain ⟨c₉, h₉, h₁₀⟩ := hConsumes.split (leBytes 2 header.nameLen)
  have b₉ : c₉.offset < 2 ^ 64 := by have := h₁₀.offset; omega
  have b₈ : c₈.offset < 2 ^ 64 := by have := h₉.offset; omega
  have b₇ : c₇.offset < 2 ^ 64 := by have := h₈.offset; omega
  have b₆ : c₆.offset < 2 ^ 64 := by have := h₇.offset; omega
  have b₅ : c₅.offset < 2 ^ 64 := by have := h₆.offset; omega
  have b₄ : c₄.offset < 2 ^ 64 := by have := h₅.offset; omega
  have b₃ : c₃.offset < 2 ^ 64 := by have := h₄.offset; omega
  have b₂ : c₂.offset < 2 ^ 64 := by have := h₃.offset; omega
  have b₁ : c₁.offset < 2 ^ 64 := by have := h₂.offset; omega
  exact ⟨_, c₁, u16_eq_ok.mpr ⟨hStamp.versionNeeded, b₁, h₁⟩,
    _, c₂, u16_eq_ok.mpr ⟨hFits.flags, b₂, h₂⟩,
    _, c₃, u16_eq_ok.mpr ⟨hFits.method, b₃, h₃⟩,
    _, c₄, u16_eq_ok.mpr ⟨hStamp.modificationTime, b₄, h₄⟩,
    _, c₅, u16_eq_ok.mpr ⟨hStamp.modificationDate, b₅, h₅⟩,
    _, c₆, u32_eq_ok.mpr ⟨hFits.crc, b₆, h₆⟩,
    _, c₇, u32_eq_ok.mpr ⟨hFits.compressedLen, b₇, h₇⟩,
    _, c₈, u32_eq_ok.mpr ⟨hFits.uncompressedLen, b₈, h₈⟩,
    _, c₉, u16_eq_ok.mpr ⟨hFits.nameLen, b₉, h₉⟩,
    _, after, u16_eq_ok.mpr ⟨hFits.extraLen, hWord, h₁₀⟩, rfl, rfl⟩

structure LocalParts.Fits (parts : LocalParts) : Prop where
  header : parts.header.Fits
  nameLen : parts.name.length = parts.header.nameLen
  extraLen : parts.extra.length = parts.header.extraLen

def LocalParts.bytes (stamp : LocalStamp) (parts : LocalParts) : Bytes :=
  leBytes 4 signatureLocalHeader ++ (parts.header.bytes stamp ++ (parts.name ++ parts.extra))

/-- Local parts are read exactly from their own bytes, under any stamp. -/
theorem readLocalParts_eq_ok {parts cursor after} :
    readLocalParts cursor = .ok (parts, after) ↔ after.offset < 2 ^ 64 ∧ parts.Fits ∧
        ∃ stamp : LocalStamp, stamp.Fits ∧ Consumes cursor (parts.bytes stamp) after := by
  simp only [readLocalParts, stateT_bind_eq_ok, stateT_pure_eq_ok]
  constructor
  · rintro ⟨_, _, hSignature, header, _, hHeader, name, _, hName, extra, _, hExtra, rfl, rfl⟩
    obtain ⟨-, hSignature⟩ := (expect_eq_ok (by decide)).mp hSignature
    obtain ⟨-, hFits, stamp, hStamp, hHeader⟩ := read_eq_ok.mp hHeader
    obtain ⟨hNameLen, -, hName⟩ := take_eq_ok.mp hName
    obtain ⟨hExtraLen, hWord, hExtra⟩ := take_eq_ok.mp hExtra
    exact ⟨hWord, ⟨hFits, hNameLen, hExtraLen⟩, stamp, hStamp,
      hSignature.trans (hHeader.trans (hName.trans hExtra))⟩
  rintro ⟨hWord, hFits, stamp, hStamp, hConsumes⟩
  obtain ⟨c₁, h₁, hConsumes⟩ := hConsumes.split (leBytes 4 signatureLocalHeader)
  obtain ⟨c₂, h₂, hConsumes⟩ := hConsumes.split (parts.header.bytes stamp)
  obtain ⟨c₃, h₃, h₄⟩ := hConsumes.split parts.name
  have b₃ : c₃.offset < 2 ^ 64 := by have := h₄.offset; omega
  have b₂ : c₂.offset < 2 ^ 64 := by have := h₃.offset; omega
  have b₁ : c₁.offset < 2 ^ 64 := by have := h₂.offset; omega
  exact ⟨(), c₁, (expect_eq_ok (by decide)).mpr ⟨b₁, h₁⟩,
    parts.header, c₂, read_eq_ok.mpr ⟨b₂, hFits.header, stamp, hStamp, h₂⟩,
    parts.name, c₃, take_eq_ok.mpr ⟨hFits.nameLen, b₃, h₃⟩,
    parts.extra, after, take_eq_ok.mpr ⟨hFits.extraLen, hWord, h₄⟩, rfl, rfl⟩

theorem LocalParts.bytes_length_le {parts : LocalParts} (h : parts.Fits) (stamp : LocalStamp) :
    (parts.bytes stamp).length < 2 ^ 18 := by
  have hName := h.header.nameLen
  have hExtra := h.header.extraLen
  simp only [LocalParts.bytes, length_append, bytes_length, leBytes_length, h.nameLen, h.extraLen]
  omega

/-- Where a local entry's data begins can be read off its bytes. -/
theorem LocalParts.bytes_append_inj {left right : LocalParts} {leftStamp rightStamp}
    (hLeft : left.Fits) (hRight : right.Fits) (hLeftStamp : leftStamp.Fits)
    (hRightStamp : rightStamp.Fits) {leftRest rightRest : Bytes}
    (h : left.bytes leftStamp ++ leftRest = right.bytes rightStamp ++ rightRest) :
    left = right ∧ leftRest = rightRest := by
  -- Both are read from one buffer, cut short enough for the machine word.
  let buffer := (left.bytes leftStamp ++ leftRest).take (2 ^ 18)
  have hLeftLen := LocalParts.bytes_length_le hLeft leftStamp
  have hRightLen := LocalParts.bytes_length_le hRight rightStamp
  have hLeftBuffer : ∃ rest, buffer = left.bytes leftStamp ++ rest := by
    refine ⟨leftRest.take (2 ^ 18 - (left.bytes leftStamp).length), ?_⟩
    change (left.bytes leftStamp ++ leftRest).take (2 ^ 18) = _
    rw [take_append, take_of_length_le hLeftLen.le]
  have hRightBuffer : ∃ rest, buffer = right.bytes rightStamp ++ rest := by
    refine ⟨rightRest.take (2 ^ 18 - (right.bytes rightStamp).length), ?_⟩
    change (left.bytes leftStamp ++ leftRest).take (2 ^ 18) = _
    rw [h, take_append, take_of_length_le hRightLen.le]
  have hReadLeft : readLocalParts ⟨buffer, 0⟩ =
      .ok (left, ⟨buffer, (left.bytes leftStamp).length⟩) :=
    readLocalParts_eq_ok.mpr ⟨by dsimp only; omega, hLeft, leftStamp, hLeftStamp,
      consumes_start.mpr ⟨hLeftBuffer, rfl⟩⟩
  have hReadRight : readLocalParts ⟨buffer, 0⟩ =
      .ok (right, ⟨buffer, (right.bytes rightStamp).length⟩) :=
    readLocalParts_eq_ok.mpr ⟨by dsimp only; omega, hRight, rightStamp, hRightStamp,
      consumes_start.mpr ⟨hRightBuffer, rfl⟩⟩
  have hSame := Except.ok.inj (hReadLeft.symm.trans hReadRight)
  have hParts : left = right := congrArg Prod.fst hSame
  have hLength : (left.bytes leftStamp).length = (right.bytes rightStamp).length :=
    congrArg (fun result => result.2.offset) hSame
  exact ⟨hParts, (append_inj h hLength).2⟩

end RefineId.DocSign
