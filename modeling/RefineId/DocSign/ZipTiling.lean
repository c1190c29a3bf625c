import RefineId.DocSign.ZipFormat

/-! Nothing hides in an accepted archive: the bytes before the central directory
are the local entries of its records, one after another. -/
namespace RefineId.DocSign

open Data List Except

/-- What stands in the archive for one record. -/
structure LocalEntry where
  stamp : LocalStamp
  parts : LocalParts
  data : Bytes
  descriptor : Bytes

def LocalEntry.bytes (entry : LocalEntry) : Bytes :=
  entry.parts.bytes entry.stamp ++ (entry.data ++ entry.descriptor)

/-- The checksum and the sizes of a record, as a data descriptor repeats them. -/
def CentralRecord.descriptorBody (record : CentralRecord) : Bytes :=
  leBytes 4 record.crc ++ (leBytes 4 record.compressedLen ++ leBytes 4 record.uncompressedLen)

/-- A local entry and its record agree. Only a data descriptor excuses zeros in
the header. -/
structure LocalEntry.Agrees (entry : LocalEntry) (record : CentralRecord) : Prop where
  stamp : entry.stamp.Fits
  parts : entry.parts.Fits
  flags : entry.parts.header.flags = record.flags
  method : entry.parts.header.method = record.method
  name : entry.parts.name = record.name
  crc : entry.parts.header.crc = record.crc ∨
    hasDescriptor record.flags = true ∧ entry.parts.header.crc = 0
  compressedLen : entry.parts.header.compressedLen = record.compressedLen ∨
    hasDescriptor record.flags = true ∧ entry.parts.header.compressedLen = 0
  uncompressedLen : entry.parts.header.uncompressedLen = record.uncompressedLen ∨
    hasDescriptor record.flags = true ∧ entry.parts.header.uncompressedLen = 0
  dataLen : entry.data.length = record.compressedLen
  descriptor : entry.descriptor = [] ∧ hasDescriptor record.flags = false ∨
    hasDescriptor record.flags = true ∧ (entry.descriptor = record.descriptorBody ∨
      entry.descriptor = leBytes 4 signatureDataDescriptor ++ record.descriptorBody)

def StandsAt (bytes : Bytes) (offset : Nat) (piece : Bytes) : Prop :=
  ∃ before rest, bytes = before ++ (piece ++ rest) ∧ before.length = offset

/-- A relative path without empty, current or parent components. -/
structure PlainPath (name : String) : Prop where
  nonempty : name.toList ≠ []
  relative : name.toList.head? ≠ some '/'
  separator : '\\' ∉ name.toList
  printable : ∀ c ∈ name.toList, isControl c = false
  components : ∀ component ∈ name.toList.splitOn '/', plainComponent component = true

theorem plainEntryName_file {bytes name}
    (h : plainEntryName bytes = .ok (some name)) : fromUtf8 bytes = some name ∧ PlainPath name := by
  rw [plainEntryName] at h
  cases hText : fromUtf8 bytes with
  | none =>
    rw [hText] at h
    cases h
  | some text =>
    rw [hText] at h
    dsimp only at h
    split_ifs at h with hEmpty hAbsolute hBackslash hControl hComponents hDirectory
    · cases h
    obtain rfl := Option.some.inj (ok.inj h)
    have hPath : (stripDirectory text.toList).1 = text.toList := by
      unfold stripDirectory at hDirectory ⊢
      split_ifs at hDirectory ⊢ with hLast
      · exact absurd rfl hDirectory
      · rfl
    rw [hPath] at hComponents
    refine ⟨rfl, hEmpty, hAbsolute, hBackslash, ?_, all_eq_true.mp hComponents⟩
    intro c hc
    exact Bool.eq_false_iff.mpr fun hBad => hControl (any_eq_true.mpr ⟨c, hc, hBad⟩)

variable {record : CentralRecord}

section Descriptor
variable {cursor after : Cursor}

theorem readDataDescriptor_consumes (h : readDataDescriptor record cursor = .ok after) :
    ∃ descriptor, (descriptor = record.descriptorBody ∨
        descriptor = leBytes 4 signatureDataDescriptor ++ record.descriptorBody) ∧
      Consumes cursor descriptor after := by
  simp only [readDataDescriptor, bind_eq_ok] at h
  obtain ⟨start, hStart, ⟨crc, afterCrc⟩, hCrc, ⟨compressed, afterCompressed⟩, hCompressed,
    ⟨uncompressed, last⟩, hUncompressed, h⟩ := h
  split_ifs at h with hDiffer
  push Not at hDiffer
  obtain ⟨rfl, rfl, rfl⟩ := hDiffer
  obtain rfl := ok.inj h
  have hBody : Consumes start record.descriptorBody last :=
    (u32_eq_ok.mp hCrc).2.2.trans ((u32_eq_ok.mp hCompressed).2.2.trans
      (u32_eq_ok.mp hUncompressed).2.2)
  rw [skipDescriptorSignature] at hStart
  split_ifs at hStart with hWord
  · obtain ⟨⟨word, middle⟩, hRead, rfl⟩ := map_eq_ok.mp hStart
    have hSame : u32 .notAZip cursor = .ok (word, middle) := u32_eq_ok.mpr (u32_eq_ok.mp hRead)
    rw [wordAt, hSame] at hWord
    cases hWord
    exact ⟨_, .inr rfl, (u32_eq_ok.mp hRead).2.2.trans hBody⟩
  · cases hStart
    exact ⟨_, .inl rfl, hBody⟩

end Descriptor

section Record
variable (inflate : Inflate)

/-- A record, what stands in the archive for it, and the file returned for it. -/
structure Placed where
  record : CentralRecord
  stands : LocalEntry
  entry : Option LocatedEntry

variable (placed : Placed)

def Placed.extent : LocalExtent :=
  ⟨placed.record.localOffset, placed.record.localOffset + placed.stands.bytes.length⟩

/-- A directory returns no file. A file has a plain path, and the declared size
and checksum; a deflated one is what its data begins with. -/
def Placed.Returns : Prop :=
  match placed.entry with
  | none => plainEntryName placed.record.name = .ok none ∧ placed.record.uncompressedLen = 0
  | some located =>
    plainEntryName placed.record.name = .ok (some located.entry.name) ∧
    located.localOffset = placed.record.localOffset ∧
    located.entry.content.length = placed.record.uncompressedLen ∧
    crc32 located.entry.content = placed.record.crc ∧
    (placed.record.method = methodStored ∧ placed.stands.data = located.entry.content ∨
      placed.record.method = methodDeflated ∧
        ∃ tail, inflate placed.stands.data = some (located.entry.content, tail))

/-- The data of the entry is the stored form of what is returned for it, and
nothing else. -/
def Placed.OnlyContent : Prop :=
  match placed.entry with
  | none => placed.stands.data = []
  | some located =>
    placed.record.method = methodStored ∧ placed.stands.data = located.entry.content ∨
      placed.record.method = methodDeflated ∧
        inflate placed.stands.data = some (located.entry.content, [])

/-- The octets the reader takes as a record's data. -/
def storedData (bytes : Bytes) (record : CentralRecord) : Bytes :=
  match readLocalParts ⟨bytes, record.localOffset⟩ with
  | .ok (_, cursor) => (bytes.drop cursor.offset).take record.compressedLen
  | .error _ => []

structure Placed.Sound (bytes : Bytes) (placed : Placed) : Prop where
  agrees : placed.stands.Agrees placed.record
  standsAt : StandsAt bytes placed.record.localOffset placed.stands.bytes
  data : placed.stands.data = storedData bytes placed.record
  returns : placed.Returns inflate

variable {inflate}

theorem LocalHeader.sizes_of_agree {header : LocalHeader} (hFlags : header.flags = record.flags)
    (h : header.sizesAgree record = true) :
    (header.crc = record.crc ∨ hasDescriptor record.flags = true ∧ header.crc = 0) ∧
    (header.compressedLen = record.compressedLen ∨
      hasDescriptor record.flags = true ∧ header.compressedLen = 0) ∧
    (header.uncompressedLen = record.uncompressedLen ∨
      hasDescriptor record.flags = true ∧ header.uncompressedLen = 0) := by
  rw [LocalHeader.sizesAgree, hFlags] at h
  split_ifs at h with hDescriptor
  · simp only [Bool.and_eq_true, Bool.or_eq_true, decide_eq_true_eq] at h
    simp only [hDescriptor, true_and]
    exact ⟨h.1.1.symm, h.1.2.symm, h.2.symm⟩
  · simp only [Bool.and_eq_true, decide_eq_true_eq] at h
    exact ⟨.inl h.1.1, .inl h.1.2, .inl h.2⟩

theorem decodeContent_eq_ok {stored content}
    (h : decodeContent inflate record stored = .ok content) :
    record.method = methodStored ∧ stored = content ∨
      record.method = methodDeflated ∧ ∃ tail, inflate stored = some (content, tail) := by
  rw [decodeContent] at h
  split_ifs at h with hStored hDeflated
  · exact .inl ⟨hStored, ok.inj h⟩
  refine .inr ⟨hDeflated, ?_⟩
  rw [decompressToVecWithLimit] at h
  cases hInflate : inflate stored with
  | none =>
    rw [hInflate] at h
    cases h
  | some result =>
    obtain ⟨inflated, tail⟩ := result
    rw [hInflate] at h
    dsimp only at h
    split_ifs at h with hLimit
    · obtain rfl := ok.inj h
      exact ⟨tail, rfl⟩

variable {entry : Option LocatedEntry}

theorem readFile_returns {stands}
    (h : readFile inflate record stands.parts stands.data = .ok entry) :
    (⟨record, stands, entry⟩ : Placed).Returns inflate := by
  rw [readFile, bind_eq_ok] at h
  obtain ⟨name, hName, h⟩ := h
  cases name with
  | none =>
    dsimp only at h
    split_ifs at h with hContent
    obtain rfl := ok.inj h
    exact ⟨hName, not_not.mp hContent⟩
  | some name =>
    dsimp only at h
    split_ifs at h with hAttribute
    obtain ⟨content, hDecoded, h⟩ := bind_eq_ok.mp h
    split_ifs at h with hLength hCrc
    obtain rfl := ok.inj h
    exact ⟨hName, rfl, not_not.mp hLength, not_not.mp hCrc, decodeContent_eq_ok hDecoded⟩

theorem readTrailer_consumes {flags cursor after}
    (h : readTrailer flags record cursor = .ok after) :
    ∃ descriptor, (descriptor = [] ∧ hasDescriptor flags = false ∧ after = cursor) ∨
      hasDescriptor flags = true ∧ (descriptor = record.descriptorBody ∨
        descriptor = leBytes 4 signatureDataDescriptor ++ record.descriptorBody) ∧
      Consumes cursor descriptor after := by
  rw [readTrailer] at h
  split_ifs at h with hDescriptor
  · obtain ⟨descriptor, hForm, hConsumes⟩ := readDataDescriptor_consumes h
    exact ⟨descriptor, .inr ⟨hDescriptor, hForm, hConsumes⟩⟩
  · exact ⟨[], .inl ⟨rfl, Bool.eq_false_iff.mpr hDescriptor, (ok.inj h).symm⟩⟩

/-- An entry that is read stands where its record says. -/
theorem readLocalEntry_sound {bytes} {extent : LocalExtent}
    (h : readLocalEntry inflate bytes record = .ok (entry, extent)) :
    ∃ placed : Placed, placed.record = record ∧ placed.entry = entry ∧
      placed.extent = extent ∧ placed.Sound inflate bytes := by
  rw [readLocalEntry, bind_eq_ok] at h
  obtain ⟨⟨parts, afterParts⟩, hParts, h⟩ := h
  obtain ⟨⟨⟩, hCheck, h⟩ := bind_eq_ok.mp h
  obtain ⟨⟨stored, afterData⟩, hStored, h⟩ := bind_eq_ok.mp h
  obtain ⟨last, hTrailer, h⟩ := bind_eq_ok.mp h
  obtain ⟨found, hFile, h⟩ := bind_eq_ok.mp h
  obtain ⟨rfl, rfl⟩ := Prod.mk.inj (ok.inj h)
  obtain ⟨-, hFits, stamp, hStamp, hConsumes⟩ := readLocalParts_eq_ok.mp hParts
  rw [LocalParts.check] at hCheck
  split_ifs at hCheck with hEncrypted hDiffer
  push Not at hDiffer
  obtain ⟨hFlags, hMethod, hSizes, hName⟩ := hDiffer
  obtain ⟨hCrc, hCompressed, hUncompressed⟩ :=
    LocalHeader.sizes_of_agree hFlags (Bool.not_eq_false _ ▸ hSizes)
  obtain ⟨hLength, -, hData⟩ := take_eq_ok.mp hStored
  obtain ⟨descriptor, hDescriptor⟩ := readTrailer_consumes hTrailer
  rw [hFlags] at hDescriptor
  have hWhole : Consumes ⟨bytes, record.localOffset⟩
      (LocalEntry.bytes ⟨stamp, parts, stored, descriptor⟩) last := by
    rcases hDescriptor with ⟨rfl, -, rfl⟩ | ⟨-, -, hTail⟩
    · rw [LocalEntry.bytes, append_nil]
      exact hConsumes.trans hData
    · exact hConsumes.trans (hData.trans hTail)
  have hSource : stored = storedData bytes record := by
    obtain ⟨before, rest, hBytes, hBefore⟩ := hData.stands
    have hWhole : bytes = before ++ (stored ++ rest) := hConsumes.bytes.symm.trans hBytes
    rw [storedData, hParts]
    dsimp only
    rw [hWhole, ← hBefore, drop_left, ← hLength, take_left]
  refine ⟨⟨record, ⟨stamp, parts, stored, descriptor⟩, found⟩, rfl, rfl, ?_, ?_, ?_, hSource, ?_⟩
  · rw [Placed.extent, hWhole.offset]
  · refine ⟨hStamp, hFits, hFlags, hMethod, hName, hCrc, hCompressed, hUncompressed, hLength, ?_⟩
    rcases hDescriptor with ⟨rfl, hNone, -⟩ | ⟨hSome, hForm, -⟩
    · exact .inl ⟨rfl, hNone⟩
    · exact .inr ⟨hSome, hForm⟩
  · exact hWhole.stands
  · exact readFile_returns hFile

end Record

variable {inflate : Inflate} {toLowercase : String → String} {bytes : Bytes}
  {placed : List Placed} {records : List CentralRecord}

open Placed

def foldedNamesOf (toLowercase : String → String) (placed : List Placed) : List String :=
  (placed.filterMap entry).map fun located => toLowercase located.entry.name

structure ReadEntries.After (inflate : Inflate) (toLowercase : String → String) (bytes : Bytes)
    (read : ReadEntries) (placed : List Placed) : Prop where
  sound : ∀ one ∈ placed, one.Sound inflate bytes
  entries : read.entries = placed.filterMap entry
  extents : read.extents = placed.map extent
  foldedNames : read.foldedNames = (foldedNamesOf toLowercase placed).reverse
  distinct : read.foldedNames.Nodup

theorem ReadEntries.after_empty : ReadEntries.empty.After inflate toLowercase bytes [] where
  sound := by simp
  entries := rfl
  extents := rfl
  foldedNames := rfl
  distinct := nodup_nil

/-- One more record keeps what is known of the ones before. -/
theorem ReadEntries.After.add {read next : ReadEntries}
    (hAfter : read.After inflate toLowercase bytes placed)
    (h : read.add inflate toLowercase bytes record = .ok next) :
    ∃ one : Placed, one.record = record ∧
      next.After inflate toLowercase bytes (placed ++ [one]) := by
  rw [ReadEntries.add] at h
  split_ifs at h with hTotal
  obtain ⟨⟨entry, extent⟩, hLocal, h⟩ := bind_eq_ok.mp h
  obtain ⟨one, hRecord, hEntry, hExtent, hSound⟩ := readLocalEntry_sound hLocal
  have hAll : ∀ other ∈ placed ++ [one], other.Sound inflate bytes :=
    forall_mem_snoc hAfter.sound hSound
  refine ⟨one, hRecord, ?_⟩
  cases entry with
  | none =>
    obtain rfl := ok.inj h
    have hNone : [one].filterMap entry = [] := by simp [hEntry]
    refine ⟨hAll, ?_, ?_, ?_, hAfter.distinct⟩
    · rw [filterMap_append, hNone, append_nil]
      exact hAfter.entries
    · rw [map_append, map_singleton, hExtent, ← hAfter.extents]
    · rw [foldedNamesOf, filterMap_append, hNone, append_nil]
      exact hAfter.foldedNames
  | some located =>
    dsimp only at h
    split_ifs at h with hDuplicate
    obtain rfl := ok.inj h
    have hSome : [one].filterMap entry = [located] := by simp [hEntry]
    refine ⟨hAll, ?_, ?_, ?_, nodup_cons.mpr ⟨hDuplicate, hAfter.distinct⟩⟩
    · rw [filterMap_append, hSome, ← hAfter.entries]
    · rw [map_append, map_singleton, hExtent, ← hAfter.extents]
    rw [foldedNamesOf, filterMap_append, hSome, map_append, reverse_append,
      ← foldedNamesOf, ← hAfter.foldedNames]
    rfl

theorem ReadEntries.After.foldlM {read last : ReadEntries}
    (hAfter : read.After inflate toLowercase bytes placed)
    (h : records.foldlM (fun read record => read.add inflate toLowercase bytes record) read =
      .ok last) :
    ∃ more : List Placed, more.map Placed.record = records ∧
      last.After inflate toLowercase bytes (placed ++ more) := by
  induction records generalizing read placed with
  | nil =>
    obtain rfl := ok.inj h
    exact ⟨[], rfl, by rwa [append_nil]⟩
  | cons record records ih =>
    rw [foldlM_cons] at h
    obtain ⟨next, hNext, hRest⟩ := bind_eq_ok.mp h
    obtain ⟨one, rfl, hOne⟩ := hAfter.add hNext
    obtain ⟨more, rfl, hMore⟩ := ih hOne hRest
    refine ⟨one :: more, rfl, ?_⟩
    rwa [append_assoc] at hMore

section Tiling
/-- Entries one after another from an offset. -/
def Tiled : Nat → List Placed → Prop
  | _, [] => True
  | offset, one :: rest =>
    one.record.localOffset = offset ∧ Tiled (offset + one.stands.bytes.length) rest

def concatenation (order : List Placed) : Bytes :=
  (order.map fun one => one.stands.bytes).flatten

variable {order : List Placed}

theorem followExtents_tiled {offset stop} (h : followExtents offset (order.map extent) = .ok stop) :
    Tiled offset order ∧ stop = offset + (concatenation order).length := by
  induction order generalizing offset with
  | nil =>
    obtain rfl := ok.inj h
    exact ⟨trivial, rfl⟩
  | cons one order ih =>
    rw [map_cons, followExtents] at h
    split_ifs at h with hStart
    have hOffset : one.record.localOffset = offset := not_not.mp hStart
    obtain ⟨hTiled, hStop⟩ := ih h
    rw [extent] at hTiled hStop
    rw [hOffset] at hTiled hStop
    refine ⟨⟨hOffset, hTiled⟩, ?_⟩
    rw [hStop, concatenation, concatenation, map_cons, flatten_cons, length_append, Nat.add_assoc]

theorem Tiled.drop_eq {offset} (hTiled : Tiled offset order) (hOffset : offset ≤ bytes.length)
    (hStands : ∀ one ∈ order, StandsAt bytes one.record.localOffset one.stands.bytes) :
    ∃ rest, bytes.drop offset = concatenation order ++ rest := by
  induction order generalizing offset with
  | nil => exact ⟨bytes.drop offset, rfl⟩
  | cons one order ih =>
    obtain ⟨rfl, hTiled⟩ := hTiled
    obtain ⟨before, after, hBytes, hBefore⟩ := hStands one mem_cons_self
    have hDrop : bytes.drop one.record.localOffset = one.stands.bytes ++ after := by
      rw [hBytes, ← hBefore, drop_left]
    have hInside : one.record.localOffset + one.stands.bytes.length ≤ bytes.length := by
      have hLength := congrArg List.length hDrop
      rw [length_drop, length_append] at hLength
      omega
    obtain ⟨rest, hRest⟩ := ih hTiled hInside fun other hOther =>
      hStands other (mem_cons_of_mem _ hOther)
    refine ⟨rest, ?_⟩
    have hAfter : after = bytes.drop (one.record.localOffset + one.stands.bytes.length) := by
      rw [← drop_drop, hDrop, drop_left]
    rw [hDrop, hAfter, hRest, concatenation, concatenation, map_cons, flatten_cons, append_assoc]

theorem requireExactTiling_tiles {centralOffset}
    (h : requireExactTiling (placed.map extent) centralOffset = .ok ())
    (hStands : ∀ one ∈ placed, StandsAt bytes one.record.localOffset one.stands.bytes) :
    ∃ order : List Placed, order.Perm placed ∧ Tiled 0 order ∧
      bytes.take centralOffset = concatenation order := by
  rw [requireExactTiling] at h
  obtain ⟨stop, hFollow, h⟩ := bind_eq_ok.mp h
  split_ifs at h with hStop
  let order := placed.insertionSort fun left right => left.extent.start ≤ right.extent.start
  have hPerm : order.Perm placed := perm_insertionSort _ _
  have hSorted : order.map extent =
      (placed.map extent).insertionSort fun left right => left.start ≤ right.start :=
    map_insertionSort _ _ _ _ fun _ _ _ _ => Iff.rfl
  rw [← hSorted] at hFollow
  obtain ⟨hTiled, hEnd⟩ := followExtents_tiled hFollow
  obtain ⟨rest, hRest⟩ := hTiled.drop_eq (Nat.zero_le bytes.length) fun one hOne =>
    hStands one (hPerm.mem_iff.mp hOne)
  refine ⟨order, hPerm, hTiled, ?_⟩
  rw [Nat.zero_add] at hEnd
  rw [drop_zero] at hRest
  rw [← not_not.mp hStop, hEnd, hRest, take_left]

end Tiling

section Archive
/-- Two entries that agree with a record and stand where it says hold the same
data. -/
theorem LocalEntry.Agrees.data_unique {left right : LocalEntry} (hLeft : left.Agrees record)
    (hRight : right.Agrees record) (hLeftAt : StandsAt bytes record.localOffset left.bytes)
    (hRightAt : StandsAt bytes record.localOffset right.bytes) : left.data = right.data := by
  obtain ⟨leftBefore, leftRest, hBytes, hLeftBefore⟩ := hLeftAt
  obtain ⟨rightBefore, rightRest, hSame, hRightBefore⟩ := hRightAt
  rw [hBytes] at hSame
  have hEntries := (append_inj hSame (hLeftBefore.trans hRightBefore.symm)).2
  simp only [LocalEntry.bytes, append_assoc] at hEntries
  obtain ⟨-, hData⟩ := LocalParts.bytes_append_inj hLeft.parts hRight.parts hLeft.stamp
    hRight.stamp hEntries
  exact (append_inj hData (hLeft.dataLen.trans hRight.dataLen.symm)).1

/-- The archive before its directory is the entries of the directory's records,
and they hold the files returned and nothing else. -/
structure NothingHides (inflate : Inflate) (toLowercase : String → String) (bytes : Bytes)
    (records : List CentralRecord) (centralOffset : Nat) (files : List LocatedEntry)
    (placed : List Placed) : Prop where
  exactly : placed.map Placed.record = records
  returned : placed.filterMap Placed.entry = files
  agrees : ∀ one ∈ placed, one.stands.Agrees one.record
  standsAt : ∀ one ∈ placed, StandsAt bytes one.record.localOffset one.stands.bytes
  returns : ∀ one ∈ placed, one.Returns inflate
  onlyContent : ∀ one ∈ placed, one.OnlyContent inflate
  tiles : ∃ order : List Placed, order.Perm placed ∧ Tiled 0 order ∧
    bytes.take centralOffset = concatenation order
  plain : ∀ located ∈ files, PlainPath located.entry.name
  distinct : (files.map fun located => toLowercase located.entry.name).Nodup

/-- A directory declares no data, and the data of a deflated file ends with its
final block. -/
structure CentralRecord.NoSpare (inflate : Inflate) (bytes : Bytes) (record : CentralRecord) :
    Prop where
  directory : plainEntryName record.name = .ok none → record.compressedLen = 0
  deflated : ∀ name, plainEntryName record.name = .ok (some name) →
    record.method = methodDeflated → ∀ content tail,
      inflate (storedData bytes record) = some (content, tail) → tail = []

/-- Nothing to spare in a record is nothing but content in its entry. -/
theorem Placed.Sound.onlyContent_iff {one : Placed} (h : one.Sound inflate bytes) :
    one.OnlyContent inflate ↔ one.record.NoSpare inflate bytes := by
  have hReturns := h.returns
  have hLength := h.agrees.dataLen
  rw [Returns] at hReturns
  rw [OnlyContent]
  cases hEntry : one.entry with
  | none =>
    rw [hEntry] at hReturns
    constructor
    · intro hEmpty
      refine ⟨fun _ => ?_, fun name hName => ?_⟩
      · rw [← hLength, hEmpty, length_nil]
      · rw [hReturns.1] at hName
        cases hName
    · intro hSpare
      rw [hSpare.directory hReturns.1] at hLength
      exact length_eq_zero_iff.mp hLength
  | some located =>
    rw [hEntry] at hReturns
    obtain ⟨hName, -, -, -, hForm⟩ := hReturns
    constructor
    · intro hOnly
      refine ⟨fun hNone => ?_, fun name _ hDeflated content tail hInflate => ?_⟩
      · rw [hName] at hNone
        cases hNone
      rw [← h.data] at hInflate
      rcases hOnly with ⟨hStored, -⟩ | ⟨-, hExact⟩
      · rw [hStored] at hDeflated
        exact absurd hDeflated (by decide)
      · rw [hExact] at hInflate
        exact (Prod.mk.inj (Option.some.inj hInflate)).2.symm
    · intro hSpare
      rcases hForm with hStored | ⟨hDeflated, tail, hInflate⟩
      · exact .inl hStored
      · have hTail := hSpare.deflated _ hName hDeflated _ tail (h.data ▸ hInflate)
        exact .inr ⟨hDeflated, hTail ▸ hInflate⟩

section Accepted
variable {files : List LocatedEntry} {found : EndOfDirectory}
  (h : readZip inflate toLowercase bytes = .ok files)
  (hFound : findEndOfDirectory bytes = .ok found)
  (hRecords : readCentralDirectory bytes found = .ok records)
include h hFound hRecords

/-- What an accepted archive is known to hold. -/
theorem readZip_eq_ok : ∃ placed : List Placed, placed.map Placed.record = records ∧
      placed.filterMap Placed.entry = files ∧ (∀ one ∈ placed, one.Sound inflate bytes) ∧
      (foldedNamesOf toLowercase placed).Nodup ∧
      requireExactTiling (placed.map Placed.extent) found.centralOffset = .ok () := by
  rw [readZip] at h
  split_ifs at h with hSignature
  rw [hFound, ok_bind, hRecords, ok_bind] at h
  obtain ⟨read, hRead, h⟩ := bind_eq_ok.mp h
  obtain ⟨⟨⟩, hTiling, h⟩ := bind_eq_ok.mp h
  obtain rfl := ok.inj h
  obtain ⟨placed, hPlaced, hAfter⟩ := ReadEntries.after_empty.foldlM hRead
  rw [nil_append] at hAfter
  refine ⟨placed, hPlaced, hAfter.entries.symm, hAfter.sound, ?_, hAfter.extents ▸ hTiling⟩
  have hDistinct := hAfter.distinct
  rwa [hAfter.foldedNames, nodup_reverse] at hDistinct

theorem NothingHides.noSpare
    (hNothing : NothingHides inflate toLowercase bytes records found.centralOffset files placed) :
    ∀ record ∈ records, record.NoSpare inflate bytes := by
  obtain ⟨taken, hTaken, -, hSound, -⟩ := readZip_eq_ok h hFound hRecords
  intro record hRecord
  obtain ⟨one, hOne, hOneRecord⟩ := mem_map.mp (hNothing.exactly ▸ hRecord)
  obtain ⟨read, hRead, hReadRecord⟩ := mem_map.mp (hTaken ▸ hRecord)
  have hReadSound := hSound read hRead
  have hAgrees := hNothing.agrees one hOne
  have hAt := hNothing.standsAt one hOne
  -- The entry the reader took for the record holds the same data.
  have hData : one.stands.data = storedData bytes one.record := by
    have hSame : read.record = one.record := hReadRecord.trans hOneRecord.symm
    rw [← hSame, ← hReadSound.data]
    exact hAgrees.data_unique (hSame ▸ hReadSound.agrees) hAt (hSame ▸ hReadSound.standsAt)
  have hOneSound : one.Sound inflate bytes := ⟨hAgrees, hAt, hData, hNothing.returns one hOne⟩
  rw [← hOneRecord]
  exact hOneSound.onlyContent_iff.mp (hNothing.onlyContent one hOne)

end Accepted

/-- Nothing hides in an accepted archive exactly if no directory declares data
and no deflated file has octets after its final block. -/
theorem nothing_hides_iff_no_spare {files : List LocatedEntry}
    (h : readZip inflate toLowercase bytes = .ok files) :
    (∃ found records placed, findEndOfDirectory bytes = .ok found ∧
      readCentralDirectory bytes found = .ok records ∧
      NothingHides inflate toLowercase bytes records found.centralOffset files placed) ↔
    ∃ found records, findEndOfDirectory bytes = .ok found ∧
      readCentralDirectory bytes found = .ok records ∧
      ∀ record ∈ records, record.NoSpare inflate bytes := by
  constructor
  · rintro ⟨found, records, placed, hFound, hRecords, hNothing⟩
    exact ⟨found, records, hFound, hRecords, NothingHides.noSpare h hFound hRecords hNothing⟩
  rintro ⟨found, records, hFound, hRecords, hSpare⟩
  obtain ⟨placed, hPlaced, hFiles, hSound, hDistinct, hTiling⟩ :=
    readZip_eq_ok h hFound hRecords
  have hStands : ∀ one ∈ placed, StandsAt bytes one.record.localOffset one.stands.bytes :=
    fun one hOne => (hSound one hOne).standsAt
  refine ⟨found, records, placed, hFound, hRecords, hPlaced, hFiles,
    fun one hOne => (hSound one hOne).agrees, hStands,
    fun one hOne => (hSound one hOne).returns, fun one hOne => ?_,
    requireExactTiling_tiles hTiling hStands, ?_, hFiles ▸ hDistinct⟩
  · have hRecord : one.record ∈ records := hPlaced ▸ mem_map_of_mem hOne
    exact (hSound one hOne).onlyContent_iff.mpr (hSpare one.record hRecord)
  · intro located hLocated
    obtain ⟨one, hOne, hEntry⟩ := mem_filterMap.mp (hFiles ▸ hLocated)
    have hReturns := (hSound one hOne).returns
    rw [Placed.Returns, hEntry] at hReturns
    exact (plainEntryName_file hReturns.1).2

/-- An entry to write: its data and the content length it declares. -/
structure SampleEntry where
  name : Bytes
  method : Nat
  data : Bytes
  crc : Nat
  uncompressedLen : Nat

def sampleArchive (entries : List SampleEntry) : Bytes :=
  let (stands, directory) := entries.foldl (fun (stands, directory) entry =>
    let fields := leBytes 2 entry.method ++ leBytes 4 0 ++ leBytes 4 entry.crc ++
      leBytes 4 entry.data.length ++ leBytes 4 entry.uncompressedLen ++
      leBytes 2 entry.name.length ++ leBytes 2 0
    (stands ++ leBytes 4 signatureLocalHeader ++ leBytes 2 20 ++ leBytes 2 0 ++ fields ++
        entry.name ++ entry.data,
      directory ++ leBytes 4 signatureCentralHeader ++ leBytes 2 20 ++ leBytes 2 20 ++ leBytes 2 0 ++
        fields ++ leBytes 10 0 ++ leBytes 4 stands.length ++ entry.name)) ([], [])
  stands ++ directory ++ leBytes 4 signatureEndOfDirectory ++ leBytes 4 0 ++
    leBytes 2 entries.length ++ leBytes 2 entries.length ++ leBytes 4 directory.length ++
    leBytes 4 stands.length ++ leBytes 2 0

/-- A directory `d/`, a stored file `a` and a deflated file `b`. -/
def filesArchive : Bytes :=
  sampleArchive [⟨[0x64, 0x2F], methodStored, [], 0, 0⟩,
    ⟨[0x61], methodStored, [0x41], crc32 [0x41], 1⟩,
    ⟨[0x62], methodDeflated, [1, 2], crc32 [0x42], 1⟩]

def sampleInflate : Inflate := fun data =>
  if data = [1, 2] then some ([0x42], []) else none

theorem nothing_hides_fileArchive :
    ∃ found records placed, findEndOfDirectory filesArchive = .ok found ∧
      readCentralDirectory filesArchive found = .ok records ∧
      NothingHides sampleInflate id filesArchive records found.centralOffset
        [⟨⟨"a", [0x41]⟩, 32, true⟩, ⟨⟨"b", [0x42]⟩, 64, false⟩] placed := by
  have hRead : readZip sampleInflate id filesArchive =
      .ok [⟨⟨"a", [0x41]⟩, 32, true⟩, ⟨⟨"b", [0x42]⟩, 64, false⟩] := by
    decide +kernel
  apply (nothing_hides_iff_no_spare hRead).mpr
  refine ⟨⟨239, 3, 97⟩, [⟨0, 0, 0, 0, 0, [0x64, 0x2F], false, false, 0⟩,
    ⟨0, 0, crc32 [0x41], 1, 1, [0x61], false, false, 32⟩,
    ⟨0, 8, crc32 [0x42], 2, 1, [0x62], false, false, 64⟩], by decide +kernel, by decide +kernel, ?_⟩
  rw [forall_mem_cons, forall_mem_cons, forall_mem_singleton]
  refine ⟨⟨fun _ => rfl, fun _ _ h => absurd h (by decide)⟩,
    ⟨by decide +kernel, fun _ _ h => absurd h (by decide)⟩, by decide +kernel, ?_⟩
  intro name _ _ content tail hInflate
  have hTail : (sampleInflate (storedData filesArchive ⟨0, 8, crc32 [0x42], 2, 1, [0x62], false,
      false, 64⟩)).map Prod.snd = some [] := by decide +kernel
  rw [hInflate] at hTail
  exact Option.some.inj hTail

/-- One directory `d/` that declares no content and holds one octet. -/
def directoryArchive : Bytes :=
  sampleArchive [⟨[0x64, 0x2F], methodStored, [0x41], 0, 0⟩]

theorem directory_hides_data : readZip (fun _ => none) id directoryArchive = .ok [] ∧
    ¬ ∃ found records placed, findEndOfDirectory directoryArchive = .ok found ∧
      readCentralDirectory directoryArchive found = .ok records ∧
      NothingHides (fun _ => none) id directoryArchive records found.centralOffset [] placed := by
  have hRead : readZip (fun _ => none) id directoryArchive = .ok [] := by decide +kernel
  refine ⟨hRead, ?_⟩
  rintro ⟨found, records, placed, hFound, hRecords, hNothing⟩
  have hEnd : findEndOfDirectory directoryArchive = .ok ⟨81, 1, 33⟩ := by decide +kernel
  obtain rfl := ok.inj (hFound.symm.trans hEnd)
  have hDirectory : readCentralDirectory directoryArchive ⟨81, 1, 33⟩ =
      .ok [⟨0, 0, 0, 1, 0, [0x64, 0x2F], false, false, 0⟩] := by
    decide +kernel
  obtain rfl := ok.inj (hRecords.symm.trans hDirectory)
  have hSpare := NothingHides.noSpare hRead hFound hRecords hNothing _ (mem_singleton.mpr rfl)
  exact absurd (hSpare.directory (by decide +kernel)) (by decide)

end Archive

end RefineId.DocSign
