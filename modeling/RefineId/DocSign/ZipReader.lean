import RefineId.Data.Cursor
import RefineId.DocSign.Container
import Mathlib.Data.List.Sort

/-! The archive reader of `crates/doc-sign/src/verification/asic.rs`. Inflation
and the case folding of names come from outside and are parameters. -/
namespace RefineId.DocSign

open Data Reader

inductive AsicReadError where
  | notAZip
  | malformed (what : String)
  | unsupported (what : String)
  | missingMimetype
  | unknownMimetype
  | unexpectedMetadata
  | noDataObjects
  | manifestConflict
  deriving DecidableEq

def signatureLocalHeader : Nat := 0x04034B50
def signatureCentralHeader : Nat := 0x02014B50
def signatureEndOfDirectory : Nat := 0x06054B50
def signatureDataDescriptor : Nat := 0x08074B50
def signatureZip64Locator : Nat := 0x07064B50
def zip64LocatorLen : Nat := 20
def flagEncrypted : Nat := 0x0001
def flagDataDescriptor : Nat := 0x0008
def flagStrongEncryption : Nat := 0x0040
def methodStored : Nat := 0
def methodDeflated : Nat := 8
def endOfDirectoryLen : Nat := 22
def maxArchiveCommentLen : Nat := 0xFFFF
def zip64MarkerU16 : Nat := 0xFFFF
def zip64MarkerU32 : Nat := 0xFFFFFFFF
def singleDisk : Nat := 0
def extraZip64 : Nat := 0x0001
def extraUnicodeComment : Nat := 0x6375
def extraUnicodePath : Nat := 0x7075
def unixModeShift : Nat := 16
def unixFileTypeMask : Nat := 0xF000
def unixRegularFile : Nat := 0x8000
def unixDirectory : Nat := 0x4000
def unixSymbolicLink : Nat := 0xA000
def unixNoType : Nat := 0
def dosDirectoryAttribute : Nat := 0x10
def maxEntries : Nat := 4096
def maxTotalBytes : Nat := 512 * 2 ^ 20

def crcPolynomial : UInt32 := 0xEDB88320

def crcBit (crc : UInt32) : UInt32 :=
  if crc &&& 1 ≠ 0 then crc >>> 1 ^^^ crcPolynomial else crc >>> 1

def crcByte (crc : UInt32) (byte : UInt8) : UInt32 :=
  crcBit^[8] (crc ^^^ byte.toUInt32)

/-- The checksum of an entry's content, bit by bit. -/
def crc32 (data : Bytes) : Nat :=
  (~~~(data.foldl crcByte 0xFFFFFFFF)).toNat

abbrev ZipReader := Reader AsicReadError

def u16 (error : AsicReadError) : ZipReader Nat := do
  let pair ← take error error 2
  pure (leValue pair)

def u32 (error : AsicReadError) : ZipReader Nat := do
  let quad ← take error error 4
  pure (leValue quad)

def expect (signature : Nat) (error : AsicReadError) : ZipReader Unit := do
  let found ← u32 error
  if found = signature then pure () else throw error

variable (bytes : Bytes)

/-- The word at a position, if the input reaches that far. -/
def wordAt (position : Nat) : Option Nat :=
  ((u32 .notAZip ⟨bytes, position⟩).toOption).map Prod.fst

structure EndOfDirectory where
  offset : Nat
  count : Nat
  centralOffset : Nat
  deriving DecidableEq

structure CentralRecord where
  flags : Nat
  method : Nat
  crc : Nat
  compressedLen : Nat
  uncompressedLen : Nat
  name : Bytes
  hasExtra : Bool
  directoryAttribute : Bool
  localOffset : Nat
  deriving DecidableEq

structure LocalHeader where
  flags : Nat
  method : Nat
  crc : Nat
  compressedLen : Nat
  uncompressedLen : Nat
  nameLen : Nat
  extraLen : Nat
  deriving DecidableEq

structure LocalExtent where
  start : Nat
  stop : Nat
  deriving DecidableEq

structure LocatedEntry where
  entry : Entry
  localOffset : Nat
  storedPlain : Bool
  deriving DecidableEq

def endMissing : AsicReadError := .malformed "no end of central directory record ends the file"
def endTruncated : AsicReadError := .malformed "truncated end of central directory record"

structure EndFields where
  disk : Nat
  directoryDisk : Nat
  countOnDisk : Nat
  count : Nat
  centralSize : Nat
  centralOffset : Nat
  commentLen : Nat
  deriving DecidableEq

def readEndFields : ZipReader EndFields := do
  let disk ← u16 endTruncated
  let directoryDisk ← u16 endTruncated
  let countOnDisk ← u16 endTruncated
  let count ← u16 endTruncated
  let centralSize ← u32 endTruncated
  let centralOffset ← u32 endTruncated
  let commentLen ← u16 endTruncated
  pure ⟨disk, directoryDisk, countOnDisk, count, centralSize, centralOffset, commentLen⟩

/-- The checks on an end record whose comment reaches the end of the file. -/
def checkEnd (offset : Nat) (fields : EndFields) : Except AsicReadError EndOfDirectory :=
  if fields.countOnDisk = zip64MarkerU16 ∨ fields.count = zip64MarkerU16 ∨
      fields.centralSize = zip64MarkerU32 ∨ fields.centralOffset = zip64MarkerU32 ∨
      (zip64LocatorLen ≤ offset ∧
        wordAt bytes (offset - zip64LocatorLen) = some signatureZip64Locator) then
    .error (.unsupported "ZIP64")
  else if fields.disk ≠ singleDisk ∨ fields.directoryDisk ≠ singleDisk then
    .error (.unsupported "multi-volume archive")
  else if fields.countOnDisk ≠ fields.count then .error (.malformed "entry counts disagree")
  else if checkedAdd fields.centralOffset fields.centralSize ≠ some offset then
    .error (.malformed "central directory does not end at the end record")
  else .ok ⟨offset, fields.count, fields.centralOffset⟩

/-- One candidate for the end record. A candidate whose comment does not reach
the end of the file is passed over. -/
def endCandidate (offset : Nat) : Except AsicReadError (Option EndOfDirectory) :=
  if wordAt bytes offset ≠ some signatureEndOfDirectory then .ok none
  else do
    let (fields, cursor) ← readEndFields ⟨bytes, offset + 4⟩
    if checkedAdd cursor.offset fields.commentLen ≠ some bytes.length then .ok none
    else some <$> checkEnd bytes offset fields

def searchEnd (bytes : Bytes) : List Nat → Except AsicReadError EndOfDirectory
  | [] => .error endMissing
  | offset :: rest => do
      match ← endCandidate bytes offset with
      | some found => .ok found
      | none => searchEnd bytes rest

/-- The end record that ends the file, searched from the last place it can
stand. -/
def findEndOfDirectory : Except AsicReadError EndOfDirectory :=
  if bytes.length < endOfDirectoryLen then .error endMissing
  else
    let latest := bytes.length - endOfDirectoryLen
    let earliest := latest - maxArchiveCommentLen
    searchEnd bytes ((List.range (latest - earliest + 1)).map (latest - ·))

/-- Whether the attributes declare a directory. Links and special files are
refused. -/
def fileTypeIsDirectory (external : Nat) : Except AsicReadError Bool :=
  let unixType := external >>> unixModeShift &&& unixFileTypeMask
  let dosDirectory := decide (external &&& dosDirectoryAttribute ≠ 0)
  if unixType = unixNoType ∨ unixType = unixRegularFile then .ok dosDirectory
  else if unixType = unixDirectory then .ok true
  else if unixType = unixSymbolicLink then .error (.unsupported "symbolic link entry")
  else .error (.unsupported "special file entry")

def extraMalformed : AsicReadError := .malformed "malformed extra field"

/-- One record of an extra field, none of which may rename or resize the
entry. -/
def readExtraRecord : ZipReader Unit := do
  let id ← u16 extraMalformed
  let size ← u16 extraMalformed
  let _ ← take extraMalformed extraMalformed size
  if id = extraZip64 then throw (.unsupported "ZIP64")
  else if id = extraUnicodePath then throw (.unsupported "Unicode Path extra field")
  else if id = extraUnicodeComment then throw (.unsupported "Unicode Comment extra field")
  else pure ()

/-- The records of an extra field. No record is empty, so its length bounds
their number. -/
def walkExtraField : Nat → Cursor → Except AsicReadError Unit
  | 0, _ => .ok ()
  | fuel + 1, cursor =>
    if cursor.offset < cursor.bytes.length then do
      let ((), cursor) ← readExtraRecord cursor
      walkExtraField fuel cursor
    else .ok ()

def requirePlainExtraField (extra : Bytes) : Except AsicReadError Unit :=
  walkExtraField extra.length ⟨extra, 0⟩

def centralTruncated : AsicReadError := .malformed "truncated central directory record"

/-- One record past its signature. -/
def CentralRecord.read : ZipReader CentralRecord := do
  let _versionMadeBy ← u16 centralTruncated
  let _versionNeeded ← u16 centralTruncated
  let flags ← u16 centralTruncated
  let method ← u16 centralTruncated
  let _modificationTime ← u16 centralTruncated
  let _modificationDate ← u16 centralTruncated
  let crc ← u32 centralTruncated
  let compressed ← u32 centralTruncated
  let uncompressed ← u32 centralTruncated
  let nameLen ← u16 centralTruncated
  let extraLen ← u16 centralTruncated
  let commentLen ← u16 centralTruncated
  let disk ← u16 centralTruncated
  let _internalAttributes ← u16 centralTruncated
  let externalAttributes ← u32 centralTruncated
  let localOffset ← u32 centralTruncated
  let name ← take centralTruncated centralTruncated nameLen
  let extra ← take centralTruncated centralTruncated extraLen
  let _comment ← take centralTruncated centralTruncated commentLen
  if compressed = zip64MarkerU32 ∨ uncompressed = zip64MarkerU32 ∨ localOffset = zip64MarkerU32 then
    throw (.unsupported "ZIP64")
  else if disk ≠ singleDisk then throw (.unsupported "multi-volume archive")
  else do
    let directoryAttribute ← liftM (fileTypeIsDirectory externalAttributes)
    liftM (requirePlainExtraField extra)
    pure {
      flags, method, crc
      compressedLen := compressed
      uncompressedLen := uncompressed
      name
      hasExtra := !extra.isEmpty
      directoryAttribute, localOffset }

def centralUnsigned : AsicReadError :=
  .malformed "central directory record without its signature"

/-- Exactly the declared number of records, which fill the directory. -/
def readCentralDirectory (found : EndOfDirectory) : Except AsicReadError (List CentralRecord) :=
  if maxEntries < found.count then .error (.unsupported "too many entries")
  else do
    let element : ZipReader CentralRecord := do
      expect signatureCentralHeader centralUnsigned
      CentralRecord.read
    let (records, cursor) ← many element found.count ⟨bytes, found.centralOffset⟩
    if cursor.offset ≠ found.offset then
      .error (.malformed "central directory does not end at the end record")
    else .ok records

def isControl (c : Char) : Bool :=
  c.toNat < 0x20 || (0x7F ≤ c.toNat && c.toNat < 0xA0)

/-- A path component that names neither a directory itself nor its parent. -/
def plainComponent (component : List Char) : Bool :=
  component ≠ [] && component ≠ ['.'] && component ≠ ['.', '.']

/-- The characters of a path without a separator at its end, and whether there
was one. -/
def stripDirectory (name : List Char) : List Char × Bool :=
  if name.getLast? = some '/' then (name.dropLast, true) else (name, false)

/-- The name as a plain relative path. A directory has none. -/
def plainEntryName (name : Bytes) : Except AsicReadError (Option String) :=
  match fromUtf8 name with
  | none => .error (.malformed "entry name is not UTF-8")
  | some name =>
    let chars := name.toList
    if chars = [] then .error (.malformed "empty entry name")
    else if chars.head? = some '/' then .error (.malformed "absolute entry name")
    else if '\\' ∈ chars then .error (.malformed "backslash in an entry name")
    else if chars.any isControl then .error (.malformed "control character in an entry name")
    else
      let (path, directory) := stripDirectory chars
      if (path.splitOn '/').all plainComponent then .ok (if directory then none else some name)
      else .error (.malformed "entry name is not a plain path")

section Local

def localTruncated : AsicReadError := .malformed "truncated local header"

def LocalHeader.read : ZipReader LocalHeader := do
  let _versionNeeded ← u16 localTruncated
  let flags ← u16 localTruncated
  let method ← u16 localTruncated
  let _modificationTime ← u16 localTruncated
  let _modificationDate ← u16 localTruncated
  let crc ← u32 localTruncated
  let compressed ← u32 localTruncated
  let uncompressed ← u32 localTruncated
  let nameLen ← u16 localTruncated
  let extraLen ← u16 localTruncated
  pure ⟨flags, method, crc, compressed, uncompressed, nameLen, extraLen⟩

def hasDescriptor (flags : Nat) : Bool :=
  flags &&& flagDataDescriptor ≠ 0

/-- With a data descriptor the header may carry zeros for what follows the
data. -/
def LocalHeader.sizesAgree (header : LocalHeader) (record : CentralRecord) : Bool :=
  if hasDescriptor header.flags then
    (header.crc = 0 || header.crc = record.crc) &&
      (header.compressedLen = 0 || header.compressedLen = record.compressedLen) &&
      (header.uncompressedLen = 0 || header.uncompressedLen = record.uncompressedLen)
  else
    header.crc = record.crc && header.compressedLen = record.compressedLen &&
      header.uncompressedLen = record.uncompressedLen

def descriptorDisagrees : AsicReadError :=
  .malformed "data descriptor disagrees with the central directory"

/-- A data descriptor may begin with a signature. -/
def skipDescriptorSignature (cursor : Cursor) : Except AsicReadError Cursor :=
  if wordAt cursor.bytes cursor.offset = some signatureDataDescriptor then
    Prod.snd <$> u32 descriptorDisagrees cursor
  else .ok cursor

/-- The data descriptor: an optional signature, the checksum and both sizes. -/
def readDataDescriptor (record : CentralRecord) (cursor : Cursor) : Except AsicReadError Cursor := do
  let cursor ← skipDescriptorSignature cursor
  let (crc, cursor) ← u32 descriptorDisagrees cursor
  let (compressed, cursor) ← u32 descriptorDisagrees cursor
  let (uncompressed, cursor) ← u32 descriptorDisagrees cursor
  if crc ≠ record.crc ∨ compressed ≠ record.compressedLen ∨
      uncompressed ≠ record.uncompressedLen then
    .error descriptorDisagrees
  else .ok cursor

/-- What follows the data of an entry with these flags. -/
def readTrailer (flags : Nat) (record : CentralRecord) (cursor : Cursor) :
    Except AsicReadError Cursor :=
  if hasDescriptor flags then readDataDescriptor record cursor else .ok cursor

structure LocalParts where
  header : LocalHeader
  name : Bytes
  extra : Bytes
  deriving DecidableEq

def readLocalParts : ZipReader LocalParts := do
  expect signatureLocalHeader
    (.malformed "central directory names an offset that is not a local header")
  let header ← LocalHeader.read
  let name ← take (.malformed "truncated entry name") (.malformed "truncated entry name")
    header.nameLen
  let extra ← take (.malformed "truncated extra field")
    (.malformed "truncated extra field") header.extraLen
  pure ⟨header, name, extra⟩

def LocalParts.check (parts : LocalParts) (record : CentralRecord) : Except AsicReadError Unit :=
  if parts.header.flags &&& (flagEncrypted ||| flagStrongEncryption) ≠ 0 then
    .error (.unsupported "encrypted entry")
  else if parts.header.flags ≠ record.flags ∨ parts.header.method ≠ record.method ∨
      parts.header.sizesAgree record = false ∨ parts.name ≠ record.name then
    .error (.malformed "central directory and local header disagree")
  else requirePlainExtraField parts.extra

/-- What inflation makes of stored octets: the content, and the octets after
the final block. -/
abbrev Inflate := Bytes → Option (Bytes × Bytes)

variable (inflate : Inflate)

/-- Inflation up to a limit. Octets after the final block are not looked at. -/
def decompressToVecWithLimit (stored : Bytes) (limit : Nat) : Option Bytes :=
  match inflate stored with
  | some (content, _) => if content.length ≤ limit then some content else none
  | none => none

def decodeContent (record : CentralRecord) (stored : Bytes) : Except AsicReadError Bytes :=
  if record.method = methodStored then .ok stored
  else if record.method = methodDeflated then
    match decompressToVecWithLimit inflate stored record.uncompressedLen with
    | some content => .ok content
    | none => .error (.malformed "deflated data does not inflate to its size")
  else .error (.unsupported "compression method")

/-- The file of a record, from the octets stored for it. A directory has none. -/
def readFile (record : CentralRecord) (parts : LocalParts) (stored : Bytes) :
    Except AsicReadError (Option LocatedEntry) := do
  match ← plainEntryName record.name with
  | none =>
    if record.uncompressedLen ≠ 0 then .error (.malformed "directory entry with content")
    else .ok none
  | some name =>
    if record.directoryAttribute then .error (.malformed "directory attribute on a file entry")
    else do
      let content ← decodeContent inflate record stored
      if content.length ≠ record.uncompressedLen then
        .error (.malformed "entry size does not match its header")
      else if crc32 content ≠ record.crc then
        .error (.malformed "entry data does not match its CRC-32")
      else
        .ok (some ⟨⟨name, content⟩, record.localOffset,
          parts.header.method = methodStored && parts.extra.isEmpty && !record.hasExtra⟩)

def readLocalEntry (bytes : Bytes) (record : CentralRecord) :
    Except AsicReadError (Option LocatedEntry × LocalExtent) := do
  let (parts, cursor) ← readLocalParts ⟨bytes, record.localOffset⟩
  parts.check record
  let (stored, cursor) ← take (.malformed "truncated entry data")
    (.malformed "truncated entry data") record.compressedLen cursor
  let cursor ← readTrailer parts.header.flags record cursor
  let entry ← readFile inflate record parts stored
  .ok (entry, ⟨record.localOffset, cursor.offset⟩)

end Local

section Archive
variable (inflate : Inflate) (toLowercase : String → String)

def tilingGap : AsicReadError := .malformed "local entries do not tile the archive exactly"

/-- Extents one after another from an offset; where the last one ends. -/
def followExtents : Nat → List LocalExtent → Except AsicReadError Nat
  | expected, [] => .ok expected
  | expected, extent :: rest =>
    if extent.start ≠ expected then .error tilingGap else followExtents extent.stop rest

/-- The local entries cover the bytes before the central directory. -/
def requireExactTiling (extents : List LocalExtent) (centralOffset : Nat) :
    Except AsicReadError Unit := do
  let stop ← followExtents 0 (extents.insertionSort fun left right => left.start ≤ right.start)
  if stop ≠ centralOffset then .error tilingGap else .ok ()

structure ReadEntries where
  entries : List LocatedEntry
  extents : List LocalExtent
  foldedNames : List String
  total : Nat

def ReadEntries.empty : ReadEntries := ⟨[], [], [], 0⟩

def ReadEntries.add (read : ReadEntries) (bytes : Bytes) (record : CentralRecord) :
    Except AsicReadError ReadEntries :=
  let total := read.total + record.uncompressedLen
  if maxTotalBytes < total then
    .error (.unsupported "container exceeds the decompressed-size bound")
  else do
    let (entry, extent) ← readLocalEntry inflate bytes record
    let extents := read.extents ++ [extent]
    match entry with
    | none => .ok { read with extents, total }
    | some entry =>
      let folded := toLowercase entry.entry.name
      if folded ∈ read.foldedNames then .error (.malformed "duplicate entry name")
      else .ok ⟨read.entries ++ [entry], extents, folded :: read.foldedNames, total⟩

def readZip (bytes : Bytes) : Except AsicReadError (List LocatedEntry) :=
  if wordAt bytes 0 ≠ some signatureLocalHeader then .error .notAZip
  else do
    let found ← findEndOfDirectory bytes
    let records ← readCentralDirectory bytes found
    let read ← records.foldlM (fun read record => read.add inflate toLowercase bytes record)
      ReadEntries.empty
    requireExactTiling read.extents found.centralOffset
    .ok read.entries

end Archive

end RefineId.DocSign
