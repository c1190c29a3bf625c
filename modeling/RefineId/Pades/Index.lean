import RefineId.Pades.XrefStream
import Mathlib.Data.List.Sort

/-! The cross-reference index of `crates/doc-sign/src/pades/index.rs`: the chain
of sections from the last `startxref` through every `/Prev`, and the newest
entry for each object number. -/
namespace RefineId.Pades

open Data

/-- Most entries read across every section of the chain together. -/
def maxXrefEntriesRead : Nat := 2 ^ 23

/-- Most sections followed through `/Prev`. -/
def maxXrefSections : Nat := 64

def startxrefKeyword : Bytes := asBytes "startxref"
def xrefKeyword : Bytes := asBytes "xref"
def trailerKeyword : Bytes := asBytes "trailer"
def xrefInUse : Bytes := asBytes "n"
def xrefFree : Bytes := asBytes "f"
def keyPrev : Bytes := asBytes "Prev"
def keyXrefStream : Bytes := asBytes "XRefStm"
def keySize : Bytes := asBytes "Size"
def keyEncrypt : Bytes := asBytes "Encrypt"

/-- The offset recorded by the file's last `startxref`. -/
def findStartXref (pdf : Bytes) : Except PdfError Nat := do
  let position ← okOr .missingStartXref (findLast startxrefKeyword pdf)
  let parser := PdfValueParser.startingAt pdf (position + startxrefKeyword.length)
  let (digits, _) ← okOr .missingStartXref parser.unsignedDigits
  okOr .missingStartXref (parseUsize digits)

def trailerValue (trailer name : Bytes) : Except PdfError (Option Bytes) := do
  let parsed ← orError .missingTrailer (PdfDictionary.parse trailer)
  match ← orError .missingTrailer (parsed.entry name) with
  | none => .ok none
  | some entry => some <$> okOr .missingTrailer (slice trailer entry.value)

/-- The byte offset a trailer stores under `name`. A link that cannot be read is
an error, never the end of the chain. -/
def trailerOffset (trailer name : Bytes) : Except PdfError (Option Nat) := do
  match ← trailerValue trailer name with
  | none => .ok none
  | some value => some <$> okOr .missingTrailer (parseUsize value)

/-- An encrypted revision leaves its strings and streams unreadable. -/
def requireUnencrypted (trailer : Bytes) : Except PdfError Unit := do
  let parsed ← orError .missingTrailer (PdfDictionary.parse trailer)
  match ← orError .missingTrailer (parsed.entry keyEncrypt) with
  | none => .ok ()
  | some _ => .error .unsupportedEncryption

/-- The entries read across the chain once `more` are added to `read`. -/
def entriesRead (read more : Nat) : Except PdfError Nat :=
  if read + more ≤ maxXrefEntriesRead then .ok (read + more) else .error .missingTrailer

section Table

def tableLocation (objectOffset : Nat) (flag : Bytes) : Except PdfError XrefLocation :=
  if flag = xrefInUse then .ok (.direct objectOffset)
  else if flag = xrefFree then .ok .free
  else .error .missingTrailer

/-- One row of a table: an offset, a generation and a flag. -/
def tableRow (number : Nat) (parser : PdfValueParser) :
    Except PdfError (XrefEntry × PdfValueParser) := do
  let (offset, parser) ← okOr .missingTrailer (readPdfToken parser)
  let objectOffset ← okOr .missingTrailer (parseUsize offset)
  let (generation, parser) ← okOr .missingTrailer (readPdfToken parser)
  let generation ← okOr .missingTrailer (parseU16 generation)
  let (flag, parser) ← okOr .missingTrailer (readPdfToken parser)
  let location ← tableLocation objectOffset flag
  .ok (⟨number, generation, location⟩, parser)

def tableRows : Nat → Nat → PdfValueParser → Except PdfError (List XrefEntry × PdfValueParser)
  | _, 0, parser => .ok ([], parser)
  | number, count + 1, parser => do
      let (entry, parser) ← tableRow number parser
      let (rest, parser) ← tableRows (number + 1) count parser
      .ok (entry :: rest, parser)

/-- The subsections of a table up to the `trailer` keyword, and where they end.
A subsection takes at least a byte, so the bytes left bound their number. -/
def tableSubsections : Nat → Nat → PdfValueParser →
    Except PdfError (List XrefEntry × PdfValueParser)
  | 0, _, _ => .error .missingTrailer
  | fuel + 1, declared, parser => do
      let (token, parser) ← okOr .missingTrailer (readPdfToken parser)
      if token = trailerKeyword then .ok ([], parser)
      else do
        let start ← okOr .missingTrailer (parseU32 token)
        let (token, parser) ← okOr .missingTrailer (readPdfToken parser)
        let count ← okOr .missingTrailer (parseU32 token)
        if maxXrefEntries < start + count ∨ maxXrefEntries < declared + count then
          .error .missingTrailer
        else do
          let (entries, parser) ← tableRows start count parser
          let (rest, parser) ← tableSubsections fuel (declared + count) parser
          .ok (entries ++ rest, parser)

/-- A classic table after its `xref` keyword: its entries and the trailer. -/
def parseTable (pdf : Bytes) (parser : PdfValueParser) :
    Except PdfError (List XrefEntry × Bytes) := do
  let (entries, parser) ← tableSubsections (parser.rest.length + 1) 0 parser
  let (trailer, _) ← okOr .missingTrailer (dictionaryAt pdf parser.offset)
  if maxXrefEntries < (dictionaryUsize trailer keySize).getD 0 then .error .missingTrailer
  else .ok (entries, trailer)

variable (zlib : Zlib)

/-- A classic table section, merged with the cross-reference stream a hybrid
trailer names. The stream's entries go first, so they win. -/
def hybridMerged (pdf : Bytes) (trailer : Bytes) (entries : List XrefEntry) :
    Except PdfError XrefSection := do
  match ← trailerOffset trailer keyXrefStream with
  | none => .ok ⟨trailer, entries, false⟩
  | some hybrid => do
      let stream ← parseStreamSection zlib pdf (skipPdfTrivia pdf hybrid)
      .ok ⟨trailer, stream.entries ++ entries, false⟩

/-- The cross-reference section at `offset`: a classic table, or a stream when no
`xref` keyword is there. -/
def parseXrefSection (pdf : Bytes) (offset : Nat) : Except PdfError XrefSection :=
  let start := (PdfValueParser.startingAt pdf offset).skipTrivia
  if pdf.length < start.offset then .error .missingStartXref
  else if start.startsWith xrefKeyword then do
    let (entries, trailer) ← parseTable pdf (start.advance xrefKeyword.length)
    hybridMerged zlib pdf trailer entries
  else parseStreamSection zlib pdf start.offset

end Table

section Chain
variable (zlib : Zlib)

def followChain (pdf : Bytes) : Nat → Option Nat → List Nat → Nat →
    Except PdfError (List XrefSection)
  | _, none, _, _ => .ok []
  | 0, some _, _, _ => .error .tooManyRevisions
  | remaining + 1, some offset, visited, read =>
    if offset ∈ visited then .error .missingTrailer
    else do
      let found ← parseXrefSection zlib pdf offset
      let read ← entriesRead read found.entries.length
      requireUnencrypted found.trailer
      let next ← trailerOffset found.trailer keyPrev
      let older ← followChain pdf remaining next (offset :: visited) read
      .ok (found :: older)

structure ObjectTable where
  entries : List XrefEntry
  numbers_nodup : (entries.map XrefEntry.number).Nodup

namespace ObjectTable

def empty : ObjectTable := ⟨[], List.nodup_nil⟩

def get? (table : ObjectTable) (number : Nat) : Option XrefEntry :=
  table.entries.find? (·.number = number)

/-- An entry is kept unless its number has one. -/
def orInsert (table : ObjectTable) (entry : XrefEntry) : ObjectTable :=
  if h : entry.number ∈ table.entries.map XrefEntry.number then table
  else ⟨table.entries ++ [entry], by
    rw [List.map_append]
    exact nodup_snoc table.numbers_nodup h⟩

end ObjectTable

structure PdfIndex where
  pdf : Bytes
  trailer : Bytes
  startXref : Nat
  newestIsStream : Bool
  objects : ObjectTable
  sections : List (List XrefEntry)

namespace PdfIndex

/-- The index of `pdf` from its last `startxref` through every `/Prev`. -/
def parse (pdf : Bytes) : Except PdfError PdfIndex := do
  let startXref ← findStartXref pdf
  let chain ← followChain zlib pdf maxXrefSections (some startXref) [] 0
  match chain with
  | [] => .error .missingTrailer
  | newest :: _ => .ok {
      pdf
      trailer := newest.trailer
      startXref
      newestIsStream := newest.isStream
      objects := (chain.flatMap XrefSection.entries).foldl ObjectTable.orInsert ObjectTable.empty
      sections := chain.map XrefSection.entries }

variable (index : PdfIndex)

variable (reference : PdfObjectReference)

/-- The entry naming exactly `reference`, number and generation. -/
def liveEntry : Option XrefEntry :=
  (index.objects.get? reference.number).filter (·.generation = reference.generation)

/-- The file offset of an object stream, which is always a direct object. -/
def containerOffset (container : Nat) : Option Nat := do
  match (← index.objects.get? container).location with
  | .direct offset => some offset
  | _ => none

/-- Object `number` at `position` of the object stream at an offset. -/
def compressedBody (containerOffset number position : Nat) : Option Bytes := do
  let stream ← ObjectStream.read zlib index.pdf containerOffset
  stream.body number position

/-- The body of the object `reference` names. -/
def objectBodyReference : Option Bytes := do
  let entry ← index.liveEntry reference
  match entry.location with
  | .free => none
  | .direct offset => objectBodyAt index.pdf reference offset
  | .compressed container position => do
      let offset ← index.containerOffset container
      index.compressedBody zlib offset reference.number position

def entryReference (entry : XrefEntry) : PdfObjectReference :=
  ⟨entry.number, entry.generation⟩

def referenceLe (left right : PdfObjectReference) : Bool :=
  left.number < right.number || (left.number = right.number && left.generation ≤ right.generation)

/-- Every object the newest view of the document holds, in number order. -/
def liveReferences : List PdfObjectReference :=
  ((index.objects.entries.filter (·.location ≠ .free)).map entryReference).mergeSort referenceLe

end PdfIndex

end Chain

end RefineId.Pades
