import RefineId.Pades.Objects

/-! Cross-reference streams and the object streams they index
(`crates/doc-sign/src/pades/xref_stream.rs`). Inflation comes from outside and
is a parameter. -/
namespace RefineId.Pades

open Data

/-- Most cross-reference entries a section may declare. -/
def maxXrefEntries : Nat := 2 ^ 20

def decodedLimit : Nat := 2 ^ 26

def maxPredictorColumns : Nat := 256
def maxFieldWidth : Nat := 8
def maxIndexPairs : Nat := 2 ^ 16
def entryFields : Nat := 3

/-- Inflation of a zlib stream up to a limit. -/
abbrev Zlib := Bytes → Nat → Option Bytes

/-- Where one object's bytes sit. A free entry claims its number, so older
copies stay shadowed. -/
inductive XrefLocation where
  | free
  | direct (offset : Nat)
  | compressed (container position : Nat)
  deriving DecidableEq

structure XrefEntry where
  number : Nat
  generation : Nat
  location : XrefLocation
  deriving DecidableEq

/-- One cross-reference section and its trailer dictionary, or the stream
dictionary that doubles as one. -/
structure XrefSection where
  trailer : Bytes
  entries : List XrefEntry
  isStream : Bool
  deriving DecidableEq

/-- A required part; its absence is an error. -/
def okOr {α : Type} (error : PdfError) : Option α → Except PdfError α
  | some value => .ok value
  | none => .error error

theorem okOr_eq_ok {α : Type} {error found} {value : α} :
    okOr error found = .ok value ↔ found = some value := by
  cases found with
  | none | some other => simp [okOr]

/-- Any failure of an inner reader under one error. -/
def orError {α : Type} (error : PdfError) (result : Except PdfError α) : Except PdfError α :=
  result.mapError fun _ => error

section Payload

/-- `bytes` without leading and trailing white space. -/
def trim (bytes : Bytes) : Bytes :=
  ((bytes.dropWhile PdfValueParser.isWhitespace).reverse.dropWhile
    PdfValueParser.isWhitespace).reverse

/-- The tokens of a text between white space. -/
def whitespaceTokens (bytes : Bytes) : List Bytes :=
  (bytes.splitOnP PdfValueParser.isWhitespace).filter (!·.isEmpty)

variable (dictionary : Bytes)

def directLength : Option Nat := do
  let parsed ← (PdfDictionary.parse dictionary).toOption
  let entry ← (← (parsed.entry (asBytes "Length")).toOption)
  parseUsize (trim (← slice dictionary entry.value))

/-- Where the payload begins after the `stream` keyword: past CRLF or LF. -/
def payloadStart (pdf : Bytes) (after : Nat) : Option Nat := do
  let keyword ← findFirst (asBytes "stream") (pdf.drop after)
  let start := after + keyword + (asBytes "stream").length
  let start := if pdf[start]? = some carriageReturn then start + 1 else start
  some (if pdf[start]? = some lineFeed then start + 1 else start)

/-- A payload up to the line ending before the `endstream` keyword. -/
def payloadBeforeKeyword (tail : Bytes) : Option Bytes := do
  let stop ← findFirst (asBytes "endstream") tail
  let payload := tail.take stop
  let payload := if payload.getLast? = some lineFeed then payload.dropLast else payload
  some (if payload.getLast? = some carriageReturn then payload.dropLast else payload)

/-- The payload a direct `/Length` names exactly, if the file reaches that far. -/
def payloadOfLength (pdf : Bytes) (start : Nat) (dictionary : Bytes) : Option Bytes := do
  let length ← directLength dictionary
  slice pdf ⟨start, start + length⟩

/-- The payload that begins at `start`. Without a length that the file reaches it
runs to the keyword. -/
def payloadFrom (pdf : Bytes) (start : Nat) (dictionary : Bytes) : Option Bytes :=
  (payloadOfLength pdf start dictionary).or (payloadBeforeKeyword (pdf.drop start))

/-- The raw payload bytes between `stream` and `endstream`. -/
def rawPayload (pdf : Bytes) (after : Nat) (dictionary : Bytes) : Except PdfError Bytes := do
  let start ← okOr .missingTrailer (payloadStart pdf after)
  okOr .missingTrailer (payloadFrom pdf start dictionary)

/-- Whether the filter chain is exactly `FlateDecode`. -/
def flateOnly : Except PdfError Bool := do
  let parsed ← orError .missingTrailer (PdfDictionary.parse dictionary)
  match ← orError .missingTrailer (parsed.entry (asBytes "Filter")) with
  | none => .ok false
  | some entry =>
    match (slice dictionary entry.value).bind soleName with
    | none => .error .unsupportedCrossReferenceStream
    | some name =>
      if name = asBytes "FlateDecode" then .ok true
      else .error .unsupportedCrossReferenceStream

/-- The entry of the decode parameters, under either spelling. -/
def parametersEntry (parsed : PdfDictionary) : Except PdfError (Option PdfDictionaryEntry) := do
  match ← orError .missingTrailer (parsed.entry (asBytes "DecodeParms")) with
  | some entry => .ok (some entry)
  | none => orError .missingTrailer (parsed.entry (asBytes "DP"))

def decodeParameters : Except PdfError (Option Bytes) := do
  let parsed ← orError .missingTrailer (PdfDictionary.parse dictionary)
  match ← parametersEntry parsed with
  | none => .ok none
  | some entry =>
    match (slice dictionary entry.value).map trim with
    | some value =>
      if dictionaryOpen.isPrefixOf value then .ok (some value)
      else .error .unsupportedCrossReferenceStream
    | none => .error .unsupportedCrossReferenceStream

def average (left upper : UInt8) : UInt8 :=
  UInt8.ofNat ((left.toNat + upper.toNat) / 2)

/-- Whichever neighbour is closest to `left + upper - upperLeft`. -/
def paeth (left upper upperLeft : UInt8) : UInt8 :=
  let estimate : Int := left.toNat + upper.toNat - upperLeft.toNat
  let distanceLeft := (estimate - left.toNat).natAbs
  let distanceUpper := (estimate - upper.toNat).natAbs
  let distanceUpperLeft := (estimate - upperLeft.toNat).natAbs
  if distanceLeft ≤ distanceUpper ∧ distanceLeft ≤ distanceUpperLeft then left
  else if distanceUpper ≤ distanceUpperLeft then upper
  else upperLeft

/-- What a row filter predicts from the neighbours of a byte. -/
def prediction (filter left upper upperLeft : UInt8) : Option UInt8 :=
  if filter = 0 then some 0
  else if filter = 1 then some left
  else if filter = 2 then some upper
  else if filter = 3 then some (average left upper)
  else if filter = 4 then some (paeth left upper upperLeft)
  else none

def unfilteredRow (filter left upperLeft : UInt8) : Bytes → Bytes → Option Bytes
  | raw :: row, upper :: above => do
      let byte := raw + (← prediction filter left upper upperLeft)
      let rest ← unfilteredRow filter byte upper row above
      some (byte :: rest)
  | _, _ => some []

def unfilteredRows (columns : Nat) : Nat → Bytes → Bytes → Option Bytes
  | 0, _, _ => some []
  | count + 1, above, data => do
      let filter ← data.head?
      let row ← unfilteredRow filter 0 0 ((data.drop 1).take columns) above
      let rest ← unfilteredRows columns count row (data.drop (columns + 1))
      some (row ++ rest)

/-- The rows with their per-row PNG filters undone, one-byte samples. -/
def pngUnfiltered (data : Bytes) (columns : Nat) : Except PdfError Bytes :=
  let stride := columns + 1
  if columns = 0 ∨ data.length % stride ≠ 0 then .error .missingTrailer
  else okOr .missingTrailer
    (unfilteredRows columns (data.length / stride) (List.replicate columns 0) data)

def predictorColumns (parameters : Bytes) : Except PdfError Nat :=
  match dictionaryValue parameters (asBytes "/Columns") with
  | none => .ok 1
  | some _ => okOr .unsupportedCrossReferenceStream (dictionaryUsize parameters (asBytes "/Columns"))

/-- The payload with the predictor `/DecodeParms` names undone. -/
def unpredicted (data dictionary : Bytes) : Except PdfError Bytes := do
  match ← decodeParameters dictionary with
  | none => .ok data
  | some parameters =>
    let predictor := (dictionaryUsize parameters (asBytes "/Predictor")).getD 1
    if predictor = 1 then .ok data
    else if predictor < 10 ∨ (dictionaryUsize parameters (asBytes "/Colors")).getD 1 ≠ 1 ∨
        (dictionaryUsize parameters (asBytes "/BitsPerComponent")).getD 8 ≠ 8 then
      .error .unsupportedCrossReferenceStream
    else do
      let columns ← predictorColumns parameters
      if columns = 0 ∨ maxPredictorColumns < columns then
        .error .unsupportedCrossReferenceStream
      else pngUnfiltered data columns

variable (zlib : Zlib)

/-- The payload with its filter undone. -/
def inflated (raw dictionary : Bytes) : Except PdfError Bytes := do
  if ← flateOnly dictionary then okOr .missingTrailer (zlib raw decodedLimit) else .ok raw

/-- The payload with its filter and predictor undone. -/
def decoded (raw dictionary : Bytes) : Except PdfError Bytes := do
  unpredicted (← inflated zlib raw dictionary) dictionary

/-- One stream object: its dictionary and its decoded payload. -/
structure StreamObject where
  dictionary : Bytes
  payload : Bytes
  deriving DecidableEq

/-- The stream object at `offset`, its payload decoded. -/
def parseStreamObject (pdf : Bytes) (offset : Nat) : Except PdfError StreamObject := do
  let (number, parser) ← okOr .missingTrailer (PdfValueParser.startingAt pdf offset).unsignedU32
  let (generation, _) ← okOr .missingTrailer parser.unsignedU16
  let cursor ← okOr .missingTrailer (objectHeaderEnd pdf ⟨number, generation⟩ offset)
  let (dictionary, after) ← okOr .missingTrailer (dictionaryAt pdf cursor)
  let raw ← rawPayload pdf after dictionary
  let payload ← decoded zlib raw dictionary
  .ok ⟨dictionary, payload⟩

/-- The decoded payload of the stream object `reference` at `offset`. -/
def streamPayload (pdf : Bytes) (offset : Nat) (reference : PdfObjectReference) :
    Except PdfError Bytes :=
  if (objectHeaderEnd pdf reference offset).isNone then .error .missingTrailer
  else StreamObject.payload <$> parseStreamObject zlib pdf offset

end Payload

section Entries

/-- The direct array of non-negative integers under `key`. -/
def integerArray (dictionary key : Bytes) (limit : Nat) : Except PdfError (Option (List Nat)) :=
  match dictionaryValue dictionary key with
  | none => .ok none
  | some value =>
    let body := trim value
    if arrayOpen.isPrefixOf body ∧ arrayClose.isSuffixOf (body.drop arrayOpen.length) then
      let tokens := whitespaceTokens (body.drop arrayOpen.length).dropLast
      if limit < tokens.length then .error .missingTrailer
      else some <$> okOr .missingTrailer (tokens.mapM parseUsize)
    else .error .missingTrailer

def bigEndianField (bytes : Bytes) : Option Nat :=
  bytes.foldlM (fun value byte => do checkedAdd (← checkedMul value 256) byte.toNat) 0

def narrow (bits value : Nat) : Except PdfError Nat :=
  if value < 2 ^ bits then .ok value else .error .missingTrailer

/-- The fields of one row as an entry. Free, and any unknown type, claims the
number with no location. -/
def entryFromFields (number kind second third : Nat) : Except PdfError XrefEntry :=
  if kind = 1 then do
    let generation ← narrow 16 third
    .ok ⟨number, generation, .direct second⟩
  else if kind = 2 then do
    let container ← narrow 32 second
    let position ← narrow 32 third
    .ok ⟨number, 0, .compressed container position⟩
  else .ok ⟨number, 0, .free⟩

structure Widths where
  kind : Nat
  second : Nat
  third : Nat
  deriving DecidableEq

def Widths.row (widths : Widths) : Nat :=
  widths.kind + widths.second + widths.third

/-- One entry from one row. A zero-width type field defaults to a direct entry. -/
def entryFromRow (number : Nat) (row : Bytes) (widths : Widths) : Except PdfError XrefEntry := do
  let kind ← okOr .missingTrailer (bigEndianField (row.take widths.kind))
  let second ← okOr .missingTrailer (bigEndianField ((row.drop widths.kind).take widths.second))
  let third ← okOr .missingTrailer
    (bigEndianField ((row.drop (widths.kind + widths.second)).take widths.third))
  entryFromFields number (if widths.kind = 0 then 1 else kind) second third

def subsectionEntries (widths : Widths) : Nat → Nat → Bytes → Except PdfError (List XrefEntry)
  | _, 0, _ => .ok []
  | number, count + 1, payload => do
      let entry ← entryFromRow number (payload.take widths.row) widths
      let rest ← subsectionEntries widths (number + 1) count (payload.drop widths.row)
      .ok (entry :: rest)

def subsectionsEntries (widths : Widths) :
    List (Nat × Nat) → Bytes → Except PdfError (List XrefEntry)
  | [], _ => .ok []
  | (first, count) :: pairs, payload => do
      let entries ← subsectionEntries widths first count payload
      let rest ← subsectionsEntries widths pairs (payload.drop (count * widths.row))
      .ok (entries ++ rest)

/-- Numbers two by two; none may be left over. -/
def indexPairs : List Nat → Option (List (Nat × Nat))
  | [] => some []
  | [_] => none
  | first :: count :: rest => ((first, count) :: ·) <$> indexPairs rest

/-- The entries declared, checked one subsection after another. -/
def declaredEntries (size : Nat) : Nat → List (Nat × Nat) → Option Nat
  | declared, [] => some declared
  | declared, (first, count) :: pairs => do
      let stop ← checkedAdd first count
      let declared ← checkedAdd declared count
      if size < stop ∨ maxXrefEntries < stop ∨ maxXrefEntries < declared then none
      else declaredEntries size declared pairs

/-- The decoded entry rows as section entries. Every declared entry is a number
below `size` and a full row of the payload. -/
def streamEntries (payload : Bytes) (widths : Widths) (subsections : List Nat) (size : Nat) :
    Except PdfError (List XrefEntry) :=
  if maxFieldWidth < widths.kind ∨ maxFieldWidth < widths.second ∨ maxFieldWidth < widths.third ∨
      widths.row = 0 then
    .error .missingTrailer
  else do
    let pairs ← okOr .missingTrailer (indexPairs subsections)
    let declared ← okOr .missingTrailer (declaredEntries size 0 pairs)
    if payload.length < declared * widths.row then .error .missingTrailer
    else subsectionsEntries widths pairs payload

def declaredWidths (dictionary : Bytes) : Except PdfError Widths := do
  match ← integerArray dictionary (asBytes "W") entryFields with
  | some [kind, second, third] => .ok ⟨kind, second, third⟩
  | _ => .error .missingTrailer

variable (zlib : Zlib)

/-- One cross-reference stream section at `offset`. -/
def parseStreamSection (pdf : Bytes) (offset : Nat) : Except PdfError XrefSection := do
  let object ← parseStreamObject zlib pdf offset
  if (dictionaryValue object.dictionary (asBytes "Type")).bind soleName ≠ some (asBytes "XRef") then
    .error .missingTrailer
  else do
    let widths ← declaredWidths object.dictionary
    let size ← okOr .missingTrailer (dictionaryUsize object.dictionary (asBytes "Size"))
    if maxXrefEntries < size then .error .missingTrailer
    else do
      let subsections ← integerArray object.dictionary (asBytes "Index") (maxIndexPairs * 2)
      let entries ← streamEntries object.payload widths (subsections.getD [0, size]) size
      .ok ⟨object.dictionary, entries, true⟩

end Entries

/-- One object stream: where its first object is, how many it holds, and the
decoded payload. -/
structure ObjectStream where
  first : Nat
  count : Nat
  payload : Bytes
  deriving DecidableEq

def ObjectStream.read (zlib : Zlib) (pdf : Bytes) (containerOffset : Nat) : Option ObjectStream := do
  let object ← (parseStreamObject zlib pdf containerOffset).toOption
  let first ← dictionaryUsize object.dictionary (asBytes "First")
  let count ← dictionaryUsize object.dictionary (asBytes "N")
  if object.payload.length < first then none else some ⟨first, count, object.payload⟩

/-- Where the object at `position` ends: at the next one, or with the payload. -/
def ObjectStream.stop (stream : ObjectStream) (tokens : List Bytes) (position : Nat) : Option Nat :=
  if position + 1 < stream.count then do
    let next ← parseUsize (← tokens[(position + 1) * 2 + 1]?)
    some (stream.first + next)
  else some stream.payload.length

/-- The bytes of object `number` at `position` in the stream. -/
def ObjectStream.body (stream : ObjectStream) (number position : Nat) : Option Bytes :=
  if stream.count ≤ position then none
  else do
    let tokens := whitespaceTokens (stream.payload.take stream.first)
    let declared ← parseU32 (← tokens[position * 2]?)
    if declared ≠ number then none
    else do
      let start ← parseUsize (← tokens[position * 2 + 1]?)
      let stop ← stream.stop tokens position
      slice stream.payload ⟨stream.first + start, stop⟩

end RefineId.Pades
