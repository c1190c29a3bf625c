import RefineId.Pades.Values

/-! Values found through the grammar, and indirect objects at their offsets
(`crates/doc-sign/src/pades/index.rs`). -/
namespace RefineId.Pades

open Data PdfValueParser

def objKeyword : Bytes := [0x6F, 0x62, 0x6A]
def endobjKeyword : Bytes := [0x65, 0x6E, 0x64, 0x6F, 0x62, 0x6A]

def findFirst (needle : Bytes) : Bytes → Option Nat
  | [] => none
  | byte :: rest =>
    if needle.isPrefixOf (byte :: rest) then some 0 else (· + 1) <$> findFirst needle rest

def findLast (needle : Bytes) : Bytes → Option Nat
  | [] => none
  | byte :: rest =>
    match findLast needle rest with
    | some position => some (position + 1)
    | none => if needle.isPrefixOf (byte :: rest) then some 0 else none

/-- The value bytes stored under `key` in the dictionary opening `dictionary`.
The key may be written with its slash. -/
def dictionaryValue (dictionary key : Bytes) : Option Bytes := do
  let name := if nameOpen.isPrefixOf key then key.drop nameOpen.length else key
  let parsed ← (PdfDictionary.parseLeading dictionary).toOption
  let entry ← (← (parsed.entry name).toOption)
  slice dictionary entry.value

def soleName (value : Bytes) : Option Bytes :=
  let start := (new value).skipTrivia
  match start.consume arrayOpen with
  | none => do
      let (name, parser) ← start.name.toOption
      parser.requireEnd.toOption
      some name
  | some opened => do
      let (name, parser) ← opened.skipTrivia.name.toOption
      let parser ← parser.skipTrivia.consume arrayClose
      parser.requireEnd.toOption
      some name

/-- The non-negative integer stored directly under `key`. -/
def dictionaryUsize (dictionary key : Bytes) : Option Nat := do
  let value ← dictionaryValue dictionary key
  let (digits, parser) ← (new value).unsignedDigits
  parser.requireEnd.toOption
  parseUsize digits

/-- The next token, delimited by white space or a comment. -/
def readPdfToken (parser : PdfValueParser) : Option (Bytes × PdfValueParser) :=
  let start := parser.skipTrivia
  let token := start.rest.takeWhile fun byte =>
    !PdfValueParser.isWhitespace byte && byte != commentMark
  if token.isEmpty then none else some (token, start.advance token.length)

variable (pdf : Bytes)

/-- The offset just past `N G obj` at `offset`, when that header names
`reference`. -/
def objectHeaderEnd (reference : PdfObjectReference) (offset : Nat) : Option Nat := do
  let (number, parser) ← (startingAt pdf offset).unsignedU32
  let (generation, parser) ← parser.unsignedU16
  if number = reference.number ∧ generation = reference.generation then
    let parser ← parser.skipTrivia.consumeKeyword objKeyword
    some parser.offset
  else none

/-- The body of an object: the bytes between its `obj` and `endobj` keywords. -/
def objectBodyAt (reference : PdfObjectReference) (offset : Nat) : Option Bytes := do
  let cursor ← objectHeaderEnd pdf reference offset
  let stop ← findFirst endobjKeyword (pdf.drop cursor)
  slice pdf ⟨cursor, cursor + stop⟩

/-- What opens at `cursor`: a dictionary, with the offset of its `<<`, or
`some none` for another value; `none` when it is no value or a dictionary that
does not close. -/
def leadingDictionary (bytes : Bytes) (cursor : Nat) : Option (Option (Nat × Bytes)) :=
  let start := (startingAt bytes cursor).skipTrivia
  if start.startsWith dictionaryOpen then do
    let (dictionary, _) ← dictionaryAt bytes start.offset
    some (some (start.offset, dictionary))
  else (fun _ => none) <$> (start.value maxPdfValueDepth).toOption

/-- The dictionary opening the object `reference` at `offset`, without reading
any stream data after it. -/
def objectDictionaryAt (reference : PdfObjectReference) (offset : Nat) :
    Option (Option (Nat × Bytes)) := do
  let cursor ← objectHeaderEnd pdf reference offset
  leadingDictionary pdf cursor

end RefineId.Pades
