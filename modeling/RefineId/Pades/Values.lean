import RefineId.Data.Result
import RefineId.Data.Text

/-! The value grammar of `crates/doc-sign/src/pades/index.rs`. -/
namespace RefineId.Pades

open Data

inductive PdfError where
  | notAPdf
  | missingStartXref
  | missingTrailer
  | missingCatalogReference
  | missingObject (number : Nat)
  | unsupportedCrossReferenceStream
  | unsupportedEncryption
  | missingPageTree
  | unreadableForm
  | unreadableValidationStore
  | signatureTooLarge (needed capacity : Nat)
  | corrupt
  | malformedValue
  | nestingTooDeep
  | tooManyRevisions
  deriving DecidableEq

def maxPdfValueDepth : Nat := 64

def commentMark : UInt8 := 0x25
def nameEscape : UInt8 := 0x23
def nameOpen : Bytes := [0x2F]
def dictionaryOpen : Bytes := [0x3C, 0x3C]
def dictionaryClose : Bytes := [0x3E, 0x3E]
def arrayOpen : Bytes := [0x5B]
def arrayClose : Bytes := [0x5D]
def literalOpen : Bytes := [0x28]
def hexOpen : Bytes := [0x3C]
def referenceKeyword : Bytes := [0x52]
def carriageReturn : UInt8 := 0x0D
def lineFeed : UInt8 := 0x0A
def backslash : UInt8 := 0x5C

def isAsciiDigit (byte : UInt8) : Bool :=
  0x30 ≤ byte && byte ≤ 0x39

def decimalStep (out : Nat) (digit : UInt8) : Option Nat := do
  let wide ← checkedMul out 10
  checkedAdd wide (digit - 0x30).toNat

variable (digits : Bytes)

def parseUsize : Option Nat :=
  if digits.isEmpty || !digits.all isAsciiDigit then none
  else digits.foldlM decimalStep 0

def parseU32 : Option Nat :=
  (parseUsize digits).filter (· < 2 ^ 32)

def parseU16 : Option Nat :=
  (parseUsize digits).filter (· < 2 ^ 16)

structure PdfObjectReference where
  number : Nat
  generation : Nat
  deriving DecidableEq

structure Span where
  start : Nat
  stop : Nat
  deriving DecidableEq

/-- The bytes of a range, if the input reaches that far. -/
def slice (bytes : Bytes) (span : Span) : Option Bytes :=
  if span.start ≤ span.stop ∧ span.stop ≤ bytes.length then
    some ((bytes.drop span.start).take (span.stop - span.start))
  else none

/-- One top-level dictionary entry: the decoded name and where the value
stands. -/
structure PdfDictionaryEntry where
  name : Bytes
  value : Span
  deriving DecidableEq

/-- A parsed top-level dictionary: its entries in source order, and where its
closing `>>` stands. -/
structure PdfDictionary where
  entries : List PdfDictionaryEntry
  closing : Nat
  deriving DecidableEq

/-- A position in the bytes being read, and the bytes from there on. -/
structure PdfValueParser where
  offset : Nat
  rest : Bytes
  deriving DecidableEq

namespace PdfValueParser

def startingAt (bytes : Bytes) (offset : Nat) : PdfValueParser :=
  ⟨offset, bytes.drop offset⟩

def new (bytes : Bytes) : PdfValueParser := ⟨0, bytes⟩

variable (parser : PdfValueParser)

def advance (count : Nat) : PdfValueParser :=
  ⟨parser.offset + count, parser.rest.drop count⟩

variable (byte : UInt8)

/-- The six white-space characters. -/
def isWhitespace : Bool :=
  byte == 0x00 || byte == 0x09 || byte == 0x0A || byte == 0x0C || byte == 0x0D || byte == 0x20

/-- The delimiter characters `( ) < > [ ] { } / %`. -/
def isDelimiter : Bool :=
  byte == 0x28 || byte == 0x29 || byte == 0x3C || byte == 0x3E || byte == 0x5B || byte == 0x5D ||
    byte == 0x7B || byte == 0x7D || byte == 0x2F || byte == 0x25

/-- A character that continues a token. -/
def isRegular : Bool :=
  !isWhitespace byte && !isDelimiter byte

def isLineEnd : Bool :=
  byte == carriageReturn || byte == lineFeed

def hexDigit : Option UInt8 :=
  if 0x30 ≤ byte ∧ byte ≤ 0x39 then some (byte - 0x30)
  else if 0x61 ≤ byte ∧ byte ≤ 0x66 then some (byte - 0x61 + 10)
  else if 0x41 ≤ byte ∧ byte ≤ 0x46 then some (byte - 0x41 + 10)
  else none

/-- How far white space and comments reach. A comment runs up to the end of its
line. -/
def triviaLength (inComment : Bool) : Bytes → Nat
  | [] => 0
  | byte :: rest =>
    if inComment then triviaLength (!isLineEnd byte) rest + 1
    else if isWhitespace byte then triviaLength false rest + 1
    else if byte = commentMark then triviaLength true rest + 1
    else 0

def skipTrivia : PdfValueParser :=
  parser.advance (triviaLength false parser.rest)

def startsWith (token : Bytes) : Bool :=
  token.isPrefixOf parser.rest

def consume (token : Bytes) : Option PdfValueParser :=
  if parser.startsWith token then some (parser.advance token.length) else none

def atTokenEnd : Bool :=
  match parser.rest with
  | [] => true
  | byte :: _ => !isRegular byte

/-- Consume `keyword` when it stands as a whole token. -/
def consumeKeyword (keyword : Bytes) : Option PdfValueParser :=
  if parser.startsWith keyword && (parser.advance keyword.length).atTokenEnd then
    some (parser.advance keyword.length)
  else none

/-- A run of decimal digits that forms a whole token. -/
def unsignedDigits : Option (Bytes × PdfValueParser) :=
  let start := parser.skipTrivia
  let digits := start.rest.takeWhile isAsciiDigit
  let after := start.advance digits.length
  if digits.isEmpty || !after.atTokenEnd then none else some (digits, after)

def unsignedU32 : Option (Nat × PdfValueParser) := do
  let (digits, after) ← parser.unsignedDigits
  let value ← parseU32 digits
  some (value, after)

def unsignedU16 : Option (Nat × PdfValueParser) := do
  let (digits, after) ← parser.unsignedDigits
  let value ← parseU16 digits
  some (value, after)

def requireEnd : Except PdfError Unit :=
  if parser.skipTrivia.rest.isEmpty then .ok () else .error .malformedValue

/-- How far the rest of a literal string reaches after its `(`. -/
def literalLength (depth : Nat) : Bytes → Except PdfError Nat
  | [] => .error .malformedValue
  | byte :: rest =>
    if byte = backslash then
      match rest with
      | [] => .error .malformedValue
      | escaped :: rest =>
        match rest with
        | [] => .error .malformedValue
        | next :: rest =>
          if escaped = carriageReturn ∧ next = lineFeed then
            (· + 3) <$> literalLength depth rest
          else (· + 2) <$> literalLength depth (next :: rest)
    else if byte = 0x28 then
      if depth + 1 ≤ maxPdfValueDepth then (· + 1) <$> literalLength (depth + 1) rest
      else .error .nestingTooDeep
    else if byte = 0x29 then
      if depth = 1 then .ok 1 else (· + 1) <$> literalLength (depth - 1) rest
    else (· + 1) <$> literalLength depth rest

def literalStringRemainder : Except PdfError PdfValueParser :=
  parser.advance <$> literalLength 1 parser.rest

/-- How far the rest of a hexadecimal string reaches after its `<`. -/
def hexLength : Bytes → Except PdfError Nat
  | [] => .error .malformedValue
  | byte :: rest => if byte = 0x3E then .ok 1 else (· + 1) <$> hexLength rest

def hexStringRemainder : Except PdfError PdfValueParser :=
  parser.advance <$> hexLength parser.rest

/-- The decoded characters of a name, and how far they reach. -/
def nameCharacters : Bytes → Except PdfError (Bytes × Nat)
  | [] => .ok ([], 0)
  | byte :: rest =>
    if !isRegular byte then .ok ([], 0)
    else if byte = nameEscape then
      match rest with
      | high :: low :: rest =>
        match hexDigit high, hexDigit low with
        | some high, some low =>
          (fun found => ((high * 16 + low) :: found.1, found.2 + 3)) <$> nameCharacters rest
        | _, _ => .error .malformedValue
      | _ => .error .malformedValue
    else (fun found => (byte :: found.1, found.2 + 1)) <$> nameCharacters rest

/-- A name decoded according to PDF's `#xx` byte escapes. -/
def name : Except PdfError (Bytes × PdfValueParser) :=
  match parser.consume nameOpen with
  | none => .error .malformedValue
  | some start => do
      let (decoded, length) ← nameCharacters start.rest
      .ok (decoded, start.advance length)

/-- One non-delimiter token. -/
def atom : Except PdfError (Bytes × PdfValueParser) :=
  let token := parser.rest.takeWhile isRegular
  if token.isEmpty then .error .malformedValue else .ok (token, parser.advance token.length)

/-- Extend an atom across `N G R` when that complete shape follows. -/
def consumeReferenceTail (first : Bytes) (parser : PdfValueParser) : PdfValueParser :=
  let tail : Option PdfValueParser := do
    let _ ← parseU32 first
    let (_, parser) ← parser.unsignedU16
    parser.skipTrivia.consumeKeyword referenceKeyword
  tail.getD parser

/-- The entries of a dictionary after its `<<`. An entry takes at least a byte,
so the bytes left bound their number. -/
def dictionaryEntries (value : PdfValueParser → Except PdfError PdfValueParser) :
    Nat → PdfValueParser → Except PdfError (PdfDictionary × PdfValueParser)
  | 0, _ => .error .malformedValue
  | fuel + 1, parser =>
    let parser := parser.skipTrivia
    match parser.consume dictionaryClose with
    | some after => .ok (⟨[], parser.offset⟩, after)
    | none => do
        let (name, parser) ← parser.name
        let start := parser.skipTrivia
        let parser ← value start
        let (dictionary, after) ← dictionaryEntries value fuel parser
        .ok (⟨⟨name, start.offset, parser.offset⟩ :: dictionary.entries, dictionary.closing⟩, after)

def dictionaryWith (value : PdfValueParser → Except PdfError PdfValueParser)
    (parser : PdfValueParser) : Except PdfError (PdfDictionary × PdfValueParser) :=
  match parser.consume dictionaryOpen with
  | none => .error .malformedValue
  | some parser => dictionaryEntries value (parser.rest.length + 1) parser

def arrayElements (value : PdfValueParser → Except PdfError PdfValueParser) :
    Nat → PdfValueParser → Except PdfError PdfValueParser
  | 0, _ => .error .malformedValue
  | fuel + 1, parser =>
    let parser := parser.skipTrivia
    match parser.consume arrayClose with
    | some after => .ok after
    | none => do
        let parser ← value parser
        arrayElements value fuel parser

/-- What follows one value at the current position, with so many levels of
nesting left. -/
def value (levels : Nat) (parser : PdfValueParser) : Except PdfError PdfValueParser :=
  let parser := parser.skipTrivia
  if parser.startsWith dictionaryOpen then
    match levels with
    | 0 => .error .nestingTooDeep
    | levels + 1 => Prod.snd <$> dictionaryWith (value levels) parser
  else if parser.startsWith arrayOpen then
    match levels with
    | 0 => .error .nestingTooDeep
    | levels + 1 =>
      let parser := parser.advance arrayOpen.length
      arrayElements (value levels) (parser.rest.length + 1) parser
  else if parser.startsWith literalOpen then
    (parser.advance literalOpen.length).literalStringRemainder
  else if parser.startsWith hexOpen then
    (parser.advance hexOpen.length).hexStringRemainder
  else if parser.startsWith nameOpen then Prod.snd <$> parser.name
  else do
    let (first, parser) ← parser.atom
    .ok (parser.consumeReferenceTail first)

/-- A dictionary at the current position, `depth` levels deep. -/
def dictionary (depth : Nat) (parser : PdfValueParser) :
    Except PdfError (PdfDictionary × PdfValueParser) :=
  if depth ≤ maxPdfValueDepth then dictionaryWith (value (maxPdfValueDepth - depth)) parser
  else .error .nestingTooDeep

end PdfValueParser

open PdfValueParser

namespace PdfDictionary

/-- One complete dictionary, with only trivia around it. -/
def parse (bytes : Bytes) : Except PdfError PdfDictionary := do
  let (dictionary, parser) ← (new bytes).skipTrivia.dictionary 1
  parser.requireEnd
  .ok dictionary

/-- The dictionary that opens `bytes`, ignoring what follows it. -/
def parseLeading (bytes : Bytes) : Except PdfError PdfDictionary :=
  Prod.fst <$> (new bytes).skipTrivia.dictionary 1

/-- The sole entry of a name. A repeated name is refused. -/
def entry (dictionary : PdfDictionary) (name : Bytes) :
    Except PdfError (Option PdfDictionaryEntry) :=
  match dictionary.entries.filter (·.name = name) with
  | [] => .ok none
  | [found] => .ok (some found)
  | _ => .error .malformedValue

end PdfDictionary

/-- Where the tokenizer is while walking an object body. -/
inductive Scan where
  | regular
  | comment
  | hexString
  | literalString (depth : Nat) (escaped : Bool)
  deriving DecidableEq

/-- The next value of a 32-bit counter that stops at its last one. -/
def saturatingSucc (count : Nat) : Nat :=
  min (count + 1) (2 ^ 32 - 1)

/-- How far the open dictionaries reach. Strings and comments are skipped, so a
`>>` inside them closes nothing. -/
def scanLength : Scan → Nat → Bytes → Option Nat
  | _, _, [] => none
  | .regular, depth, byte :: rest =>
    if byte = commentMark then (· + 1) <$> scanLength .comment depth rest
    else if byte = 0x28 then (· + 1) <$> scanLength (.literalString 1 false) depth rest
    else
      match rest with
      | [] => none
      | next :: rest =>
        if byte = 0x3C ∧ next = 0x3C then
          (· + 2) <$> scanLength .regular (saturatingSucc depth) rest
        else if byte = 0x3C then (· + 1) <$> scanLength .hexString depth (next :: rest)
        else if byte = 0x3E ∧ next = 0x3E then
          match depth with
          | 0 => none
          | 1 => some 2
          | depth + 2 => (· + 2) <$> scanLength .regular (depth + 1) rest
        else (· + 1) <$> scanLength .regular depth (next :: rest)
  | .comment, depth, byte :: rest =>
    (· + 1) <$> scanLength (if isLineEnd byte then .regular else .comment) depth rest
  | .hexString, depth, byte :: rest =>
    (· + 1) <$> scanLength (if byte = 0x3E then .regular else .hexString) depth rest
  | .literalString nested escaped, depth, byte :: rest =>
    if escaped then (· + 1) <$> scanLength (.literalString nested false) depth rest
    else if byte = backslash then (· + 1) <$> scanLength (.literalString nested true) depth rest
    else if byte = 0x28 then
      (· + 1) <$> scanLength (.literalString (saturatingSucc nested) false) depth rest
    else if byte = 0x29 then
      match nested with
      | 0 => none
      | 1 => (· + 1) <$> scanLength .regular depth rest
      | nested + 2 => (· + 1) <$> scanLength (.literalString (nested + 1) false) depth rest
    else (· + 1) <$> scanLength (.literalString nested false) depth rest

/-- The first offset at or after `cursor` that is neither white space nor inside
a comment. -/
def skipPdfTrivia (pdf : Bytes) (cursor : Nat) : Nat :=
  (startingAt pdf cursor).skipTrivia.offset

/-- The dictionary opening at `cursor`, and the offset just past it. -/
def dictionaryAt (pdf : Bytes) (cursor : Nat) : Option (Bytes × Nat) :=
  let start := (startingAt pdf cursor).skipTrivia
  if start.startsWith dictionaryOpen then do
    let length ← scanLength .regular 0 start.rest
    some (start.rest.take length, start.offset + length)
  else none

end RefineId.Pades
