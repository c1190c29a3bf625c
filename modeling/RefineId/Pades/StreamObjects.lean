import RefineId.Data.Result
import RefineId.Pades.Resolution

/-! Where the payload of a stream object is read from: the first `stream`
anywhere behind the dictionary, which is the object's own only if nothing but
white space and comments stands before it. An object's body likewise ends at
the first `endobj`, be it inside a string. -/
namespace RefineId.Pades

open Data List Option
open PdfValueParser

variable {pdf raw dictionary : Bytes} {offset after start : Nat}

/-- The first place where `needle` stands. -/
def FirstAt (needle bytes : Bytes) (position : Nat) : Prop :=
  needle <+: bytes.drop position ∧ ∀ other < position, ¬needle <+: bytes.drop other

theorem exists_firstAt {needle bytes position} (h : needle <+: bytes.drop position) :
    ∃ first ≤ position, FirstAt needle bytes first := by
  have hSome : ∃ place, needle <+: bytes.drop place := ⟨position, h⟩
  exact ⟨Nat.find hSome, Nat.find_min' hSome h, Nat.find_spec hSome, fun _ => Nat.find_min hSome⟩

theorem findFirst_eq_some {needle bytes position} (hNeedle : needle ≠ []) :
    findFirst needle bytes = some position ↔ FirstAt needle bytes position := by
  induction bytes generalizing position with
  | nil => simp [findFirst, FirstAt, hNeedle]
  | cons byte rest ih =>
    have hStarts : needle.isPrefixOf (byte :: rest) = true ↔ needle <+: byte :: rest :=
      @startsWith_iff (new (byte :: rest)) needle
    rw [findFirst]
    split_ifs with hHere
    · rw [hStarts] at hHere
      refine ⟨fun h => ?_, fun h => ?_⟩
      · cases h
        exact ⟨hHere, by simp⟩
      · cases position with
        | zero => rfl
        | succ position => exact absurd hHere (h.2 0 (Nat.succ_pos _))
    · rw [hStarts] at hHere
      refine map_eq_some_iff.trans ⟨?_, fun h => ?_⟩
      · rintro ⟨found, hFound, rfl⟩
        obtain ⟨hAt, hFirst⟩ := ih.mp hFound
        refine ⟨hAt, fun other hOther => ?_⟩
        cases other with
        | zero => exact hHere
        | succ other => exact hFirst other (Nat.lt_of_succ_lt_succ hOther)
      · cases position with
        | zero => exact absurd h.1 hHere
        | succ position =>
          exact ⟨position, ih.mpr ⟨h.1, fun other hOther => h.2 _ (Nat.succ_lt_succ hOther)⟩, rfl⟩

/-- The dictionary of the object at `offset`, and the offset behind it. -/
def ownDictionary (pdf : Bytes) (offset : Nat) : Option (Bytes × Nat) := do
  let (number, parser) ← (startingAt pdf offset).unsignedU32
  let (generation, _) ← parser.unsignedU16
  dictionaryAt pdf (← objectHeaderEnd pdf ⟨number, generation⟩ offset)

/-- How far white space and comments reach from `after`. -/
def gap (pdf : Bytes) (after : Nat) : Nat :=
  triviaLength false (pdf.drop after)

/-- The offset behind a line end at `start`, if one stands there. -/
def afterLineEnd (pdf : Bytes) (start : Nat) : Nat :=
  let start := if pdf[start]? = some carriageReturn then start + 1 else start
  if pdf[start]? = some lineFeed then start + 1 else start

/-- Where the payload begins if `stream` is the next token and ends its line. -/
def ownPayloadStart (pdf : Bytes) (after : Nat) : Option Nat := do
  let parser ← (startingAt pdf after).skipTrivia.consumeKeyword (asBytes "stream")
  if afterLineEnd pdf parser.offset = parser.offset then none
  else some (afterLineEnd pdf parser.offset)

theorem le_afterLineEnd (pdf : Bytes) (start : Nat) :
    start ≤ afterLineEnd pdf start ∧ afterLineEnd pdf start ≤ start + 2 := by
  rw [afterLineEnd]
  split_ifs <;> omega

theorem streamKeyword_eq : asBytes "stream" = [0x73, 0x74, 0x72, 0x65, 0x61, 0x6D] := by
  decide +kernel

theorem atTokenEnd_of_lineEnd (h : afterLineEnd pdf start ≠ start) :
    (startingAt pdf start).atTokenEnd = true := by
  cases hRest : pdf.drop start with
  | nil => rw [atTokenEnd, startingAt, hRest]
  | cons byte rest =>
    have hHead : pdf[start]? = some byte := by rw [← head?_drop, hRest, head?_cons]
    rw [atTokenEnd, startingAt, hRest]
    by_cases hReturn : byte = carriageReturn
    · subst hReturn
      rfl
    · by_cases hFeed : byte = lineFeed
      · subst hFeed
        rfl
      · simp [afterLineEnd, hHead, hReturn, hFeed] at h

theorem ownPayloadStart_eq_some : ownPayloadStart pdf after = some start ↔
    asBytes "stream" <+: pdf.drop (after + gap pdf after) ∧
      afterLineEnd pdf (after + gap pdf after + 6) ≠ after + gap pdf after + 6 ∧
      afterLineEnd pdf (after + gap pdf after + 6) = start := by
  have hSix : (asBytes "stream").length = 6 := congrArg length streamKeyword_eq
  have hToken : (startingAt pdf after).skipTrivia = startingAt pdf (after + gap pdf after) :=
    startingAt_advance ..
  rw [ownPayloadStart, consumeKeyword, hSix, hToken, startingAt_advance, startsWith,
    ← isPrefixOf_iff_prefix]
  by_cases hLine : afterLineEnd pdf (after + gap pdf after + 6) = after + gap pdf after + 6
  · simp [bind_eq_some_iff, hLine, startingAt]
  · rw [atTokenEnd_of_lineEnd hLine]
    simp [bind_eq_some_iff, hLine, startingAt]

variable {position : Nat}

/-- The first `stream` in sight is the object's own keyword exactly if nothing
but white space and comments stands before it and a line end behind it. -/
theorem ownPayloadStart_iff (h : FirstAt (asBytes "stream") (pdf.drop after) position) :
    ownPayloadStart pdf after = some (afterLineEnd pdf (after + position + 6)) ↔
      gap pdf after = position ∧
        afterLineEnd pdf (after + position + 6) ≠ after + position + 6 := by
  rw [ownPayloadStart_eq_some]
  obtain ⟨hHere, hFirst⟩ := h
  constructor
  · rintro ⟨hOwn, hLine, hSame⟩
    rw [← drop_drop] at hOwn
    have hBefore := Nat.le_of_not_lt fun hEarly => hFirst _ hEarly hOwn
    have hLeft := (le_afterLineEnd pdf (after + position + 6)).2
    have hRight := (le_afterLineEnd pdf (after + gap pdf after + 6)).1
    obtain ⟨shift, hShift⟩ := Nat.exists_eq_add_of_le hBefore
    obtain ⟨rest, hRest⟩ := hHere
    -- the keyword does not overlap itself
    rw [hShift, ← drop_drop, ← hRest, streamKeyword_eq] at hOwn
    obtain rfl | rfl | rfl : shift = 0 ∨ shift = 1 ∨ shift = 2 := by omega
    · rw [Nat.add_zero] at hShift
      exact ⟨hShift, hShift ▸ hLine⟩
    all_goals simp at hOwn
  · rintro ⟨rfl, hLine⟩
    exact ⟨drop_drop .. ▸ hHere, hLine, rfl⟩

theorem payloadFrom_front (h : payloadFrom pdf start dictionary = some raw) :
    raw <+: pdf.drop start := by
  rcases or_eq_some_iff.mp h with hLength | ⟨-, hKeyword⟩
  · obtain ⟨length, -, hSlice⟩ := bind_eq_some_iff.mp hLength
    rw [slice] at hSlice
    split_ifs at hSlice
    cases hSlice
    exact take_prefix ..
  · obtain ⟨stop, -, hPayload⟩ := bind_eq_some_iff.mp hKeyword
    cases hPayload
    have hTrimmed (byte : UInt8) (payload : Bytes) :
        (if payload.getLast? = some byte then payload.dropLast else payload) <+: payload := by
      split_ifs
      · exact dropLast_prefix payload
      · exact prefix_rfl
    exact (hTrimmed _ _).trans <| (hTrimmed _ _).trans <| take_prefix ..

theorem payloadStart_eq_some : payloadStart pdf after = some start ↔
    ∃ position, FirstAt (asBytes "stream") (pdf.drop after) position ∧
      afterLineEnd pdf (after + position + 6) = start := by
  refine bind_eq_some_iff.trans (exists_congr fun position => ?_)
  rw [findFirst_eq_some (by rw [streamKeyword_eq]; decide)]
  exact and_congr_right fun _ => some_inj

/-- Reading a stream object succeeds on a dictionary, the first `stream` behind
it, whatever is in between, and a payload there that decodes. -/
theorem parseStreamObject_eq_ok {zlib object} :
    parseStreamObject zlib pdf offset = .ok object ↔ ∃ after start raw,
      ownDictionary pdf offset = some (object.dictionary, after) ∧
      payloadStart pdf after = some start ∧
      payloadFrom pdf start object.dictionary = some raw ∧
      decoded zlib raw object.dictionary = .ok object.payload := by
  obtain ⟨dictionary, payload⟩ := object
  simp only [parseStreamObject, rawPayload, bind_eq_ok, okOr_eq_ok]
  constructor
  · rintro ⟨⟨number, parser⟩, hNumber, ⟨generation, _⟩, hGeneration, cursor, hCursor,
      ⟨_, after⟩, hDictionary, raw, ⟨start, hStart, hRaw⟩, _, hPayload, hObject⟩
    cases hObject
    exact ⟨after, start, raw, by simp_all [ownDictionary], hStart, hRaw, hPayload⟩
  · rintro ⟨after, start, raw, hOwn, hStart, hRaw, hPayload⟩
    obtain ⟨⟨number, parser⟩, hNumber, hOwn⟩ := bind_eq_some_iff.mp hOwn
    obtain ⟨⟨generation, _⟩, hGeneration, hOwn⟩ := bind_eq_some_iff.mp hOwn
    obtain ⟨cursor, hCursor, hOwn⟩ := bind_eq_some_iff.mp hOwn
    exact ⟨_, hNumber, _, hGeneration, cursor, hCursor, _, hOwn, raw, ⟨start, hStart, hRaw⟩, _,
      hPayload, rfl⟩

/-- The payload is what the octets behind the object's own `stream` decode to,
which is the next token behind its dictionary and ends its line. -/
def FromOwnKeyword (zlib : Zlib) (pdf : Bytes) (offset : Nat) (payload : Bytes) : Prop :=
  ∃ dictionary after start raw, ownDictionary pdf offset = some (dictionary, after) ∧
    ownPayloadStart pdf after = some start ∧ payloadStart pdf after = some start ∧
    raw <+: pdf.drop start ∧ decoded zlib raw dictionary = .ok payload

/-- At every offset of every file, streams are read from behind their object's
own keyword, or refused, exactly if the letters `stream`, where they first stand
behind its dictionary with a payload that decodes, are that keyword: only white
space and comments before them and a line end behind. -/
theorem stream_read_own_iff (zlib : Zlib) (pdf : Bytes) (offset : Nat) :
    ((∀ object, parseStreamObject zlib pdf offset = .ok object →
        FromOwnKeyword zlib pdf offset object.payload) ∧
      ∀ reference payload, streamPayload zlib pdf offset reference = .ok payload →
        FromOwnKeyword zlib pdf offset payload) ↔
    ∀ dictionary after position raw payload,
      ownDictionary pdf offset = some (dictionary, after) →
      FirstAt (asBytes "stream") (pdf.drop after) position →
      payloadFrom pdf (afterLineEnd pdf (after + position + 6)) dictionary = some raw →
      decoded zlib raw dictionary = .ok payload →
      gap pdf after = position ∧
        afterLineEnd pdf (after + position + 6) ≠ after + position + 6 := by
  constructor
  · rintro ⟨hParse, -⟩ dictionary after position raw payload hOwn hFirst hRaw hPayload
    have hStart := payloadStart_eq_some.mpr ⟨position, hFirst, rfl⟩
    obtain ⟨_, _, start, _, hSame, hKeyword, hRead, -⟩ := hParse ⟨dictionary, payload⟩
      (parseStreamObject_eq_ok.mpr ⟨after, _, raw, hOwn, hStart, hRaw, hPayload⟩)
    cases hOwn.symm.trans hSame
    rw [← ownPayloadStart_iff hFirst, hKeyword, ← hRead, hStart]
  · intro hFirst
    have hParse (object : StreamObject) (h : parseStreamObject zlib pdf offset = .ok object) :
        FromOwnKeyword zlib pdf offset object.payload := by
      obtain ⟨after, start, raw, hOwn, hStart, hRaw, hPayload⟩ := parseStreamObject_eq_ok.mp h
      obtain ⟨position, hAt, rfl⟩ := payloadStart_eq_some.mp hStart
      have hNext := hFirst _ _ _ _ _ hOwn hAt hRaw hPayload
      exact ⟨_, after, _, raw, hOwn, (ownPayloadStart_iff hAt).mpr hNext, hStart,
        payloadFrom_front hRaw, hPayload⟩
    refine ⟨hParse, fun reference payload h => ?_⟩
    rw [streamPayload] at h
    split_ifs at h
    obtain ⟨object, hObject, rfl⟩ := map_eq_ok.mp h
    exact hParse object hObject

/-- An object that is only a dictionary, and a stream behind it. -/
def dictionaryBeforeStream : Bytes :=
  asBytes "1 0 obj<<>>endobj 2 0 obj<<>>stream\nAendstream"

theorem foreign_stream_read :
    ownPayloadStart dictionaryBeforeStream 11 = none ∧
      parseStreamObject (fun _ _ => none) dictionaryBeforeStream 0 =
        .ok ⟨asBytes "<<>>", asBytes "A"⟩ ∧
      streamPayload (fun _ _ => none) dictionaryBeforeStream 0 ⟨1, 0⟩ = .ok (asBytes "A") := by
  decide +kernel

section Bodies

/-- The value read at the front of `body` is written as `text`. -/
def ReadsBack (body text : Bytes) : Prop :=
  ∃ after, value maxPdfValueDepth (new body) = .ok after ∧ body.take after.offset = text

def decimal (number : Nat) : Bytes :=
  (Nat.toDigits 10 number).map Char.toUInt8

theorem decimalStep_eq {out value digit} (hDigit : (digit - 0x30).toNat = value)
    (hWord : out * 10 + value < 2 ^ 64) : decimalStep out digit = some (out * 10 + value) := by
  rw [decimalStep, checkedMul, if_pos (by omega), ← hDigit]
  exact if_pos (hDigit ▸ hWord)

theorem decimal_digits (number : Nat) :
    decimal number ≠ [] ∧ (∀ byte ∈ decimal number, isAsciiDigit byte) ∧
      (number < 2 ^ 64 → (decimal number).foldlM decimalStep 0 = some number) := by
  have hDigit : ∀ digit < 10, isAsciiDigit digit.digitChar.toUInt8 = true ∧
      (digit.digitChar.toUInt8 - 0x30).toNat = digit := by decide
  refine ⟨by simp [decimal, Nat.toDigits_ne_nil], ?_⟩
  induction number using Nat.strongRecOn with
  | ind number ih =>
    rw [decimal]
    rcases Nat.lt_or_ge number 10 with hOne | hMore
    · obtain ⟨hByte, hValue⟩ := hDigit number hOne
      rw [Nat.toDigits_of_lt_base hOne]
      refine ⟨by simpa using hByte, fun hWord => (bind_fun_some _).trans ?_⟩
      rw [decimalStep_eq hValue (by omega), Nat.zero_mul, Nat.zero_add]
    · obtain ⟨hByte, hValue⟩ := hDigit (number % 10) (Nat.mod_lt _ (by decide))
      obtain ⟨hBytes, hFold⟩ := ih (number / 10) (by omega)
      rw [decimal] at hBytes hFold
      rw [Nat.toDigits_of_base_le (by decide) hMore, map_append]
      refine ⟨forall_mem_append.mpr ⟨hBytes, by simpa using hByte⟩, fun hWord => ?_⟩
      rw [foldlM_append, hFold (by omega)]
      refine (bind_fun_some _).trans ?_
      rw [decimalStep_eq hValue (by omega), Nat.div_add_mod']

theorem parseUsize_decimal {number} (h : number < 2 ^ 64) :
    parseUsize (decimal number) = some number := by
  obtain ⟨hSome, hDigits, hValue⟩ := decimal_digits number
  rw [parseUsize, if_neg (by simpa [hSome] using hDigits), hValue h]

/-- A number is read back, with or without a space before it. -/
theorem unsignedDigits_decimal (offset number : Nat) (tail : Bytes) {space}
    (hSpace : space = [] ∨ space = [0x20]) :
    unsignedDigits ⟨offset, space ++ (decimal number ++ 0x20 :: tail)⟩ =
      some (decimal number, ⟨offset + space.length + (decimal number).length, 0x20 :: tail⟩) := by
  obtain ⟨hSome, hDigits, -⟩ := decimal_digits number
  have hRun : (decimal number ++ 0x20 :: tail).takeWhile isAsciiDigit = decimal number := by
    rw [takeWhile_append_of_pos hDigits]
    simp [isAsciiDigit]
  have hNone : triviaLength false (decimal number ++ 0x20 :: tail) = 0 := by
    obtain ⟨first, others, hFirst⟩ := exists_cons_of_ne_nil hSome
    have hOwn : isAsciiDigit first = true := hDigits first (by rw [hFirst]; exact mem_cons_self)
    have hPlain : ∀ byte, isAsciiDigit byte = true →
        PdfValueParser.isWhitespace byte = false ∧ byte ≠ commentMark :=
      forall_byte (by decide +kernel)
    simp [hFirst, triviaLength, hPlain first hOwn]
  have hTrivia : triviaLength false (space ++ (decimal number ++ 0x20 :: tail)) = space.length := by
    rcases hSpace with rfl | rfl
    · exact hNone
    · exact congrArg (· + 1) hNone
  rw [unsignedDigits, skipTrivia, hTrivia, advance, drop_left]
  rw [hRun, advance, drop_left, isEmpty_eq_false_iff.mpr hSome]
  exact if_neg Bool.false_ne_true

def objectHeader (reference : PdfObjectReference) : Bytes :=
  decimal reference.number ++ 0x20 :: (decimal reference.generation ++ 0x20 :: objKeyword)

/-- The header is read exactly if what follows it does not continue its last word. -/
theorem objectHeaderEnd_header {reference} (front body : Bytes)
    (hNumber : reference.number < 2 ^ 32) (hGeneration : reference.generation < 2 ^ 16) :
    objectHeaderEnd (front ++ (objectHeader reference ++ body)) reference front.length =
      if (new body).atTokenEnd then some (front.length + (objectHeader reference).length)
      else none := by
  obtain ⟨number, generation⟩ := reference
  dsimp only at hNumber hGeneration
  have hFirst := unsignedDigits_decimal front.length number
    (decimal generation ++ 0x20 :: (objKeyword ++ body)) (.inl rfl)
  have hSecond := unsignedDigits_decimal (front.length + (decimal number).length) generation
    (objKeyword ++ body) (.inr rfl)
  have hWord : parseU32 (decimal number) = some number :=
    filter_eq_some_iff.mpr ⟨parseUsize_decimal (by omega), decide_eq_true hNumber⟩
  have hHalf : parseU16 (decimal generation) = some generation :=
    filter_eq_some_iff.mpr ⟨parseUsize_decimal (by omega), decide_eq_true hGeneration⟩
  have hLast (offset : Nat) : skipTrivia ⟨offset, 0x20 :: (objKeyword ++ body)⟩ =
    ⟨offset + 1, objKeyword ++ body⟩ := rfl
  have hKeyword (offset : Nat) : consumeKeyword ⟨offset, objKeyword ++ body⟩ objKeyword =
      if (new body).atTokenEnd then some ⟨offset + 3, body⟩ else none := rfl
  simp only [nil_append, cons_append, length_nil, Nat.add_zero] at hFirst hSecond
  simp only [objectHeaderEnd, startingAt, drop_left, objectHeader, append_assoc, cons_append,
    unsignedU32, unsignedU16, hFirst, hSecond, hWord, hHalf, bind_eq_bind, bind_some, hLast,
    hKeyword, and_self, if_true]
  split_ifs
  · have hThree : objKeyword.length = 3 := rfl
    simp only [bind_some, length_append, length_cons, length_nil, hThree]
    congr 1
    omega
  · rfl

variable {reference : PdfObjectReference} {cursor position : Nat} {text space rest : Bytes}

/-- The keyword stands in front of `endobj` only inside the text: it neither
overlaps itself nor holds white space. -/
theorem endobj_inside (hSpace : ∀ byte ∈ space, isWhitespace byte)
    (hHere : endobjKeyword <+: (text ++ (space ++ (endobjKeyword ++ rest))).drop position)
    (hBefore : position < text.length + space.length) : endobjKeyword <:+: text := by
  have hBytes (index : Nat) (hIndex : index < 6) :
      (text ++ (space ++ (endobjKeyword ++ rest)))[position + index]? = endobjKeyword[index]? := by
    obtain ⟨tail, hTail⟩ := hHere
    rw [← getElem?_drop, ← hTail, getElem?_append_left hIndex]
  rcases Nat.lt_or_ge position text.length with hText | hText
  · by_cases hFits : position + 6 ≤ text.length
    · rw [drop_append_of_le_length hText.le] at hHere
      have hPrefix := prefix_of_prefix_length_le hHere ⟨_, rfl⟩
        (by rw [length_drop]; exact Nat.le_sub_of_add_le' hFits)
      exact hPrefix.isInfix.trans (drop_suffix ..).isInfix
    · obtain ⟨inside, hInside⟩ := Nat.exists_eq_add_of_lt hText
      have hNext := hBytes (inside + 1) (by omega)
      rw [← Nat.add_assoc, ← hInside, getElem?_append_right le_rfl, Nat.sub_self] at hNext
      have hLetter (byte : UInt8) (h : endobjKeyword.tail[inside]? = some byte) :
          byte ≠ 0x65 ∧ ¬isWhitespace byte :=
        of_decide_eq_true (all_eq_true.mp (by decide : endobjKeyword.tail.all fun byte =>
          byte ≠ 0x65 ∧ ¬isWhitespace byte) byte (mem_of_getElem? h))
      cases space with
      | nil => exact absurd rfl (hLetter _ hNext.symm).1
      | cons byte _ => exact absurd (hSpace byte mem_cons_self) (hLetter _ hNext.symm).2
  · have hFirst := hBytes 0 (by decide)
    rw [Nat.add_zero, getElem?_append_right hText, getElem?_append_left (by omega)] at hFirst
    exact absurd (hSpace _ (mem_of_getElem? hFirst)) (by decide)

/-- Where the value of an object is read back from its body: its text, comments
and strings included, nowhere spells `endobj`. -/
theorem body_reads_back_iff (hHeader : objectHeaderEnd pdf reference offset = some cursor)
    (hFile : pdf.drop cursor = text ++ (space ++ (endobjKeyword ++ rest)))
    (hSpace : ∀ byte ∈ space, isWhitespace byte) (hValue : ReadsBack (text ++ space) text) :
    (∃ body, objectBodyAt pdf reference offset = some body ∧ ReadsBack body text) ↔
      ¬endobjKeyword <:+: text := by
  have hOwn : endobjKeyword <+: (pdf.drop cursor).drop (text ++ space).length := by
    rw [hFile, ← append_assoc, drop_left]
    exact prefix_append ..
  obtain ⟨position, hBefore, hHere, hFirst⟩ := exists_firstAt hOwn
  have hBody : objectBodyAt pdf reference offset = some ((text ++ space).take position) := by
    have hLength := congrArg length hFile
    simp only [length_drop, length_append] at hLength
    have hEnd : cursor + position ≤ pdf.length := by
      have hSix : endobjKeyword.length = 6 := rfl
      rw [length_append] at hBefore
      omega
    refine bind_eq_some_iff.mpr ⟨cursor, hHeader, bind_eq_some_iff.mpr ⟨position,
      (findFirst_eq_some (by decide)).mpr ⟨hHere, hFirst⟩, ?_⟩⟩
    rw [slice, if_pos ⟨Nat.le_add_right .., hEnd⟩, Nat.add_sub_cancel_left, hFile, ← append_assoc,
      take_append_of_le_length hBefore]
  simp only [hBody, some.injEq, exists_eq_left']
  refine ⟨fun hRead hInside => ?_, fun hNowhere => ?_⟩
  · obtain ⟨before, later, rfl⟩ := hInside
    have hEarly := Nat.le_of_not_lt fun hLater => hFirst before.length hLater (by simp [hFile])
    obtain ⟨after, -, hText⟩ := hRead
    have hShort := congrArg length hText
    have hSix : endobjKeyword.length = 6 := rfl
    simp only [length_take, length_append] at hShort
    omega
  · rw [take_of_length_le]
    · exact hValue
    · rw [length_append]
      exact Nat.le_of_not_lt fun hInside => hNowhere (endobj_inside hSpace (hFile ▸ hHere) hInside)

/-- An object written as `N G obj`, a value, white space and `endobj`, anywhere
in a file: its value is read back from its body exactly if white space or a
delimiter follows `obj` and the value's text nowhere spells `endobj`. -/
theorem object_body_reads_back_iff (front rest : Bytes) (hNumber : reference.number < 2 ^ 32)
    (hGeneration : reference.generation < 2 ^ 16) (hSpace : ∀ byte ∈ space, isWhitespace byte)
    (hValue : ReadsBack (text ++ space) text) :
    (∃ body, objectBodyAt (front ++ (objectHeader reference ++
        (text ++ (space ++ (endobjKeyword ++ rest))))) reference front.length = some body ∧
      ReadsBack body text) ↔
      (text ++ space).head?.any (!isRegular ·) ∧ ¬endobjKeyword <:+: text := by
  have hHeader := objectHeaderEnd_header front (text ++ (space ++ (endobjKeyword ++ rest)))
    hNumber hGeneration
  have hNext : (new (text ++ (space ++ (endobjKeyword ++ rest)))).atTokenEnd =
      (text ++ space).head?.any (!isRegular ·) := by
    cases text with
    | cons _ _ => rfl
    | nil => cases space <;> rfl
  rw [hNext] at hHeader
  split_ifs at hHeader with hApart
  · rw [and_iff_right hApart]
    exact body_reads_back_iff hHeader (by rw [← drop_drop, drop_left, drop_left]) hSpace hValue
  · refine iff_of_false ?_ fun h => hApart h.1
    rintro ⟨body, hBody, -⟩
    rw [objectBodyAt, hHeader] at hBody
    cases hBody

theorem object_body_number : ∃ body,
    objectBodyAt (asBytes "%PDF 12 0 obj 5 endobj") ⟨12, 0⟩ 5 = some body ∧
      ReadsBack body (asBytes " 5") :=
  (@object_body_reads_back_iff ⟨12, 0⟩ (asBytes " 5") (asBytes " ") (asBytes "%PDF ") [] (by decide)
    (by decide) (by decide +kernel) ⟨_, rfl, by decide +kernel⟩).mpr (by decide +kernel)

/-- A string that spells the keyword, and a number right behind `obj`. -/
theorem object_body_cut :
    objectBodyAt (asBytes "1 0 obj(endobj)endobj") ⟨1, 0⟩ 0 = some (asBytes "(") ∧
      value maxPdfValueDepth (new (asBytes "(endobj)")) = .ok ⟨8, []⟩ ∧
      value maxPdfValueDepth (new (asBytes "(")) = .error .malformedValue ∧
      objectBodyAt (asBytes "1 0 obj5endobj") ⟨1, 0⟩ 0 = none ∧
      value maxPdfValueDepth (new (asBytes "5")) = .ok ⟨1, []⟩ := by
  decide +kernel

end Bodies

end RefineId.Pades
