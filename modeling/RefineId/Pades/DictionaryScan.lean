import RefineId.Pades.Values
import Mathlib.Data.List.TakeWhile

/-! The two dictionary readers agree: the scan that looks only for brackets,
strings and comments stops where the value grammar does. -/
namespace RefineId.Pades

open Data List Nat Option Except
open PdfValueParser

/-- Where a scan in this state, from this position, finds its dictionary closed. -/
def closes (state : Scan) (depth : Nat) (parser : PdfValueParser) : Option Nat :=
  (scanLength state depth parser.rest).map (parser.offset + ·)

variable {depth offset : Nat} {rest : Bytes}

section Steps
theorem map_closes_succ (result : Option Nat) (offset count : Nat) :
    (((· + count) <$> result).map (offset + ·) : Option Nat) = result.map (offset + count + ·) := by
  cases result with
  | none => rfl
  | some length =>
    change some (offset + (length + count)) = some (offset + count + length)
    congr 1
    omega

theorem closes_nil (state : Scan) : closes state depth ⟨offset, []⟩ = none := by
  cases state <;> rfl

variable (byte : UInt8)

theorem closes_regular : closes .regular depth ⟨offset, byte :: rest⟩ =
      if byte = commentMark then closes .comment depth ⟨offset + 1, rest⟩
      else if byte = 0x28 then closes (.literalString 1 false) depth ⟨offset + 1, rest⟩
      else
        match rest with
        | [] => none
        | next :: rest =>
          if byte = 0x3C ∧ next = 0x3C then
            closes .regular (saturatingSucc depth) ⟨offset + 2, rest⟩
          else if byte = 0x3C then closes .hexString depth ⟨offset + 1, next :: rest⟩
          else if byte = 0x3E ∧ next = 0x3E then
            match depth with
            | 0 => none
            | 1 => some (offset + 2)
            | depth + 2 => closes .regular (depth + 1) ⟨offset + 2, rest⟩
          else closes .regular depth ⟨offset + 1, next :: rest⟩ := by
  rw [closes, scanLength.eq_def]
  dsimp only
  by_cases hComment : byte = commentMark
  · rw [if_pos hComment, if_pos hComment]
    exact map_closes_succ _ offset 1
  rw [if_neg hComment, if_neg hComment]
  by_cases hLiteral : byte = 0x28
  · rw [if_pos hLiteral, if_pos hLiteral]
    exact map_closes_succ _ offset 1
  rw [if_neg hLiteral, if_neg hLiteral]
  cases rest with
  | nil => rfl
  | cons next rest =>
    dsimp only
    split_ifs with hOpen hHex hClose
    · exact map_closes_succ _ offset 2
    · exact map_closes_succ _ offset 1
    · match depth with
      | 0 | 1 => rfl
      | depth + 2 => exact map_closes_succ _ offset 2
    · exact map_closes_succ _ offset 1

variable (nested : Nat)

theorem closes_literal (escaped : Bool) (byte : UInt8) :
    closes (.literalString nested escaped) depth ⟨offset, byte :: rest⟩ =
      if escaped then closes (.literalString nested false) depth ⟨offset + 1, rest⟩
      else if byte = backslash then closes (.literalString nested true) depth ⟨offset + 1, rest⟩
      else if byte = 0x28 then
        closes (.literalString (saturatingSucc nested) false) depth ⟨offset + 1, rest⟩
      else if byte = 0x29 then
        match nested with
        | 0 => none
        | 1 => closes .regular depth ⟨offset + 1, rest⟩
        | nested + 2 => closes (.literalString (nested + 1) false) depth ⟨offset + 1, rest⟩
      else closes (.literalString nested false) depth ⟨offset + 1, rest⟩ := by
  rw [closes, scanLength.eq_def]
  dsimp only
  split_ifs with hEscaped hEscape hNest hUnnest
  · exact map_closes_succ _ offset 1
  · exact map_closes_succ _ offset 1
  · exact map_closes_succ _ offset 1
  · match nested with
    | 0 => rfl
    | 1 | nested + 2 => exact map_closes_succ _ offset 1
  · exact map_closes_succ _ offset 1

/-- A byte that opens or closes nothing. -/
def IsPlain (byte : UInt8) : Prop :=
  byte ≠ commentMark ∧ byte ≠ 0x28 ∧ byte ≠ 0x3C ∧ byte ≠ 0x3E

instance : DecidablePred IsPlain :=
  fun _ => inferInstanceAs (Decidable (_ ∧ _ ∧ _ ∧ _))

theorem closes_plain {byte} (h : IsPlain byte) :
    closes .regular depth ⟨offset, byte :: rest⟩ = closes .regular depth ⟨offset + 1, rest⟩ := by
  obtain ⟨hComment, hLiteral, hOpen, hClose⟩ := h
  rw [closes_regular, if_neg hComment, if_neg hLiteral]
  cases rest with
  | nil => rw [closes_nil]
  | cons next rest => simp only [hOpen, hClose, false_and, if_false]

theorem closes_comment : closes .comment depth ⟨offset, byte :: rest⟩ =
      closes (if isLineEnd byte then .regular else .comment) depth ⟨offset + 1, rest⟩ :=
  map_closes_succ _ offset 1

theorem closes_hexString : closes .hexString depth ⟨offset, byte :: rest⟩ =
      closes (if byte = 0x3E then .regular else .hexString) depth ⟨offset + 1, rest⟩ :=
  map_closes_succ _ offset 1

theorem closes_literal_open : closes .regular depth ⟨offset, 0x28 :: rest⟩ =
      closes (.literalString 1 false) depth ⟨offset + 1, rest⟩ := by
  rw [closes_regular, if_neg (by decide), if_pos rfl]

theorem closes_hex_open {next} (h : next ≠ 0x3C) :
    closes .regular depth ⟨offset, 0x3C :: next :: rest⟩ =
      closes .hexString depth ⟨offset + 1, next :: rest⟩ := by
  rw [closes_regular, if_neg (by decide), if_neg (by decide)]
  simp only [h, and_false, if_false, if_true]

theorem closes_dictionary_open (h : depth + 1 < 2 ^ 32) :
    closes .regular depth ⟨offset, 0x3C :: 0x3C :: rest⟩ =
      closes .regular (depth + 1) ⟨offset + 2, rest⟩ := by
  have hDepth : saturatingSucc depth = depth + 1 := Nat.min_eq_left (by omega)
  rw [closes_regular, if_neg (by decide), if_neg (by decide)]
  simp only [hDepth, and_self, if_true]

/-- A closing `>>` ends the outermost dictionary or goes back to the one
around it. -/
theorem closes_dictionary_close : closes .regular (depth + 1) ⟨offset, 0x3E :: 0x3E :: rest⟩ =
      if depth = 0 then some (offset + 2) else closes .regular depth ⟨offset + 2, rest⟩ := by
  have hOpen : (0x3E : UInt8) ≠ 0x3C := by decide
  rw [closes_regular, if_neg (by decide), if_neg (by decide)]
  simp only [hOpen, and_self, if_false, if_true]
  cases depth with
  | zero => rfl
  | succ depth => rw [if_neg (Nat.succ_ne_zero depth)]

theorem closes_literal_escape :
    closes (.literalString nested false) depth ⟨offset, backslash :: rest⟩ =
      closes (.literalString nested true) depth ⟨offset + 1, rest⟩ := by
  rw [closes_literal, if_neg Bool.false_ne_true, if_pos rfl]

theorem closes_literal_escaped (byte : UInt8) :
    closes (.literalString nested true) depth ⟨offset, byte :: rest⟩ =
      closes (.literalString nested false) depth ⟨offset + 1, rest⟩ := by
  rw [closes_literal, if_pos rfl]

theorem closes_literal_unnest {nested} :
    closes (.literalString (nested + 1) false) depth ⟨offset, 0x29 :: rest⟩ =
      if nested = 0 then closes .regular depth ⟨offset + 1, rest⟩
      else closes (.literalString nested false) depth ⟨offset + 1, rest⟩ := by
  rw [closes_literal, if_neg Bool.false_ne_true, if_neg (by decide), if_neg (by decide), if_pos rfl]
  cases nested with
  | zero => rfl
  | succ nested => rw [if_neg (Nat.succ_ne_zero nested)]

theorem closes_literal_plain {nested byte} (hEscape : byte ≠ backslash)
    (hNest : byte ≠ 0x28) (hUnnest : byte ≠ 0x29) :
    closes (.literalString nested false) depth ⟨offset, byte :: rest⟩ =
      closes (.literalString nested false) depth ⟨offset + 1, rest⟩ := by
  rw [closes_literal, if_neg Bool.false_ne_true, if_neg hEscape, if_neg hNest, if_neg hUnnest]

end Steps

variable {parser after : PdfValueParser} {count : Nat}

section Tokens
variable {byte : UInt8}

theorem isPlain_of_isRegular (h : isRegular byte = true) : IsPlain byte := by
  refine ⟨?_, ?_, ?_, ?_⟩ <;> rintro rfl <;> exact absurd h (by decide)

theorem isPlain_of_isWhitespace (h : isWhitespace byte = true) : IsPlain byte := by
  refine ⟨?_, ?_, ?_, ?_⟩ <;> rintro rfl <;> exact absurd h (by decide)

theorem advance_succ (offset count : Nat) (byte : UInt8) (rest : Bytes) :
    (⟨offset, byte :: rest⟩ : PdfValueParser).advance (count + 1) =
      (⟨offset + 1, rest⟩ : PdfValueParser).advance count := by
  rw [advance, advance, drop_succ_cons, add_right_comm, add_assoc]

@[simp] theorem advance_zero (parser : PdfValueParser) : parser.advance 0 = parser := rfl

theorem closes_run (h : ∀ byte ∈ parser.rest.take count, IsPlain byte) :
    closes .regular depth parser = closes .regular depth (parser.advance count) := by
  induction count generalizing parser with
  | zero => rfl
  | succ count ih =>
    obtain ⟨offset, rest⟩ := parser
    cases rest with
    | nil => rw [closes_nil, advance, drop_nil, closes_nil]
    | cons byte rest =>
      rw [take_succ_cons] at h
      rw [advance_succ, closes_plain (h byte mem_cons_self)]
      exact ih fun other hOther => h other (mem_cons_of_mem _ hOther)

variable {token : Bytes}

theorem isPlain_of_all (h : token.all (IsPlain ·) = true) : ∀ byte ∈ token, IsPlain byte := by
  intro byte hByte
  exact of_decide_eq_true (all_eq_true.mp h byte hByte)

theorem closes_token (h : ∀ byte ∈ token, IsPlain byte) (hToken : token <+: parser.rest) :
    closes .regular depth parser = closes .regular depth (parser.advance token.length) := by
  apply closes_run
  rwa [← prefix_iff_eq_take.mp hToken]

theorem closes_trivia (inComment : Bool) (offset : Nat) (rest : Bytes) :
    closes (if inComment then .comment else .regular) depth ⟨offset, rest⟩ = closes .regular depth
        ((⟨offset, rest⟩ : PdfValueParser).advance (triviaLength inComment rest)) := by
  induction rest generalizing offset inComment with
  | nil => rw [triviaLength, advance_zero, closes_nil, closes_nil]
  | cons byte rest ih =>
    rw [triviaLength]
    cases inComment with
    | true =>
      rw [if_pos rfl, if_pos rfl, closes_comment, advance_succ, ← ih]
      cases isLineEnd byte <;> rfl
    | false =>
      rw [if_neg Bool.false_ne_true, if_neg Bool.false_ne_true]
      split_ifs with hSpace hMark
      · rw [closes_plain (isPlain_of_isWhitespace hSpace), advance_succ]
        exact ih false (offset + 1)
      · subst hMark
        rw [closes_regular, if_pos rfl, advance_succ]
        exact ih true (offset + 1)
      · rfl

theorem closes_skipTrivia (parser : PdfValueParser) :
    closes .regular depth parser = closes .regular depth parser.skipTrivia :=
  closes_trivia false parser.offset parser.rest

theorem closes_hexLength (h : hexLength rest = .ok count) : closes .hexString depth ⟨offset, rest⟩ =
      closes .regular depth ((⟨offset, rest⟩ : PdfValueParser).advance count) := by
  induction rest generalizing offset count with
  | nil => cases h
  | cons byte rest ih =>
    rw [hexLength] at h
    rw [closes_hexString]
    split_ifs at h ⊢ with hClose
    · obtain rfl := ok.inj h
      rfl
    · obtain ⟨inner, hInner, rfl⟩ := map_eq_ok.mp h
      rw [advance_succ]
      exact ih hInner

theorem closes_literalLength {nested} (hNested : 0 < nested)
    (hBound : nested ≤ maxPdfValueDepth) (h : literalLength nested rest = .ok count) :
    closes (.literalString nested false) depth ⟨offset, rest⟩ =
      closes .regular depth ((⟨offset, rest⟩ : PdfValueParser).advance count) := by
  fun_induction literalLength nested rest generalizing offset count with
  | case1 | case2 | case3 => cases h
  | case4 nested escaped next rest hPair ih =>
    obtain ⟨inner, hInner, rfl⟩ := map_eq_ok.mp h
    obtain ⟨rfl, rfl⟩ := hPair
    rw [closes_literal_escape, closes_literal_escaped,
      closes_literal_plain (by decide) (by decide) (by decide), advance_succ, advance_succ,
      advance_succ]
    exact ih hNested hBound hInner
  | case5 nested escaped next rest hPair ih =>
    obtain ⟨inner, hInner, rfl⟩ := map_eq_ok.mp h
    rw [closes_literal_escape, closes_literal_escaped, advance_succ, advance_succ]
    exact ih hNested hBound hInner
  | case6 nested rest hDepth hEscape ih =>
    obtain ⟨inner, hInner, rfl⟩ := map_eq_ok.mp h
    have hNested : saturatingSucc nested = nested + 1 :=
      Nat.min_eq_left (by unfold maxPdfValueDepth at hDepth; omega)
    rw [closes_literal, if_neg Bool.false_ne_true, if_neg (by decide), if_pos rfl, hNested,
      advance_succ]
    exact ih (succ_pos _) hDepth hInner
  | case7 => cases h
  | case8 rest hEscape hNest =>
    obtain rfl := ok.inj h
    rw [closes_literal_unnest, if_pos rfl]
    rfl
  | case9 nested rest hLast hEscape hNest ih =>
    obtain ⟨inner, hInner, rfl⟩ := map_eq_ok.mp h
    obtain ⟨nested, rfl⟩ : ∃ outer, nested = outer + 1 := ⟨nested - 1, by omega⟩
    rw [closes_literal_unnest, if_neg (by omega), advance_succ]
    rw [Nat.add_sub_cancel] at ih hInner
    exact ih (by omega) (by omega) hInner
  | case10 nested byte rest hEscape hNest hUnnest ih =>
    obtain ⟨inner, hInner, rfl⟩ := map_eq_ok.mp h
    rw [closes_literal_plain hEscape hNest hUnnest, advance_succ]
    exact ih hNested hBound hInner

theorem isRegular_of_isAsciiDigit (h : isAsciiDigit byte = true) : isRegular byte = true := by
  have hAll : ∀ byte, isAsciiDigit byte = true → isRegular byte = true :=
    forall_byte (by decide +kernel)
  exact hAll byte h

theorem isRegular_of_hexDigit {value} (h : hexDigit byte = some value) : isRegular byte = true := by
  have hAll : ∀ byte, (hexDigit byte).isSome = true → isRegular byte = true :=
    forall_byte (by decide +kernel)
  exact hAll byte (by rw [h]; rfl)

/-- The characters of a name open and close nothing. -/
theorem nameCharacters_plain {decoded} (h : nameCharacters rest = .ok (decoded, count)) :
    ∀ byte ∈ rest.take count, isRegular byte = true := by
  fun_induction nameCharacters rest generalizing decoded count with
  | case1 => simp
  | case2 byte rest hEnd =>
    obtain ⟨rfl, rfl⟩ := Prod.mk.inj (ok.inj h)
    simp
  | case3 high low rest highValue lowValue hEnd hHigh hLow ih =>
    obtain ⟨⟨inner, length⟩, hInner, hFound⟩ := map_eq_ok.mp h
    obtain ⟨rfl, rfl⟩ := Prod.mk.inj hFound
    intro byte hByte
    rw [take_succ_cons, take_succ_cons, take_succ_cons] at hByte
    simp only [mem_cons] at hByte
    rcases hByte with rfl | rfl | rfl | hByte
    · decide
    · exact isRegular_of_hexDigit ‹_›
    · exact isRegular_of_hexDigit ‹_›
    · exact ih hInner byte hByte
  | case4 | case5 => cases h
  | case6 byte rest hEnd hEscape ih =>
    obtain ⟨⟨inner, length⟩, hInner, hFound⟩ := map_eq_ok.mp h
    obtain ⟨rfl, rfl⟩ := Prod.mk.inj hFound
    rw [take_succ_cons]
    exact forall_mem_cons.mpr ⟨by simpa using hEnd, ih hInner⟩

theorem startsWith_iff : parser.startsWith token = true ↔ token <+: parser.rest :=
  isPrefixOf_iff_prefix

theorem consume_eq_some : parser.consume token = some after ↔
      token <+: parser.rest ∧ after = parser.advance token.length := by
  rw [consume]
  split_ifs with hToken
  · rw [some.injEq, eq_comm]
    simp [startsWith_iff.mp hToken]
  · simp [mt startsWith_iff.mpr hToken]

theorem closes_name {decoded} (h : parser.name = .ok (decoded, after)) :
    closes .regular depth parser = closes .regular depth after := by
  rw [PdfValueParser.name] at h
  cases hOpen : parser.consume nameOpen with
  | none =>
    rw [hOpen] at h
    cases h
  | some start =>
    rw [hOpen] at h
    obtain ⟨⟨characters, length⟩, hName, h⟩ := bind_eq_ok.mp h
    obtain ⟨rfl, rfl⟩ := Prod.mk.inj (ok.inj h)
    obtain ⟨hSlash, rfl⟩ := consume_eq_some.mp hOpen
    have hPlain := nameCharacters_plain hName
    rw [closes_token (isPlain_of_all (by decide)) hSlash]
    exact closes_run fun byte hByte => isPlain_of_isRegular (hPlain byte hByte)

theorem closes_unsignedDigits {digits} (h : parser.unsignedDigits = some (digits, after)) :
    closes .regular depth parser = closes .regular depth after := by
  rw [unsignedDigits] at h
  split_ifs at h with hBad
  obtain ⟨rfl, rfl⟩ := Prod.mk.inj (some.inj h)
  rw [closes_skipTrivia]
  refine closes_token (fun byte hByte => ?_) <| takeWhile_prefix _
  exact isPlain_of_isRegular (isRegular_of_isAsciiDigit (mem_takeWhile_imp hByte))

theorem closes_consumeReferenceTail (first : Bytes) :
    closes .regular depth parser = closes .regular depth (parser.consumeReferenceTail first) := by
  have hRead : getD _ parser = parser.consumeReferenceTail first := rfl
  rcases getD_eq_iff.mp hRead with hTail | ⟨-, hSame⟩
  · obtain ⟨_, -, hTail⟩ := bind_eq_some_iff.mp hTail
    obtain ⟨⟨_, middle⟩, hGeneration, hKeyword⟩ := bind_eq_some_iff.mp hTail
    obtain ⟨⟨digits, _⟩, hDigits, hGeneration⟩ := bind_eq_some_iff.mp hGeneration
    obtain ⟨_, -, hGeneration⟩ := bind_eq_some_iff.mp hGeneration
    obtain ⟨-, rfl⟩ := Prod.mk.inj (some.inj hGeneration)
    replace hKeyword : consumeKeyword _ _ = some _ := hKeyword
    rw [consumeKeyword] at hKeyword
    split_ifs at hKeyword with hToken
    rw [Bool.and_eq_true] at hToken
    rw [closes_unsignedDigits hDigits, closes_skipTrivia, ← some.inj hKeyword]
    exact closes_token (isPlain_of_all (by decide)) (startsWith_iff.mp hToken.1)
  · rw [← hSame]

theorem closes_atom (h : parser.atom = .ok (token, after)) :
    closes .regular depth parser = closes .regular depth after := by
  rw [atom] at h
  split_ifs at h with hEmpty
  obtain ⟨rfl, rfl⟩ := Prod.mk.inj (ok.inj h)
  exact closes_token (fun byte hByte => isPlain_of_isRegular (mem_takeWhile_imp hByte)) <|
    takeWhile_prefix _

end Tokens

variable {dictionary : PdfDictionary} {levels : Nat}

section Values
variable {value : PdfValueParser → Except PdfError PdfValueParser}

/-- What a scan makes of a value when so many dictionaries are open. -/
def Transparent (value : PdfValueParser → Except PdfError PdfValueParser) (depth : Nat) : Prop :=
  ∀ parser after, value parser = .ok after →
    closes .regular depth parser = closes .regular depth after

/-- The entries of a dictionary and its `>>`. -/
theorem closes_dictionaryEntries (hValue : Transparent value (depth + 1)) {fuel}
    (h : dictionaryEntries value fuel parser = .ok (dictionary, after)) :
    closes .regular (depth + 1) parser =
      if depth = 0 then some after.offset else closes .regular depth after := by
  induction fuel generalizing parser dictionary with
  | zero => cases h
  | succ fuel ih =>
    rw [dictionaryEntries] at h
    rw [closes_skipTrivia]
    cases hClose : parser.skipTrivia.consume dictionaryClose with
    | some last =>
      rw [hClose] at h
      obtain ⟨-, rfl⟩ := Prod.mk.inj (ok.inj h)
      obtain ⟨⟨rest, hRest⟩, rfl⟩ := consume_eq_some.mp hClose
      have hParser : parser.skipTrivia = ⟨parser.skipTrivia.offset, 0x3E :: 0x3E :: rest⟩ := by
        rw [PdfValueParser.mk.injEq]
        exact ⟨rfl, hRest.symm⟩
      rw [hParser, closes_dictionary_close]
      rfl
    | none =>
      rw [hClose] at h
      obtain ⟨⟨name, afterName⟩, hName, h⟩ := bind_eq_ok.mp h
      obtain ⟨afterValue, hRead, h⟩ := bind_eq_ok.mp h
      obtain ⟨⟨inner, last⟩, hInner, h⟩ := bind_eq_ok.mp h
      obtain ⟨-, rfl⟩ := Prod.mk.inj (ok.inj h)
      rw [closes_name hName, closes_skipTrivia, hValue _ _ hRead]
      exact ih hInner

theorem closes_dictionaryWith (hDepth : depth + 1 < 2 ^ 32) (hValue : Transparent value (depth + 1))
    (h : dictionaryWith value parser = .ok (dictionary, after)) :
    closes .regular depth parser =
      if depth = 0 then some after.offset else closes .regular depth after := by
  rw [dictionaryWith] at h
  cases hOpen : parser.consume dictionaryOpen with
  | none =>
    rw [hOpen] at h
    cases h
  | some start =>
    rw [hOpen] at h
    obtain ⟨⟨rest, hRest⟩, rfl⟩ := consume_eq_some.mp hOpen
    have hParser : parser = ⟨parser.offset, 0x3C :: 0x3C :: rest⟩ := by
      rw [PdfValueParser.mk.injEq]
      exact ⟨rfl, hRest.symm⟩
    rw [← closes_dictionaryEntries hValue h, hParser, closes_dictionary_open hDepth]
    rfl

theorem closes_arrayElements (hValue : Transparent value depth) {fuel}
    (h : arrayElements value fuel parser = .ok after) :
    closes .regular depth parser = closes .regular depth after := by
  induction fuel generalizing parser with
  | zero => cases h
  | succ fuel ih =>
    rw [arrayElements] at h
    rw [closes_skipTrivia]
    cases hClose : parser.skipTrivia.consume arrayClose with
    | some last =>
      rw [hClose] at h
      obtain rfl := ok.inj h
      obtain ⟨hPrefix, rfl⟩ := consume_eq_some.mp hClose
      exact closes_token (isPlain_of_all (by decide)) hPrefix
    | none =>
      rw [hClose] at h
      obtain ⟨afterValue, hRead, h⟩ := bind_eq_ok.mp h
      rw [hValue _ _ hRead]
      exact ih h

/-- What a value is, by what it begins with. -/
inductive ReadsValue (levels : Nat) (start after : PdfValueParser) : Prop
  | dictionary {inner : Nat} {found : PdfDictionary} (hLevels : levels = inner + 1)
      (h : dictionaryWith (PdfValueParser.value inner) start = .ok (found, after))
  | array {inner : Nat} (hLevels : levels = inner + 1) (hOpen : arrayOpen <+: start.rest)
      (h : arrayElements (PdfValueParser.value inner)
        ((start.advance arrayOpen.length).rest.length + 1) (start.advance arrayOpen.length) =
          .ok after)
  | literal (hOpen : literalOpen <+: start.rest)
      (h : (start.advance literalOpen.length).literalStringRemainder = .ok after)
  | hex (hOpen : hexOpen <+: start.rest) (hSingle : ¬ dictionaryOpen <+: start.rest)
      (h : (start.advance hexOpen.length).hexStringRemainder = .ok after)
  | name {decoded : Bytes} (h : start.name = .ok (decoded, after))
  | atom {token : Bytes} {middle : PdfValueParser} (h : start.atom = .ok (token, middle))
      (hAfter : after = middle.consumeReferenceTail token)

theorem readsValue_of_value (h : PdfValueParser.value levels parser = .ok after) :
    ReadsValue levels parser.skipTrivia after := by
  rw [PdfValueParser.value.eq_def] at h
  dsimp only at h
  split_ifs at h with hDictionary hArray hLiteral hHex hName
  · cases levels with
    | zero => cases h
    | succ inner =>
      obtain ⟨⟨found, last⟩, hRead, rfl⟩ := map_eq_ok.mp h
      exact .dictionary rfl hRead
  · cases levels with
    | zero => cases h
    | succ inner => exact .array rfl (startsWith_iff.mp hArray) h
  · exact .literal (startsWith_iff.mp hLiteral) h
  · exact .hex (startsWith_iff.mp hHex) (mt startsWith_iff.mpr hDictionary) h
  · obtain ⟨⟨decoded, last⟩, hRead, rfl⟩ := map_eq_ok.mp h
    exact .name hRead
  · obtain ⟨⟨token, middle⟩, hAtom, h⟩ := bind_eq_ok.mp h
    exact .atom hAtom (ok.inj h).symm

/-- A scan passes over a value of the grammar, whatever it nests. -/
theorem transparent_value (hDepth : 0 < depth) (hBound : depth + levels < 2 ^ 32) :
    Transparent (PdfValueParser.value levels) depth := by
  induction levels using Nat.strong_induction_on generalizing depth with
  | _ levels ih =>
    intro parser after h
    have hReads := readsValue_of_value h
    rw [closes_skipTrivia]
    generalize parser.skipTrivia = start at hReads ⊢
    obtain ⟨offset, rest⟩ := start
    cases hReads with
    | @dictionary inner found hLevels h =>
      have hNested := @ih inner (by omega) (depth + 1) (by omega) (by omega)
      rw [closes_dictionaryWith (by omega) hNested h, if_neg (by omega)]
    | @array inner hLevels hOpen h =>
      rw [closes_token (isPlain_of_all (by decide)) hOpen]
      exact closes_arrayElements (ih inner (by omega) hDepth (by omega)) h
    | literal hOpen h =>
      obtain ⟨rest, rfl⟩ := hOpen
      obtain ⟨count, hLength, rfl⟩ := map_eq_ok.mp h
      exact closes_literal_open.trans (closes_literalLength one_pos (by decide) hLength)
    | hex hOpen hSingle h =>
      obtain ⟨rest, rfl⟩ := hOpen
      obtain ⟨count, hLength, rfl⟩ := map_eq_ok.mp h
      cases rest with
      | nil => cases hLength
      | cons next rest =>
        have hNext : next ≠ 0x3C := by
          rintro rfl
          exact hSingle ⟨rest, rfl⟩
        exact (closes_hex_open hNext).trans (closes_hexLength hLength)
    | name h => exact closes_name h
    | atom h hAfter =>
      rw [closes_atom h, hAfter]
      exact closes_consumeReferenceTail _

end Values

theorem map_add_le (step : Nat) {result bound} (h : (· + step) <$> result = some count)
    (hResult : ∀ inner, result = some inner → inner ≤ bound) : count ≤ bound + step := by
  obtain ⟨inner, hInner, rfl⟩ := map_eq_some_iff.mp h
  exact Nat.add_le_add_right (hResult inner hInner) step

theorem scanLength_le {state} (h : scanLength state depth rest = some count) :
    count ≤ rest.length := by
  fun_induction scanLength state depth rest generalizing count
  case case1 | case4 | case7 | case16 => cases h
  case case8 =>
    obtain rfl := some.inj h
    simp
  case case5 ih | case9 ih => exact map_add_le 2 h fun _ => ih
  case case2 ih | case3 ih | case6 ih | case10 ih | case11 ih | case12 ih | case13 ih |
      case14 ih | case15 ih | case17 ih | case18 ih | case19 ih =>
    exact map_add_le 1 h fun _ => ih

variable (bytes : Bytes)

theorem startingAt_advance (start count : Nat) :
    (startingAt bytes start).advance count = startingAt bytes (start + count) := by
  rw [startingAt, startingAt, advance, drop_drop]

theorem startingAt_skipTrivia (start : Nat) :
    (startingAt bytes start).skipTrivia = startingAt bytes (skipPdfTrivia bytes start) :=
  startingAt_advance bytes start _

/-- What the scan returns when it closes the dictionary it began with. -/
theorem dictionaryAt_of_closes {bytes start stop}
    (hOpen : dictionaryOpen <+: bytes.drop (skipPdfTrivia bytes start))
    (h : closes .regular 0 (startingAt bytes (skipPdfTrivia bytes start)) = some stop) :
    ∃ span, slice bytes ⟨skipPdfTrivia bytes start, stop⟩ = some span ∧
      dictionaryAt bytes start = some (span, stop) := by
  obtain ⟨count, hScan, rfl⟩ := map_eq_some_iff.mp h
  have hInside := scanLength_le hScan
  rw [startingAt] at hScan hInside ⊢
  have hStop : skipPdfTrivia bytes start + count ≤ bytes.length := by
    have hTwo : 2 ≤ (bytes.drop (skipPdfTrivia bytes start)).length := hOpen.length_le
    rw [length_drop] at hInside hTwo
    omega
  refine ⟨(bytes.drop (skipPdfTrivia bytes start)).take count, ?_, ?_⟩
  · rw [slice, if_pos ⟨Nat.le_add_right _ _, hStop⟩, Nat.add_sub_cancel_left]
  rw [dictionaryAt, startingAt_skipTrivia, if_pos (startsWith_iff.mpr hOpen)]
  dsimp only [startingAt]
  rw [hScan]
  rfl

/-- Where the grammar accepts a dictionary, the scan returns exactly its bytes. -/
theorem dictionary_readers_agree (start depth : Nat)
    {dictionary : PdfDictionary} {after : PdfValueParser}
    (h : (startingAt bytes start).skipTrivia.dictionary depth = .ok (dictionary, after)) :
    ∃ span, slice bytes ⟨skipPdfTrivia bytes start, after.offset⟩ = some span ∧
      dictionaryAt bytes start = some (span, after.offset) := by
  rw [startingAt_skipTrivia, PdfValueParser.dictionary] at h
  split_ifs at h with hDepth
  have hCloses := closes_dictionaryWith (by decide)
    (transparent_value one_pos (by unfold maxPdfValueDepth; omega)) h
  rw [if_pos rfl] at hCloses
  refine dictionaryAt_of_closes ?_ hCloses
  rw [dictionaryWith] at h
  cases hOpen : (startingAt bytes (skipPdfTrivia bytes start)).consume dictionaryOpen with
  | none =>
    rw [hOpen] at h
    cases h
  | some opened => exact (consume_eq_some.mp hOpen).1

theorem dictionary_readers_agree_nested :
    ∃ span, slice (asBytes " <</A<</B(>>)>>>> ") ⟨1, 17⟩ = some span ∧
      dictionaryAt (asBytes " <</A<</B(>>)>>>> ") 0 = some (span, 17) :=
  @dictionary_readers_agree (asBytes " <</A<</B(>>)>>>> ") 0 1 ⟨[⟨[0x41], 5, 15⟩], 15⟩
    ⟨17, [0x20]⟩ (by decide +kernel)

end RefineId.Pades
