import RefineId.Pades.Index
import RefineId.Pades.DictionaryScan

/-! What the index holds: for each object number the first entry of the newest
section that lists it. -/
namespace RefineId.Pades

open Data List Option Except PdfIndex
open PdfValueParser

namespace ObjectTable

theorem get?_orInsert (table : ObjectTable) (entry : XrefEntry) (number : Nat) :
    (table.orInsert entry).get? number =
      (table.get? number).or (if entry.number = number then some entry else none) := by
  rw [orInsert, get?, get?]
  split_ifs with hPresent hNumber hNumber
  · subst hNumber
    obtain ⟨present, hMember, hSame⟩ := mem_map.mp hPresent
    have hFound : (table.entries.find? (·.number = entry.number)).isSome = true :=
      find?_isSome.mpr ⟨present, hMember, by simpa using hSame⟩
    rw [or_of_isSome hFound]
  · rw [or_none]
  · rw [find?_append, find?_singleton, if_pos (by simpa using hNumber)]
  · rw [find?_append, find?_singleton, if_neg (by simpa using hNumber)]

/-- Entries are taken in order, the first of a number for good. -/
theorem get?_foldl (entries : List XrefEntry) (table : ObjectTable) (number : Nat) :
    (entries.foldl orInsert table).get? number =
      (table.get? number).or (entries.find? (·.number = number)) := by
  induction entries generalizing table with
  | nil => simp
  | cons entry entries ih =>
    rw [foldl_cons, ih, get?_orInsert, find?_cons, Option.or_assoc]
    congr 1
    by_cases hNumber : entry.number = number
    · simp [hNumber]
    · simp [hNumber]

theorem mem_entries_iff (table : ObjectTable) (entry : XrefEntry) :
    entry ∈ table.entries ↔ table.get? entry.number = some entry := by
  rw [get?]
  constructor
  · intro hMember
    cases hFound : table.entries.find? (·.number = entry.number) with
    | none => exact absurd (find?_eq_none.mp hFound entry hMember) (by simp)
    | some found =>
      have hNumber : found.number = entry.number := by simpa using find?_some hFound
      rw [inj_on_of_nodup_map table.numbers_nodup (mem_of_find?_eq_some hFound) hMember hNumber]
  · exact mem_of_find?_eq_some

end ObjectTable

section Links
variable {trailer name digits : Bytes} {target : Option Nat}

def decimalValue (digits : Bytes) : Nat :=
  digits.foldl (fun value digit => value * 10 + (digit - 0x30).toNat) 0

/-- What a trailer says under a name: nothing, or a number, the decimal digits
that are all of the value of its one entry of that name. -/
inductive LinksTo (trailer name : Bytes) : Option Nat → Prop
  | nowhere {parsed : PdfDictionary} (hParsed : PdfDictionary.parse trailer = .ok parsed)
      (hNone : ∀ entry ∈ parsed.entries, entry.name ≠ name) : LinksTo trailer name none
  | number {parsed : PdfDictionary} {entry : PdfDictionaryEntry} {digits : Bytes}
      (hParsed : PdfDictionary.parse trailer = .ok parsed)
      (hOnly : ∀ other, other ∈ parsed.entries ∧ other.name = name ↔ other = entry)
      (hText : slice trailer entry.value = some digits)
      (hDigits : digits ≠ [] ∧ ∀ digit ∈ digits, isAsciiDigit digit) :
      LinksTo trailer name (some (decimalValue digits))

theorem LinksTo.unique {other} (h : LinksTo trailer name target)
    (hOther : LinksTo trailer name other) : target = other := by
  cases h with
  | nowhere hParsed hNone =>
    cases hOther with
    | nowhere => rfl
    | number hAgain hOnly =>
      cases hParsed.symm.trans hAgain
      obtain ⟨hMem, hName⟩ := (hOnly _).mpr rfl
      exact absurd hName (hNone _ hMem)
  | number hParsed hOnly hText =>
    obtain ⟨hMem, hName⟩ := (hOnly _).mpr rfl
    cases hOther with
    | nowhere hAgain hNone =>
      cases hParsed.symm.trans hAgain
      exact absurd hName (hNone _ hMem)
    | number hAgain hOnly' hText' =>
      cases hParsed.symm.trans hAgain
      cases (hOnly' _).mp ⟨hMem, hName⟩
      cases hText.symm.trans hText'
      rfl

theorem foldlM_decimalStep {out value} (h : digits.foldlM decimalStep out = some value) :
    digits.foldl (fun value digit => value * 10 + (digit - 0x30).toNat) out = value := by
  induction digits generalizing out with
  | nil => exact some.inj h
  | cons digit rest ih =>
    obtain ⟨next, hNext, h⟩ := bind_eq_some_iff.mp h
    obtain ⟨wide, hWide, hNext⟩ := bind_eq_some_iff.mp hNext
    rw [checkedMul] at hWide
    rw [checkedAdd] at hNext
    split_ifs at hWide hNext
    cases hWide
    cases hNext
    exact ih h

theorem linksTo_of_trailerOffset (h : trailerOffset trailer name = .ok target) :
    LinksTo trailer name target := by
  have hRead {α : Type} {error : PdfError} {result : Except PdfError α} {value : α}
      (h : orError error result = .ok value) : result = .ok value := by
    cases result <;> cases h
    rfl
  obtain ⟨text, hText, h⟩ := bind_eq_ok.mp h
  obtain ⟨parsed, hParsed, hText⟩ := bind_eq_ok.mp hText
  obtain ⟨entry, hEntry, hText⟩ := bind_eq_ok.mp hText
  replace hParsed := hRead hParsed
  replace hEntry := hRead hEntry
  rw [PdfDictionary.entry] at hEntry
  split at hEntry
  · next hNone =>
    cases hEntry
    cases hText
    cases h
    exact .nowhere hParsed fun entry hMem => by simpa using filter_eq_nil_iff.mp hNone entry hMem
  · next found hFound =>
    cases hEntry
    obtain ⟨digits, hSlice, rfl⟩ := map_eq_ok.mp hText
    obtain ⟨value, hValue, rfl⟩ := map_eq_ok.mp h
    rw [okOr_eq_ok, parseUsize] at hValue
    split_ifs at hValue with hBad
    rw [← foldlM_decimalStep hValue]
    refine .number hParsed (fun other => ?_) (okOr_eq_ok.mp hSlice) (by simpa using hBad)
    have hOnly : other ∈ parsed.entries.filter (·.name = name) ↔ other = found := by
      rw [hFound, mem_singleton]
    simpa using hOnly
  · cases hEntry

end Links

section Sections
variable {zlib : Zlib} {pdf : Bytes}

/-- The section that stands at a position: a stream, a table, or a table merged
with the stream its trailer names. -/
inductive SectionAt (zlib : Zlib) (pdf : Bytes) (position : Nat) : XrefSection → Prop
  | stream {found : XrefSection} (hKeyword : ¬xrefKeyword <+: pdf.drop position)
      (h : parseStreamSection zlib pdf position = .ok found) : SectionAt zlib pdf position found
  | table {entries : List XrefEntry} {trailer : Bytes} (hKeyword : xrefKeyword <+: pdf.drop position)
      (h : parseTable pdf ((startingAt pdf position).advance xrefKeyword.length) =
        .ok (entries, trailer))
      (hHybrid : LinksTo trailer keyXrefStream none) :
      SectionAt zlib pdf position ⟨trailer, entries, false⟩
  | hybrid {entries : List XrefEntry} {trailer : Bytes} {offset : Nat} {stream : XrefSection}
      (hKeyword : xrefKeyword <+: pdf.drop position)
      (h : parseTable pdf ((startingAt pdf position).advance xrefKeyword.length) =
        .ok (entries, trailer))
      (hHybrid : LinksTo trailer keyXrefStream (some offset))
      (hStream : parseStreamSection zlib pdf (skipPdfTrivia pdf offset) = .ok stream) :
      SectionAt zlib pdf position ⟨trailer, stream.entries ++ entries, false⟩

theorem sectionAt_of_parse {offset found} (h : parseXrefSection zlib pdf offset = .ok found) :
    SectionAt zlib pdf (skipPdfTrivia pdf offset) found := by
  rw [parseXrefSection, startingAt_skipTrivia] at h
  dsimp only at h
  split_ifs at h with hInside hKeyword
  · obtain ⟨⟨entries, trailer⟩, hTable, h⟩ := bind_eq_ok.mp h
    rw [hybridMerged] at h
    obtain ⟨hybrid, hHybrid, h⟩ := bind_eq_ok.mp h
    cases hybrid with
    | none =>
      obtain rfl := ok.inj h
      exact .table (startsWith_iff.mp hKeyword) hTable (linksTo_of_trailerOffset hHybrid)
    | some offset =>
      obtain ⟨stream, hStream, h⟩ := bind_eq_ok.mp h
      obtain rfl := ok.inj h
      exact .hybrid (startsWith_iff.mp hKeyword) hTable (linksTo_of_trailerOffset hHybrid) hStream
  · exact .stream (fun hStarts => hKeyword (startsWith_iff.mpr hStarts)) h

/-- White space and comments before a section do not matter. -/
theorem parseXrefSection_congr {left right} (h : skipPdfTrivia pdf left = skipPdfTrivia pdf right) :
    parseXrefSection zlib pdf left = parseXrefSection zlib pdf right := by
  rw [parseXrefSection, parseXrefSection, startingAt_skipTrivia, startingAt_skipTrivia, h]

structure ChainLink where
  offset : Nat
  found : XrefSection

/-- Where a section begins, past white space and comments. -/
def ChainLink.position (pdf : Bytes) (link : ChainLink) : Nat :=
  skipPdfTrivia pdf link.offset

/-- The chain of sections from an offset through `/Prev`, newest first. -/
inductive Chain (zlib : Zlib) (pdf : Bytes) : Option Nat → List ChainLink → Prop
  | done : Chain zlib pdf none []
  | link {offset : Nat} {found : XrefSection} {previous : Option Nat} {older : List ChainLink}
      (hSection : parseXrefSection zlib pdf offset = .ok found)
      (hPrevious : LinksTo found.trailer keyPrev previous)
      (hOlder : Chain zlib pdf previous older) :
      Chain zlib pdf (some offset) (⟨offset, found⟩ :: older)

variable {next : Option Nat}

/-- The sections followed are a chain that visits no offset twice. -/
theorem chain_of_followChain {remaining read visited sections}
    (h : followChain zlib pdf remaining next visited read = .ok sections) :
    ∃ links : List ChainLink, links.map ChainLink.found = sections ∧ Chain zlib pdf next links ∧
      links.length ≤ remaining ∧ (links.map ChainLink.offset).Nodup ∧
      ∀ link ∈ links, link.offset ∉ visited := by
  induction remaining generalizing next visited read sections with
  | zero =>
    cases next with
    | none =>
      rw [followChain] at h
      obtain rfl := ok.inj h
      exact ⟨[], rfl, .done, Nat.le_refl 0, nodup_nil, by simp⟩
    | some offset => cases h
  | succ remaining ih =>
    cases next with
    | none =>
      rw [followChain] at h
      obtain rfl := ok.inj h
      exact ⟨[], rfl, .done, Nat.zero_le _, nodup_nil, by simp⟩
    | some offset =>
      rw [followChain] at h
      split_ifs at h with hVisited
      obtain ⟨found, hFound, h⟩ := bind_eq_ok.mp h
      obtain ⟨total, -, h⟩ := bind_eq_ok.mp h
      obtain ⟨_, -, h⟩ := bind_eq_ok.mp h
      obtain ⟨previous, hPrevious, h⟩ := bind_eq_ok.mp h
      obtain ⟨older, hOlder, h⟩ := bind_eq_ok.mp h
      obtain rfl := ok.inj h
      obtain ⟨links, rfl, hChain, hLength, hNodup, hFresh⟩ := ih hOlder
      refine ⟨⟨offset, found⟩ :: links, rfl, .link hFound (linksTo_of_trailerOffset hPrevious)
        hChain, Nat.succ_le_succ hLength, ?_, ?_⟩
      · refine nodup_cons.mpr ⟨fun hMember => ?_, hNodup⟩
        obtain ⟨link, hLink, hSame⟩ := mem_map.mp hMember
        exact hFresh link hLink (hSame ▸ mem_cons_self)
      · exact forall_mem_cons.mpr ⟨hVisited, fun link hLink hMember =>
          hFresh link hLink (mem_cons_of_mem _ hMember)⟩

theorem Chain.split {newer older link} (h : Chain zlib pdf next (newer ++ link :: older)) :
    parseXrefSection zlib pdf link.offset = .ok link.found ∧
      ∃ previous, LinksTo link.found.trailer keyPrev previous ∧ Chain zlib pdf previous older := by
  induction newer generalizing next with
  | nil =>
    cases h with
    | link hSection hPrevious hOlder => exact ⟨hSection, _, hPrevious, hOlder⟩
  | cons first newer ih =>
    cases h with
    | link hSection hPrevious hOlder => exact ih hOlder

variable {links : List ChainLink}

theorem Chain.head_offset {offset} (h : Chain zlib pdf (some offset) links) :
    ∃ link rest, links = link :: rest ∧ link.offset = offset := by
  cases h with
  | link hSection hPrevious hOlder => exact ⟨_, _, rfl, rfl⟩

/-- No section of the chain is read twice, not even through another offset: it
would lead to the same `/Prev` again, which has been visited. -/
theorem Chain.positions_nodup (h : Chain zlib pdf next links)
    (hOffsets : (links.map ChainLink.offset).Nodup) :
    (links.map (ChainLink.position pdf)).Nodup := by
  induction h with
  | done => exact nodup_nil
  | @link offset found previous older hSection hPrevious hOlder ih =>
    rw [map_cons, nodup_cons] at hOffsets
    rw [map_cons, nodup_cons]
    refine ⟨fun hMember => ?_, ih hOffsets.2⟩
    obtain ⟨again, hAgain, hPosition⟩ := mem_map.mp hMember
    obtain ⟨newer, oldest, rfl⟩ := append_of_mem hAgain
    obtain ⟨hSame, previous', hPrevious', hOldest⟩ := hOlder.split
    rw [parseXrefSection_congr hPosition, hSection] at hSame
    rw [← ok.inj hSame] at hPrevious'
    obtain rfl := hPrevious.unique hPrevious'
    cases previous with
    | none => cases newer <;> cases hOlder
    | some target =>
      -- The links after the first and after the second reading are one.
      obtain ⟨first, rest, hFirst, hFirstOffset⟩ := hOlder.head_offset
      obtain ⟨second, rest', rfl, hSecondOffset⟩ := hOldest.head_offset
      have hBefore : first ∈ newer ++ [again] := by
        cases newer with
        | nil => exact (cons.inj hFirst).1 ▸ mem_singleton_self _
        | cons head newer => exact (cons.inj hFirst).1 ▸ mem_cons_self
      have hNodup := hOffsets.2
      rw [← singleton_append, ← append_assoc, map_append, nodup_append] at hNodup
      exact hNodup.2.2 first.offset (mem_map_of_mem hBefore) second.offset
        mem_cons_self (hFirstOffset.trans hSecondOffset.symm)

end Sections

section Index
variable {zlib : Zlib} {pdf : Bytes} {index : PdfIndex}

def newestEntry (links : List ChainLink) (number : Nat) : Option XrefEntry :=
  links.findSome? fun link => link.found.entries.find? (·.number = number)

structure Indexes (zlib : Zlib) (pdf : Bytes) (index : PdfIndex) (links : List ChainLink) :
    Prop where
  start : findStartXref pdf = .ok index.startXref
  chain : Chain zlib pdf (some index.startXref) links
  length : links.length ≤ maxXrefSections
  positions : (links.map (ChainLink.position pdf)).Nodup
  pdf : index.pdf = pdf
  trailer : ∃ newest older, links = newest :: older ∧ index.trailer = newest.found.trailer ∧
    index.newestIsStream = newest.found.isStream
  sections : index.sections = links.map fun link => link.found.entries
  newest : ∀ number, index.objects.get? number = newestEntry links number

theorem indexes_of_parse (h : parse zlib pdf = .ok index) :
    ∃ links, Indexes zlib pdf index links := by
  rw [parse] at h
  obtain ⟨startXref, hStart, h⟩ := bind_eq_ok.mp h
  obtain ⟨sections, hSections, h⟩ := bind_eq_ok.mp h
  obtain ⟨links, rfl, hChain, hLength, hNodup, -⟩ := chain_of_followChain hSections
  obtain ⟨newest, older, rfl, -⟩ := hChain.head_offset
  obtain rfl := ok.inj h
  refine ⟨newest :: older, hStart, hChain, hLength, hChain.positions_nodup hNodup, rfl,
    ⟨newest, older, rfl, rfl, rfl⟩, ?_, fun number => ?_⟩
  · rw [List.map_map]
    rfl
  · rw [ObjectTable.get?_foldl, newestEntry, List.find?_flatMap, List.findSome?_map]
    rfl

theorem mem_liveReferences {reference} : reference ∈ index.liveReferences ↔
      ∃ entry, index.objects.get? reference.number = some entry ∧ entry.location ≠ .free ∧
        entry.generation = reference.generation := by
  rw [liveReferences, List.mem_mergeSort, List.mem_map]
  constructor
  · rintro ⟨entry, hEntry, rfl⟩
    obtain ⟨hMember, hUsed⟩ := List.mem_filter.mp hEntry
    exact ⟨entry, (index.objects.mem_entries_iff entry).mp hMember, by simpa using hUsed, rfl⟩
  · rintro ⟨entry, hFound, hUsed, hGeneration⟩
    have hNumber : entry.number = reference.number := by simpa using List.find?_some hFound
    refine ⟨entry, List.mem_filter.mpr ⟨List.mem_of_find?_eq_some hFound, by simpa using hUsed⟩, ?_⟩
    rw [entryReference, hNumber, hGeneration]

theorem free_hides {entry number}
    (h : index.objects.get? number = some entry) (hFree : entry.location = .free)
    (generation : Nat) :
    ⟨number, generation⟩ ∉ index.liveReferences ∧
      index.objectBodyReference zlib ⟨number, generation⟩ = none := by
  constructor
  · rw [mem_liveReferences]
    rintro ⟨found, hFound, hUsed, -⟩
    rw [h] at hFound
    exact hUsed (Option.some.inj hFound ▸ hFree)
  · rw [objectBodyReference, liveEntry, h]
    cases hGeneration : decide (entry.generation = generation) with
    | true => simp [Option.filter, hGeneration, hFree]
    | false => simp [Option.filter, hGeneration]

theorem liveReferences_nodup (index : PdfIndex) : index.liveReferences.Nodup := by
  rw [liveReferences, (List.mergeSort_perm _ _).nodup_iff]
  have hNumbers : ((index.objects.entries.filter (·.location ≠ .free)).map XrefEntry.number).Nodup :=
    index.objects.numbers_nodup.sublist (List.filter_sublist.map _)
  refine List.Nodup.of_map PdfObjectReference.number ?_
  rwa [List.map_map]

/-- An object listed in one section and freed in the next. -/
def freedObject : Bytes :=
  asBytes "xref\n0 2\n0000000000 65535 f \n0000000000 00000 n \ntrailer\n<< /Size 2 >>\n" ++
    asBytes "xref\n1 1\n0000000000 00001 f \ntrailer\n<< /Size 2 /Prev 0 >>\nstartxref\n71\n"

/-- A table whose trailer names one stream both as its own and as the older section. -/
def hybridTwice : Bytes :=
  asBytes "1 0 obj<</Type/XRef/Size 1/W[1 1 1]/Length 3>>stream\n" ++ [0, 0, 0] ++
    asBytes "endstream endobj\nxref\ntrailer\n<</Size 1/XRefStm 0/Prev 0>>\nstartxref\n73\n"

end Index

end RefineId.Pades
