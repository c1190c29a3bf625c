import RefineId.Pades.Resolution
import Mathlib.Data.List.Pairwise
import Mathlib.Data.List.Perm.Subperm

/-! The search for every written dictionary (`PdfIndex::object_dictionaries`). -/
namespace RefineId.Pades

open Data List Option Except

/-- One object's dictionary: the offset of its `<<` in the file, unless it is
inside an object stream, and its bytes. -/
structure ObjectDictionary where
  fileOffset : Option Nat
  bytes : Bytes
  deriving DecidableEq

/-- Where one object is written, for listing it once. -/
inductive Written where
  | direct (offset : Nat)
  | compressed (offset position : Nat)
  deriving DecidableEq

/-- An entry of the chain, with its section and the older ones. -/
structure ChainEntry where
  sections : List (List XrefEntry)
  entry : XrefEntry
  deriving DecidableEq

def ChainEntry.reference (item : ChainEntry) : PdfObjectReference :=
  PdfIndex.entryReference item.entry

/-- The entries of every section, newest section first. -/
def chainEntries : List (List XrefEntry) → List ChainEntry
  | [] => []
  | entries :: older => entries.map (⟨entries :: older, ·⟩) ++ chainEntries older

/-- The offset of the object stream `container` as the first of these sections
lists it that has it at an offset. -/
def sectionContainerOffset (sections : List (List XrefEntry)) (container : Nat) : Option Nat :=
  sections.findSome? fun entries =>
    match (entries.find? (·.number = container)).map XrefEntry.location with
    | some (.direct offset) => some offset
    | _ => none

/-- Where an entry says its object is; nowhere if it is free. -/
def ChainEntry.written (item : ChainEntry) : Except PdfError (Option Written) :=
  match item.entry.location with
  | .free => .ok none
  | .direct offset => .ok (some (.direct offset))
  | .compressed container position =>
    (fun offset => some (.compressed offset position)) <$>
      okOr (.missingObject item.entry.number) (sectionContainerOffset item.sections container)

namespace PdfIndex
variable (zlib : Zlib) (index : PdfIndex)

/-- The object of a reference where it is written: its dictionary, or `some none`
for another value. -/
def dictionaryWritten (reference : PdfObjectReference) : Written → Option (Option ObjectDictionary)
  | .direct offset => do
      let found ← objectDictionaryAt index.pdf reference offset
      some (found.map fun (start, bytes) => ⟨some start, bytes⟩)
  | .compressed offset position => do
      let body ← index.compressedBody zlib offset reference.number position
      let found ← leadingDictionary body 0
      some (found.map fun (_, bytes) => ⟨none, bytes⟩)

/-- The places seen and the dictionaries found so far. -/
structure Listing where
  seen : List Written
  found : List (PdfObjectReference × ObjectDictionary)

/-- One more entry. A place seen before is not looked at again. -/
def listEntry (listing : Listing) (item : ChainEntry) : Except PdfError Listing := do
  match ← item.written with
  | none => .ok listing
  | some written =>
    if written ∈ listing.seen then .ok listing
    else do
      let dictionary ← okOr (.missingObject item.entry.number)
        (index.dictionaryWritten zlib item.reference written)
      .ok ⟨written :: listing.seen, listing.found ++ (dictionary.map (item.reference, ·)).toList⟩

/-- The dictionary of every object any section lists as in use, in number order. -/
def objectDictionaries : Except PdfError (List ObjectDictionary) := do
  let listing ← (chainEntries index.sections).foldlM (index.listEntry zlib) ⟨[], []⟩
  .ok ((listing.found.mergeSort fun left right => referenceLe left.1 right.1).map Prod.snd)

end PdfIndex

open PdfIndex

variable {zlib : Zlib} {pdf : Bytes} {index : PdfIndex} {items : List ChainEntry}
  {listing : Listing} {looked : List Looked} {item : ChainEntry}
  {dictionaries : List ObjectDictionary}

structure Looked where
  item : ChainEntry
  written : Written
  dictionary : Option ObjectDictionary

def Looked.found (looked : Looked) : Option (PdfObjectReference × ObjectDictionary) :=
  looked.dictionary.map (looked.item.reference, ·)

structure Looked.Sound (zlib : Zlib) (index : PdfIndex) (looked : Looked) : Prop where
  written : looked.item.written = .ok (some looked.written)
  reads : index.dictionaryWritten zlib looked.item.reference looked.written = some looked.dictionary

open Looked

structure ListedAfter (zlib : Zlib) (index : PdfIndex) (items : List ChainEntry)
    (listing : PdfIndex.Listing) (looked : List Looked) : Prop where
  sound : ∀ one ∈ looked, one.item ∈ items ∧ one.Sound zlib index
  seen : listing.seen = (looked.map Looked.written).reverse
  found : listing.found = looked.filterMap Looked.found
  once : (looked.map Looked.written).Nodup
  covered : ∀ item ∈ items, ∃ written, item.written = .ok written ∧
    ∀ place, written = some place → place ∈ looked.map Looked.written

theorem listedAfter_nil : ListedAfter zlib index [] ⟨[], []⟩ [] where
  sound := by simp
  seen := rfl
  found := rfl
  once := nodup_nil
  covered := by simp

section
variable (h : ListedAfter zlib index items listing looked)
include h

theorem ListedAfter.keep {written} (hWritten : item.written = .ok written)
    (hSeen : ∀ place, written = some place → place ∈ looked.map Looked.written) :
    ListedAfter zlib index (items ++ [item]) listing looked := by
  refine ⟨fun one hOne => ?_, h.seen, h.found, h.once,
    forall_mem_snoc h.covered ⟨written, hWritten, hSeen⟩⟩
  exact ⟨mem_append_left _ (h.sound one hOne).1, (h.sound one hOne).2⟩

/-- An entry whose object is looked at. -/
theorem ListedAfter.look {one} (hOne : one.Sound zlib index) (hFresh : one.written ∉ listing.seen) :
    ListedAfter zlib index (items ++ [one.item])
      ⟨one.written :: listing.seen, listing.found ++ one.found.toList⟩ (looked ++ [one]) := by
  rw [h.seen, mem_reverse] at hFresh
  refine ⟨forall_mem_snoc (fun other hOther => ?_) ?_, ?_, ?_, ?_, ?_⟩
  · exact ⟨mem_append_left _ (h.sound other hOther).1, (h.sound other hOther).2⟩
  · exact ⟨mem_append_right _ (mem_singleton_self one.item), hOne⟩
  · rw [h.seen, map_append, reverse_append]
    rfl
  · rw [h.found, filterMap_append, filterMap_cons, filterMap_nil]
    cases one.found <;> rfl
  · rw [map_append]
    exact nodup_snoc h.once hFresh
  rw [map_append]
  refine forall_mem_snoc (fun item hItem => ?_)
    ⟨some one.written, hOne.written, fun place hPlace => ?_⟩
  · obtain ⟨written, hWritten, hCovered⟩ := h.covered item hItem
    exact ⟨written, hWritten, fun place hPlace =>
      mem_append_left _ (hCovered place hPlace)⟩
  · rw [← some.inj hPlace]
    exact mem_append_right _ (mem_singleton_self _)

theorem ListedAfter.listEntry {next} (hNext : index.listEntry zlib listing item = .ok next) :
    ∃ more, ListedAfter zlib index (items ++ [item]) next (looked ++ more) := by
  rw [PdfIndex.listEntry] at hNext
  obtain ⟨written, hWritten, hNext⟩ := bind_eq_ok.mp hNext
  cases written with
  | none =>
    obtain rfl := ok.inj hNext
    exact ⟨[], (append_nil looked).symm ▸ h.keep hWritten (by simp)⟩
  | some place =>
    dsimp only at hNext
    split_ifs at hNext with hSeen
    · obtain rfl := ok.inj hNext
      rw [h.seen, mem_reverse] at hSeen
      refine ⟨[], (append_nil looked).symm ▸ h.keep hWritten fun other hOther => ?_⟩
      exact some.inj hOther ▸ hSeen
    · obtain ⟨dictionary, hRead, hNext⟩ := bind_eq_ok.mp hNext
      obtain rfl := ok.inj hNext
      exact ⟨[⟨item, place, dictionary⟩], @ListedAfter.look _ _ _ _ _ h ⟨item, place, dictionary⟩
          ⟨hWritten, okOr_eq_ok.mp hRead⟩ hSeen⟩

theorem ListedAfter.foldlM {more last}
    (hLast : more.foldlM (index.listEntry zlib) listing = .ok last) :
    ∃ all, ListedAfter zlib index (items ++ more) last all := by
  induction more generalizing items listing looked with
  | nil =>
    obtain rfl := ok.inj hLast
    exact ⟨looked, (append_nil items).symm ▸ h⟩
  | cons item more ih =>
    rw [foldlM_cons] at hLast
    obtain ⟨next, hNext, hRest⟩ := bind_eq_ok.mp hLast
    obtain ⟨added, hAdded⟩ := h.listEntry hNext
    obtain ⟨all, hAll⟩ := ih hAdded hRest
    refine ⟨all, ?_⟩
    rwa [append_assoc] at hAll

end

theorem objectDictionaries_eq_ok (h : index.objectDictionaries zlib = .ok dictionaries) :
    ∃ listing looked, ListedAfter zlib index (chainEntries index.sections) listing looked ∧
      dictionaries.Perm (looked.filterMap Looked.dictionary) := by
  rw [PdfIndex.objectDictionaries] at h
  obtain ⟨listing, hListing, h⟩ := bind_eq_ok.mp h
  obtain ⟨looked, hLooked⟩ := listedAfter_nil.foldlM hListing
  rw [nil_append] at hLooked
  refine ⟨listing, looked, hLooked, ?_⟩
  have hDictionaries : (looked.filterMap Looked.found).map Prod.snd =
      looked.filterMap Looked.dictionary := by
    rw [map_filterMap]
    congr 1
    funext one
    rw [Looked.found, Option.map_map]
    exact map_id'
  rw [← hDictionaries, ← hLooked.found, ← ok.inj h]
  exact (mergeSort_perm _ _).map _

variable {position : Nat}

section Compressed
/-- An object inside an object stream has generation zero. -/
def XrefEntry.StreamGeneration (entry : XrefEntry) : Prop :=
  ∀ container position, entry.location = .compressed container position → entry.generation = 0

variable {number : Nat} {entry : XrefEntry}

theorem streamGeneration_entryFromFields {kind second third}
    (h : entryFromFields number kind second third = .ok entry) : entry.StreamGeneration := by
  intro container position hLocation
  rw [entryFromFields] at h
  split_ifs at h with hDirect hCompressed
  · obtain ⟨generation, -, h⟩ := bind_eq_ok.mp h
    obtain rfl := ok.inj h
    cases hLocation
  · obtain ⟨_, -, h⟩ := bind_eq_ok.mp h
    obtain ⟨_, -, h⟩ := bind_eq_ok.mp h
    obtain rfl := ok.inj h
    rfl
  · obtain rfl := ok.inj h
    rfl

variable {entries : List XrefEntry} {widths : Widths} {count : Nat} {payload : Bytes}

theorem streamGeneration_subsectionEntries
    (h : subsectionEntries widths number count payload = .ok entries) :
    ∀ entry ∈ entries, entry.StreamGeneration := by
  induction count generalizing number payload entries with
  | zero =>
    obtain rfl := ok.inj h
    simp
  | succ count ih =>
    rw [subsectionEntries] at h
    obtain ⟨first, hFirst, h⟩ := bind_eq_ok.mp h
    obtain ⟨rest, hRest, h⟩ := bind_eq_ok.mp h
    obtain rfl := ok.inj h
    rw [entryFromRow] at hFirst
    obtain ⟨_, -, hFirst⟩ := bind_eq_ok.mp hFirst
    obtain ⟨_, -, hFirst⟩ := bind_eq_ok.mp hFirst
    obtain ⟨_, -, hFirst⟩ := bind_eq_ok.mp hFirst
    exact forall_mem_cons.mpr ⟨streamGeneration_entryFromFields hFirst, ih hRest⟩

theorem streamGeneration_subsectionsEntries {pairs}
    (h : subsectionsEntries widths pairs payload = .ok entries) :
    ∀ entry ∈ entries, entry.StreamGeneration := by
  induction pairs generalizing payload entries with
  | nil =>
    obtain rfl := ok.inj h
    simp
  | cons pair pairs ih =>
    rw [subsectionsEntries] at h
    obtain ⟨first, hFirst, h⟩ := bind_eq_ok.mp h
    obtain ⟨rest, hRest, h⟩ := bind_eq_ok.mp h
    obtain rfl := ok.inj h
    exact forall_mem_append.mpr ⟨streamGeneration_subsectionEntries hFirst, ih hRest⟩

variable {found : XrefSection}

theorem streamGeneration_parseStreamSection (h : parseStreamSection zlib pdf position = .ok found) :
    ∀ entry ∈ found.entries, entry.StreamGeneration := by
  rw [parseStreamSection] at h
  obtain ⟨object, -, h⟩ := bind_eq_ok.mp h
  split_ifs at h with hType
  obtain ⟨widths, -, h⟩ := bind_eq_ok.mp h
  obtain ⟨size, -, h⟩ := bind_eq_ok.mp h
  split_ifs at h with hSize
  obtain ⟨subsections, -, h⟩ := bind_eq_ok.mp h
  obtain ⟨entries, hEntries, h⟩ := bind_eq_ok.mp h
  obtain rfl := ok.inj h
  rw [streamEntries] at hEntries
  split_ifs at hEntries with hWidths
  obtain ⟨pairs, -, hEntries⟩ := bind_eq_ok.mp hEntries
  obtain ⟨declared, -, hEntries⟩ := bind_eq_ok.mp hEntries
  split_ifs at hEntries with hPayload
  exact streamGeneration_subsectionsEntries hEntries

variable {parser after : PdfValueParser}

theorem streamGeneration_tableRow (h : tableRow number parser = .ok (entry, after)) :
    entry.StreamGeneration := by
  rw [tableRow] at h
  obtain ⟨_, -, h⟩ := bind_eq_ok.mp h
  obtain ⟨objectOffset, -, h⟩ := bind_eq_ok.mp h
  obtain ⟨_, -, h⟩ := bind_eq_ok.mp h
  obtain ⟨generation, -, h⟩ := bind_eq_ok.mp h
  obtain ⟨flag, -, h⟩ := bind_eq_ok.mp h
  obtain ⟨location, hLocation, h⟩ := bind_eq_ok.mp h
  obtain ⟨rfl, -⟩ := Prod.mk.inj (ok.inj h)
  intro container position hCompressed
  rw [tableLocation] at hLocation
  split_ifs at hLocation
  · rw [← ok.inj hLocation] at hCompressed
    cases hCompressed
  · rw [← ok.inj hLocation] at hCompressed
    cases hCompressed

theorem streamGeneration_tableRows (h : tableRows number count parser = .ok (entries, after)) :
    ∀ entry ∈ entries, entry.StreamGeneration := by
  induction count generalizing number parser entries with
  | zero =>
    obtain ⟨rfl, -⟩ := Prod.mk.inj (ok.inj h)
    simp
  | succ count ih =>
    rw [tableRows] at h
    obtain ⟨⟨first, middle⟩, hFirst, h⟩ := bind_eq_ok.mp h
    obtain ⟨⟨rest, last⟩, hRest, h⟩ := bind_eq_ok.mp h
    obtain ⟨rfl, rfl⟩ := Prod.mk.inj (ok.inj h)
    exact forall_mem_cons.mpr ⟨streamGeneration_tableRow hFirst, ih hRest⟩

theorem streamGeneration_tableSubsections {fuel declared}
    (h : tableSubsections fuel declared parser = .ok (entries, after)) :
    ∀ entry ∈ entries, entry.StreamGeneration := by
  induction fuel generalizing declared parser entries with
  | zero => cases h
  | succ fuel ih =>
    rw [tableSubsections] at h
    obtain ⟨token, -, h⟩ := bind_eq_ok.mp h
    dsimp only at h
    split_ifs at h with hTrailer
    · obtain ⟨rfl, -⟩ := Prod.mk.inj (ok.inj h)
      simp
    obtain ⟨start, -, h⟩ := bind_eq_ok.mp h
    obtain ⟨_, -, h⟩ := bind_eq_ok.mp h
    obtain ⟨count, -, h⟩ := bind_eq_ok.mp h
    split_ifs at h with hBound
    obtain ⟨⟨first, middle⟩, hFirst, h⟩ := bind_eq_ok.mp h
    obtain ⟨⟨rest, last⟩, hRest, h⟩ := bind_eq_ok.mp h
    obtain ⟨rfl, rfl⟩ := Prod.mk.inj (ok.inj h)
    exact forall_mem_append.mpr ⟨streamGeneration_tableRows hFirst, ih hRest⟩

theorem streamGeneration_parseTable {trailer} (h : parseTable pdf parser = .ok (entries, trailer)) :
    ∀ entry ∈ entries, entry.StreamGeneration := by
  rw [parseTable] at h
  obtain ⟨⟨found, last⟩, hFound, h⟩ := bind_eq_ok.mp h
  obtain ⟨⟨dictionary, _⟩, -, h⟩ := bind_eq_ok.mp h
  dsimp only at h
  split_ifs at h with hSize
  obtain ⟨rfl, -⟩ := Prod.mk.inj (ok.inj h)
  exact streamGeneration_tableSubsections hFound

theorem streamGeneration_sectionAt (h : SectionAt zlib pdf position found) :
    ∀ entry ∈ found.entries, entry.StreamGeneration := by
  cases h with
  | stream hKeyword h => exact streamGeneration_parseStreamSection h
  | table hKeyword h hHybrid => exact streamGeneration_parseTable h
  | hybrid hKeyword h hHybrid hStream =>
    exact forall_mem_append.mpr
      ⟨streamGeneration_parseStreamSection hStream, streamGeneration_parseTable h⟩

theorem mem_chainEntries {sections} (h : item ∈ chainEntries sections) :
    ∃ entries ∈ sections, item.entry ∈ entries := by
  induction sections with
  | nil => cases h
  | cons entries older ih =>
    rcases mem_append.mp h with hHere | hOlder
    · obtain ⟨entry, hEntry, rfl⟩ := mem_map.mp hHere
      exact ⟨entries, mem_cons_self, hEntry⟩
    · obtain ⟨found, hFound, hEntry⟩ := ih hOlder
      exact ⟨found, mem_cons_of_mem _ hFound, hEntry⟩

theorem streamGeneration_chainEntries (h : parse zlib pdf = .ok index) :
    ∀ item ∈ chainEntries index.sections, item.entry.StreamGeneration := by
  intro item hItem
  obtain ⟨links, hIndexes⟩ := indexes_of_parse h
  obtain ⟨entries, hEntries, hEntry⟩ := mem_chainEntries hItem
  rw [hIndexes.sections] at hEntries
  obtain ⟨link, hLink, rfl⟩ := mem_map.mp hEntries
  obtain ⟨newer, older, rfl⟩ := append_of_mem hLink
  exact streamGeneration_sectionAt (sectionAt_of_parse hIndexes.chain.split.1) item.entry hEntry

end Compressed

section Search
/-- Where a dictionary is written: the position of its `<<` in the file, or the
position of an object stream and its place among the stream's contents. -/
inductive Place where
  | file (position : Nat)
  | stream (position index : Nat)
  deriving DecidableEq

def Written.place (pdf : Bytes) (dictionary : ObjectDictionary) : Written → Place
  | .direct _ => .file (dictionary.fileOffset.getD 0)
  | .compressed offset position => .stream (skipPdfTrivia pdf offset) position

def PdfIndex.NamedAt (zlib : Zlib) (index : PdfIndex) (reference : PdfObjectReference) :
    Written → Prop
  | .direct offset => ∃ cursor, objectHeaderEnd index.pdf reference offset = some cursor
  | .compressed offset position => reference.generation = 0 ∧
      ∃ body, index.compressedBody zlib offset reference.number position = some body

/-- An entry in use leads to an object with exactly its number and generation. -/
def ChainEntry.Leads (zlib : Zlib) (index : PdfIndex) (item : ChainEntry) : Prop :=
  ∃ written, item.written = .ok written ∧
    ∀ place, written = some place → index.NamedAt zlib item.reference place

def ChainEntry.Holds (zlib : Zlib) (index : PdfIndex) (item : ChainEntry) (place : Place)
    (dictionary : ObjectDictionary) : Prop :=
  ∃ written, item.written = .ok (some written) ∧
    index.dictionaryWritten zlib item.reference written = some (some dictionary) ∧
    place = written.place index.pdf dictionary

/-- Every entry in use leads to its object, and every written dictionary is
listed exactly once. -/
structure ListsEveryObject (zlib : Zlib) (index : PdfIndex)
    (dictionaries : List ObjectDictionary) : Prop where
  leads : ∀ item ∈ chainEntries index.sections, item.Leads zlib index
  once : ∃ listed : List (Place × ObjectDictionary), (listed.map Prod.fst).Nodup ∧
    dictionaries.Perm (listed.map Prod.snd) ∧
    ∀ place dictionary, (place, dictionary) ∈ listed ↔
      ∃ item ∈ chainEntries index.sections, item.Holds zlib index place dictionary

/-- No two entries in use give one place to different objects, and none reach
one dictionary through different offsets. -/
structure OneObjectPerPlace (zlib : Zlib) (index : PdfIndex) : Prop where
  named : ∀ left ∈ chainEntries index.sections, ∀ right ∈ chainEntries index.sections,
    ∀ written, left.written = .ok (some written) → right.written = .ok (some written) →
      left.reference = right.reference
  reached : ∀ left ∈ chainEntries index.sections, ∀ right ∈ chainEntries index.sections,
    ∀ leftWritten rightWritten leftDictionary rightDictionary,
      left.written = .ok (some leftWritten) → right.written = .ok (some rightWritten) →
      index.dictionaryWritten zlib left.reference leftWritten = some (some leftDictionary) →
      index.dictionaryWritten zlib right.reference rightWritten = some (some rightDictionary) →
      leftWritten.place index.pdf leftDictionary = rightWritten.place index.pdf rightDictionary →
      leftWritten = rightWritten

theorem objectHeaderEnd_reference {left right offset leftEnd rightEnd}
    (hLeft : objectHeaderEnd pdf left offset = some leftEnd)
    (hRight : objectHeaderEnd pdf right offset = some rightEnd) : left = right := by
  rw [objectHeaderEnd] at hLeft hRight
  obtain ⟨⟨number, afterNumber⟩, hNumber, hLeft⟩ := bind_eq_some_iff.mp hLeft
  obtain ⟨⟨generation, afterGeneration⟩, hGeneration, hLeft⟩ := bind_eq_some_iff.mp hLeft
  obtain ⟨_, hNumber', hRight⟩ := bind_eq_some_iff.mp hRight
  obtain rfl := some.inj (hNumber.symm.trans hNumber')
  obtain ⟨_, hGeneration', hRight⟩ := bind_eq_some_iff.mp hRight
  obtain rfl := some.inj (hGeneration.symm.trans hGeneration')
  dsimp only at hLeft hRight
  split_ifs at hLeft hRight with hSameLeft hSameRight
  obtain ⟨leftNumber, leftGeneration⟩ := left
  obtain ⟨rightNumber, rightGeneration⟩ := right
  rw [PdfObjectReference.mk.injEq]
  exact ⟨hSameLeft.1.symm.trans hSameRight.1, hSameLeft.2.symm.trans hSameRight.2⟩

theorem ObjectStream.body_number {stream : ObjectStream} {left right leftBody rightBody} (hLeft : stream.body left position = some leftBody)
    (hRight : stream.body right position = some rightBody) : left = right := by
  rw [ObjectStream.body] at hLeft hRight
  split_ifs at hLeft hRight with hCount
  obtain ⟨token, hToken, hLeft⟩ := bind_eq_some_iff.mp hLeft
  obtain ⟨declared, hDeclared, hLeft⟩ := bind_eq_some_iff.mp hLeft
  obtain ⟨_, hToken', hRight⟩ := bind_eq_some_iff.mp hRight
  obtain rfl := some.inj (hToken.symm.trans hToken')
  obtain ⟨_, hDeclared', hRight⟩ := bind_eq_some_iff.mp hRight
  obtain rfl := some.inj (hDeclared.symm.trans hDeclared')
  split_ifs at hLeft hRight with hLeftNumber hRightNumber
  exact (not_not.mp hLeftNumber).symm.trans (not_not.mp hRightNumber)

variable {written : Written}

theorem PdfIndex.NamedAt.unique {left right : PdfObjectReference}
    (hLeft : index.NamedAt zlib left written) (hRight : index.NamedAt zlib right written) :
    left = right := by
  cases written with
  | direct offset =>
    obtain ⟨leftEnd, hLeft⟩ := hLeft
    obtain ⟨rightEnd, hRight⟩ := hRight
    exact objectHeaderEnd_reference hLeft hRight
  | compressed offset position =>
    obtain ⟨hLeftGeneration, leftBody, hLeft⟩ := hLeft
    obtain ⟨hRightGeneration, rightBody, hRight⟩ := hRight
    obtain ⟨stream, hStream, hLeft⟩ := bind_eq_some_iff.mp hLeft
    obtain ⟨_, hStream', hRight⟩ := bind_eq_some_iff.mp hRight
    obtain rfl := some.inj (hStream.symm.trans hStream')
    obtain ⟨leftNumber, leftGeneration⟩ := left
    obtain ⟨rightNumber, rightGeneration⟩ := right
    rw [PdfObjectReference.mk.injEq]
    exact ⟨ObjectStream.body_number hLeft hRight, hLeftGeneration.trans hRightGeneration.symm⟩

/-- An object that was read where an entry says it is has the entry's name. -/
theorem namedAt_of_dictionaryWritten {dictionary}
    (hEntry : item.entry.StreamGeneration) (hWritten : item.written = .ok (some written))
    (h : index.dictionaryWritten zlib item.reference written = some dictionary) :
    index.NamedAt zlib item.reference written := by
  cases written with
  | direct offset =>
    obtain ⟨found, hFound, -⟩ := bind_eq_some_iff.mp h
    obtain ⟨cursor, hCursor, -⟩ := bind_eq_some_iff.mp hFound
    exact ⟨cursor, hCursor⟩
  | compressed offset position =>
    obtain ⟨body, hBody, -⟩ := bind_eq_some_iff.mp h
    refine ⟨?_, body, hBody⟩
    rw [ChainEntry.written] at hWritten
    cases hLocation : item.entry.location with
    | free | direct other =>
      rw [hLocation] at hWritten
      cases hWritten
    | compressed container place => exact hEntry container place hLocation

def Looked.place (pdf : Bytes) (one : Looked) : Option Place :=
  one.dictionary.map fun dictionary => one.written.place pdf dictionary

/-- Where the objects are named as the entries say, an entry's dictionary is the
one that was found at its place. -/
theorem ListedAfter.dictionary_eq (h : ListedAfter zlib index items listing looked)
    (hNamed : ∀ left ∈ items, ∀ right ∈ items, ∀ written, left.written = .ok (some written) →
      right.written = .ok (some written) → left.reference = right.reference) (hItem : item ∈ items)
    (hWritten : item.written = .ok (some written)) :
    ∃ one ∈ looked, one.written = written ∧
      index.dictionaryWritten zlib item.reference written = some one.dictionary := by
  obtain ⟨found, hFound, hCovered⟩ := h.covered item hItem
  obtain rfl := ok.inj (hWritten.symm.trans hFound)
  obtain ⟨one, hOne, rfl⟩ := mem_map.mp (hCovered written rfl)
  obtain ⟨hOneItem, hSound⟩ := h.sound one hOne
  refine ⟨one, hOne, rfl, ?_⟩
  rw [hNamed item hItem one.item hOneItem one.written hWritten hSound.written]
  exact hSound.reads

theorem inj_of_nodup_filterMap {α β : Type} {f} {list : List α}
    (h : (list.filterMap f).Nodup) {left right} (hLeft : left ∈ list) (hRight : right ∈ list)
    {image : β} (hLeftImage : f left = some image) (hRightImage : f right = some image) :
    left = right := by
  by_contra hDiffer
  refine @Pairwise.forall _ _ _ ⟨?_⟩ (pairwise_filterMap.mp h) _ hLeft _ hRight hDiffer _ hLeftImage _
    hRightImage rfl
  exact fun _ _ hApart second hSecond first hFirst hSame =>
    hApart first hFirst second hSecond hSame.symm

end Search

def Looked.listed (pdf : Bytes) (one : Looked) : Option (Place × ObjectDictionary) :=
  one.dictionary.map fun dictionary => (one.written.place pdf dictionary, dictionary)

theorem map_fst_listed (pdf : Bytes) (looked : List Looked) :
    (looked.filterMap (listed pdf)).map Prod.fst = looked.filterMap (place pdf) := by
  rw [map_filterMap]
  congr 1
  funext one
  rw [listed, place, Option.map_map]
  rfl

theorem map_snd_listed (pdf : Bytes) (looked : List Looked) :
    (looked.filterMap (listed pdf)).map Prod.snd = looked.filterMap dictionary := by
  rw [map_filterMap]
  congr 1
  funext one
  rw [listed, Option.map_map]
  exact Option.map_id'

theorem places_nodup (hLooked : ListedAfter zlib index (chainEntries index.sections) listing looked)
    (hOne : OneObjectPerPlace zlib index) : (looked.filterMap (Looked.place index.pdf)).Nodup := by
  have hWritten := pairwise_map.mp hLooked.once
  refine pairwise_filterMap.mpr (hWritten.imp_of_mem ?_)
  intro left right hLeft hRight hDiffer place hPlace place' hPlace' hSame
  obtain ⟨leftDictionary, hLeftDictionary, rfl⟩ := map_eq_some_iff.mp hPlace
  obtain ⟨rightDictionary, hRightDictionary, rfl⟩ := map_eq_some_iff.mp hPlace'
  obtain ⟨hLeftItem, hLeftSound⟩ := hLooked.sound left hLeft
  obtain ⟨hRightItem, hRightSound⟩ := hLooked.sound right hRight
  exact hDiffer (hOne.reached left.item hLeftItem right.item hRightItem _ _ _ _
    hLeftSound.written hRightSound.written (hLeftDictionary ▸ hLeftSound.reads)
    (hRightDictionary ▸ hRightSound.reads) hSame)

theorem listsEveryObject_of_oneObjectPerPlace (hParse : PdfIndex.parse zlib pdf = .ok index)
    (hList : index.objectDictionaries zlib = .ok dictionaries)
    (hOne : OneObjectPerPlace zlib index) : ListsEveryObject zlib index dictionaries := by
  obtain ⟨listing, looked, hLooked, hPerm⟩ := objectDictionaries_eq_ok hList
  refine ⟨fun item hItem => ?_, ?_⟩
  · obtain ⟨written, hWritten, -⟩ := hLooked.covered item hItem
    refine ⟨written, hWritten, fun place hPlace => ?_⟩
    rw [hPlace] at hWritten
    obtain ⟨one, -, -, hRead⟩ := hLooked.dictionary_eq hOne.named hItem hWritten
    exact namedAt_of_dictionaryWritten (streamGeneration_chainEntries hParse item hItem) hWritten
      hRead
  refine ⟨looked.filterMap (Looked.listed index.pdf), ?_, ?_, fun place dictionary => ⟨?_, ?_⟩⟩
  · rw [map_fst_listed]
    exact places_nodup hLooked hOne
  · rw [map_snd_listed]
    exact hPerm
  · intro hMember
    obtain ⟨one, hLookedAt, hPair⟩ := mem_filterMap.mp hMember
    obtain ⟨found, hFound, hSame⟩ := map_eq_some_iff.mp hPair
    obtain ⟨rfl, rfl⟩ := Prod.mk.inj hSame
    obtain ⟨hItem, hSound⟩ := hLooked.sound one hLookedAt
    exact ⟨one.item, hItem, one.written, hSound.written, hFound ▸ hSound.reads, rfl⟩
  · rintro ⟨item, hItem, written, hWritten, hRead, rfl⟩
    obtain ⟨one, hLookedAt, rfl, hDictionary⟩ := hLooked.dictionary_eq hOne.named hItem hWritten
    rw [hDictionary] at hRead
    refine mem_filterMap.mpr ⟨one, hLookedAt, ?_⟩
    rw [Looked.listed, some.inj hRead]
    rfl

theorem oneObjectPerPlace_of_listsEveryObject
    (hList : index.objectDictionaries zlib = .ok dictionaries)
    (hEvery : ListsEveryObject zlib index dictionaries) : OneObjectPerPlace zlib index := by
  obtain ⟨listing, looked, hLooked, hPerm⟩ := objectDictionaries_eq_ok hList
  have hNamed : ∀ left ∈ chainEntries index.sections, ∀ right ∈ chainEntries index.sections,
      ∀ written, left.written = .ok (some written) → right.written = .ok (some written) →
        left.reference = right.reference := by
    intro left hLeft right hRight written hLeftWritten hRightWritten
    obtain ⟨_, hLeftFound, hLeftNamed⟩ := hEvery.leads left hLeft
    obtain ⟨_, hRightFound, hRightNamed⟩ := hEvery.leads right hRight
    obtain rfl := ok.inj (hLeftWritten.symm.trans hLeftFound)
    obtain rfl := ok.inj (hRightWritten.symm.trans hRightFound)
    exact (hLeftNamed written rfl).unique (hRightNamed written rfl)
  obtain ⟨listed, hDistinct, hListed, hExactly⟩ := hEvery.once
  -- As many places were looked at as are listed, and every listed one was.
  have hPlaces : (looked.filterMap (Looked.place index.pdf)).Nodup := by
    have hSubset : listed.map Prod.fst ⊆ looked.filterMap (Looked.place index.pdf) := by
      intro place hPlace
      obtain ⟨⟨_, dictionary⟩, hPair, rfl⟩ := mem_map.mp hPlace
      obtain ⟨item, hItem, written, hWritten, hRead, rfl⟩ := (hExactly _ dictionary).mp hPair
      obtain ⟨one, hLookedAt, rfl, hDictionary⟩ := hLooked.dictionary_eq hNamed hItem hWritten
      rw [hDictionary] at hRead
      refine mem_filterMap.mpr ⟨one, hLookedAt, ?_⟩
      rw [Looked.place, some.inj hRead]
      rfl
    have hLength : (looked.filterMap (Looked.place index.pdf)).length ≤
        (listed.map Prod.fst).length := by
      rw [← map_fst_listed, length_map, length_map,
        ← length_map Prod.snd, map_snd_listed, ← hPerm.length_eq, hListed.length_eq,
        length_map]
    exact ((subperm_of_subset hDistinct hSubset).perm_of_length_le hLength).nodup hDistinct
  refine ⟨hNamed, ?_⟩
  intro left hLeft right hRight leftWritten rightWritten leftDictionary rightDictionary
    hLeftWritten hRightWritten hLeftRead hRightRead hPlace
  obtain ⟨one, hOne, rfl, hOneRead⟩ := hLooked.dictionary_eq hNamed hLeft hLeftWritten
  obtain ⟨two, hTwo, rfl, hTwoRead⟩ := hLooked.dictionary_eq hNamed hRight hRightWritten
  rw [hOneRead] at hLeftRead
  rw [hTwoRead] at hRightRead
  have hOnePlace : one.place index.pdf = some (one.written.place index.pdf leftDictionary) := by
    rw [Looked.place, some.inj hLeftRead]
    rfl
  have hTwoPlace : two.place index.pdf = some (one.written.place index.pdf leftDictionary) := by
    rw [Looked.place, some.inj hRightRead, hPlace]
    rfl
  rw [inj_of_nodup_filterMap hPlaces hOne hTwo hOnePlace hTwoPlace]

/-- The search names every written object and lists every dictionary once exactly
if no two entries share a place or reach one dictionary through two offsets. -/
theorem lists_every_object_iff_one_per_place (hParse : parse zlib pdf = .ok index)
    (hList : index.objectDictionaries zlib = .ok dictionaries) :
    ListsEveryObject zlib index dictionaries ↔ OneObjectPerPlace zlib index :=
  ⟨oneObjectPerPlace_of_listsEveryObject hList, listsEveryObject_of_oneObjectPerPlace hParse hList⟩

/-- One object and a table with these rows for the numbers from one on. -/
def tableOf (rows : String) (count : Nat) : Bytes :=
  asBytes "1 0 obj<<>>endobj\nxref\n1 " ++ [0x30 + UInt8.ofNat count] ++
    asBytes ("\n" ++ rows ++ "trailer\n<< /Size 3 >>\nstartxref\n18\n")

def oneEntry : Bytes := tableOf "0000000000 00000 n \n" 1

theorem parse_and_list {sections}
    (h : (parse zlib pdf >>= fun index =>
      Prod.mk index.sections <$> index.objectDictionaries zlib) = .ok (sections, dictionaries)) :
    ∃ index, parse zlib pdf = .ok index ∧ index.sections = sections ∧
      index.objectDictionaries zlib = .ok dictionaries := by
  obtain ⟨index, hIndex, h⟩ := bind_eq_ok.mp h
  obtain ⟨_, hList, hBoth⟩ := map_eq_ok.mp h
  cases hBoth
  exact ⟨index, hIndex, rfl, hList⟩

theorem lists_every_object_oneEntry :
    ∃ index, parse (fun _ _ => none) oneEntry = .ok index ∧
      ListsEveryObject (fun _ _ => none) index [⟨some 7, asBytes "<<>>"⟩] := by
  obtain ⟨index, hIndex, hSections, hDictionaries⟩ := @parse_and_list (fun _ _ => none) oneEntry
    [⟨some 7, asBytes "<<>>"⟩] [[⟨1, 0, .direct 0⟩]] (by decide +kernel)
  refine ⟨index, hIndex, (lists_every_object_iff_one_per_place hIndex hDictionaries).mpr ?_⟩
  have hItems : ∀ item ∈ chainEntries index.sections, item = ⟨index.sections, ⟨1, 0, .direct 0⟩⟩ := by
    rw [hSections]
    simp [chainEntries]
  refine ⟨fun left hLeft right hRight _ _ _ => ?_, ?_⟩
  · rw [hItems left hLeft, hItems right hRight]
  intro left hLeft right hRight leftWritten rightWritten _ _ hLeftWritten hRightWritten _ _ _
  rw [hItems left hLeft] at hLeftWritten
  rw [hItems right hRight, hLeftWritten] at hRightWritten
  exact some.inj (ok.inj hRightWritten)

/-- Two entries with one offset: the object there has only one number. -/
def sharedOffset : Bytes := tableOf "0000000000 00000 n \n0000000000 00000 n \n" 2

theorem shared_offset_goes_unnoticed :
    ∃ index, parse (fun _ _ => none) sharedOffset = .ok index ∧
      index.objectDictionaries (fun _ _ => none) = .ok [⟨some 7, asBytes "<<>>"⟩] ∧
      ¬ ListsEveryObject (fun _ _ => none) index [⟨some 7, asBytes "<<>>"⟩] := by
  obtain ⟨index, hIndex, hSections, hDictionaries⟩ := @parse_and_list (fun _ _ => none) sharedOffset
    [⟨some 7, asBytes "<<>>"⟩] [[⟨1, 0, .direct 0⟩, ⟨2, 0, .direct 0⟩]] (by decide +kernel)
  refine ⟨index, hIndex, hDictionaries, fun hEvery => ?_⟩
  have hNamed := (oneObjectPerPlace_of_listsEveryObject hDictionaries hEvery).named
  rw [hSections] at hNamed
  have hSame := hNamed ⟨_, ⟨1, 0, .direct 0⟩⟩ mem_cons_self ⟨_, ⟨2, 0, .direct 0⟩⟩
    (mem_cons_of_mem _ mem_cons_self) (.direct 0) rfl rfl
  cases hSame

end RefineId.Pades
