import RefineId.DocSign.Container
import Mathlib.Data.List.Nodup

/-! What the references of a signature cover
(`XadesSignature::document_intact` of `crates/doc-sign/src/verification/xades.rs`). -/
namespace RefineId.DocSign

open Data List Option

inductive DigestMethod where
  | sha256
  | sha384
  | sha512
  deriving DecidableEq

def DigestMethod.len : DigestMethod → Nat
  | sha256 => 32
  | sha384 => 48
  | sha512 => 64

structure DigestValue where
  method : DigestMethod
  value : Bytes
  length_value : value.length = method.len
  deriving DecidableEq

/-- What a reference digests. -/
inductive Target where
  | dataFile (uri : String)
  | signedProperties (octets : Bytes)
  | countersigned (octets : Bytes)
  | sameDocument (octets : Bytes)
  | unresolvable
  deriving DecidableEq

structure Reference where
  target : Target
  digest : DigestValue
  deriving DecidableEq

/-- The parts of a signature that its references are judged by. -/
structure XadesSignature where
  references : List Reference
  counterSignature : Bool

section Judge
variable (digest : DigestMethod → Bytes → Bytes)

def DigestValue.matches (value : DigestValue) (input : Bytes) : Bool :=
  digest value.method input = value.value

namespace Reference

variable (reference : Reference)

/-- Whether the digest is that of what the target resolves to. A data file is
the first one the reference names. -/
def resolves (container : AsicContainer) : Bool :=
  match reference.target with
  | .dataFile uri =>
    (container.dataFiles.find? fun entry => uriNames uri entry.name).any
      fun entry => reference.digest.matches digest entry.content
  | .signedProperties octets | .countersigned octets | .sameDocument octets =>
    reference.digest.matches digest octets
  | .unresolvable => false

def isSignedProperties : Bool :=
  match reference.target with
  | .signedProperties _ => true
  | _ => false

def isCountersigned : Bool :=
  match reference.target with
  | .countersigned _ => true
  | _ => false

def names (name : String) : Bool :=
  match reference.target with
  | .dataFile uri => uriNames uri name
  | _ => false

end Reference

/-- Every reference matches, one covers the signed properties, and every data
file is named; a counter-signature covers a signature value instead. -/
def XadesSignature.documentIntact (signature : XadesSignature) (container : AsicContainer) : Bool :=
  let everyReferenceMatches :=
    !signature.references.isEmpty &&
      signature.references.all fun reference => reference.resolves digest container
  let propertiesCovered := signature.references.any Reference.isSignedProperties
  let covered :=
    if signature.counterSignature then signature.references.any Reference.isCountersigned
    else container.dataFiles.all fun entry =>
      signature.references.any fun reference => reference.names entry.name
  everyReferenceMatches && propertiesCovered && covered

end Judge

variable {digest : DigestMethod → Bytes → Bytes} {signature : XadesSignature}
  {container : AsicContainer} {reference : Reference}

theorem documentIntact_iff (hPlain : signature.counterSignature = false) :
    signature.documentIntact digest container = true ↔ signature.references ≠ [] ∧
      (∀ reference ∈ signature.references, reference.resolves digest container = true) ∧
      (∃ reference ∈ signature.references, reference.isSignedProperties = true) ∧
      ∀ entry ∈ container.dataFiles, ∃ reference ∈ signature.references,
        reference.names entry.name = true := by
  simp [XadesSignature.documentIntact, hPlain, and_assoc]

def XadesSignature.NamesFirst (signature : XadesSignature) (names : List String) (name : String) :
    Prop :=
  ∃ reference ∈ signature.references, ∃ uri, reference.target = .dataFile uri ∧
    names.find? (uriNames uri) = some name

theorem find?_map_name (uri : String) (files : List Entry) :
    (files.map Entry.name).find? (uriNames uri) =
      (files.find? fun entry => uriNames uri entry.name).map Entry.name := by
  rw [find?_map]
  rfl

theorem matches_of_namesFirst {entry} (hEntry : entry ∈ container.dataFiles) {uri}
    (hTarget : reference.target = .dataFile uri)
    (hFirst : (container.dataFiles.map Entry.name).find? (uriNames uri) = some entry.name)
    (hResolves : reference.resolves digest container = true) :
    reference.digest.matches digest entry.content = true := by
  rw [find?_map_name, map_eq_some_iff] at hFirst
  obtain ⟨found, hFound, hName⟩ := hFirst
  obtain rfl := inj_on_of_nodup_map container.names_nodup (mem_of_find?_eq_some hFound) hEntry hName
  rw [Reference.resolves, hTarget] at hResolves
  simpa [hFound] using hResolves

section Replaced
variable (container : AsicContainer) (name : String) (content : Bytes)

def Entry.replaced (entry : Entry) : Entry :=
  if entry.name = name then { entry with content } else entry

@[simp] theorem Entry.replaced_name (entry : Entry) :
    (entry.replaced name content).name = entry.name := by
  rw [Entry.replaced]
  split <;> rfl

theorem map_replaced_name (files : List Entry) :
    (files.map (Entry.replaced name content)).map Entry.name = files.map Entry.name := by
  rw [List.map_map]
  apply List.map_congr_left
  intro entry _
  exact Entry.replaced_name name content entry

def AsicContainer.replaced : AsicContainer :=
  { container with
    dataFiles := container.dataFiles.map (Entry.replaced name content)
    names_nodup := by
      rw [map_replaced_name]
      exact container.names_nodup }

variable {container name content}
/-- A reference that names another file first does not see the replacement. -/
theorem resolves_replaced (hOther : ∀ uri, reference.target = .dataFile uri →
      (container.dataFiles.map Entry.name).find? (uriNames uri) ≠ some name) :
    reference.resolves digest (container.replaced name content) =
      reference.resolves digest container := by
  unfold Reference.resolves
  cases hTarget : reference.target with
  | dataFile uri =>
    have hUnnamed := hOther uri hTarget
    rw [find?_map_name] at hUnnamed
    have hFind : ((container.replaced name content).dataFiles.find?
          fun entry => uriNames uri entry.name) =
        (container.dataFiles.find? fun entry => uriNames uri entry.name).map
          (Entry.replaced name content) := by
      rw [AsicContainer.replaced, find?_map]
      simp only [Function.comp_def, Entry.replaced_name]
    dsimp only
    rw [hFind]
    cases hFound : container.dataFiles.find? fun entry => uriNames uri entry.name with
    | none => rfl
    | some entry =>
      have hName : entry.name ≠ name := by
        intro h
        rw [hFound, map_some, h] at hUnnamed
        exact hUnnamed rfl
      rw [map_some, Entry.replaced, if_neg hName]
  | signedProperties octets | countersigned octets | sameDocument octets | unresolvable => rfl

/-- Nothing of the judgement depends on a file that no reference names first. -/
theorem documentIntact_replaced (hPlain : signature.counterSignature = false)
    (hUnnamed : ¬signature.NamesFirst (container.dataFiles.map Entry.name) name)
    (hIntact : signature.documentIntact digest container = true) :
    signature.documentIntact digest (container.replaced name content) = true := by
  obtain ⟨hSome, hResolve, hProperties, hNamed⟩ := (documentIntact_iff hPlain).mp hIntact
  refine (documentIntact_iff hPlain).mpr ⟨hSome, ?_, hProperties, ?_⟩
  · intro reference hReference
    rw [resolves_replaced]
    · exact hResolve reference hReference
    · intro uri hTarget hFirst
      exact hUnnamed ⟨reference, hReference, uri, hTarget, hFirst⟩
  · intro entry hEntry
    obtain ⟨original, hOriginal, rfl⟩ := mem_map.mp hEntry
    rw [Entry.replaced_name]
    exact hNamed original hOriginal

end Replaced

section Sealed
variable (digest : DigestMethod → Bytes → Bytes) (signature : XadesSignature)

def XadesSignature.Covers (container : AsicContainer) : Prop :=
  ∀ entry ∈ container.dataFiles, ∃ reference ∈ signature.references,
    reference.digest.matches digest entry.content = true

/-- No two of these contents share a digest. -/
def CollisionFree (contents : List Bytes) : Prop :=
  ∀ method, ∀ left ∈ contents, ∀ right ∈ contents, digest method left = digest method right →
    left = right

/-- Against any other container that the signature is intact over, no data file
has a content that is not among its data files. -/
def XadesSignature.KeepsContents (container : AsicContainer) : Prop :=
  ∀ original : AsicContainer, signature.documentIntact digest original = true →
    CollisionFree digest ((original.dataFiles ++ container.dataFiles).map Entry.content) →
    ∀ entry ∈ container.dataFiles, ∃ signed ∈ original.dataFiles, signed.content = entry.content

/-- Every data file under these names is bound to the signature. -/
def XadesSignature.Binds (names : List String) : Prop :=
  ∀ container : AsicContainer, container.dataFiles.map Entry.name = names →
    signature.documentIntact digest container = true →
    signature.Covers digest container ∧ signature.KeepsContents digest container

variable {digest signature}

section
variable (hPlain : signature.counterSignature = false)
include hPlain

theorem keepsContents_of_namesFirst (hFirst : ∀ name ∈ container.dataFiles.map Entry.name,
      signature.NamesFirst (container.dataFiles.map Entry.name) name)
    (hIntact : signature.documentIntact digest container = true) :
    signature.KeepsContents digest container := by
  intro original hOriginal hFree entry hEntry
  obtain ⟨-, hResolve, -, -⟩ := (documentIntact_iff hPlain).mp hIntact
  obtain ⟨-, hResolveOriginal, -, -⟩ := (documentIntact_iff hPlain).mp hOriginal
  obtain ⟨reference, hReference, uri, hTarget, hNamed⟩ :=
    hFirst entry.name (mem_map_of_mem hEntry)
  have hNow := matches_of_namesFirst hEntry hTarget hNamed (hResolve reference hReference)
  have hThen := hResolveOriginal reference hReference
  rw [Reference.resolves, hTarget] at hThen
  obtain ⟨signed, hFound, hThen⟩ := (any_eq_true _ _).mp hThen
  have hSigned := mem_of_find?_eq_some hFound
  refine ⟨signed, hSigned, hFree reference.digest.method _ ?_ _ ?_ ?_⟩
  · exact mem_map_of_mem (mem_append_left _ hSigned)
  · exact mem_map_of_mem (mem_append_right _ hEntry)
  · rw [of_decide_eq_true hThen, of_decide_eq_true hNow]

/-- A file that no reference names first can be given any content. -/
theorem not_binds_of_unnamed {names name} (hName : name ∈ names)
    (hUnnamed : ¬signature.NamesFirst names name)
    (hIntact : ∃ container : AsicContainer, container.dataFiles.map Entry.name = names ∧
      signature.documentIntact digest container = true)
    (hFresh : ∃ content, ∀ reference ∈ signature.references,
      reference.digest.matches digest content = false) : ¬signature.Binds digest names := by
  intro hBinds
  obtain ⟨container, rfl, hBefore⟩ := hIntact
  obtain ⟨content, hContent⟩ := hFresh
  obtain ⟨entry, hEntry, rfl⟩ := mem_map.mp hName
  have hAfter : signature.documentIntact digest (container.replaced entry.name content) = true :=
    documentIntact_replaced hPlain hUnnamed hBefore
  have hReplaced : entry.replaced entry.name content ∈
      (container.replaced entry.name content).dataFiles :=
    mem_map_of_mem hEntry
  obtain ⟨hCovers, -⟩ := hBinds _ (map_replaced_name _ _ _) hAfter
  obtain ⟨reference, hReference, hMatches⟩ := hCovers _ hReplaced
  rw [Entry.replaced, if_pos rfl, hContent reference hReference] at hMatches
  cases hMatches

end

/-- The data files are bound just when each is the first one that some
reference names. The other direction needs a container the signature is intact
over, and a content with none of its digests. -/
theorem document_intact_binds_iff_named_first (digest : DigestMethod → Bytes → Bytes)
    (signature : XadesSignature) (hPlain : signature.counterSignature = false)
    (names : List String) :
    ((∀ name ∈ names, signature.NamesFirst names name) → signature.Binds digest names) ∧
    ((∃ container : AsicContainer, container.dataFiles.map Entry.name = names ∧
        signature.documentIntact digest container = true) →
      (∃ content, ∀ reference ∈ signature.references,
        reference.digest.matches digest content = false) →
      signature.Binds digest names → ∀ name ∈ names, signature.NamesFirst names name) := by
  constructor
  · rintro hFirst container rfl hIntact
    refine ⟨fun entry hEntry => ?_, keepsContents_of_namesFirst hPlain hFirst hIntact⟩
    obtain ⟨-, hResolve, -, -⟩ := (documentIntact_iff hPlain).mp hIntact
    obtain ⟨reference, hReference, uri, hTarget, hNamed⟩ :=
      hFirst entry.name (mem_map_of_mem hEntry)
    exact ⟨reference, hReference,
      matches_of_namesFirst hEntry hTarget hNamed (hResolve reference hReference)⟩
  · intro hIntact hFresh hBinds name hName
    by_contra hUnnamed
    exact not_binds_of_unnamed hPlain hName hUnnamed hIntact hFresh hBinds

end Sealed

/-- A content cut or filled to the length of its digest. -/
def firstOctets (method : DigestMethod) (content : Bytes) : Bytes :=
  (content ++ replicate method.len 0).take method.len

def firstOctetsValue (content : Bytes) : DigestValue where
  method := .sha256
  value := firstOctets .sha256 content
  length_value := by simp [firstOctets]

def escapedSignature : XadesSignature where
  references := [⟨.dataFile "a%20b", firstOctetsValue [1]⟩, ⟨.signedProperties [2], firstOctetsValue [2]⟩]
  counterSignature := false

/-- The signed file beside one whose name the escape spells. -/
def escapedContainer : AsicContainer where
  mimetype := .asicE
  dataFiles := [⟨"a%20b", [1]⟩, ⟨"a b", [9]⟩]
  xadesSignatureFiles := []
  cadesSignatures := []
  names_nodup := by decide

/-- The second file is covered by name and digested by no reference. -/
theorem escaped_name_covers_another_file : escapedSignature.counterSignature = false ∧
    escapedSignature.documentIntact firstOctets escapedContainer = true ∧
    ∃ entry ∈ escapedContainer.dataFiles, ∀ reference ∈ escapedSignature.references,
      reference.digest.matches firstOctets entry.content = false := by
  decide +kernel

/-- The signed file alone. -/
def signedContainer : AsicContainer where
  mimetype := .asicE
  dataFiles := [⟨"a%20b", [1]⟩]
  xadesSignatureFiles := []
  cadesSignatures := []
  names_nodup := by decide

theorem document_intact_binds_signedContainer :
    escapedSignature.documentIntact firstOctets signedContainer = true ∧
    escapedSignature.Covers firstOctets signedContainer := by
  have hIntact : escapedSignature.documentIntact firstOctets signedContainer = true := by
    decide +kernel
  have hBinds := (document_intact_binds_iff_named_first firstOctets escapedSignature rfl
    (signedContainer.dataFiles.map Entry.name)).1 ?_
  · exact ⟨hIntact, (hBinds signedContainer rfl hIntact).1⟩
  intro name hName
  obtain rfl := mem_singleton.mp hName
  exact ⟨_, mem_cons_self, "a%20b", rfl, by decide +kernel⟩

end RefineId.DocSign
