import RefineId.Data.Slots
import RefineId.Data.Words

/-! Revocation evidence kept in memory under the issuer and serial number of
the certificate it is about. -/
namespace RefineId.DocSign

open Data List

inductive InapplicableReason where
  | crlIssuerMismatch
  | ocspNoEntryForSerial
  deriving DecidableEq

inductive CrlReason where
  | unspecified
  | keyCompromise
  | caCompromise
  | affiliationChanged
  | superseded
  | cessationOfOperation
  | certificateHold
  | removeFromCrl
  | privilegeWithdrawn
  | aaCompromise
  deriving DecidableEq

inductive RevocationStatus (DateTime : Type) where
  | good
  | inapplicable (reason : InapplicableReason)
  | revoked (date : DateTime) (reason : Option CrlReason)
  | stale
  | notYetValid
  | unknown
  deriving DecidableEq

inductive RevocationSource where
  | ocsp
  | crl
  deriving DecidableEq

structure RevocationEvidence (DateTime : Type) where
  status : RevocationStatus DateTime
  source : RevocationSource
  checkedAt : DateTime
  validUntil : Option DateTime
  deriving DecidableEq

variable {DateTime Name : Type}

section Evidence
variable (evidence : RevocationEvidence DateTime)

def RevocationEvidence.isRevoked : Bool :=
  match evidence.status with
  | .revoked .. => true
  | _ => false

def RevocationEvidence.isFresh [LE DateTime] [DecidableLE DateTime] (now : DateTime) : Bool :=
  evidence.validUntil.any (now ≤ ·)

end Evidence

structure CachedCertId (Name : Type) where
  issuer : Name
  serial : Bytes
  deriving DecidableEq

/-- What the cache reads of a certificate: its issuer, where the strict reader
takes it, and its serial number. -/
structure CertIdentity (Name : Type) where
  issuer : Option Name
  serial : Bytes

def CachedCertId.forCert (cert : CertIdentity Name) : Option (CachedCertId Name) :=
  cert.issuer.map (⟨·, cert.serial⟩)

/-- Entries with the identity each is about, searched from the front. -/
abbrev RevocationCache (Name DateTime : Type) :=
  List (CachedCertId Name × RevocationEvidence DateTime)

namespace RevocationCache
open CachedCertId

variable [DecidableEq Name] (cache : RevocationCache Name DateTime) (id : CachedCertId Name)

/-- Replaces the first evidence under a key, or adds it at the end. -/
def store (evidence : RevocationEvidence DateTime) :
    RevocationCache Name DateTime → RevocationCache Name DateTime
  | [] => [(id, evidence)]
  | (key, held) :: rest =>
    if key = id then (key, evidence) :: rest else (key, held) :: store evidence rest

/-- One insert: a certificate and the evidence about it. -/
abbrev Call (Name DateTime : Type) := CertIdentity Name × RevocationEvidence DateTime

def insert : Call Name DateTime → RevocationCache Name DateTime
  | (cert, evidence) => (forCert cert).elim cache (store · evidence cache)

def get [LE DateTime] [DecidableLE DateTime] (cert : CertIdentity Name) (now : DateTime) :
    Option (RevocationEvidence DateTime) :=
  ((forCert cert).bind (valueOf cache)).filter fun evidence =>
    evidence.isRevoked || evidence.isFresh now

variable (calls : List (Call Name DateTime))

def inserts : RevocationCache Name DateTime :=
  calls.foldl insert []

/-- The last evidence inserted under a key. -/
def latest : Option (RevocationEvidence DateTime) :=
  (calls.reverse.find? fun call => forCert call.1 = some id).map Prod.snd

theorem valueOf_store (other : CachedCertId Name) (evidence : RevocationEvidence DateTime) :
    valueOf (store id evidence cache) other =
      if other = id then some evidence else valueOf cache other := by
  induction cache with
  | nil => rw [store, valueOf_cons]
  | cons entry rest ih =>
    obtain ⟨key, held⟩ := entry
    by_cases hKey : key = id
    · subst hKey
      simp only [store, valueOf_cons, if_true]
      split_ifs <;> rfl
    · simp only [store, hKey, if_false, valueOf_cons, ih]
      split_ifs with hOther hId <;> first | rfl | exact absurd (hOther.symm.trans hId) hKey

theorem latest_append (later : List (Call Name DateTime)) :
    latest id (calls ++ later) = (latest id later).or (latest id calls) := by
  rw [latest, reverse_append, find?_append, Option.map_or, ← latest, ← latest]

@[simp] theorem latest_singleton (call : Call Name DateTime) :
    latest id [call] = if forCert call.1 = some id then some call.2 else none := by
  rw [latest, reverse_singleton, find?_singleton]
  split_ifs <;> simp_all

/-- The run of a cache: only what was inserted last under a key counts. -/
theorem valueOf_inserts : valueOf (inserts calls) id = latest id calls := by
  induction calls using reverseRecOn with
  | nil => rfl
  | append_singleton calls call ih =>
    rw [inserts, foldl_append, foldl_cons, foldl_nil, ← inserts, insert, latest_append, ← ih,
      latest_singleton]
    cases hCall : forCert call.1 with
    | none => simp
    | some key =>
      rw [Option.elim_some, valueOf_store]
      by_cases hSame : id = key
      · simp [hSame]
      · simp [hSame, Ne.symm hSame]

/-- A revocation stays as long as the last later insert for its certificate, if
there is one, says the same. -/
theorem revoked_evidence_kept_iff [LE DateTime] [DecidableLE DateTime] (issuer : Name)
    (serial : Bytes) (calls : List (Call Name DateTime)) :
    (∀ call later, forCert call.1 = some ⟨issuer, serial⟩ → call.2.isRevoked →
      ((∀ now, ∃ found, (inserts (calls ++ call :: later)).get ⟨some issuer, serial⟩ now =
          some found ∧ found.isRevoked) ↔
        ∀ last, latest ⟨issuer, serial⟩ later = some last → last.isRevoked)) ∧
    (∀ now found, (inserts calls).get ⟨some issuer, serial⟩ now = some found →
      latest ⟨issuer, serial⟩ calls = some found ∧
        (found.isRevoked ∨ ∃ limit ∈ found.validUntil, now ≤ limit)) ∧
    ∀ call now, forCert call.1 ≠ some ⟨issuer, serial⟩ →
      (inserts (calls ++ [call])).get ⟨some issuer, serial⟩ now =
        (inserts calls).get ⟨some issuer, serial⟩ now := by
  have hKey : forCert ⟨some issuer, serial⟩ = some ⟨issuer, serial⟩ := rfl
  simp only [get, hKey, Option.bind_some, valueOf_inserts]
  refine ⟨fun call later hCall hRevoked => ?_, fun now found hFound => ?_, fun call now hOther => ?_⟩
  · rw [← singleton_append, latest_append, latest_append, latest_singleton, if_pos hCall]
    cases hLater : latest ⟨issuer, serial⟩ later with
    | none => simp [hRevoked]
    | some last =>
      rw [Option.some_or, Option.some_or]
      refine ⟨fun hKept other hOther => ?_, fun hLast now => ?_⟩
      · obtain ⟨found, hFound, hRevoked⟩ := hKept last.checkedAt
        rwa [← Option.some.inj hOther, Option.some.inj (Option.filter_eq_some_iff.mp hFound).1]
      · exact ⟨last, by simp [hLast last rfl], hLast last rfl⟩
  · simpa [RevocationEvidence.isFresh, Option.any_eq_true] using Option.filter_eq_some_iff.mp hFound
  · rw [latest_append, latest_singleton, if_neg hOther, Option.none_or]

/-- Evidence that a certificate is good takes the place of its revocation. -/
theorem revocation_forgotten :
    let cert : CertIdentity Nat := ⟨some 1, [7]⟩
    let good : RevocationEvidence Nat := ⟨.good, .ocsp, 5, some 9⟩
    (inserts [(cert, ⟨.revoked 3 none, .crl, 4, none⟩), (cert, good)]).get cert 6 = some good := by
  decide

end RevocationCache

end RefineId.DocSign
