import Mathlib.Data.Prod.Lex
import RefineId.Data.PathSearch
import RefineId.DocSign.RevocationCache

/-! Certification paths and their revocation status
(`crates/doc-sign/src/verification/trust.rs`). Parsing, digests, signatures and
what one OCSP response or CRL says are given; times are any ordered type. -/
namespace RefineId.DocSign.Trust

open Data

variable {Time : Type}

section Certificates

structure BasicConstraints where
  present : Bool
  ca : Bool
  pathLen : Option Nat
  deriving DecidableEq

structure KeyUsage where
  digitalSignature : Bool
  nonRepudiation : Bool
  keyCertSign : Bool
  deriving DecidableEq

structure PathExtensionProfile where
  basicConstraints : BasicConstraints
  keyUsage : Option KeyUsage
  nameConstraintsPresent : Bool
  deriving DecidableEq

/-- A parsed certificate. `extensions` is what `path_extension_profile` makes
of its extensions, if it has any; extensions it refuses have no profile. -/
structure OwnedCert (Time : Type) where
  asDer : Bytes
  subject : Bytes
  issuer : Bytes
  spki : Bytes
  notBefore : Time
  notAfter : Time
  extensions : Option (Option PathExtensionProfile)
  deriving DecidableEq

inductive AnchorRole where
  | certificateIssuing
  | timeStamping
  deriving DecidableEq

variable [LinearOrder Time]

/-- A period both ends of which belong to it, or an open one. -/
structure GrantedPeriod (Time : Type) [LinearOrder Time] where
  start : Time
  stop : Option Time
  ordered : ∀ time, stop = some time → start ≤ time

def GrantedPeriod.covers (period : GrantedPeriod Time) (time : Time) : Bool :=
  period.start ≤ time && period.stop.all (time ≤ ·)

structure TrustAnchor (Time : Type) [LinearOrder Time] where
  certificate : OwnedCert Time
  role : AnchorRole
  granted : List (GrantedPeriod Time)
  nonempty : granted ≠ []

def TrustAnchor.anchors (anchor : TrustAnchor Time) (certificate : OwnedCert Time)
    (role : AnchorRole) (time : Time) : Bool :=
  anchor.role = role && anchor.granted.any (·.covers time) &&
    anchor.certificate.subject = certificate.subject && anchor.certificate.spki = certificate.spki

abbrev TrustAnchors (Time : Type) [LinearOrder Time] : Type :=
  List (TrustAnchor Time)

def isAnchor (anchors : TrustAnchors Time) (certificate : OwnedCert Time) (role : AnchorRole)
    (time : Time) : Bool :=
  anchors.any (·.anchors certificate role time)

variable (certificate : OwnedCert Time)

def validAt (time : Time) : Bool :=
  certificate.notBefore ≤ time && time ≤ certificate.notAfter

def mayIssue (intermediatesBelow : Nat) : Bool :=
  match certificate.extensions with
  | none => false
  | some none => false
  | some (some profile) =>
    profile.basicConstraints.present && profile.basicConstraints.ca &&
      !profile.nameConstraintsPresent && profile.keyUsage.all (·.keyCertSign) &&
      profile.basicConstraints.pathLen.all (intermediatesBelow ≤ ·)

def fitToSign : Bool :=
  certificate.extensions.all fun extensions =>
    extensions.any fun profile =>
      !profile.basicConstraints.ca &&
        profile.keyUsage.all fun usage => usage.digitalSignature || usage.nonRepudiation

end Certificates

section Revocations
variable [LinearOrder Time]

def isCompromise : CrlReason → Bool
  | .keyCompromise | .caCompromise | .aaCompromise => true
  | _ => false

inductive Revocation (Time : Type) where
  | good (time : Time)
  | revoked (time : Time) (reason : Option CrlReason)
  | unavailable
  deriving DecidableEq

/-- What one verified answer says. -/
inductive Answer (Time : Type) where
  | good (time : Time)
  | revoked (time : Time) (reason : Option CrlReason)

def Revocation.revokedBefore (revocation : Revocation Time) (proofOfExistence : Option Time) :
    Bool :=
  match revocation with
  | .revoked time reason => reason.any isCompromise || proofOfExistence.all (time ≤ ·)
  | .good _ | .unavailable => false

abbrev Preference (Time : Type) : Type :=
  ℕ ×ₗ Bool ×ₗ WithBot Time

/-- Good before unavailable before revoked. -/
def Revocation.preference : Revocation Time → Preference Time
  | .good time => toLex (2, toLex (true, (time : WithBot Time)))
  | .unavailable => toLex (1, toLex (true, ⊥))
  | .revoked time reason => toLex (0, toLex (!reason.any isCompromise, (time : WithBot Time)))

/-- Of two revocations, a compromise and else the earlier one. -/
def graver (known : Option (Time × Option CrlReason)) (time : Time) (reason : Option CrlReason) :
    Time × Option CrlReason :=
  match known with
  | none => (time, reason)
  | some (knownTime, knownReason) =>
    match knownReason.any isCompromise, reason.any isCompromise with
    | false, true => (time, reason)
    | true, false => (knownTime, knownReason)
    | _, _ => if time < knownTime then (time, reason) else (knownTime, knownReason)

def strongest (answers : List (Answer Time)) : Revocation Time :=
  let (good, revoked) := answers.foldl (fun (good, revoked) answer =>
    match answer with
    | .revoked time reason => (good, some (graver revoked time reason))
    | .good time => (some (good.elim time (max · time)), revoked)) (none, none)
  match revoked, good with
  | some (time, reason), _ => .revoked time reason
  | none, some time => .good time
  | none, none => .unavailable

end Revocations

section Pool

structure When (Time : Type) where
  validation : Time
  now : Time

structure Checks (Time Ocsp Crl : Type) where
  sha256 : Bytes → Bytes
  certificate : Bytes → Option (OwnedCert Time)
  ocspResponse : Bytes → Option Ocsp
  crl : Bytes → Option Crl
  verifySignedBy : OwnedCert Time → OwnedCert Time → Bool
  ocspAnswer : List (OwnedCert Time) → Ocsp → OwnedCert Time → OwnedCert Time → When Time →
    Option (Answer Time)
  crlAnswer : Crl → OwnedCert Time → OwnedCert Time → When Time → Option (Answer Time)

structure ValidationMaterial where
  certificates : List Bytes
  ocspResponses : List Bytes
  crls : List Bytes

variable {Ocsp Crl : Type} [LinearOrder Time]

/-- Evidence, each certificate held once by its digest. -/
structure MaterialPool (checks : Checks Time Ocsp Crl) where
  certificates : List (OwnedCert Time)
  ocspResponses : List Ocsp
  crls : List Crl
  seen : List Bytes
  held : ∀ certificate ∈ certificates, checks.sha256 certificate.asDer ∈ seen
  distinct : (certificates.map fun certificate => checks.sha256 certificate.asDer).Nodup

namespace MaterialPool
variable {checks : Checks Time Ocsp Crl}

def new : MaterialPool checks :=
  ⟨[], [], [], [], by simp, by simp⟩

variable (pool : MaterialPool checks)

def addCertificate (certificate : OwnedCert Time) : MaterialPool checks :=
  if h : checks.sha256 certificate.asDer ∈ pool.seen then pool
  else
    { pool with
      certificates := pool.certificates ++ [certificate]
      seen := checks.sha256 certificate.asDer :: pool.seen
      held := forall_mem_snoc
        (fun other hOther => List.mem_cons_of_mem _ (pool.held other hOther)) List.mem_cons_self
      distinct := nodup_map_snoc pool.distinct fun held hHeld hSame =>
        h (hSame ▸ pool.held held hHeld) }

/-- Record what was parsed from an item that was not held. -/
def hold (der : Bytes) : MaterialPool checks :=
  { pool with
    seen := checks.sha256 der :: pool.seen
    held := fun certificate hCertificate =>
      List.mem_cons_of_mem _ (pool.held certificate hCertificate) }

def addMaterial (material : ValidationMaterial) : MaterialPool checks :=
  let certified := material.certificates.foldl (fun pool der =>
    if checks.sha256 der ∈ pool.seen then pool
    else (checks.certificate der).elim pool pool.addCertificate) pool
  let answered := material.ocspResponses.foldl (fun pool der =>
    if checks.sha256 der ∈ pool.seen then pool
    else (checks.ocspResponse der).elim pool fun response =>
      { pool.hold der with ocspResponses := pool.ocspResponses ++ [response] }) certified
  material.crls.foldl (fun pool der =>
    if checks.sha256 der ∈ pool.seen then pool
    else (checks.crl der).elim pool fun crl =>
      { pool.hold der with crls := pool.crls ++ [crl] }) answered

def addAnchors (anchors : TrustAnchors Time) : MaterialPool checks :=
  anchors.foldl (fun pool anchor => pool.addCertificate anchor.certificate) pool

end MaterialPool

end Pool

section Search
variable {Ocsp Crl : Type} [LinearOrder Time] {checks : Checks Time Ocsp Crl}

def maxPathDepth : Nat := 8

def maxAnchoredPaths : Nat := 16

def maxPathSearchVerifications : Nat := maxAnchoredPaths * maxPathDepth

structure Step (Time : Type) [LinearOrder Time] where
  anchors : TrustAnchors Time
  role : AnchorRole
  time : Time
  intermediatesBelow : Nat

/-- A candidate whose signature is worth a verification. -/
def Step.eligible (step : Step Time) (child candidate : OwnedCert Time) : Bool :=
  candidate.asDer ≠ child.asDer && candidate.subject = child.issuer &&
    (isAnchor step.anchors candidate step.role step.time ||
      validAt candidate step.time && mayIssue candidate step.intermediatesBelow)

namespace MaterialPool

variable (pool : MaterialPool checks)

def issuersOf (child : OwnedCert Time) (step : Step Time)
    (budget : Nat) : List (OwnedCert Time) × Nat :=
  PathSearch.paid (checks.verifySignedBy child) (pool.certificates.filter (step.eligible child))
    budget

/-- The loop of the partial path, with as many turns as it has room. -/
def climb (pool : MaterialPool checks) (certificate : OwnedCert Time) (step : Step Time) :
    Nat → OwnedCert Time → List (OwnedCert Time) → Nat → List (OwnedCert Time)
  | 0, _, path, _ => path
  | room + 1, top, path, budget =>
    let (issuers, budget) := pool.issuersOf top { step with intermediatesBelow := path.length } budget
    match issuers.find? fun issuer =>
        issuer.asDer ≠ certificate.asDer && !path.any (·.asDer = issuer.asDer) with
    | none => path
    | some issuer => climb pool certificate step room issuer (path ++ [issuer]) budget

def partialPath (certificate : OwnedCert Time) (step : Step Time) : List (OwnedCert Time) :=
  pool.climb certificate step maxPathDepth certificate [] maxPathSearchVerifications

/-- What `anchored_paths` searches: at each path the issuers of its last
certificate that are not on it, up to the first anchor above the judged one. -/
def pathProblem (pool : MaterialPool checks) (anchors : TrustAnchors Time) (role : AnchorRole)
    (time : Time) : PathSearch.Problem (OwnedCert Time) where
  tests path := path.getLast?.elim [] fun top =>
    pool.certificates.filter (Step.eligible ⟨anchors, role, time, path.length - 1⟩ top)
  pass path candidate := path.getLast?.any (checks.verifySignedBy · candidate)
  goal path := 1 < path.length && path.getLast?.any (isAnchor anchors · role time)
  same issuer seen := seen.asDer = issuer.asDer
  depth := maxPathDepth
  limit := maxAnchoredPaths

def anchoredPaths (anchors : TrustAnchors Time) (role : AnchorRole)
    (time : Time) (certificate : OwnedCert Time) (budget : Nat) :
    PathSearch.State (OwnedCert Time) :=
  (pool.pathProblem anchors role time).run (maxPathDepth + 1) [certificate] ⟨[], budget, false⟩

def revocationOf (certificate issuer : OwnedCert Time) (moment : When Time) : Revocation Time :=
  strongest (pool.ocspResponses.filterMap
        (fun response => checks.ocspAnswer pool.certificates response certificate issuer moment) ++
      pool.crls.filterMap (fun crl => checks.crlAnswer crl certificate issuer moment))

def pathRevocation (path : List (OwnedCert Time)) (moment : When Time) : Revocation Time :=
  let statuses := (path.zip path.tail).map fun (certificate, issuer) =>
    pool.revocationOf certificate issuer moment
  let revoked := statuses.foldl (fun revoked status =>
    match status with
    | .revoked time reason => some (graver revoked time reason)
    | .good _ | .unavailable => revoked) none
  match revoked with
  | some (time, reason) => .revoked time reason
  | none => if statuses.any (· = .unavailable) then .unavailable else statuses.head?.getD .unavailable

end MaterialPool

/-- The last of the entries with the greatest key, as `max_by_key` picks it. -/
def maxByKey {α Key : Type} [LinearOrder Key] (key : α → Key) (entries : List α) : Option α :=
  entries.foldl (fun best entry =>
    match best with
    | none => some entry
    | some best => if key entry < key best then some best else some entry) none

inductive CertificationPath (Time : Type) where
  | anchored (certificates : List (OwnedCert Time))
  | partly (certificates : List (OwnedCert Time))
  deriving DecidableEq

def CertificationPath.isAnchored {Time : Type} : CertificationPath Time → Bool
  | anchored _ => true
  | partly _ => false

structure ChainVerdict (Time : Type) where
  path : CertificationPath Time
  revocation : Revocation Time
  searchExhausted : Bool

def fitFor (role : AnchorRole) (certificate : OwnedCert Time) : Bool :=
  match role with
  | .certificateIssuing => fitToSign certificate
  | .timeStamping => true

def judge (certificate : OwnedCert Time) (pool : MaterialPool checks) (anchors : TrustAnchors Time)
    (role : AnchorRole) (moment : When Time) : ChainVerdict Time :=
  let time := moment.validation
  if isAnchor anchors certificate role time then ⟨.anchored [], .unavailable, false⟩
  else
    let search := pool.anchoredPaths anchors role time certificate maxPathSearchVerifications
    let searchExhausted : Bool := search.budget = 0
    let best := maxByKey (fun (entry : List (OwnedCert Time) × Revocation Time) =>
      entry.2.preference) (search.found.map fun path => (path, pool.pathRevocation path moment))
    let (path, revocation) :=
      match best with
      | some (path, revocation) => (path.drop 1, revocation)
      | none =>
        let path := pool.partialPath certificate ⟨anchors, role, time, 0⟩
        (path, path.head?.elim .unavailable fun issuer =>
          pool.revocationOf certificate issuer moment)
    let anchored := validAt certificate time && fitFor role certificate && best.isSome
    ⟨if anchored then .anchored path else .partly path, revocation, searchExhausted⟩

end Search

/-- Checks that read no evidence and give every signature the same answer. -/
def Checks.bare (verifies : Bool) : Checks Nat Unit Unit :=
  ⟨id, fun _ => none, fun _ => none, fun _ => none, fun _ _ => verifies, fun _ _ _ _ _ => none,
    fun _ _ _ _ => none⟩

end RefineId.DocSign.Trust
