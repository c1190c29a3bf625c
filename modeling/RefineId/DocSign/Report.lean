import RefineId.DocSign.Trust

/-! The report on one signature from what a format reader established about it
(`crates/doc-sign/src/verification.rs`). What a token is found to be is given. A
timestamp that proves no time takes no part in the proof of existence, and none
in the evidence the signer is judged from. -/
namespace RefineId.DocSign.Verification

open Data DocSign.Trust List

structure VerifiedTimestampToken (Time : Type) where
  signerCertificate : OwnedCert Time
  embeddedCertificates : List (OwnedCert Time)
  embeddedRevocation : ValidationMaterial
  generatedAt : Time

structure TokenReader (Time Algorithm Error : Type) where
  digest : Algorithm → Bytes → Bytes
  verifyToken : Bytes → (Algorithm → Bytes) → Except Error (VerifiedTimestampToken Time)
  claimedGenerationTime : Bytes → Option Time

/-- What a token's message imprint must digest. -/
inductive Imprint (Algorithm : Type) where
  | octets (octets : Bytes)
  | archive (digest : Algorithm → Option Bytes)

inductive Timestamp (Time Algorithm Error : Type) where
  | token (token : Bytes) (imprint : Imprint Algorithm)
  | uncomputable (claimedTime : Option Time)
  | refused (error : Error)

inductive ArchiveForm where
  | cadesV3
  | cadesV2
  | xades

structure ArchiveFact (Time Algorithm Error : Type) where
  form : ArchiveForm
  timestamp : Timestamp Time Algorithm Error
  covered : ValidationMaterial
  authorityMaterial : ValidationMaterial

structure TimestampAuthority (Time : Type) where
  signer : OwnedCert Time
  chain : CertificationPath Time

inductive TimestampReport (Time Error : Type) where
  | anchored (time : Time) (authority : TimestampAuthority Time)
  | claimed (time : Time) (authority : TimestampAuthority Time)
  | invalid (error : Error) (claimedTime : Option Time)
  | unsupported (claimedTime : Option Time)

def TimestampReport.provenTime {Time Error : Type} : TimestampReport Time Error → Option Time
  | anchored time _ => some time
  | claimed _ _ | invalid _ _ | unsupported _ => none

structure ArchiveTimestampReport (Time Error : Type) where
  form : ArchiveForm
  timestamp : TimestampReport Time Error

structure DocumentTimestampReport (Time Error : Type) where
  timestamp : TimestampReport Time Error
  covers : Nat

def Imprint.digestWith {Time Algorithm Error : Type} (reader : TokenReader Time Algorithm Error) :
    Imprint Algorithm → Algorithm → Bytes
  | .octets given, algorithm => reader.digest algorithm given
  | .archive given, algorithm => (given algorithm).getD []

section Reports

inductive Revision (Change : Type) where
  | wholeDocument
  | laterRevisionsHarmless
  | changedAfterSigning (change : Change)

def Revision.changed {Change : Type} : Revision Change → Bool
  | changedAfterSigning _ => true
  | wholeDocument | laterRevisionsHarmless => false

inductive Indeterminate where
  | noCertificateChain
  | chainSearchExhausted
  | revocationUnknown
  deriving DecidableEq

inductive Verdict where
  | valid
  | indeterminate (reason : Indeterminate)
  | notValid
  deriving DecidableEq

structure SignatureReport (Time Error Change : Type) where
  signerCertificate : OwnedCert Time
  chain : CertificationPath Time
  chainSearchExhausted : Bool
  documentIntact : Bool
  signatureValid : Bool
  proofOfExistence : Option Time
  timestamps : List (TimestampReport Time Error)
  archiveTimestamps : List (ArchiveTimestampReport Time Error)
  validationTime : Time
  revocation : Revocation Time
  revision : Revision Change
  claimedSigningTime : Option Time
  coveringDocumentTimestamps : List (DocumentTimestampReport Time Error)

variable {Time Ocsp Crl Algorithm Error Change : Type} [LinearOrder Time]
  {checks : Checks Time Ocsp Crl}

def SignatureReport.verdict (report : SignatureReport Time Error Change) : Verdict :=
  if !report.documentIntact || !report.signatureValid ||
      report.revocation.revokedBefore report.proofOfExistence then .notValid
  else if !report.chain.isAnchored then
    .indeterminate
      (if report.chainSearchExhausted then .chainSearchExhausted else .noCertificateChain)
  else if report.revocation = .unavailable then .indeterminate .revocationUnknown
  else .valid

/-- What the readers established; `pool` is the evidence for this signature. -/
structure Facts (Algorithm Error Change : Type) (checks : Checks Time Ocsp Crl) where
  signer : OwnedCert Time
  documentIntact : Bool
  signatureValid : Bool
  timestamps : List (Timestamp Time Algorithm Error)
  archiveTimestamps : List (ArchiveFact Time Algorithm Error)
  covering : List (DocumentTimestampReport Time Error)
  revision : Revision Change
  claimedSigningTime : Option Time
  pool : MaterialPool checks

structure Context (Time Algorithm Error : Type) [LinearOrder Time] where
  anchors : TrustAnchors Time
  now : Time
  reader : TokenReader Time Algorithm Error

namespace Context
variable (context : Context Time Algorithm Error)

def anchorPool : MaterialPool checks :=
  MaterialPool.new.addAnchors context.anchors

def judgeToken (token : Bytes) (imprintOf : Algorithm → Bytes) (pool : MaterialPool checks) :
    TimestampReport Time Error :=
  match context.reader.verifyToken token imprintOf with
  | .error error => .invalid error (context.reader.claimedGenerationTime token)
  | .ok verified =>
    let pool := (verified.embeddedCertificates.foldl MaterialPool.addCertificate pool).addMaterial
      verified.embeddedRevocation
    let time := verified.generatedAt
    let chain := judge verified.signerCertificate pool context.anchors .timeStamping
      ⟨time, context.now⟩
    let authority := ⟨verified.signerCertificate, chain.path⟩
    if chain.path.isAnchored && !chain.revocation.revokedBefore (some time) then
      .anchored time authority
    else .claimed time authority

def judgeOne (pool : MaterialPool checks) :
    Timestamp Time Algorithm Error → TimestampReport Time Error
  | .token token imprint => context.judgeToken token (imprint.digestWith context.reader) pool
  | .uncomputable claimedTime => .unsupported claimedTime
  | .refused error => .invalid error none

variable (checks) in
def judgeArchive (archive : ArchiveFact Time Algorithm Error) : TimestampReport Time Error :=
  context.judgeOne (((context.anchorPool : MaterialPool checks).addMaterial
    archive.covered).addMaterial archive.authorityMaterial) archive.timestamp

/-- One turn of the loop over the archive timestamps: the pool grows by what a
proven one covers. -/
def archiveTurn (state : MaterialPool checks × List (ArchiveTimestampReport Time Error))
    (archive : ArchiveFact Time Algorithm Error) :
    MaterialPool checks × List (ArchiveTimestampReport Time Error) :=
  let timestamp := context.judgeArchive checks archive
  (if timestamp.provenTime.isSome then state.1.addMaterial archive.covered else state.1,
    state.2 ++ [⟨archive.form, timestamp⟩])

end Context

/-- The earliest time, and the pool that goes with it. -/
def settle (primary archived : Option Time) (archivePool pool : MaterialPool checks) :
    Option Time × MaterialPool checks :=
  match primary, archived with
  | some primary, some archived =>
    if archived < primary then (some archived, archivePool) else (some primary, pool)
  | none, some archived => (some archived, archivePool)
  | primary, none => (primary, pool)

def Context.report (context : Context Time Algorithm Error)
    (facts : Facts Algorithm Error Change checks) : SignatureReport Time Error Change :=
  let timestamps := facts.timestamps.map (context.judgeOne facts.pool)
  let (archivePool, archiveTimestamps) :=
    facts.archiveTimestamps.foldl context.archiveTurn (context.anchorPool, [])
  let primary := (timestamps.filterMap TimestampReport.provenTime ++
    facts.covering.filterMap (·.timestamp.provenTime)).min?
  let archived := (archiveTimestamps.filterMap (·.timestamp.provenTime)).min?
  let (proofOfExistence, pool) := settle primary archived archivePool facts.pool
  let validationTime := proofOfExistence.getD context.now
  let chain := judge facts.signer pool context.anchors .certificateIssuing
    ⟨validationTime, context.now⟩
  { signerCertificate := facts.signer
    chain := chain.path
    chainSearchExhausted := chain.searchExhausted
    documentIntact := facts.documentIntact && !facts.revision.changed
    signatureValid := facts.signatureValid
    proofOfExistence
    timestamps
    archiveTimestamps
    validationTime
    revocation := chain.revocation
    revision := facts.revision
    claimedSigningTime := facts.claimedSigningTime
    coveringDocumentTimestamps := facts.covering }

end Reports

section Interspersed
variable {α β State : Type} {idle : α → Prop} {entries more : List α}

/-- The second list is the first with idle entries put in anywhere. -/
inductive Interspersed (idle : α → Prop) : List α → List α → Prop where
  | nil : Interspersed idle [] []
  | keep (entry : α) {entries more : List α} (rest : Interspersed idle entries more) :
      Interspersed idle (entry :: entries) (entry :: more)
  | put {entry : α} {entries more : List α} (hIdle : idle entry)
      (rest : Interspersed idle entries more) : Interspersed idle entries (entry :: more)

theorem Interspersed.filterMap_eq (h : Interspersed idle entries more) {read : α → Option β}
    (hIdle : ∀ entry, idle entry → read entry = none) :
    more.filterMap read = entries.filterMap read := by
  induction h with
  | nil => rfl
  | keep entry _ ih => rw [filterMap_cons, filterMap_cons, ih]
  | put hEntry _ ih => rw [filterMap_cons_none (hIdle _ hEntry), ih]

theorem Interspersed.foldl_eq (h : Interspersed idle entries more) {turn}
    (hIdle : ∀ state entry, idle entry → turn state entry = state) (state : State) :
    more.foldl turn state = entries.foldl turn state := by
  induction h generalizing state with
  | nil => rfl
  | keep entry _ ih => exact ih (turn state entry)
  | put hEntry _ ih => rw [foldl_cons, hIdle state _ hEntry, ih]

end Interspersed

open Context

section Settling
variable {Time Ocsp Crl Algorithm Error Change : Type} [LinearOrder Time]
  {checks : Checks Time Ocsp Crl} (context : Context Time Algorithm Error)

variable (archives : List (ArchiveFact Time Algorithm Error))

def Context.archivePool : MaterialPool checks :=
  archives.foldl (fun pool archive =>
    if (context.judgeArchive checks archive).provenTime.isSome then pool.addMaterial archive.covered
    else pool) context.anchorPool

theorem archiveLoop_eq :
    archives.foldl context.archiveTurn ((context.anchorPool : MaterialPool checks), []) =
      (context.archivePool archives, archives.map fun archive =>
        ⟨archive.form, context.judgeArchive checks archive⟩) := by
  unfold archivePool
  induction archives using reverseRecOn with
  | nil => rfl
  | append_singleton archives last ih =>
    rw [foldl_append, foldl_append, ih, map_append]
    rfl

variable (facts : Facts Algorithm Error Change checks)

/-- The times that the signature's own timestamps, judged from its evidence, and
the covering ones prove. -/
def Context.primaryTimes : List Time :=
  facts.timestamps.filterMap (fun timestamp => (context.judgeOne facts.pool timestamp).provenTime) ++
    facts.covering.filterMap (·.timestamp.provenTime)

/-- The times that the archive timestamps prove, each judged from what it covers. -/
def Context.archivedTimes : List Time :=
  facts.archiveTimestamps.filterMap fun archive => (context.judgeArchive checks archive).provenTime

/-- The proof of existence and the pool the signer is judged from. -/
def Context.settled : Option Time × MaterialPool checks :=
  settle (context.primaryTimes facts).min? (context.archivedTimes facts).min?
    (context.archivePool facts.archiveTimestamps) facts.pool

/-- What a report says of the signer is said at the time and from the pool
settled on. -/
theorem report_eq (facts : Facts Algorithm Error Change checks) : context.report facts =
      let validationTime := (context.settled facts).1.getD context.now
      let chain := judge facts.signer (context.settled facts).2 context.anchors .certificateIssuing
        ⟨validationTime, context.now⟩
      ⟨facts.signer, chain.path, chain.searchExhausted,
        facts.documentIntact && !facts.revision.changed, facts.signatureValid,
        (context.settled facts).1, facts.timestamps.map (context.judgeOne facts.pool),
        facts.archiveTimestamps.map fun archive =>
          ⟨archive.form, context.judgeArchive checks archive⟩,
        validationTime, chain.revocation, facts.revision, facts.claimedSigningTime,
        facts.covering⟩ := by
  simp only [report, archiveLoop_eq, filterMap_map, settled,
    primaryTimes, archivedTimes, Function.comp_def]

theorem settle_time (primary archived : List Time) (archivePool pool : MaterialPool checks) :
    (settle primary.min? archived.min? archivePool pool).1 = (primary ++ archived).min? := by
  symm
  cases hPrimary : primary.min? with
  | none =>
    rw [min?_eq_none_iff.mp hPrimary, nil_append]
    cases archived.min? <;> rfl
  | some first =>
    obtain ⟨hFirst, hLeast⟩ := min?_eq_some_iff.mp hPrimary
    cases hArchived : archived.min? with
    | none =>
      rw [min?_eq_none_iff.mp hArchived, append_nil, hPrimary]
      rfl
    | some last =>
      obtain ⟨hLast, hMost⟩ := min?_eq_some_iff.mp hArchived
      rw [settle]
      split
      · rename_i hLess
        exact min?_eq_some_iff.mpr ⟨mem_append_right _ hLast, forall_mem_append.mpr
          ⟨fun time hTime => hLess.le.trans (hLeast time hTime), hMost⟩⟩
      · rename_i hLess
        exact min?_eq_some_iff.mpr ⟨mem_append_left _ hFirst, forall_mem_append.mpr
          ⟨hLeast, fun time hTime => (not_lt.mp hLess).trans (hMost time hTime)⟩⟩

/-- An archive time before every other decides, and the signature's own pool
takes no part. -/
theorem settle_archived {primary archived : List Time} {time} (hTime : time ∈ archived)
    (hBefore : ∀ other ∈ primary, time < other) (archivePool pool other : MaterialPool checks) :
    settle primary.min? archived.min? archivePool pool =
      settle primary.min? archived.min? archivePool other := by
  cases hArchived : archived.min? with
  | none =>
    rw [min?_eq_none_iff.mp hArchived] at hTime
    cases hTime
  | some last =>
    cases hPrimary : primary.min? with
    | none => rfl
    | some first =>
      have hLess : last < first :=
        ((min?_eq_some_iff.mp hArchived).2 time hTime).trans_lt
          (hBefore first (min?_eq_some_iff.mp hPrimary).1)
      simp only [settle, if_pos hLess]

end Settling

section Decisions
variable {Time Ocsp Crl Algorithm Error Change : Type} [LinearOrder Time]
  {checks : Checks Time Ocsp Crl}

/-- Two reports that say the same of the signer. -/
structure SameOutcome (report other : SignatureReport Time Error Change) : Prop where
  proofOfExistence : report.proofOfExistence = other.proofOfExistence
  validationTime : report.validationTime = other.validationTime
  chain : report.chain = other.chain
  revocation : report.revocation = other.revocation
  verdict : report.verdict = other.verdict

/-- Facts with other timestamps and another pool that settle on the same. -/
theorem sameOutcome_of_settled {context : Context Time Algorithm Error}
    {facts : Facts Algorithm Error Change checks}
    {timestamps archiveTimestamps} {pool : MaterialPool checks}
    (h : context.settled { facts with timestamps, archiveTimestamps, pool } =
      context.settled facts) :
    SameOutcome (context.report { facts with timestamps, archiveTimestamps, pool })
      (context.report facts) := by
  rw [report_eq, report_eq, h]
  exact ⟨rfl, rfl, rfl, rfl, by simp only [SignatureReport.verdict]⟩

/-- For every context and facts: timestamps that prove no time, put in anywhere
among the signature's and the archive ones, change nothing that is decided; the
proof of existence is the earliest proven time; and where an archive time is
before every other, the signature's own evidence decides nothing either, as long
as its timestamps are judged alike. -/
theorem unproven_timestamps_decide_nothing (context : Context Time Algorithm Error)
    (facts : Facts Algorithm Error Change checks) :
    (∀ (timestamps : List (Timestamp Time Algorithm Error))
        (archiveTimestamps : List (ArchiveFact Time Algorithm Error)),
      Interspersed (fun timestamp => (context.judgeOne facts.pool timestamp).provenTime = none)
        facts.timestamps timestamps →
      Interspersed (fun archive => (context.judgeArchive checks archive).provenTime = none)
        facts.archiveTimestamps archiveTimestamps →
      SameOutcome (context.report { facts with timestamps, archiveTimestamps })
        (context.report facts)) ∧
    (context.report facts).proofOfExistence =
      (context.primaryTimes facts ++ context.archivedTimes facts).min? ∧
    ∀ pool : MaterialPool checks,
      facts.timestamps.map (context.judgeOne pool) =
        facts.timestamps.map (context.judgeOne facts.pool) →
      (∃ archived ∈ context.archivedTimes facts, ∀ time ∈ context.primaryTimes facts,
        archived < time) →
      SameOutcome (context.report { facts with pool }) (context.report facts) := by
  refine ⟨fun timestamps archiveTimestamps hSigned hArchive => sameOutcome_of_settled ?_, ?_, ?_⟩
  · unfold settled primaryTimes archivedTimes archivePool
    rw [hSigned.filterMap_eq fun _ h => h, hArchive.filterMap_eq fun _ h => h, hArchive.foldl_eq]
    intro pool archive hIdle
    rw [hIdle]
    rfl
  · rw [report_eq]
    exact settle_time _ _ _ _
  rintro pool hAlike ⟨archived, hMem, hBefore⟩
  refine sameOutcome_of_settled ?_
  have hTimes : context.primaryTimes { facts with pool } = context.primaryTimes facts := by
    have hProven := congrArg (filterMap TimestampReport.provenTime) hAlike
    rw [filterMap_map, filterMap_map] at hProven
    exact congrArg (· ++ _) hProven
  rw [settled, hTimes]
  exact settle_archived hMem hBefore _ _ _

def sampleRoot : OwnedCert Nat := ⟨[1], [1], [1], [1], 0, 99, none⟩

/-- A token's length is its time, and the token of one zero octet does not verify. -/
def sampleContext : Context Nat Unit Unit where
  anchors := [⟨sampleRoot, .timeStamping, [⟨0, none, by simp⟩], by simp⟩]
  now := 50
  reader :=
    { digest := fun _ octets => octets
      verifyToken := fun token _ =>
        if token = [0] then .error () else .ok ⟨sampleRoot, [], ⟨[], [], []⟩, token.length⟩
      claimedGenerationTime := fun _ => none }

def sampleFacts : Facts Unit Unit Unit (.bare false) where
  signer := sampleRoot
  documentIntact := true
  signatureValid := true
  timestamps := [.token (replicate 9 1) (.octets [])]
  archiveTimestamps := [⟨.cadesV3, .token (replicate 4 1) (.octets []), ⟨[], [], []⟩, ⟨[], [], []⟩⟩]
  covering := []
  revision := .wholeDocument
  claimedSigningTime := none
  pool := .new

/-- A signature timestamp of time 9 and an archive one of time 4: neither a refused
timestamp before the first nor other evidence changes what is decided at 4. -/
theorem refused_timestamp_decides_nothing :
    (sampleContext.report sampleFacts).proofOfExistence = some 4 ∧
      SameOutcome (sampleContext.report { sampleFacts with
          timestamps := .token [0] (.octets []) :: sampleFacts.timestamps })
        (sampleContext.report sampleFacts) ∧
      SameOutcome (sampleContext.report { sampleFacts with
          pool := sampleFacts.pool.addCertificate sampleRoot })
        (sampleContext.report sampleFacts) := by
  obtain ⟨hIdle, hEarliest, hPool⟩ := unproven_timestamps_decide_nothing sampleContext sampleFacts
  have hPrimary : sampleContext.primaryTimes sampleFacts = [9] := by decide +kernel
  have hArchived : sampleContext.archivedTimes sampleFacts = [4] := by decide +kernel
  have hAlike (pool : MaterialPool (.bare false)) :
      sampleContext.judgeOne pool (.token (replicate 9 1) (.octets [])) =
        .anchored 9 ⟨sampleRoot, .anchored []⟩ := rfl
  refine ⟨?_, ?_, ?_⟩
  · rw [hEarliest, hPrimary, hArchived]
    rfl
  · exact hIdle _ _ (.put (by decide +kernel) (.keep _ .nil)) (.keep _ .nil)
  · refine hPool _ ?_ ⟨4, by simp [hArchived], by simp [hPrimary]⟩
    simp only [sampleFacts, map_cons, map_nil, hAlike]

end Decisions

end RefineId.DocSign.Verification
