import RefineId.Rapp.Channel
import RefineId.Rapp.MessageRoundTrip
import RefineId.Rapp.Offer
import RefineId.Rapp.PairRecord

/-! Pairing after the handshake: hellos, confirmed grants and the storage
confirmation (`crates/rapp/src/pairing_flow.rs`). -/
namespace RefineId.Rapp

open Data List

variable {S : Type}

inductive PairingError where
  | offer (error : PairingOfferError)
  | crypto (error : CryptoError)
  | opening (error : OpenError)
  | message (error : MessageError)
  | pairRecord (error : PairRecordError)
  | candidateNotUnique
  | unsupportedProfile
  | missingPairId
  | duplicateMessage
  | unexpectedMessage
  | parameterMismatch
  | roleViolation
  | helloIncomplete
  | confirmationIncomplete
  | invalidGrantSet
  | grantMismatch
  | pairIdMismatch
  | storageUnconfirmed

structure PairKeyMaterial where
  privateKey : StaticKey
  publicKey : StaticKey

/-- Hash of the granted registry names, sorted and without repetition. The
digest is foreign. -/
def computeGrantsHash (sha256 : Bytes → GrantsHash) (profiles : List ProfileName) :
    Except CryptoError GrantsHash := do
  let names := ((sortProfiles profiles).map ProfileName.asStr).destutter (· ≠ ·)
  let encoded ← (encodeDeterministicCbor (.array (names.map .text))).mapError .wire
  .ok (sha256 encoded)

/-- A grant set is not empty, names nothing twice and stays within the offer. -/
def validateGrants (grants offered : List ProfileName) : Except PairingError Unit :=
  let names := (grants.map fun profile => asBytes profile.asStr).insertionSort (· ≤ ·)
  if grants.isEmpty || adjacentEqual names || grants.any fun grant => !offered.contains grant then
    .error .invalidGrantSet
  else .ok ()

def parseProfileNames (names : List String) : Except PairingError (List ProfileName) := do
  let profiles ← selectAll .unsupportedProfile ProfileName.parse names
  validateGrants profiles profiles
  .ok (sortProfiles profiles)

/-- A set that may be granted, in registry order. -/
structure Granted (offered grants : List ProfileName) : Prop where
  nonempty : grants ≠ []
  nodup : grants.Nodup
  sorted : grants.Pairwise profileLe
  offered : grants ⊆ offered

section Grants

theorem adjacentEqual_eq_false {names} (hSorted : names.Pairwise (· ≤ ·)) :
    adjacentEqual names = false ↔ names.Nodup := by
  induction names with
  | nil => simp [adjacentEqual]
  | cons first rest ih =>
    obtain ⟨hFirst, hRest⟩ := pairwise_cons.mp hSorted
    cases rest with
    | nil => simp [adjacentEqual]
    | cons second rest =>
      have hSecond := (pairwise_cons.mp hRest).1
      have hNotMem : first ≠ second → first ∉ second :: rest := by
        intro hNe hMem
        rcases mem_cons.mp hMem with rfl | hMem
        · exact hNe rfl
        · exact hNe (List.le_antisymm (hFirst second List.mem_cons_self) (hSecond first hMem))
      rw [adjacentEqual, Bool.or_eq_false_iff, ih hRest, nodup_cons (a := first)]
      simp only [decide_eq_false_iff_not]
      constructor
      · rintro ⟨hNe, hNodup⟩
        exact ⟨hNotMem hNe, hNodup⟩
      · rintro ⟨hMem, hNodup⟩
        exact ⟨fun hEq => hMem (hEq ▸ mem_cons_self), hNodup⟩

theorem asStr_bytes_injective :
    Function.Injective fun profile : ProfileName => asBytes profile.asStr := by
  intro left right h
  cases left <;> cases right <;> first | rfl | exact absurd h (by decide)

variable {offered grants : List ProfileName}

theorem validateGrants_eq_ok : validateGrants grants offered = .ok () ↔
      grants ≠ [] ∧ grants.Nodup ∧ grants ⊆ offered := by
  have hNames : adjacentEqual ((grants.map fun profile => asBytes profile.asStr).insertionSort
      (· ≤ ·)) = false ↔ grants.Nodup := by
    rw [adjacentEqual_eq_false (pairwise_insertionSort _ _),
      (perm_insertionSort _ _).nodup_iff, nodup_map_iff asStr_bytes_injective]
  unfold validateGrants
  rw [← hNames]
  simp only
  split
  case isTrue hBad =>
      simp only [reduceCtorEq, false_iff]
      rintro ⟨hNonempty, hDistinct, hOffered⟩
      simp [hDistinct, hNonempty] at hBad
      obtain ⟨grant, hMem, hOutside⟩ := hBad
      exact hOutside (hOffered hMem)
  case isFalse hGood =>
      simp only [Bool.or_eq_true, not_or, Bool.not_eq_true, isEmpty_eq_false_iff,
        any_eq_false, Bool.not_eq_false', contains_iff_mem] at hGood
      simp only [true_iff]
      exact ⟨hGood.1.1, hGood.1.2, fun grant hMem => by simpa using hGood.2 grant hMem⟩

theorem granted_sortProfiles (h : validateGrants grants offered = .ok ()) :
    Granted offered (sortProfiles grants) := by
  obtain ⟨hNonempty, hNodup, hOffered⟩ := validateGrants_eq_ok.mp h
  have hPerm : (sortProfiles grants).Perm grants := perm_insertionSort _ _
  have hSome : sortProfiles grants ≠ [] := by
    intro hNil
    rw [hNil] at hPerm
    exact hNonempty hPerm.nil_eq.symm
  exact
    { nonempty := hSome
      nodup := hPerm.nodup_iff.mpr hNodup
      sorted := pairwise_insertionSort _ _
      offered := fun _ hMem => hOffered (hPerm.mem_iff.mp hMem) }

/-- The offered profiles are among those the offer names. -/
theorem mem_of_parseProfileNames {names profile}
    (h : parseProfileNames names = .ok offered) (hMem : profile ∈ offered) :
    profile.asStr ∈ names := by
  simp only [parseProfileNames, bind_eq_ok, Except.ok.injEq] at h
  obtain ⟨profiles, hProfiles, -, -, rfl⟩ := h
  rw [(selectAll_eq_ok ProfileName.parse_eq_some).mp hProfiles]
  exact mem_map_of_mem ((perm_insertionSort _ _).mem_iff.mp hMem)

end Grants

namespace Pairing

def sealTyped (provider : Provider S) (channel : SecureChannel S) (message : TypedMessage) :
    Except PairingError BinaryFrame × SecureChannel S :=
  match message.toWireBody with
  | .error error => (.error (.message error), channel)
  | .ok body =>
    match channel.sealMessage provider message.messageType body with
    | (.error error, channel) => (.error (.crypto error), channel)
    | (.ok frame, channel) => (.ok frame, channel)

def openTyped (provider : Provider S) (channel : SecureChannel S) (frame : BinaryFrame)
    (nowMs : UInt64) : Except PairingError TypedMessage × SecureChannel S :=
  match channel.openFrame provider frame with
  | (.error error, channel) => (.error (.opening error), channel)
  | (.ok envelope, channel) =>
    match TypedMessage.fromEnvelope envelope nowMs with
    | .error error => (.error (.message error), channel)
    | .ok message => (.ok message, channel)

end Pairing

/-- Pairing between the authenticated transcript and the stored record. -/
structure PairingConfirmation (S : Type) where
  role : EndpointRole
  pairId : PairId
  offerHash : FixedBytes 32
  candidate : TransportCandidate
  offeredProfiles : List ProfileName
  localKeys : PairKeyMaterial
  remoteStaticPublic : StaticKey
  channel : SecureChannel S
  localHelloSent : Bool
  peerHello : Option PairingHelloMessage
  localGrants : Option (List ProfileName)
  peerGrants : Option (List ProfileName)

/-- Pairing between equal confirmation and activity. -/
structure PairingStorage (S : Type) where
  pairId : PairId
  channel : SecureChannel S
  localStoredSent : Bool
  peerStored : Bool

/-- Proof that both endpoints stored the pairing and said so. -/
structure ActivePairing where
  pairId : PairId

namespace PairingConfirmation

/-- What `into_confirmation` makes of a completed handshake. -/
def start (role : EndpointRole) (pairId : PairId) (offerHash : FixedBytes 32)
    (candidate : TransportCandidate) (offeredProfiles : List ProfileName)
    (localKeys : PairKeyMaterial) (remoteStaticPublic : StaticKey) (channel : SecureChannel S) :
    PairingConfirmation S where
  role := role
  pairId := pairId
  offerHash := offerHash
  candidate := candidate
  offeredProfiles := offeredProfiles
  localKeys := localKeys
  remoteStaticPublic := remoteStaticPublic
  channel := channel
  localHelloSent := false
  peerHello := none
  localGrants := none
  peerGrants := none

variable (pairing : PairingConfirmation S)

def parameters : NegotiatedParameters :=
  ⟨pairing.offerHash, pairing.candidate.profile, pairing.candidate.candidateId⟩

/-- The hello of this endpoint; only a requester asks for profiles. -/
def localHello (displayName : DisplayName) (platform : String) : TypedMessage :=
  .pairingHello
    { parameters := pairing.parameters
      displayName := displayName
      platform := platform
      requestedProfiles :=
        if pairing.role = .requester then some pairing.offeredProfiles else none }

variable (provider : Provider S)

def sendHello (displayName : DisplayName) (platform : String) :
    Except PairingError BinaryFrame × PairingConfirmation S :=
  if pairing.localHelloSent then (.error .duplicateMessage, pairing)
  else
    match Pairing.sealTyped provider pairing.channel (pairing.localHello displayName platform) with
    | (.error error, channel) => (.error error, { pairing with channel })
    | (.ok frame, channel) => (.ok frame, { pairing with channel, localHelloSent := true })

/-- The checks of a peer's hello after it was opened. -/
def checkHello (hello : PairingHelloMessage) : Except PairingError Unit :=
  if hello.parameters ≠ pairing.parameters then .error .parameterMismatch
  else
    match pairing.role, hello.requestedProfiles with
    | .requester, some _ => .error .roleViolation
    | .requester, none => .ok ()
    | .proxy, none => .error .roleViolation
    | .proxy, some requested =>
      if requested ≠ pairing.offeredProfiles then .error .grantMismatch else .ok ()

def receiveHello (frame : BinaryFrame)
    (nowMs : UInt64) : Except PairingError PairingHelloMessage × PairingConfirmation S :=
  if pairing.peerHello.isSome then (.error .duplicateMessage, pairing)
  else
    match Pairing.openTyped provider pairing.channel frame nowMs with
    | (.error error, channel) => (.error error, { pairing with channel })
    | (.ok (.pairingHello hello), channel) =>
      match pairing.checkHello hello with
      | .error error => (.error error, { pairing with channel })
      | .ok () => (.ok hello, { pairing with channel, peerHello := some hello })
    | (.ok _, channel) => (.error .unexpectedMessage, { pairing with channel })

/-- What `send_confirmation` checks before it seals, and the sorted set. -/
def checkGrants (grantedProfiles : List ProfileName) : Except PairingError (List ProfileName) :=
  if !pairing.localHelloSent || pairing.peerHello.isNone then .error .helloIncomplete
  else if pairing.localGrants.isSome then .error .duplicateMessage
  else
    match validateGrants grantedProfiles pairing.offeredProfiles with
    | .error error => .error error
    | .ok () =>
      match pairing.peerGrants with
      | some peer =>
        if peer ≠ sortProfiles grantedProfiles then .error .grantMismatch
        else .ok (sortProfiles grantedProfiles)
      | none => .ok (sortProfiles grantedProfiles)

def sendConfirmation (grantedProfiles : List ProfileName) :
    Except PairingError BinaryFrame × PairingConfirmation S :=
  match pairing.checkGrants grantedProfiles with
  | .error error => (.error error, pairing)
  | .ok granted =>
    match Pairing.sealTyped provider pairing.channel (.pairingConfirm ⟨granted⟩) with
    | (.error error, channel) => (.error error, { pairing with channel })
    | (.ok frame, channel) => (.ok frame, { pairing with channel, localGrants := some granted })

/-- The checks of a peer's grants after they were opened. -/
def checkPeerGrants (granted : List ProfileName) : Except PairingError Unit :=
  match validateGrants granted pairing.offeredProfiles with
  | .error error => .error error
  | .ok () =>
    match pairing.localGrants with
    | some ours => if ours ≠ granted then .error .grantMismatch else .ok ()
    | none => .ok ()

def receiveConfirmation (frame : BinaryFrame) (nowMs : UInt64) :
    Except PairingError (List ProfileName) × PairingConfirmation S :=
  if pairing.peerGrants.isSome then (.error .duplicateMessage, pairing)
  else
    match Pairing.openTyped provider pairing.channel frame nowMs with
    | (.error error, channel) => (.error error, { pairing with channel })
    | (.ok (.pairingConfirm confirm), channel) =>
      match pairing.checkPeerGrants confirm.grantedProfiles with
      | .error error => (.error error, { pairing with channel })
      | .ok () =>
        (.ok confirm.grantedProfiles,
          { pairing with channel, peerGrants := some confirm.grantedProfiles })
    | (.ok _, channel) => (.error .unexpectedMessage, { pairing with channel })

/-- The record of a pairing both sides confirmed, not yet confirmed stored. -/
def intoStorage (sha256 : Bytes → GrantsHash)
    (createdAtMs : UInt64) : Except PairingError (PairRecord × PairingStorage S) :=
  match pairing.localHelloSent, pairing.peerHello with
  | true, some hello =>
    match pairing.localGrants, pairing.peerGrants with
    | some localGrants, some peerGrants =>
      if localGrants ≠ peerGrants then .error .grantMismatch
      else do
        let grantsHash ← (computeGrantsHash sha256 localGrants).mapError .crypto
        let record ← (PairRecord.new pairing.pairId pairing.role pairing.localKeys.privateKey
          pairing.localKeys.publicKey pairing.remoteStaticPublic grantsHash localGrants
          hello.displayName createdAtMs).mapError .pairRecord
        .ok (record.awaitingStorageConfirmation, ⟨pairing.pairId, pairing.channel, false, false⟩)
    | _, _ => .error .confirmationIncomplete
  | _, _ => .error .helloIncomplete

end PairingConfirmation

namespace PairingStorage

variable (storage : PairingStorage S)

def sendStored (provider : Provider S) : Except PairingError BinaryFrame × PairingStorage S :=
  if storage.localStoredSent then (.error .duplicateMessage, storage)
  else
    match Pairing.sealTyped provider storage.channel (.pairingStored ⟨storage.pairId⟩) with
    | (.error error, channel) => (.error error, { storage with channel })
    | (.ok frame, channel) => (.ok frame, { storage with channel, localStoredSent := true })

def receiveStored (provider : Provider S) (frame : BinaryFrame)
    (nowMs : UInt64) : Except PairingError Unit × PairingStorage S :=
  if storage.peerStored then (.error .duplicateMessage, storage)
  else
    match Pairing.openTyped provider storage.channel frame nowMs with
    | (.error error, channel) => (.error error, { storage with channel })
    | (.ok (.pairingStored stored), channel) =>
      if stored.pairId ≠ storage.pairId then
        (.error .pairIdMismatch, { storage with channel })
      else (.ok (), { storage with channel, peerStored := true })
    | (.ok _, channel) => (.error .unexpectedMessage, { storage with channel })

def isConfirmed : Bool :=
  storage.localStoredSent && storage.peerStored

def intoActive : Except PairingError ActivePairing :=
  if !storage.isConfirmed then .error .storageUnconfirmed else .ok ⟨storage.pairId⟩

end PairingStorage

def ActivePairing.confirm (pairing : ActivePairing) (record : PairRecord) :
    Except PairingError PairRecord :=
  if record.pairId ≠ pairing.pairId then .error .pairIdMismatch else .ok record.confirmStorage

end RefineId.Rapp
