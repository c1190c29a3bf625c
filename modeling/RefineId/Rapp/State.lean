import RefineId.Rapp.Types

/-! The pairing and session machines of an endpoint and the runtime state it
keeps of them (`crates/rapp/src/state.rs`). -/
namespace RefineId.Rapp

/-- The computer asking for operations, or the phone holding the card. -/
inductive EndpointRole where
  | requester
  | proxy
  deriving DecidableEq

/-- Facts the transition guards name. -/
structure Guards where
  userInitiated : Bool
  localUserAction : Bool
  transcriptMatches : Bool
  grantedSetsEqual : Bool
  initiationPermitted : Bool
  pairingRouted : Bool
  readyParametersMatch : Bool
  untriedPairingCandidate : Bool

def Guards.default : Guards :=
  ⟨false, false, false, false, false, false, false, false⟩

inductive PairingState where
  | unpaired
  | offering
  | exchanging
  | handshaking
  | confirming
  | storageConfirming
  | pairedDisconnected
  | pairedConnected
  | revoking
  | revoked
  deriving DecidableEq

inductive SessionState where
  | absent
  | connecting
  | authenticating
  | healthy
  | closing
  | closed
  deriving DecidableEq

inductive PairingEvent where
  | startPairing
  | offerExpiredOrCancelled
  | attemptStarted
  | codeEntered
  | attemptFailed
  | attemptRefused
  | candidateBusy
  | lastCandidateFailed
  | noCustodianTried
  | searchInterrupted
  | keyConfirmed
  | handshakeAuthenticated
  | handshakeFailed
  | helloVerified
  | bothConfirmed
  | deniedAbortedOrTimedOut
  | pairRecordStoreFailed
  | peerStorageConfirmed
  | sessionHealthy
  | sessionClosed
  | forgetPairing
  | expiryCheck
  | idleExpired
  | revocationNoticeSent
  | noticeWindowExpired
  | revocationAttemptEnded
  | peerRevocationNotice
  | peerWithdrawalNotice
  deriving DecidableEq

inductive SessionEvent where
  | connect
  | preambleReceived
  | transportConnected
  | transportFailed
  | handshakeComplete
  | handshakeCompleteWhileRevoking
  | readyVerified
  | candidateFailure
  | authenticatedProtocolViolation
  | sessionHelloReceived
  | peerSilent
  | silenceLimitReached
  | userDisconnect
  | localCloseRequested
  | serviceWithdrawn
  | cardUnavailable
  | peerCloseReceived
  | sessionIntegrityFailed
  | closeRequestedByPairing
  | closeCompleteOrDeadline
  deriving DecidableEq

/-- Effects a transition asks the endpoint to carry out, in order. -/
inductive Action where
  | generateOffer
  | generatePairingCode
  | advertisePairingMode
  | displayPairingCode
  | hidePairingCode
  | destroyOffer
  | readOffer
  | beginCpaceInitiator
  | tryNextCandidate
  | admitAttempt
  | endFailedAttempt
  | answerBusy
  | deferCandidate
  | showWrongCode
  | showNoneInPairingMode
  | consumeOffer
  | derivePairingSecret
  | beginPairingHandshake
  | deriveChannelIdentifiers
  | destroyPairingSecret
  | sendPairingHello
  | sendPairingConfirm
  | sendPairingAbortBestEffort
  | destroyCandidateKeys
  | closeCandidate
  | storePairRecordAtomically
  | sendPairingStored
  | markRecordConfirmed
  | closePairingChannel
  | revokeUnconfirmedPairRecord
  | markRecordRevoked
  | sendClosePairingRevoked
  | closeSession
  | destroyPairKeys
  | recordLastSession
  | withdrawIdentity
  | showConnected
  | showPairedDisconnected
  | showForgotten
  | showPeerForgot
  | showPeerWithdrawn
  | clearResidualPairRecord
  | sendSessionHello
  | recordPeerDisplayName
  | showPairingNotStored
  | openTransport
  | sendSessionPreamble
  | beginKkInitiator
  | beginKkResponder
  | deriveSessionIdentifiers
  | sendSessionReady
  | sendCardStatus
  | startLiveness
  | sendLivenessPing
  | recordPeerCloseReason
  | echoPeerClose
  | sendCloseUserDisconnect
  | sendCloseNormal
  | sendCloseProtocolViolation
  | sendCloseServiceWithdrawn
  | sendCloseCardUnavailable
  | noteCloseNoticeImpossible
  | proceedWithoutCloseNotice
  | destroySessionMaterial
  | destroyCredentialBuffers
  | showDisconnecting
  | showConnectionStopped
  deriving DecidableEq

structure Transition (σ : Type) where
  state : σ
  actions : List Action
  deriving DecidableEq

inductive TransitionError where
  | wrongRole
  | guardFailed
  | unexpectedInput
  deriving DecidableEq

def require (condition : Bool) : Except TransitionError Unit :=
  if condition then .ok () else .error .guardFailed

def requireRole (role expected : EndpointRole) : Except TransitionError Unit :=
  if role = expected then .ok () else .error .wrongRole

def PairingState.transition (state : PairingState) (role : EndpointRole) (event : PairingEvent)
    (guards : Guards) : Except TransitionError (Transition PairingState) :=
  match state, event with
  | .unpaired, .startPairing => do
      requireRole role .proxy
      require guards.userInitiated
      .ok ⟨.offering,
        [.generateOffer, .generatePairingCode, .advertisePairingMode, .displayPairingCode]⟩
  | .offering, .offerExpiredOrCancelled => do
      requireRole role .proxy
      .ok ⟨.unpaired, [.destroyOffer, .hidePairingCode]⟩
  | .offering, .attemptStarted => do
      requireRole role .proxy
      .ok ⟨.exchanging, [.admitAttempt]⟩
  | .unpaired, .codeEntered => do
      requireRole role .requester
      require guards.userInitiated
      .ok ⟨.exchanging, [.readOffer, .beginCpaceInitiator]⟩
  | .exchanging, .attemptFailed =>
    match role with
    | .proxy => .ok ⟨.offering, [.endFailedAttempt]⟩
    | .requester => do
        require guards.untriedPairingCandidate
        .ok ⟨.exchanging, [.closeCandidate, .tryNextCandidate, .readOffer, .beginCpaceInitiator]⟩
  | .offering, .attemptRefused | .exchanging, .attemptRefused => do
      requireRole role .proxy
      .ok ⟨state, [.answerBusy]⟩
  | .exchanging, .candidateBusy => do
      requireRole role .requester
      require guards.untriedPairingCandidate
      .ok ⟨.exchanging,
        [.closeCandidate, .deferCandidate, .tryNextCandidate, .readOffer, .beginCpaceInitiator]⟩
  | .exchanging, .lastCandidateFailed => do
      requireRole role .requester
      .ok ⟨.unpaired, [.closeCandidate, .showWrongCode]⟩
  | .exchanging, .noCustodianTried => do
      requireRole role .requester
      .ok ⟨.unpaired, [.closeCandidate, .showNoneInPairingMode]⟩
  | .exchanging, .searchInterrupted => do
      requireRole role .requester
      .ok ⟨.unpaired, [.closeCandidate]⟩
  | .exchanging, .offerExpiredOrCancelled => do
      requireRole role .proxy
      .ok ⟨.unpaired, [.destroyOffer, .hidePairingCode, .closeCandidate]⟩
  | .exchanging, .keyConfirmed =>
    match role with
    | .proxy =>
      .ok ⟨.handshaking,
        [.consumeOffer, .hidePairingCode, .derivePairingSecret, .beginPairingHandshake]⟩
    | .requester => .ok ⟨.handshaking, [.derivePairingSecret, .beginPairingHandshake]⟩
  | .handshaking, .handshakeAuthenticated =>
    match role with
    | .requester => do
        require guards.transcriptMatches
        .ok ⟨.confirming, [.deriveChannelIdentifiers, .destroyPairingSecret, .sendPairingHello]⟩
    | .proxy => do
        require guards.transcriptMatches
        .ok ⟨.confirming, [.deriveChannelIdentifiers, .destroyPairingSecret]⟩
  | .handshaking, .handshakeFailed =>
    .ok ⟨.unpaired, [.destroyPairingSecret, .destroyCandidateKeys, .closeCandidate]⟩
  | .confirming, .helloVerified => do
      requireRole role .proxy
      .ok ⟨.confirming, [.sendPairingConfirm]⟩
  | .confirming, .bothConfirmed => do
      require guards.grantedSetsEqual
      .ok ⟨.storageConfirming, [.storePairRecordAtomically, .sendPairingStored]⟩
  | .confirming, .deniedAbortedOrTimedOut =>
    .ok ⟨.unpaired, [.sendPairingAbortBestEffort, .destroyCandidateKeys, .closeCandidate]⟩
  | .confirming, .pairRecordStoreFailed =>
    .ok ⟨.unpaired, [.sendPairingAbortBestEffort, .destroyCandidateKeys, .closeCandidate,
       .showPairingNotStored]⟩
  | .storageConfirming, .peerStorageConfirmed =>
    .ok ⟨.pairedDisconnected, [.markRecordConfirmed, .closePairingChannel]⟩
  | .storageConfirming, .deniedAbortedOrTimedOut =>
    .ok ⟨.unpaired, [.revokeUnconfirmedPairRecord, .destroyPairKeys, .closeCandidate]⟩
  | .pairedDisconnected, .sessionHealthy =>
    .ok ⟨.pairedConnected, [.recordLastSession, .showConnected]⟩
  | .pairedConnected, .sessionClosed =>
    .ok ⟨.pairedDisconnected, [.recordLastSession, .showPairedDisconnected]⟩
  | .pairedConnected, .peerWithdrawalNotice => do
      requireRole role .proxy
      .ok ⟨.pairedDisconnected, [.recordLastSession, .showPeerWithdrawn]⟩
  | .pairedConnected, .forgetPairing => do
      require guards.localUserAction
      .ok ⟨.revoked, [.markRecordRevoked, .sendClosePairingRevoked, .closeSession, .destroyPairKeys,
         .withdrawIdentity, .showForgotten]⟩
  | .pairedDisconnected, .forgetPairing => do
      require guards.localUserAction
      .ok ⟨.revoking, [.markRecordRevoked, .withdrawIdentity, .showForgotten]⟩
  | .pairedConnected, .expiryCheck => .ok ⟨.pairedConnected, [.recordLastSession]⟩
  | .pairedDisconnected, .expiryCheck => .ok ⟨.pairedDisconnected, []⟩
  | .pairedDisconnected, .idleExpired =>
    match role with
    | .proxy => .ok ⟨.revoking, [.markRecordRevoked, .withdrawIdentity]⟩
    | .requester => .ok ⟨.revoked, [.markRecordRevoked, .destroyPairKeys, .withdrawIdentity]⟩
  | .revoking, .revocationNoticeSent => .ok ⟨.revoked, [.destroyPairKeys]⟩
  | .revoking, .noticeWindowExpired => do
      requireRole role .proxy
      .ok ⟨.revoked, [.destroyPairKeys]⟩
  | .revoking, .revocationAttemptEnded => do
      requireRole role .requester
      .ok ⟨.revoked, [.destroyPairKeys]⟩
  | .pairedDisconnected, .peerRevocationNotice =>
    .ok ⟨.revoked,
      [.markRecordRevoked, .closeSession, .destroyPairKeys, .withdrawIdentity, .showPeerForgot]⟩
  | .pairedConnected, .peerRevocationNotice =>
    .ok ⟨.revoked,
      [.markRecordRevoked, .closeSession, .destroyPairKeys, .withdrawIdentity, .showPeerForgot]⟩
  | .revoking, .peerRevocationNotice =>
    .ok ⟨.revoked,
      [.markRecordRevoked, .closeSession, .destroyPairKeys, .withdrawIdentity, .showPeerForgot]⟩
  | .revoked, .forgetPairing => do
      require guards.localUserAction
      .ok ⟨.unpaired, [.clearResidualPairRecord]⟩
  | _, _ => .error .unexpectedInput

def SessionState.transition (state : SessionState) (role : EndpointRole) (event : SessionEvent)
    (guards : Guards) : Except TransitionError (Transition SessionState) :=
  match state, event with
  | .absent, .connect => do
      requireRole role .requester
      require guards.initiationPermitted
      .ok ⟨.connecting, [.openTransport]⟩
  | .absent, .preambleReceived => do
      requireRole role .proxy
      require guards.pairingRouted
      .ok ⟨.authenticating, [.beginKkResponder]⟩
  | .connecting, .transportConnected => do
      requireRole role .requester
      .ok ⟨.authenticating, [.sendSessionPreamble, .beginKkInitiator]⟩
  | .connecting, .transportFailed => do
      requireRole role .requester
      .ok ⟨.closed, [.destroySessionMaterial, .showConnectionStopped]⟩
  | .authenticating, .handshakeComplete =>
    match role with
    | .proxy =>
      .ok ⟨.healthy,
        [.deriveSessionIdentifiers, .sendSessionReady, .sendCardStatus, .startLiveness]⟩
    | .requester => .ok ⟨.authenticating, [.deriveSessionIdentifiers]⟩
  | .authenticating, .handshakeCompleteWhileRevoking =>
    .ok ⟨.closing, [.deriveSessionIdentifiers, .sendClosePairingRevoked]⟩
  | .authenticating, .peerCloseReceived => do
      requireRole role .requester
      .ok ⟨.closed, [.recordPeerCloseReason, .echoPeerClose, .destroySessionMaterial]⟩
  | .authenticating, .readyVerified => do
      requireRole role .requester
      require guards.readyParametersMatch
      .ok ⟨.healthy, [.recordPeerDisplayName, .sendSessionHello, .startLiveness, .showConnected]⟩
  | .authenticating, .candidateFailure =>
    .ok ⟨.closed, [.destroySessionMaterial, .closeCandidate]⟩
  | .authenticating, .transportFailed =>
    .ok ⟨.closed, [.destroySessionMaterial, .showConnectionStopped]⟩
  | .authenticating, .authenticatedProtocolViolation =>
    .ok ⟨.closing, [.sendCloseProtocolViolation, .showDisconnecting]⟩
  | .healthy, .sessionHelloReceived => do
      requireRole role .proxy
      .ok ⟨.healthy, [.recordPeerDisplayName]⟩
  | .healthy, .peerSilent => .ok ⟨.healthy, [.sendLivenessPing]⟩
  | .healthy, .silenceLimitReached =>
    .ok ⟨.closing, [.noteCloseNoticeImpossible, .showDisconnecting]⟩
  | .healthy, .userDisconnect => .ok ⟨.closing, [.sendCloseUserDisconnect, .showDisconnecting]⟩
  | .healthy, .localCloseRequested => .ok ⟨.closing, [.sendCloseNormal, .showDisconnecting]⟩
  | .healthy, .serviceWithdrawn =>
    .ok ⟨.closing, [.sendCloseServiceWithdrawn, .showDisconnecting]⟩
  | .connecting, .serviceWithdrawn | .authenticating, .serviceWithdrawn => do
      requireRole role .requester
      .ok ⟨.closed, [.destroySessionMaterial, .closeCandidate, .showConnectionStopped]⟩
  | .healthy, .cardUnavailable => do
      requireRole role .proxy
      .ok ⟨.closing, [.sendCloseCardUnavailable, .showDisconnecting]⟩
  | .healthy, .peerCloseReceived =>
    .ok ⟨.closing, [.recordPeerCloseReason, .echoPeerClose, .showDisconnecting]⟩
  | .healthy, .transportFailed => .ok ⟨.closing, [.noteCloseNoticeImpossible, .showDisconnecting]⟩
  | .healthy, .sessionIntegrityFailed =>
    .ok ⟨.closing, [.noteCloseNoticeImpossible, .showDisconnecting]⟩
  | .healthy, .authenticatedProtocolViolation =>
    .ok ⟨.closing, [.sendCloseProtocolViolation, .showDisconnecting]⟩
  | .healthy, .closeRequestedByPairing => .ok ⟨.closing, [.showDisconnecting]⟩
  | .connecting, .closeRequestedByPairing =>
    .ok ⟨.closed, [.destroySessionMaterial, .closeCandidate, .showConnectionStopped]⟩
  | .authenticating, .closeRequestedByPairing =>
    .ok ⟨.closed, [.destroySessionMaterial, .closeCandidate, .showConnectionStopped]⟩
  | .closing, .peerCloseReceived =>
    .ok ⟨.closed, [.recordPeerCloseReason, .destroySessionMaterial, .destroyCredentialBuffers,
       .showConnectionStopped]⟩
  | .closing, .transportFailed => .ok ⟨.closing, [.proceedWithoutCloseNotice]⟩
  | .closing, .closeCompleteOrDeadline =>
    .ok ⟨.closed, [.destroySessionMaterial, .destroyCredentialBuffers, .showConnectionStopped]⟩
  | _, _ => .error .unexpectedInput

structure RappState where
  role : EndpointRole
  pairing : PairingState
  session : SessionState
  deriving DecidableEq

/-- Ordered effects of a security event. -/
structure SecurityOutcome where
  actions : List Action
  deriving DecidableEq

namespace RappState

/-- Move the session on an event; an event without a transition changes
nothing. -/
def closeSession (state : RappState) (event : SessionEvent) : SecurityOutcome × RappState :=
  match state.session.transition state.role event .default with
  | .ok transition => (⟨transition.actions⟩, { state with session := transition.state })
  | .error _ => (⟨[]⟩, state)

/-- The event a violation raises in a pairing under way. -/
def pairingViolationEvent (state : RappState) : Option PairingEvent :=
  match state.pairing with
  | .handshaking => some .handshakeFailed
  | .confirming | .storageConfirming => some .deniedAbortedOrTimedOut
  | .exchanging =>
    match state.role with
    | .proxy => some .attemptFailed
    | .requester => some .lastCandidateFailed
  | _ => none

/-- An authenticated message violated the protocol: during a pairing the
attempt aborts, otherwise the session closes and the pairing stays. -/
def authenticatedProtocolViolation (state : RappState) : SecurityOutcome × RappState :=
  match state.pairingViolationEvent with
  | some event =>
    match state.pairing.transition state.role event .default with
    | .ok transition => (⟨transition.actions⟩, { state with pairing := transition.state })
    | .error _ => (⟨[]⟩, state)
  | none => state.closeSession .authenticatedProtocolViolation

def sessionIntegrityFailed (state : RappState) : SecurityOutcome × RappState :=
  state.closeSession .sessionIntegrityFailed

def silenceLimitReached (state : RappState) : SecurityOutcome × RappState :=
  state.closeSession .silenceLimitReached

end RappState

end RefineId.Rapp
