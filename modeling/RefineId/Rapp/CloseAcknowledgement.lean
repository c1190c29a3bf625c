import RefineId.Rapp.SessionFlow

/-! What becomes of the echo of a violation close. A frame that decrypts has
moved the receive nonce on, but only an envelope the channel accepts moves
the receive sequence on with it. -/
namespace RefineId.Rapp

open Data Semantics Option SequenceGuard Except FixedBytes
open SecureChannel SessionAuthentication TypedMessage

variable {S : Type} {provider : Provider S} {sessionId : SessionId} {receiveKey : CipherKey}
  {nonce next : UInt64} {channel : SecureChannel S} {plaintext : Bytes} {frame : BinaryFrame}
  {envelope : Envelope}

namespace SecureChannel

/-- A session channel that decrypts its next frame under a key at a nonce
and expects the sequence `next` in it. -/
def Expects (sessionId : SessionId) (receiveKey : CipherKey) (nonce next : UInt64)
    (channel : SecureChannel S) : Prop :=
  ∃ sendKey sendNonce,
    channel = native sendKey receiveKey sendNonce nonce ⟨sessionId, sendNonce, next⟩

/-- The frame decrypts, at the channel's key and nonce, to an envelope of the
session with the expected sequence. -/
def carriesExpected (channel : SecureChannel S) (aead : Aead) (frame : BinaryFrame) : Bool :=
  match channel.transport with
  | .snow _ => false
  | .native transport =>
    match (transport.receive.decrypt aead [] frame.bytes).1 with
    | .error _ => false
    | .ok plaintext =>
      match Envelope.decode plaintext with
      | .error _ => false
      | .ok envelope =>
        envelope.sessionId = channel.sequence.sessionId &&
          envelope.sequence = channel.sequence.nextReceive

theorem Expects.sealMessage (hTagged : provider.aead.Tagged)
    (h : Expects sessionId receiveKey nonce next channel) (messageType : MessageType)
    (body : Body) :
    Expects sessionId receiveKey nonce next (channel.sealMessage provider messageType body).2 := by
  obtain ⟨sendKey, sendNonce, hChannel⟩ := h
  rcases sealMessage_native hChannel hTagged rfl messageType body with
    ⟨error, hSeal, -⟩ | ⟨following, -, frame, -, -, hSeal⟩
  · rw [hSeal]
    exact ⟨sendKey, sendNonce, hChannel⟩
  · rw [hSeal]
    exact ⟨sendKey, following, rfl⟩

/-- Everything opening a frame can do to the receiving half. -/
theorem Expects.openFrame (h : Expects sessionId receiveKey nonce next channel)
    (provider : Provider S) (frame : BinaryFrame) :
    (channel.openFrame provider frame).1 = .error .sessionIntegrityFailure ∨
      ∃ following, checkedSucc nonce = some following ∧ ((∃ error,
            (channel.openFrame provider frame).1 = .error (.authenticatedProtocolViolation error) ∧
            (channel.carriesExpected provider.aead frame = false ∨ checkedSucc next = none) ∧
            Expects sessionId receiveKey following next (channel.openFrame provider frame).2) ∨
          ∃ envelope after, (channel.openFrame provider frame).1 = .ok envelope ∧
            channel.carriesExpected provider.aead frame = true ∧ checkedSucc next = some after ∧
            Expects sessionId receiveKey following after (channel.openFrame provider frame).2) := by
  obtain ⟨sendKey, sendNonce, rfl⟩ := h
  rw [openFrame]
  split
  · exact .inl rfl
  rename_i plaintext transport hRead
  obtain ⟨following, hSucc, hDecrypt, hAfter⟩ :=
    TransportMode.read_native_some (congrArg Prod.fst hRead)
  obtain rfl := (congrArg Prod.snd hRead).symm.trans hAfter
  refine .inr ⟨following, hSucc, ?_⟩
  rw [carriesExpected, native]
  dsimp only
  rw [hDecrypt]
  dsimp only
  cases Envelope.decode plaintext with
  | error error => exact .inl ⟨_, rfl, .inl rfl, sendKey, sendNonce, rfl⟩
  | ok envelope =>
    dsimp only [native]
    split
    · rename_i hRefused
      exact .inl ⟨_, rfl, acceptIncoming_error hRefused, sendKey, sendNonce, rfl⟩
    rename_i hAccept
    obtain ⟨hSession, hSequence, after, hNext, rfl⟩ :=
      acceptIncoming_ok hAccept
    exact .inr ⟨_, after, rfl, by simp [hSession, hSequence], hNext, sendKey, sendNonce, rfl⟩

end SecureChannel

section Next
variable (hCorrect : provider.aead.Correct) (hTagged : provider.aead.Tagged)
  (h : Expects sessionId receiveKey nonce next channel)
  (hEncrypt : ((⟨some receiveKey, nonce⟩ : NoiseCipherState).encrypt provider.aead []
    plaintext).1 = .ok frame.bytes) (hDecode : Envelope.decode plaintext = .ok envelope)
  (hSession : envelope.sessionId = sessionId) (hSequence : envelope.sequence = nonce)
include hCorrect hTagged h hEncrypt hDecode hSession hSequence

/-- The peer's next frame decrypts to what it encrypted; whether the channel
takes it is a matter of the sequence it expects. -/
theorem SecureChannel.Expects.openFrame_next :
    (channel.openFrame provider frame).1 =
      if next = nonce then .ok envelope
      else .error (.authenticatedProtocolViolation (.wrongSequence next nonce)) := by
  obtain ⟨sendKey, sendNonce, hChannel⟩ := h
  obtain ⟨following, hCipher, hSucc⟩ := NoiseCipherState.encrypt_ok hEncrypt
  rw [openFrame_native_decrypt hChannel (hCorrect _ _ _ _ _ hCipher) (hTagged _ _ _ _ _ hCipher)
    hSucc, hDecode]
  simp only [SequenceGuard.acceptIncoming, hSession, hSequence, ne_eq, not_true_eq_false,
    ↓reduceIte]
  by_cases hNext : next = nonce
  · simp [hNext, hSucc]
  · simp [hNext, Ne.symm hNext]

end Next

/-- Until the endpoint sends a close, the next frame its channel accepts
carries the number of the nonce it decrypts at. -/
def Synchronized (sessionId : SessionId) (receiveKey : CipherKey) (closeSent : Option CloseReason)
    (channel : Option (SecureChannel S)) : Prop :=
  closeSent = none → ∀ current, channel = some current →
    ∃ nonce, Expects sessionId receiveKey nonce nonce current

abbrev SessionAuthentication.IsSynchronized (session : SessionAuthentication S)
    (sessionId : SessionId) (receiveKey : CipherKey) : Prop :=
  Synchronized sessionId receiveKey session.closeSent session.channel

abbrev EstablishedEndpoint.IsSynchronized (endpoint : EstablishedEndpoint S)
    (sessionId : SessionId) (receiveKey : CipherKey) : Prop :=
  Synchronized sessionId receiveKey endpoint.closeSent endpoint.channel

variable {closeSent : Option CloseReason}

section Sealing
variable {ε : Type} (hTagged : provider.aead.Tagged) (closed : ε) (ofMessage : MessageError → ε)
  (ofCrypto : CryptoError → ε) (message : TypedMessage)

include hTagged

/-- Sealing a typed message leaves the receiving half of the channel alone. -/
theorem sealTyped_expects (h : Expects sessionId receiveKey nonce next channel) :
    ∃ after, (sealTyped closed ofMessage ofCrypto provider message (some channel)).2 =
        some after ∧ Expects sessionId receiveKey nonce next after := by
  rw [sealTyped]
  split
  · exact ⟨channel, rfl, h⟩
  rename_i body _
  have hSeal := h.sealMessage hTagged message.messageType body
  generalize channel.sealMessage provider message.messageType body = answer at hSeal ⊢
  obtain ⟨result, after⟩ := answer
  cases result <;> exact ⟨after, rfl, hSeal⟩

theorem Synchronized.sealTyped {channel} (h : Synchronized sessionId receiveKey closeSent channel) :
    Synchronized sessionId receiveKey closeSent
      (Rapp.sealTyped closed ofMessage ofCrypto provider message channel).2 := by
  intro hOpen current hCurrent
  cases channel with
  | none => cases hCurrent
  | some channel =>
    obtain ⟨nonce, hExpects⟩ := h hOpen channel rfl
    obtain ⟨after, hAfter, hKept⟩ :=
      sealTyped_expects hTagged closed ofMessage ofCrypto message hExpects
    rw [hAfter] at hCurrent
    cases hCurrent
    exact ⟨nonce, hKept⟩

end Sealing

theorem Synchronized.of_finished {channel : Option (SecureChannel S)}
    (hFinished : closeSent.isSome ∨ channel = none) :
    Synchronized sessionId receiveKey closeSent channel := by
  intro hOpen current hCurrent
  rcases hFinished with hSent | hGone
  · rw [hOpen] at hSent
    cases hSent
  · rw [hGone] at hCurrent
    cases hCurrent

/-- An accepted envelope moves nonce and sequence on together. -/
theorem Synchronized.openFrame {current after}
    (h : Synchronized sessionId receiveKey closeSent (some current))
    (hOpen : current.openFrame provider frame = (.ok envelope, after)) :
    Synchronized sessionId receiveKey closeSent (some after) := by
  intro hNone other hOther
  cases hOther
  obtain ⟨nonce, hExpects⟩ := h hNone current rfl
  rcases hExpects.openFrame provider frame with
    hFail | ⟨following, hSucc, ⟨error, hError, -, -⟩ | ⟨opened, next, -, -, hNext, hAfter⟩⟩
  · rw [hOpen] at hFail
    cases hFail
  · rw [hOpen] at hError
    cases hError
  rw [hOpen] at hAfter
  rw [hSucc] at hNext
  cases hNext
  exact ⟨following, hAfter⟩

variable {endpoint : EstablishedEndpoint S}

namespace SessionAuthentication

section Flow
variable (hTagged : provider.aead.Tagged) {session : SessionAuthentication S}
  (h : session.IsSynchronized sessionId receiveKey)

include h in
theorem receiveEnvelope_synchronized (envelope : Envelope) (nowMs : UInt64) :
    (session.receiveEnvelope provider envelope nowMs).2.IsSynchronized sessionId receiveKey := by
  rw [receiveEnvelope]
  split
  · exact .of_finished (closeForViolation_finished provider _ _)
  · split
    · exact h
    · exact .of_finished (closeForViolation_finished provider _ _)
  · split <;> exact .of_finished (.inr rfl)
  · exact .of_finished (closeForViolation_finished provider _ _)

include h in
theorem receiveReady_synchronized (frame : BinaryFrame) (nowMs : UInt64) :
    (session.receiveReady provider frame nowMs).2.IsSynchronized sessionId receiveKey := by
  rw [receiveReady]
  split
  · exact h
  split
  · exact h
  split
  · exact h
  split
  · exact h
  rename_i hChannel
  rw [IsSynchronized, hChannel] at h
  split
  · rename_i hOpen
    exact receiveEnvelope_synchronized (h.openFrame hOpen) _ _
  · exact .of_finished (.inr rfl)
  · exact .of_finished (closeForViolation_finished provider _ _)

include hTagged h in
theorem sealMessage_synchronized (message : TypedMessage) :
    (session.sealMessage provider message).2.IsSynchronized sessionId receiveKey :=
  h.sealTyped hTagged _ _ _ message

include hTagged h in
theorem sendReady_synchronized (nonce : FixedBytes sessionReadyNonceSize)
    (displayName : DisplayName) :
    (session.sendReady provider nonce displayName).2.IsSynchronized sessionId receiveKey := by
  rw [sendReady]
  split
  · exact h
  split
  · exact h
  split
  · exact h
  have hSealed := sealMessage_synchronized hTagged h
    (.sessionReady ⟨session.expectedParameters, nonce, displayName⟩)
  generalize session.sealMessage provider _ = answer at hSealed ⊢
  obtain ⟨_ | _, after⟩ := answer <;> exact hSealed

include hTagged h in
theorem sendHello_synchronized (displayName : DisplayName) :
    (session.sendHello provider displayName).2.IsSynchronized sessionId receiveKey := by
  rw [sendHello]
  split
  · exact h
  split
  · exact h
  split
  · exact h
  have hSealed := sealMessage_synchronized hTagged h (.sessionHello ⟨displayName⟩)
  generalize session.sealMessage provider _ = answer at hSealed ⊢
  obtain ⟨_ | _, after⟩ := answer <;> exact hSealed

include h in
theorem sendRevocationNotice_synchronized :
    (session.sendRevocationNotice provider).2.IsSynchronized sessionId receiveKey := by
  rw [sendRevocationNotice]
  split
  · exact h
  split
  · exact h
  split
  · exact .of_finished (.inl rfl)
  · exact .of_finished (.inr rfl)

include h in
theorem receiveCloseEcho_synchronized (frame : BinaryFrame) (nowMs : UInt64) :
    (session.receiveCloseEcho provider frame nowMs).2.IsSynchronized sessionId receiveKey := by
  cases hSent : session.closeSent with
  | none =>
    rw [receiveCloseEcho, hSent]
    exact h
  | some sent =>
    have hFinished : session.Finished := .inl (by simp [hSent])
    exact .of_finished (receiveCloseEcho_finished provider hFinished frame nowMs)

include hTagged h in
/-- Every step of the authentication keeps the receiving half synchronized. -/
theorem step_synchronized (call : FlowCall) :
    (step provider session call).2.IsSynchronized sessionId receiveKey := by
  cases call with
  | sendReady nonce displayName => exact sendReady_synchronized hTagged h nonce displayName
  | receiveReady frame nowMs => exact receiveReady_synchronized h frame nowMs
  | sendHello displayName => exact sendHello_synchronized hTagged h displayName
  | sendRevocationNotice => exact sendRevocationNotice_synchronized h
  | receiveCloseEcho frame nowMs => exact receiveCloseEcho_synchronized h frame nowMs

include h in
theorem intoEstablished_synchronized (hPromoted : session.intoEstablished = .ok endpoint) :
    endpoint.IsSynchronized sessionId receiveKey := by
  rw [intoEstablished] at hPromoted
  split at hPromoted
  · cases hPromoted
  split_ifs at hPromoted
  split at hPromoted
  · cases hPromoted
  rename_i hOpen _ _ channel hChannel
  cases hPromoted
  rw [IsSynchronized, hChannel, not_isSome_iff_eq_none.mp hOpen] at h
  exact h

end Flow

end SessionAuthentication

namespace EstablishedEndpoint

section Steps
variable (hTagged : provider.aead.Tagged) (h : endpoint.IsSynchronized sessionId receiveKey)

include hTagged h in
theorem send_synchronized (message : TypedMessage) :
    (endpoint.send provider message).2.IsSynchronized sessionId receiveKey := by
  rw [send]
  split
  · exact h
  split
  · exact h
  have hSealed : (endpoint.sealMessage provider message).2.IsSynchronized sessionId receiveKey :=
    h.sealTyped hTagged _ _ _ message
  generalize endpoint.sealMessage provider message = answer at hSealed ⊢
  obtain ⟨_ | _, after⟩ := answer
  · exact hSealed
  dsimp only
  split
  · exact .of_finished (.inl rfl)
  · exact hSealed

include h in
theorem receiveEnvelope_synchronized (envelope : Envelope) (nowMs : UInt64) :
    (endpoint.receiveEnvelope provider envelope nowMs).2.IsSynchronized sessionId receiveKey := by
  rw [receiveEnvelope]
  split
  · exact .of_finished (closeForViolation_finished provider _ _)
  split
  · split
    · rw [answerClose]
      split <;> exact .of_finished (.inr rfl)
    · exact h
    · exact h
  · exact .of_finished (closeForViolation_finished provider _ _)

include h in
theorem receive_synchronized (frame : BinaryFrame) (nowMs : UInt64) :
    (endpoint.receive provider frame nowMs).2.IsSynchronized sessionId receiveKey := by
  by_cases hFinished : endpoint.Finished
  · exact .of_finished (step_of_finished provider hFinished (.receive frame nowMs)).1
  rw [receive]
  split
  · rename_i hSent
    exact absurd (.inl (by simp [hSent])) hFinished
  split
  · exact h
  rename_i hChannel
  rw [IsSynchronized, hChannel] at h
  split
  · rename_i hOpen
    exact receiveEnvelope_synchronized (h.openFrame hOpen) _ _
  · exact .of_finished (.inr rfl)
  · exact .of_finished (closeForViolation_finished provider _ _)

include hTagged h in
/-- Every step of the endpoint keeps the receiving half synchronized. -/
theorem step_synchronized (call : EndpointCall) :
    (step provider endpoint call).2.IsSynchronized sessionId receiveKey := by
  cases call with
  | receive frame nowMs => exact receive_synchronized h frame nowMs
  | send message => exact send_synchronized hTagged h message
  | closeSession | closeForSilence => exact .of_finished (.inr rfl)
  | closeForOperationViolation violation =>
    exact .of_finished (closeForViolation_finished provider endpoint (.operation violation))

end Steps

def carriesExpected (endpoint : EstablishedEndpoint S) (aead : Aead) (frame : BinaryFrame) : Bool :=
  endpoint.channel.any fun channel => channel.carriesExpected aead frame

def receiveCipher? (endpoint : EstablishedEndpoint S) : Option NoiseCipherState :=
  match endpoint.channel with
  | some ⟨.native transport, _⟩ => some transport.receive
  | _ => none

variable {violation : AuthenticatedViolation}

section Acknowledgement
variable {notice : BinaryFrame} {nowMs : UInt64} {outcome : SecurityOutcome}

theorem closeForViolation_expects (hTagged : provider.aead.Tagged) {cause}
    (hChannel : endpoint.channel = some channel)
    (hExpects : Expects sessionId receiveKey nonce next channel)
    (hClosed : (endpoint.closeForViolation provider cause).1 =
      .violationClosed violation outcome (some notice)) :
    (endpoint.closeForViolation provider cause).2.closeSent = some .protocolViolation ∧
      ∃ after, (endpoint.closeForViolation provider cause).2.channel = some after ∧
        Expects sessionId receiveKey nonce next after := by
  revert hClosed
  rw [closeForViolation]
  split
  split
  · rename_i hSend
    intro hClosed
    obtain ⟨hSent, hAfter⟩ := send_close_ok provider hSend
    refine ⟨hSent, ?_⟩
    rw [hAfter, sealMessage, hChannel]
    exact sealTyped_expects hTagged _ _ _ _ hExpects
  · rintro ⟨⟩

/-- An accepted envelope leads to a violation close only by way of
`closeForViolation`. -/
theorem receiveEnvelope_violation (hClosed : (endpoint.receiveEnvelope provider envelope nowMs).1 =
      .violationClosed violation outcome (some notice)) :
    ∃ cause, endpoint.receiveEnvelope provider envelope nowMs =
      endpoint.closeForViolation provider cause := by
  revert hClosed
  rw [receiveEnvelope]
  split
  · exact fun _ => ⟨_, rfl⟩
  split
  · split
    · rw [answerClose]
      split <;> (intro hClosed; cases hClosed)
    · rintro ⟨⟩
    · rintro ⟨⟩
  · exact fun _ => ⟨_, rfl⟩

/-- After a violation close the channel expects the number of its nonce if the
frame carried the expected envelope, and the number it expected before if it
did not. -/
theorem receive_violation_expects (hTagged : provider.aead.Tagged)
    (h : endpoint.IsSynchronized sessionId receiveKey)
    (hClosed : (endpoint.receive provider frame nowMs).1 =
      .ok (.violationClosed violation outcome (some notice))) :
    ∃ nonce following next after, checkedSucc nonce = some following ∧
      next = (if endpoint.carriesExpected provider.aead frame then following else nonce) ∧
      (endpoint.receive provider frame nowMs).2.closeSent = some .protocolViolation ∧
      (endpoint.receive provider frame nowMs).2.channel = some after ∧
      Expects sessionId receiveKey following next after := by
  have hOpen : ¬endpoint.Finished := by
    intro hFinished
    have hSilent := (step_of_finished provider hFinished (.receive frame nowMs)).2.1
    simp [event, step, sealedBy, hClosed, ReceiveOutcome.closeFrame] at hSilent
  have hSent : endpoint.closeSent = none :=
    not_isSome_iff_eq_none.mp fun hSome => hOpen (.inl hSome)
  obtain ⟨channel, hChannel⟩ := ne_none_iff_exists'.mp fun hGone => hOpen (.inr hGone)
  obtain ⟨nonce, hExpects⟩ := h hSent channel hChannel
  have hMoved := hExpects.openFrame provider frame
  simp only [receive, carriesExpected, hSent, hChannel, any_some] at hClosed ⊢
  generalize channel.openFrame provider frame = opened at hMoved hClosed ⊢
  obtain ⟨result, moved⟩ := opened
  rcases hMoved with hFail | ⟨following, hSucc, ⟨error, hError, hCarried, hAfter⟩ |
    ⟨envelope, next, hAccept, hCarried, hNext, hAfter⟩⟩
  · cases hFail
    cases hClosed
  · cases hError
    obtain ⟨hNotice, after, hKept, hExpected⟩ :=
      closeForViolation_expects hTagged rfl hAfter (ok.inj hClosed)
    have hOther := hCarried.resolve_right (by simp [hSucc])
    exact ⟨nonce, following, nonce, after, hSucc, by simp [hOther], hNotice, hKept, hExpected⟩
  cases hAccept
  rw [hSucc] at hNext
  cases hNext
  obtain ⟨cause, hCause⟩ := receiveEnvelope_violation (ok.inj hClosed)
  dsimp only at hClosed ⊢
  rw [hCause] at hClosed ⊢
  obtain ⟨hNotice, after, hKept, hExpected⟩ :=
    closeForViolation_expects hTagged rfl hAfter (ok.inj hClosed)
  exact ⟨nonce, following, following, after, hSucc, by simp [hCarried], hNotice, hKept, hExpected⟩

end Acknowledgement

/-- An endpoint that came out of a session handshake stays synchronized
through its authentication and through every run of its own. -/
theorem established_synchronized (hTagged : provider.aead.Tagged) (handshakeRole : HandshakeRole)
    (first second : CipherKey) (sessionId : SessionId) (role : EndpointRole) (pairId : PairId)
    (parameters : SessionParameters) (flowCalls : List FlowCall) {start}
    (hPromoted : (final (SessionAuthentication.step provider)
      (intoAuthentication role pairId parameters
        (complete handshakeRole first second sessionId)) flowCalls).intoEstablished =
        .ok start) (calls : List EndpointCall) :
    (final (step provider) start calls).IsSynchronized sessionId
      (sendKey first second handshakeRole.peer) := by
  have hFresh : Expects sessionId (sendKey first second handshakeRole.peer) 0 0
      (complete handshakeRole first second sessionId : SecureChannel S) := by
    cases handshakeRole <;> exact ⟨_, 0, rfl⟩
  have hStart : SessionAuthentication.IsSynchronized (intoAuthentication role pairId parameters
      (complete handshakeRole first second sessionId : SecureChannel S)) sessionId
      (sendKey first second handshakeRole.peer) := by
    intro _ current hCurrent
    cases hCurrent
    exact ⟨0, hFresh⟩
  have hFlow := final_invariant (SessionAuthentication.step provider)
    (P := fun session => session.IsSynchronized sessionId _) hStart
    (fun _ call h => SessionAuthentication.step_synchronized hTagged h call) flowCalls
  exact final_invariant (step provider)
    (P := fun endpoint => endpoint.IsSynchronized sessionId _)
    (intoEstablished_synchronized hFlow hPromoted)
    (fun _ call h => step_synchronized hTagged h call) calls

/-- A violation close is acknowledged by the peer's close at the next nonce
exactly when the violating frame carried the expected envelope. Where it did
not, the expected sequence has fallen behind the nonce and the echo is
refused. -/
theorem violation_echo (provider : Provider S) (hCorrect : provider.aead.Correct)
    (hTagged : provider.aead.Tagged) (handshakeRole : HandshakeRole) (first second : CipherKey)
    (sessionId : SessionId) (role : EndpointRole) (pairId : PairId)
    (parameters : SessionParameters) (flowCalls : List FlowCall) {start : EstablishedEndpoint S}
    (hPromoted : (final (SessionAuthentication.step provider)
      (SessionAuthentication.intoAuthentication role pairId parameters
        (SecureChannel.complete handshakeRole first second sessionId)) flowCalls).intoEstablished =
        .ok start) (calls : List EndpointCall) {endpoint after : EstablishedEndpoint S}
    (hEndpoint : endpoint = final (step provider) start calls)
    {frame notice echo : BinaryFrame} {nowMs laterMs : UInt64}
    {violation : AuthenticatedViolation} {outcome : SecurityOutcome}
    (hClosed : endpoint.receive provider frame nowMs =
      (.ok (.violationClosed violation outcome (some notice)), after))
    {peer : NoiseCipherState} {plaintext : Bytes} {envelope : Envelope} {reason : CloseReason}
    (hPeer : after.receiveCipher? = some peer)
    (hEncrypt : (peer.encrypt provider.aead [] plaintext).1 = .ok echo.bytes)
    (hDecode : Envelope.decode plaintext = .ok envelope)
    (hSession : envelope.sessionId = sessionId) (hSequence : envelope.sequence = peer.nonce)
    (hEcho : TypedMessage.fromEnvelope envelope laterMs = .ok (.sessionClose ⟨reason⟩)) :
    (after.receive provider echo laterMs).1 =
      if endpoint.carriesExpected provider.aead frame then
        .ok (.closeAcknowledged reason (reason ≠ .protocolViolation))
      else .ok (.sessionClosed ⟨[]⟩) := by
  have hSynchronized := established_synchronized hTagged handshakeRole first second sessionId
    role pairId parameters flowCalls hPromoted calls
  rw [← hEndpoint] at hSynchronized
  obtain ⟨nonce, following, next, channel, hSucc, hNext, hSent, hChannel, hExpects⟩ :=
    receive_violation_expects hTagged hSynchronized (congrArg Prod.fst hClosed)
  simp only [hClosed] at hSent hChannel
  have hCipher : peer = ⟨some (sendKey first second handshakeRole.peer), following⟩ := by
    obtain ⟨key, sendNonce, rfl⟩ := hExpects
    rw [receiveCipher?, hChannel] at hPeer
    exact (some.inj hPeer).symm
  subst hCipher
  have hOpened := hExpects.openFrame_next hCorrect hTagged hEncrypt hDecode hSession hSequence
  simp only [receive, receiveWhileClosing, hSent, hChannel]
  generalize channel.openFrame provider echo = opened at hOpened ⊢
  obtain ⟨result, moved⟩ := opened
  have hMoved : nonce ≠ following := by
    intro hSame
    have hCount := (checkedSucc_eq_some hSucc).2
    rw [hSame] at hCount
    omega
  rw [hNext] at hOpened
  by_cases hCarries : endpoint.carriesExpected provider.aead frame
  · simp only [hCarries, ↓reduceIte] at hOpened ⊢
    simp only [hOpened, hEcho]
  · simp only [hCarries, hMoved, Bool.false_eq_true, ↓reduceIte] at hOpened ⊢
    simp only [hOpened]

/-- The custodian's end of a session in which only its ready was sent. -/
def promotedCustodian : Except SessionError (EstablishedEndpoint Unit) :=
  (final (SessionAuthentication.step .transparent) (SessionAuthentication.freshSession .proxy)
    [.sendReady (replicate _ 6) SessionAuthentication.phoneName]).intoEstablished

/-- The other end's channel, at a nonce and with a sequence of its choosing. -/
def peerChannel (nonce sequence : UInt64) : SecureChannel Unit :=
  .native (.replicate 32 3) (.replicate 32 4) nonce 0 ⟨replicate _ 5, sequence, 0⟩

def peerFrame (nonce sequence : UInt64) (message : TypedMessage) : Option BinaryFrame :=
  (sealTyped () (fun _ => ()) (fun _ => ()) .transparent message
    (some (peerChannel nonce sequence))).1.toOption

def noticedViolation : Except EndpointError ReceiveOutcome → Option AuthenticatedViolation
  | .ok (.violationClosed violation _ (some _)) => some violation
  | _ => none

def acknowledgedReason : Except EndpointError ReceiveOutcome → Option CloseReason
  | .ok (.closeAcknowledged reason _) => some reason
  | _ => none

def pingMessage : TypedMessage :=
  .livenessPing ⟨replicate _ 7⟩

def echoMessage : TypedMessage :=
  .sessionClose ⟨.protocolViolation⟩

/-- A first message with sequence 7 is answered with a notice; the echo at
nonce 1 carries sequence 1 and is not taken for one. -/
theorem wrongSequence_echo_refused : (promotedCustodian.toOption.bind fun endpoint =>
      (peerFrame 0 7 pingMessage).bind fun frame =>
        (peerFrame 1 1 echoMessage).map fun echo =>
          let closed := endpoint.receive .transparent frame 0
          (noticedViolation closed.1, closed.2.receiveCipher?.map NoiseCipherState.nonce,
            acknowledgedReason (closed.2.receive .transparent echo 0).1)) =
      some (some (.wire (.wrongSequence 0 7)), some 1, none) := by
  decide +kernel

/-- A close numbered by its nonce is the encryption of its envelope. -/
theorem peerFrame_close {reason echo}
    (h : peerFrame nonce nonce (.sessionClose ⟨reason⟩) = some echo) :
    ∃ plaintext following,
      Envelope.decode plaintext = .ok ⟨.sessionClose, replicate _ 5, nonce,
        sessionCloseToBody ⟨reason⟩⟩ ∧
      plaintext ++ List.replicate noiseTagSize 0 = echo.bytes ∧
      checkedSucc nonce = some following := by
  simp only [peerFrame, sealTyped, toWireBody, messageType] at h
  have hPeer : peerChannel nonce nonce = .native (.replicate 32 3) (.replicate 32 4) nonce 0
      ⟨replicate _ 5, nonce, 0⟩ := rfl
  have hTagged : Provider.transparent.aead.Tagged := Aead.transparent_tagged
  rcases sealMessage_native hPeer hTagged rfl .sessionClose (sessionCloseToBody ⟨reason⟩) with
    ⟨error, hSeal, -⟩ | ⟨following, plaintext, frame, hPlain, hSealed, hSeal⟩
  · rw [hSeal] at h
    cases h
  rw [hSeal] at h
  cases h
  obtain ⟨hSucc, -, hDecode⟩ := nextPlaintext_ok hPlain
  exact ⟨plaintext, following, hDecode, some.inj hSealed, hSucc⟩

theorem noticedViolation_eq_some {result} (h : noticedViolation result = some violation) :
    ∃ outcome notice, result = .ok (.violationClosed violation outcome (some notice)) := by
  unfold noticedViolation at h
  split at h
  · cases h
    exact ⟨_, _, rfl⟩
  · cases h

/-- A ping in place of the hello violates the phase only; its echo is
acknowledged. -/
theorem unexpectedPing_echo_acknowledged :
    ∃ start frame echo, promotedCustodian = .ok start ∧ peerFrame 0 0 pingMessage = some frame ∧
      peerFrame 1 1 echoMessage = some echo ∧
      ((start.receive .transparent frame 0).2.receive .transparent echo 0).1 =
        .ok (.closeAcknowledged .protocolViolation false) := by
  have hFacts : (promotedCustodian.toOption.bind fun start =>
      (peerFrame 0 0 pingMessage).map fun frame =>
        let closed := start.receive .transparent frame 0
        (noticedViolation closed.1,
          closed.2.receiveCipher?.map fun cipher => (cipher.key.isSome, cipher.nonce),
          start.carriesExpected .transparent frame)) =
      some (some (.unexpectedPhase .livenessPing), some (true, 1), true) := by
    decide +kernel
  obtain ⟨start, hStart, hFacts⟩ := bind_eq_some_iff.mp hFacts
  obtain ⟨frame, hFrame, hFacts⟩ := map_eq_some_iff.mp hFacts
  simp only [Prod.mk.injEq] at hFacts
  obtain ⟨hNoticed, hCipher, hCarries⟩ := hFacts
  obtain ⟨outcome, notice, hClosed⟩ := noticedViolation_eq_some hNoticed
  obtain ⟨peer, hPeer, hKey⟩ := map_eq_some_iff.mp hCipher
  have hPromoted := toOption_eq_some.mp hStart
  obtain ⟨echo, hEcho⟩ : ∃ echo, peerFrame 1 1 echoMessage = some echo :=
    isSome_iff_exists.mp (by decide +kernel)
  refine ⟨start, frame, echo, hPromoted, hFrame, hEcho, ?_⟩
  obtain ⟨plaintext, following, hDecode, hBytes, hSucc⟩ := peerFrame_close hEcho
  have hEncrypt : (peer.encrypt Aead.transparent [] plaintext).1 = .ok echo.bytes := by
    obtain ⟨key, nonce⟩ := peer
    simp only [Prod.mk.injEq] at hKey
    obtain ⟨hKey, rfl⟩ := hKey
    obtain ⟨key, rfl⟩ := isSome_iff_exists.mp hKey
    simp only [NoiseCipherState.encrypt, Aead.transparent, hSucc, hBytes]
  have hNow : start = final (step .transparent) start [] := rfl
  have hFrom : TypedMessage.fromEnvelope ⟨.sessionClose, replicate _ 5, 1,
      sessionCloseToBody ⟨.protocolViolation⟩⟩ 0 = .ok (.sessionClose ⟨.protocolViolation⟩) := rfl
  have hReply := violation_echo .transparent Aead.transparent_correct Aead.transparent_tagged
    .responder (.replicate 32 3) (.replicate 32 4) (replicate _ 5) .proxy _ _ _ hPromoted
    [] hNow (Prod.ext hClosed rfl) hPeer hEncrypt hDecode rfl (congrArg Prod.snd hKey).symm hFrom
  have hExpected : start.carriesExpected Provider.transparent.aead frame = true := hCarries
  rw [hExpected] at hReply
  exact hReply

end EstablishedEndpoint

end RefineId.Rapp
