import RefineId.Rapp.Endpoint

/-! A session between its handshake and its promotion: the custodian sends
`session.ready`, the requester verifies it and answers with `session.hello`,
and either may close in their place (`crates/rapp/src/session_flow.rs`). -/
namespace RefineId.Rapp

open Data Semantics FixedBytes

/-- What the custodian's first message gives the requester. -/
inductive ReadyOutcome where
  | verified (custodianName : DisplayName)
  | peerClosed (reason : CloseReason) (echo : Option BinaryFrame)
  | violationClosed (violation : AuthenticatedViolation) (notice : Option BinaryFrame)
  deriving DecidableEq

/-- One frame read while a close awaits its echo. -/
inductive CloseEcho where
  | acknowledged (reason : CloseReason) (crossing : Bool)
  | ignored
  | closed
  deriving DecidableEq

inductive SessionError where
  | roleViolation
  | crypto (error : CryptoError)
  | message (error : MessageError)
  | integrityFailure
  | duplicateReady
  | duplicateHello
  | readyIncomplete
  | closed
  deriving DecidableEq

structure SessionAuthentication (S : Type) where
  role : EndpointRole
  pairId : PairId
  expectedParameters : SessionParameters
  channel : Option (SecureChannel S)
  ready : Bool
  helloSent : Bool
  closeSent : Option CloseReason

variable {S : Type}

namespace SessionAuthentication

/-- What a completed handshake is turned into. -/
def intoAuthentication (role : EndpointRole) (pairId : PairId)
    (expectedParameters : SessionParameters) (channel : SecureChannel S) :
    SessionAuthentication S where
  role := role
  pairId := pairId
  expectedParameters := expectedParameters
  channel := some channel
  ready := false
  helloSent := false
  closeSent := none

variable (session : SessionAuthentication S)

variable (provider : Provider S)

def sealMessage (message : TypedMessage) : Except SessionError BinaryFrame × SessionAuthentication S :=
  match sealTyped .closed .message .crypto provider message session.channel with
  | (result, channel) => (result, { session with channel })

def closeForViolation (violation : AuthenticatedViolation) : ReadyOutcome × SessionAuthentication S :=
  match session.sealMessage provider (.sessionClose ⟨.protocolViolation⟩) with
  | (.ok notice, session) =>
    (.violationClosed violation (some notice),
      { session with closeSent := some .protocolViolation })
  | (.error _, session) => (.violationClosed violation none, { session with channel := none })

def sendReady (nonce : FixedBytes sessionReadyNonceSize) (displayName : DisplayName) :
    Except SessionError BinaryFrame × SessionAuthentication S :=
  if session.role ≠ .proxy then (.error .roleViolation, session)
  else if session.ready then (.error .duplicateReady, session)
  else if session.closeSent.isSome then (.error .closed, session)
  else
    match session.sealMessage provider
        (.sessionReady ⟨session.expectedParameters, nonce, displayName⟩) with
    | (.error error, session) => (.error error, session)
    | (.ok frame, session) => (.ok frame, { session with ready := true })

/-- An envelope the requester's channel accepted in place of
`session.ready`. -/
def receiveEnvelope (envelope : Envelope) (nowMs : UInt64) : ReadyOutcome × SessionAuthentication S :=
  match TypedMessage.fromEnvelope envelope nowMs with
  | .error error => session.closeForViolation provider (.semantic error)
  | .ok (.sessionReady ready) =>
    if ready.parameters = session.expectedParameters then
      (.verified ready.displayName, { session with ready := true })
    else session.closeForViolation provider .readyParameterMismatch
  | .ok (.sessionClose close) =>
    match session.sealMessage provider (.sessionClose ⟨close.reason⟩) with
    | (.ok echo, session) =>
      (.peerClosed close.reason (some echo), { session with channel := none })
    | (.error _, session) => (.peerClosed close.reason none, { session with channel := none })
  | .ok message => session.closeForViolation provider (.unexpectedPhase message.messageType)

/-- The requester reads the custodian's first message. -/
def receiveReady (frame : BinaryFrame)
    (nowMs : UInt64) : Except SessionError ReadyOutcome × SessionAuthentication S :=
  if session.role ≠ .requester then (.error .roleViolation, session)
  else if session.ready then (.error .duplicateReady, session)
  else if session.closeSent.isSome then (.error .closed, session)
  else
    match session.channel with
    | none => (.error .closed, session)
    | some channel =>
      match channel.openFrame provider frame with
      | (.ok envelope, channel) =>
        match { session with channel := some channel }.receiveEnvelope provider envelope nowMs with
        | (outcome, session) => (.ok outcome, session)
      | (.error .sessionIntegrityFailure, _) =>
        (.error .integrityFailure, { session with channel := none })
      | (.error (.authenticatedProtocolViolation error), channel) =>
        match { session with channel := some channel }.closeForViolation provider (.wire error) with
        | (outcome, session) => (.ok outcome, session)

/-- The requester's `session.hello`. The one seal that does not ask whether
a close went out before it. -/
def sendHello (displayName : DisplayName) : Except SessionError BinaryFrame × SessionAuthentication S :=
  if session.role ≠ .requester then (.error .roleViolation, session)
  else if !session.ready then (.error .readyIncomplete, session)
  else if session.helloSent then (.error .duplicateHello, session)
  else
    match session.sealMessage provider (.sessionHello ⟨displayName⟩) with
    | (.error error, session) => (.error error, session)
    | (.ok frame, session) => (.ok frame, { session with helloSent := true })

def sendRevocationNotice : Except SessionError BinaryFrame × SessionAuthentication S :=
  if session.role = .proxy ∧ session.ready then (.error .duplicateReady, session)
  else if session.closeSent.isSome then (.error .closed, session)
  else
    match session.sealMessage provider (.sessionClose ⟨.pairingRevoked⟩) with
    | (.ok frame, session) => (.ok frame, { session with closeSent := some .pairingRevoked })
    | (.error error, session) => (.error error, { session with channel := none })

def receiveCloseEcho (frame : BinaryFrame) (nowMs : UInt64) :
    Except SessionError CloseEcho × SessionAuthentication S :=
  match session.closeSent with
  | none => (.error .closed, session)
  | some sent =>
    match session.channel with
    | none => (.error .closed, session)
    | some channel =>
      match channel.openFrame provider frame with
      | (.error _, _) => (.ok .closed, { session with channel := none })
      | (.ok envelope, channel) =>
        match TypedMessage.fromEnvelope envelope nowMs with
        | .ok (.sessionClose close) =>
          (.ok (.acknowledged close.reason (close.reason ≠ sent)), { session with channel := none })
        | _ => (.ok .ignored, { session with channel := some channel })

def intoEstablished : Except SessionError (EstablishedEndpoint S) :=
  if session.closeSent.isSome then .error .closed
  else if !session.ready || (session.role = .requester && !session.helloSent) then
    .error .readyIncomplete
  else
    match session.channel with
    | none => .error .closed
    | some channel =>
      .ok (EstablishedEndpoint.new session.pairId channel
        ⟨session.role, .pairedConnected, .healthy⟩)

end SessionAuthentication

inductive FlowCall where
  | sendReady (nonce : FixedBytes sessionReadyNonceSize) (displayName : DisplayName)
  | receiveReady (frame : BinaryFrame) (nowMs : UInt64)
  | sendHello (displayName : DisplayName)
  | sendRevocationNotice
  | receiveCloseEcho (frame : BinaryFrame) (nowMs : UInt64)

inductive FlowReply where
  | readySent (result : Except SessionError BinaryFrame)
  | readyReceived (result : Except SessionError ReadyOutcome)
  | helloSent (result : Except SessionError BinaryFrame)
  | noticeSent (result : Except SessionError BinaryFrame)
  | echoReceived (result : Except SessionError CloseEcho)

/-- The close the custodian's first message made the requester seal. -/
def ReadyOutcome.closeFrame : ReadyOutcome → Option BinaryFrame
  | .peerClosed _ echo => echo
  | .violationClosed _ notice => notice
  | .verified _ => none

namespace SessionAuthentication

def step (provider : Provider S) (session : SessionAuthentication S) :
    FlowCall → FlowReply × SessionAuthentication S
  | .sendReady nonce displayName =>
    match session.sendReady provider nonce displayName with
    | (result, session) => (.readySent result, session)
  | .receiveReady frame nowMs =>
    match session.receiveReady provider frame nowMs with
    | (result, session) => (.readyReceived result, session)
  | .sendHello displayName =>
    match session.sendHello provider displayName with
    | (result, session) => (.helloSent result, session)
  | .sendRevocationNotice =>
    match session.sendRevocationNotice provider with
    | (result, session) => (.noticeSent result, session)
  | .receiveCloseEcho frame nowMs =>
    match session.receiveCloseEcho provider frame nowMs with
    | (result, session) => (.echoReceived result, session)

abbrev FlowEvent (S : Type) := Event (SessionAuthentication S) FlowCall FlowReply

variable (e : FlowEvent S)

def sealedBy : Option (MessageType × BinaryFrame) :=
  match e.reply with
  | .readySent (.ok frame) => some (.sessionReady, frame)
  | .helloSent (.ok frame) => some (.sessionHello, frame)
  | .noticeSent (.ok frame) => some (.sessionClose, frame)
  | .readyReceived (.ok outcome) => outcome.closeFrame.map (.sessionClose, ·)
  | _ => none

/-- The `session.close` a call sealed: a revocation notice, a violation
notice or an echo. -/
def closeSealedBy : Option BinaryFrame :=
  match sealedBy e with
  | some (.sessionClose, frame) => some frame
  | _ => none

/-- The requester is about to send its first hello although its close
awaits the echo. -/
def helloAfterClose : Bool :=
  match e.call with
  | .sendHello _ =>
    e.state.role = .requester && e.state.ready && !e.state.helloSent &&
      e.state.closeSent.isSome && e.state.channel.isSome
  | _ => false

def Finished (session : SessionAuthentication S) : Prop :=
  session.closeSent.isSome ∨ session.channel = none

section Steps
variable {session : SessionAuthentication S} (provider : Provider S)

theorem sealMessage_of_gone (hGone : session.channel = none) (message : TypedMessage) :
    session.sealMessage provider message = (.error .closed, session) := by
  rw [sealMessage, hGone, sealTyped, ← hGone]

theorem closeForViolation_finished (session : SessionAuthentication S)
    (violation : AuthenticatedViolation) :
    (session.closeForViolation provider violation).2.Finished := by
  rw [closeForViolation]
  split
  · exact .inl rfl
  · exact .inr rfl

theorem intoEstablished_of_finished (hFinished : session.Finished) :
    ∃ error, session.intoEstablished = .error error := by
  rw [intoEstablished]
  split
  · exact ⟨_, rfl⟩
  split
  · exact ⟨_, rfl⟩
  rename_i hOpen _
  rw [hFinished.resolve_left hOpen]
  exact ⟨_, rfl⟩

/-- A close in place of `session.ready`, and every violation of the first
message, finish the session when they seal a close. -/
theorem receiveEnvelope_finished (session : SessionAuthentication S) (envelope : Envelope)
    (nowMs : UInt64)
    (hClose : (session.receiveEnvelope provider envelope nowMs).1.closeFrame.isSome) :
    (session.receiveEnvelope provider envelope nowMs).2.Finished := by
  revert hClose
  rw [receiveEnvelope]
  split
  · exact fun _ => closeForViolation_finished provider _ _
  · split
    · intro hClose
      cases hClose
    · exact fun _ => closeForViolation_finished provider _ _
  · split <;> exact fun _ => .inr rfl
  · exact fun _ => closeForViolation_finished provider _ _

theorem receiveReady_finished (frame : BinaryFrame) (nowMs : UInt64) {outcome}
    (hOutcome : (session.receiveReady provider frame nowMs).1 = .ok outcome)
    (hClose : outcome.closeFrame.isSome) :
    (session.receiveReady provider frame nowMs).2.Finished := by
  revert hOutcome
  rw [receiveReady]
  split
  · rintro ⟨⟩
  split
  · rintro ⟨⟩
  split
  · rintro ⟨⟩
  split
  · rintro ⟨⟩
  split
  · rintro ⟨⟩
    exact receiveEnvelope_finished provider _ _ _ hClose
  · exact fun _ => .inr rfl
  · exact fun _ => closeForViolation_finished provider _ _

section
variable (hFinished : session.Finished)
include hFinished

theorem sendReady_of_finished
    (nonce : FixedBytes sessionReadyNonceSize) (displayName : DisplayName) :
    ∃ error, session.sendReady provider nonce displayName = (.error error, session) := by
  rw [sendReady]
  split
  · exact ⟨_, rfl⟩
  split
  · exact ⟨_, rfl⟩
  split
  · exact ⟨_, rfl⟩
  rename_i hOpen
  rw [sealMessage_of_gone provider (hFinished.resolve_left hOpen)]
  exact ⟨_, rfl⟩

theorem receiveReady_of_finished (frame : BinaryFrame) (nowMs : UInt64) :
    ∃ error, session.receiveReady provider frame nowMs = (.error error, session) := by
  rw [receiveReady]
  split
  · exact ⟨_, rfl⟩
  split
  · exact ⟨_, rfl⟩
  split
  · exact ⟨_, rfl⟩
  rename_i hOpen
  rw [hFinished.resolve_left hOpen]
  exact ⟨_, rfl⟩

theorem sendRevocationNotice_of_finished :
    ∃ error, (session.sendRevocationNotice provider).1 = .error error ∧
      (session.sendRevocationNotice provider).2.Finished := by
  rw [sendRevocationNotice]
  split
  · exact ⟨_, rfl, hFinished⟩
  split
  · exact ⟨_, rfl, hFinished⟩
  rename_i hOpen
  rw [sealMessage_of_gone provider (hFinished.resolve_left hOpen)]
  exact ⟨_, rfl, .inr rfl⟩

/-- A hello keeps a finished session finished, and it goes out only where
the close is already on its way. -/
theorem sendHello_of_finished (displayName : DisplayName) :
    (session.sendHello provider displayName).2.Finished ∧
      (helloAfterClose (event (step provider) session (.sendHello displayName)) = false →
        ∃ error, (session.sendHello provider displayName).1 = .error error) := by
  rw [sendHello]
  split
  · exact ⟨hFinished, fun _ => ⟨_, rfl⟩⟩
  split
  · exact ⟨hFinished, fun _ => ⟨_, rfl⟩⟩
  split
  · exact ⟨hFinished, fun _ => ⟨_, rfl⟩⟩
  rename_i hRole hReady hFirst
  by_cases hGone : session.channel = none
  · rw [sealMessage_of_gone provider hGone]
    exact ⟨hFinished, fun _ => ⟨_, rfl⟩⟩
  have hSent := hFinished.resolve_right hGone
  refine ⟨?_, fun hHello => ?_⟩
  · have hKept : (session.sealMessage provider (.sessionHello ⟨displayName⟩)).2.closeSent =
        session.closeSent := rfl
    generalize session.sealMessage provider (.sessionHello ⟨displayName⟩) = answer at hKept ⊢
    obtain ⟨result, after⟩ := answer
    rw [← hKept] at hSent
    cases result <;> exact .inl hSent
  · simp_all [helloAfterClose, event, Option.isSome_iff_ne_none]

theorem receiveCloseEcho_finished (frame : BinaryFrame)
    (nowMs : UInt64) : (session.receiveCloseEcho provider frame nowMs).2.Finished := by
  rw [receiveCloseEcho]
  split
  · exact hFinished
  rename_i hSent
  split
  · exact hFinished
  split
  · exact .inr rfl
  split
  · exact .inr rfl
  · exact .inl (by simp [hSent])

/-- A finished session stays finished, and the one frame it can still seal
is a hello sent after the close. -/
theorem step_of_finished (call : FlowCall) : (step provider session call).2.Finished ∧
      (helloAfterClose (event (step provider) session call) = false →
        sealedBy (event (step provider) session call) = none) := by
  cases call with
  | sendReady nonce displayName =>
    obtain ⟨error, hSend⟩ := sendReady_of_finished provider hFinished nonce displayName
    simp only [event, step, hSend]
    exact ⟨hFinished, fun _ => rfl⟩
  | receiveReady frame nowMs =>
    obtain ⟨error, hReceive⟩ := receiveReady_of_finished provider hFinished frame nowMs
    simp only [event, step, hReceive]
    exact ⟨hFinished, fun _ => rfl⟩
  | sendHello displayName =>
    obtain ⟨hAfter, hRefused⟩ := sendHello_of_finished provider hFinished displayName
    refine ⟨hAfter, fun hHello => ?_⟩
    obtain ⟨error, hError⟩ := hRefused hHello
    simp only [event, step, sealedBy, hError]
  | sendRevocationNotice =>
    obtain ⟨error, hError, hAfter⟩ := sendRevocationNotice_of_finished provider hFinished
    refine ⟨hAfter, fun _ => ?_⟩
    simp only [event, step, sealedBy, hError]
  | receiveCloseEcho frame nowMs =>
    exact ⟨receiveCloseEcho_finished provider hFinished frame nowMs, fun _ => rfl⟩

end

theorem finished_of_closeSealed (call : FlowCall)
    (hClose : (closeSealedBy (event (step provider) session call)).isSome) :
    (step provider session call).2.Finished := by
  cases call with
  | sendReady nonce displayName =>
    simp only [event, step] at hClose
    generalize session.sendReady provider nonce displayName = answer at hClose
    obtain ⟨_ | _, after⟩ := answer <;> cases hClose
  | sendHello displayName =>
    simp only [event, step] at hClose
    generalize session.sendHello provider displayName = answer at hClose
    obtain ⟨_ | _, after⟩ := answer <;> cases hClose
  | receiveCloseEcho frame nowMs => cases hClose
  | sendRevocationNotice =>
    simp only [event, step, sendRevocationNotice] at hClose ⊢
    split at hClose
    · cases hClose
    split at hClose
    · cases hClose
    rename_i hRole hOpen
    rw [if_neg hRole, if_neg hOpen]
    split
    · exact .inl rfl
    · exact .inr rfl
  | receiveReady frame nowMs =>
    simp only [event, step, closeSealedBy, sealedBy] at hClose ⊢
    cases hReceive : (session.receiveReady provider frame nowMs).1 with
    | error error =>
      rw [hReceive] at hClose
      cases hClose
    | ok outcome =>
      rw [hReceive] at hClose
      apply receiveReady_finished provider frame nowMs hReceive
      cases hFrame : outcome.closeFrame with
      | none => simp [hFrame] at hClose
      | some frame => rfl

end Steps

/-- Once a close is sealed the session is never promoted, and it seals
nothing more unless the requester sends its hello after the close. -/
theorem close_is_last_frame (provider : Provider S) (role : EndpointRole) (pairId : PairId)
    (parameters : SessionParameters) (channel : SecureChannel S) (calls : List FlowCall)
    {before after : List (FlowEvent S)} {e : FlowEvent S}
    (hSplit : history (step provider) (intoAuthentication role pairId parameters channel) calls =
      before ++ e :: after) (hClose : (closeSealedBy e).isSome) :
    (∃ error, (final (step provider) (intoAuthentication role pairId parameters channel)
        calls).intoEstablished = .error error) ∧
      ((∀ later ∈ after, helloAfterClose later = false) →
        ∀ later ∈ after, sealedBy later = none) := by
  obtain ⟨hFinal, hLater⟩ := history_after (step provider) (P := Finished)
    (Q := fun e => (closeSealedBy e).isSome)
    (R := fun e => helloAfterClose e = false → sealedBy e = none)
    (fun _ call => finished_of_closeSealed provider call)
    (fun _ call hFinished => step_of_finished provider hFinished call) hSplit hClose
  exact ⟨intoEstablished_of_finished hFinal,
    fun hHello later hMem => hLater later hMem (hHello later hMem)⟩

/-- The two ends of one session, before either has spoken. -/
def freshSession (role : EndpointRole) : SessionAuthentication Unit :=
  intoAuthentication role (replicate _ 1) ⟨"tcp", "lan", replicate _ 2⟩
    (SecureChannel.complete (if role = .requester then .initiator else .responder)
      (.replicate 32 3) (.replicate 32 4) (replicate _ 5))

def phoneName : DisplayName :=
  ⟨"Phone", by decide⟩

def readyFrame : Option BinaryFrame :=
  ((freshSession .proxy).sendReady .transparent (replicate _ 6) phoneName).1.toOption

/-- The requester verifies the ready, revokes the pairing and then says
hello: the hello is sealed after the close. -/
theorem hello_follows_revocation : (readyFrame.map fun frame =>
      (history (step .transparent) (freshSession .requester)
          [.receiveReady frame 0, .sendRevocationNotice, .sendHello phoneName]).map
        fun e => (sealedBy e).map Prod.fst) =
      some [none, some .sessionClose, some .sessionHello] := by
  decide +kernel

/-- A requester that revokes before the ready arrives has said its last: its
hello and its second notice are refused. -/
theorem revocation_is_last :
    let start := freshSession .requester
    let calls := [.sendRevocationNotice, .sendHello phoneName, .sendRevocationNotice]
    (∃ error, (final (step .transparent) start calls).intoEstablished = .error error) ∧
      ∀ later ∈ history (step .transparent) (step .transparent start .sendRevocationNotice).2
        [.sendHello phoneName, .sendRevocationNotice], sealedBy later = none := by
  intro start calls
  have hSplit : history (step .transparent) start calls =
      [] ++ event (step .transparent) start .sendRevocationNotice ::
        history (step .transparent) (step .transparent start .sendRevocationNotice).2
          [.sendHello phoneName, .sendRevocationNotice] := rfl
  have hLast := close_is_last_frame .transparent .requester _ _ _ calls hSplit (by decide +kernel)
  exact ⟨hLast.1, hLast.2 (by decide +kernel)⟩

end SessionAuthentication

end RefineId.Rapp
