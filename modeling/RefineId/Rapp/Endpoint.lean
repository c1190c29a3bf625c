import RefineId.Rapp.Channel
import RefineId.Rapp.ProxyEngine
import RefineId.Rapp.RequesterEngine
import RefineId.Rapp.State

/-! The endpoint of an established session (`crates/rapp/src/endpoint.rs`).
A close is acknowledged by its echo: whoever sent one waits for the other's
and sends nothing more. -/
namespace RefineId.Rapp

open Data Semantics

inductive OperationViolation where
  | requester (violation : RequesterViolation)
  | proxy (violation : ProxyViolation)
  deriving DecidableEq

inductive AuthenticatedViolation where
  | wire (error : WireError)
  | semantic (error : MessageError)
  | unexpectedPhase (messageType : MessageType)
  | readyParameterMismatch
  | operation (violation : OperationViolation)
  deriving DecidableEq

inductive EndpointError where
  | sessionClosed
  | crypto (error : CryptoError)
  | message (error : MessageError)
  | unexpectedPhase (messageType : MessageType)
  deriving DecidableEq

/-- What one incoming frame comes to. -/
inductive ReceiveOutcome where
  | message (message : TypedMessage)
  | peerClosed (reason : CloseReason) (echo : Option BinaryFrame)
  | closeAcknowledged (reason : CloseReason) (crossing : Bool)
  | ignoredWhileClosing
  | sessionClosed (outcome : SecurityOutcome)
  | violationClosed (violation : AuthenticatedViolation) (outcome : SecurityOutcome)
      (notice : Option BinaryFrame)

variable {S : Type}

/-- Seal one typed message on a channel that may be gone; the caller names
the three ways it can fail. -/
def sealTyped {ε : Type} (closed : ε) (ofMessage : MessageError → ε) (ofCrypto : CryptoError → ε)
    (provider : Provider S) (message : TypedMessage) :
    Option (SecureChannel S) → Except ε BinaryFrame × Option (SecureChannel S)
  | none => (.error closed, none)
  | some channel =>
    match message.toWireBody with
    | .error error => (.error (ofMessage error), some channel)
    | .ok body =>
      match channel.sealMessage provider message.messageType body with
      | (.error error, channel) => (.error (ofCrypto error), some channel)
      | (.ok frame, channel) => (.ok frame, some channel)

structure EstablishedEndpoint (S : Type) where
  pairId : PairId
  channel : Option (SecureChannel S)
  state : RappState
  awaitingSessionHello : Bool
  closeSent : Option CloseReason

/-- Messages of earlier phases have no place in an established session. -/
def permittedInEstablishedSession : TypedMessage → Bool
  | .pairingHello _ | .pairingConfirm _ | .pairingAbort _ | .pairingStored _
  | .sessionReady _ | .sessionHello _ => false
  | _ => true

namespace EstablishedEndpoint

/-- A custodian's endpoint awaits the requester's `session.hello`. -/
def new (pairId : PairId) (channel : SecureChannel S) (state : RappState) :
    EstablishedEndpoint S where
  pairId := pairId
  channel := some channel
  state := state
  awaitingSessionHello := state.role = .proxy
  closeSent := none

variable (endpoint : EstablishedEndpoint S)

variable (provider : Provider S)

def sealMessage (message : TypedMessage) : Except EndpointError BinaryFrame × EstablishedEndpoint S :=
  match sealTyped .sessionClosed .message .crypto provider message endpoint.channel with
  | (result, channel) => (result, { endpoint with channel })

/-- Send one message; a `session.close` is the last. -/
def send (message : TypedMessage) : Except EndpointError BinaryFrame × EstablishedEndpoint S :=
  if !permittedInEstablishedSession message then
    (.error (.unexpectedPhase message.messageType), endpoint)
  else if endpoint.closeSent.isSome then (.error .sessionClosed, endpoint)
  else
    match endpoint.sealMessage provider message with
    | (.error error, endpoint) => (.error error, endpoint)
    | (.ok frame, endpoint) =>
      match message with
      | .sessionClose close => (.ok frame, { endpoint with closeSent := some close.reason })
      | _ => (.ok frame, endpoint)

def answerClose (reason : CloseReason) : ReceiveOutcome × EstablishedEndpoint S :=
  match endpoint.sealMessage provider (.sessionClose ⟨reason⟩) with
  | (.ok echo, endpoint) => (.peerClosed reason (some echo), { endpoint with channel := none })
  | (.error _, endpoint) => (.peerClosed reason none, { endpoint with channel := none })

/-- A custodian awaiting the hello admits only it or a revocation;
afterwards a hello is never admitted. -/
def admits : TypedMessage → Bool
  | .sessionHello _ => endpoint.awaitingSessionHello
  | .sessionClose ⟨.pairingRevoked⟩ => true
  | message => !endpoint.awaitingSessionHello && permittedInEstablishedSession message

/-- Close with a `protocol_violation` notice, or without one when it cannot
be sealed. -/
def closeForViolation (violation : AuthenticatedViolation) : ReceiveOutcome × EstablishedEndpoint S :=
  match endpoint.state.authenticatedProtocolViolation with
  | (outcome, state) =>
    match { endpoint with state }.send provider (.sessionClose ⟨.protocolViolation⟩) with
    | (.ok notice, endpoint) => (.violationClosed violation outcome (some notice), endpoint)
    | (.error _, endpoint) =>
      (.violationClosed violation outcome none, { endpoint with channel := none })

def closeForOperationViolation (violation : OperationViolation) : ReceiveOutcome × EstablishedEndpoint S :=
  endpoint.closeForViolation provider (.operation violation)

def closeSession : EstablishedEndpoint S :=
  { endpoint with channel := none }

/-- Nothing arrived for the session silence limit. -/
def closeForSilence : SecurityOutcome × EstablishedEndpoint S :=
  match endpoint.state.silenceLimitReached with
  | (outcome, state) => (outcome, { endpoint with state, channel := none })

/-- One frame while the close `sent` awaits its echo. A crossing close is
not answered, and only an envelope the channel refuses ends the session
unacknowledged. -/
def receiveWhileClosing (frame : BinaryFrame) (nowMs : UInt64) (sent : CloseReason) :
    Except EndpointError ReceiveOutcome × EstablishedEndpoint S :=
  match endpoint.channel with
  | none => (.error .sessionClosed, endpoint)
  | some channel =>
    match channel.openFrame provider frame with
    | (.error _, _) => (.ok (.sessionClosed ⟨[]⟩), { endpoint with channel := none })
    | (.ok envelope, channel) =>
      match TypedMessage.fromEnvelope envelope nowMs with
      | .ok (.sessionClose close) =>
        (.ok (.closeAcknowledged close.reason (close.reason ≠ sent)),
          { endpoint with channel := none })
      | _ => (.ok .ignoredWhileClosing, { endpoint with channel := some channel })

/-- An envelope the channel accepted on an open session. -/
def receiveEnvelope (envelope : Envelope) (nowMs : UInt64) : ReceiveOutcome × EstablishedEndpoint S :=
  match TypedMessage.fromEnvelope envelope nowMs with
  | .error error => endpoint.closeForViolation provider (.semantic error)
  | .ok message =>
    if endpoint.admits message then
      match message with
      | .sessionClose close => endpoint.answerClose provider close.reason
      | .sessionHello _ => (.message message, { endpoint with awaitingSessionHello := false })
      | _ => (.message message, endpoint)
    else endpoint.closeForViolation provider (.unexpectedPhase message.messageType)

def receive (frame : BinaryFrame)
    (nowMs : UInt64) : Except EndpointError ReceiveOutcome × EstablishedEndpoint S :=
  match endpoint.closeSent with
  | some sent => endpoint.receiveWhileClosing provider frame nowMs sent
  | none =>
    match endpoint.channel with
    | none => (.error .sessionClosed, endpoint)
    | some channel =>
      match channel.openFrame provider frame with
      | (.ok envelope, channel) =>
        match { endpoint with channel := some channel }.receiveEnvelope provider envelope nowMs with
        | (outcome, endpoint) => (.ok outcome, endpoint)
      | (.error .sessionIntegrityFailure, _) =>
        match endpoint.state.sessionIntegrityFailed with
        | (outcome, state) =>
          (.ok (.sessionClosed outcome), { endpoint with state, channel := none })
      | (.error (.authenticatedProtocolViolation error), channel) =>
        match { endpoint with channel := some channel }.closeForViolation provider
            (.wire error) with
        | (outcome, endpoint) => (.ok outcome, endpoint)

end EstablishedEndpoint

inductive EndpointCall where
  | receive (frame : BinaryFrame) (nowMs : UInt64)
  | send (message : TypedMessage)
  | closeSession
  | closeForSilence
  | closeForOperationViolation (violation : OperationViolation)

inductive EndpointReply where
  | received (result : Except EndpointError ReceiveOutcome)
  | sent (result : Except EndpointError BinaryFrame)
  | closed
  | silenced (outcome : SecurityOutcome)
  | violated (outcome : ReceiveOutcome)

def ReceiveOutcome.closeFrame : ReceiveOutcome → Option BinaryFrame
  | .peerClosed _ echo => echo
  | .violationClosed _ _ notice => notice
  | _ => none

namespace EstablishedEndpoint

def step (provider : Provider S) (endpoint : EstablishedEndpoint S) :
    EndpointCall → EndpointReply × EstablishedEndpoint S
  | .receive frame nowMs =>
    match endpoint.receive provider frame nowMs with
    | (result, endpoint) => (.received result, endpoint)
  | .send message =>
    match endpoint.send provider message with
    | (result, endpoint) => (.sent result, endpoint)
  | .closeSession => (.closed, endpoint.closeSession)
  | .closeForSilence =>
    match endpoint.closeForSilence with
    | (outcome, endpoint) => (.silenced outcome, endpoint)
  | .closeForOperationViolation violation =>
    match endpoint.closeForOperationViolation provider violation with
    | (outcome, endpoint) => (.violated outcome, endpoint)

abbrev EndpointEvent (S : Type) := Event (EstablishedEndpoint S) EndpointCall EndpointReply

variable (e : EndpointEvent S)

def sealedBy : Option (MessageType × BinaryFrame) :=
  match e.call, e.reply with
  | .send message, .sent (.ok frame) => some (message.messageType, frame)
  | _, .received (.ok outcome) => outcome.closeFrame.map (.sessionClose, ·)
  | _, .violated outcome => outcome.closeFrame.map (.sessionClose, ·)
  | _, _ => none

/-- The `session.close` a call sealed: the endpoint's own, a violation
notice or an echo. -/
def closeSealedBy : Option BinaryFrame :=
  match sealedBy e with
  | some (.sessionClose, frame) => some frame
  | _ => none

/-- The message a call handed to the application. -/
def deliveredBy : Option TypedMessage :=
  match e.reply with
  | .received (.ok (.message message)) => some message
  | _ => none

/-- The calls after which the session is over for good: a close arrived, a
frame failed authentication, or the endpoint dropped its channel. -/
def EndsSession : Prop :=
  match e.reply with
  | .received (.ok (.closeAcknowledged _ _)) | .received (.ok (.peerClosed _ _))
  | .received (.ok (.sessionClosed _)) => True
  | .closed | .silenced _ => True
  | _ => False

/-- A send or receive that fails and seals nothing. -/
def Fails : Prop :=
  match e.call with
  | .send _ => ∃ error, e.reply = .sent (.error error)
  | .receive _ _ => e.reply = .received (.error .sessionClosed)
  | _ => True

def Finished (endpoint : EstablishedEndpoint S) : Prop :=
  endpoint.closeSent.isSome ∨ endpoint.channel = none

variable {endpoint : EstablishedEndpoint S}

section Steps
variable (provider : Provider S)

theorem send_of_finished (hFinished : endpoint.Finished) (message : TypedMessage) :
    ∃ error, endpoint.send provider message = (.error error, endpoint) := by
  rw [send]
  split
  · exact ⟨_, rfl⟩
  split
  · exact ⟨_, rfl⟩
  rename_i hOpen
  have hGone := hFinished.resolve_left hOpen
  refine ⟨.sessionClosed, ?_⟩
  rw [sealMessage, hGone, sealTyped, ← hGone]

variable {close : SessionCloseMessage} {after : EstablishedEndpoint S} {frame : BinaryFrame}

/-- A close that goes out leaves the endpoint waiting for its echo. -/
theorem send_close_ok (hSend : endpoint.send provider (.sessionClose close) = (.ok frame, after)) :
    after.closeSent = some close.reason ∧
      after.channel = (endpoint.sealMessage provider (.sessionClose close)).2.channel := by
  rw [send] at hSend
  split at hSend
  · cases hSend
  split at hSend
  · cases hSend
  split at hSend
  · cases hSend
  rename_i hSeal
  cases hSend
  exact ⟨rfl, by rw [hSeal]⟩

theorem send_close_finished
    (hSend : endpoint.send provider (.sessionClose close) = (.ok frame, after)) : after.Finished :=
  .inl (by rw [(send_close_ok provider hSend).1]; rfl)

theorem closeForViolation_finished (endpoint : EstablishedEndpoint S)
    (violation : AuthenticatedViolation) :
    (endpoint.closeForViolation provider violation).2.Finished := by
  rw [closeForViolation]
  split
  split
  · rename_i hSend
    exact send_close_finished provider hSend
  · exact .inr rfl

theorem closeForViolation_of_finished (hFinished : endpoint.Finished)
    (violation : AuthenticatedViolation) :
    (endpoint.closeForViolation provider violation).1.closeFrame = none ∧
      (endpoint.closeForViolation provider violation).2.channel = none := by
  rw [closeForViolation]
  split
  rename_i state _
  have hState : { endpoint with state }.Finished := hFinished
  obtain ⟨error, hSend⟩ := send_of_finished provider hState (.sessionClose ⟨.protocolViolation⟩)
  rw [hSend]
  exact ⟨rfl, rfl⟩

end Steps

inductive Received (endpoint : EstablishedEndpoint S) :
    Except EndpointError ReceiveOutcome → EstablishedEndpoint S → Prop
  | refused (hGone : endpoint.channel = none) : Received endpoint (.error .sessionClosed) endpoint
  | delivered (message : TypedMessage) (after : EstablishedEndpoint S)
      (hOpen : ¬ endpoint.Finished) : Received endpoint (.ok (.message message)) after
  | answered (reason : CloseReason) (echo : Option BinaryFrame) (after : EstablishedEndpoint S)
      (hOpen : ¬ endpoint.Finished) (hAfter : after.channel = none) :
      Received endpoint (.ok (.peerClosed reason echo)) after
  | violated (violation : AuthenticatedViolation) (outcome : SecurityOutcome)
      (notice : Option BinaryFrame) (after : EstablishedEndpoint S)
      (hOpen : ¬ endpoint.Finished) (hAfter : after.Finished) :
      Received endpoint (.ok (.violationClosed violation outcome notice)) after
  | acknowledged (reason : CloseReason) (crossing : Bool) (after : EstablishedEndpoint S)
      (hAfter : after.channel = none) :
      Received endpoint (.ok (.closeAcknowledged reason crossing)) after
  | broken (outcome : SecurityOutcome) (after : EstablishedEndpoint S)
      (hAfter : after.channel = none) : Received endpoint (.ok (.sessionClosed outcome)) after
  | ignored (after : EstablishedEndpoint S) (hOpen : endpoint.channel ≠ none)
      (hAfter : after.Finished) : Received endpoint (.ok .ignoredWhileClosing) after

section Receive
variable (provider : Provider S)

theorem receiveWhileClosing_received (frame : BinaryFrame) (nowMs : UInt64) {sent}
    (hSent : endpoint.closeSent = some sent) :
    Received endpoint (endpoint.receiveWhileClosing provider frame nowMs sent).1
      (endpoint.receiveWhileClosing provider frame nowMs sent).2 := by
  rw [receiveWhileClosing]
  split
  · rename_i hGone
    exact .refused hGone
  rename_i hOpen
  split
  · exact .broken _ _ rfl
  split
  · exact .acknowledged _ _ _ rfl
  · exact .ignored _ (by simp [hOpen]) (.inl (by simp [hSent]))

variable {current : EstablishedEndpoint S}

section
variable (hOpen : ¬ endpoint.Finished)
include hOpen

theorem closeForViolation_received (violation : AuthenticatedViolation) :
    Received endpoint (.ok (current.closeForViolation provider violation).1)
      (current.closeForViolation provider violation).2 := by
  have hAfter := closeForViolation_finished provider current violation
  revert hAfter
  rw [closeForViolation]
  split
  split <;> exact .violated _ _ _ _ hOpen

theorem receiveEnvelope_received (envelope : Envelope) (nowMs : UInt64) :
    Received endpoint (.ok (current.receiveEnvelope provider envelope nowMs).1)
      (current.receiveEnvelope provider envelope nowMs).2 := by
  rw [receiveEnvelope]
  split
  · exact closeForViolation_received provider hOpen _
  split
  · split
    · rw [answerClose]
      split <;> exact .answered _ _ _ hOpen rfl
    · exact .delivered _ _ hOpen
    · exact .delivered _ _ hOpen
  · exact closeForViolation_received provider hOpen _

end

theorem receive_received (endpoint : EstablishedEndpoint S) (frame : BinaryFrame) (nowMs : UInt64) :
    Received endpoint (endpoint.receive provider frame nowMs).1
      (endpoint.receive provider frame nowMs).2 := by
  rw [receive]
  split
  · rename_i hSent
    exact receiveWhileClosing_received provider frame nowMs hSent
  rename_i hSent
  split
  · rename_i hGone
    exact .refused hGone
  rename_i hChannel
  have hOpen : ¬ endpoint.Finished := by simp [Finished, hSent, hChannel]
  split
  · exact receiveEnvelope_received provider hOpen _ _
  · exact .broken _ _ rfl
  · exact closeForViolation_received provider hOpen _

end Receive

section Run
variable (provider : Provider S)

/-- A finished endpoint stays so, seals nothing and delivers nothing. -/
theorem step_of_finished (hFinished : endpoint.Finished) (call : EndpointCall) :
    (step provider endpoint call).2.Finished ∧
      sealedBy (event (step provider) endpoint call) = none ∧
      deliveredBy (event (step provider) endpoint call) = none := by
  cases call with
  | receive frame nowMs =>
    have hReceived := receive_received provider endpoint frame nowMs
    simp only [event, step]
    generalize endpoint.receive provider frame nowMs = answer at hReceived ⊢
    obtain ⟨result, next⟩ := answer
    cases hReceived with
    | refused hGone => exact ⟨hFinished, rfl, rfl⟩
    | delivered message after hOpen | answered reason echo after hOpen hAfter =>
      exact absurd hFinished hOpen
    | violated violation outcome notice after hOpen hAfter => exact absurd hFinished hOpen
    | acknowledged reason crossing after hAfter | broken outcome after hAfter =>
      exact ⟨.inr hAfter, rfl, rfl⟩
    | ignored after hOpen hAfter => exact ⟨hAfter, rfl, rfl⟩
  | send message =>
    obtain ⟨error, hSend⟩ := send_of_finished provider hFinished message
    simp only [event, step, hSend]
    exact ⟨hFinished, rfl, rfl⟩
  | closeSession | closeForSilence => exact ⟨.inr rfl, rfl, rfl⟩
  | closeForOperationViolation violation =>
    obtain ⟨hNotice, hAfter⟩ :=
      closeForViolation_of_finished provider hFinished (.operation violation)
    refine ⟨.inr hAfter, ?_, rfl⟩
    simp only [event, step, sealedBy, closeForOperationViolation, hNotice, Option.map_none]

/-- Without a channel every send and receive fails, and no channel comes
back. -/
theorem step_of_ended (hEnded : endpoint.channel = none) (call : EndpointCall) :
    (step provider endpoint call).2.channel = none ∧
      sealedBy (event (step provider) endpoint call) = none ∧
      Fails (event (step provider) endpoint call) := by
  have hSealed := (step_of_finished provider (.inr hEnded) call).2.1
  cases call with
  | receive frame nowMs =>
    refine ⟨?_, hSealed, ?_⟩ <;>
      cases hSent : endpoint.closeSent <;>
      simp [event, step, Fails, receive, receiveWhileClosing, hSent, hEnded]
  | send message =>
    obtain ⟨error, hSend⟩ := send_of_finished provider (.inr hEnded) message
    refine ⟨?_, hSealed, error, ?_⟩
    · simp only [step, hSend, hEnded]
    · simp only [event, step, hSend]
  | closeSession | closeForSilence => exact ⟨rfl, rfl, trivial⟩
  | closeForOperationViolation violation =>
    exact ⟨(closeForViolation_of_finished provider (.inr hEnded) (.operation violation)).2,
      hSealed, trivial⟩

theorem finished_of_closeSealed (call : EndpointCall)
    (hClose : (closeSealedBy (event (step provider) endpoint call)).isSome) :
    (step provider endpoint call).2.Finished := by
  cases call with
  | receive frame nowMs =>
    have hReceived := receive_received provider endpoint frame nowMs
    simp only [event, step] at hClose ⊢
    generalize endpoint.receive provider frame nowMs = answer at hReceived hClose ⊢
    obtain ⟨result, next⟩ := answer
    cases hReceived with
    | answered reason echo after hOpen hAfter => exact .inr hAfter
    | violated violation outcome notice after hOpen hAfter | ignored after hOpen hAfter =>
      exact hAfter
    | acknowledged reason crossing after hAfter | broken outcome after hAfter => exact .inr hAfter
    | refused hGone => exact .inr hGone
    | delivered message after hOpen => cases hClose
  | send message =>
    simp only [event, step] at hClose ⊢
    cases hSend : endpoint.send provider message with
    | mk result after =>
      rw [hSend] at hClose
      cases result with
      | error error => cases hClose
      | ok frame =>
        cases message with
        | sessionClose close => exact send_close_finished provider hSend
        | _ => cases hClose
  | closeSession | closeForSilence => exact .inr rfl
  | closeForOperationViolation violation =>
    exact closeForViolation_finished provider endpoint (.operation violation)

theorem ended_of_endsSession (call : EndpointCall)
    (hEnds : EndsSession (event (step provider) endpoint call)) :
    (step provider endpoint call).2.channel = none := by
  cases call with
  | receive frame nowMs =>
    have hReceived := receive_received provider endpoint frame nowMs
    simp only [event, step] at hEnds ⊢
    generalize endpoint.receive provider frame nowMs = answer at hReceived hEnds ⊢
    obtain ⟨result, next⟩ := answer
    cases hReceived with
    | answered reason echo after hOpen hAfter
    | acknowledged reason crossing after hAfter | broken outcome after hAfter => exact hAfter
    | _ => cases hEnds
  | send message => cases hEnds
  | closeSession | closeForSilence => rfl
  | closeForOperationViolation violation => cases hEnds

end Run

/-- In every run of an established session at most one `session.close` is
sealed, nothing is sealed or delivered after it, and once the session is
over every send and receive fails. -/
theorem close_is_final (provider : Provider S) (pairId : PairId) (channel : SecureChannel S)
    (state : RappState) (calls : List EndpointCall) :
    ((history (step provider) (new pairId channel state) calls).filterMap
        closeSealedBy).length ≤ 1 ∧
      ∀ before e after,
        history (step provider) (new pairId channel state) calls = before ++ e :: after →
        ((closeSealedBy e).isSome →
          ∀ later ∈ after, sealedBy later = none ∧ deliveredBy later = none) ∧
        (EndsSession e → ∀ later ∈ after, sealedBy later = none ∧ Fails later) := by
  have hClose : ∀ before e after,
      history (step provider) (new pairId channel state) calls = before ++ e :: after →
      (closeSealedBy e).isSome →
        ∀ later ∈ after, sealedBy later = none ∧ deliveredBy later = none := by
    intro before e after hSplit hSealed
    exact (history_after (step provider) (P := Finished) (Q := fun e => (closeSealedBy e).isSome)
      (fun _ call => finished_of_closeSealed provider call)
      (fun _ call hFinished => step_of_finished provider hFinished call) hSplit hSealed).2
  refine ⟨length_filterMap_le_one fun before e after hSplit hSealed later hLater => ?_, ?_⟩
  · rw [closeSealedBy, (hClose before e after hSplit hSealed later hLater).1]
  intro before e after hSplit
  refine ⟨hClose before e after hSplit, fun hEnds => ?_⟩
  exact (history_after (step provider) (P := fun endpoint => endpoint.channel = none)
    (Q := EndsSession) (fun _ call => ended_of_endsSession provider call)
    (fun _ call hEnded => step_of_ended provider hEnded call) hSplit hEnds).2

end EstablishedEndpoint

end RefineId.Rapp
