import RefineId.Rapp.PairingFlow
import RefineId.Semantics.Run

/-! One endpoint of a pairing, call by call, over the Noise library. What the
library wrote is kept beside its state, and a frame opens only as the next
one the peer's library wrote: the channel is authenticated and in order. -/
namespace RefineId.Rapp

open Data Semantics PairingConfirmation Envelope

variable {S : Type}

/-- The library's state, the plaintexts it has written with their frames, and
how many frames it has read. -/
structure Recorded (S : Type) where
  library : S
  written : List (Bytes × Bytes)
  readCount : Nat

/-- The library behind an authenticated, in-order channel from a peer. It may
fail on any call. -/
def Provider.authenticated (provider : Provider S) (peerWritten : List (Bytes × Bytes)) :
    Provider (Recorded S) where
  aead := provider.aead
  snowWrite state plaintext capacity :=
    match provider.snowWrite state.library plaintext capacity with
    | (none, library) => (none, { state with library })
    | (some output, library) =>
      (some output, { state with library, written := state.written ++ [(plaintext, output)] })
  snowRead state frame capacity :=
    match provider.snowRead state.library frame capacity with
    | (none, library) => (none, { state with library })
    | (some plaintext, library) =>
      if peerWritten[state.readCount]? = some (plaintext, frame) then
        (some plaintext, { state with library, readCount := state.readCount + 1 })
      else (none, { state with library })

/-- The channel runs on the library, which has written this much. -/
def SecureChannel.Wrote (channel : SecureChannel (Recorded S)) (written : List (Bytes × Bytes)) :
    Prop :=
  ∃ state, channel.transport = .snow state ∧ state.written = written

/-- Whatever a plaintext is read as is this message as received. -/
def Carries (plaintext : Bytes) (message : TypedMessage) : Prop :=
  ∀ envelope nowMs received, decode plaintext = .ok envelope →
    TypedMessage.fromEnvelope envelope nowMs = .ok received → received = message.received nowMs

/-- A call on the channel sent nothing: what it may have written is too long
for any frame. -/
def Unsent (written after : List (Bytes × Bytes)) : Prop :=
  after = written ∨ ∃ plaintext output, maxFrameSize < output.length ∧
    after = written ++ [(plaintext, output)]

def Sent (message : TypedMessage) (frame : BinaryFrame) (written after : List (Bytes × Bytes)) :
    Prop :=
  ∃ plaintext, Carries plaintext message ∧ after = written ++ [(plaintext, frame.bytes)]

/-- The message was read from something the peer wrote. -/
def Heard (peerWritten : List (Bytes × Bytes)) (message : TypedMessage) (nowMs : UInt64) : Prop :=
  ∃ entry ∈ peerWritten, entry.2.length ≤ maxFrameSize ∧
    ∃ envelope, decode entry.1 = .ok envelope ∧
      TypedMessage.fromEnvelope envelope nowMs = .ok message

variable {provider : Provider S}

section Channel
variable {peerWritten written : List (Bytes × Bytes)} {channel : SecureChannel (Recorded S)}

/-- Sealing on the library: nothing came of it, or the envelope of the message
was written, and sent if its frame is not too long. -/
theorem sealMessage_recorded (hWrote : channel.Wrote written) (messageType : MessageType)
    (body : Body) :
    ∃ outcome next after,
      channel.sealMessage (provider.authenticated peerWritten) messageType body =
        (outcome, next) ∧ next.Wrote after ∧
      match outcome with
      | .error _ => Unsent written after
      | .ok frame => ∃ plaintext sequence, after = written ++ [(plaintext, frame.bytes)] ∧
        decode plaintext =
          .ok ⟨messageType, channel.sequence.sessionId, sequence, body⟩ := by
  obtain ⟨transport, sequence⟩ := channel
  obtain ⟨state, rfl, rfl⟩ : ∃ state, transport = .snow state ∧ state.written = written := hWrote
  rw [SecureChannel.sealMessage, SequenceGuard.sealNext]
  cases hPlain : sequence.nextPlaintext messageType body with
  | error error => exact ⟨_, _, _, rfl, ⟨state, rfl, rfl⟩, .inl rfl⟩
  | ok following =>
    obtain ⟨following, plaintext⟩ := following
    obtain ⟨-, -, hDecode⟩ := SequenceGuard.nextPlaintext_ok hPlain
    simp only [TransportMode.write, Provider.authenticated]
    cases hWrite : provider.snowWrite state.library plaintext (plaintext.length + noiseTagSize) with
    | mk output library =>
      cases output with
      | none => exact ⟨_, _, _, rfl, ⟨_, rfl, rfl⟩, .inl rfl⟩
      | some output =>
        dsimp only
        by_cases hFits : output.length ≤ maxFrameSize
        · rw [BinaryFrame.reconstruct_of_le hFits]
          exact ⟨_, _, _, rfl, ⟨_, rfl, rfl⟩, plaintext, sequence.nextSend, rfl, hDecode⟩
        · rw [BinaryFrame.reconstruct, dif_neg hFits]
          exact ⟨_, _, _, rfl, ⟨_, rfl, rfl⟩, .inr ⟨plaintext, output, Nat.lt_of_not_le hFits, rfl⟩⟩

/-- The messages of a pairing are read as they were sent. -/
def isPairing : TypedMessage → Bool
  | .pairingHello _ | .pairingConfirm _ | .pairingStored _ => true
  | _ => false

section
variable (hWrote : channel.Wrote written)
include hWrote

theorem sealTyped_recorded (message : TypedMessage) (hPairing : isPairing message = true) :
    ∃ outcome next after,
      Pairing.sealTyped (provider.authenticated peerWritten) channel message = (outcome, next) ∧
      next.Wrote after ∧
      match outcome with
      | .error _ => Unsent written after
      | .ok frame => Sent message frame written after := by
  rw [Pairing.sealTyped]
  cases hBody : message.toWireBody with
  | error error => exact ⟨_, _, written, rfl, hWrote, .inl rfl⟩
  | ok body =>
    dsimp only
    obtain ⟨outcome, next, after, hSeal, hAfter, hSent⟩ :=
      sealMessage_recorded hWrote message.messageType body
    rw [hSeal]
    cases outcome with
    | error error => exact ⟨_, next, after, rfl, hAfter, hSent⟩
    | ok frame =>
      obtain ⟨plaintext, sequence, rfl, hDecode⟩ := hSent
      refine ⟨_, next, _, rfl, hAfter, plaintext, ?_, rfl⟩
      intro envelope nowMs received hEnvelope hReceived
      rw [hDecode] at hEnvelope
      cases hEnvelope
      have hCard : ∀ reader, message ≠ .cardStatus ⟨.present zeroFingerprint, reader⟩ := by
        rintro reader rfl
        cases hPairing
      rw [TypedMessage.fromEnvelope_toWireBody hBody hCard] at hReceived
      exact (Except.ok.inj hReceived).symm

/-- Opening on the library writes nothing, and gives only what the peer
wrote. -/
theorem openFrame_recorded (frame : BinaryFrame) :
    ∃ outcome next, channel.openFrame (provider.authenticated peerWritten) frame =
        (outcome, next) ∧ next.Wrote written ∧ ∀ envelope, outcome = .ok envelope →
      ∃ plaintext, (plaintext, frame.bytes) ∈ peerWritten ∧
        decode plaintext = .ok envelope := by
  obtain ⟨transport, sequence⟩ := channel
  obtain ⟨state, rfl, rfl⟩ : ∃ state, transport = .snow state ∧ state.written = written := hWrote
  simp only [SecureChannel.openFrame, TransportMode.read, Provider.authenticated]
  cases provider.snowRead state.library frame.bytes _ with
  | mk opened library =>
    cases opened with
    | none => exact ⟨_, _, rfl, ⟨_, rfl, rfl⟩, fun _ h => by cases h⟩
    | some plaintext =>
      dsimp only
      by_cases hNext : peerWritten[state.readCount]? = some (plaintext, frame.bytes)
      · rw [if_pos hNext]
        dsimp only
        cases hDecode : decode plaintext with
        | error error => exact ⟨_, _, rfl, ⟨_, rfl, rfl⟩, fun _ h => by cases h⟩
        | ok envelope =>
          dsimp only
          cases sequence.acceptIncoming envelope with
          | error error => exact ⟨_, _, rfl, ⟨_, rfl, rfl⟩, fun _ h => by cases h⟩
          | ok next =>
            refine ⟨_, _, rfl, ⟨_, rfl, rfl⟩, fun found h => ?_⟩
            cases h
            exact ⟨plaintext, List.mem_of_getElem? hNext, hDecode⟩
      · rw [if_neg hNext]
        exact ⟨_, _, rfl, ⟨_, rfl, rfl⟩, fun _ h => by cases h⟩

theorem openTyped_recorded (frame : BinaryFrame) (nowMs : UInt64) : ∃ outcome next,
      Pairing.openTyped (provider.authenticated peerWritten) channel frame nowMs =
        (outcome, next) ∧ next.Wrote written ∧
      ∀ message, outcome = .ok message → Heard peerWritten message nowMs := by
  obtain ⟨outcome, next, hOpen, hAfter, hOpened⟩ := openFrame_recorded hWrote frame
  rw [Pairing.openTyped, hOpen]
  cases outcome with
  | error error => exact ⟨_, _, rfl, hAfter, fun _ h => by cases h⟩
  | ok envelope =>
    obtain ⟨plaintext, hMem, hDecode⟩ := hOpened envelope rfl
    dsimp only
    cases hMessage : TypedMessage.fromEnvelope envelope nowMs with
    | error error => exact ⟨_, _, rfl, hAfter, fun _ h => by cases h⟩
    | ok message =>
      refine ⟨_, _, rfl, hAfter, fun found h => ?_⟩
      cases h
      exact ⟨_, hMem, frame.bounded, envelope, hDecode, hMessage⟩

end

end Channel

/-- Where one endpoint is. A value consumed by a call that failed, or used up,
is gone. -/
inductive PairingPhase (S : Type) where
  | confirming (pairing : PairingConfirmation S)
  | storing (storage : PairingStorage S)
  | active (pairing : ActivePairing)
  | gone

inductive PairingCall where
  | sendHello (displayName : DisplayName) (platform : String)
  | receiveHello (frame : BinaryFrame) (nowMs : UInt64)
  | sendConfirmation (grantedProfiles : List ProfileName)
  | receiveConfirmation (frame : BinaryFrame) (nowMs : UInt64)
  | intoStorage (createdAtMs : UInt64)
  | sendStored
  | receiveStored (frame : BinaryFrame) (nowMs : UInt64)
  | intoActive
  | confirm (record : PairRecord)

/-- What a call returned; a call of another phase is not there to be made. -/
inductive PairingReply where
  | sent (result : Except PairingError BinaryFrame)
  | hello (result : Except PairingError PairingHelloMessage)
  | grants (result : Except PairingError (List ProfileName))
  | record (result : Except PairingError PairRecord)
  | stored (result : Except PairingError Unit)
  | active (result : Except PairingError ActivePairing)
  | confirmed (result : Except PairingError PairRecord)
  | unavailable

def PairingReply.succeeded : PairingReply → Bool
  | .sent result => result.isOk
  | .hello result => result.isOk
  | .grants result => result.isOk
  | .record result => result.isOk
  | .stored result => result.isOk
  | .active result => result.isOk
  | .confirmed result => result.isOk
  | .unavailable => false

namespace PairingPhase

def channel : PairingPhase S → Option (SecureChannel S)
  | .confirming pairing => some pairing.channel
  | .storing storage => some storage.channel
  | _ => none

def step (provider : Provider S) (sha256 : Bytes → GrantsHash) :
    PairingPhase S → PairingCall → PairingReply × PairingPhase S
  | .confirming pairing, .sendHello displayName platform =>
    match pairing.sendHello provider displayName platform with
    | (result, pairing) => (.sent result, .confirming pairing)
  | .confirming pairing, .receiveHello frame nowMs =>
    match pairing.receiveHello provider frame nowMs with
    | (result, pairing) => (.hello result, .confirming pairing)
  | .confirming pairing, .sendConfirmation grantedProfiles =>
    match pairing.sendConfirmation provider grantedProfiles with
    | (result, pairing) => (.sent result, .confirming pairing)
  | .confirming pairing, .receiveConfirmation frame nowMs =>
    match pairing.receiveConfirmation provider frame nowMs with
    | (result, pairing) => (.grants result, .confirming pairing)
  | .confirming pairing, .intoStorage createdAtMs =>
    match pairing.intoStorage sha256 createdAtMs with
    | .error error => (.record (.error error), .gone)
    | .ok (record, storage) => (.record (.ok record), .storing storage)
  | .storing storage, .sendStored =>
    match storage.sendStored provider with
    | (result, storage) => (.sent result, .storing storage)
  | .storing storage, .receiveStored frame nowMs =>
    match storage.receiveStored provider frame nowMs with
    | (result, storage) => (.stored result, .storing storage)
  | .storing storage, .intoActive =>
    match storage.intoActive with
    | .error error => (.active (.error error), .gone)
    | .ok pairing => (.active (.ok pairing), .active pairing)
  | .active pairing, .confirm record => (.confirmed (pairing.confirm record), .gone)
  | phase, _ => (.unavailable, phase)

def spoken : PairingPhase S → PairingCall → PairingReply → Option TypedMessage
  | .confirming pairing, .sendHello displayName platform, .sent (.ok _) =>
    some (pairing.localHello displayName platform)
  | .confirming _, .sendConfirmation grantedProfiles, .sent (.ok _) =>
    some (.pairingConfirm ⟨sortProfiles grantedProfiles⟩)
  | .storing storage, .sendStored, .sent (.ok _) => some (.pairingStored ⟨storage.pairId⟩)
  | _, _, _ => none

theorem spoken_failed (phase : PairingPhase S) (call : PairingCall) {reply}
    (h : reply.succeeded = false) : phase.spoken call reply = none := by
  unfold spoken
  split <;> first | rfl | cases h

end PairingPhase

section Moves
variable (sha256 : Bytes → GrantsHash) (peerWritten written : List (Bytes × Bytes))

/-- Everything one call can do to an endpoint whose channel has written
`written`, against a peer whose channel has written `peerWritten`. -/
inductive PairingMove :
    PairingPhase (Recorded S) → PairingCall → PairingReply → PairingPhase (Recorded S) → Prop where
  | kept (phase call reply) (hFailed : reply.succeeded = false) :
      PairingMove phase call reply phase
  | ended (phase call reply) (hFailed : reply.succeeded = false) :
      PairingMove phase call reply .gone
  | failedConfirming (pairing call reply channel after) (hFailed : reply.succeeded = false)
      (hWrote : channel.Wrote after) (hUnsent : Unsent written after) :
      PairingMove (.confirming pairing) call reply (.confirming { pairing with channel })
  | failedStoring (storage call reply channel after) (hFailed : reply.succeeded = false)
      (hWrote : channel.Wrote after) (hUnsent : Unsent written after) :
      PairingMove (.storing storage) call reply (.storing { storage with channel })
  | saidHello (pairing displayName platform frame channel after) (hWrote : channel.Wrote after)
      (hSent : Sent (pairing.localHello displayName platform) frame written after) :
      PairingMove (.confirming pairing) (.sendHello displayName platform) (.sent (.ok frame))
        (.confirming { pairing with channel, localHelloSent := true })
  | heardHello (pairing frame nowMs hello channel) (hWrote : channel.Wrote written) :
      PairingMove (.confirming pairing) (.receiveHello frame nowMs)
        (.hello (.ok hello)) (.confirming { pairing with channel, peerHello := some hello })
  | saidGrants (pairing grants frame channel after) (hWrote : channel.Wrote after)
      (hFirst : pairing.localGrants = none)
      (hValid : validateGrants grants pairing.offeredProfiles = .ok ())
      (hSent : Sent (.pairingConfirm ⟨sortProfiles grants⟩) frame written after) :
      PairingMove (.confirming pairing) (.sendConfirmation grants) (.sent (.ok frame))
        (.confirming { pairing with channel, localGrants := some (sortProfiles grants) })
  | heardGrants (pairing frame nowMs granted channel) (hWrote : channel.Wrote written)
      (hHeard : Heard peerWritten (.pairingConfirm ⟨granted⟩) nowMs) :
      PairingMove (.confirming pairing) (.receiveConfirmation frame nowMs) (.grants (.ok granted))
        (.confirming { pairing with channel, peerGrants := some granted })
  | built (pairing createdAtMs record storage)
      (hBuilt : pairing.intoStorage sha256 createdAtMs = .ok (record, storage)) :
      PairingMove (.confirming pairing) (.intoStorage createdAtMs)
        (.record (.ok record)) (.storing storage)
  | saidStored (storage frame channel after) (hWrote : channel.Wrote after)
      (hSent : Sent (.pairingStored ⟨storage.pairId⟩) frame written after) :
      PairingMove (.storing storage) .sendStored (.sent (.ok frame))
        (.storing { storage with channel, localStoredSent := true })
  | heardStored (storage frame nowMs channel) (hWrote : channel.Wrote written)
      (hHeard : Heard peerWritten (.pairingStored ⟨storage.pairId⟩) nowMs) :
      PairingMove (.storing storage) (.receiveStored frame nowMs)
        (.stored (.ok ())) (.storing { storage with channel, peerStored := true })
  | activated (storage) (hConfirmed : storage.isConfirmed = true) :
      PairingMove (.storing storage) .intoActive
        (.active (.ok ⟨storage.pairId⟩)) (.active ⟨storage.pairId⟩)
  | confirmed (pairing record) (hPair : record.pairId = pairing.pairId) :
      PairingMove (.active pairing) (.confirm record) (.confirmed (.ok record.confirmStorage)) .gone

variable {sha256 peerWritten written}
  {pairing : PairingConfirmation (Recorded S)} {storage : PairingStorage (Recorded S)}

theorem checkGrants_ok {grants granted} (h : pairing.checkGrants grants = .ok granted) :
    pairing.localGrants = none ∧ validateGrants grants pairing.offeredProfiles = .ok () ∧
      granted = sortProfiles grants := by
  unfold checkGrants at h
  split at h
  · cases h
  split_ifs at h with hFirst
  cases hValid : validateGrants grants pairing.offeredProfiles with
  | error error => simp [hValid] at h
  | ok =>
    simp only [hValid] at h
    refine ⟨by simpa using hFirst, rfl, ?_⟩
    split at h
    · split_ifs at h
      cases h
      rfl
    · cases h
      rfl

section
variable (hWrote : pairing.channel.Wrote written)
include hWrote

theorem sendHello_move (displayName : DisplayName) (platform : String) :
    let result := pairing.sendHello (provider.authenticated peerWritten) displayName platform
    PairingMove sha256 peerWritten written (.confirming pairing) (.sendHello displayName platform)
      (.sent result.1) (.confirming result.2) := by
  rw [sendHello]
  split
  · exact .kept _ _ _ rfl
  obtain ⟨outcome, channel, after, hSeal, hAfter, hSent⟩ :=
    sealTyped_recorded hWrote (pairing.localHello displayName platform) rfl
  rw [hSeal]
  cases outcome with
  | error error => exact .failedConfirming _ _ _ channel after rfl hAfter hSent
  | ok frame => exact .saidHello _ _ _ frame channel after hAfter hSent

theorem sendConfirmation_move (grants : List ProfileName) :
    let result := pairing.sendConfirmation (provider.authenticated peerWritten) grants
    PairingMove sha256 peerWritten written (.confirming pairing) (.sendConfirmation grants)
      (.sent result.1) (.confirming result.2) := by
  rw [sendConfirmation]
  cases hCheck : pairing.checkGrants grants with
  | error error => exact .kept _ _ _ rfl
  | ok granted =>
    obtain ⟨hFirst, hValid, rfl⟩ := checkGrants_ok hCheck
    dsimp only
    obtain ⟨outcome, channel, after, hSeal, hAfter, hSent⟩ :=
      sealTyped_recorded hWrote (.pairingConfirm ⟨sortProfiles grants⟩) rfl
    rw [hSeal]
    cases outcome with
    | error error => exact .failedConfirming _ _ _ channel after rfl hAfter hSent
    | ok frame => exact .saidGrants _ _ frame channel after hAfter hFirst hValid hSent

variable (frame : BinaryFrame) (nowMs : UInt64)

theorem receiveHello_move :
    let result := pairing.receiveHello (provider.authenticated peerWritten) frame nowMs
    PairingMove sha256 peerWritten written (.confirming pairing) (.receiveHello frame nowMs)
      (.hello result.1) (.confirming result.2) := by
  rw [receiveHello]
  split
  · exact .kept _ _ _ rfl
  obtain ⟨outcome, channel, hOpen, hAfter, -⟩ := openTyped_recorded hWrote frame nowMs
  rw [hOpen]
  cases outcome with
  | error error => exact .failedConfirming _ _ _ _ written rfl hAfter (.inl rfl)
  | ok message =>
    cases message with
    | pairingHello hello =>
      dsimp only
      cases pairing.checkHello hello with
      | error error => exact .failedConfirming _ _ _ _ written rfl hAfter (.inl rfl)
      | ok => exact .heardHello _ _ _ _ _ hAfter
    | _ => exact .failedConfirming _ _ _ _ written rfl hAfter (.inl rfl)

theorem receiveConfirmation_move :
    let result := pairing.receiveConfirmation (provider.authenticated peerWritten) frame nowMs
    PairingMove sha256 peerWritten written (.confirming pairing) (.receiveConfirmation frame nowMs)
      (.grants result.1) (.confirming result.2) := by
  rw [receiveConfirmation]
  split
  · exact .kept _ _ _ rfl
  obtain ⟨outcome, channel, hOpen, hAfter, hHeard⟩ := openTyped_recorded hWrote frame nowMs
  rw [hOpen]
  cases outcome with
  | error error => exact .failedConfirming _ _ _ _ written rfl hAfter (.inl rfl)
  | ok message =>
    cases message with
    | pairingConfirm confirm =>
      dsimp only
      cases pairing.checkPeerGrants confirm.grantedProfiles with
      | error error => exact .failedConfirming _ _ _ _ written rfl hAfter (.inl rfl)
      | ok => exact .heardGrants _ _ _ _ _ hAfter (hHeard _ rfl)
    | _ => exact .failedConfirming _ _ _ _ written rfl hAfter (.inl rfl)

end

theorem sendStored_move (hWrote : storage.channel.Wrote written) :
    let result := storage.sendStored (provider.authenticated peerWritten)
    PairingMove sha256 peerWritten written (.storing storage) .sendStored (.sent result.1)
      (.storing result.2) := by
  rw [PairingStorage.sendStored]
  split
  · exact .kept _ _ _ rfl
  obtain ⟨outcome, channel, after, hSeal, hAfter, hSent⟩ :=
    sealTyped_recorded hWrote (.pairingStored ⟨storage.pairId⟩) rfl
  rw [hSeal]
  cases outcome with
  | error error => exact .failedStoring _ _ _ channel after rfl hAfter hSent
  | ok frame => exact .saidStored _ frame channel after hAfter hSent

theorem receiveStored_move (hWrote : storage.channel.Wrote written) (frame : BinaryFrame)
    (nowMs : UInt64) :
    let result := storage.receiveStored (provider.authenticated peerWritten) frame nowMs
    PairingMove sha256 peerWritten written (.storing storage) (.receiveStored frame nowMs)
      (.stored result.1) (.storing result.2) := by
  rw [PairingStorage.receiveStored]
  split
  · exact .kept _ _ _ rfl
  obtain ⟨outcome, channel, hOpen, hAfter, hHeard⟩ := openTyped_recorded hWrote frame nowMs
  rw [hOpen]
  cases outcome with
  | error error => exact .failedStoring _ _ _ _ written rfl hAfter (.inl rfl)
  | ok message =>
    cases message with
    | pairingStored stored =>
      obtain ⟨pairId⟩ := stored
      by_cases hPair : pairId = storage.pairId
      · subst hPair
        simp only [ne_eq, not_true_eq_false, if_false]
        exact .heardStored _ _ _ _ hAfter (hHeard _ rfl)
      · simp only [ne_eq, hPair, not_false_eq_true, if_true]
        exact .failedStoring _ _ _ _ written rfl hAfter (.inl rfl)
    | _ => exact .failedStoring _ _ _ _ written rfl hAfter (.inl rfl)

end Moves

/-- Every call is one of the pairing moves. -/
theorem PairingPhase.step_move (provider : Provider S) (sha256 : Bytes → GrantsHash)
    {peerWritten written phase}
    (hWrote : ∀ channel, phase.channel = some channel → channel.Wrote written)
    (call : PairingCall) :
    PairingMove sha256 peerWritten written phase call
      (phase.step (provider.authenticated peerWritten) sha256 call).1
      (phase.step (provider.authenticated peerWritten) sha256 call).2 := by
  cases phase with
  | confirming pairing =>
    have hChannel := hWrote _ rfl
    cases call with
    | sendHello displayName platform => exact sendHello_move hChannel displayName platform
    | receiveHello frame nowMs => exact receiveHello_move hChannel frame nowMs
    | sendConfirmation grants => exact sendConfirmation_move hChannel grants
    | receiveConfirmation frame nowMs => exact receiveConfirmation_move hChannel frame nowMs
    | intoStorage createdAtMs =>
      simp only [step]
      cases hBuilt : pairing.intoStorage sha256 createdAtMs with
      | error error => exact .ended _ _ _ rfl
      | ok built => exact .built _ _ _ _ hBuilt
    | _ => exact .kept _ _ _ rfl
  | storing storage =>
    have hChannel := hWrote _ rfl
    cases call with
    | sendStored => exact sendStored_move hChannel
    | receiveStored frame nowMs => exact receiveStored_move hChannel frame nowMs
    | intoActive =>
      simp only [step, PairingStorage.intoActive]
      cases hConfirmed : storage.isConfirmed with
      | false => exact .ended _ _ _ rfl
      | true => exact .activated _ hConfirmed
    | _ => exact .kept _ _ _ rfl
  | active pairing =>
    cases call with
    | confirm record =>
      simp only [step, ActivePairing.confirm]
      split
      · exact .ended _ _ _ rfl
      · rename_i hPair
        exact .confirmed _ _ (not_not.mp hPair)
    | _ => exact .kept _ _ _ rfl
  | gone => cases call <;> exact .kept _ _ _ rfl

end RefineId.Rapp
