import RefineId.Rapp.Channel
import RefineId.Semantics.Run

/-! Runs of one session channel: how the sequence inside the envelopes and
the nonce of the cipher move together. -/
namespace RefineId.Rapp

open Data Semantics List

variable {S : Type}

structure SealedMessage where
  messageType : MessageType
  body : Body
  frame : BinaryFrame

/-- An envelope is this message at this place of its direction. -/
structure SealedMessage.CarriedBy (message : SealedMessage) (sessionId : SessionId) (index : Nat)
    (envelope : Envelope) : Prop where
  messageType : envelope.messageType = message.messageType
  body : envelope.body = message.body
  sessionId : envelope.sessionId = sessionId
  sequence : envelope.sequence.toNat = index

/-- Each message of a log was encrypted at the nonce of its place, from an
envelope that carries the same number. -/
structure SealedLog (aead : Aead) (key : CipherKey) (sessionId : SessionId)
    (log : List SealedMessage) : Prop where
  bounded : log.length < 2 ^ 64
  plaintext : ∀ index message, log[index]? = some message → ∃ plaintext, Envelope.decode plaintext =
        .ok ⟨message.messageType, sessionId, UInt64.ofNat index, message.body⟩ ∧
      aead.encrypt key (nonceBytes (UInt64.ofNat index)) [] plaintext = some message.frame.bytes

variable {aead : Aead} {key : CipherKey} {sessionId : SessionId}

theorem SealedLog.nil : SealedLog aead key sessionId [] :=
  ⟨by simp, fun index message h => by simp at h⟩

variable {sequence : SequenceGuard} {messageType : MessageType} {body : Body}

theorem SealedLog.append {log} (h : SealedLog aead key sessionId log) {frame following plaintext}
    (hSession : sequence.sessionId = sessionId)
    (hNext : sequence.nextSend = UInt64.ofNat log.length)
    (hPlain : sequence.nextPlaintext messageType body = .ok (following, plaintext))
    (hEncrypt : aead.encrypt key (nonceBytes (UInt64.ofNat log.length)) [] plaintext =
      some frame.bytes) :
    following = UInt64.ofNat (log.length + 1) ∧
      SealedLog aead key sessionId (log ++ [⟨messageType, body, frame⟩]) := by
  obtain ⟨hSucc, -, hDecode⟩ := SequenceGuard.nextPlaintext_ok hPlain
  rw [hNext] at hSucc hDecode
  rw [hSession] at hDecode
  obtain ⟨hBound, hFollowing⟩ := checkedSucc_ofNat h.bounded hSucc
  refine ⟨hFollowing, ?_, ?_⟩
  · rw [length_append]
    exact hBound
  intro index message hGet
  rcases getElem?_append_singleton.mp hGet with hOld | ⟨rfl, rfl⟩
  · exact h.plaintext index message hOld
  · exact ⟨plaintext, hDecode, hEncrypt⟩

inductive ChannelCall where
  | send (messageType : MessageType) (body : Body)
  | deliver (frame : BinaryFrame)

inductive ChannelReply where
  | sent (result : Except CryptoError BinaryFrame)
  | delivered (result : Except OpenError Envelope)

namespace SecureChannel

variable (provider : Provider S)

variable (channel : SecureChannel S)

def step : ChannelCall → ChannelReply × SecureChannel S
  | .send messageType body =>
    match channel.sealMessage provider messageType body with
    | (result, channel) => (.sent result, channel)
  | .deliver frame =>
    match channel.openFrame provider frame with
    | (result, channel) => (.delivered result, channel)

/-- The nonce and plaintext a seal has the cipher encrypt, when the cipher
answers. Whether the ciphertext is then used plays no part. -/
def encryption (messageType : MessageType)
    (body : Body) : Option (Bytes × Bytes) :=
  match channel.transport, channel.sequence.nextPlaintext messageType body with
  | .native ⟨⟨some key, nonce⟩, _⟩, .ok (_, plaintext) =>
    (provider.aead.encrypt key (nonceBytes nonce) [] plaintext).map fun _ =>
      (nonceBytes nonce, plaintext)
  | _, _ => none

/-- The nonce the next frame will be encrypted at. -/
def sendNonce? : Option UInt64 :=
  match channel.transport with
  | .native transport => some transport.send.nonce
  | .snow _ => none

abbrev ChannelEvent (S : Type) := Event (SecureChannel S) ChannelCall ChannelReply

def sealedBy (event : ChannelEvent S) : Option SealedMessage :=
  match event.call, event.reply with
  | .send messageType body, .sent (.ok frame) => some ⟨messageType, body, frame⟩
  | _, _ => none

def encryptedBy (event : ChannelEvent S) : Option (Bytes × Bytes) :=
  match event.call with
  | .send messageType body => event.state.encryption provider messageType body
  | .deliver _ => none

/-- The sending half has this key, and its sequence and nonce are both the
number of messages sealed. -/
structure SendInStep (provider : Provider S) (key : CipherKey) (sessionId : SessionId)
    (past : List (ChannelEvent S)) (channel : SecureChannel S) : Prop where
  channel : ∃ receiveKey receiveNonce sequence,
    channel = native key receiveKey (UInt64.ofNat (past.filterMap sealedBy).length) receiveNonce
      sequence ∧
    sequence.nextSend = UInt64.ofNat (past.filterMap sealedBy).length ∧
    sequence.sessionId = sessionId
  log : SealedLog provider.aead key sessionId (past.filterMap sealedBy)
  nonces : (past.filterMap (encryptedBy provider)).map Prod.fst =
    (range (past.filterMap sealedBy).length).map fun index => nonceBytes (UInt64.ofNat index)

section Run
variable {provider : Provider S} {past : List (ChannelEvent S)} {channel : SecureChannel S}

/-- One more event that sealed nothing and encrypted nothing. -/
theorem SendInStep.idle (h : SendInStep provider key sessionId past channel)
    {event next} (hSealed : sealedBy event = none)
    (hEncrypted : encryptedBy provider event = none) (hChannel : ∃ receiveKey receiveNonce sequence,
      next = native key receiveKey (UInt64.ofNat (past.filterMap sealedBy).length) receiveNonce
        sequence ∧
      sequence.nextSend = UInt64.ofNat (past.filterMap sealedBy).length ∧
      sequence.sessionId = sessionId) :
    SendInStep provider key sessionId (past ++ [event]) next := by
  have hLog : (past ++ [event]).filterMap sealedBy = past.filterMap sealedBy := by
    simp [filterMap_append, hSealed]
  have hCalls : (past ++ [event]).filterMap (encryptedBy provider) =
      past.filterMap (encryptedBy provider) := by
    simp [filterMap_append, hEncrypted]
  constructor
  · rw [hLog]
    exact hChannel
  · rw [hLog]
    exact h.log
  · rw [hLog, hCalls]
    exact h.nonces

/-- Every call keeps sequence and nonce of the sending half in step. -/
theorem step_sendInStep (hTagged : provider.aead.Tagged)
    (h : SendInStep provider key sessionId past channel) (call : ChannelCall) :
    SendInStep provider key sessionId (past ++ [event (step provider) channel call])
      (step provider channel call).2 := by
  obtain ⟨receiveKey, receiveNonce, sequence, hChannel, hNext, hSession⟩ := h.channel
  cases call with
  | deliver frame =>
    obtain ⟨nonce, next, hOpen, hSend, hSame⟩ := openFrame_native_send hChannel frame
    exact h.idle rfl rfl ⟨receiveKey, nonce, next, hOpen, hSend.trans hNext, hSame.trans hSession⟩
  | send messageType body =>
    rcases sealMessage_native hChannel hTagged hNext messageType body with
      ⟨error, hSeal, hNone⟩ | ⟨following, plaintext, frame, hPlain, hEncrypt, hSeal⟩
    · have hReply : step provider channel (.send messageType body) =
          (.sent (.error error), channel) := by
        simp only [step, hSeal]
      rw [event, hReply]
      refine h.idle rfl ?_ h.channel
      -- a plaintext the cipher refuses, or none at all, is not encrypted
      subst hChannel
      simp only [encryptedBy, encryption, native]
      split
      · rename_i hTransport hPlain
        cases hTransport
        rw [hNone _ _ hPlain]
        rfl
      · rfl
    obtain ⟨rfl, hLog⟩ := h.log.append hSession hNext hPlain hEncrypt
    have hReply : step provider channel (.send messageType body) =
        (.sent (.ok frame), native key receiveKey
          (UInt64.ofNat ((past.filterMap sealedBy).length + 1)) receiveNonce
          { sequence with
            nextSend := UInt64.ofNat ((past.filterMap sealedBy).length + 1) }) := by
      simp only [step, hSeal]
    have hSealed : (past ++ [event (step provider) channel (.send messageType body)]).filterMap
        sealedBy = past.filterMap sealedBy ++ [⟨messageType, body, frame⟩] := by
      simp [filterMap_append, event, hReply, sealedBy]
    have hCalls : (past ++ [event (step provider) channel (.send messageType body)]).filterMap
        (encryptedBy provider) = past.filterMap (encryptedBy provider) ++
          [(nonceBytes (UInt64.ofNat (past.filterMap sealedBy).length), plaintext)] := by
      subst hChannel
      simp [filterMap_append, event, encryptedBy, encryption, native, hPlain, hEncrypt]
    constructor
    · rw [hSealed, length_append, hReply]
      exact ⟨receiveKey, receiveNonce, _, rfl, rfl, hSession⟩
    · rw [hSealed]
      exact hLog
    · rw [hSealed, hCalls, map_append, h.nonces, length_append,
        length_singleton, range_succ, map_append]
      rfl

theorem complete_sendInStep (role : HandshakeRole) (first second : CipherKey) :
    SendInStep provider (sendKey first second role) sessionId []
      (complete role first second sessionId) where
  channel := by
    cases role with
    | initiator => exact ⟨second, 0, SequenceGuard.new sessionId, rfl, rfl, rfl⟩
    | responder => exact ⟨first, 0, SequenceGuard.new sessionId, rfl, rfl, rfl⟩
  log := SealedLog.nil
  nonces := rfl

end Run

/-- In every run of a session channel, refused and failed seals included, the
next sequence is the next nonce, the sealed envelopes are numbered from zero
without gap or repetition, each at the nonce of its number, and no two
ciphertexts were ever made at one nonce. -/
theorem sequence_eq_nonce (hTagged : provider.aead.Tagged)
    (role : HandshakeRole) (first second : CipherKey) (sessionId : SessionId)
    (calls : List ChannelCall) :
    let start : SecureChannel S := complete role first second sessionId
    let channel := final (step provider) start calls
    let past := history (step provider) start calls
    channel.sendNonce? = some channel.sequence.nextSend ∧
    (∀ index message, (past.filterMap sealedBy)[index]? = some message →
      ∃ plaintext envelope, Envelope.decode plaintext = .ok envelope ∧
        message.CarriedBy sessionId index envelope ∧
        provider.aead.encrypt (sendKey first second role) (nonceBytes (UInt64.ofNat index)) []
          plaintext = some message.frame.bytes) ∧
    ((past.filterMap (encryptedBy provider)).map Prod.fst).Nodup := by
  intro start channel past
  have h : SendInStep provider (sendKey first second role) sessionId past channel :=
    history_invariant _ (complete_sendInStep role first second)
      (fun _ _ call h => step_sendInStep hTagged h call) calls
  refine ⟨?_, ?_, ?_⟩
  · obtain ⟨receiveKey, receiveNonce, sequence, hChannel, hNext, -⟩ := h.channel
    rw [hChannel, native, sendNonce?, hNext]
  · intro index message hGet
    obtain ⟨plaintext, hDecode, hEncrypt⟩ := h.log.plaintext index message hGet
    refine ⟨plaintext, _, hDecode, ⟨rfl, rfl, rfl, ?_⟩, hEncrypt⟩
    exact UInt64.toNat_ofNat_of_lt' ((List.getElem?_eq_some_iff.mp hGet).1.trans h.log.bounded)
  · rw [h.nonces]
    refine List.Nodup.map_on ?_ nodup_range
    intro left hLeft right hRight hEq
    rw [mem_range] at hLeft hRight
    exact u64_ofNat_inj (hLeft.trans h.log.bounded) (hRight.trans h.log.bounded)
      (nonceBytes_injective hEq)

/-- A refused body between two pings takes no place. -/
theorem sequence_eq_nonce_pings :
    let ping : ChannelCall :=
      .send .livenessPing (BTreeMap.ofList [("challenge", .bytes (replicate 32 7))])
    let channel := final (step .transparent)
      (complete .initiator (.replicate 32 1) (.replicate 32 2) (.replicate 16 0))
      [ping, .send .livenessPing .empty, ping]
    channel.sendNonce? = some channel.sequence.nextSend ∧ channel.sequence.nextSend = 2 := by
  refine ⟨?_, by decide +kernel⟩
  exact (sequence_eq_nonce .transparent Aead.transparent_tagged _ _ _ _ _).1

end SecureChannel

end RefineId.Rapp
