import RefineId.Rapp.Noise

/-! The encrypted channel both engines talk through (`crates/rapp/src/crypto.rs`). -/
namespace RefineId.Rapp

open Data NoiseCipherState SequenceGuard NoiseTransport

inductive OpenError where
  | sessionIntegrityFailure
  | authenticatedProtocolViolation (error : WireError)
  deriving DecidableEq

/-- Foreign code under a channel: the authenticated cipher, and the Noise
library whose transport states carry the pairing channel. A library call
returns nothing on failure and may change its state either way. -/
structure Provider (S : Type) where
  aead : Aead
  snowWrite : S → Bytes → Nat → Option Bytes × S
  snowRead : S → Bytes → Nat → Option Bytes × S

/-- A cipher that hides nothing, and no library. -/
def Provider.transparent : Provider Unit where
  aead := .transparent
  snowWrite _ _ _ := (none, ())
  snowRead _ _ _ := (none, ())

/-- Pairing channels run on the library, session channels on `NoiseTransport`. -/
inductive TransportMode (S : Type) where
  | snow (state : S)
  | native (transport : NoiseTransport)

@[ext] structure SecureChannel (S : Type) where
  transport : TransportMode S
  sequence : SequenceGuard

variable {S : Type}

/-- Encrypt one plaintext into a buffer that holds it and its tag. -/
def TransportMode.write (provider : Provider S) (plaintext : Bytes) :
    TransportMode S → Except CryptoError Bytes × TransportMode S
  | .snow state =>
    match provider.snowWrite state plaintext (plaintext.length + noiseTagSize) with
    | (none, state) => (.error .noiseHandshake, .snow state)
    | (some output, state) => (.ok output, .snow state)
  | .native transport =>
    match transport.writeMessage provider.aead plaintext (plaintext.length + noiseTagSize) with
    | (.error _, transport) => (.error .noiseHandshake, .native transport)
    | (.ok output, transport) => (.ok output, .native transport)

/-- Decrypt one frame into a buffer of the given capacity. -/
def TransportMode.read (provider : Provider S) (frame : Bytes) (capacity : Nat) :
    TransportMode S → Option Bytes × TransportMode S
  | .snow state =>
    match provider.snowRead state frame capacity with
    | (result, state) => (result, .snow state)
  | .native transport =>
    match transport.readMessage provider.aead frame capacity with
    | (.error _, transport) => (none, .native transport)
    | (.ok plaintext, transport) => (some plaintext, .native transport)

open TransportMode

theorem TransportMode.read_native (provider : Provider S) (frame : Bytes) (capacity : Nat)
    (transport : NoiseTransport) :
    (read provider frame capacity (.native transport)).2 = .native { transport with
        receive := (transport.receive.decrypt provider.aead [] frame).2 } := by
  rw [← readMessage_state transport provider.aead frame capacity, read]
  generalize transport.readMessage provider.aead frame capacity = result
  obtain ⟨outcome, transport⟩ := result
  cases outcome <;> rfl

variable {provider : Provider S}

theorem TransportMode.read_native_some {frame plaintext capacity send key nonce}
    (h : (read provider frame capacity (.native ⟨send, ⟨some key, nonce⟩⟩)).1 =
      some plaintext) :
    ∃ following, checkedSucc nonce = some following ∧
      ((⟨some key, nonce⟩ : NoiseCipherState).decrypt provider.aead [] frame).1 = .ok plaintext ∧
      (read provider frame capacity (.native ⟨send, ⟨some key, nonce⟩⟩)).2 =
        .native ⟨send, ⟨some key, following⟩⟩ := by
  have hDecrypt :
      ((⟨some key, nonce⟩ : NoiseCipherState).decrypt provider.aead [] frame).1 = .ok plaintext := by
    rw [read, readMessage] at h
    generalize (⟨some key, nonce⟩ : NoiseCipherState).decrypt provider.aead [] frame = answer at h ⊢
    obtain ⟨_ | text, receive⟩ := answer
    · cases h
    by_cases hCapacity : capacity < text.length
    · simp [hCapacity] at h
    · simpa [hCapacity] using h
  obtain ⟨following, hSucc, hState⟩ := decrypt_ok hDecrypt
  exact ⟨following, hSucc, hDecrypt, by rw [read_native, hState]⟩

namespace SecureChannel

def complete (role : HandshakeRole) (first second : CipherKey) (sessionId : SessionId) :
    SecureChannel S :=
  ⟨.native (intoTransport role first second), SequenceGuard.new sessionId⟩

variable (channel : SecureChannel S)

def sealMessage (provider : Provider S) (messageType : MessageType)
    (body : Body) : Except CryptoError BinaryFrame × SecureChannel S :=
  match channel.sequence.sealNext messageType body .wire (write provider)
      channel.transport with
  | (.error error, sequence, transport) => (.error error, ⟨transport, sequence⟩)
  | (.ok output, sequence, transport) =>
    match BinaryFrame.reconstruct output with
    | .error error => (.error (.frame error), ⟨transport, sequence⟩)
    | .ok frame => (.ok frame, ⟨transport, sequence⟩)

/-- Decrypt, parse and sequence-check one frame. A frame that decrypts has
moved the nonce on whatever its content. -/
def openFrame (provider : Provider S) (frame : BinaryFrame) :
    Except OpenError Envelope × SecureChannel S :=
  match channel.transport.read provider frame.bytes
      (min (frame.bytes.length - noiseTagSize) maxFramePlaintext) with
  | (none, transport) => (.error .sessionIntegrityFailure, { channel with transport })
  | (some plaintext, transport) =>
    match Envelope.decode plaintext with
    | .error error => (.error (.authenticatedProtocolViolation error), { channel with transport })
    | .ok envelope =>
      match channel.sequence.acceptIncoming envelope with
      | .error error =>
        (.error (.authenticatedProtocolViolation error), { channel with transport })
      | .ok sequence => (.ok envelope, ⟨transport, sequence⟩)

theorem openFrame_sequence (provider : Provider S) (frame : BinaryFrame) :
    (channel.openFrame provider frame).2.sequence.nextSend = channel.sequence.nextSend ∧
      (channel.openFrame provider frame).2.sequence.sessionId = channel.sequence.sessionId := by
  rw [openFrame]
  split
  · exact ⟨rfl, rfl⟩
  split
  · exact ⟨rfl, rfl⟩
  split
  · exact ⟨rfl, rfl⟩
  rename_i hAccept
  obtain ⟨-, -, following, -, hNext⟩ := acceptIncoming_ok hAccept
  rw [hNext]
  exact ⟨rfl, rfl⟩

theorem openFrame_transport (provider : Provider S) (frame : BinaryFrame) :
    (channel.openFrame provider frame).2.transport = (channel.transport.read provider frame.bytes
        (min (frame.bytes.length - noiseTagSize) maxFramePlaintext)).2 := by
  rw [openFrame]
  generalize channel.transport.read provider frame.bytes _ = result
  obtain ⟨plaintext, transport⟩ := result
  cases plaintext with
  | none => rfl
  | some plaintext =>
    dsimp only
    split
    · rfl
    · split <;> rfl

/-- A native channel with both keys and all four counters spelled out. -/
def native (sendKey receiveKey : CipherKey) (sendNonce receiveNonce : UInt64)
    (sequence : SequenceGuard) : SecureChannel S :=
  ⟨.native ⟨⟨some sendKey, sendNonce⟩, ⟨some receiveKey, receiveNonce⟩⟩, sequence⟩

section Native
variable {channel : SecureChannel S} {sendKey receiveKey : CipherKey}
  {sendNonce receiveNonce : UInt64} {sequence : SequenceGuard}
  (hChannel : channel = native sendKey receiveKey sendNonce receiveNonce sequence)

include hChannel

/-- What one seal does to a native channel whose send sequence is its send
nonce: it refuses without a ciphertext and changes nothing, or both counters
move to the same next value. Sequence exhaustion is found before the cipher is called, so
the cipher never meets its own. -/
theorem sealMessage_native (hTagged : provider.aead.Tagged) (hStep : sequence.nextSend = sendNonce)
    (messageType : MessageType) (body : Body) :
    (∃ error, channel.sealMessage provider messageType body = (.error error, channel) ∧
      ∀ following plaintext, sequence.nextPlaintext messageType body = .ok (following, plaintext) →
        provider.aead.encrypt sendKey (nonceBytes sendNonce) [] plaintext = none) ∨
    ∃ following plaintext frame,
      sequence.nextPlaintext messageType body = .ok (following, plaintext) ∧
      provider.aead.encrypt sendKey (nonceBytes sendNonce) [] plaintext = some frame.bytes ∧
      channel.sealMessage provider messageType body =
        (.ok frame, native sendKey receiveKey following receiveNonce
          { sequence with nextSend := following }) := by
  subst hChannel
  cases hPlain : sequence.nextPlaintext messageType body with
  | error error =>
    refine .inl ⟨.wire error, ?_, fun following plaintext h => by cases h⟩
    simp only [sealMessage, native, sealNext, hPlain]
  | ok pair =>
    obtain ⟨following, plaintext⟩ := pair
    obtain ⟨hSucc, hEncode, -⟩ := nextPlaintext_ok hPlain
    rw [hStep] at hSucc
    cases hCipher : provider.aead.encrypt sendKey (nonceBytes sendNonce) [] plaintext with
    | none =>
      refine .inl ⟨.noiseHandshake, ?_, ?_⟩
      · simp only [sealMessage, native, sealNext, hPlain, write, writeMessage, encrypt, hCipher]
      · intro other message h
        cases h
        exact hCipher
    | some ciphertext =>
      have hLength := hTagged _ _ _ _ _ hCipher
      have hSize := (Envelope.encode_ok hEncode).2
      have hFrame : ciphertext.length ≤ maxFrameSize := by
        rw [hLength]
        exact Nat.add_le_add_right hSize noiseTagSize
      refine .inr ⟨following, plaintext, ⟨ciphertext, hFrame⟩, rfl, hCipher, ?_⟩
      simp only [sealMessage, native, sealNext, hPlain, write,
        writeMessage, encrypt, hCipher, hSucc, hLength,
        lt_irrefl, ↓reduceIte, BinaryFrame.reconstruct_of_le hFrame]

/-- Opening never touches the sending half. -/
theorem openFrame_native_send (frame : BinaryFrame) :
    ∃ nonce next, (channel.openFrame provider frame).2 =
        native sendKey receiveKey sendNonce nonce next ∧
      next.nextSend = sequence.nextSend ∧ next.sessionId = sequence.sessionId := by
  subst hChannel
  obtain ⟨nonce, hReceive⟩ := decrypt_state ⟨some receiveKey, receiveNonce⟩
    provider.aead [] frame.bytes
  have hTransport := openFrame_transport
    (native sendKey receiveKey sendNonce receiveNonce sequence) provider frame
  rw [native, read_native, hReceive] at hTransport
  refine ⟨nonce, _, SecureChannel.ext hTransport rfl, ?_⟩
  exact openFrame_sequence (native sendKey receiveKey sendNonce receiveNonce sequence) provider frame

variable {frame : BinaryFrame}

/-- A frame the cipher rejects changes nothing. -/
theorem openFrame_native_reject
    (hReject : provider.aead.decrypt receiveKey (nonceBytes receiveNonce) [] frame.bytes = none) :
    channel.openFrame provider frame = (.error .sessionIntegrityFailure, channel) := by
  subst hChannel
  simp only [openFrame, native, TransportMode.read, readMessage, decrypt, hReject, ite_self]

/-- A frame that decrypts has moved the nonce on; what becomes of the
sequence is up to its plaintext. -/
theorem openFrame_native_decrypt {plaintext following} (hDecrypt :
      provider.aead.decrypt receiveKey (nonceBytes receiveNonce) [] frame.bytes = some plaintext)
    (hLength : frame.bytes.length = plaintext.length + noiseTagSize)
    (hSucc : checkedSucc receiveNonce = some following) :
    channel.openFrame provider frame =
      match Envelope.decode plaintext with
      | .error error => (.error (.authenticatedProtocolViolation error),
          native sendKey receiveKey sendNonce following sequence)
      | .ok envelope =>
        match sequence.acceptIncoming envelope with
        | .error error => (.error (.authenticatedProtocolViolation error),
            native sendKey receiveKey sendNonce following sequence)
        | .ok sequence =>
          (.ok envelope, native sendKey receiveKey sendNonce following sequence) := by
  subst hChannel
  have hBound := frame.bounded
  have hTag : ¬frame.bytes.length < noiseTagSize := by omega
  have hRoom : ¬min (frame.bytes.length - noiseTagSize) maxFramePlaintext < plaintext.length := by
    have hMax : maxFrameSize = maxFramePlaintext + noiseTagSize := rfl
    omega
  simp only [openFrame, native, TransportMode.read, readMessage,
    decrypt, hDecrypt, hSucc, hTag, hRoom, ↓reduceIte]

end Native

end SecureChannel

end RefineId.Rapp
