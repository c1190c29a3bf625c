import RefineId.Rapp.Wire.Sequence

/-! Transport cipher states of the session handshake (`crates/rapp/src/noise.rs`).
The authenticated cipher itself is a parameter; what is assumed of it is
named where it is used. -/
namespace RefineId.Rapp

open Data

inductive CryptoError where
  | configuration
  | invalidKeyLength
  | noiseHandshake
  | nonEmptyHandshakePayload
  | handshakeIncomplete
  | missingRemoteStatic
  | frame (error : FrameError)
  | wire (error : WireError)
  deriving DecidableEq

abbrev CipherKey := FixedBytes 32

/-- Authenticated encryption with associated data: key, nonce, associated
data, then the message. -/
structure Aead where
  encrypt : CipherKey → Bytes → Bytes → Bytes → Option Bytes
  decrypt : CipherKey → Bytes → Bytes → Bytes → Option Bytes

namespace Aead

variable (aead : Aead)

/-- Decryption undoes encryption under the same key, nonce and data. -/
def Correct : Prop :=
  ∀ key nonce ad plaintext ciphertext, aead.encrypt key nonce ad plaintext = some ciphertext →
    aead.decrypt key nonce ad ciphertext = some plaintext

def Tagged : Prop :=
  ∀ key nonce ad plaintext ciphertext, aead.encrypt key nonce ad plaintext = some ciphertext →
    ciphertext.length = plaintext.length + noiseTagSize

/-- The cipher that opens nothing but recorded ciphertexts, each under its own
key and nonce. -/
def restrictedTo (recorded : List (CipherKey × Bytes × Bytes)) : Aead where
  encrypt := aead.encrypt
  decrypt key nonce ad ciphertext :=
    if (key, nonce, ciphertext) ∈ recorded then aead.decrypt key nonce ad ciphertext else none

/-- The cipher that hides nothing and adds an empty tag. It keeps the two
promises above and no other. -/
def transparent : Aead where
  encrypt _ _ _ plaintext := some (plaintext ++ List.replicate noiseTagSize 0)
  decrypt _ _ _ ciphertext := some (ciphertext.take (ciphertext.length - noiseTagSize))

theorem transparent_correct : transparent.Correct := by
  intro key nonce ad plaintext ciphertext h
  cases h
  simp [transparent]

theorem transparent_tagged : transparent.Tagged := by
  intro key nonce ad plaintext ciphertext h
  cases h
  simp

end Aead

/-- A 96-bit nonce: four zero bytes and the counter, little endian. -/
def nonceBytes (nonce : UInt64) : Bytes :=
  List.replicate 4 0 ++ leBytes 8 nonce.toNat

theorem nonceBytes_injective : Function.Injective nonceBytes := by
  intro left right h
  have hBytes : leBytes 8 left.toNat = leBytes 8 right.toNat := List.append_cancel_left h
  exact UInt64.toNat_inj.mp (beBytes_injective left.toNat_lt right.toNat_lt
    (List.reverse_injective hBytes))

/-- One direction of a channel. Without a key it passes data through. -/
structure NoiseCipherState where
  key : Option CipherKey
  nonce : UInt64

namespace NoiseCipherState

def new : NoiseCipherState :=
  ⟨none, 0⟩

def initializeKey (_ : NoiseCipherState) (key : CipherKey) : NoiseCipherState :=
  ⟨some key, 0⟩

/-- Encrypt at the current nonce. The last counter value still encrypts but
the counter cannot advance past it, and the ciphertext is withheld. -/
def encrypt (state : NoiseCipherState) (aead : Aead) (ad plaintext : Bytes) :
    Except CryptoError Bytes × NoiseCipherState :=
  match state.key with
  | none => (.ok plaintext, state)
  | some key =>
    match aead.encrypt key (nonceBytes state.nonce) ad plaintext with
    | none => (.error .noiseHandshake, state)
    | some ciphertext =>
      match checkedSucc state.nonce with
      | none => (.error .noiseHandshake, state)
      | some next => (.ok ciphertext, { state with nonce := next })

def decrypt (state : NoiseCipherState) (aead : Aead) (ad ciphertext : Bytes) :
    Except CryptoError Bytes × NoiseCipherState :=
  match state.key with
  | none => (.ok ciphertext, state)
  | some key =>
    if ciphertext.length < noiseTagSize then (.error .noiseHandshake, state)
    else
      match aead.decrypt key (nonceBytes state.nonce) ad ciphertext with
      | none => (.error .noiseHandshake, state)
      | some plaintext =>
        match checkedSucc state.nonce with
        | none => (.error .noiseHandshake, state)
        | some next => (.ok plaintext, { state with nonce := next })

/-- Decryption changes nothing but the nonce. -/
theorem decrypt_state (state : NoiseCipherState) (aead : Aead) (ad ciphertext : Bytes) :
    ∃ nonce, (state.decrypt aead ad ciphertext).2 = ⟨state.key, nonce⟩ := by
  rw [decrypt]
  repeat' split
  all_goals exact ⟨_, rfl⟩

variable {aead : Aead} {key : CipherKey} {nonce : UInt64}

theorem encrypt_ok {ad plaintext ciphertext}
    (h : ((⟨some key, nonce⟩ : NoiseCipherState).encrypt aead ad plaintext).1 = .ok ciphertext) :
    ∃ following, aead.encrypt key (nonceBytes nonce) ad plaintext = some ciphertext ∧
      checkedSucc nonce = some following := by
  simp only [encrypt] at h
  split at h
  · cases h
  split at h
  · cases h
  rename_i hCipher _ following hSucc
  cases h
  exact ⟨following, hCipher, hSucc⟩

/-- A decryption that succeeds has moved the nonce on by one. -/
theorem decrypt_ok {ad ciphertext plaintext}
    (h : ((⟨some key, nonce⟩ : NoiseCipherState).decrypt aead ad ciphertext).1 = .ok plaintext) :
    ∃ following, checkedSucc nonce = some following ∧
      ((⟨some key, nonce⟩ : NoiseCipherState).decrypt aead ad ciphertext).2 =
        ⟨some key, following⟩ := by
  revert h
  simp only [decrypt]
  repeat' split
  all_goals intro h
  all_goals first
    | exact ⟨_, ‹_›, rfl⟩
    | cases h

end NoiseCipherState

structure NoiseTransport where
  send : NoiseCipherState
  receive : NoiseCipherState

namespace NoiseTransport

variable (transport : NoiseTransport)

/-- Encrypt into a buffer of the given capacity. The nonce has advanced even
when the buffer turns out to be too small. -/
def writeMessage (aead : Aead) (payload : Bytes) (capacity : Nat) :
    Except CryptoError Bytes × NoiseTransport :=
  match transport.send.encrypt aead [] payload with
  | (.error error, send) => (.error error, { transport with send })
  | (.ok ciphertext, send) =>
    if capacity < ciphertext.length then (.error .noiseHandshake, { transport with send })
    else (.ok ciphertext, { transport with send })

def readMessage (aead : Aead) (payload : Bytes) (capacity : Nat) :
    Except CryptoError Bytes × NoiseTransport :=
  match transport.receive.decrypt aead [] payload with
  | (.error error, receive) => (.error error, { transport with receive })
  | (.ok plaintext, receive) =>
    if capacity < plaintext.length then (.error .noiseHandshake, { transport with receive })
    else (.ok plaintext, { transport with receive })

/-- Reading touches nothing but the receiving half. -/
theorem readMessage_state (aead : Aead) (payload : Bytes) (capacity : Nat) :
    (transport.readMessage aead payload capacity).2 =
      { transport with receive := (transport.receive.decrypt aead [] payload).2 } := by
  rw [readMessage]
  generalize transport.receive.decrypt aead [] payload = result
  obtain ⟨outcome, receive⟩ := result
  cases outcome with
  | error error => rfl
  | ok plaintext =>
    dsimp only
    split <;> rfl

end NoiseTransport

inductive HandshakeRole where
  | initiator
  | responder
  deriving DecidableEq

def HandshakeRole.peer : HandshakeRole → HandshakeRole
  | initiator => responder
  | responder => initiator

open NoiseCipherState

/-- Transport states from the two keys split off a finished handshake: the
initiator sends under the first and receives under the second. -/
def intoTransport (role : HandshakeRole) (first second : CipherKey) : NoiseTransport :=
  match role with
  | .initiator =>
    ⟨new.initializeKey first, new.initializeKey second⟩
  | .responder =>
    ⟨new.initializeKey second, new.initializeKey first⟩

def sendKey (first second : CipherKey) : HandshakeRole → CipherKey
  | .initiator => first
  | .responder => second

end RefineId.Rapp
