import RefineId.Rapp.Wire.Envelope

/-! Directional sequence numbers of a channel. -/
namespace RefineId.Rapp

open Data

/-- The next legal sequence number in each direction of one channel. -/
structure SequenceGuard where
  sessionId : SessionId
  nextSend : UInt64
  nextReceive : UInt64

namespace SequenceGuard

def new (sessionId : SessionId) : SequenceGuard :=
  ⟨sessionId, 0, 0⟩

/-- What `seal_next` hands to its encryption: the plaintext of the message at
the next sequence, with the sequence that follows once it is sealed. -/
def nextPlaintext (guard : SequenceGuard) (messageType : MessageType) (body : Body) :
    Except WireError (UInt64 × Bytes) :=
  match checkedSucc guard.nextSend with
  | none => .error .sequenceWrapped
  | some following => do
      let envelope ← Envelope.reconstruct messageType guard.sessionId guard.nextSend body
      let plaintext ← envelope.encode
      .ok (following, plaintext)

/-- Seal the next message. The sequence advances only when encryption, which
has a state of its own, succeeds. -/
def sealNext {ε τ σ : Type} (guard : SequenceGuard) (messageType : MessageType) (body : Body)
    (fromWire : WireError → ε) (encrypt : Bytes → σ → Except ε τ × σ) (cipher : σ) :
    Except ε τ × SequenceGuard × σ :=
  match guard.nextPlaintext messageType body with
  | .error error => (.error (fromWire error), guard, cipher)
  | .ok (following, plaintext) =>
    match encrypt plaintext cipher with
    | (.error error, cipher) => (.error error, guard, cipher)
    | (.ok sealed, cipher) => (.ok sealed, { guard with nextSend := following }, cipher)

def acceptIncoming (guard : SequenceGuard) (envelope : Envelope) : Except WireError SequenceGuard :=
  if envelope.sessionId ≠ guard.sessionId then .error .wrongSession
  else if envelope.sequence ≠ guard.nextReceive then
    .error (.wrongSequence guard.nextReceive envelope.sequence)
  else
    match checkedSucc guard.nextReceive with
    | none => .error .sequenceWrapped
    | some following => .ok { guard with nextReceive := following }

variable {guard : SequenceGuard}

/-- The plaintext of a message is the encoding of its envelope, and decodes
to it. -/
theorem nextPlaintext_ok {messageType : MessageType} {body following plaintext} (h : guard.nextPlaintext messageType body = .ok (following, plaintext)) :
    checkedSucc guard.nextSend = some following ∧
      Envelope.encode ⟨messageType, guard.sessionId, guard.nextSend, body⟩ = .ok plaintext ∧
      Envelope.decode plaintext = .ok ⟨messageType, guard.sessionId, guard.nextSend, body⟩ := by
  rw [nextPlaintext] at h
  cases hSucc : checkedSucc guard.nextSend with
  | none =>
    rw [hSucc] at h
    cases h
  | some next =>
    simp only [hSucc] at h
    obtain ⟨envelope, hEnvelope, h⟩ := bind_eq_ok.mp h
    obtain ⟨encoded, hEncoded, h⟩ := bind_eq_ok.mp h
    cases h
    obtain ⟨⟨⟩, hBody, hValid⟩ := bind_eq_ok.mp hEnvelope
    cases hValid
    exact ⟨rfl, hEncoded, Envelope.decode_of_encode hBody hEncoded⟩

variable {envelope : Envelope}

theorem acceptIncoming_ok {next} (h : guard.acceptIncoming envelope = .ok next) :
    envelope.sessionId = guard.sessionId ∧ envelope.sequence = guard.nextReceive ∧
      ∃ following, checkedSucc guard.nextReceive = some following ∧
        next = { guard with nextReceive := following } := by
  rw [acceptIncoming] at h
  split at h
  · cases h
  rename_i hSession
  split_ifs at h with hSequence
  split at h
  · cases h
  rename_i following hFollowing
  cases h
  exact ⟨not_not.mp hSession, not_not.mp hSequence, following, hFollowing, rfl⟩

theorem acceptIncoming_error {error} (h : guard.acceptIncoming envelope = .error error) :
    (envelope.sessionId = guard.sessionId && envelope.sequence = guard.nextReceive) = false ∨
      checkedSucc guard.nextReceive = none := by
  rw [acceptIncoming] at h
  split at h
  · rename_i hSession
    exact .inl (by simp [hSession])
  split at h
  · rename_i hSequence
    exact .inl (by simp [hSequence])
  · split at h
    · exact .inr ‹_›
    · cases h

end SequenceGuard

end RefineId.Rapp
