import RefineId.Rapp.ChannelRun

/-! Two channels of one handshake and the network between them. The network
delivers any frame to any side at any time. The cipher is ideal: under one
key and nonce it opens exactly the ciphertext sealed there. -/
namespace RefineId.Rapp

open Data Semantics Function List SecureChannel

variable {S : Type}

/-- One channel, with everything sealed and opened on it so far. -/
structure Side (S : Type) where
  channel : SecureChannel S
  sealed : List SealedMessage
  opened : List Envelope

abbrev Link (S : Type) := HandshakeRole → Side S

inductive LinkCall where
  | send (role : HandshakeRole) (messageType : MessageType) (body : Body)
  | deliver (role : HandshakeRole) (frame : BinaryFrame)

variable {provider : Provider S} {sessionId : SessionId} {message : SealedMessage} {next : Side S}

namespace Side

variable (side : Side S)

def send (provider : Provider S) (messageType : MessageType) (body : Body) :
    ChannelReply × Side S :=
  match side.channel.sealMessage provider messageType body with
  | (.error error, channel) => (.sent (.error error), { side with channel })
  | (.ok frame, channel) =>
    (.sent (.ok frame),
      { side with channel, sealed := side.sealed ++ [⟨messageType, body, frame⟩] })

def deliver (provider : Provider S) (frame : BinaryFrame) : ChannelReply × Side S :=
  match side.channel.openFrame provider frame with
  | (.error error, channel) => (.delivered (.error error), { side with channel })
  | (.ok envelope, channel) =>
    (.delivered (.ok envelope), { side with channel, opened := side.opened ++ [envelope] })

/-- The counts of sealed and opened messages determine the channel. -/
def InStep (sendKey receiveKey : CipherKey) (sessionId : SessionId) : Prop :=
  side.channel = SecureChannel.native sendKey receiveKey
    (UInt64.ofNat side.sealed.length) (UInt64.ofNat side.opened.length)
    ⟨sessionId, UInt64.ofNat side.sealed.length, UInt64.ofNat side.opened.length⟩

structure Follows (side other : Side S) (sessionId : SessionId) : Prop where
  behind : side.opened.length ≤ other.sealed.length
  carried : ∀ index envelope, side.opened[index]? = some envelope →
    ∃ message, other.sealed[index]? = some message ∧
      SealedMessage.CarriedBy message sessionId index envelope

section Step
variable {side other : Side S} {sendKey receiveKey : CipherKey}

theorem deliver_next (hTagged : provider.aead.Tagged)
    (hStep : side.InStep sendKey receiveKey sessionId)
    (hSealed : SealedLog provider.aead receiveKey sessionId other.sealed)
    (hGet : other.sealed[side.opened.length]? = some message)
    (hDecrypt : ∀ plaintext,
      provider.aead.encrypt receiveKey (nonceBytes (UInt64.ofNat side.opened.length)) [] plaintext =
        some message.frame.bytes →
      provider.aead.decrypt receiveKey (nonceBytes (UInt64.ofNat side.opened.length)) []
        message.frame.bytes = some plaintext) :
    ∃ envelope next, message.CarriedBy sessionId side.opened.length envelope ∧
      side.deliver provider message.frame = (.delivered (.ok envelope), next) ∧
      next.InStep sendKey receiveKey sessionId ∧ next.sealed = side.sealed ∧
      next.opened = side.opened ++ [envelope] := by
  have hPlace : side.opened.length < other.sealed.length := (List.getElem?_eq_some_iff.mp hGet).1
  have hBound := hSealed.bounded
  obtain ⟨plaintext, hDecode, hEncrypt⟩ := hSealed.plaintext _ _ hGet
  have hSucc := checkedSucc_ofNat_of_lt (show side.opened.length + 1 < 2 ^ 64 by omega)
  have hOpen := openFrame_native_decrypt hStep (hDecrypt plaintext hEncrypt)
    (hTagged _ _ _ _ _ hEncrypt) hSucc
  simp only [hDecode, SequenceGuard.acceptIncoming, hSucc, ne_eq, not_true_eq_false,
    ↓reduceIte] at hOpen
  refine ⟨⟨message.messageType, sessionId, UInt64.ofNat side.opened.length, message.body⟩,
    ⟨(side.channel.openFrame provider message.frame).2, side.sealed, side.opened ++ [_]⟩,
    ⟨rfl, rfl, rfl, ?_⟩, ?_, ?_, rfl, rfl⟩
  · exact UInt64.toNat_ofNat_of_lt' (hPlace.trans hBound)
  · simp only [deliver, hOpen]
  · simp only [InStep, hOpen, length_append, length_singleton]

/-- Further sealing on the other side changes nothing in what was opened. -/
theorem Follows.mono {later} (h : side.Follows other sessionId)
    (hGrow : other.sealed <+: later.sealed) : side.Follows later sessionId where
  behind := h.behind.trans hGrow.length_le
  carried index envelope hGet := by
    obtain ⟨message, hMessage, hCarried⟩ := h.carried index envelope hGet
    obtain ⟨rest, hRest⟩ := hGrow
    have hIndex := (List.getElem?_eq_some_iff.mp hMessage).1
    exact ⟨message, by rw [← hRest, List.getElem?_append_left hIndex, hMessage], hCarried⟩

theorem Follows.append (h : side.Follows other sessionId) {envelope}
    (hGet : other.sealed[side.opened.length]? = some message)
    (hCarried : message.CarriedBy sessionId side.opened.length envelope)
    (hNext : next.opened = side.opened ++ [envelope]) : next.Follows other sessionId where
  behind := by
    rw [hNext, length_append]
    exact (List.getElem?_eq_some_iff.mp hGet).1
  carried index opened hOpened := by
    rw [hNext] at hOpened
    rcases getElem?_append_singleton.mp hOpened with hOld | ⟨rfl, rfl⟩
    · exact h.carried index opened hOld
    · exact ⟨message, hGet, hCarried⟩

end Step

end Side

namespace Link

def start (first second : CipherKey) (sessionId : SessionId) : Link S := fun role =>
  ⟨SecureChannel.complete role first second sessionId, [], []⟩

/-- Ciphertexts of one side, each with the key and nonce it was made under. -/
def recordedBy (link : Link S) (first second : CipherKey) (role : HandshakeRole) :
    List (CipherKey × Bytes × Bytes) :=
  (link role).sealed.zipIdx.map fun (message, index) =>
    (sendKey first second role, nonceBytes (UInt64.ofNat index), message.frame.bytes)

/-- The provider whose cipher opens only what the two sides have sealed. -/
def ideal (link : Link S) (provider : Provider S) (first second : CipherKey) : Provider S :=
  { provider with
    aead := provider.aead.restrictedTo
      (link.recordedBy first second .initiator ++ link.recordedBy first second .responder) }

def step (provider : Provider S) (first second : CipherKey) (link : Link S) :
    LinkCall → ChannelReply × Link S
  | .send role messageType body =>
    match (link role).send (link.ideal provider first second) messageType body with
    | (reply, side) => (reply, Function.update link role side)
  | .deliver role frame =>
    match (link role).deliver (link.ideal provider first second) frame with
    | (reply, side) => (reply, Function.update link role side)

/-- Both sides in step, each following the other. -/
structure Agrees (provider : Provider S) (first second : CipherKey) (sessionId : SessionId)
    (link : Link S) : Prop where
  inStep : ∀ role, (link role).InStep (sendKey first second role) (sendKey first second role.peer)
    sessionId
  sealed : ∀ role, SealedLog provider.aead (sendKey first second role) sessionId (link role).sealed
  follows : ∀ role, (link role).Follows (link role.peer) sessionId

section Run
variable {first second : CipherKey} {link : Link S}

theorem start_agrees : Agrees provider first second sessionId (start first second sessionId) where
  inStep role := by cases role <;> rfl
  sealed _ := SealedLog.nil
  follows _ := ⟨by simp [start], fun index envelope h => by simp [start] at h⟩

variable {role : HandshakeRole}

/-- Replacing one side by a later one keeps agreement. -/
theorem Agrees.update (h : Agrees provider first second sessionId link)
    (hStep : next.InStep (sendKey first second role) (sendKey first second role.peer) sessionId)
    (hSealed : SealedLog provider.aead (sendKey first second role) sessionId next.sealed)
    (hGrow : (link role).sealed <+: next.sealed)
    (hFollows : next.Follows (link role.peer) sessionId) :
    Agrees provider first second sessionId (Function.update link role next) := by
  have hPeer : role.peer ≠ role := by cases role <;> decide
  have hOther : ∀ other, other ≠ role → other = role.peer := by
    intro other hNe
    cases role <;> cases other <;> first | rfl | exact absurd rfl hNe
  have hBack : role.peer.peer = role := by cases role <;> rfl
  constructor
  case inStep =>
    intro other
    by_cases hRole : other = role
    · subst hRole
      rwa [update_self]
    · rw [update_of_ne hRole]
      exact h.inStep other
  case sealed =>
    intro other
    by_cases hRole : other = role
    · subst hRole
      rwa [update_self]
    · rw [update_of_ne hRole]
      exact h.sealed other
  case follows =>
    intro other
    by_cases hRole : other = role
    · subst hRole
      rwa [update_self, update_of_ne hPeer]
    obtain rfl := hOther other hRole
    rw [update_of_ne hRole, hBack, update_self]
    have hSide := h.follows role.peer
    rw [hBack] at hSide
    exact hSide.mono hGrow

theorem sendKey_injective (hKeys : first ≠ second) : Function.Injective (sendKey first second) := by
  intro left right h
  cases left <;> cases right
  · rfl
  · exact absurd h hKeys
  · exact absurd h.symm hKeys
  · rfl

theorem mem_recordedBy {key nonce ciphertext} :
    (key, nonce, ciphertext) ∈ link.recordedBy first second role ↔
      ∃ index message, (link role).sealed[index]? = some message ∧
        key = sendKey first second role ∧ nonce = nonceBytes (UInt64.ofNat index) ∧
        ciphertext = message.frame.bytes := by
  simp only [recordedBy, mem_map, Prod.exists, mem_zipIdx_iff_getElem?, Prod.mk.injEq]
  constructor
  · rintro ⟨message, index, hGet, rfl, rfl, rfl⟩
    exact ⟨index, message, hGet, rfl, rfl, rfl⟩
  · rintro ⟨index, message, hGet, rfl, rfl, rfl⟩
    exact ⟨message, index, hGet, rfl, rfl, rfl⟩

/-- Every ciphertext the cipher may open was sealed by one of the sides. -/
theorem mem_recorded {entry} :
    entry ∈ link.recordedBy first second .initiator ++ link.recordedBy first second .responder ↔
      ∃ role, entry ∈ link.recordedBy first second role := by
  rw [mem_append]
  constructor
  · rintro (h | h)
    · exact ⟨.initiator, h⟩
    · exact ⟨.responder, h⟩
  · rintro ⟨role, h⟩
    cases role with
    | initiator => exact .inl h
    | responder => exact .inr h

/-- At one side's next nonce the cipher opens only the frame the peer sealed
there. -/
theorem ideal_decrypt_some (hKeys : first ≠ second)
    (h : Agrees provider first second sessionId link) {ciphertext plaintext}
    (hDecrypt : (link.ideal provider first second).aead.decrypt (sendKey first second role.peer)
      (nonceBytes (UInt64.ofNat (link role).opened.length)) [] ciphertext = some plaintext) :
    ∃ message, (link role.peer).sealed[(link role).opened.length]? = some message ∧
      ciphertext = message.frame.bytes := by
  simp only [ideal, Aead.restrictedTo] at hDecrypt
  split at hDecrypt
  · rename_i hRecorded
    obtain ⟨sender, hSender⟩ := mem_recorded.mp hRecorded
    obtain ⟨index, message, hGet, hKey, hNonce, hFrame⟩ := mem_recordedBy.mp hSender
    have hRole : role.peer = sender := sendKey_injective hKeys hKey
    subst hRole
    have hBound := (h.sealed role.peer).bounded
    have hIndex : index < 2 ^ 64 := (List.getElem?_eq_some_iff.mp hGet).1.trans hBound
    have hCount : (link role).opened.length < 2 ^ 64 := (h.follows role).behind.trans_lt hBound
    rw [u64_ofNat_inj hCount hIndex (nonceBytes_injective hNonce)]
    exact ⟨message, hGet, hFrame⟩
  · cases hDecrypt

section
variable (hCorrect : provider.aead.Correct)
include hCorrect

/-- A delivery is the next frame in order, and opens to the message sealed in
it, or it is any other frame, and changes nothing. -/
theorem deliver_cases (hTagged : provider.aead.Tagged)
    (hKeys : first ≠ second) (h : Agrees provider first second sessionId link)
    (role : HandshakeRole) (frame : BinaryFrame) :
    (∃ message envelope next,
      (link role.peer).sealed[(link role).opened.length]? = some message ∧ message.frame = frame ∧
      message.CarriedBy sessionId (link role).opened.length envelope ∧
      step provider first second link (.deliver role frame) =
        (.delivered (.ok envelope), Function.update link role next) ∧
      next.InStep (sendKey first second role) (sendKey first second role.peer) sessionId ∧
      next.sealed = (link role).sealed ∧ next.opened = (link role).opened ++ [envelope]) ∨
    ((∀ message, (link role.peer).sealed[(link role).opened.length]? = some message →
        message.frame ≠ frame) ∧
      step provider first second link (.deliver role frame) =
        (.delivered (.error .sessionIntegrityFailure), link)) := by
  by_cases hNext : ∃ message, (link role.peer).sealed[(link role).opened.length]? = some message ∧
      message.frame = frame
  · obtain ⟨message, hGet, rfl⟩ := hNext
    have hIdeal : (link.ideal provider first second).aead.Tagged := hTagged
    have hSealed : SealedLog (link.ideal provider first second).aead
        (sendKey first second role.peer) sessionId (link role.peer).sealed :=
      ⟨(h.sealed role.peer).bounded, (h.sealed role.peer).plaintext⟩
    obtain ⟨envelope, next, hCarried, hDeliver, hStep, hSame, hOpened⟩ :=
      Side.deliver_next hIdeal (h.inStep role) hSealed hGet fun plaintext hEncrypt => by
        have hEntry : (sendKey first second role.peer,
            nonceBytes (UInt64.ofNat (link role).opened.length), message.frame.bytes) ∈
              link.recordedBy first second role.peer :=
          mem_recordedBy.mpr ⟨_, message, hGet, rfl, rfl, rfl⟩
        simp only [ideal, Aead.restrictedTo, mem_recorded.mpr ⟨role.peer, hEntry⟩, ↓reduceIte]
        exact hCorrect _ _ _ _ _ hEncrypt
    refine .inl ⟨message, envelope, next, hGet, rfl, hCarried, ?_, hStep, hSame, hOpened⟩
    simp only [step, hDeliver]
  have hReject : (link.ideal provider first second).aead.decrypt
      (sendKey first second role.peer) (nonceBytes (UInt64.ofNat (link role).opened.length)) []
      frame.bytes = none := by
    cases hDecrypt : (link.ideal provider first second).aead.decrypt
        (sendKey first second role.peer) (nonceBytes (UInt64.ofNat (link role).opened.length)) []
        frame.bytes with
    | none => rfl
    | some plaintext =>
      obtain ⟨message, hGet, hFrame⟩ := ideal_decrypt_some hKeys h hDecrypt
      exact False.elim (hNext ⟨message, hGet, BinaryFrame.ext hFrame.symm⟩)
  refine .inr ⟨fun message hGet hFrame => hNext ⟨message, hGet, hFrame⟩, ?_⟩
  simp only [step, Side.deliver, openFrame_native_reject (h.inStep role) hReject, update_eq_self]

/-- Agreement survives every call on either side. -/
theorem step_agrees (hTagged : provider.aead.Tagged)
    (hKeys : first ≠ second) (h : Agrees provider first second sessionId link) (call : LinkCall) :
    Agrees provider first second sessionId (step provider first second link call).2 := by
  cases call with
  | send role messageType body =>
    have hIdeal : (link.ideal provider first second).aead.Tagged := hTagged
    have hSealed : SealedLog (link.ideal provider first second).aead
        (sendKey first second role) sessionId (link role).sealed :=
      ⟨(h.sealed role).bounded, (h.sealed role).plaintext⟩
    -- A refused message leaves the side as it was; a sealed one takes the next place.
    rcases sealMessage_native (h.inStep role) hIdeal rfl messageType body with
      ⟨error, hSeal, -⟩ | ⟨following, plaintext, frame, hPlain, hEncrypt, hSeal⟩
    · simp only [step, Side.send, hSeal, update_eq_self]
      exact h
    obtain ⟨rfl, hLog⟩ := hSealed.append rfl rfl hPlain hEncrypt
    simp only [step, Side.send, hSeal]
    refine h.update ?_ ⟨hLog.bounded, hLog.plaintext⟩ (prefix_append _ _)
      ⟨(h.follows role).behind, (h.follows role).carried⟩
    simp only [Side.InStep, length_append, length_singleton]
  | deliver role frame =>
    rcases deliver_cases hCorrect hTagged hKeys h role frame with
      ⟨message, envelope, next, hGet, -, hCarried, hDeliver, hStep, hSame, hOpened⟩ | ⟨-, hDeliver⟩
    · rw [hDeliver]
      refine h.update hStep ?_ (hSame ▸ prefix_rfl) ((h.follows role).append hGet hCarried hOpened)
      exact hSame ▸ h.sealed role
    · rw [hDeliver]
      exact h

end

end Run

/-- In every run of the two channels and the network, what a side has opened
so far is, place by place, what its peer sealed. The next frame in order
opens to its message, numbered by the messages before it; every other frame,
be it replayed, skipped to, reordered, altered or the side's own, is refused. -/
theorem channels_agree (provider : Provider S) (hCorrect : provider.aead.Correct)
    (hTagged : provider.aead.Tagged) (first second : CipherKey) (hKeys : first ≠ second)
    (sessionId : SessionId) (calls : List LinkCall) (role : HandshakeRole) :
    let link := final (step provider first second) (start first second sessionId) calls
    let place := (link role).opened.length
    (∀ index envelope, (link role).opened[index]? = some envelope →
      ∃ message : SealedMessage, (link role.peer).sealed[index]? = some message ∧
        message.CarriedBy sessionId index envelope) ∧
    (∀ message : SealedMessage, (link role.peer).sealed[place]? = some message →
      ∃ envelope, message.CarriedBy sessionId place envelope ∧
        (step provider first second link (.deliver role message.frame)).1 =
          .delivered (.ok envelope)) ∧
    (∀ frame, (∀ message, (link role.peer).sealed[place]? = some message → message.frame ≠ frame) →
      ∃ error, (step provider first second link (.deliver role frame)).1 =
        .delivered (.error error)) := by
  intro link place
  have h : Agrees provider first second sessionId link :=
    final_invariant _ start_agrees (fun _ call h => step_agrees hCorrect hTagged hKeys h call) calls
  refine ⟨(h.follows role).carried, ?_, ?_⟩
  · intro message hGet
    rcases deliver_cases hCorrect hTagged hKeys h role message.frame with
      ⟨other, envelope, next, hOther, -, hCarried, hDeliver, -⟩ | ⟨hNone, -⟩
    · obtain rfl := Option.some.inj (hOther.symm.trans hGet)
      exact ⟨envelope, hCarried, congrArg Prod.fst hDeliver⟩
    · exact absurd rfl (hNone message hGet)
  · intro frame hOther
    rcases deliver_cases hCorrect hTagged hKeys h role frame with
      ⟨message, -, -, hGet, hFrame, -⟩ | ⟨-, hDeliver⟩
    · exact absurd hFrame (hOther message hGet)
    · exact ⟨_, congrArg Prod.fst hDeliver⟩

/-- One ping sealed by the initiator opens at the responder. -/
theorem channels_agree_ping :
    let link := final (step .transparent (.replicate 32 1) (.replicate 32 2))
      (start (.replicate 32 1) (.replicate 32 2) (.replicate 16 0))
      [.send .initiator .livenessPing (BTreeMap.ofList [("challenge", .bytes (replicate 32 7))])]
    ∃ message : SealedMessage, (link .initiator).sealed[0]? = some message ∧
      ∃ envelope, message.CarriedBy (.replicate 16 0) 0 envelope ∧
        (step .transparent (.replicate 32 1) (.replicate 32 2) link
          (.deliver .responder message.frame)).1 = .delivered (.ok envelope) := by
  intro link
  obtain ⟨message, hGet⟩ : ∃ message, (link .initiator).sealed[0]? = some message :=
    Option.isSome_iff_exists.mp (by decide +kernel)
  have hPlace : (link .responder).opened.length = 0 := by decide +kernel
  have hNext := (channels_agree .transparent Aead.transparent_correct Aead.transparent_tagged
    (.replicate 32 1) (.replicate 32 2) (by decide) (.replicate 16 0)
    [.send .initiator .livenessPing (BTreeMap.ofList [("challenge", .bytes (replicate 32 7))])]
    .responder).2.1 message
  rw [hPlace] at hNext
  exact ⟨message, hGet, hNext hGet⟩

end Link

end RefineId.Rapp
