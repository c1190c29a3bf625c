import RefineId.Pace.SecureChannel

/-! READ BINARY over secure messaging against a card that keeps elementary
files: what the two fragments of an overlong read address, and when they
answer as one read would. -/
namespace RefineId.Pace

open Data Apdu Semantics List Nat Option ResponseApdu ReadBinaryOffset ReadBinary StatusWord CommandApdu

inductive FileRef where
  | current
  | sfi (number : UInt8)
  deriving DecidableEq

structure Address where
  file : FileRef
  offset : Nat
  deriving DecidableEq

/-- What P1 and P2 of a READ BINARY address, by the coding table of the card. -/
def addressOf (p1 p2 : UInt8) : Address :=
  if p1 &&& 0x80 = 0 then ⟨.current, (u16FromBytes p1 p2).toNat⟩
  else ⟨.sfi (p1 &&& 0x1F), p2.toNat⟩

def readAddress : ReadBinaryOffset → Address
  | .direct offset => ⟨.current, offset.offset.toNat⟩
  | .bySfi sfi offset => ⟨.sfi sfi.value, offset.toNat⟩

/-- The elementary files of a card. A read past the end is answered with the
end-of-file status or as a success. -/
structure FileCard where
  current : Bytes
  bySfi : UInt8 → Option Bytes
  warnsShort : Bool

namespace FileCard
variable (card : FileCard)

def content : FileRef → Option Bytes
  | .current => some card.current
  | .sfi number => card.bySfi number

def readAt (address : Address) (count : Nat) : ResponseApdu :=
  match card.content address.file with
  | none => ⟨[], 0x6A, 0x82⟩
  | some content =>
    if content.length ≤ address.offset then ⟨[], 0x6B, 0x00⟩
    else
      let body := (content.drop address.offset).take count
      if body.length < count ∧ card.warnsShort then ⟨body, 0x62, 0x82⟩
      else ⟨body, 0x90, 0x00⟩

def available (address : Address) : Nat :=
  ((card.content address.file).map fun content => content.length - address.offset).getD 0

def answer (command : ReceivedCommand) : ResponseApdu :=
  if command.header.instruction = ins then
    match command.le with
    | some le => card.readAt (addressOf command.header.p1 command.header.p2) (leBytesRequested le)
    | none => ⟨[], 0x67, 0x00⟩
  else ⟨[], 0x6D, 0x00⟩

end FileCard

/-- The two status words that readers of a file take for a success. -/
def accepted (response : ResponseApdu) : Bool :=
  match response.statusWord with
  | .success => true
  | .endOfFile => true
  | _ => false

variable (body : Bytes)

/-- Only the status counts. -/
theorem accepted_mk (response : ResponseApdu) :
    accepted ⟨body, response.sw1, response.sw2⟩ = accepted response :=
  rfl

variable {E : Type}

section Peer
variable (aes : Aes) (application : ReceivedCommand → ResponseApdu)

def InnerCall.wire : InnerCall → Bytes
  | .transmit command => command.bytes
  | .transmitCredential command => command.wire

/-- A card behind secure messaging: it opens the command, lets its application
answer, and protects the answer. -/
def cardPeer (channel : SmTransport) (call : InnerCall) : Except E TransportOutcome × SmTransport :=
  match call.wire with
  | class_ :: instruction :: p1 :: p2 :: rest =>
    if class_ ≠ ApduClass.secureMessaging.asByte then (.ok (.response ⟨[], 0x6E, 0x00⟩), channel)
    else
      match decodeShortApdu (class_ :: instruction :: p1 :: p2 :: rest) with
      | none => (.ok (.response ⟨[], 0x67, 0x00⟩), channel)
      | some (body, _) =>
        match (channel.receive aes ⟨.secureMessaging, instruction, p1, p2⟩ body :
            Except (SmError E) _ × SmTransport) with
        | (.error _, channel) => (.ok (.response ⟨[], 0x69, 0x88⟩), channel)
        | (.ok received, channel) =>
          match (channel.respond aes instruction (application received) :
              Except (SmError E) _ × SmTransport) with
          | (.error _, channel) => (.ok (.response ⟨[], 0x6F, 0x00⟩), channel)
          | (.ok response, channel) => (.ok (.response ⟨response, 0x90, 0x00⟩), channel)
  | _ => (.ok (.response ⟨[], 0x67, 0x00⟩), channel)

end Peer

section Single
variable {aes : Aes} {application : ReceivedCommand → ResponseApdu}

theorem decodeShortApdu_case4 (class_ instruction p1 p2 le : UInt8) {body}
    (hSome : body ≠ []) (hShort : body.length ≤ 255) :
    decodeShortApdu (class_ :: instruction :: p1 :: p2 :: UInt8.ofNat body.length ::
      (body ++ [le])) = some (body, some le) := by
  have hPos := length_pos_iff.mpr hSome
  have hLc : (UInt8.ofNat body.length).toNat = body.length := by
    rw [UInt8.toNat_ofNat']
    omega
  generalize hWire : class_ :: instruction :: p1 :: p2 :: UInt8.ofNat body.length ::
    (body ++ [le]) = wire
  have hLength : wire.length = headerLen + 1 + body.length + 1 := by
    simp [← hWire, headerLen]
    omega
  have hData : (wire.drop (headerLen + 1)).take body.length = body := by
    rw [← hWire]
    exact take_left' rfl
  have hLe : wire[headerLen + 1 + body.length]? = some le := by
    rw [← hWire, add_comm]
    exact getElem?_concat_length
  have hLcByte : wire[headerLen]? = some (UInt8.ofNat body.length) := by rw [← hWire]; rfl
  rw [decodeShortApdu, hLength, if_neg (by omega), if_neg (by omega), hLcByte]
  dsimp only
  rw [hLc, if_neg (by omega), if_neg (by omega), if_pos rfl, hData, hLe]
  rfl

/-- One protected exchange with a card that holds the same channel. -/
theorem transmitSingle_run (channel : SmTransport) {plain command}
    (hCommand : plainCommand plain = some command) (hData : command.data = [])
    (hAnswer : (application command).body.length + 17 < 2 ^ 32) :
    (channel.transmitSingle aes plain : SmDialogue E _).run
        (cardPeer aes application) channel =
      ((.ok (.response (application command)), channel.stepped.stepped),
        channel.stepped.stepped) := by
  obtain ⟨body, hWrap, hProtect⟩ := wrap_of_command E aes channel hCommand
  have hShort : body ≠ [] ∧ body.length ≤ 255 := by
    obtain ⟨object, hObject, rfl⟩ := protectCommand_eq_ok.mp hProtect
    rw [hData] at hObject
    cases hObject
    cases command.le <;> simp [writtenLe, cmacTagTruncated]
  obtain ⟨response, hResponse, found, hGenuine⟩ := protectAnswer_accepted E aes
    channel.stepped.stepped command.header.instruction hAnswer
  have hHeader : command.header = ⟨.secureMessaging, command.header.instruction,
      command.header.p1, command.header.p2⟩ := by
    rw [← plainCommand_class hCommand]
  let wire := ApduClass.secureMessaging.asByte :: command.header.instruction ::
    command.header.p1 :: command.header.p2 :: UInt8.ofNat body.length :: (body ++ [smLeAny])
  have hWire : case4 command.header body smLeAny = .ok (.fromWire wire) := by
    rw [case4, shortFormLc_of_short hShort.1 hShort.2, hHeader]
    simp [CommandHeader.toBytes, pure, Except.pure, wire]
  have hPeer : cardPeer aes application channel (.transmit (.fromWire wire)) =
      ((.ok (.response ⟨response, 0x90, 0x00⟩) : Except E _),
        channel.stepped.stepped) := by
    rw [cardPeer, InnerCall.wire, fromWire]
    dsimp only [wire]
    rw [if_neg (not_not_intro rfl), decodeShortApdu_case4 _ _ _ _ _ hShort.1 hShort.2]
    dsimp only
    rw [← hHeader, SmTransport.receive, openCommand_protectCommand hProtect]
    dsimp only
    rw [SmTransport.respond, hResponse]
  rw [SmTransport.transmitSingle, hWrap]
  dsimp only
  rw [hWire]
  change Dialogue.run _ (SmTransport.settle aes channel.stepped (cardPeer _ _ _ _).1) _ = _
  rw [hPeer]
  change (channel.stepped.finish aes (.response ⟨response, 0x90, 0x00⟩), _) = _
  rw [hGenuine.finish]

end Single

variable {card : FileCard} {address : Address}

section Span
variable {content : Bytes}

def fragmentLen : Nat := smReadBinaryMaxLe.toNat

theorem readAt_body_length (card : FileCard) (address : Address) (count : Nat) :
    (card.readAt address count).body.length ≤ count := by
  unfold FileCard.readAt
  split
  · exact zero_le _
  split
  · exact zero_le _
  · dsimp only
    split <;> exact length_take_le _ _

/-- Without bytes at the address a card answers any count alike, and refuses. -/
theorem readAt_of_none (h : card.available address = 0) :
    ∃ response, (∀ count, card.readAt address count = response) ∧ response.body = [] ∧
      accepted response = false := by
  unfold FileCard.available at h
  unfold FileCard.readAt
  cases hContent : card.content address.file with
  | none => exact ⟨_, fun _ => rfl, rfl, by decide⟩
  | some content =>
    rw [hContent] at h
    have hPast : content.length ≤ address.offset := by
      simp only [map_some, getD_some] at h
      omega
    exact ⟨⟨[], 0x6B, 0x00⟩, fun count => by dsimp only; rw [if_pos hPast], rfl, by decide⟩

theorem readAt_of_some (h : 0 < card.available address) :
    ∃ content, card.content address.file = some content ∧
      (content.drop address.offset).length = card.available address ∧
      ∀ count, (card.readAt address count).body = (content.drop address.offset).take count ∧
        accepted (card.readAt address count) = true ∧
        ((card.readAt address count).isOk = true ↔
          count ≤ card.available address ∨ card.warnsShort = false) := by
  cases hContent : card.content address.file with
  | none => simp [FileCard.available, hContent] at h
  | some content =>
    have hAvailable : card.available address = content.length - address.offset := by
      simp [FileCard.available, hContent]
    refine ⟨content, rfl, by rw [length_drop, hAvailable], fun count => ?_⟩
    have hInside : ¬content.length ≤ address.offset := by omega
    have hLength : ((content.drop address.offset).take count).length =
        min count (card.available address) := by
      rw [length_take, length_drop, hAvailable]
    rw [FileCard.readAt, hContent]
    dsimp only
    rw [if_neg hInside]
    split
    · rename_i hShort
      refine ⟨rfl, by rw [accepted, statusWord_mk, fromBytes_endOfFile], ?_⟩
      have hWarning : (⟨(content.drop address.offset).take count, 0x62, 0x82⟩ :
          ResponseApdu).isOk = false := by simp [ResponseApdu.isOk, isSuccess]
      rw [hWarning]
      simp only [Bool.false_eq_true, false_iff, not_or, Bool.not_eq_false]
      exact ⟨by omega, hShort.2⟩
    rename_i hFull
    refine ⟨rfl, by rw [accepted, statusWord_mk, fromBytes_success], ?_⟩
    have hSuccess : (⟨(content.drop address.offset).take count, 0x90, 0x00⟩ :
        ResponseApdu).isOk = true := by simp [ResponseApdu.isOk, isSuccess]
    rw [hSuccess]
    simp only [true_iff]
    by_cases hWarns : card.warnsShort = true
    · exact .inl (by
        have hNot : ¬((content.drop address.offset).take count).length < count :=
          fun hLt => hFull ⟨hLt, hWarns⟩
        omega)
    · exact .inr (Bool.eq_false_iff.mpr hWarns)

/-- Counts past the end of the file are answered alike. -/
theorem readAt_of_past {count other} (h : card.available address < count)
    (hOther : card.available address < other) :
    card.readAt address count = card.readAt address other := by
  rw [FileCard.readAt, FileCard.readAt]
  cases hContent : card.content address.file with
  | none => rfl
  | some content =>
    have hLength : (content.drop address.offset).length = card.available address := by
      simp [FileCard.available, hContent]
    dsimp only
    rw [take_of_length_le (by omega), take_of_length_le (by omega), hLength]
    simp only [h, hOther]

end Span

variable {read : ReadBinary}

theorem direct_flag {p1 : UInt8} (h : p1.toNat < 0x80) : p1 &&& 0x80 = 0 :=
  forall_byte_lt (P := fun byte => byte &&& 0x80 = 0) (by decide) h

/-- What the short-file form does with an identifier: the flag and the file it
addresses, the bits the split reads as an offset, and P1 of the second read. -/
abbrev SfiBits (v : UInt8) : Prop :=
  (0x80 ||| v) &&& 0x80 ≠ 0 ∧ (0x80 ||| v) &&& 0x1F = v ∧
    ((0x80 ||| v) &&& p1SfiOffsetHighMask).toNat = v.toNat % 8 ∧
    ((0x80 ||| v) &&& ~~~p1SfiOffsetHighMask) |||
      (UInt8.ofNat (v.toNat % 8) &&& p1SfiOffsetHighMask) = 0x80 ||| v ∧
    (v.toNat % 8 ≠ 7 → ((0x80 ||| v) &&& ~~~p1SfiOffsetHighMask) |||
        (UInt8.ofNat (v.toNat % 8 + 1) &&& p1SfiOffsetHighMask) = 0x80 ||| (v + 1)) ∧
    (0x80 ||| (v + 1)) &&& 0x80 ≠ 0 ∧ (0x80 ||| (v + 1)) &&& 0x1F = v + 1

theorem sfi_bits {v} (h : v.toNat < 31) : SfiBits v :=
  forall_byte_lt (P := SfiBits) (by decide) h

theorem Sfi.toNat_lt (sfi : Sfi) : sfi.value.toNat < 31 :=
  lt_succ_of_le (UInt8.le_iff_toNat_le.mp sfi.bound)

theorem addressOf_sfi {p1 number} (hFlag : p1 &&& 0x80 ≠ 0) (hFile : p1 &&& 0x1F = number)
    (p2 : UInt8) : addressOf p1 p2 = ⟨.sfi number, p2.toNat⟩ := by
  rw [addressOf, if_neg hFlag, hFile]

theorem addressOf_read (offset : ReadBinaryOffset) :
    addressOf offset.asP1 offset.asP2 = readAddress offset := by
  cases offset with
  | direct offset =>
    have hFlag : (direct offset).asP1 &&& 0x80 = 0 :=
      direct_flag offset.asP1_lt
    rw [addressOf, if_pos hFlag]
    simp only [asP1, asP2, offset.fromBytes_eq, readAddress]
  | bySfi sfi offset =>
    obtain ⟨hFlag, hFile, -⟩ := sfi_bits (Sfi.toNat_lt sfi)
    exact addressOf_sfi hFlag hFile offset

/-- What the second fragment of a read addresses, if there is one. In the
short-file form an offset past 32 carries into the file identifier. -/
def secondAddress : ReadBinaryOffset → Option Address
  | .direct offset =>
    if offset.offset.toNat + fragmentLen ≤ directOffsetMax then
      some ⟨.current, offset.offset.toNat + fragmentLen⟩
    else none
  | .bySfi sfi offset =>
    if offset.toNat + fragmentLen < 256 then some ⟨.sfi sfi.value, offset.toNat + fragmentLen⟩
    else if sfi.value.toNat % 8 = 7 then none
    else some ⟨.sfi (sfi.value + 1), offset.toNat + fragmentLen - 256⟩

def readBytes (read : ReadBinary) : Bytes :=
  [read.class_.asByte, ins, read.offset.asP1, read.offset.asP2, read.le]

theorem intoApdu_bytes (read : ReadBinary) : read.intoApdu.bytes = readBytes read :=
  rfl

theorem leBytesRequested_le (le : UInt8) : leBytesRequested le ≤ 256 := by
  have hByte := le.toNat_lt
  unfold leBytesRequested leAllBytes
  split <;> omega

theorem not_fragment_too_long (le : UInt8) :
    ¬2 ^ 8 ≤ leBytesRequested le - smReadBinaryMaxLe.toNat := by
  have hTotal := leBytesRequested_le le
  have hLen : smReadBinaryMaxLe.toNat = 223 := rfl
  omega

theorem addressOf_direct {offset : Nat} (h : offset ≤ directOffsetMax) :
    addressOf (UInt8.ofNat (offset / 256)) (UInt8.ofNat offset) = ⟨.current, offset⟩ := by
  unfold directOffsetMax at h
  have hHigh : (UInt8.ofNat (offset / 256)).toNat = offset / 256 := by
    rw [UInt8.toNat_ofNat']
    omega
  have hLow : (UInt8.ofNat offset).toNat = offset % 256 := UInt8.toNat_ofNat'
  rw [addressOf, if_pos (direct_flag (by rw [hHigh]; omega)), u16FromBytes_toNat, hHigh, hLow,
    div_add_mod']

variable (E) in
/-- Without a second address a long read is refused. Otherwise the first
fragment is a full read at the same place and the second asks for the rest at
the second address. -/
theorem split_long (h : fragmentLen < leBytesRequested read.le) :
    match secondAddress read.offset with
    | none => splitProtectedRead (readBytes read) =
        (.error (.malformed "fragmented read offset out of form") :
          Except (SmError E) (Option FragmentPair))
    | some address => ∃ p1 p2, addressOf p1 p2 = address ∧
        splitProtectedRead (readBytes read) =
          (.ok (some (readBytes { read with le := smReadBinaryMaxLe },
            [read.class_.asByte, ins, p1, p2,
              UInt8.ofNat (leBytesRequested read.le - fragmentLen)])) :
            Except (SmError E) (Option FragmentPair)) := by
  obtain ⟨class_, offset, le⟩ := read
  have hLong : ¬leBytesRequested le ≤ smReadBinaryMaxLe.toNat := not_le.mpr h
  have hLen : smReadBinaryMaxLe.toNat = 223 := rfl
  have hFragment : fragmentLen = 223 := rfl
  cases offset with
  | direct offset =>
    have hFlag : offset.asP1 &&& p1SfiFormFlag = 0 := direct_flag offset.asP1_lt
    simp only [splitProtectedRead, readBytes, asP1, asP2, ne_eq,
      not_true_eq_false, if_false, if_neg hLong, hFlag, if_true, offset.fromBytes_eq, secondAddress,
      if_neg (not_fragment_too_long le)]
    by_cases hFits : offset.offset.toNat + fragmentLen ≤ directOffsetMax
    · rw [if_pos hFits]
      exact ⟨_, _, addressOf_direct hFits, if_neg (not_lt.mpr hFits)⟩
    · rw [if_neg hFits]
      exact if_pos (not_le.mp hFits)
  | bySfi sfi offset =>
    obtain ⟨hFlag, hFile, hHigh, hSame, hCarry, hNextFlag, hNextFile⟩ :=
      sfi_bits (Sfi.toNat_lt sfi)
    have hOffset := offset.toNat_lt
    have hLow : (UInt8.ofNat (sfi.value.toNat % 8 * 256 + offset.toNat + fragmentLen)).toNat =
        (offset.toNat + fragmentLen) % 256 := by
      rw [UInt8.toNat_ofNat']
      omega
    simp only [splitProtectedRead, readBytes, asP1, asP2, ne_eq,
      not_true_eq_false, if_false, if_neg hLong, Sfi.asP1ShortForm, Sfi.shortFormFlag,
      p1SfiFormFlag, hFlag, u16FromBytes_toNat, hHigh, secondAddress,
      if_neg (not_fragment_too_long le)]
    by_cases hInside : offset.toNat + fragmentLen < 256
    · -- The offset stays within P2 and the identifier is kept.
      have hWord : (sfi.value.toNat % 8 * 256 + offset.toNat + smReadBinaryMaxLe.toNat) / 256 =
          sfi.value.toNat % 8 := by omega
      rw [if_pos hInside, if_neg (by unfold sfiOffsetMax; omega), hWord, hSame]
      refine ⟨_, _, ?_, rfl⟩
      rw [← mod_eq_of_lt hInside, ← hLow]
      exact addressOf_sfi hFlag hFile _
    rw [if_neg hInside]
    by_cases hLast : sfi.value.toNat % 8 = 7
    · rw [if_pos hLast]
      exact if_pos (by unfold sfiOffsetMax; omega)
    -- The carry goes into the identifier.
    have hWord : (sfi.value.toNat % 8 * 256 + offset.toNat + smReadBinaryMaxLe.toNat) / 256 =
        sfi.value.toNat % 8 + 1 := by omega
    have hRest : (offset.toNat + fragmentLen) % 256 = offset.toNat + fragmentLen - 256 := by omega
    rw [if_neg hLast, if_neg (by unfold sfiOffsetMax; omega), hWord, hCarry hLast]
    refine ⟨_, _, ?_, rfl⟩
    rw [addressOf_sfi hNextFlag hNextFile, ← hRest, ← hLow]
    rfl

section Joined
variable {aes : Aes} (card : FileCard) (read : ReadBinary)

def onePiece : ResponseApdu :=
  card.readAt (readAddress read.offset) (leBytesRequested read.le)

def joined (second : Address) : ResponseApdu :=
  let first := card.readAt (readAddress read.offset) fragmentLen
  let rest := card.readAt second (leBytesRequested read.le - fragmentLen)
  if ¬first.isOk ∨ first.body.length ≠ fragmentLen then first
  else ⟨first.body ++ rest.body, rest.sw1, rest.sw2⟩

def channelAnswer : Except (SmError E) TransportOutcome :=
  if leBytesRequested read.le ≤ fragmentLen then .ok (.response (onePiece card read))
  else
    match secondAddress read.offset with
    | none => .error (.malformed "fragmented read offset out of form")
    | some second => .ok (.response (joined card read second))

variable {card read}

theorem read_run (channel : SmTransport) (class_ p1 p2 le : UInt8) :
    (channel.transmitSingle aes [class_, ins, p1, p2, le] :
        SmDialogue E _).run (cardPeer aes card.answer) channel =
      ((.ok (.response (card.readAt (addressOf p1 p2) (leBytesRequested le))),
        channel.stepped.stepped), channel.stepped.stepped) := by
  have hLength := readAt_body_length card (addressOf p1 p2) (leBytesRequested le)
  have hRequested := leBytesRequested_le le
  have hAnswer : card.answer ⟨⟨.secureMessaging, ins, p1, p2⟩, [], some le⟩ =
      card.readAt (addressOf p1 p2) (leBytesRequested le) := by
    rw [FileCard.answer, if_pos rfl]
  rw [← hAnswer] at hLength ⊢
  exact transmitSingle_run channel rfl rfl (by omega)

theorem leBytesRequested_rest {le} (h : fragmentLen < leBytesRequested le) :
    leBytesRequested (UInt8.ofNat (leBytesRequested le - fragmentLen)) =
      leBytesRequested le - fragmentLen := by
  have hLen : fragmentLen = 223 := rfl
  have hTotal := leBytesRequested_le le
  have hNat : (UInt8.ofNat (leBytesRequested le - fragmentLen)).toNat =
      leBytesRequested le - fragmentLen := by
    rw [UInt8.toNat_ofNat']
    omega
  have hSome : UInt8.ofNat (leBytesRequested le - fragmentLen) ≠ smLeAny := by
    intro hZero
    rw [hZero] at hNat
    have hAny : smLeAny.toNat = 0 := rfl
    omega
  rw [leBytesRequested, if_neg hSome, hNat]

/-- A read over the channel, against a card that holds the same channel. -/
theorem transmit_run (channel : SmTransport) :
    ((channel.transmit aes read.intoApdu : SmDialogue E _).run
      (cardPeer aes card.answer) channel).1.1 = channelAnswer card read := by
  rw [SmTransport.transmit, intoApdu_bytes]
  by_cases hShort : leBytesRequested read.le ≤ fragmentLen
  · have hNone : splitProtectedRead (readBytes read) =
        (.ok none : Except (SmError E) _) := by
      simp only [splitProtectedRead, readBytes, ne_eq, not_true_eq_false, if_false]
      exact if_pos hShort
    rw [hNone, readBytes, read_run, addressOf_read, channelAnswer, if_pos hShort]
    rfl
  have hLong := not_le.mp hShort
  rw [channelAnswer, if_neg hShort]
  have hSplit := split_long E hLong
  cases hSecond : secondAddress read.offset with
  | none =>
    rw [hSecond] at hSplit
    rw [hSplit]
    rfl
  | some second =>
    rw [hSecond] at hSplit
    obtain ⟨p1, p2, rfl, hSplit⟩ := hSplit
    have hFirst : leBytesRequested smReadBinaryMaxLe = fragmentLen := rfl
    rw [hSplit]
    dsimp only
    rw [SmTransport.transmitFragmentedRead, Dialogue.run_bind, readBytes, read_run,
      addressOf_read, hFirst]
    dsimp only
    rw [joined]
    split
    · rename_i hStop
      rw [if_pos (show _ ∨ _ ≠ fragmentLen from hStop)]
      rfl
    · rename_i hGo
      rw [if_neg (show ¬(_ ∨ _ ≠ fragmentLen) from hGo), Dialogue.run_bind, read_run, leBytesRequested_rest hLong]
      rfl

/-- What a caller sees of a result: the body, and whether the read succeeded. -/
def observed : Except (SmError E) TransportOutcome → Bytes × Bool
  | .ok (.response response) => (response.body, accepted response)
  | _ => ([], false)

/-- The second fragment happens to answer what is left of the span. -/
def Completes (card : FileCard) (read : ReadBinary) (second : Address) : Prop :=
  accepted (card.readAt second (leBytesRequested read.le - fragmentLen)) = true ∧
    (onePiece card read).body = (onePiece card read).body.take fragmentLen ++
      (card.readAt second (leBytesRequested read.le - fragmentLen)).body

/-- When the channel's answer to a read is the one-piece answer. The second
fragment is needed as soon as a full first one is there; it must then have an
address, and bytes of the span at it. -/
def Transparent (card : FileCard) (read : ReadBinary) : Prop :=
  leBytesRequested read.le ≤ fragmentLen ∨ card.available (readAddress read.offset) = 0 ∨
    match read.offset with
    | .direct offset =>
      offset.offset.toNat + fragmentLen ≤ directOffsetMax ∧
        card.available (readAddress read.offset) ≠ fragmentLen
    | .bySfi sfi offset =>
      if offset.toNat + fragmentLen < 256 then
        card.available (readAddress read.offset) ≠ fragmentLen
      else sfi.value.toNat % 8 ≠ 7 ∧ (card.available (readAddress read.offset) < fragmentLen ∨
          Completes card read ⟨.sfi (sfi.value + 1), offset.toNat + fragmentLen - 256⟩)

section Cases
variable (hLong : fragmentLen < leBytesRequested read.le)
include hLong

/-- A file that ends within the first fragment needs no second one. -/
theorem joined_of_short (h : card.available (readAddress read.offset) < fragmentLen)
    (second : Address) : joined card read second = onePiece card read := by
  have hSame : card.readAt (readAddress read.offset) fragmentLen = onePiece card read :=
    readAt_of_past h (h.trans hLong)
  have hLength : (card.readAt (readAddress read.offset) fragmentLen).body.length ≠ fragmentLen := by
    rcases Nat.eq_zero_or_pos (card.available (readAddress read.offset)) with hNone | hSome
    · obtain ⟨response, hResponse, hBody, -⟩ := readAt_of_none hNone
      rw [hResponse, hBody]
      decide
    · obtain ⟨content, -, hAvailable, hRead⟩ := readAt_of_some hSome
      rw [(hRead fragmentLen).1, length_take, hAvailable]
      omega
  rw [joined, if_pos (.inr hLength), hSame]

/-- The rest of the span in the same file completes the read, unless there is
no rest. -/
theorem completes_same_file (h : fragmentLen ≤ card.available (readAddress read.offset)) :
    Completes card read ⟨(readAddress read.offset).file,
        (readAddress read.offset).offset + fragmentLen⟩ ↔
      card.available (readAddress read.offset) ≠ fragmentLen := by
  obtain ⟨content, hContent, -, hRead⟩ :=
    readAt_of_some (lt_of_lt_of_le (by decide : 0 < fragmentLen) h)
  have hRest : card.available ⟨(readAddress read.offset).file,
      (readAddress read.offset).offset + fragmentLen⟩ =
        card.available (readAddress read.offset) - fragmentLen := by
    simp only [FileCard.available, hContent, map_some, getD_some]
    omega
  constructor
  · rintro ⟨hAccepted, -⟩ hExact
    rw [hExact, Nat.sub_self] at hRest
    obtain ⟨response, hResponse, -, hRefused⟩ := readAt_of_none hRest
    rw [hResponse, hRefused] at hAccepted
    cases hAccepted
  intro hMore
  obtain ⟨content', hContent', -, hReadRest⟩ := readAt_of_some
    (lt_of_lt_of_eq (Nat.sub_pos_of_lt (lt_of_le_of_ne h (Ne.symm hMore))) hRest.symm)
  obtain rfl : content = content' := some.inj (hContent.symm.trans hContent')
  refine ⟨(hReadRest _).2.1, ?_⟩
  rw [onePiece, (hRead _).1, (hReadRest _).1, take_take, min_eq_left hLong.le, ← drop_drop]
  nth_rewrite 1 [← Nat.add_sub_cancel' hLong.le]
  exact take_add

theorem observed_second (second : Address) :
    observed (.ok (.response (joined card read second)) : Except (SmError E) _) =
        observed (.ok (.response (onePiece card read)) : Except (SmError E) _) ↔
      card.available (readAddress read.offset) < fragmentLen ∨ Completes card read second := by
  by_cases h : fragmentLen ≤ card.available (readAddress read.offset)
  · -- With a full first fragment the second one must complete the answer.
    obtain ⟨content, -, hAvailable, hRead⟩ :=
      readAt_of_some (lt_of_lt_of_le (by decide : 0 < fragmentLen) h)
    have hAccepted : accepted (onePiece card read) = true := (hRead _).2.1
    have hBody : (onePiece card read).body.take fragmentLen =
        (card.readAt (readAddress read.offset) fragmentLen).body := by
      rw [onePiece, (hRead _).1, (hRead _).1, take_take, min_eq_left hLong.le]
    have hFull : ¬(¬(card.readAt (readAddress read.offset) fragmentLen).isOk ∨
        (card.readAt (readAddress read.offset) fragmentLen).body.length ≠ fragmentLen) := by
      rw [not_or, not_not, not_not, (hRead fragmentLen).1, length_take, hAvailable]
      exact ⟨(hRead fragmentLen).2.2.mpr (.inl h), min_eq_left h⟩
    rw [or_iff_right (not_lt.mpr h), joined, if_neg hFull, observed, observed, Prod.mk.injEq,
      hAccepted, accepted_mk, Completes, and_comm, hBody, @eq_comm _ (onePiece card read).body]
  have hShort := not_le.mp h
  rw [joined_of_short hLong hShort]
  exact ⟨fun _ => .inl hShort, fun _ => rfl⟩

omit hLong

theorem observed_refused (error : SmError E) : observed (.error error) =
        observed (.ok (.response (onePiece card read)) : Except (SmError E) _) ↔
      card.available (readAddress read.offset) = 0 := by
  change ([], false) = ((onePiece card read).body, accepted (onePiece card read)) ↔ _
  rw [Prod.mk.injEq]
  constructor
  · rintro ⟨-, hAccepted⟩
    by_contra hSome
    obtain ⟨content, -, -, hRead⟩ := readAt_of_some (pos_of_ne_zero hSome)
    rw [onePiece, (hRead _).2.1] at hAccepted
    cases hAccepted
  · intro hNone
    obtain ⟨response, hResponse, hBody, hRefused⟩ := readAt_of_none hNone
    rw [onePiece, hResponse, hBody, hRefused]
    exact ⟨rfl, rfl⟩

/-- A caller sees the one-piece answer exactly where splitting is transparent. -/
theorem observed_channelAnswer :
    observed (channelAnswer card read : Except (SmError E) _) =
        observed (.ok (.response (onePiece card read)) : Except (SmError E) _) ↔
      Transparent card read := by
  obtain ⟨class_, offset, le⟩ := read
  by_cases hShort : leBytesRequested le ≤ fragmentLen
  · rw [channelAnswer, if_pos hShort]
    exact ⟨fun _ => .inl hShort, fun _ => rfl⟩
  have hLong : fragmentLen < leBytesRequested (⟨class_, offset, le⟩ : ReadBinary).le :=
    not_le.mp hShort
  have hZero : card.available (readAddress offset) = 0 →
      card.available (readAddress offset) < fragmentLen := by
    intro hNone
    rw [hNone]
    decide
  have hSame : (card.available (readAddress offset) < fragmentLen ∨
      Completes card ⟨class_, offset, le⟩ ⟨(readAddress offset).file,
        (readAddress offset).offset + fragmentLen⟩) ↔
      card.available (readAddress offset) ≠ fragmentLen := by
    by_cases h : fragmentLen ≤ card.available (readAddress offset)
    · rw [completes_same_file hLong h, or_iff_right (not_lt.mpr h)]
    · exact ⟨fun _ => Nat.ne_of_lt (Nat.not_le.mp h), fun _ => .inl (Nat.not_le.mp h)⟩
  have hExact : card.available (readAddress offset) = 0 →
      card.available (readAddress offset) ≠ fragmentLen :=
    fun hNone => Nat.ne_of_lt (hZero hNone)
  rw [channelAnswer, if_neg hShort, Transparent, or_iff_right hShort]
  cases offset with
  | direct offset =>
    dsimp only [secondAddress]
    split_ifs with hFits
    · refine (observed_second hLong _).trans (hSame.trans ?_)
      simp only [hFits, true_and]
      exact ⟨.inr, fun h => h.elim hExact id⟩
    · refine (observed_refused _).trans ?_
      simp only [hFits, false_and, or_false]
  | bySfi sfi offset =>
    dsimp only [secondAddress]
    split_ifs with hInside hLast
    · refine (observed_second hLong _).trans (hSame.trans ?_)
      exact ⟨.inr, fun h => h.elim hExact id⟩
    · refine (observed_refused _).trans ?_
      simp only [hLast, ne_eq, not_true_eq_false, false_and, or_false]
    · refine (observed_second hLong _).trans ?_
      simp only [ne_eq, hLast, not_false_eq_true, true_and]
      exact ⟨.inr, fun h => h.elim (fun hNone => .inl (hZero hNone)) id⟩

end Cases

end Joined

theorem secondAddress_continues {offset} : secondAddress offset =
        some ⟨(readAddress offset).file, (readAddress offset).offset + fragmentLen⟩ ↔
      match offset with
      | .direct offset => offset.offset.toNat + fragmentLen ≤ directOffsetMax
      | .bySfi _ offset => offset.toNat + fragmentLen < 256 := by
  cases offset with
  | direct offset =>
    dsimp only [secondAddress, readAddress]
    split_ifs with hFits
    · exact ⟨fun _ => hFits, fun _ => rfl⟩
    · simp [hFits]
  | bySfi sfi offset =>
    dsimp only [secondAddress, readAddress]
    split_ifs with hInside hLast
    · exact ⟨fun _ => hInside, fun _ => rfl⟩
    · simp [hInside]
    simp only [some.injEq, Address.mk.injEq, hInside, iff_false, not_and]
    intro _
    omega

/-- A read over the channel gives the body and the success of the same read
answered in one piece exactly when `Transparent` holds of the card and the
read. The two fragments address the same file and exactly the span exactly
when the second offset needs no carry out of its form. -/
theorem fragmented_read_transparent_iff (E : Type) (aes : Aes) (channel : SmTransport)
    (card : FileCard) (read : ReadBinary) :
    (observed ((channel.transmit aes read.intoApdu : SmDialogue E _).run
        (cardPeer aes card.answer) channel).1.1 =
      observed (.ok (.response (onePiece card read)) : Except (SmError E) _) ↔
        Transparent card read) ∧
    (fragmentLen < leBytesRequested read.le → ((∃ p1 p2 le, splitProtectedRead read.intoApdu.bytes =
          (.ok (some ([read.class_.asByte, ins, read.offset.asP1, read.offset.asP2,
              smReadBinaryMaxLe], [read.class_.asByte, ins, p1, p2, le])) :
            Except (SmError E) (Option FragmentPair)) ∧
          addressOf p1 p2 = ⟨(readAddress read.offset).file,
            (readAddress read.offset).offset + leBytesRequested smReadBinaryMaxLe⟩ ∧
          leBytesRequested smReadBinaryMaxLe + leBytesRequested le = leBytesRequested read.le) ↔
        match read.offset with
        | .direct offset => offset.offset.toNat + fragmentLen ≤ directOffsetMax
        | .bySfi _ offset => offset.toNat + fragmentLen < 256)) := by
  constructor
  · rw [transmit_run]
    exact observed_channelAnswer
  intro hLong
  refine Iff.trans ?_ secondAddress_continues
  rw [intoApdu_bytes]
  have hCases := split_long E hLong
  constructor
  · rintro ⟨p1, p2, le, hSplit, hAddress, -⟩
    cases hSecond : secondAddress read.offset with
    | none =>
      rw [hSecond] at hCases
      cases hCases.symm.trans hSplit
    | some second =>
      rw [hSecond] at hCases
      obtain ⟨p1', p2', rfl, hSplit'⟩ := hCases
      rw [hSplit'] at hSplit
      injection hSplit with hPair
      injection hPair with hPair
      injection hPair with _ hBytes
      simp only [cons.injEq, and_true, true_and] at hBytes
      obtain ⟨rfl, rfl, -⟩ := hBytes
      exact congrArg some hAddress
  · intro hSecond
    rw [hSecond] at hCases
    obtain ⟨p1, p2, hAddress, hSplit⟩ := hCases
    have hFirst : leBytesRequested smReadBinaryMaxLe = fragmentLen := rfl
    refine ⟨p1, p2, _, hSplit, hAddress, ?_⟩
    rw [leBytesRequested_rest hLong, hFirst, Nat.add_sub_cancel' hLong.le]

/-- Two files of 300 bytes, the first under identifier 1, and a current file
of 223 bytes. -/
def threeFiles : FileCard where
  current := replicate 223 0xCC
  bySfi number :=
    if number = 1 then some (replicate 300 0xAA)
    else if number = 2 then some (replicate 300 0xBB)
    else none
  warnsShort := false

/-- Reading 256 bytes of file 1 from offset 64 returns bytes of file 2, as a
success. Reading 256 bytes of a file of 223 returns them with a failure. -/
theorem fragments_differ_from_one_piece : (observed ((zeroChannel.transmit Aes.transparent
        (intoApdu ⟨.plain, .bySfi ⟨1, by decide, by decide⟩ 64, 0⟩) :
          SmDialogue Empty _).run (cardPeer Aes.transparent threeFiles.answer) zeroChannel).1.1 =
        (replicate 223 0xAA ++ replicate 33 0xBB, true) ∧
      (observed (.ok (.response (onePiece threeFiles
        ⟨.plain, .bySfi ⟨1, by decide, by decide⟩ 64, 0⟩)) : Except (SmError Empty) _)) =
        (replicate 236 0xAA, true)) ∧
    (observed ((zeroChannel.transmit Aes.transparent
        (intoApdu ⟨.plain, .direct ⟨0, by decide⟩, 0⟩) :
          SmDialogue Empty _).run (cardPeer Aes.transparent threeFiles.answer) zeroChannel).1.1 =
        (replicate 223 0xCC, false) ∧
      (observed (.ok (.response (onePiece threeFiles
        ⟨.plain, .direct ⟨0, by decide⟩, 0⟩)) : Except (SmError Empty) _)) =
        (replicate 223 0xCC, true)) := by
  decide +kernel

end RefineId.Pace
