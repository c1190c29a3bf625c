import RefineId.Pace.SecureMessaging

/-! The card's end of a secure-messaging channel: it holds the same keys and
counter, opens commands and protects answers by the rules the terminal
follows. Each end reads what the other wrote. -/
namespace RefineId.Pace

open Data Apdu Ber List Option ResponseObjects SmTransport Except

/-- A command as the card recovers it. -/
@[ext] structure ReceivedCommand where
  header : CommandHeader
  data : Bytes
  le : Option UInt8
  deriving DecidableEq

structure CommandObjects where
  cryptogram : Option Cryptogram
  le : Option Bytes
  mac : Option Bytes

def CommandObjects.keep (found : CommandObjects) (record : BerTlvAny) : CommandObjects :=
  if record.tag = tagCryptogram.toUInt16 ∨ record.tag = tagCryptogramOdd.toUInt16 then
    { found with cryptogram := some (record.tag.toUInt8, record.value) }
  else if record.tag = tagProtectedLe.toUInt16 then { found with le := some record.value }
  else if record.tag = tagMac.toUInt16 then { found with mac := some record.value }
  else found

/-- The expected length of a command: absent, or one byte. -/
def receivedLe : Option Bytes → Option (Option UInt8)
  | none => some none
  | some [le] => some (some le)
  | some _ => none

variable {E : Type}

section Card
variable (aes : Aes) (card : SmTransport)

namespace SmTransport

/-- The command in a protected body, if its tag is right. -/
def openCommand (header : CommandHeader) (body : Bytes) : Except (SmError E) ReceivedCommand :=
  match records body with
  | .error _ => .error (.malformed "command BER parse")
  | .ok list => do
      let found := list.foldl CommandObjects.keep ⟨none, none, none⟩
      let object ← cryptogramBytes found.cryptogram
      match receivedLe found.le with
      | none => .error (.malformed "command expected length")
      | some le => do
          let protectedLe ← leObject le
          let macInput := commandMacInput card.ssc header (object ++ protectedLe)
          if some (aes256CmacTruncated aes card.kMac macInput).val ≠ found.mac then
            .error .macMismatch
          else do
            let data ← card.openCryptogram aes found.cryptogram
            .ok ⟨header, data, le⟩

/-- The card takes a command at its next counter value. -/
def receive (header : CommandHeader) (body : Bytes) :
    Except (SmError E) ReceivedCommand × SmTransport :=
  (card.stepped.openCommand aes header body, card.stepped)

/-- The objects of an answer, with its authentication tag over them. -/
def protectAnswer (instruction : UInt8) (answer : ResponseApdu) :
    Except (SmError E) Bytes := do
  let cryptogram ← card.cryptogramObject aes instruction answer.body
  let statusObject ← commandObject tagProtectedStatus [answer.sw1, answer.sw2]
  let macInput := iso78164Pad (card.ssc.asBytes.val ++ (cryptogram ++ statusObject))
  let macObject ← commandObject tagMac (aes256CmacTruncated aes card.kMac macInput).val
  .ok (cryptogram ++ statusObject ++ macObject)

def respond (instruction : UInt8) (answer : ResponseApdu) :
    Except (SmError E) Bytes × SmTransport :=
  (card.stepped.protectAnswer aes instruction answer, card.stepped)

end SmTransport

end Card

variable {object : Bytes}

section Objects

inductive WrittenAs : Option Cryptogram → Bytes → Prop where
  | absent : WrittenAs none []
  | object {tag : UInt8} {value object : Bytes} (h : tlv tag value = .ok object) :
      WrittenAs (some (tag, value)) object

def CryptogramTag (cryptogram : Option Cryptogram) : Prop :=
  ∀ tag value, cryptogram = some (tag, value) → tag = tagCryptogram ∨ tag = tagCryptogramOdd

variable {tag : UInt8}

theorem commandObject_eq_ok {value} :
    commandObject tag value = (.ok object : Except (SmError E) Bytes) ↔
      tlv tag value = .ok object := by
  unfold commandObject
  cases tlv tag value <;> simp

variable {cryptogram : Option Cryptogram}

theorem cryptogramBytes_eq_ok :
    cryptogramBytes cryptogram = (.ok object : Except (SmError E) Bytes) ↔
      WrittenAs cryptogram object := by
  constructor
  · intro h
    unfold cryptogramBytes at h
    split at h
    · cases h
      exact .absent
    split at h
    · rename_i hTlv
      cases h
      exact .object hTlv
    · cases h
  · intro h
    cases h with
    | absent => rfl
    | object h => simp [cryptogramBytes, h]

theorem tlv_status (sw1 sw2 : UInt8) :
    tlv tagProtectedStatus [sw1, sw2] = .ok [tagProtectedStatus, 2, sw1, sw2] :=
  rfl

theorem tlv_mac (mac : FixedBytes cmacTagTruncated) :
    tlv tagMac mac.val = .ok ([tagMac, 8] ++ mac.val) := by
  obtain ⟨bytes, hLength⟩ := mac
  have hOctets : lengthOctets bytes.length = .ok [8] := by
    rw [hLength]
    rfl
  rw [tlv_of_single (by decide), written_eq_ok.mpr ⟨[8], hOctets, rfl⟩]
  rfl

/-- The objects of an answer are read back whole. -/
theorem protectedResponse_written (hWritten : WrittenAs cryptogram object)
    (hTag : CryptogramTag cryptogram) (sw1 sw2 : UInt8) (mac : FixedBytes cmacTagTruncated) :
    protectedResponse (object ++ [tagProtectedStatus, 2, sw1, sw2] ++ ([tagMac, 8] ++ mac.val)) =
      (.ok ⟨cryptogram, sw1, sw2, mac⟩ : Except (SmError E) ProtectedResponse) := by
  have hMac := records_tlv (tlv_mac mac) records_nil
  have hStatus := records_tlv (tlv_status sw1 sw2) hMac
  rw [append_nil] at hStatus
  have hComplete (held : Option Cryptogram) : complete ⟨held, some [sw1, sw2], some mac.val⟩ =
      (.ok ⟨held, sw1, sw2, mac⟩ : Except (SmError E) _) := by
    simp only [complete, FixedBytes.ofSlice?_val]
  rw [protectedResponse, append_assoc]
  cases hWritten with
  | absent =>
    rw [nil_append, hStatus]
    exact hComplete none
  | object h =>
    rename_i tag value
    rw [records_tlv h hStatus]
    rcases hTag tag value rfl with rfl | rfl
    · exact hComplete (some (tagCryptogram, value))
    · exact hComplete (some (tagCryptogramOdd, value))

def writtenLe : Option UInt8 → Bytes
  | some le => [tagProtectedLe, 1, le]
  | none => []

@[simp] theorem leObject_eq (le : Option UInt8) :
    leObject le = (.ok (writtenLe le) : Except (SmError E) Bytes) := by
  cases le <;> rfl

/-- The objects of a command are read back whole. -/
theorem commandObjects_written (hWritten : WrittenAs cryptogram object)
    (hTag : CryptogramTag cryptogram) (le : Option UInt8) (mac : FixedBytes cmacTagTruncated) :
    ∃ list, records (object ++ writtenLe le ++ ([tagMac, 8] ++ mac.val)) = .ok list ∧
      list.foldl CommandObjects.keep ⟨none, none, none⟩ =
        ⟨cryptogram, le.map fun byte => [byte], some mac.val⟩ := by
  have hMac := records_tlv (tlv_mac mac) records_nil
  rw [append_nil] at hMac
  obtain ⟨following, hFollowing, hKept⟩ : ∃ following,
      records (writtenLe le ++ ([tagMac, 8] ++ mac.val)) = .ok following ∧
      ∀ held, following.foldl CommandObjects.keep ⟨held, none, none⟩ =
        ⟨held, le.map fun byte => [byte], some mac.val⟩ := by
    cases le with
    | none => exact ⟨_, hMac, fun held => rfl⟩
    | some byte => exact ⟨_, records_tlv (rfl : tlv tagProtectedLe [byte] = .ok _) hMac, fun held => rfl⟩
  rw [append_assoc]
  cases hWritten with
  | absent => exact ⟨following, hFollowing, hKept none⟩
  | object h =>
    rename_i tag value
    refine ⟨_, records_tlv h hFollowing, ?_⟩
    rcases hTag tag value rfl with rfl | rfl
    · exact hKept (some (tagCryptogram, value))
    · exact hKept (some (tagCryptogramOdd, value))

end Objects

section Exchange
variable {aes : Aes} {channel : SmTransport} {instruction : UInt8} {data : Bytes}

theorem cryptogramObject_opens (h : channel.cryptogramObject aes instruction data =
      (.ok object : Except (SmError E) Bytes)) :
    ∃ cryptogram, WrittenAs cryptogram object ∧ CryptogramTag cryptogram ∧
      channel.openCryptogram aes cryptogram =
        (.ok data : Except (SmError E) Bytes) := by
  unfold cryptogramObject at h
  split at h
  · rename_i hData
    cases h
    exact ⟨none, .absent, by simp [CryptogramTag], by rw [hData]; rfl⟩
  obtain ⟨cipher, hCipher, hLength, hPlain⟩ :=
    aes256CbcEncrypt_eq_ok aes channel.kEnc (channel.blockIv aes) (iso78164Pad_aligned data)
  have hWhole : cipher.length % aesBlock = 0 := by
    rw [hLength]
    exact iso78164Pad_aligned data
  rw [hCipher] at h
  dsimp only at h
  split at h
  · refine ⟨some (tagCryptogramOdd, cipher), .object (commandObject_eq_ok.mp h), ?_, ?_⟩
    · rintro tag value hSome
      cases hSome
      exact .inr rfl
    · have hValue : cryptogramCipher (tagCryptogramOdd, cipher) =
          (.ok cipher : Except (SmError E) Bytes) := rfl
      simp [openCryptogram, hValue, hWhole, hPlain]
  refine ⟨some (tagCryptogram, paddingIndicator :: cipher),
    .object (commandObject_eq_ok.mp h), ?_, ?_⟩
  · rintro tag value hSome
    cases hSome
    exact .inl rfl
  · have hValue : cryptogramCipher (tagCryptogram, paddingIndicator :: cipher) =
        (.ok cipher : Except (SmError E) Bytes) := rfl
    simp [openCryptogram, hValue, hWhole, hPlain]

/-- Data that a four-octet length still covers once padded is encrypted. -/
theorem cryptogramObject_accepted (E : Type) (aes : Aes) (channel : SmTransport)
    (instruction : UInt8) (hShort : data.length + 17 < 2 ^ 32) :
    ∃ object, channel.cryptogramObject aes instruction data =
      (.ok object : Except (SmError E) Bytes) := by
  unfold cryptogramObject
  split
  · exact ⟨[], rfl⟩
  obtain ⟨cipher, hCipher, hLength, -⟩ :=
    aes256CbcEncrypt_eq_ok aes channel.kEnc (channel.blockIv aes) (iso78164Pad_aligned data)
  have hCipherLength : cipher.length ≤ data.length + 16 := by
    rw [hLength, iso78164Pad_length, aesBlock]
    omega
  rw [hCipher]
  dsimp only
  split
  · obtain ⟨object, hObject⟩ := tlv_accepted.mpr
      ⟨(by decide : ¬IsLeader tagCryptogramOdd), (by omega : cipher.length < 2 ^ 32)⟩
    exact ⟨object, commandObject_eq_ok.mpr hObject⟩
  · obtain ⟨object, hObject⟩ := tlv_accepted.mpr ⟨(by decide : ¬IsLeader tagCryptogram),
        (by rw [length_cons]; omega : (paddingIndicator :: cipher).length < 2 ^ 32)⟩
    exact ⟨object, commandObject_eq_ok.mpr hObject⟩

section Command
variable {header : CommandHeader} {body : Bytes} {le : Option UInt8}

theorem protectCommand_eq_ok : channel.protectCommand aes header data le =
        (.ok body : Except (SmError E) Bytes) ↔
      ∃ object, channel.cryptogramObject aes header.instruction data =
          (.ok object : Except (SmError E) Bytes) ∧
        body = object ++ writtenLe le ++ ([tagMac, 8] ++ (aes256CmacTruncated aes channel.kMac
            (commandMacInput channel.ssc header (object ++ writtenLe le))).val) := by
  rw [protectCommand, bind_eq_ok]
  simp only [leObject_eq, ok_bind, commandObject, tlv_mac, ok.injEq, eq_comm]

/-- The card recovers the header, the data and the expected length. -/
theorem openCommand_protectCommand (h : channel.protectCommand aes header data le =
      (.ok body : Except (SmError E) Bytes)) :
    channel.openCommand aes header body =
      (.ok ⟨header, data, le⟩ : Except (SmError E) ReceivedCommand) := by
  obtain ⟨object, hObject, rfl⟩ := protectCommand_eq_ok.mp h
  obtain ⟨cryptogram, hWritten, hTag, hOpens⟩ := cryptogramObject_opens hObject
  obtain ⟨list, hRecords, hFound⟩ := commandObjects_written hWritten hTag le
    (aes256CmacTruncated aes channel.kMac
      (commandMacInput channel.ssc header (object ++ writtenLe le)))
  have hLe : receivedLe (le.map fun byte => [byte]) = some le := by
    cases le <;> rfl
  rw [openCommand, hRecords]
  simp only [hFound, cryptogramBytes_eq_ok.mpr hWritten, ok_bind, hLe, leObject_eq, ne_eq,
    not_true_eq_false, if_false, hOpens]

/-- What a plain command asks for, under the class byte of the channel. -/
def plainCommand (plain : Bytes) : Option ReceivedCommand :=
  match plain with
  | _ :: instruction :: p1 :: p2 :: _ =>
    (decodeShortApdu plain).map fun (data, le) =>
      ⟨⟨.secureMessaging, instruction, p1, p2⟩, data, le⟩
  | _ => none

variable {plain : Bytes}

theorem decodeShortApdu_data_length (h : decodeShortApdu plain = some (data, le)) :
    data.length ≤ 255 := by
  unfold decodeShortApdu at h
  split at h
  · cases h
    simp
  split at h
  · obtain ⟨_, _, hPair⟩ := map_eq_some_iff.mp h
    cases hPair
    simp
  split at h
  · cases h
  rename_i lc _
  have hLc := lc.toNat_lt
  split at h
  · cases h
  split at h
  · cases h
    rw [length_take]
    omega
  split at h
  · obtain ⟨_, _, hPair⟩ := map_eq_some_iff.mp h
    cases hPair
    rw [length_take]
    omega
  · cases h

variable {command : ReceivedCommand}

theorem plainCommand_data_length (h : plainCommand plain = some command) :
    command.data.length ≤ 255 := by
  unfold plainCommand at h
  split at h
  · obtain ⟨⟨data, le⟩, hDecode, rfl⟩ := map_eq_some_iff.mp h
    exact decodeShortApdu_data_length hDecode
  · cases h

theorem plainCommand_class (h : plainCommand plain = some command) :
    command.header.class_ = .secureMessaging := by
  unfold plainCommand at h
  split at h
  · obtain ⟨⟨-, -⟩, -, rfl⟩ := map_eq_some_iff.mp h
    rfl
  · cases h

/-- Every short form is wrapped, in any state of the channel. -/
theorem wrap_of_command (E : Type) (aes : Aes) (channel : SmTransport)
    (h : plainCommand plain = some command) :
    ∃ body, channel.wrap aes plain =
        ((.ok (command.header, body) : Except (SmError E) _), channel.stepped) ∧
      channel.stepped.protectCommand aes command.header command.data command.le =
        (.ok body : Except (SmError E) Bytes) := by
  have hLength := plainCommand_data_length h
  obtain ⟨object, hObject⟩ := cryptogramObject_accepted E aes channel.stepped
    command.header.instruction (show command.data.length + 17 < 2 ^ 32 by omega)
  obtain ⟨body, hBody⟩ : ∃ body, channel.stepped.protectCommand aes command.header command.data
      command.le = (.ok body : Except (SmError E) Bytes) :=
    ⟨_, protectCommand_eq_ok.mpr ⟨object, hObject, rfl⟩⟩
  refine ⟨body, ?_, hBody⟩
  unfold plainCommand at h
  split at h
  · obtain ⟨⟨data, le⟩, hDecode, rfl⟩ := map_eq_some_iff.mp h
    rw [SmTransport.wrap, hDecode]
    simp only [hBody, ok_bind]
  · cases h

/-- Only short forms are wrapped. -/
theorem plainCommand_of_wrap {wrapped}
    (h : (channel.wrap aes plain).1 = (.ok wrapped : Except (SmError E) _)) :
    ∃ command, plainCommand plain = some command := by
  unfold SmTransport.wrap at h
  split at h
  · split at h
    · cases h
    · rename_i hDecode
      exact ⟨_, by rw [plainCommand, hDecode]; rfl⟩
  · cases h

end Command

section Answer
variable {answer : ResponseApdu} {response input : Bytes} {found : ProtectedResponse}

theorem responseMacInput_eq_ok {ssc} :
    responseMacInput ssc found = (.ok input : Except (SmError E) Bytes) ↔
      ∃ object, WrittenAs found.cryptogram object ∧ input = iso78164Pad (ssc.asBytes.val ++
          (object ++ [tagProtectedStatus, 2, found.sw1, found.sw2])) := by
  rw [responseMacInput, bind_eq_ok]
  simp only [cryptogramBytes_eq_ok, tlv_status, ok.injEq, append_assoc, @eq_comm _ _ input]

theorem WrittenAs.length_ne {cryptogram} (h : WrittenAs (some cryptogram) object) :
    object ≠ [] := by
  cases h with
  | object h =>
    rintro rfl
    cases parse_tlv h []

theorem WrittenAs.inj {left right} (hLeft : WrittenAs left object)
    (hRight : WrittenAs right object) : left = right := by
  cases left with
  | none =>
    cases right with
    | none => rfl
    | some cryptogram =>
      cases hLeft
      exact absurd rfl hRight.length_ne
  | some cryptogram =>
    cases right with
    | none =>
      cases hRight
      exact absurd rfl hLeft.length_ne
    | some other =>
      obtain ⟨tag, value⟩ := cryptogram
      obtain ⟨otherTag, otherValue⟩ := other
      cases hLeft with
      | object hLeft =>
        cases hRight with
        | object hRight =>
          obtain ⟨rfl, rfl⟩ := tlv_inj hLeft hRight
          rfl

/-- One input authenticates one counter value, one cryptogram and one status. -/
theorem responseMacInput_inj {ssc otherSsc other}
    (h : responseMacInput ssc found = (.ok input : Except (SmError E) Bytes))
    (hOther : responseMacInput otherSsc other =
      (.ok input : Except (SmError E) Bytes)) :
    found.cryptogram = other.cryptogram ∧ found.sw1 = other.sw1 ∧ found.sw2 = other.sw2 := by
  obtain ⟨object, hWritten, rfl⟩ := responseMacInput_eq_ok.mp h
  obtain ⟨otherObject, hOtherWritten, hInput⟩ := responseMacInput_eq_ok.mp hOther
  have hParts := iso78164Pad_injective hInput
  obtain ⟨-, hObjects⟩ := append_inj hParts (by simp)
  obtain ⟨rfl, hStatus⟩ := append_inj' hObjects rfl
  simp only [cons.injEq, and_true, true_and] at hStatus
  exact ⟨hWritten.inj hOtherWritten, hStatus.1, hStatus.2⟩

structure Genuine (E : Type) (aes : Aes) (channel : SmTransport)
    (answer : ResponseApdu) (response : Bytes) (found : ProtectedResponse) (input : Bytes) :
    Prop where
  read : protectedResponse response = (.ok found : Except (SmError E) _)
  authenticates : responseMacInput channel.ssc found =
    (.ok input : Except (SmError E) Bytes)
  tag : aes256CmacTruncated aes channel.kMac input = found.mac
  opens : channel.openCryptogram aes found.cryptogram =
    (.ok answer.body : Except (SmError E) Bytes)
  sw1 : found.sw1 = answer.sw1
  sw2 : found.sw2 = answer.sw2

/-- A protected body without its authentication object, which stands last. -/
def beforeMac (body : Bytes) : Bytes :=
  body.take (body.length - (2 + cmacTagTruncated))

theorem beforeMac_append (objects : Bytes) (mac : FixedBytes cmacTagTruncated) :
    beforeMac (objects ++ ([tagMac, 8] ++ mac.val)) = objects := by
  have hLength : (objects ++ ([tagMac, 8] ++ mac.val)).length - (2 + cmacTagTruncated) =
      objects.length := by
    simp only [length_append, length_cons, length_nil, mac.length_val]
    omega
  rw [beforeMac, hLength, take_left]

/-- An answer that is encrypted is protected, and genuine. -/
theorem protectAnswer_accepted (E : Type) (aes : Aes) (channel : SmTransport)
    (instruction : UInt8) (hShort : answer.body.length + 17 < 2 ^ 32) :
    ∃ response, channel.protectAnswer aes instruction answer =
        (.ok response : Except (SmError E) Bytes) ∧
      ∃ found, Genuine E aes channel answer response found
        (iso78164Pad (channel.ssc.asBytes.val ++ beforeMac response)) := by
  obtain ⟨object, hObject⟩ :=
    cryptogramObject_accepted E aes channel instruction hShort
  obtain ⟨cryptogram, hWritten, hTag, hOpens⟩ := cryptogramObject_opens hObject
  rw [protectAnswer, hObject]
  simp only [commandObject, tlv_status, tlv_mac, ok_bind, ok.injEq]
  refine ⟨_, rfl, ?_⟩
  rw [beforeMac_append]
  exact ⟨⟨cryptogram, answer.sw1, answer.sw2, _⟩,
    protectedResponse_written hWritten hTag answer.sw1 answer.sw2 _,
    responseMacInput_eq_ok.mpr ⟨object, hWritten, rfl⟩, rfl, hOpens, rfl, rfl⟩

theorem openResponse_eq_ok {result} :
    channel.openResponse aes response = (.ok result : Except (SmError E) _) ↔
      ∃ found input, protectedResponse response = (.ok found : Except (SmError E) _) ∧
        responseMacInput channel.ssc found = (.ok input : Except (SmError E) Bytes) ∧
        aes256CmacTruncated aes channel.kMac input = found.mac ∧
        channel.openCryptogram aes found.cryptogram =
          (.ok result.1 : Except (SmError E) Bytes) ∧
        result.2 = .fromBytes found.sw1 found.sw2 := by
  rw [openResponse, bind_eq_ok]
  refine exists_congr fun found => ?_
  rw [bind_eq_ok, ← exists_and_left]
  refine exists_congr fun input => and_congr_right fun _ => and_congr_right fun _ => ?_
  split
  · rename_i hTag
    simp [hTag]
  rename_i hTag
  rw [bind_eq_ok]
  simp only [ok.injEq]
  constructor
  · rintro ⟨body, hBody, rfl⟩
    exact ⟨not_not.mp hTag, hBody, rfl⟩
  · rintro ⟨-, hBody, hStatus⟩
    exact ⟨result.1, hBody, by rw [← hStatus]⟩

theorem Genuine.openResponse (h : Genuine E aes channel answer response found input) :
    channel.openResponse aes response =
      (.ok (answer.body, answer.statusWord) : Except (SmError E) _) :=
  openResponse_eq_ok.mpr ⟨found, input, h.read, h.authenticates, h.tag, h.opens, by
    rw [h.sw1, h.sw2]
    rfl⟩

theorem response_of_status (answer : ResponseApdu) :
    TransportOutcome.response ⟨answer.body, (u16BeBytes answer.statusWord.asU16).1,
      (u16BeBytes answer.statusWord.asU16).2⟩ = .response answer := by
  simp [ResponseApdu.statusWord, StatusWord.fromBytes]

/-- The terminal returns the card's answer, whatever status word surrounds it. -/
theorem Genuine.finish (h : Genuine E aes channel.stepped answer response found input)
    (sw1 sw2 : UInt8) :
    channel.finish aes (.response ⟨response, sw1, sw2⟩) =
      ((.ok (.response answer) : Except (SmError E) _), channel.stepped) := by
  have hBody : response ≠ [] := by
    intro hNil
    have hRead := h.read
    rw [hNil] at hRead
    cases hRead
  rw [SmTransport.finish, if_neg hBody, SmTransport.unwrap, h.openResponse]
  simp only [response_of_status]

end Answer

end Exchange

end RefineId.Pace
