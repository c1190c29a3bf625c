import RefineId.Pace.SecureChannel

/-! Commands the channel refuses on its own side, before anything is sent
(`crates/pace/src/secure_messaging.rs`). -/
namespace RefineId.Pace

open Data Apdu Ber Semantics List Session

section Refused
variable {E : Type}

/-- A command as a caller of the channel hands it over. -/
def SmTransport.call (aes : Aes) (channel : SmTransport) :
    InnerCall → SmDialogue E (SmResult E)
  | .transmit command => channel.transmit aes command
  | .transmitCredential command => channel.transmitCredential aes command

/-- The data is too much for one protected command: from 240 bytes on, and from
224 when an answer is asked for as well. -/
def ReceivedCommand.Outgrows (short : ReceivedCommand) : Prop :=
  240 ≤ short.data.length ∨ 224 ≤ short.data.length ∧ short.le.isSome

/-- The call is a short form with more data than fits a protected command; a
credential command has less room. -/
def InnerCall.TooLong : InnerCall → Prop
  | .transmit command => ∃ short, plainCommand command.bytes = some short ∧ short.Outgrows
  | .transmitCredential command =>
    ∃ short, plainCommand command.wire = some short ∧ 32 ≤ short.data.length

/-- What a refusal leaves behind: a malformed command has touched nothing, one
too long under protection has used up a counter value. -/
def RefusedAs (channel : SmTransport) (tooLong : Prop) (result : SmResult E) : Prop :=
  (∃ what, result = (.error (.malformed what), channel)) ∧ ¬tooLong ∨
    result = (.error .commandTooLong, channel.stepped) ∧ tooLong

variable {aes : Aes} {channel : SmTransport} {plain : Bytes} {result : SmResult E}

theorem commandObject_length {tag value object} (hTag : ¬IsLeader tag)
    (hValue : value.length < 2 ^ 16)
    (h : commandObject tag value = (.ok object : Except (SmError E) Bytes)) :
    object.length = value.length +
      if value.length < 128 then 2 else if value.length < 256 then 3 else 4 := by
  rw [commandObject_eq_ok, tlv_of_single hTag, written_eq_ok] at h
  obtain ⟨octets, hOctets, rfl⟩ := h
  unfold lengthOctets shortFormCeiling at hOctets
  rw [length_append, length_append, length_singleton]
  split_ifs at hOctets ⊢ <;> cases hOctets <;> simp <;> omega

open SmTransport

/-- Padded to whole blocks, with at most an indicator before them. -/
theorem cryptogramObject_length {instruction data object}
    (hData : data.length ≤ 255) (h : channel.cryptogramObject aes instruction data =
      (.ok object : Except (SmError E) Bytes)) :
    data = [] ∧ object = [] ∨ ∃ value, 16 * (data.length / 16 + 1) ≤ value ∧
      value ≤ 16 * (data.length / 16 + 1) + 1 ∧
      object.length = value + if value < 128 then 2 else if value < 256 then 3 else 4 := by
  unfold cryptogramObject at h
  split at h
  · rename_i hNone
    cases h
    exact .inl ⟨hNone, rfl⟩
  obtain ⟨cipher, hCipher, hLength, -⟩ :=
    aes256CbcEncrypt_eq_ok aes channel.kEnc (channel.blockIv aes) (iso78164Pad_aligned data)
  rw [iso78164Pad_length, aesBlock] at hLength
  rw [hCipher] at h
  dsimp only at h
  split at h
  · exact .inr ⟨_, hLength.ge, by omega, commandObject_length (by decide) (by omega) h⟩
  · have hObject := commandObject_length (by decide) (by simp only [length_cons]; omega) h
    exact .inr ⟨cipher.length + 1, by omega, by omega, hObject⟩

/-- Only the length of the data and the presence of an expected length decide
whether the body of a protected command is too long. -/
theorem protectCommand_length {short : ReceivedCommand} {body : Bytes}
    (hData : short.data.length ≤ 255)
    (h : channel.protectCommand aes short.header short.data short.le =
      (.ok body : Except (SmError E) Bytes)) :
    body ≠ [] ∧ (255 < body.length ↔ short.Outgrows) ∧ (58 < body.length ↔ 32 ≤ short.data.length) := by
  obtain ⟨object, hObject, rfl⟩ := protectCommand_eq_ok.mp h
  have hLe : (writtenLe short.le).length = if short.le.isSome then 3 else 0 := by
    cases short.le <;> rfl
  refine ⟨by simp, ?_⟩
  rw [ReceivedCommand.Outgrows, length_append, length_append, length_append, hLe, FixedBytes.length_val, cmacTagTruncated,
    length_cons, length_singleton]
  rcases cryptogramObject_length hData hObject with ⟨hNone, rfl⟩ | ⟨value, hLow, hHigh, hLength⟩
  · rw [hNone, length_nil]
    split <;> omega
  rw [hLength]
  split_ifs <;> simp_all <;> omega

theorem wrap_cases (aes : Aes) (channel : SmTransport) (plain : Bytes) :
    plainCommand plain = none ∧ (∃ what, channel.wrap aes plain =
      ((.error (.malformed what) : Except (SmError E) _), channel)) ∨
    ∃ short body, plainCommand plain = some short ∧ channel.wrap aes plain =
        ((.ok (short.header, body) : Except (SmError E) _), channel.stepped) ∧
      body ≠ [] ∧ (255 < body.length ↔ short.Outgrows) ∧ (58 < body.length ↔ 32 ≤ short.data.length) := by
  cases hShort : plainCommand plain with
  | some short =>
    obtain ⟨body, hWrap, hProtect⟩ := wrap_of_command E aes channel hShort
    exact .inr ⟨short, body, rfl, hWrap,
      protectCommand_length (plainCommand_data_length hShort) hProtect⟩
  | none =>
    refine .inl ⟨rfl, ?_⟩
    unfold wrap
    split
    · rw [Option.map_eq_none_iff.mp hShort]
      exact ⟨_, rfl⟩
    · exact ⟨_, rfl⟩

theorem transmitSingle_done (h : channel.transmitSingle aes plain = .done result) :
    RefusedAs channel (∃ short, plainCommand plain = some short ∧ short.Outgrows) result := by
  unfold transmitSingle at h
  rcases wrap_cases aes channel plain with
    ⟨hNone, what, hWrap⟩ | ⟨short, body, hShort, hWrap, hSome, hLong, -⟩
  · rw [hWrap] at h
    cases h
    exact .inl ⟨⟨what, rfl⟩, by simp [hNone]⟩
  · rw [hWrap] at h
    dsimp only at h
    split at h <;> cases h
    rename_i hError
    refine .inr ⟨rfl, short, hShort, hLong.mp (Nat.lt_of_not_le fun hFits => ?_)⟩
    rw [CommandApdu.case4, CommandApdu.shortFormLc_of_short hSome hFits] at hError
    cases hError

theorem transmitCredential_done {command}
    (h : channel.transmitCredential aes command = .done result) :
    RefusedAs channel (∃ short, plainCommand command.wire = some short ∧ 32 ≤ short.data.length)
      result := by
  unfold transmitCredential at h
  rcases wrap_cases aes channel command.wire with
    ⟨hNone, what, hWrap⟩ | ⟨short, body, hShort, hWrap, hSome, -, hLong⟩
  · rw [hWrap] at h
    cases h
    exact .inl ⟨⟨what, rfl⟩, by simp [hNone]⟩
  · rw [hWrap] at h
    dsimp only at h
    split at h <;> cases h
    rename_i hError
    refine .inr ⟨rfl, short, hShort, hLong.mp (Nat.lt_of_not_le fun hFits => ?_)⟩
    rw [CredentialCommand.fromProtectedParts, dif_neg hSome, dif_neg
      (by simp only [credentialWireMax, apduHeaderLen]; omega)] at hError
    cases hError

theorem splitProtectedRead_cases (command : Bytes) :
    splitProtectedRead command = (.ok none : Except (SmError E) _) ∨
      command.length = headerLen + 1 ∧ ((∃ what, splitProtectedRead command =
          (.error (.malformed what) : Except (SmError E) _)) ∨
        ∃ first second, first.length = headerLen + 1 ∧ splitProtectedRead command =
          (.ok (some (first, second)) : Except (SmError E) _)) := by
  unfold splitProtectedRead
  split
  · dsimp only
    split_ifs <;> first
      | exact .inl rfl
      | exact .inr ⟨rfl, .inl ⟨_, rfl⟩⟩
      | exact .inr ⟨rfl, .inr ⟨_, _, rfl, rfl⟩⟩
  · exact .inl rfl

/-- A read has no data to protect. -/
theorem not_outgrows_of_read (hPlain : plain.length = headerLen + 1) :
    ¬∃ short, plainCommand plain = some short ∧ short.Outgrows := by
  rintro ⟨short, hShort, hLong⟩
  have hData : short.data = [] := by
    unfold plainCommand at hShort
    split at hShort
    · obtain ⟨⟨data, le⟩, hDecode, rfl⟩ := Option.map_eq_some_iff.mp hShort
      rw [decodeShortApdu, if_neg (by omega), if_pos hPlain] at hDecode
      obtain ⟨le, -, hPair⟩ := Option.map_eq_some_iff.mp hDecode
      exact (congrArg Prod.fst hPair).symm
    · cases hShort
  rw [ReceivedCommand.Outgrows, hData, length_nil] at hLong
  omega

theorem transmitFragmentedRead_done {first second} (hFirst : first.length = headerLen + 1)
    (h : channel.transmitFragmentedRead aes first second = .done result) :
    ∃ what, result = (.error (.malformed what), channel) := by
  unfold transmitFragmentedRead at h
  cases hSingle : (channel.transmitSingle aes first : SmDialogue E _) with
  | ask request next =>
    rw [hSingle] at h
    cases h
  | done single =>
    rcases transmitSingle_done hSingle with ⟨⟨what, rfl⟩, -⟩ | ⟨-, hLong⟩
    · rw [hSingle] at h
      cases h
      exact ⟨what, rfl⟩
    · exact absurd hLong (not_outgrows_of_read hFirst)

theorem call_done {call} (h : channel.call aes call = .done result) :
    RefusedAs channel call.TooLong result := by
  cases call with
  | transmitCredential command => exact transmitCredential_done h
  | transmit command =>
    change channel.transmit aes command = .done result at h
    unfold transmit at h
    rcases splitProtectedRead_cases command.bytes with
      hNone | ⟨hRead, ⟨what, hSplit⟩ | ⟨first, second, hFirst, hSplit⟩⟩
    · rw [hNone] at h
      exact transmitSingle_done h
    · rw [hSplit] at h
      cases h
      exact .inl ⟨⟨what, rfl⟩, not_outgrows_of_read hRead⟩
    · rw [hSplit] at h
      exact .inl ⟨transmitFragmentedRead_done hFirst h, not_outgrows_of_read hRead⟩

end Refused

/-- A command that is refused before anything is sent leaves both ends in step,
so that the next exchange works, unless its data is too long under protection. -/
theorem refused_command_in_step_iff {E : Type} {aes : Aes} {session : Session}
    (hAgrees : session.terminal = session.card) {call : InnerCall} {error : SmError E}
    {after : SmTransport} (hRefused : session.terminal.call aes call = .done (.error error, after)) :
    (after.ssc = session.terminal.ssc ∧ ∀ next : Exchange, next.Carried E aes →
      ∃ received last, { session with terminal := after }.exchange aes next =
          (.ok ((received, .response next.answer), last) : Except (SmError E) _) ∧
        plainCommand next.plain = some received) ↔ ¬call.TooLong := by
  rcases call_done hRefused with ⟨⟨what, hResult⟩, hFits⟩ | ⟨hResult, hLong⟩
  · cases hResult
    refine iff_of_true ⟨rfl, fun next hNext => ?_⟩ hFits
    obtain ⟨flight, hSend, hSent⟩ := send_carried hAgrees hNext
    refine ⟨flight.received, { flight.session with terminal := session.terminal.stepped.stepped },
      ?_, hSent.received⟩
    rw [exchange, hSend]
    simp only [ok_bind, hSent.deliver]
  · cases hResult
    refine iff_of_false ?_ (not_not_intro hLong)
    rintro ⟨hCounter, -⟩
    have hValue := congrArg Ssc.value hCounter
    rw [SmTransport.stepped_ssc, Ssc.value_increment] at hValue
    omega

/-- 240 bytes fit a command but not the protected one. -/
def longCommand : CommandApdu :=
  .fromWire ([0x00, 0x2A, 0x9E, 0x9A, 240] ++ List.replicate 240 0)

set_option maxRecDepth 20000 in
/-- The terminal is ahead of the card by a counter value. -/
theorem long_command_out_of_step :
    ∃ after : SmTransport, (start zeroChannel).terminal.call Aes.transparent
        (.transmit longCommand) = (.done (.error .commandTooLong, after) : SmDialogue Empty _) ∧
      after.ssc ≠ (start zeroChannel).card.ssc :=
  ⟨zeroChannel.stepped, rfl, by decide⟩

/-- After a command without a whole header the next read is answered. -/
theorem refused_header_in_step :
    ∃ received last, (start zeroChannel).exchange Aes.transparent readOneByte =
      (.ok ((received, .response readOneByte.answer), last) : Except (SmError Empty) _) := by
  have hRefused : (start zeroChannel).terminal.call Aes.transparent
      (.transmit (.fromWire [0x00])) = (.done (.error (.malformed
        "command shorter than its header"), zeroChannel) : SmDialogue Empty _) := rfl
  have hFits : ¬(InnerCall.transmit (.fromWire [0x00])).TooLong := by
    rintro ⟨short, hShort, -⟩
    cases hShort
  obtain ⟨-, hNext⟩ := (refused_command_in_step_iff rfl hRefused).mpr hFits
  obtain ⟨received, last, hExchange, -⟩ := hNext readOneByte readOneByte_carried
  exact ⟨received, last, hExchange⟩

end RefineId.Pace
