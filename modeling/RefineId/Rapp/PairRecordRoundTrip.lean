import RefineId.Rapp.PairRecord
import RefineId.Rapp.Wire.Size
import Mathlib.Algebra.Group.Action.Defs
import Mathlib.Algebra.Order.BigOperators.Group.List
import Mathlib.Data.List.Perm.Subperm

/-! Stored pairing records are read as they were written, and only what a
record is written to is read. -/
namespace RefineId.Rapp

open Data List BTreeMap ProfileName WireValue Except BTreeMap

namespace PairRecord

/-- The second pass encodes the map with the private key in its place. -/
theorem storedMap_insert_key (record : PairRecord) (forgottenAtMs lastSessionAtMs : Option UInt64)
    (placeholder key : Bytes) :
    (record.storedMap forgottenAtMs lastSessionAtMs placeholder).insert "local_static_private"
        (.bytes key) = record.storedMap forgottenAtMs lastSessionAtMs key := by
  conv_rhs => rw [storedMap]
  rw [eq_ofList_iff (by simp)]
  refine ⟨fun name hName => ?_, ?_⟩
  · by_contra hOther
    have hGet : ((record.storedMap forgottenAtMs lastSessionAtMs placeholder).insert
        "local_static_private" (.bytes key)).get? name = none := by
      simp only [map_cons, map_nil, mem_cons, not_or] at hOther
      simp [storedMap, ofList, insertAll, get?_insert, hOther]
    exact get?_eq_none_iff.mp hGet hName
  · simp [storedMap, ofList, insertAll, get?_insert]

section Size
variable (record : PairRecord) (forgottenAtMs lastSessionAtMs : Option UInt64)

def profilesSize : Nat :=
  stringsSize ((record.profiles.map ProfileName.asStr).map byteLen)

theorem sized_optionalTime (atMs : Option UInt64) :
    ∃ size, size ≤ 9 ∧ Sized 1 (optionalTime atMs) size := by
  cases atMs with
  | none => exact ⟨1, by decide, sized_null (by decide)⟩
  | some atMs => exact ⟨_, argumentSize_le atMs, sized_unsigned (by decide) atMs⟩

theorem displayName_short (name : DisplayName) : byteLen name.text ≤ displayNameMaxBytes := by
  have hChecked := name.checked
  unfold checkLabel at hChecked
  split_ifs at hChecked with hLong
  exact Nat.le_of_not_lt hLong

theorem sized_fixed {size total} (hTotal : stringSize size = total)
    (bytes : FixedBytes size) : Sized 1 (.bytes bytes.val) total := by
  have hBytes : Sized 1 (.bytes bytes.val) _ := sized_bytes (by decide) bytes.val
  rwa [FixedBytes.length_val, hTotal] at hBytes

theorem sized_label {text bound} (hText : byteLen text ≤ bound)
    (hBound : bound ≤ maxTextSize) : ∃ size, size ≤ bound + 9 ∧ Sized 1 (.text text) size :=
  ⟨_, (stringSize_le _).trans (Nat.add_le_add_right hText 9),
    sized_text (by decide) (hText.trans hBound)⟩

theorem recordName_short (role : EndpointRole) : byteLen role.recordName ≤ 9 := by
  cases role <;> decide

theorem sized_profiles : Sized 1 (.array (record.profiles.map fun profile => .text profile.asStr))
      record.profilesSize := by
  have hShort : ∀ text ∈ record.profiles.map asStr, byteLen text ≤ maxTextSize := by
    intro text hText
    obtain ⟨profile, -, rfl⟩ := mem_map.mp hText
    cases profile <;> decide
  have hTexts : Sized 1 (.array ((record.profiles.map asStr).map .text)) _ :=
    sized_texts (by decide) hShort
  rwa [map_map] at hTexts

theorem sized_format : Sized 1 pairRecordFormatValue 5 :=
  sized_array (by decide) (.cons (sized_unsigned (by decide) _)
    (.cons (sized_unsigned (by decide) _) (.cons (sized_unsigned (by decide) _) .nil)))

/-- Everything but the profile list takes a bounded number of bytes. -/
theorem sized_storedMap (key : StaticKey) :
    ∃ size, Sized 0 (.map (record.storedMap forgottenAtMs lastSessionAtMs key.val)) size ∧
      record.profilesSize ≤ size ∧ size ≤ record.profilesSize + 1024 := by
  obtain ⟨roleSize, hRoleSize, hRoleSized⟩ := sized_label (recordName_short record.role) (by decide)
  obtain ⟨nameSize, hNameSize, hNameSized⟩ :=
    sized_label (displayName_short record.peerDisplayName) (by decide)
  obtain ⟨createdSize, hCreatedSize, hCreatedSized⟩ := sized_optionalTime (some record.createdAtMs)
  obtain ⟨forgottenSize, hForgottenSize, hForgottenSized⟩ := sized_optionalTime forgottenAtMs
  obtain ⟨sessionSize, hSessionSize, hSessionSized⟩ := sized_optionalTime lastSessionAtMs
  have hMap : Sized 0 (.map (record.storedMap forgottenAtMs lastSessionAtMs key.val)) _ :=
    sized_record (by decide) (by simp) (by simp)
      (.cons (.field "format_version" 14 (by decide) sized_format)
      (.cons (.field "pair_id" 7 (by decide) (sized_fixed rfl record.pairId))
      (.cons (.field "role" 4 (by decide) hRoleSized)
      (.cons (.field "local_static_private" 20 (by decide) (sized_fixed rfl key))
      (.cons (.field "local_static_public" 19 (by decide) (sized_fixed rfl record.localStaticPublic))
      (.cons (.field "remote_static_public" 20 (by decide)
        (sized_fixed rfl record.remoteStaticPublic))
      (.cons (.field "grants_hash" 11 (by decide) (sized_fixed rfl record.grantsHash))
      (.cons (.field "profiles" 8 (by decide) record.sized_profiles)
      (.cons (.field "peer_display_name" 17 (by decide) hNameSized)
      (.cons (.field "created_at_ms" 13 (by decide) hCreatedSized)
      (.cons (.field "storage_confirmed" 17 (by decide) (sized_bool (by decide) _))
      (.cons (.field "forgotten_at_ms" 15 (by decide) hForgottenSized)
      (.cons (.field "last_session_at_ms" 18 (by decide) hSessionSized) .nil))))))))))))) rfl
  have hPairId : stringSize pairIdSize = 17 := by decide
  have hKey : stringSize x25519KeySize = 34 := by decide
  have hHash : stringSize grantsHashSize = 34 := by decide
  rw [displayNameMaxBytes] at hNameSize
  simp only [sum_cons, sum_nil, hPairId, hKey, hHash] at hMap
  refine ⟨_, hMap, ?_, ?_⟩
  · grind
  · grind

theorem encodeWithTimes_eq :
    ∃ bytes, record.encodeWithTimes forgottenAtMs lastSessionAtMs = .ok bytes ∧
      encodeDeterministicCbor (.map (record.storedMap forgottenAtMs lastSessionAtMs
        record.localStaticPrivate.val)) = .ok bytes ∧
      record.profilesSize ≤ bytes.length ∧ bytes.length ≤ record.profilesSize + 1024 := by
  let zeros : StaticKey := ⟨replicate x25519KeySize 0, length_replicate⟩
  obtain ⟨_, ⟨draft, hDraft, -⟩, -⟩ := record.sized_storedMap forgottenAtMs lastSessionAtMs zeros
  obtain ⟨_, ⟨bytes, hBytes, rfl⟩, hLow, hHigh⟩ :=
    record.sized_storedMap forgottenAtMs lastSessionAtMs record.localStaticPrivate
  refine ⟨bytes, ?_, hBytes, hLow, hHigh⟩
  rw [encodeWithTimes, storedMap_insert_key]
  simp only [bind_eq_ok, mapError_eq_ok]
  exact ⟨draft, hDraft, hBytes⟩

end Size

def toMap (record : PairRecord) : Body :=
  record.storedMap record.forgottenAtMs record.lastSessionAtMs record.localStaticPrivate.val

variable {record : PairRecord} {bytes : Bytes}

theorem encode_eq_ok :
    record.encode = .ok bytes ↔ encodeDeterministicCbor (.map record.toMap) = .ok bytes := by
  obtain ⟨written, hEncode, hCbor, -⟩ :=
    record.encodeWithTimes_eq record.forgottenAtMs record.lastSessionAtMs
  rw [encode, hEncode, toMap, hCbor, ok.injEq, ok.injEq]

theorem encode_total (record : PairRecord) : ∃ bytes, record.encode = .ok bytes ∧
      record.profilesSize ≤ bytes.length ∧ bytes.length ≤ record.profilesSize + 1024 := by
  obtain ⟨bytes, hEncode, -, hSize⟩ :=
    record.encodeWithTimes_eq record.forgottenAtMs record.lastSessionAtMs
  exact ⟨bytes, hEncode, hSize⟩

/-- The checks of `new` and the setters of the decoder accept exactly the
fields of records, and put each where it was. -/
theorem restored_of_new {pairId role privateKey publicKey remoteKey grantsHash profiles name createdAtMs confirmed forgottenAtMs lastSessionAtMs} :
    (∃ fresh, new pairId role privateKey publicKey remoteKey grantsHash profiles name
        createdAtMs = .ok fresh ∧
      fresh.restored confirmed forgottenAtMs lastSessionAtMs = record) ↔
    record.pairId = pairId ∧ record.role = role ∧ record.localStaticPrivate = privateKey ∧
      record.localStaticPublic = publicKey ∧ record.remoteStaticPublic = remoteKey ∧
      record.grantsHash = grantsHash ∧ record.profiles = profiles ∧
      record.peerDisplayName = name ∧ record.createdAtMs = createdAtMs ∧
      record.storageConfirmed = confirmed ∧ record.forgottenAtMs = forgottenAtMs ∧
      record.lastSessionAtMs = lastSessionAtMs := by
  constructor
  · rintro ⟨fresh, hNew, rfl⟩
    unfold new at hNew
    split_ifs at hNew
    cases hNew
    cases confirmed <;> cases forgottenAtMs <;> cases lastSessionAtMs <;>
      simp [restored, awaitingStorageConfirmation, withSessionAt, forgotten, laterSession]
  · rintro ⟨rfl, rfl, rfl, rfl, rfl, rfl, rfl, rfl, rfl, rfl, rfl, rfl⟩
    refine ⟨_, by rw [new, dif_neg (by simp [record.keysValid]),
      dif_neg record.profilesNegotiated], ?_⟩
    obtain ⟨_, _, _, _, _, _, _, _, _, confirmed, forgottenAtMs, lastSessionAtMs, _, _⟩ := record
    cases confirmed <;> cases forgottenAtMs <;> cases lastSessionAtMs <;>
      simp [restored, awaitingStorageConfirmation, withSessionAt, forgotten, laterSession]

/-- A record is taken from its own map only. -/
theorem takeFields_eq_ok {map} :
    (∃ rest, takeFields map = .ok (record, rest)) ↔ map = record.toMap := by
  rw [toMap, storedMap, eq_ofList_iff (by simp)]
  simp only [takeFields, stateT_bind_eq_ok, stateT_lift_eq_ok, stateT_pure_eq_ok,
    rejectOutside_eq_ok, ensure_eq_ok, requireEmpty_eq_ok]
  simp only [takeRecord, @takeField_eq_ok _ _ _ _ _ _ some _ id Option.some_inj, id,
    takeField_eq_ok asFixed?_eq_some,
    takeField_eq_ok asRole?_eq_some, takeField_eq_ok asArray?_eq_some,
    takeField_eq_ok asDisplayName?_eq_some, takeField_eq_ok asUnsigned?_eq_some,
    takeField_eq_ok asBool?_eq_some, takeField_eq_ok asOptionalUnsigned?_eq_some,
    selectAll_eq_ok asProfile?_eq_some, mapError_eq_ok, and_assoc, exists_and_left,
    exists_eq_left', exists_const, get?_erase, String.reduceEq, reduceIte]
  constructor
  · rintro ⟨hKeys, _, format, hFormat, hVersion, pairId, hPairId, role, hRole, privateKey, hPrivate,
      publicKey, hPublic, remoteKey, hRemote, hash, hHash, names, hNames, profiles, hProfiles, name,
      hName, created, hCreated, confirmed, hConfirmed, forgotten, hForgotten, session, hSession, -,
      fresh, hNew, hRestored, -⟩
    obtain ⟨rfl, rfl, rfl, rfl, rfl, rfl, rfl, rfl, rfl, rfl, rfl, rfl⟩ :=
      restored_of_new.mp ⟨fresh, hNew, hRestored⟩
    obtain rfl := of_decide_eq_true hVersion
    subst hProfiles
    refine ⟨hKeys, ?_⟩
    simp only [forall_mem_cons]
    exact ⟨hFormat, hPairId, hRole, hPrivate, hPublic, hRemote, hHash, hNames, hName, hCreated,
      hConfirmed, hForgotten, hSession, by simp⟩
  rintro ⟨hKeys, hGet⟩
  simp only [forall_mem_cons] at hGet
  obtain ⟨hFormat, hPairId, hRole, hPrivate, hPublic, hRemote, hHash, hNames, hName, hCreated,
    hConfirmed, hForgotten, hSession, -⟩ := hGet
  obtain ⟨fresh, hNew, hRestored⟩ := restored_of_new.mpr
    ⟨rfl, rfl, rfl, rfl, rfl, rfl, rfl, rfl, rfl, rfl, rfl, rfl⟩
  refine ⟨hKeys, _, _, hFormat, decide_eq_true rfl, _, hPairId, _, hRole, _, hPrivate, _, hPublic,
    _, hRemote, _, hHash, _, hNames, _, rfl, _, hName, _, hCreated, _, hConfirmed, _, hForgotten,
    _, hSession, ?_, fresh, hNew, hRestored, rfl⟩
  -- every key of the form has been taken, and no other was there
  intro key
  by_cases hKey : key ∈ map.keys.list
  · have hExpected := hKeys key hKey
    simp only [map_cons, map_nil, mem_cons, not_mem_nil, or_false] at hExpected
    simp only [ite_eq_left_iff]
    tauto
  · simp [get?_eq_none_iff.mpr hKey]

/-- Bytes are read as a record exactly when the record is written as them and
they are no longer than a frame may be. -/
theorem decode_eq_ok : decode bytes = .ok record ↔
      record.encode = .ok bytes ∧ bytes.length ≤ maxFramePlaintext := by
  rw [encode_eq_ok]
  simp only [decode, bind_eq_ok, mapError_eq_ok]
  constructor
  · rintro ⟨value, hDecoded, hRead⟩
    cases value with
    | map map =>
      simp only [bind_eq_ok, Prod.exists, ok.injEq] at hRead
      obtain ⟨_, rest, hFields, rfl⟩ := hRead
      obtain rfl := takeFields_eq_ok.mp ⟨rest, hFields⟩
      exact encode_of_decode hDecoded
    | _ => cases hRead
  · rintro ⟨hEncoded, hSize⟩
    obtain ⟨rest, hFields⟩ := takeFields_eq_ok.mpr (Eq.refl record.toMap)
    refine ⟨_, decode_of_encode hEncoded hSize, ?_⟩
    simp only [hFields, ok_bind]

/-- A record that lists no profile twice is short. -/
theorem profilesSize_of_nodup (hNodup : record.profiles.Nodup) : record.profilesSize ≤ 200 := by
  have hListed : record.profiles ⊆ [.cardStatus, .authentication, .documentSigning] := by
    intro profile _
    cases profile <;> simp
  have hCount : record.profiles.length ≤ 3 :=
    (subperm_of_subset hNodup hListed).length_le
  have hNames : ∀ size ∈ ((record.profiles.map asStr).map byteLen).map stringSize, size ≤ 40 := by
    intro size hSize
    simp only [map_map, mem_map, Function.comp_apply] at hSize
    obtain ⟨profile, -, rfl⟩ := hSize
    cases profile <;> decide
  have hSum := sum_le_card_nsmul _ 40 hNames
  simp only [length_map, smul_eq_mul] at hSum
  have hHeader := argumentSize_le (UInt64.ofNat ((record.profiles.map asStr).map byteLen).length)
  rw [profilesSize, stringsSize]
  calc
    _ ≤ 9 + record.profiles.length * 40 := Nat.add_le_add hHeader hSum
    _ ≤ 9 + 3 * 40 := Nat.add_le_add_left (Nat.mul_le_mul_right 40 hCount) 9
    _ ≤ 200 := by decide

/-- Stored records are read back in every field while the encoding is no
longer than a frame, which it is when no profile is listed twice, and
whatever is read is written back as the same bytes. -/
theorem stored_form_lossless :
    (∀ record bytes, encode record = .ok bytes → bytes.length ≤ maxFramePlaintext →
      decode bytes = .ok record) ∧
    (∀ bytes record, decode bytes = .ok record → encode record = .ok bytes) ∧
    ∀ record : PairRecord, record.profiles.Nodup →
      ∃ bytes, encode record = .ok bytes ∧ decode bytes = .ok record := by
  refine ⟨fun _ _ hEncoded hSize => decode_eq_ok.mpr ⟨hEncoded, hSize⟩,
    fun _ _ hDecoded => (decode_eq_ok.mp hDecoded).1, fun record hNodup => ?_⟩
  obtain ⟨bytes, hEncoded, -, hLength⟩ := record.encode_total
  have hShort := profilesSize_of_nodup hNodup
  have hSize : bytes.length ≤ maxFramePlaintext :=
    hLength.trans ((Nat.add_le_add_right hShort 1024).trans (by decide))
  exact ⟨bytes, hEncoded, decode_eq_ok.mpr ⟨hEncoded, hSize⟩⟩

def onesKey : StaticKey :=
  ⟨replicate x25519KeySize 1, length_replicate⟩

/-- The encoding of a record with 2800 profiles is longer than the decoder takes. -/
theorem decode_crowded (h : record.profiles = replicate 2800 .cardStatus) :
    ∃ bytes, encode record = .ok bytes ∧ decode bytes = .error .invalidInput := by
  obtain ⟨bytes, hEncoded, hLength, -⟩ := record.encode_total
  refine ⟨bytes, hEncoded, ?_⟩
  have hName : stringSize (byteLen cardStatus.asStr) = 24 := by decide
  have hLong : maxFramePlaintext < bytes.length := by
    refine lt_of_lt_of_le ?_ hLength
    rw [profilesSize, h, stringsSize]
    simp only [map_replicate, sum_replicate_nat, hName, maxFramePlaintext]
    omega
  rw [decode, decodeDeterministicCbor, if_pos hLong]
  rfl

theorem new_crowded : ∃ record,
    new ⟨replicate pairIdSize 1, length_replicate⟩ .proxy onesKey onesKey onesKey
      ⟨replicate grantsHashSize 1, length_replicate⟩
      (replicate 2800 .cardStatus) ⟨"phone", by decide⟩ 0 = .ok record ∧
    record.profiles = replicate 2800 .cardStatus ∧ record.storageConfirmed = true ∧
    record.forgottenAtMs = none :=
  ⟨_, by rw [new, dif_neg (by decide), dif_neg (by simp)], rfl, rfl, rfl⟩

/-- `new` takes a profile any number of times, and a record with too many of
them cannot be read back. -/
theorem crowded_record_unreadable : ∃ record bytes,
      new ⟨replicate pairIdSize 1, length_replicate⟩ .proxy onesKey onesKey onesKey
        ⟨replicate grantsHashSize 1, length_replicate⟩
        (replicate 2800 .cardStatus) ⟨"phone", by decide⟩ 0 = .ok record ∧
      encode record = .ok bytes ∧ decode bytes = .error .invalidInput := by
  obtain ⟨record, hNew, hProfiles, -⟩ := new_crowded
  obtain ⟨bytes, hUnreadable⟩ := decode_crowded hProfiles
  exact ⟨record, bytes, hNew, hUnreadable⟩

end PairRecord

end RefineId.Rapp
