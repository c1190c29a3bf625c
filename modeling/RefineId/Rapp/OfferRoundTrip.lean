import RefineId.Rapp.Offer
import RefineId.Rapp.Wire.Size

/-! Bootstrap answers are read as they were written, only what could have been
written is read, and an offer is never read as a busy answer. -/
namespace RefineId.Rapp

open Data BTreeMap List PairingBusy PairingOffer WireValue BTreeMap

variable {map : Body} {candidate : TransportCandidate}

section Readers
variable {rest : Body} {fields : List String} {done : Unit}

theorem takeHeader_eq_ok : takeHeader fields map = .ok (done, rest) ↔
      (∀ key ∈ map.keys.list, key ∈ fields) ∧ map.get? "scheme" = some (.text scheme) ∧
        map.get? "version" = some (.array versionValues) ∧
        (map.erase "scheme").erase "version" = rest := by
  simp [takeHeader, takeOffer, stateT_bind_eq_ok, rejectOutside_eq_ok, ensure_eq_ok,
    takeField_eq_ok asText?_eq_some, takeField_eq_ok asArray?_eq_some,
    get?_erase, -stateT_bind_apply]

theorem takeTextArray_eq_ok {field texts} :
    takeTextArray field map = .ok (texts, rest) ↔
      map.get? field = some (.array (texts.map .text)) ∧ map.erase field = rest := by
  simp [takeTextArray, takeOffer, stateT_bind_eq_ok, stateT_lift_eq_ok,
    takeField_eq_ok asArray?_eq_some, selectAll_eq_ok asText?_eq_some,
    -stateT_bind_apply, -stateT_lift_apply]

theorem takeTransport_eq_ok : takeTransport map = .ok (candidate, rest) ↔
      .map map = transportToValue candidate ∧
        ((map.erase "profile").erase "candidate_id").erase "parameters" = rest := by
  rw [transportToValue, WireValue.map.injEq, eq_ofList_iff (by simp)]
  obtain ⟨profile, -, parameters⟩ := candidate
  simp only [takeTransport, takeOffer, stateT_bind_eq_ok, rejectOutside_eq_ok, stateT_pure_eq_ok,
    takeField_eq_ok asText?_eq_some, takeField_eq_ok asMap?_eq_some]
  simp [get?_erase, and_assoc]

end Readers

theorem transportFromValue_eq_ok {value} :
    transportFromValue value = .ok candidate ↔ value = transportToValue candidate := by
  cases value with
  | map map =>
    simp only [transportFromValue, bind_eq_ok, Prod.exists, takeTransport_eq_ok, Except.ok.injEq]
    constructor
    · rintro ⟨_, _, ⟨hMap, -⟩, rfl⟩
      exact hMap
    · intro hMap
      exact ⟨_, _, ⟨hMap, rfl⟩, rfl⟩
  | _ => simp [transportFromValue, transportToValue]

variable {bytes : Bytes}

theorem decodeBootstrapMap_eq_ok : decodeBootstrapMap bytes = .ok map ↔
      bytes.length ≤ maxOfferSize ∧ decodeDeterministicCbor bytes = .ok (.map map) := by
  rw [decodeBootstrapMap]
  split
  case isTrue hLong => simp [Nat.not_le.mpr hLong]
  case isFalse hShort =>
      simp only [bind_eq_ok, mapError_eq_ok, Nat.le_of_not_lt hShort, true_and]
      constructor
      · rintro ⟨value, hValue, h⟩
        cases value with
        | map found =>
          cases h
          exact hValue
        | _ => cases h
      · intro hMap
        exact ⟨_, hMap, rfl⟩

variable {offer : PairingOffer}

namespace PairingOffer

/-- The maps an offer is read from are the maps valid offers are written to. -/
theorem reconstruct_eq_ok {offerId suites profiles transports offerTtlMs} :
    reconstruct offerId suites profiles transports offerTtlMs = .ok offer ↔
      offer = ⟨offerId, suites, profiles, transports, offerTtlMs⟩ ∧ offer.validate = .ok () := by
  simp only [reconstruct, bind_eq_ok, Except.ok.injEq]
  constructor
  · rintro ⟨⟨⟩, hValid, rfl⟩
    exact ⟨rfl, hValid⟩
  · rintro ⟨rfl, hValid⟩
    exact ⟨(), hValid, rfl⟩

theorem fromMap_eq_ok : fromMap map = .ok offer ↔ offer.validate = .ok () ∧ map = offer.toMap := by
  rw [toMap, eq_ofList_iff (by simp)]
  obtain ⟨-, -, -, -, -⟩ := offer
  simp only [fromMap, takeFields, takeOffer, bind_eq_ok, Prod.exists, stateT_bind_eq_ok,
    stateT_lift_eq_ok, takeHeader_eq_ok, takeTextArray_eq_ok,
    takeField_eq_ok asBytes?_eq_some, takeField_eq_ok asArray?_eq_some,
    takeField_eq_ok asUnsigned?_eq_some, mapM_eq_ok transportFromValue_eq_ok,
    mapError_eq_ok, reconstructIdentifier_eq_ok, reconstruct_eq_ok]
  simp [get?_erase, offerFields, and_assoc]
  tauto

theorem toCbor_eq_ok : offer.toCbor = .ok bytes ↔ offer.validate = .ok () ∧
      encodeDeterministicCbor (.map offer.toMap) = .ok bytes ∧ bytes.length ≤ maxOfferSize := by
  simp only [toCbor, bind_eq_ok, mapError_eq_ok]
  constructor
  · rintro ⟨⟨⟩, hValid, encoded, hEncoded, h⟩
    split_ifs at h
    cases h
    exact ⟨hValid, hEncoded, Nat.le_of_not_lt ‹_›⟩
  · rintro ⟨hValid, hEncoded, hSize⟩
    exact ⟨(), hValid, bytes, hEncoded, if_neg (Nat.not_lt.mpr hSize)⟩

/-- Bytes are read as an offer exactly when the offer is written as them. -/
theorem fromCbor_eq_ok : fromCbor bytes = .ok offer ↔ offer.toCbor = .ok bytes := by
  simp only [fromCbor, bind_eq_ok, decodeBootstrapMap_eq_ok, fromMap_eq_ok, toCbor_eq_ok]
  constructor
  · rintro ⟨_, ⟨hSize, hDecoded⟩, hValid, rfl⟩
    exact ⟨hValid, (encode_of_decode hDecoded).1, hSize⟩
  · rintro ⟨hValid, hEncoded, hSize⟩
    exact ⟨_, ⟨hSize, decode_of_encode hEncoded (hSize.trans (by decide))⟩, hValid, rfl⟩

theorem toMap_not_busy (offer : PairingOffer) : offer.toMap.contains retryAfterField = false := by
  rw [contains_eq_isSome, toMap, ofList, get?_insertAll_of_not_mem]
  · rfl
  · simp [retryAfterField]

end PairingOffer

variable {busy : PairingBusy}

namespace PairingBusy

theorem new_eq_ok {retryAfterMs} :
    new retryAfterMs = .ok busy ↔ retryAfterMs = busy.retryAfterMs := by
  unfold new
  split
  case isTrue hOutside =>
      constructor
      · intro h
        cases h
      rintro rfl
      have hAllowed := busy.allowed
      simp only [retryAfterAllowed, ← UInt64.not_lt] at hAllowed
      exact absurd hOutside (not_or.mpr hAllowed)
  case isFalse => simp [PairingBusy.ext_iff]

theorem fromMap_eq_ok : fromMap map = .ok busy ↔ map = busy.toMap := by
  rw [toMap, eq_ofList_iff (by simp [retryAfterField])]
  simp only [fromMap, takeFields, takeOffer, bind_eq_ok, Prod.exists, stateT_bind_eq_ok,
    stateT_lift_eq_ok, takeHeader_eq_ok, takeField_eq_ok asUnsigned?_eq_some, new_eq_ok]
  simp [get?_erase, busyFields, retryAfterField, and_assoc]

/-- A busy answer always encodes, in few bytes. -/
theorem toCbor_short (busy : PairingBusy) :
    ∃ bytes, busy.toCbor = .ok bytes ∧ bytes.length ≤ maxOfferSize := by
  have hMap : Sized 0 (.map busy.toMap) _ :=
    sized_record (by decide) (by simp [retryAfterField]) (by simp)
      (.cons (.field "scheme" 6 (by decide) (sized_text (by decide) (by decide)))
        (.cons (.field "version" 7 (by decide) Envelope.sized_version)
          (.cons (.field retryAfterField 14 (by decide) (sized_unsigned (by decide) _)) .nil))) rfl
  obtain ⟨bytes, hEncoded, hLength⟩ := hMap
  refine ⟨bytes, mapError_eq_ok.mpr hEncoded, ?_⟩
  have hScheme : stringSize (byteLen scheme) = 5 := by decide
  have hWait := argumentSize_le busy.retryAfterMs
  simp only [sum_cons, sum_nil, hScheme] at hLength
  rw [hLength, maxOfferSize]
  omega

theorem fromCbor_eq_ok : fromCbor bytes = .ok busy ↔ busy.toCbor = .ok bytes := by
  simp only [fromCbor, bind_eq_ok, decodeBootstrapMap_eq_ok, fromMap_eq_ok]
  constructor
  · rintro ⟨_, ⟨-, hDecoded⟩, rfl⟩
    exact mapError_eq_ok.mpr (encode_of_decode hDecoded).1
  intro hEncoded
  obtain ⟨short, hShort, hSize⟩ := busy.toCbor_short
  rw [hEncoded] at hShort
  cases hShort
  exact ⟨_, ⟨hSize, decode_of_encode (mapError_eq_ok.mp hEncoded) (hSize.trans (by decide))⟩, rfl⟩

theorem toMap_busy (busy : PairingBusy) : busy.toMap.contains retryAfterField = true := by
  simp [contains_eq_isSome, toMap, ofList, insertAll]

end PairingBusy

namespace BootstrapAnswer

theorem fromBootstrap_offer (h : offer.toCbor = .ok bytes) (profile : TransportProfile) :
    fromBootstrap bytes profile =
      if (offer.entry profile).isSome then .ok (.offer offer) else .error .transportNotOffered := by
  obtain ⟨hValid, hEncoded, hSize⟩ := toCbor_eq_ok.mp h
  have hMap : decodeBootstrapMap bytes = .ok offer.toMap :=
    decodeBootstrapMap_eq_ok.mpr ⟨hSize, decode_of_encode hEncoded (hSize.trans (by decide))⟩
  have hOffer := fromMap_eq_ok.mpr ⟨hValid, rfl⟩
  rw [fromBootstrap, hMap, ok_bind, offer.toMap_not_busy, if_neg Bool.false_ne_true, hOffer,
    ok_bind, servedOver]
  cases offer.entry profile <;> rfl

theorem fromBootstrap_busy (h : busy.toCbor = .ok bytes) (profile : TransportProfile) :
    fromBootstrap bytes profile = .ok (.busy busy) := by
  obtain ⟨map, hMap, hBusy⟩ := bind_eq_ok.mp (fromCbor_eq_ok.mpr h)
  obtain rfl := fromMap_eq_ok.mp hBusy
  rw [fromBootstrap, hMap, ok_bind, busy.toMap_busy, if_pos rfl, hBusy]
  rfl

/-- Offers and busy answers are read exactly from the bytes they are written
to, no bytes are both, and the bootstrap bytes of either are told apart. An
offer that does not list the transport it arrived over is refused, not taken
for a busy answer. -/
theorem answers_unambiguous :
    (∀ offer bytes, PairingOffer.toCbor offer = .ok bytes ↔ PairingOffer.fromCbor bytes = .ok offer) ∧
    (∀ busy bytes, PairingBusy.toCbor busy = .ok bytes ↔ PairingBusy.fromCbor bytes = .ok busy) ∧
    (∀ busy, ∃ bytes, PairingBusy.toCbor busy = .ok bytes) ∧
    (∀ bytes offer busy, PairingOffer.fromCbor bytes = .ok offer →
      PairingBusy.fromCbor bytes ≠ .ok busy) ∧
    (∀ offer bytes profile, PairingOffer.toCbor offer = .ok bytes → fromBootstrap bytes profile =
        if (offer.entry profile).isSome then .ok (.offer offer)
        else .error .transportNotOffered) ∧
    ∀ busy bytes profile, PairingBusy.toCbor busy = .ok bytes →
      fromBootstrap bytes profile = .ok (.busy busy) := by
  refine ⟨fun _ _ => PairingOffer.fromCbor_eq_ok.symm, fun _ _ => PairingBusy.fromCbor_eq_ok.symm,
    fun busy => ?_, ?_, fun _ _ profile h => fromBootstrap_offer h profile,
    fun _ _ profile h => fromBootstrap_busy h profile⟩
  · obtain ⟨bytes, hBytes, -⟩ := busy.toCbor_short
    exact ⟨bytes, hBytes⟩
  intro bytes offer busy hOffer hBusy
  -- the two readings start from the same map, which has a wait or has none
  obtain ⟨map, hMap, hOffer⟩ := bind_eq_ok.mp hOffer
  obtain ⟨other, hOther, hBusy⟩ := bind_eq_ok.mp hBusy
  rw [hMap] at hOther
  cases hOther
  have hNot := offer.toMap_not_busy
  rw [← (PairingOffer.fromMap_eq_ok.mp hOffer).2, PairingBusy.fromMap_eq_ok.mp hBusy,
    busy.toMap_busy] at hNot
  cases hNot

def streamOffer (profiles : List String) : PairingOffer :=
  ⟨⟨replicate offerIdSize 0, by decide⟩, [cpaceKc2Suite], profiles,
    [TransportProfile.stream.offerEntry], offerTtlMs⟩

/-- A written offer is no offer over a transport it does not list, and a valid
offer with too many profiles is not written at all. -/
theorem offer_not_read_everywhere :
    (∃ bytes, (streamOffer ["p"]).toCbor = .ok bytes ∧
      fromBootstrap bytes .ble = .error .transportNotOffered) ∧
    (streamOffer (replicate 150 "p")).validate = .ok () ∧
    (streamOffer (replicate 150 "p")).toCbor = .error (.oversized 549) := by
  refine ⟨?_, by decide +kernel⟩
  have hWritten : (streamOffer ["p"]).toCbor.toOption.isSome = true := by decide +kernel
  cases hBytes : (streamOffer ["p"]).toCbor with
  | error error => simp [hBytes, Except.toOption] at hWritten
  | ok bytes => exact ⟨bytes, rfl, fromBootstrap_offer hBytes .ble⟩

end BootstrapAnswer

end RefineId.Rapp
