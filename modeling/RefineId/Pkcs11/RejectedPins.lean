import RefineId.Auth.Credentials
import RefineId.Data.Text

/-! The memory of refused PINs over both slots (`crates/pin-cache/src/lib.rs`). -/
namespace RefineId.PinCache

open Data Auth List

/-- The serial a card reports, as rendered. -/
structure TokenSerial where
  asStr : String
  deriving DecidableEq

def cacheFingerprintLen : Nat := 32

/-- The keyed hash: no tag when the key is unusable. -/
abbrev Mac : Type := Bytes → Bytes → Option Bytes

/-- The mark of one PIN on one card. Whatever cannot be marked shares the mark
of zeros. -/
def pinFingerprint (mac : Mac) (slotTag : UInt8) (serial digits key : Bytes) : Bytes :=
  if serial.length < 2 ^ 32 ∧ digits.length < 2 ^ 8 then
    (mac key (beBytes 4 serial.length ++ serial ++ [slotTag, UInt8.ofNat digits.length]
      ++ digits)).getD (replicate cacheFingerprintLen 0)
  else replicate cacheFingerprintLen 0

/-- A PIN as the cache knows it: its slot and its digits. -/
structure CachedPin where
  slot : PinSlot
  secret : SecretDigits pinMinLength pinMaxLength

def CachedPin.ofPin1 (pin : Pin1) : CachedPin :=
  ⟨.pin1, pin.secret⟩

def slotTag : PinSlot → UInt8
  | .pin1 => 1
  | .pin2 => 2

def CachedPin.digits (pin : CachedPin) : Bytes :=
  pin.secret.secretBytes

def CachedPin.keyedFingerprint (mac : Mac) (pin : CachedPin) (serial key : Bytes) : Bytes :=
  pinFingerprint mac (slotTag pin.slot) serial pin.digits key

/-- The PINs the cards of this process refused, as marks only. -/
structure PinSafetyCache where
  fingerprintKey : Bytes
  rejected : PinSlot → List Bytes

namespace PinSafetyCache
variable (mac : Mac)

def new (fingerprintKey : Bytes) : PinSafetyCache :=
  ⟨fingerprintKey, fun _ => []⟩

variable (cache : PinSafetyCache) (serial : TokenSerial)

def fingerprint (pin : CachedPin) : Bytes :=
  pin.keyedFingerprint mac (asBytes serial.asStr) cache.fingerprintKey

def containsFingerprint (slot : PinSlot) (candidate : Bytes) : Bool :=
  (cache.rejected slot).any (· == candidate)

def isRejected (pin : CachedPin) : Bool :=
  cache.containsFingerprint pin.slot (cache.fingerprint mac serial pin)

def recordFingerprint (slot : PinSlot) (fingerprint : Bytes) : PinSafetyCache :=
  if cache.containsFingerprint slot fingerprint then cache
  else { cache with
    rejected := Function.update cache.rejected slot (cache.rejected slot ++ [fingerprint]) }

def recordRejected (pin : CachedPin) : PinSafetyCache :=
  cache.recordFingerprint pin.slot (cache.fingerprint mac serial pin)

variable (calls : List (TokenSerial × CachedPin))

/-- The cache after calls one after another. -/
def recordAll : PinSafetyCache :=
  calls.foldl (fun cache call => cache.recordRejected mac call.1 call.2) cache

def markInput (pin : CachedPin) : Bytes :=
  beBytes 4 (asBytes serial.asStr).length ++ asBytes serial.asStr ++
    [slotTag pin.slot, UInt8.ofNat pin.digits.length] ++ pin.digits

def mark (key input : Bytes) : Bytes :=
  (mac key input).getD (replicate cacheFingerprintLen 0)

variable {mac} {cache : PinSafetyCache} {serial other : TokenSerial} {pin otherPin : CachedPin}

theorem fingerprint_eq (h : (asBytes serial.asStr).length < 2 ^ 32) :
    cache.fingerprint mac serial pin = mark mac cache.fingerprintKey (markInput serial pin) := by
  have hDigits : pin.digits.length < 2 ^ 8 := pin.secret.length_le.trans_lt (by decide)
  rw [fingerprint, CachedPin.keyedFingerprint, pinFingerprint, if_pos ⟨h, hDigits⟩]
  rfl

theorem markInput_inj (hSerial : (asBytes serial.asStr).length < 2 ^ 32)
    (hOther : (asBytes other.asStr).length < 2 ^ 32)
    (h : markInput serial pin = markInput other otherPin) :
    serial = other ∧ pin.slot = otherPin.slot ∧ pin.digits = otherPin.digits := by
  simp only [markInput, append_assoc] at h
  obtain ⟨hWidth, h⟩ := append_inj h (by rw [beBytes_length, beBytes_length])
  obtain ⟨hText, h⟩ := append_inj h (beBytes_injective hSerial hOther hWidth)
  obtain ⟨hHead, hDigits⟩ := append_inj h rfl
  have hSlot : slotTag pin.slot = slotTag otherPin.slot := (cons.inj hHead).1
  refine ⟨?_, ?_, hDigits⟩
  · obtain ⟨text⟩ := serial
    exact congrArg TokenSerial.mk (asBytes_injective hText)
  · revert hSlot
    cases pin.slot <;> cases otherPin.slot <;> decide

@[simp] theorem fingerprintKey_recordRejected :
    (cache.recordRejected mac serial pin).fingerprintKey = cache.fingerprintKey := by
  rw [recordRejected, recordFingerprint]
  split <;> rfl

theorem isRejected_iff : cache.isRejected mac serial pin = true ↔
    cache.fingerprint mac serial pin ∈ cache.rejected pin.slot := by
  rw [isRejected, containsFingerprint, any_beq', contains_iff_mem]

variable {slot : PinSlot} {candidate : Bytes}

theorem mem_rejected_recordRejected :
    candidate ∈ (cache.recordRejected mac serial pin).rejected slot ↔
      candidate ∈ cache.rejected slot ∨
        pin.slot = slot ∧ candidate = cache.fingerprint mac serial pin := by
  rw [recordRejected, recordFingerprint]
  split
  · rename_i hKnown
    have hMem : cache.fingerprint mac serial pin ∈ cache.rejected pin.slot := by
      simpa [containsFingerprint] using hKnown
    refine ⟨.inl, ?_⟩
    rintro (h | ⟨rfl, rfl⟩)
    · exact h
    · exact hMem
  · by_cases hSlot : pin.slot = slot
    · subst hSlot
      simp
    · simp [hSlot, Function.update_of_ne (Ne.symm hSlot)]

/-- What counts as refused after one more refusal is recorded. -/
theorem isRejected_recordRejected :
    (cache.recordRejected mac serial pin).isRejected mac other otherPin = true ↔
      cache.isRejected mac other otherPin = true ∨ pin.slot = otherPin.slot ∧
        cache.fingerprint mac other otherPin = cache.fingerprint mac serial pin := by
  rw [isRejected_iff, mem_rejected_recordRejected, isRejected_iff]
  simp only [fingerprint, fingerprintKey_recordRejected]

theorem fingerprintKey_recordAll :
    (cache.recordAll mac calls).fingerprintKey = cache.fingerprintKey := by
  induction calls generalizing cache with
  | nil => rfl
  | cons call rest ih => exact ih.trans fingerprintKey_recordRejected

theorem mem_rejected_recordAll :
    candidate ∈ (cache.recordAll mac calls).rejected slot ↔ candidate ∈ cache.rejected slot ∨
      ∃ call ∈ calls, call.2.slot = slot ∧ candidate = cache.fingerprint mac call.1 call.2 := by
  induction calls generalizing cache with
  | nil => simp [recordAll]
  | cons call rest ih =>
    show candidate ∈ ((cache.recordRejected mac call.1 call.2).recordAll mac rest).rejected slot ↔ _
    rw [ih, mem_rejected_recordRejected, or_assoc]
    simp [fingerprint]

/-- As long as no two different inputs among what was recorded and what is
asked share a mark, a PIN counts as rejected if and only if it was recorded for
this card and slot. -/
theorem rejected_pins_exact (mac : Mac) (key : Bytes) (calls : List (TokenSerial × CachedPin))
    (serial : TokenSerial) (pin : CachedPin) (hSerial : (asBytes serial.asStr).length < 2 ^ 32)
    (hCalls : ∀ call ∈ calls, (asBytes call.1.asStr).length < 2 ^ 32)
    (hMarks : ∀ call ∈ calls,
      mark mac key (markInput serial pin) = mark mac key (markInput call.1 call.2) →
        markInput serial pin = markInput call.1 call.2) :
    ((new key).recordAll mac calls).isRejected mac serial pin = true ↔
      ∃ call ∈ calls, call.1 = serial ∧ call.2.slot = pin.slot ∧ call.2.digits = pin.digits := by
  have hKey : ((new key).recordAll mac calls).fingerprintKey = key := fingerprintKey_recordAll calls
  have hRejected : ((new key).recordAll mac calls).isRejected mac serial pin = true ↔
      ∃ call ∈ calls, call.2.slot = pin.slot ∧
        mark mac key (markInput serial pin) = (new key).fingerprint mac call.1 call.2 := by
    rw [isRejected_iff, mem_rejected_recordAll, fingerprint_eq hSerial, hKey]
    simp [new]
  rw [hRejected]
  constructor
  · rintro ⟨call, hCall, hSlot, hSame⟩
    rw [fingerprint_eq (hCalls call hCall)] at hSame
    obtain ⟨rfl, -, hDigits⟩ :=
      markInput_inj hSerial (hCalls call hCall) (hMarks call hCall hSame)
    exact ⟨call, hCall, rfl, hSlot, hDigits.symm⟩
  · rintro ⟨call, hCall, rfl, hSlot, hDigits⟩
    refine ⟨call, hCall, hSlot, ?_⟩
    rw [fingerprint_eq hSerial, markInput, markInput, hSlot, hDigits]
    rfl

def samplePin (slot : PinSlot) : CachedPin :=
  ⟨slot, [0x31, 0x32, 0x33, 0x34], by decide, by decide, by decide, by simp [IsAsciiDigit]⟩

/-- The same digits are no PIN2 that was refused. -/
theorem rejected_pin1_not_pin2 :
    ((new []).recordAll (fun _ => some) [(⟨"A"⟩, samplePin .pin1)]).isRejected (fun _ => some) ⟨"A"⟩
      (samplePin .pin2) = false := by
  rw [← Bool.not_eq_true, rejected_pins_exact (fun _ => some) [] _ ⟨"A"⟩ _ (by decide) (by decide)
    fun _ _ h => h]
  decide

end PinSafetyCache

end RefineId.PinCache
