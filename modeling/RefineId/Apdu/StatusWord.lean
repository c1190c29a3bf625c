import RefineId.Apdu.Command
import Mathlib.Tactic.IntervalCases

/-! The status word of a response (`crates/apdu/src/status_word.rs`). -/
namespace RefineId.Apdu

open Data

/-- Tries left, as the low nibble of a counter status word carries them. -/
@[ext] structure PinRetries where
  count : UInt8
  bound : count ≤ 0x0F
  deriving DecidableEq

namespace PinRetries

def max : UInt8 := 0x0F

def fromNibble (n : UInt8) : Option PinRetries :=
  if h : n ≤ 0x0F then some ⟨n, h⟩ else none

def get (retries : PinRetries) : UInt8 := retries.count

def isExhausted (retries : PinRetries) : Bool := retries.count == 0

def lowNibble (byte : UInt8) : PinRetries where
  count := byte &&& max
  bound := by
    rw [UInt8.le_iff_toNat_le, UInt8.toNat_and]
    exact Nat.and_le_right

end PinRetries

inductive StatusWord where
  | authenticationBlocked
  | authenticationFailed
  | endOfFile
  | fileNotFound
  | other (sw : UInt16)
  | pinIncorrect (retries : PinRetries)
  | referenceDataInvalidated
  | referenceDataNotFound
  | securityNotSatisfied
  | smDataObjectsIncorrect
  | success
  | wrongLength
  deriving DecidableEq

namespace StatusWord

def swSuccess : UInt16 := 0x9000
def swEndOfFile : UInt16 := 0x6282
def swAuthenticationFailed : UInt16 := 0x6300
def swWrongLength : UInt16 := 0x6700
def swSecurityNotSatisfied : UInt16 := 0x6982
def swAuthenticationBlocked : UInt16 := 0x6983
def swReferenceDataInvalidated : UInt16 := 0x6984
def swSmDataObjectsIncorrect : UInt16 := 0x6988
def swFileNotFound : UInt16 := 0x6A82
def swReferenceDataNotFound : UInt16 := 0x6A88
def swPinCounterPrefix : UInt16 := 0x63C0
def swPinCounterMask : UInt16 := 0xFFF0

def asU16 : StatusWord → UInt16
  | authenticationBlocked => swAuthenticationBlocked
  | authenticationFailed => swAuthenticationFailed
  | endOfFile => swEndOfFile
  | fileNotFound => swFileNotFound
  | other sw => sw
  | pinIncorrect retries =>
    let (sw1, prefixSw2) := u16BeBytes swPinCounterPrefix
    u16FromBytes sw1 (prefixSw2 ||| (retries.get &&& PinRetries.max))
  | referenceDataInvalidated => swReferenceDataInvalidated
  | referenceDataNotFound => swReferenceDataNotFound
  | securityNotSatisfied => swSecurityNotSatisfied
  | smDataObjectsIncorrect => swSmDataObjectsIncorrect
  | success => swSuccess
  | wrongLength => swWrongLength

def fromU16 (sw : UInt16) : StatusWord :=
  if sw = swSuccess then success
  else if sw = swEndOfFile then endOfFile
  else if sw = swAuthenticationFailed then authenticationFailed
  else if sw = swWrongLength then wrongLength
  else if sw = swSecurityNotSatisfied then securityNotSatisfied
  else if sw = swAuthenticationBlocked then authenticationBlocked
  else if sw = swReferenceDataInvalidated then referenceDataInvalidated
  else if sw = swSmDataObjectsIncorrect then smDataObjectsIncorrect
  else if sw = swFileNotFound then fileNotFound
  else if sw = swReferenceDataNotFound then referenceDataNotFound
  else if sw &&& swPinCounterMask = swPinCounterPrefix then
    pinIncorrect (.lowNibble (u16BeBytes sw).2)
  else other sw

def fromBytes (sw1 sw2 : UInt8) : StatusWord :=
  fromU16 (u16FromBytes sw1 sw2)

def isSuccess (status : StatusWord) : Bool := status == success

/-- The counter family is the sixteen words that share its first twelve bits. -/
theorem counterFamily {sw} (h : sw &&& swPinCounterMask = swPinCounterPrefix) :
    ∃ nibble < 16, sw.toNat = 0x63C0 + nibble := by
  have hWord := sw.toNat_lt
  have hNat : sw.toNat &&& 0xFFF0 = 0x63C0 := by
    have hCopy := congrArg UInt16.toNat h
    rwa [UInt16.toNat_and] at hCopy
  have hHigh : sw.toNat >>> 4 &&& 2 ^ 12 - 1 = 0x63C := by
    have hShift := congrArg (· >>> 4) hNat
    rwa [Nat.shiftRight_and_distrib] at hShift
  rw [Nat.and_two_pow_sub_one_eq_mod, Nat.shiftRight_eq_div_pow] at hHigh
  exact ⟨sw.toNat - 0x63C0, by omega, by omega⟩

theorem asU16_counter {sw} (h : sw &&& swPinCounterMask = swPinCounterPrefix) :
    (pinIncorrect (.lowNibble (u16BeBytes sw).2)).asU16 = sw := by
  obtain ⟨nibble, hNibble, hSw⟩ := counterFamily h
  have hWord : sw = UInt16.ofNat (0x63C0 + nibble) := by
    rw [← hSw, UInt16.ofNat_toNat]
  subst hWord
  clear h hSw
  interval_cases nibble <;> rfl

theorem asU16_branch {sw word} {known rest : StatusWord} (hKnown : known.asU16 = word)
    (hRest : rest.asU16 = sw) : (if sw = word then known else rest).asU16 = sw := by
  split_ifs with h
  · rw [hKnown, h]
  · exact hRest

/-- Decoding keeps every bit of a status word. -/
@[simp] theorem asU16_fromU16 (sw : UInt16) : (fromU16 sw).asU16 = sw := by
  iterate 10 refine asU16_branch rfl ?_
  split_ifs with hCounter
  · exact asU16_counter hCounter
  · rfl

@[simp] theorem fromBytes_success : fromBytes 0x90 0x00 = success := by
  decide

@[simp] theorem fromBytes_endOfFile : fromBytes 0x62 0x82 = endOfFile := by
  decide

end StatusWord

namespace ResponseApdu

def statusWord (response : ResponseApdu) : StatusWord :=
  .fromBytes response.sw1 response.sw2

def isOk (response : ResponseApdu) : Bool :=
  response.statusWord.isSuccess

@[simp] theorem statusWord_mk (body : Bytes) (sw1 sw2 : UInt8) :
    (⟨body, sw1, sw2⟩ : ResponseApdu).statusWord = .fromBytes sw1 sw2 :=
  rfl

end ResponseApdu

end RefineId.Apdu
