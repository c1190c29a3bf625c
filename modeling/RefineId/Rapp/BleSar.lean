import RefineId.Data.Chunks
import RefineId.Data.Result
import RefineId.Data.Words
import RefineId.Semantics.Run

/-! Segmentation and reassembly on the BLE channel (`crates/rapp/src/ble_sar.rs`).
A message travels as fragments, each with its total length, its place and
the role it plays. -/
namespace RefineId.Rapp

open Data Semantics List Nat

def bleSarHeaderSize : Nat := 6

/-- The fewest payload bytes of a fragment that is not the last. -/
def bleSarMinimumNonFinalPayload : Nat := 64

def bleSarSequenceLimit : Nat := 1024

def bleSarMaximumMessage : Nat := 65535

def bleSarReassemblyTimeoutMs : UInt64 := 5000

def attributeValueLimit : Nat := 512

def flagFirst : UInt8 := 1

def flagCont : UInt8 := 2

def flagLast : UInt8 := 4

def flagSingle : UInt8 := 5

def flagsDefined : UInt8 := 7

inductive BleSarError where
  | attMtuTooSmall
  | emptyFragment
  | firstFragmentNotShorterThanTotal
  | firstFragmentTooShort
  | fragmentOverCapacity
  | headerTruncated
  | illegalFlags
  | illegalTransition
  | incompleteAtLast
  | invalidCapacity
  | invalidMessageLength
  | nonFinalFragmentTooShort
  | overflow
  | reassemblyTimeout
  | reservedBitsSet
  | sequenceMismatch
  | sequenceOutOfBounds
  | singleLengthMismatch
  | totalLengthChanged
  | unexpectedInitialFragment
  | zeroTotalLength
  deriving DecidableEq

def fragment (total sequence : Nat) (flags : UInt8) (payload : Bytes) : Bytes :=
  beBytes 2 total ++ (beBytes 2 sequence ++ (flags :: 0 :: payload))

def capacityAllowed (capacity : Nat) : Bool :=
  bleSarMinimumNonFinalPayload ≤ capacity && capacity ≤ attributeValueLimit - bleSarHeaderSize

variable {capacity : Nat}

theorem capacityAllowed_iff : capacityAllowed capacity = true ↔ 64 ≤ capacity ∧ capacity ≤ 506 := by
  rw [capacityAllowed, Bool.and_eq_true, decide_eq_true_eq, decide_eq_true_eq]
  rfl

theorem capacity_pos (h : capacityAllowed capacity = true) : 0 < capacity :=
  lt_of_lt_of_le (by decide) (capacityAllowed_iff.mp h).1

/-- Split a message into the fragments that carry it, in order. -/
def segment (message : Bytes) (capacity : Nat) : Except BleSarError (List Bytes) :=
  if !capacityAllowed capacity then .error .invalidCapacity
  else if message.isEmpty || bleSarMaximumMessage < message.length then
    .error .invalidMessageLength
  else if message.length ≤ capacity then .ok [fragment message.length 0 flagSingle message]
  else
    let chunks := chunks capacity message
    let last := chunks.length - 1
    .ok (chunks.mapIdx fun sequence payload =>
      let flags :=
        if sequence = 0 then flagFirst else if sequence = last then flagLast else flagCont
      fragment message.length sequence flags payload)

def field (fragment : Bytes) (offset : Nat) : Nat :=
  beValue ((fragment.drop offset).take 2)

/-- What the fragment says of its frame. -/
def totalOf (fragment : Bytes) : Nat :=
  field fragment 0

def sequenceOf (fragment : Bytes) : Nat :=
  field fragment 2

def flagsOf (fragment : Bytes) : UInt8 :=
  fragment.getD 4 0

def payloadOf (fragment : Bytes) : Bytes :=
  fragment.drop bleSarHeaderSize

structure Header where
  total : Nat
  sequence : Nat
  flags : UInt8
  deriving DecidableEq

structure BleSarReassembler where
  expectedSequence : Nat
  expectedTotal : Nat
  buffer : Bytes
  deadline : Option UInt64
  deriving DecidableEq

namespace BleSarReassembler

def new : BleSarReassembler :=
  ⟨0, 0, [], none⟩

variable (reassembler : BleSarReassembler)

def isIdle : Bool :=
  reassembler.expectedSequence = 0 && reassembler.buffer.isEmpty

/-- Drop any partial frame; nothing of it is kept. -/
def reset (_ : BleSarReassembler) : BleSarReassembler :=
  new

def timerExpired (nowMs : UInt64) : Bool :=
  reassembler.deadline.any (· ≤ nowMs)

def checkTimer (nowMs : UInt64) : Except BleSarError Unit × BleSarReassembler :=
  if reassembler.timerExpired nowMs then (.error .reassemblyTimeout, reassembler.reset)
  else (.ok (), reassembler)

def header (fragment : Bytes) (capacity : Nat) : Except BleSarError Header :=
  if fragment.length < bleSarHeaderSize then .error .headerTruncated
  else if fragment.getD 5 0 ≠ 0 then .error .reservedBitsSet
  else if !([flagFirst, flagCont, flagLast, flagSingle].contains (flagsOf fragment)) then
    .error (if flagsOf fragment &&& ~~~flagsDefined = 0 then .illegalFlags else .reservedBitsSet)
  else
    let payloadLen := fragment.length - bleSarHeaderSize
    if payloadLen = 0 then .error .emptyFragment
    else if capacity < payloadLen then .error .fragmentOverCapacity
    else if bleSarSequenceLimit ≤ sequenceOf fragment then .error .sequenceOutOfBounds
    else if totalOf fragment = 0 then .error .zeroTotalLength
    else .ok ⟨totalOf fragment, sequenceOf fragment, flagsOf fragment⟩

def begin (header : Header) (payload : Bytes) (nowMs : UInt64) :
    Except BleSarError (Option Bytes × BleSarReassembler) :=
  if !(header.flags = flagFirst || header.flags = flagSingle) || header.sequence ≠ 0 then
    .error .unexpectedInitialFragment
  else if header.flags = flagSingle then
    if header.total ≠ payload.length then .error .singleLengthMismatch
    else .ok (some payload, reassembler)
  else if payload.length < bleSarMinimumNonFinalPayload then .error .firstFragmentTooShort
  else if header.total ≤ payload.length then .error .firstFragmentNotShorterThanTotal
  else
    .ok (none, ⟨1, header.total, reassembler.buffer ++ payload,
        some (saturatingAdd nowMs bleSarReassemblyTimeoutMs)⟩)

def continueFrame (header : Header) (payload : Bytes) :
    Except BleSarError (Option Bytes × BleSarReassembler) :=
  let isLast : Bool := header.flags = flagLast
  if !isLast && header.flags ≠ flagCont then .error .illegalTransition
  else if header.total ≠ reassembler.expectedTotal then .error .totalLengthChanged
  else if header.sequence ≠ reassembler.expectedSequence then .error .sequenceMismatch
  else if !isLast && payload.length < bleSarMinimumNonFinalPayload then
    .error .nonFinalFragmentTooShort
  else if reassembler.expectedTotal < reassembler.buffer.length + payload.length then
    .error .overflow
  else
    let buffer := reassembler.buffer ++ payload
    if !isLast then
      .ok (none, { reassembler with buffer, expectedSequence := reassembler.expectedSequence + 1 })
    else if buffer.length ≠ reassembler.expectedTotal then .error .incompleteAtLast
    else .ok (some buffer, reassembler.reset)

/-- What an accepted fragment delivers, and the machine after it. A refused
one needs no machine: `receive` resets whatever was changed before. -/
def accept (fragment : Bytes) (capacity : Nat) (nowMs : UInt64) :
    Except BleSarError (Option Bytes × BleSarReassembler) :=
  if reassembler.timerExpired nowMs then .error .reassemblyTimeout
  else do
    let header ← header fragment capacity
    if reassembler.isIdle then reassembler.begin header (payloadOf fragment) nowMs
    else reassembler.continueFrame header (payloadOf fragment)

def receive (fragment : Bytes) (capacity : Nat)
    (nowMs : UInt64) : Except BleSarError (Option Bytes) × BleSarReassembler :=
  match reassembler.accept fragment capacity nowMs with
  | .error error => (.error error, reassembler.reset)
  | .ok (delivered, after) => (.ok delivered, after)

end BleSarReassembler

section Fields
variable (total sequence : Nat) (flags : UInt8) (payload : Bytes)

theorem fragment_length : (fragment total sequence flags payload).length =
    payload.length + bleSarHeaderSize := by
  simp only [fragment, length_append, beBytes_length, length_cons, bleSarHeaderSize]
  omega

theorem totalOf_fragment (h : total < 65536) :
    totalOf (fragment total sequence flags payload) = total := by
  rw [totalOf, field, fragment, drop_zero, take_left' (beBytes_length 2 total)]
  exact beValue_beBytes h

theorem sequenceOf_fragment (h : sequence < 65536) :
    sequenceOf (fragment total sequence flags payload) = sequence := by
  rw [sequenceOf, field, fragment, drop_left' (beBytes_length 2 total),
    take_left' (beBytes_length 2 sequence)]
  exact beValue_beBytes h

/-- What follows the two 16-bit fields. -/
theorem fragment_drop (count : Nat) : (fragment total sequence flags payload).drop (4 + count) =
      (flags :: 0 :: payload).drop count := by
  rw [fragment, ← append_assoc, ← drop_drop, drop_left' (by simp)]

theorem flagsOf_fragment : flagsOf (fragment total sequence flags payload) = flags := by
  have hHead := congrArg head? (fragment_drop total sequence flags payload 0)
  rw [head?_drop] at hHead
  rw [flagsOf, getD_eq_getElem?_getD, hHead, drop_zero, head?_cons, Option.getD_some]

theorem reserved_fragment : (fragment total sequence flags payload).getD 5 0 = 0 := by
  have hHead := congrArg head? (fragment_drop total sequence flags payload 1)
  rw [head?_drop] at hHead
  rw [getD_eq_getElem?_getD, hHead]
  rfl

theorem payloadOf_fragment : payloadOf (fragment total sequence flags payload) = payload :=
  fragment_drop total sequence flags payload 2

end Fields

/-! What each check admits. -/

/-- What `header` asks of a fragment. -/
structure Admitted (fragment : Bytes) (capacity : Nat) : Prop where
  payload : payloadOf fragment ≠ []
  fits : (payloadOf fragment).length ≤ capacity
  reserved : fragment.getD 5 0 = 0
  flags : flagsOf fragment ∈ [flagFirst, flagCont, flagLast, flagSingle]
  sequence : sequenceOf fragment < bleSarSequenceLimit
  total : totalOf fragment ≠ 0

theorem admitted_fragment {total sequence flags payload}
    (hTotal : 0 < total ∧ total < 65536) (hSequence : sequence < bleSarSequenceLimit)
    (hFlags : flags ∈ [flagFirst, flagCont, flagLast, flagSingle])
    (hPayload : payload ≠ [] ∧ payload.length ≤ capacity) :
    Admitted (fragment total sequence flags payload) capacity where
  payload := by rw [payloadOf_fragment]; exact hPayload.1
  fits := by rw [payloadOf_fragment]; exact hPayload.2
  reserved := reserved_fragment _ _ _ _
  flags := by rw [flagsOf_fragment]; exact hFlags
  sequence := by
    rw [sequenceOf_fragment _ _ _ _ (hSequence.trans (by decide))]
    exact hSequence
  total := by
    rw [totalOf_fragment _ _ _ _ hTotal.2]
    exact ne_of_gt hTotal.1

namespace BleSarReassembler

@[simp] theorem isIdle_new : new.isIdle = true := rfl

variable {reassembler : BleSarReassembler}

theorem isIdle_eq_false (h : 0 < reassembler.expectedSequence) : reassembler.isIdle = false := by
  simp [isIdle, ne_of_gt h]

variable {fragment : Bytes}

theorem header_eq_ok {found} : header fragment capacity = .ok found ↔
      Admitted fragment capacity ∧
        found = ⟨totalOf fragment, sequenceOf fragment, flagsOf fragment⟩ := by
  have hLength : (payloadOf fragment).length = fragment.length - bleSarHeaderSize :=
    length_drop
  unfold header
  dsimp only
  constructor
  · intro h
    split_ifs at h with hLong hReserved hFlags hEmpty hFits hSequence hTotal
    cases h
    refine ⟨⟨?_, ?_, not_not.mp hReserved, ?_, Nat.lt_of_not_le hSequence, hTotal⟩, rfl⟩
    · intro hNil
      exact hEmpty (by rw [← hLength, hNil, length_nil])
    · exact hLength ▸ Nat.le_of_not_lt hFits
    · rw [Bool.not_eq_true', Bool.not_eq_false] at hFlags
      exact contains_iff_mem.mp hFlags
  rintro ⟨hAdmitted, rfl⟩
  have hPayload := length_pos_iff.mpr hAdmitted.payload
  have hFits := hAdmitted.fits
  rw [hLength] at hPayload hFits
  have hFlags : [flagFirst, flagCont, flagLast, flagSingle].contains (flagsOf fragment) = true :=
    contains_iff_mem.mpr hAdmitted.flags
  rw [if_neg (by omega), if_neg (not_not.mpr hAdmitted.reserved), if_neg (by rw [hFlags]; decide),
    if_neg (by omega), if_neg (by omega), if_neg (not_le.mpr hAdmitted.sequence),
    if_neg hAdmitted.total]

/-- The four ways to accept a fragment, with what each delivers and leaves. -/
inductive Accepts (reassembler : BleSarReassembler) (fragment : Bytes) (nowMs : UInt64) :
    Option Bytes → BleSarReassembler → Prop where
  | single (hIdle : reassembler.isIdle = true) (hFlags : flagsOf fragment = flagSingle)
      (hSequence : sequenceOf fragment = 0)
      (hTotal : totalOf fragment = (payloadOf fragment).length) :
      Accepts reassembler fragment nowMs (some (payloadOf fragment)) reassembler
  | first (hIdle : reassembler.isIdle = true) (hFlags : flagsOf fragment = flagFirst)
      (hSequence : sequenceOf fragment = 0)
      (hMinimum : bleSarMinimumNonFinalPayload ≤ (payloadOf fragment).length)
      (hTotal : (payloadOf fragment).length < totalOf fragment) :
      Accepts reassembler fragment nowMs none
        ⟨1, totalOf fragment, reassembler.buffer ++ payloadOf fragment,
          some (saturatingAdd nowMs bleSarReassemblyTimeoutMs)⟩
  | cont (hBusy : reassembler.isIdle = false) (hFlags : flagsOf fragment = flagCont)
      (hTotal : totalOf fragment = reassembler.expectedTotal)
      (hSequence : sequenceOf fragment = reassembler.expectedSequence)
      (hMinimum : bleSarMinimumNonFinalPayload ≤ (payloadOf fragment).length)
      (hFits : (reassembler.buffer ++ payloadOf fragment).length ≤ reassembler.expectedTotal) :
      Accepts reassembler fragment nowMs none { reassembler with
          buffer := reassembler.buffer ++ payloadOf fragment
          expectedSequence := reassembler.expectedSequence + 1 }
  | last (hBusy : reassembler.isIdle = false) (hFlags : flagsOf fragment = flagLast)
      (hTotal : totalOf fragment = reassembler.expectedTotal)
      (hSequence : sequenceOf fragment = reassembler.expectedSequence)
      (hComplete : (reassembler.buffer ++ payloadOf fragment).length = reassembler.expectedTotal) :
      Accepts reassembler fragment nowMs (some (reassembler.buffer ++ payloadOf fragment)) new

variable {after : BleSarReassembler} {nowMs : UInt64} {delivered : Option Bytes}

/-- `accept` takes exactly the fragments of `Accepts`. -/
theorem accept_eq_ok : reassembler.accept fragment capacity nowMs = .ok (delivered, after) ↔
      reassembler.timerExpired nowMs = false ∧ Admitted fragment capacity ∧
        reassembler.Accepts fragment nowMs delivered after := by
  unfold accept
  constructor
  · intro h
    cases hTimer : reassembler.timerExpired nowMs with
    | true => simp [hTimer] at h
    | false =>
    rw [if_neg (by simp [hTimer])] at h
    obtain ⟨found, hHeader, h⟩ := bind_eq_ok.mp h
    obtain ⟨hAdmitted, rfl⟩ := header_eq_ok.mp hHeader
    refine ⟨rfl, hAdmitted, ?_⟩
    split at h
    case isTrue hIdle =>
      unfold begin at h
      split_ifs at h with hInitial hSingle hTotal hMinimum hTotal <;> cases h
      all_goals simp only [Bool.or_eq_true, Bool.not_eq_true', Bool.or_eq_false_iff,
        decide_eq_true_eq, decide_eq_false_iff_not, not_or, not_and, not_not, ne_eq] at hInitial
      · exact .single hIdle hSingle hInitial.2 (not_not.mp hTotal)
      · exact .first hIdle (by tauto) hInitial.2 (Nat.le_of_not_lt hMinimum)
          (Nat.lt_of_not_le hTotal)
    case isFalse hNotIdle =>
      have hBusy : reassembler.isIdle = false := Bool.not_eq_true _ ▸ hNotIdle
      unfold continueFrame at h
      dsimp only at h
      split_ifs at h with hFlags hTotal hSequence hMinimum hFits hLast hComplete <;> cases h
      all_goals
        simp only [Bool.and_eq_true, Bool.not_eq_true', decide_eq_true_eq,
          decide_eq_false_iff_not, not_and, not_not, ne_eq, not_lt] at *
      · exact .cont hBusy (hFlags hLast) hTotal hSequence (hMinimum hLast)
          (by rw [length_append]; exact hFits)
      · exact .last hBusy hLast hTotal hSequence hComplete
  rintro ⟨hTimer, hAdmitted, hAccepts⟩
  rw [if_neg (by simp [hTimer]), header_eq_ok.mpr ⟨hAdmitted, rfl⟩, ok_bind]
  cases hAccepts with
  | single hIdle hFlags hSequence hTotal => simp [hIdle, begin, hFlags, hSequence, hTotal]
  | first hIdle hFlags hSequence hMinimum hTotal =>
    have hShort := Nat.not_lt.mpr hMinimum
    have hNotAll := Nat.not_le.mpr hTotal
    simp [hIdle, begin, hFlags, hSequence, hShort, hNotAll, show flagFirst ≠ flagSingle by decide]
  | cont hBusy hFlags hTotal hSequence hMinimum hFits =>
    have hShort := Nat.not_lt.mpr hMinimum
    have hOver := Nat.not_lt.mpr (length_append ▸ hFits)
    simp [hBusy, continueFrame, hFlags, hSequence, hTotal, hShort, hOver,
      show flagCont ≠ flagLast by decide]
  | last hBusy hFlags hTotal hSequence hComplete =>
    have hOver := Nat.not_lt.mpr (length_append ▸ hComplete.le)
    simp [hBusy, continueFrame, hFlags, hSequence, hTotal, hOver, hComplete, reset]

theorem receive_of_accepts (hTimer : reassembler.timerExpired nowMs = false)
    (hAdmitted : Admitted fragment capacity)
    (hAccepts : reassembler.Accepts fragment nowMs delivered after) :
    reassembler.receive fragment capacity nowMs = (.ok delivered, after) := by
  rw [receive, accept_eq_ok.mpr ⟨hTimer, hAdmitted, hAccepts⟩]

/-- A fragment is either accepted or answered with an error by a new machine. -/
theorem receive_cases (reassembler : BleSarReassembler) (fragment : Bytes) (capacity : Nat)
    (nowMs : UInt64) :
    (∃ error, reassembler.receive fragment capacity nowMs = (.error error, new)) ∨
      ∃ delivered after, reassembler.receive fragment capacity nowMs = (.ok delivered, after) ∧
        Admitted fragment capacity ∧ reassembler.Accepts fragment nowMs delivered after := by
  cases hAccept : reassembler.accept fragment capacity nowMs with
  | error error => exact .inl ⟨error, by rw [receive, hAccept]; rfl⟩
  | ok outcome =>
    obtain ⟨-, hAdmitted, hAccepts⟩ := accept_eq_ok.mp hAccept
    exact .inr ⟨_, _, by rw [receive, hAccept], hAdmitted, hAccepts⟩

end BleSarReassembler

/-! The machine over any sequence of calls. -/

inductive BleSarCall where
  | receive (fragment : Bytes) (capacity : Nat) (nowMs : UInt64)
  | checkTimer (nowMs : UInt64)
  | reset

namespace BleSarReassembler

/-- One call. A timer check that finds nothing wrong delivers nothing. -/
def step (reassembler : BleSarReassembler) :
    BleSarCall → Except BleSarError (Option Bytes) × BleSarReassembler
  | .receive fragment capacity nowMs => reassembler.receive fragment capacity nowMs
  | .checkTimer nowMs =>
    ((reassembler.checkTimer nowMs).1.map fun _ => none, (reassembler.checkTimer nowMs).2)
  | .reset => (.ok none, reassembler.reset)

end BleSarReassembler

end RefineId.Rapp
