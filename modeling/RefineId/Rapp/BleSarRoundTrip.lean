import RefineId.Rapp.BleSar

/-! What `segment` sends arrives: messages cut into fragments and handed in
order to one reassembler come out as they were. -/
namespace RefineId.Rapp

open Data Semantics List Nat

def continued (total : Nat) : Nat → List Bytes → List Bytes
  | _, [] => []
  | sequence, [payload] => [fragment total sequence flagLast payload]
  | sequence, payload :: next :: rest =>
    fragment total sequence flagCont payload :: continued total (sequence + 1) (next :: rest)

theorem mapIdx_continued (total last : Nat) (payloads : List Bytes) (sequence : Nat)
    (hFirst : 0 < sequence) (hLast : last + 1 = sequence + payloads.length) :
    (payloads.mapIdx fun index payload =>
      fragment total (index + sequence) (if index + sequence = 0 then flagFirst
          else if index + sequence = last then flagLast else flagCont) payload) =
      continued total sequence payloads := by
  induction payloads generalizing sequence with
  | nil => rfl
  | cons payload rest ih =>
    have hZero : sequence ≠ 0 := ne_of_gt hFirst
    rw [mapIdx_cons, zero_add, if_neg hZero]
    cases rest with
    | nil =>
      have hIsLast : sequence = last := by simpa using hLast.symm
      rw [if_pos hIsLast, mapIdx_nil, continued]
    | cons next rest =>
      simp only [length_cons] at hLast ih
      have hMiddle : sequence ≠ last := by omega
      rw [if_neg hMiddle, continued, ← ih (sequence + 1) (by omega) (by omega)]
      simp only [add_assoc, add_comm 1]

variable {message : Bytes} {capacity : Nat}

/-- A message that does not fit one fragment is cut into a first full chunk
and a rest. -/
theorem segment_long (hCapacity : capacityAllowed capacity = true)
    (hMaximum : message.length ≤ bleSarMaximumMessage) (hLong : capacity < message.length) :
    segment message capacity = .ok (fragment message.length 0 flagFirst (message.take capacity) ::
        continued message.length 1 (chunks capacity (message.drop capacity))) := by
  have hSize : 0 < capacity := capacity_pos hCapacity
  have hMessage : message ≠ [] := ne_nil_of_length_pos (by omega)
  rw [segment, if_neg (by rw [hCapacity]; decide), if_neg (by simp [hMessage, hMaximum]),
    if_neg (not_le.mpr hLong)]
  dsimp only
  rw [chunks_cons hSize hMessage, mapIdx_cons, if_pos rfl,
    mapIdx_continued _ _ _ 1 one_pos (by simp [add_comm])]

theorem segment_short (hCapacity : capacityAllowed capacity = true) (hMessage : message ≠ [])
    (hMaximum : message.length ≤ bleSarMaximumMessage) (hShort : message.length ≤ capacity) :
    segment message capacity = .ok [fragment message.length 0 flagSingle message] := by
  rw [segment, if_neg (by rw [hCapacity]; decide), if_neg (by simp [hMessage, hMaximum]),
    if_pos hShort]

theorem segment_eq_ok {frame} (h : segment message capacity = .ok frame) :
    capacityAllowed capacity = true ∧ message ≠ [] ∧ message.length ≤ bleSarMaximumMessage := by
  unfold segment at h
  split_ifs at h with hCapacity hMessage hShort
  all_goals
    simp only [Bool.or_eq_true, List.isEmpty_iff, decide_eq_true_eq, not_or, not_lt] at hMessage
    exact ⟨by simpa using hCapacity, hMessage⟩

@[simp] theorem continued_length (total sequence : Nat) (payloads : List Bytes) :
    (continued total sequence payloads).length = payloads.length := by
  induction payloads generalizing sequence with
  | nil => rfl
  | cons payload rest ih =>
    cases rest with
    | nil => rfl
    | cons next rest => rw [continued, length_cons, ih, ← length_cons]

theorem mem_continued {total sequence payloads built}
    (h : built ∈ continued total sequence payloads) :
    ∃ index flags, ∃ payload ∈ payloads, index < sequence + payloads.length ∧
      built = fragment total index flags payload := by
  induction payloads generalizing sequence with
  | nil => simp [continued] at h
  | cons payload rest ih =>
    cases rest with
    | nil =>
      rw [continued, mem_singleton] at h
      exact ⟨sequence, _, payload, mem_cons_self, by simp, h⟩
    | cons next rest =>
      rw [continued] at h
      rcases mem_cons.mp h with rfl | h
      · exact ⟨sequence, _, payload, mem_cons_self, by simp, rfl⟩
      obtain ⟨index, flags, other, hOther, hIndex, rfl⟩ := ih h
      simp only [length_cons] at hIndex ⊢
      exact ⟨index, flags, other, mem_cons_of_mem _ hOther, by omega, rfl⟩

/-- The largest message at the smallest capacity just stays below the limit
of sequences. -/
theorem chunks_after_first (hCapacity : capacityAllowed capacity = true)
    (hMaximum : message.length ≤ bleSarMaximumMessage) :
    (chunks capacity (message.drop capacity)).length < bleSarSequenceLimit := by
  have hSize : 0 < capacity := capacity_pos hCapacity
  rw [capacityAllowed_iff] at hCapacity
  rw [chunks_length, length_drop, div_lt_iff_lt_mul hSize]
  simp only [bleSarMaximumMessage, bleSarSequenceLimit] at hMaximum ⊢
  omega

/-- The calls that hand over fragments at the times they arrive. -/
def arrivals (capacity : Nat) : List Bytes → List UInt64 → List BleSarCall :=
  zipWith fun fragment nowMs => .receive fragment capacity nowMs

/-- Every fragment arrives before the timer that the first one starts. -/
def Timely : List UInt64 → Prop
  | [] => True
  | first :: later => ∀ nowMs ∈ later, nowMs < saturatingAdd first bleSarReassemblyTimeoutMs

/-- A message sent whole: its fragments, and when each one arrives. -/
structure Transmission (capacity : Nat) where
  message : Bytes
  frame : List Bytes
  clock : List UInt64
  segmented : segment message capacity = .ok frame
  timed : clock.length = frame.length
  timely : Timely clock

namespace Transmission
variable (transmission : Transmission capacity)

def calls : List BleSarCall :=
  arrivals capacity transmission.frame transmission.clock

/-- The message at its last fragment, and nothing before. -/
def replies : List (Except BleSarError (Option Bytes)) :=
  replicate (transmission.frame.length - 1) (.ok none) ++ [.ok (some transmission.message)]

end Transmission

namespace BleSarReassembler

def answers (reassembler : BleSarReassembler) (calls : List BleSarCall) :
    List (Except BleSarError (Option Bytes)) :=
  (history step reassembler calls).map Event.reply

theorem answers_cons_receive {reassembler after fragment nowMs reply}
    (h : reassembler.receive fragment capacity nowMs = (reply, after)) (rest : List BleSarCall) :
    reassembler.answers (.receive fragment capacity nowMs :: rest) = reply :: after.answers rest ∧
      final step reassembler (.receive fragment capacity nowMs :: rest) =
        final step after rest := by
  have hStep : step reassembler (.receive fragment capacity nowMs) = (reply, after) := h
  simp only [answers, history, event, final, hStep, map_cons, and_self]

/-! Each kind of fragment that `segment` builds, at the machine it is meant for. -/

section Built
variable {total sequence : Nat} {payload received : Bytes} {nowMs deadline : UInt64}
  (hTotal : 0 < total ∧ total < 65536) (hPayload : payload ≠ [] ∧ payload.length ≤ capacity)

include hTotal hPayload

theorem receive_fragment {reassembler flags delivered after}
    (hTimer : timerExpired reassembler nowMs = false) (hLimit : sequence < bleSarSequenceLimit)
    (hKnown : flags ∈ [flagFirst, flagCont, flagLast, flagSingle])
    (hAccepts : ∀ built, flagsOf built = flags → sequenceOf built = sequence →
      totalOf built = total → payloadOf built = payload →
        reassembler.Accepts built nowMs delivered after) :
    reassembler.receive (fragment total sequence flags payload) capacity nowMs =
      (.ok delivered, after) :=
  receive_of_accepts hTimer (admitted_fragment hTotal hLimit hKnown hPayload)
    (hAccepts _ (flagsOf_fragment _ _ _ _)
      (sequenceOf_fragment _ _ _ _ (hLimit.trans (by decide)))
      (totalOf_fragment _ _ _ _ hTotal.2) (payloadOf_fragment _ _ _ _))

theorem receive_single (hLength : total = payload.length) :
    new.receive (fragment total 0 flagSingle payload) capacity nowMs =
      (.ok (some payload), new) := by
  refine receive_fragment hTotal hPayload rfl (by decide) (by decide) ?_
  rintro built hFlags hSequence rfl rfl
  exact .single rfl hFlags hSequence hLength

theorem receive_first (hMinimum : bleSarMinimumNonFinalPayload ≤ payload.length)
    (hLength : payload.length < total) :
    new.receive (fragment total 0 flagFirst payload) capacity nowMs =
      (.ok none, ⟨1, total, payload, some (saturatingAdd nowMs bleSarReassemblyTimeoutMs)⟩) := by
  refine receive_fragment hTotal hPayload rfl (by decide) (by decide) ?_
  rintro built hFlags hSequence rfl rfl
  exact .first rfl hFlags hSequence hMinimum hLength

variable (hStarted : 0 < sequence) (hLimit : sequence < bleSarSequenceLimit)
  (hTimely : nowMs < deadline)
include hStarted hLimit hTimely

theorem receive_cont (hMinimum : bleSarMinimumNonFinalPayload ≤ payload.length)
    (hFits : (received ++ payload).length ≤ total) :
    receive ⟨sequence, total, received, some deadline⟩ (fragment total sequence flagCont payload)
        capacity nowMs =
      (.ok none, ⟨sequence + 1, total, received ++ payload, some deadline⟩) := by
  refine receive_fragment hTotal hPayload (by simpa [timerExpired] using hTimely) hLimit
    (by decide) ?_
  rintro built hFlags rfl rfl rfl
  exact .cont (isIdle_eq_false hStarted) hFlags rfl rfl hMinimum hFits

theorem receive_last (hComplete : (received ++ payload).length = total) :
    receive ⟨sequence, total, received, some deadline⟩ (fragment total sequence flagLast payload)
        capacity nowMs =
      (.ok (some (received ++ payload)), new) := by
  refine receive_fragment hTotal hPayload (by simpa [timerExpired] using hTimely) hLimit
    (by decide) ?_
  rintro built hFlags rfl rfl rfl
  exact .last (isIdle_eq_false hStarted) hFlags rfl rfl hComplete

end Built

/-- The rest of a frame, from any place in it. The induction is over the
payloads still to come. -/
theorem receive_continued {total} (hTotal : 0 < total ∧ total < 65536) {deadline}
    (payloads : List Bytes) (hSome : payloads ≠ [])
    (hPayloads : ∀ payload ∈ payloads, payload ≠ [] ∧ payload.length ≤ capacity)
    (hFull : ∀ payload ∈ payloads.dropLast, bleSarMinimumNonFinalPayload ≤ payload.length)
    (sequence : Nat) (received : Bytes) (hStarted : 0 < sequence)
    (hLimit : sequence + payloads.length ≤ bleSarSequenceLimit)
    (hRest : (received ++ payloads.flatten).length = total) (clock : List UInt64)
    (hTimed : clock.length = payloads.length) (hTimely : ∀ nowMs ∈ clock, nowMs < deadline) :
    let calls := arrivals capacity (continued total sequence payloads) clock
    let reassembler : BleSarReassembler := ⟨sequence, total, received, some deadline⟩
    reassembler.answers calls = replicate (payloads.length - 1) (.ok none) ++
          [.ok (some (received ++ payloads.flatten))] ∧
      final step reassembler calls = new := by
  dsimp only
  induction payloads generalizing sequence received clock with
  | nil => exact absurd rfl hSome
  | cons payload rest ih =>
    obtain ⟨nowMs, clock, rfl⟩ : ∃ now times, clock = now :: times :=
      exists_cons_of_length_pos (by rw [hTimed]; simp)
    rw [forall_mem_cons] at hPayloads hTimely
    have hSequence : sequence < bleSarSequenceLimit :=
      lt_of_lt_of_le (by simp) hLimit
    cases rest with
    | nil =>
      rw [flatten_singleton] at hRest ⊢
      have hNow := receive_last hTotal hPayloads.1 hStarted hSequence hTimely.1 hRest
      obtain rfl : clock = [] := by simpa using hTimed
      exact answers_cons_receive hNow []
    | cons next rest =>
      rw [dropLast_cons_cons, forall_mem_cons] at hFull
      rw [flatten_cons, ← append_assoc] at hRest ⊢
      have hFits : (received ++ payload).length ≤ total := by
        rw [← hRest]
        exact (prefix_append _ _).length_le
      have hNow := receive_cont hTotal hPayloads.1 hStarted hSequence hTimely.1 hFull.1 hFits
      simp only [length_cons] at hLimit hTimed
      obtain ⟨hAnswers, hFinal⟩ := ih (cons_ne_nil _ _) hPayloads.2 hFull.2 (sequence + 1)
        (received ++ payload) (succ_pos _)
        (by simp only [length_cons]; omega) hRest clock
        (by simp only [length_cons]; omega) hTimely.2
      obtain ⟨hStepAnswers, hStepFinal⟩ := answers_cons_receive hNow
        (arrivals capacity (continued total (sequence + 1) (next :: rest)) clock)
      rw [continued, arrivals, zipWith_cons_cons, ← arrivals, hStepAnswers, hStepFinal,
        hAnswers, hFinal]
      exact ⟨rfl, rfl⟩

open Transmission

/-- A transmitted message is delivered at its last fragment by a machine
that is new before it and after it. -/
theorem receive_transmission (transmission : Transmission capacity) :
    new.answers transmission.calls = transmission.replies ∧
      final step new transmission.calls = new := by
  obtain ⟨message, -, clock, hSegmented, hTimed, hTimely⟩ := transmission
  obtain ⟨hCapacity, hMessage, hMaximum⟩ := segment_eq_ok hSegmented
  have hPositive : 0 < message.length := length_pos_iff.mpr hMessage
  have hTotal : 0 < message.length ∧ message.length < 65536 :=
    ⟨hPositive, lt_succ_of_le hMaximum⟩
  simp only [calls, replies]
  by_cases hShort : message.length ≤ capacity
  · rw [segment_short hCapacity hMessage hMaximum hShort] at hSegmented
    cases hSegmented
    obtain ⟨nowMs, rfl⟩ := length_eq_one_iff.mp hTimed
    exact answers_cons_receive (receive_single hTotal ⟨hMessage, hShort⟩ rfl) []
  have hLong : capacity < message.length := Nat.lt_of_not_le hShort
  rw [segment_long hCapacity hMaximum hLong] at hSegmented
  cases hSegmented
  obtain ⟨nowMs, clock, rfl⟩ : ∃ now times, clock = now :: times :=
    exists_cons_of_length_pos (by rw [hTimed]; simp)
  have hSize : 0 < capacity := capacity_pos hCapacity
  have hMinimum : bleSarMinimumNonFinalPayload ≤ capacity := (capacityAllowed_iff.mp hCapacity).1
  have hFirstLength : (message.take capacity).length = capacity :=
    length_take_of_le hLong.le
  have hRestSome : chunks capacity (message.drop capacity) ≠ [] := by
    rw [chunks_cons hSize (by simpa using hLong)]
    exact cons_ne_nil _ _
  have hFirst := @receive_first capacity message.length (message.take capacity) nowMs hTotal
    ⟨ne_nil_of_length_pos (hSize.trans_le hFirstLength.ge), hFirstLength.le⟩
    (hMinimum.trans hFirstLength.ge) (hFirstLength.trans_lt hLong)
  have hJoined : message.take capacity ++ (chunks capacity (message.drop capacity)).flatten =
      message := by
    rw [chunks_flatten hSize, take_append_drop]
  obtain ⟨hAnswers, hFinal⟩ := receive_continued hTotal _ hRestSome (chunks_bounds hSize _)
    (fun payload hPayload => (chunks_full hSize _ payload hPayload) ▸ hMinimum) 1
    (message.take capacity) one_pos
    (Nat.add_comm _ _ ▸ chunks_after_first hCapacity hMaximum) (congrArg _ hJoined) clock
    (by simpa using hTimed) hTimely
  rw [hJoined] at hAnswers
  obtain ⟨hStepAnswers, hStepFinal⟩ := answers_cons_receive hFirst _
  rw [arrivals, zipWith_cons_cons, ← arrivals, hStepAnswers, hStepFinal, hAnswers, hFinal]
  obtain ⟨count, hCount⟩ := exists_eq_succ_of_ne_zero (ne_of_gt (length_pos_iff.mpr hRestSome))
  rw [length_cons, continued_length, Nat.add_sub_cancel, hCount, Nat.succ_sub_one,
    replicate_succ, cons_append]
  exact ⟨rfl, rfl⟩

theorem receive_transmissions (transmissions : List (Transmission capacity)) :
    new.answers (transmissions.flatMap calls) =
        transmissions.flatMap replies ∧
      final step new (transmissions.flatMap calls) = new := by
  induction transmissions with
  | nil => exact ⟨rfl, rfl⟩
  | cons transmission rest ih =>
    obtain ⟨hAnswers, hFinal⟩ := receive_transmission transmission
    rw [flatMap_cons, answers, history_append, map_append, ← answers, ← answers, final_append,
      hAnswers, hFinal, ih.1, ih.2, flatMap_cons]
    exact ⟨rfl, rfl⟩

/-- Every message of 1 to 65535 bytes is segmented, within the bounds of the
profile. Any messages sent one after the other are delivered in order, each
at its last fragment and nothing before it, and each leaves the machine new. -/
theorem segmented_messages_delivered {capacity : Nat} (hCapacity : 64 ≤ capacity ∧ capacity ≤ 506) :
    (∀ message : Bytes, 1 ≤ message.length → message.length ≤ 65535 →
      ∃ frame, segment message capacity = .ok frame ∧
        ∀ sent ∈ frame, sent.length ≤ capacity + bleSarHeaderSize ∧ sequenceOf sent < 1024) ∧
    ∀ transmissions : List (Transmission capacity),
      new.answers (transmissions.flatMap calls) =
          transmissions.flatMap replies ∧
        ∀ count, final step new ((transmissions.take count).flatMap calls) = new ∧
          new.isIdle = true := by
  refine ⟨fun message hNonempty hMaximum => ?_, fun transmissions =>
    ⟨(receive_transmissions transmissions).1, fun count =>
      ⟨(receive_transmissions (transmissions.take count)).2, isIdle_new⟩⟩⟩
  have hBuilt : ∀ {sequence : Nat} {flags : UInt8} {payload : Bytes},
      sequence < bleSarSequenceLimit → payload.length ≤ capacity →
      (fragment message.length sequence flags payload).length ≤ capacity + bleSarHeaderSize ∧
        sequenceOf (fragment message.length sequence flags payload) < bleSarSequenceLimit := by
    intro sequence flags payload hSequence hPayload
    rw [fragment_length, sequenceOf_fragment _ _ _ _ (hSequence.trans (by decide))]
    exact ⟨Nat.add_le_add_right hPayload _, hSequence⟩
  have hCapacity := capacityAllowed_iff.mpr hCapacity
  by_cases hShort : message.length ≤ capacity
  · refine ⟨_, segment_short hCapacity (ne_nil_of_length_pos hNonempty) hMaximum hShort, ?_⟩
    rw [forall_mem_singleton]
    exact hBuilt (by decide) hShort
  refine ⟨_, segment_long hCapacity hMaximum (Nat.lt_of_not_le hShort), ?_⟩
  rw [forall_mem_cons]
  refine ⟨hBuilt (by decide) (length_take_le _ _), ?_⟩
  intro sent hSent
  obtain ⟨index, flags, payload, hPayload, hIndex, rfl⟩ := mem_continued hSent
  have hCount := chunks_after_first hCapacity hMaximum
  exact hBuilt (by omega) (chunks_bounds (capacity_pos hCapacity) _ payload hPayload).2

def pairedTransmission : Transmission 64 where
  message := replicate 65 7
  frame := [fragment 65 0 flagFirst (replicate 64 7), fragment 65 1 flagLast [7]]
  clock := [1000, 5999]
  segmented := by decide +kernel
  timed := rfl
  timely := by
    intro nowMs hNow
    rw [mem_singleton] at hNow
    rw [hNow]
    decide

theorem pairedTransmission_delivered :
    new.answers (pairedTransmission.calls ++ pairedTransmission.calls) =
      [.ok none, .ok (some (replicate 65 7)), .ok none, .ok (some (replicate 65 7))] :=
  ((segmented_messages_delivered ⟨by decide, by decide⟩).2
    [pairedTransmission, pairedTransmission]).1

end BleSarReassembler

end RefineId.Rapp
