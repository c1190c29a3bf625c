import Mathlib.Data.List.Nodup
import RefineId.Pkcs11.PinCache
import RefineId.Semantics.Run

/-! One slot's cache with the values out of it, over every interleaving of its
calls: what a checkout hands out, how often, and what a refusal rules out. -/
namespace RefineId.Pkcs11

open Data Apdu Auth Semantics List Option PinCache
open PinSafetyCache

variable {E : Type}

section System

/-- Whether a value is out for its VERIFY or for the operation after it. -/
inductive Stage where
  | checkedOut
  | accepted
  deriving DecidableEq

structure Handed where
  value : CheckedOut
  stage : Stage

/-- The cache, the values out of it and the number of leases made. -/
structure System where
  cache : PinSafetyCache
  out : List Handed
  leases : Lease

namespace System

def new (fingerprintKey : Bytes) : System :=
  ⟨.new fingerprintKey, [], 0⟩

def copies (system : System) : List CheckedOut :=
  system.out.map Handed.value

/-- The value out under a lease, at the stage a call takes it in. -/
def find (system : System) (lease : Lease) (stage : Stage) : Option CheckedOut :=
  (system.out.find? fun handed => handed.value.lease = lease ∧ handed.stage = stage).map
    Handed.value

def without (system : System) (lease : Lease) : List Handed :=
  system.out.filter fun handed => handed.value.lease ≠ lease

def accept (system : System) (lease : Lease) : List Handed :=
  system.out.map fun handed =>
    if handed.value.lease = lease then ⟨handed.value, .accepted⟩ else handed

end System

inductive Call (E : Type) where
  | storePin1 (serial : TokenSerial) (cardEvents : UInt32) (pin : PinBytes)
  | stagePin1Once (serial : TokenSerial) (cardEvents : UInt32) (pin : PinBytes) (now : Instant)
  | checkoutPin1 (serial : TokenSerial) (cardEvents : UInt32) (live : PinStatus) (now : Instant)
  | settleVerify (lease : Lease) (answer : Except (AuthError E) VerifyOutcome)
  | settleOperation (lease : Lease) (failure : Option (SignError E))
  | dropCheckedOut (lease : Lease)
  | dropAccepted (lease : Lease)
  | clearPositive
  | recordRejected (serial : TokenSerial) (pin : PinBytes)
  | holdsPin1 (now : Instant)

/-- What a call returns. `absent` answers a call on a value that is not out,
which no program can make. -/
inductive Reply where
  | stored (result : Except PreviouslyRejectedPin Unit)
  | checkedOut (value : Option CheckedOut)
  | settled (value : CheckedOut) (accepted : Bool)
  | cleared
  | holds (present : Bool)
  | absent

variable (mac : Mac) (kind : E → TransportErrorKind)

/-- A value dropped at either stage is gone. -/
def drop (system : System) (lease : Lease) (stage : Stage) : Reply × System :=
  match system.find lease stage with
  | none => (.absent, system)
  | some value => (.settled value false, { system with out := system.without lease })

def step (system : System) : Call E → Reply × System
  | .storePin1 serial cardEvents pin =>
    let (result, cache) := system.cache.storePin1 mac serial cardEvents pin
    (.stored result, { system with cache })
  | .stagePin1Once serial cardEvents pin now =>
    let (result, cache) := system.cache.stagePin1OnceAt mac serial cardEvents pin now
    (.stored result, { system with cache })
  | .checkoutPin1 serial cardEvents live now =>
    match system.cache.checkoutPin1At serial cardEvents live now system.leases with
    | (none, cache) => (.checkedOut none, { system with cache })
    | (some value, cache) =>
      (.checkedOut (some value), ⟨cache, system.out ++ [⟨value, .checkedOut⟩], system.leases + 1⟩)
  | .settleVerify lease answer =>
    match system.find lease .checkedOut with
    | none => (.absent, system)
    | some value =>
      match system.cache.settleVerify mac kind value answer with
      | (some value, cache) =>
        (.settled value true, { system with cache, out := system.accept lease })
      | (none, cache) =>
        (.settled value false, { system with cache, out := system.without lease })
  | .settleOperation lease failure =>
    match system.find lease .accepted with
    | none => (.absent, system)
    | some value =>
      (.settled value false, { system with
          cache := system.cache.settleOperation kind value failure
          out := system.without lease })
  | .dropCheckedOut lease => drop system lease .checkedOut
  | .dropAccepted lease => drop system lease .accepted
  | .clearPositive => (.cleared, { system with cache := system.cache.clearPositive })
  | .recordRejected serial pin =>
    (.cleared, { system with cache := system.cache.recordRejected mac serial pin })
  | .holdsPin1 now =>
    let strong (lease : Lease) := system.copies.any fun copy => copy.lease = lease
    let (present, cache) := system.cache.holdsPin1At strong now
    (.holds present, { system with cache })

end System

abbrev CacheEvent (E : Type) : Type := Event System (Call E) Reply

/-- What a successful store or stage put into the cache. -/
structure Storing where
  serial : TokenSerial
  cardEvents : UInt32
  pin : PinBytes
  retention : Pin1Retention

def CachedPin1.storing (entry : CachedPin1) : Storing :=
  ⟨entry.serial, entry.cardEvents, entry.pin, entry.retention⟩

def storedBy (event : CacheEvent E) : Option Storing :=
  match event.call, event.reply with
  | .storePin1 serial cardEvents pin, .stored (.ok ()) => some ⟨serial, cardEvents, pin, .held⟩
  | .stagePin1Once serial cardEvents pin now, .stored (.ok ()) =>
    some ⟨serial, cardEvents, pin, .bridge now⟩
  | _, _ => none

def handedBy (event : CacheEvent E) : Option CheckedOut :=
  match event.reply with
  | .checkedOut value => value
  | _ => none

/-- The lease of a value that came to its end: put back, refused or dropped. -/
def endedBy (event : CacheEvent E) : Option Lease :=
  match event.reply with
  | .settled value false => some value.lease
  | _ => none

/-- A PIN recorded as refused, by itself or as the end of a checkout. -/
def rejectedBy (event : CacheEvent E) : Option (TokenSerial × PinBytes) :=
  match event.call, event.reply with
  | .recordRejected serial pin, _ => some (serial, pin)
  | .settleVerify _ (.ok (.wrongPin _)), .settled value _ =>
    some (value.entry.serial, value.entry.pin)
  | _, _ => none

/-- An event after which no earlier value can come back. -/
def clears (event : CacheEvent E) : Bool :=
  match event.call, event.reply with
  | .clearPositive, _ => true
  | .holdsPin1 _, .holds false => event.state.cache.positivePin1.isSome
  | _, _ => (rejectedBy event).isSome

def starts (event : CacheEvent E) : Bool :=
  (storedBy event).isSome || clears event

variable {mac : Mac} {kind : E → TransportErrorKind} {system : System} {value : CheckedOut}
  {next : System} {serial : TokenSerial} {cardEvents : UInt32} {pin : PinBytes}

theorem reconstruct_pinBytes (pin : PinBytes) :
    ∃ pin1, Pin1.reconstruct pin.asBytes = .ok pin1 := by
  have hValid := pin.valid
  unfold validateDigits at hValid
  split_ifs at hValid with hEmpty hLength hDigits
  rw [Pin1.reconstruct, SecretDigits.reconstruct, dif_neg hEmpty, dif_neg hLength, dif_neg hDigits]
  exact ⟨_, rfl⟩

namespace PinSafetyCache
variable {cache : PinSafetyCache}

/-- What a recorded refusal leaves: nothing positive, in a new generation. -/
theorem recordRejected_eq (serial : TokenSerial) (pin : PinBytes) :
    ∃ negative, cache.recordRejected mac serial pin = { cache.clearPositive with negative } ∧
      (∀ other otherPin, cache.isRejected mac other otherPin →
        (cache.recordRejected mac serial pin).isRejected mac other otherPin) ∧
      (cache.recordRejected mac serial pin).isRejected mac serial pin := by
  obtain ⟨pin1, hPin⟩ := reconstruct_pinBytes pin
  have hRecord : cache.recordRejected mac serial pin = { cache.clearPositive with
      negative := cache.negative.recordRejected mac serial (.ofPin1 pin1) } := by
    rw [recordRejected, hPin]
    rfl
  refine ⟨_, hRecord, ?_, ?_⟩
  · intro other otherPin hOther
    obtain ⟨other1, hOther1⟩ := reconstruct_pinBytes otherPin
    rw [isRejected, hOther1] at hOther
    rw [isRejected, hOther1, hRecord]
    exact PinCache.PinSafetyCache.isRejected_recordRejected.mpr (.inl hOther)
  · rw [isRejected, hPin, hRecord]
    exact PinCache.PinSafetyCache.isRejected_recordRejected.mpr (.inr ⟨rfl, rfl⟩)

/-- A cache takes a value back only as it left, held and in its generation. -/
theorem restore_cases (entry : CachedPin1) : cache.restore entry = cache ∨
      (entry.retention = .held ∧ entry.generation = cache.generation ∧
        cache.positivePin1 = none ∧ cache.restore entry = { cache with positivePin1 := some entry })
    := by
  rw [restore]
  split_ifs with hKept
  · exact .inl rfl
  push Not at hKept
  obtain ⟨hHeld, hGeneration, hNone⟩ := hKept
  refine .inr ⟨hHeld, hGeneration.symm, ?_, rfl⟩
  cases hPositive : cache.positivePin1 with
  | none => rfl
  | some other => rw [hPositive] at hNone; exact absurd rfl hNone

theorem isRejected_congr {other : PinSafetyCache} (h : other.negative = cache.negative) :
    other.isRejected mac = cache.isRejected mac := by
  funext serial pin
  rw [isRejected, isRejected, h]

end PinSafetyCache

/-- An event that leaves the generation and the refused PINs as they are. -/
structure Quiet (event : CacheEvent E) (next : System) : Prop where
  starts : starts event = false
  rejected : rejectedBy event = none
  generation : next.cache.generation = event.state.cache.generation
  negative : next.cache.negative = event.state.cache.negative

/-- Everything one call can do. -/
inductive Effect (mac : Mac) (event : CacheEvent E) (next : System) : Prop where
  | stored (entry : CachedPin1) (storing : storedBy event = some entry.storing)
      (handed : handedBy event = none) (rejected : rejectedBy event = none)
      (clean : event.state.cache.isRejected mac entry.serial entry.pin = false)
      (fresh : entry.generation = next.cache.generation)
      (generation : next.cache.generation = saturatingAdd event.state.cache.generation 1)
      (positive : next.cache.positivePin1 = some entry)
      (negative : next.cache.negative = event.state.cache.negative)
      (copies : next.copies = event.state.copies)
  | cleared (clears : clears event = true) (storing : storedBy event = none)
      (handed : handedBy event = none)
      (generation : next.cache.generation = saturatingAdd event.state.cache.generation 1)
      (positive : next.cache.positivePin1 = none)
      (remembers : ∀ serial pin, event.state.cache.isRejected mac serial pin →
        next.cache.isRejected mac serial pin)
      (records : ∀ serial pin, rejectedBy event = some (serial, pin) →
        next.cache.isRejected mac serial pin)
      (copies : next.copies.Sublist event.state.copies)
  | handed (entry : CachedPin1) (live : PinStatus) (now : Instant) (quiet : Quiet event next)
      (call : event.call = .checkoutPin1 entry.serial entry.cardEvents live now)
      (value : handedBy event = some ⟨entry, event.state.leases⟩)
      (permits : pin1StatusPermitsReusableCache live)
      (isOpen : entry.retention.isOpen now)
      (found : event.state.cache.positivePin1 = some entry)
      (positive : next.cache.positivePin1 = none)
      (copies : next.copies = event.state.copies ++ [⟨entry, event.state.leases⟩])
  | ended (value : CheckedOut) (quiet : Quiet event next) (handed : handedBy event = none)
      (ends : endedBy event = some value.lease) (mem : value ∈ event.state.copies)
      (copies : next.copies = event.state.copies.filter fun copy => copy.lease ≠ value.lease)
      (positive : next.cache.positivePin1 = event.state.cache.positivePin1 ∨
        (value.entry.retention = .held ∧ value.entry.generation = event.state.cache.generation ∧
          event.state.cache.positivePin1 = none ∧
          next.cache.positivePin1 = some value.entry))
  | unchanged (quiet : Quiet event next) (handed : handedBy event = none)
      (copies : next.copies = event.state.copies)
      (positive : next.cache.positivePin1 = event.state.cache.positivePin1 ∨
        next.cache.positivePin1 = none)

section Step
variable {stage : Stage}

theorem mem_copies_of_find {lease} (h : system.find lease stage = some value) :
    value ∈ system.copies ∧ value.lease = lease := by
  obtain ⟨handed, hFind, rfl⟩ := map_eq_some_iff.mp h
  have hLease := find?_some hFind
  simp only [decide_eq_true_eq] at hLease
  exact ⟨mem_map_of_mem (mem_of_find?_eq_some hFind), hLease.1⟩

variable (lease : Lease)

theorem copies_without : (system.without lease).map Handed.value =
      system.copies.filter fun copy => copy.lease ≠ lease := by
  rw [System.without, System.copies, List.filter_map]
  rfl

theorem copies_accept : (system.accept lease).map Handed.value = system.copies := by
  rw [System.accept, System.copies, List.map_map]
  refine List.map_congr_left fun handed _ => ?_
  dsimp only [Function.comp_apply]
  split <;> rfl

theorem putPositive_effect {event : CacheEvent E} {retention}
    (hReply : event.reply =
      .stored (event.state.cache.putPositive mac serial cardEvents pin retention).1)
    (hNext : next = { event.state with
      cache := (event.state.cache.putPositive mac serial cardEvents pin retention).2 })
    (hStored : event.reply = .stored (.ok ()) →
      storedBy event = some ⟨serial, cardEvents, pin, retention⟩ ∧ rejectedBy event = none)
    (hRefused : event.reply = .stored (.error .mk) →
      starts event = false ∧ rejectedBy event = none ∧ handedBy event = none) :
    Effect mac event next := by
  rw [putPositive] at hReply hNext
  split_ifs at hReply hNext with hRejected
  · obtain ⟨hStarts, hNone, hHanded⟩ := hRefused hReply
    subst hNext
    exact .unchanged ⟨hStarts, hNone, rfl, rfl⟩ hHanded rfl (.inl rfl)
  · obtain ⟨hStoring, hNone⟩ := hStored hReply
    subst hNext
    exact .stored ⟨serial, cardEvents, pin, _, retention⟩ hStoring (by rw [handedBy, hReply]) hNone
      (Bool.not_eq_true _ ▸ hRejected) rfl rfl rfl rfl rfl

/-- The end of a checkout: the value is gone, or the cache takes it back. -/
theorem ended_effect {event : CacheEvent E} {lease} {cache : PinSafetyCache}
    (hFind : event.state.find lease stage = some value)
    (hReply : event.reply = .settled value false)
    (hQuiet : starts event = false ∧ rejectedBy event = none)
    (hCache : cache = event.state.cache ∨ (value.entry.retention = .held ∧
      value.entry.generation = event.state.cache.generation ∧
      event.state.cache.positivePin1 = none ∧
      cache = { event.state.cache with positivePin1 := some value.entry })) :
    Effect mac event { event.state with cache, out := event.state.without lease } := by
  obtain ⟨hMem, rfl⟩ := mem_copies_of_find hFind
  rcases hCache with rfl | ⟨hHeld, hGeneration, hNone, rfl⟩
  · exact .ended value ⟨hQuiet.1, hQuiet.2, rfl, rfl⟩ (by rw [handedBy, hReply])
      (by rw [endedBy, hReply]) hMem (copies_without _) (.inl rfl)
  · exact .ended value ⟨hQuiet.1, hQuiet.2, rfl, rfl⟩ (by rw [handedBy, hReply])
      (by rw [endedBy, hReply]) hMem (copies_without _) (.inr ⟨hHeld, hGeneration, hNone, rfl⟩)

theorem drop_effect {event : CacheEvent E} {lease}
    (h : (event.reply, next) = drop event.state lease stage)
    (hCall : starts event = false ∧ rejectedBy event = none) : Effect mac event next := by
  rw [drop] at h
  cases hFind : event.state.find lease stage with
  | none =>
    rw [hFind] at h
    obtain ⟨hReply, rfl⟩ := Prod.mk.inj h
    exact .unchanged ⟨hCall.1, hCall.2, rfl, rfl⟩ (by rw [handedBy, hReply]) rfl (.inl rfl)
  | some value =>
    rw [hFind] at h
    obtain ⟨hReply, rfl⟩ := Prod.mk.inj h
    exact ended_effect hFind hReply hCall (.inl rfl)

theorem recordRejected_effect {event : CacheEvent E} {out}
    (hClears : clears event = true) (hStoring : storedBy event = none)
    (hHanded : handedBy event = none) (hRejected : rejectedBy event = some (serial, pin))
    (hOut : (out.map Handed.value).Sublist event.state.copies) :
    Effect mac event { event.state with
      cache := event.state.cache.recordRejected mac serial pin, out } := by
  obtain ⟨negative, hRecord, hRemembers, hRecords⟩ :=
    @PinSafetyCache.recordRejected_eq mac event.state.cache serial pin
  refine .cleared hClears hStoring hHanded ?_ ?_ hRemembers ?_ hOut
  · rw [hRecord]
    rfl
  · rw [hRecord]
    rfl
  · intro other otherPin hOther
    obtain ⟨rfl, rfl⟩ := Prod.mk.inj (some.inj (hRejected.symm.trans hOther))
    exact hRecords

theorem settleVerify_effect (answer : Except (AuthError E) VerifyOutcome) :
    Effect mac (event (step mac kind) system (.settleVerify lease answer))
      (step mac kind system (.settleVerify lease answer)).2 := by
  cases hFind : system.find lease .checkedOut with
  | none =>
    simp only [event, step, hFind]
    exact .unchanged ⟨by cases answer with | error e => rfl | ok o => cases o <;> rfl,
      by cases answer with | error e => rfl | ok o => cases o <;> rfl, rfl, rfl⟩ rfl rfl (.inl rfl)
  | some value =>
    cases answer <;> simp only [event, step, hFind, settleVerify]
    case ok outcome =>
      cases outcome with
      | ok => exact .unchanged ⟨rfl, rfl, rfl, rfl⟩ rfl (copies_accept lease) (.inl rfl)
      | wrongPin retriesLeft =>
        exact recordRejected_effect rfl rfl rfl rfl  (by rw [copies_without]; exact filter_sublist)
      | locked | other sw => exact ended_effect hFind rfl ⟨rfl, rfl⟩ (.inl rfl)
    case error error =>
      cases error with
      | transport error | outcome outcome =>
        dsimp only
        split_ifs with hUnanswered
        · exact ended_effect hFind rfl ⟨rfl, rfl⟩ (PinSafetyCache.restore_cases _)
        · exact ended_effect hFind rfl ⟨rfl, rfl⟩ (.inl rfl)
      | command error | retryFloor refusal | pinLength refusal =>
        exact ended_effect hFind rfl ⟨rfl, rfl⟩ (.inl rfl)

theorem settleOperation_effect (failure : Option (SignError E)) :
    Effect mac (event (step mac kind) system (.settleOperation lease failure))
      (step mac kind system (.settleOperation lease failure)).2 := by
  cases hFind : system.find lease .accepted with
  | none =>
    simp only [event, step, hFind]
    exact .unchanged ⟨rfl, rfl, rfl, rfl⟩ rfl rfl (.inl rfl)
  | some value =>
    simp only [event, step, hFind, settleOperation]
    split_ifs with hLeft
    · exact ended_effect hFind rfl ⟨rfl, rfl⟩ (.inl rfl)
    · exact ended_effect hFind rfl ⟨rfl, rfl⟩ (PinSafetyCache.restore_cases _)

theorem checkoutPin1_effect (serial : TokenSerial) (cardEvents : UInt32) (live : PinStatus)
    (now : Instant) :
    Effect mac (event (step mac kind) system (.checkoutPin1 serial cardEvents live now))
      (step mac kind system (.checkoutPin1 serial cardEvents live now)).2 := by
  cases hPositive : system.cache.positivePin1 with
  | none =>
    simp only [event, step, checkoutPin1At, hPositive]
    exact .unchanged ⟨rfl, rfl, rfl, rfl⟩ rfl rfl (.inl rfl)
  | some entry =>
    by_cases hUsable : entry.serial = serial ∧ entry.cardEvents = cardEvents ∧
        pin1StatusPermitsReusableCache live ∧ entry.retention.isOpen now
    · simp only [event, step, checkoutPin1At, hPositive, if_pos hUsable]
      obtain ⟨rfl, rfl, hPermits, hOpen⟩ := hUsable
      exact .handed entry live now ⟨rfl, rfl, rfl, rfl⟩ rfl rfl hPermits hOpen
        hPositive rfl (by simp [System.copies])
    · simp only [event, step, checkoutPin1At, hPositive, if_neg hUsable]
      exact .unchanged ⟨rfl, rfl, rfl, rfl⟩ rfl rfl (.inr rfl)

theorem holdsPin1_effect (now : Instant) :
    Effect mac (event (step mac kind) system (.holdsPin1 now))
      (step mac kind system (.holdsPin1 now)).2 := by
  simp only [event, step, holdsPin1At]
  split_ifs with hOutstanding
  · exact .unchanged ⟨rfl, rfl, rfl, rfl⟩ rfl rfl (.inl rfl)
  cases hPositive : system.cache.positivePin1 with
  | none =>
    have hStarts : starts (⟨system, .holdsPin1 now, .holds false⟩ : CacheEvent E) =
        false := by
      simp [starts, storedBy, clears, hPositive]
    exact .unchanged ⟨hStarts, rfl, rfl, rfl⟩ rfl rfl (.inl rfl)
  | some entry =>
    dsimp only
    split_ifs with hOpen
    · exact .unchanged ⟨rfl, rfl, rfl, rfl⟩ rfl rfl (.inl rfl)
    refine .cleared ?_ rfl rfl rfl rfl (fun _ _ h => h) ?_ (Sublist.refl _)
    · simp [clears, hPositive]
    · intro serial pin hRejected
      cases hRejected

theorem step_effect (call : Call E) :
    Effect mac (event (step mac kind) system call) (step mac kind system call).2 := by
  cases call with
  | storePin1 serial cardEvents pin | stagePin1Once serial cardEvents pin now =>
    exact putPositive_effect rfl rfl
      (fun h => ⟨by rw [storedBy, h]; rfl, by rw [rejectedBy, h]; rfl⟩)
      (fun h => ⟨by rw [starts, storedBy, clears, rejectedBy, h]; rfl,
        by rw [rejectedBy, h]; rfl, by rw [handedBy, h]⟩)
  | checkoutPin1 serial cardEvents live now => exact checkoutPin1_effect serial cardEvents live now
  | settleVerify lease answer => exact settleVerify_effect lease answer
  | settleOperation lease failure => exact settleOperation_effect lease failure
  | dropCheckedOut lease | dropAccepted lease => exact drop_effect rfl ⟨rfl, rfl⟩
  | clearPositive =>
    exact .cleared rfl rfl rfl rfl rfl (fun _ _ h => h) (fun _ _ h => by cases h)
      (Sublist.refl _)
  | recordRejected serial pin => exact recordRejected_effect rfl rfl rfl rfl (Sublist.refl _)
  | holdsPin1 now => exact holdsPin1_effect now

end Step

section Invariant
variable {past later : List (CacheEvent E)} {entry : CachedPin1} {event : CacheEvent E}

/-- A value the cache has or can still take back. -/
def Live (system : System) (entry : CachedPin1) : Prop :=
  system.cache.positivePin1 = some entry ∨
    (entry.generation = system.cache.generation ∧ ∃ copy ∈ system.copies, copy.entry = entry)

/-- What happened since a value was put in: nothing replaced, cleared or refused
it, and each checkout of it is still out or came to its end. -/
structure Since (system : System) (entry : CachedPin1) (later : List (CacheEvent E)) :
    Prop where
  quiet : ∀ event ∈ later, starts event = false
  ended : ∀ first event rest value, later = first ++ event :: rest → handedBy event = some value →
      (∃ copy ∈ system.copies, copy.lease = value.lease ∧
        copy.entry.generation = system.cache.generation) ∨
        ∃ last ∈ rest, endedBy last = some value.lease
  once : entry.retention ≠ .held → system.cache.positivePin1.isSome →
    ∀ event ∈ later, handedBy event = none

theorem Since.nil : Since system entry ([] : List (CacheEvent E)) where
  quiet := by simp
  ended := by simp
  once := by simp

theorem Since.append (h : Since event.state entry later) (hQuiet : Quiet event next)
    (hHanded : ∀ value, handedBy event = some value → ∃ copy ∈ next.copies,
      copy.lease = value.lease ∧ copy.entry.generation = next.cache.generation)
    (hCopies : ∀ copy ∈ event.state.copies, copy ∈ next.copies ∨ endedBy event = some copy.lease)
    (hOnce : entry.retention ≠ .held → next.cache.positivePin1.isSome →
      event.state.cache.positivePin1.isSome ∧ handedBy event = none) :
    Since next entry (later ++ [event]) where
  quiet := forall_mem_snoc h.quiet hQuiet.starts
  ended := by
    intro first other rest value hSplit hValue
    rcases eq_nil_or_concat rest with rfl | ⟨rest, last, rfl⟩
    · obtain ⟨-, hLast⟩ := append_inj' hSplit rfl
      obtain ⟨rfl, -⟩ := cons.inj hLast
      exact .inl (hHanded value hValue)
    rw [concat_eq_append, ← cons_append, ← append_assoc] at hSplit
    rw [concat_eq_append]
    obtain ⟨hLater, hLast⟩ := append_inj' hSplit rfl
    obtain ⟨rfl, -⟩ := cons.inj hLast
    rcases h.ended first other rest value hLater hValue with
      ⟨copy, hCopy, hLease, hGeneration⟩ | ⟨last, hMem, hEnds⟩
    · rcases hCopies copy hCopy with hStill | hEnds
      · exact .inl ⟨copy, hStill, hLease, hGeneration.trans hQuiet.generation.symm⟩
      · exact .inr ⟨event, by simp, by rw [hEnds, hLease]⟩
    · exact .inr ⟨last, mem_append_left _ hMem, hEnds⟩
  once := by
    intro hRetention hSome
    obtain ⟨hBefore, hNone⟩ := hOnce hRetention hSome
    exact forall_mem_snoc (h.once hRetention hBefore) hNone

/-- The latest storing of a run put this value in. -/
def LatestStoring (past : List (CacheEvent E)) (system : System) (entry : CachedPin1) : Prop :=
  ∃ before storing later, past = before ++ storing :: later ∧
    storedBy storing = some entry.storing ∧ Since system entry later

/-- What holds of a slot after any past. -/
structure Reuse (mac : Mac) (past : List (CacheEvent E)) (system : System) : Prop where
  generation : system.cache.generation.toNat = past.countP starts
  fresh : ∀ entry, system.cache.positivePin1 = some entry →
    entry.generation = system.cache.generation
  older : ∀ copy ∈ system.copies, copy.entry.generation.toNat ≤ system.cache.generation.toNat
  alone : system.cache.positivePin1.isSome →
    ∀ copy ∈ system.copies, copy.entry.generation ≠ system.cache.generation
  distinct : (system.copies.map fun copy => copy.entry.generation).Nodup
  latest : ∀ entry, Live system entry → LatestStoring past system entry
  clean : ∀ entry, Live system entry → system.cache.isRejected mac entry.serial entry.pin = false
  remembered : ∀ event ∈ past, ∀ serial pin, rejectedBy event = some (serial, pin) →
    system.cache.isRejected mac serial pin

theorem reuse_new (fingerprintKey : Bytes) :
    Reuse mac ([] : List (CacheEvent E)) (System.new fingerprintKey) where
  generation := rfl
  fresh := fun _ h => by cases h
  older := fun _ h => by cases h
  alone := fun h => by cases h
  distinct := nodup_nil
  latest := by
    rintro entry (h | ⟨-, copy, h, -⟩)
    · cases h
    · cases h
  clean := by
    rintro entry (h | ⟨-, copy, h, -⟩)
    · cases h
    · cases h
  remembered := fun _ h => by cases h

namespace Reuse

section
variable (h : Reuse mac past event.state)
include h

/-- The generation an event starts is above every earlier one. -/
theorem generation_succ (hStarts : starts event = true)
    (hBound : (past ++ [event]).countP starts < 2 ^ 64 - 1)
    (hNext : next.cache.generation = saturatingAdd event.state.cache.generation 1) :
    next.cache.generation.toNat = event.state.cache.generation.toNat + 1 ∧
      next.cache.generation.toNat = (past ++ [event]).countP starts := by
  have hCount : (past ++ [event]).countP starts = past.countP starts + 1 := by
    rw [countP_append, countP_singleton, if_pos hStarts]
  have hGeneration := h.generation
  have hOne : (1 : UInt64).toNat = 1 := rfl
  rw [hNext, saturatingAdd_toNat, hOne]
  omega

theorem generation_quiet (hQuiet : Quiet event next) :
    next.cache.generation.toNat = (past ++ [event]).countP starts := by
  rw [hQuiet.generation, h.generation, countP_append, countP_singleton, hQuiet.starts]
  rfl

/-- No copy made before a new generation is of that generation. -/
theorem copy_ne (hNext : next.cache.generation.toNat = event.state.cache.generation.toNat + 1)
    {copy} (hCopy : copy ∈ event.state.copies) : copy.entry.generation ≠ next.cache.generation := by
  intro hSame
  have hOlder := h.older copy hCopy
  rw [hSame] at hOlder
  omega

theorem remembered_append (hKept : ∀ serial pin, event.state.cache.isRejected mac serial pin →
      next.cache.isRejected mac serial pin)
    (hRecords : ∀ serial pin, rejectedBy event = some (serial, pin) →
      next.cache.isRejected mac serial pin) :
    ∀ other ∈ past ++ [event], ∀ serial pin, rejectedBy other = some (serial, pin) →
      next.cache.isRejected mac serial pin :=
  forall_mem_snoc (fun other hOther serial pin hRejected =>
    hKept serial pin (h.remembered other hOther serial pin hRejected)) hRecords

theorem remembered_quiet (hQuiet : Quiet event next) :
    ∀ other ∈ past ++ [event], ∀ serial pin, rejectedBy other = some (serial, pin) →
      next.cache.isRejected mac serial pin := by
  refine h.remembered_append (fun serial pin hRejected => ?_) (fun serial pin hRejected => ?_)
  · rw [isRejected_congr hQuiet.negative]
    exact hRejected
  · rw [hQuiet.rejected] at hRejected
    cases hRejected

/-- After an event that brings no value to life, what is live was put in by the
same storing. -/
theorem latest_append (hLive : Live event.state entry)
    (hAppend : ∀ {later}, Since event.state entry later → Since next entry (later ++ [event])) :
    LatestStoring (past ++ [event]) next entry := by
  obtain ⟨before, storing, later, rfl, hStored, hSince⟩ := h.latest entry hLive
  exact ⟨before, storing, later ++ [event], by simp, hStored, hAppend hSince⟩

theorem clean_quiet (hQuiet : Quiet event next) (hLive : Live event.state entry) :
    next.cache.isRejected mac entry.serial entry.pin = false := by
  rw [isRejected_congr hQuiet.negative]
  exact h.clean entry hLive

theorem stored (hBound : (past ++ [event]).countP starts < 2 ^ 64 - 1)
    (hStoring : storedBy event = some entry.storing) (hRejected : rejectedBy event = none)
    (hClean : event.state.cache.isRejected mac entry.serial entry.pin = false)
    (hFresh : entry.generation = next.cache.generation)
    (hGeneration : next.cache.generation = saturatingAdd event.state.cache.generation 1)
    (hPositive : next.cache.positivePin1 = some entry)
    (hNegative : next.cache.negative = event.state.cache.negative)
    (hCopies : next.copies = event.state.copies) : Reuse mac (past ++ [event]) next := by
  have hStarts : starts event = true := by rw [starts, hStoring]; rfl
  obtain ⟨hNext, hCount⟩ := h.generation_succ hStarts hBound hGeneration
  have hLive : ∀ other, Live next other → other = entry := by
    rintro other (hOther | ⟨hSame, copy, hCopy, rfl⟩)
    · exact (some.inj (hPositive.symm.trans hOther)).symm
    · rw [hCopies] at hCopy
      exact absurd hSame (h.copy_ne hNext hCopy)
  constructor
  · exact hCount
  · intro other hOther
    rw [hPositive] at hOther
    rw [← some.inj hOther]
    exact hFresh
  · intro copy hCopy
    rw [hCopies] at hCopy
    have hOlder := h.older copy hCopy
    omega
  · intro _ copy hCopy
    rw [hCopies] at hCopy
    exact h.copy_ne hNext hCopy
  · rw [hCopies]
    exact h.distinct
  · intro other hOther
    rw [hLive other hOther]
    exact ⟨past, event, [], by simp, hStoring, .nil⟩
  · intro other hOther
    rw [hLive other hOther, isRejected_congr hNegative]
    exact hClean
  · refine h.remembered_append (fun serial pin hKnown => ?_) (fun serial pin hKnown => ?_)
    · rw [isRejected_congr hNegative]
      exact hKnown
    · rw [hRejected] at hKnown
      cases hKnown

theorem cleared
    (hBound : (past ++ [event]).countP starts < 2 ^ 64 - 1) (hClears : clears event = true)
    (hGeneration : next.cache.generation = saturatingAdd event.state.cache.generation 1)
    (hPositive : next.cache.positivePin1 = none)
    (hRemembers : ∀ serial pin, event.state.cache.isRejected mac serial pin →
      next.cache.isRejected mac serial pin)
    (hRecords : ∀ serial pin, rejectedBy event = some (serial, pin) →
      next.cache.isRejected mac serial pin)
    (hCopies : next.copies.Sublist event.state.copies) : Reuse mac (past ++ [event]) next := by
  have hStarts : starts event = true := by rw [starts, hClears, Bool.or_true]
  obtain ⟨hNext, hCount⟩ := h.generation_succ hStarts hBound hGeneration
  have hDead : ∀ other, ¬Live next other := by
    rintro other (hOther | ⟨hSame, copy, hCopy, rfl⟩)
    · rw [hPositive] at hOther
      cases hOther
    · exact h.copy_ne hNext (hCopies.mem hCopy) hSame
  constructor
  · exact hCount
  · intro other hOther
    rw [hPositive] at hOther
    cases hOther
  · intro copy hCopy
    have hOlder := h.older copy (hCopies.mem hCopy)
    omega
  · intro hSome
    rw [hPositive] at hSome
    cases hSome
  · exact h.distinct.sublist (hCopies.map _)
  · exact fun other hOther => absurd hOther (hDead other)
  · exact fun other hOther => absurd hOther (hDead other)
  · exact h.remembered_append hRemembers hRecords

theorem handed (hQuiet : Quiet event next)
    (hValue : handedBy event = some ⟨entry, event.state.leases⟩)
    (hFound : event.state.cache.positivePin1 = some entry)
    (hPositive : next.cache.positivePin1 = none)
    (hCopies : next.copies = event.state.copies ++ [⟨entry, event.state.leases⟩]) :
    Reuse mac (past ++ [event]) next := by
  have hFresh := h.fresh entry hFound
  have hAlone := h.alone (by rw [hFound]; rfl)
  have hLive : ∀ other, Live next other → other = entry := by
    rintro other (hOther | ⟨hSame, copy, hCopy, rfl⟩)
    · rw [hPositive] at hOther
      cases hOther
    rw [hCopies] at hCopy
    rcases mem_append.mp hCopy with hCopy | hLast
    · rw [hQuiet.generation] at hSame
      exact absurd hSame (hAlone copy hCopy)
    · rw [mem_singleton.mp hLast]
  constructor
  · exact h.generation_quiet hQuiet
  · intro other hOther
    rw [hPositive] at hOther
    cases hOther
  · rw [hCopies, hQuiet.generation]
    exact forall_mem_snoc h.older (by rw [hFresh])
  · intro hSome
    rw [hPositive] at hSome
    cases hSome
  · rw [hCopies]
    exact nodup_map_snoc h.distinct (by rwa [hFresh])
  · intro other hOther
    rw [hLive other hOther]
    refine h.latest_append (.inl hFound) (·.append hQuiet ?_ ?_ ?_)
    · intro value hThis
      obtain rfl := some.inj (hValue.symm.trans hThis)
      exact ⟨_, by rw [hCopies]; simp, rfl, hFresh.trans hQuiet.generation.symm⟩
    · intro copy hCopy
      rw [hCopies]
      exact .inl (mem_append_left _ hCopy)
    · intro _ hSome
      rw [hPositive] at hSome
      cases hSome
  · intro other hOther
    rw [hLive other hOther]
    exact h.clean_quiet hQuiet (.inl hFound)
  · exact h.remembered_quiet hQuiet

/-- A quiet event that hands nothing out and brings nothing to life. -/
theorem settled (hQuiet : Quiet event next) (hHanded : handedBy event = none)
    (hSublist : next.copies.Sublist event.state.copies)
    (hCopies : ∀ copy ∈ event.state.copies, copy ∈ next.copies ∨ endedBy event = some copy.lease)
    (hPositive : ∀ other, next.cache.positivePin1 = some other → Live event.state other)
    (hAlone : next.cache.positivePin1.isSome →
      ∀ copy ∈ next.copies, copy.entry.generation ≠ event.state.cache.generation)
    (hOnce : ∀ other, next.cache.positivePin1 = some other → other.retention ≠ .held →
      event.state.cache.positivePin1.isSome) : Reuse mac (past ++ [event]) next := by
  have hLive : ∀ other, Live next other → Live event.state other := by
    rintro other (hOther | ⟨hSame, copy, hCopy, rfl⟩)
    · exact hPositive other hOther
    · exact .inr ⟨hSame.trans hQuiet.generation, copy, hSublist.mem hCopy, rfl⟩
  rw [← hQuiet.generation] at hAlone
  constructor
  · exact h.generation_quiet hQuiet
  · intro other hOther
    rw [hQuiet.generation]
    rcases hPositive other hOther with hFound | ⟨hGeneration, -⟩
    · exact h.fresh other hFound
    · exact hGeneration
  · intro copy hCopy
    rw [hQuiet.generation]
    exact h.older copy (hSublist.mem hCopy)
  · exact hAlone
  · exact h.distinct.sublist (hSublist.map _)
  · intro other hOther
    refine h.latest_append (hLive other hOther) (·.append hQuiet ?_ hCopies ?_)
    · intro new hNew
      rw [hHanded] at hNew
      cases hNew
    · intro hBridge hSome
      -- Beside the value in the cache no copy is live.
      rcases hOther with hOther | ⟨hSame, copy, hCopy, rfl⟩
      · exact ⟨hOnce other hOther hBridge, hHanded⟩
      · exact absurd hSame (hAlone hSome copy hCopy)
  · exact fun other hOther => h.clean_quiet hQuiet (hLive other hOther)
  · exact h.remembered_quiet hQuiet

/-- A value that ended is put back only where nothing else is live. -/
theorem ended (hQuiet : Quiet event next) (hHanded : handedBy event = none)
    (hEnds : endedBy event = some value.lease) (hMem : value ∈ event.state.copies)
    (hCopies : next.copies = event.state.copies.filter fun copy => copy.lease ≠ value.lease)
    (hPositive : next.cache.positivePin1 = event.state.cache.positivePin1 ∨
      (value.entry.retention = .held ∧ value.entry.generation = event.state.cache.generation ∧
        event.state.cache.positivePin1 = none ∧ next.cache.positivePin1 = some value.entry)) :
    Reuse mac (past ++ [event]) next := by
  have hSublist : next.copies.Sublist event.state.copies := by
    rw [hCopies]
    exact filter_sublist
  refine h.settled hQuiet hHanded hSublist ?_ ?_ ?_ ?_
  · intro copy hCopy
    by_cases hLease : copy.lease = value.lease
    · exact .inr (by rw [hEnds, hLease])
    · rw [hCopies]
      exact .inl (mem_filter.mpr ⟨hCopy, by simpa using hLease⟩)
  · intro other hOther
    rcases hPositive with hKept | ⟨-, hGeneration, -, hBack⟩
    · exact .inl (hKept.symm.trans hOther)
    · obtain rfl := some.inj (hBack.symm.trans hOther)
      exact .inr ⟨hGeneration, value, hMem, rfl⟩
  · intro hSome copy hCopy
    rcases hPositive with hSame | ⟨-, hGeneration, -, -⟩
    · rw [hSame] at hSome
      exact h.alone hSome copy (hSublist.mem hCopy)
    intro hEqual
    rw [← hGeneration] at hEqual
    have hValue : copy = value :=
      inj_on_of_nodup_map h.distinct (hSublist.mem hCopy) hMem hEqual
    rw [hCopies, mem_filter, hValue] at hCopy
    simp at hCopy
  · intro other hOther hBridge
    rcases hPositive with hKept | ⟨hHeld, -, -, hBack⟩
    · rw [← hKept, hOther]
      rfl
    · obtain rfl := some.inj (hBack.symm.trans hOther)
      exact absurd hHeld hBridge

theorem unchanged (hQuiet : Quiet event next)
    (hHanded : handedBy event = none) (hCopies : next.copies = event.state.copies)
    (hPositive : next.cache.positivePin1 = event.state.cache.positivePin1 ∨
      next.cache.positivePin1 = none) : Reuse mac (past ++ [event]) next := by
  have hFound : ∀ other, next.cache.positivePin1 = some other →
      event.state.cache.positivePin1 = some other := by
    intro other hOther
    rcases hPositive with hKept | hNone
    · exact hKept.symm.trans hOther
    · rw [hNone] at hOther
      cases hOther
  have hSome : next.cache.positivePin1.isSome → event.state.cache.positivePin1.isSome := by
    intro hIsSome
    obtain ⟨other, hOther⟩ := isSome_iff_exists.mp hIsSome
    rw [hFound other hOther]
    rfl
  refine h.settled hQuiet hHanded (by rw [hCopies]) ?_ (fun other hOther => .inl (hFound other hOther))
    ?_ fun other hOther _ => hSome (by rw [hOther]; rfl)
  · rw [hCopies]
    exact fun copy hCopy => .inl hCopy
  · rw [hCopies]
    exact fun hIsSome => h.alone (hSome hIsSome)

theorem append (hEffect : Effect mac event next)
    (hBound : (past ++ [event]).countP starts < 2 ^ 64 - 1) : Reuse mac (past ++ [event]) next := by
  cases hEffect with
  | stored entry storing handed rejected clean fresh generation positive negative copies =>
    exact h.stored hBound storing rejected clean fresh generation positive negative copies
  | cleared clears storing handed generation positive remembers records copies =>
    exact h.cleared hBound clears generation positive remembers records copies
  | handed entry live now quiet call value permits isOpen found positive copies =>
    exact h.handed quiet value found positive copies
  | ended value quiet handed ends mem copies positive =>
    exact h.ended quiet handed ends mem copies positive
  | unchanged quiet handed copies positive => exact h.unchanged quiet handed copies positive

end

end Reuse

end Invariant

section Runs
theorem reuse_history (fingerprintKey : Bytes) (calls : List (Call E))
    (hBound : (history (step mac kind) (System.new fingerprintKey) calls).countP starts <
      2 ^ 64 - 1) :
    Reuse mac (history (step mac kind) (System.new fingerprintKey) calls)
      (final (step mac kind) (System.new fingerprintKey) calls) := by
  refine history_invariant (step mac kind)
    (P := fun past system => past.countP starts < 2 ^ 64 - 1 → Reuse mac past system)
    (fun _ => reuse_new fingerprintKey) ?_ calls hBound
  intro past system call ih hMore
  have hPast : past.countP starts ≤ (past ++ [event (step mac kind) system call]).countP starts := by
    rw [countP_append]
    exact Nat.le_add_right _ _
  have hEffect : Effect mac (event (step mac kind) system call) (step mac kind system call).2 :=
    step_effect call
  exact Reuse.append (ih (by omega)) hEffect hMore

/-- What a checkout may rest on: the latest storing put the value in for this
card and count, nothing since then replaced, cleared or refused it, the live
status allows it, every earlier checkout came to its end, and a staged value is
in time and was never out. -/
structure Justified (before : List (CacheEvent E)) (serial : TokenSerial)
    (cardEvents : UInt32) (live : PinStatus) (now : Instant) (value : CheckedOut) : Prop where
  permits : pin1StatusPermitsReusableCache live
  inTime : ∀ stagedAt, value.entry.retention = .bridge stagedAt → bridgeOpen stagedAt now
  latest : ∃ earlier storing since, before = earlier ++ storing :: since ∧
    storedBy storing = some ⟨serial, cardEvents, value.entry.pin, value.entry.retention⟩ ∧
    (∀ event ∈ since, storedBy event = none ∧ clears event = false) ∧
    (∀ first event rest other, since = first ++ event :: rest → handedBy event = some other →
      ∃ last ∈ rest, endedBy last = some other.lease ∧ rejectedBy last = none) ∧
    (value.entry.retention ≠ .held → ∀ event ∈ since, handedBy event = none)

theorem starts_eq_false {event : CacheEvent E} (h : starts event = false) :
    storedBy event = none ∧ clears event = false ∧ rejectedBy event = none := by
  rw [starts, Bool.or_eq_false_iff, isSome_eq_false_iff, isNone_iff_eq_none] at h
  refine ⟨h.1, h.2, ?_⟩
  cases hRejected : rejectedBy event with
  | none => rfl
  | some pair =>
    -- A recorded refusal is one of the clearing events.
    have hClears := h.2
    unfold clears at hClears
    split at hClears
    · cases hClears
    · rename_i hCall hReply
      rw [rejectedBy, hCall, hReply] at hRejected
      cases hRejected
    · rw [hRejected] at hClears
      cases hClears

variable {past : List (CacheEvent E)}

theorem justified_of_handed {event : CacheEvent E} (h : Reuse mac past event.state)
    (hEffect : Effect mac event next) {live} {now : Instant}
    (hCall : event.call = .checkoutPin1 serial cardEvents live now)
    (hValue : handedBy event = some value) : Justified past serial cardEvents live now value := by
  cases hEffect with
  | stored entry storing handed | cleared clears storing handed =>
    rw [handed] at hValue; cases hValue
  | ended ended quiet handed | unchanged quiet handed => rw [handed] at hValue; cases hValue
  | handed entry live now quiet call hHanded permits isOpen found positive copies =>
    obtain rfl := some.inj (hHanded.symm.trans hValue)
    rw [call] at hCall
    cases hCall
    obtain ⟨earlier, storing, since, rfl, hStored, hSince⟩ := h.latest entry (.inl found)
    have hSome : event.state.cache.positivePin1.isSome := by rw [found]; rfl
    refine ⟨permits, ?_, earlier, storing, since, rfl, hStored, ?_, ?_, ?_⟩
    · intro stagedAt hBridge
      rw [hBridge] at isOpen
      exact isOpen
    · intro other hOther
      obtain ⟨hNone, hClears, -⟩ := starts_eq_false (hSince.quiet other hOther)
      exact ⟨hNone, hClears⟩
    · intro first other rest out hSplit hOut
      rcases hSince.ended first other rest out hSplit hOut with
        ⟨copy, hCopy, -, hGeneration⟩ | ⟨last, hLast, hEnds⟩
      · exact absurd hGeneration (h.alone hSome copy hCopy)
      have hMem : last ∈ since := by
        rw [hSplit]
        exact mem_append_right _ (mem_cons_of_mem _ hLast)
      exact ⟨last, hLast, hEnds, (starts_eq_false (hSince.quiet last hMem)).2.2⟩
    · exact fun hBridge => hSince.once hBridge hSome

/-- A refused PIN is neither put in nor handed out for its card. -/
theorem refused_of_effect {event : CacheEvent E} (h : Reuse mac past event.state)
    (hEffect : Effect mac event next) (hRejected : event.state.cache.isRejected mac serial pin) :
    (∀ storing, storedBy event = some storing → storing.serial = serial → storing.pin ≠ pin) ∧
      ∀ value, handedBy event = some value → value.entry.serial = serial →
        value.entry.pin ≠ pin := by
  have hNot : ∀ entry : CachedPin1, event.state.cache.isRejected mac entry.serial entry.pin = false →
      entry.serial = serial → entry.pin ≠ pin := by
    rintro entry hClean rfl rfl
    rw [hClean] at hRejected
    cases hRejected
  cases hEffect with
  | stored entry hThis handed rejected clean =>
    refine ⟨fun storing hStoring => ?_, fun value hValue => by rw [handed] at hValue; cases hValue⟩
    obtain rfl := some.inj (hThis.symm.trans hStoring)
    exact hNot entry clean
  | cleared clears storing handed => simp [storing, handed]
  | handed entry live now quiet call hThis permits isOpen found positive copies =>
    refine ⟨by simp [(starts_eq_false quiet.starts).1], fun value hValue => ?_⟩
    obtain rfl := some.inj (hThis.symm.trans hValue)
    exact hNot entry (h.clean entry (.inl found))
  | ended ended quiet handed | unchanged quiet handed =>
    simp [(starts_eq_false quiet.starts).1, handed]

/-- The past and the effect of every event of a run. -/
theorem reuse_at {fingerprintKey calls}
    (hBound : (history (step mac kind) (System.new fingerprintKey) calls).countP starts <
      2 ^ 64 - 1) {before after event}
    (hSplit : history (step mac kind) (System.new fingerprintKey) calls =
      before ++ event :: after) :
    Reuse mac before event.state ∧ Effect mac event (step mac kind event.state event.call).2 := by
  have hBefore : before.countP starts < 2 ^ 64 - 1 := by
    rw [hSplit, countP_append] at hBound
    omega
  obtain ⟨first, -, -, rfl, hEvent, -⟩ := history_split (step mac kind) hSplit
  have hState : final (step mac kind) (System.new fingerprintKey) first = event.state := by
    rw [hEvent]
    rfl
  have hReuse := reuse_history fingerprintKey first hBefore
  rw [hState] at hReuse hEvent
  refine ⟨hReuse, ?_⟩
  have hEffect : Effect mac (Semantics.event (step mac kind) event.state event.call)
      (step mac kind event.state event.call).2 := step_effect event.call
  rwa [← hEvent] at hEffect

/-- In every run of a slot with fewer generations than the counter holds, each
checkout is justified by what came before it, at most one copy of each stored
value is out, and a PIN once refused by a card is never again put in or handed
out for it. -/
theorem pin1_reuse_bounded (fingerprintKey : Bytes) (calls : List (Call E))
    (hBound : (history (step mac kind) (System.new fingerprintKey) calls).countP starts <
      2 ^ 64 - 1) :
    (∀ before event after serial cardEvents live now value,
      history (step mac kind) (System.new fingerprintKey) calls = before ++ event :: after →
      event.call = .checkoutPin1 serial cardEvents live now →
      event.reply = .checkedOut (some value) → Justified before serial cardEvents live now value) ∧
    ((final (step mac kind) (System.new fingerprintKey) calls).copies.map
      fun copy => copy.entry.generation).Nodup ∧
    (∀ before event after serial pin,
      history (step mac kind) (System.new fingerprintKey) calls = before ++ event :: after →
      rejectedBy event = some (serial, pin) → ∀ later ∈ after,
        (∀ storing, storedBy later = some storing → storing.serial = serial → storing.pin ≠ pin) ∧
        ∀ value, handedBy later = some value → value.entry.serial = serial →
          value.entry.pin ≠ pin) := by
  refine ⟨?_, (reuse_history fingerprintKey calls hBound).distinct, ?_⟩
  · intro before event after serial cardEvents live now value hSplit hCall hReply
    obtain ⟨hReuse, hEffect⟩ := reuse_at hBound hSplit
    exact justified_of_handed hReuse hEffect hCall (by rw [handedBy, hReply])
  intro before event after serial pin hSplit hRejected later hLater
  obtain ⟨middle, rest, rfl⟩ := mem_iff_append.mp hLater
  rw [← cons_append, ← append_assoc] at hSplit
  obtain ⟨hReuse, hEffect⟩ := reuse_at hBound hSplit
  exact refused_of_effect hReuse hEffect (hReuse.remembered event (by simp) serial pin hRejected)

end Runs

def sampleSerial : TokenSerial := ⟨"CARD-A"⟩
def samplePin : PinBytes := ⟨[0x31, 0x32, 0x33, 0x34], by decide⟩
def sampleMac : Mac := fun _ message => some message

/-- A login and a use, then a login with the same PIN while the first copy is
still out, and another use. -/
def twoLogins : List (Call TransportErrorKind) :=
  [.storePin1 sampleSerial 4 samplePin, .checkoutPin1 sampleSerial 4 .verified 0,
    .storePin1 sampleSerial 4 samplePin, .checkoutPin1 sampleSerial 4 .verified 0]

/-- Two copies of one PIN are out at once. -/
theorem two_copies_out :
    (final (step sampleMac id) (System.new []) twoLogins).copies.map (fun copy => copy.entry.pin) =
      [samplePin, samplePin] := by
  decide +kernel

theorem twoLogins_reuse_bounded :
    (history (step sampleMac id) (System.new []) twoLogins).countP starts < 2 ^ 64 - 1 ∧
      ((final (step sampleMac id) (System.new []) twoLogins).copies.map
        fun copy => copy.entry.generation).Nodup :=
  have hBound : (history (step sampleMac id) (System.new []) twoLogins).countP starts <
      2 ^ 64 - 1 := by decide +kernel
  ⟨hBound, (pin1_reuse_bounded [] twoLogins hBound).2.1⟩

end RefineId.Pkcs11
