import RefineId.Pkcs11.SlotTable

/-! Which device a PIN cache belongs to, over the whole life of a process. -/
namespace RefineId.Pkcs11

open Data Semantics Rapp.Txt Loaded Option PinSafetyCache
open PinCache (Mac)

theorem RemoteSlotId.toHex_injective : Function.Injective RemoteSlotId.toHex := by
  intro left right h
  have hBytes := congrArg asBytes h
  rw [toHex, toHex, asBytes_lowerHex, asBytes_lowerHex] at hBytes
  have hVal := hexBytes_injective hBytes
  cases left
  cases right
  rw [RemoteSlotId.mk.injEq]
  exact Subtype.ext hVal

namespace Device

/-- A reader whose driver gave it the name of a pairing. -/
def NamedAlike (first second : Device) : Prop :=
  ∃ reader pairing, reader.asStr = RemoteSlotId.toHex pairing ∧
    (first = .reader reader ∧ second = .pairing pairing ∨
      first = .pairing pairing ∧ second = .reader reader)

theorem cacheKey_eq_iff {first second} :
    first.cacheKey = second.cacheKey ↔ first = second ∨ NamedAlike first second := by
  cases first with
  | reader reader =>
    cases second with
    | reader other =>
      cases reader
      cases other
      simp [cacheKey, NamedAlike]
    | pairing pairing => simp [cacheKey, NamedAlike]
  | pairing pairing =>
    cases second with
    | reader reader => simp [cacheKey, NamedAlike, eq_comm]
    | pairing other =>
      simp [cacheKey, NamedAlike, RemoteSlotId.toHex_injective.eq_iff]

theorem NamedAlike.ne {first second} (h : NamedAlike first second) : first ≠ second := by
  obtain ⟨-, -, -, ⟨rfl, rfl⟩ | ⟨rfl, rfl⟩⟩ := h <;> exact nofun

end Device

variable {Content E : Type} {mac : Mac} {kind : E → Apdu.TransportErrorKind}

namespace PinStore
variable {pins before middle after : PinStore}

/-- A cache after further use: what it refused it still refuses. -/
def Remembers (mac : Mac) (before after : System) : Prop :=
  ∀ serial pin, before.cache.isRejected mac serial pin → after.cache.isRejected mac serial pin

theorem Remembers.of_sameRefused {before after} (h : SameRefused before after) :
    Remembers mac before after := by
  intro serial pin hRejected
  rw [isRejected_congr h]
  exact hRejected

theorem Grows.remembers (h : Keeps before after) : Grows (Remembers mac) before after where
  keys := h.keys
  caches ref system hSystem := by
    obtain ⟨later, hLater, hSame⟩ := h.caches ref system hSystem
    exact ⟨later, hLater, .of_sameRefused hSame⟩
  sound := h.sound

theorem remembers_step (system : System) (call : Call E) :
    Remembers mac system (Pkcs11.step mac kind system call).2 := by
  intro serial pin hRejected
  have hNegative {next : System} (h : next.cache.negative = system.cache.negative) :
      next.cache.isRejected mac serial pin := by
    rw [isRejected_congr h]
    exact hRejected
  have hEffect : Effect mac (event (Pkcs11.step mac kind) system call)
      (Pkcs11.step mac kind system call).2 := step_effect call
  cases hEffect with
  | stored entry _ _ _ _ _ _ _ negative => exact hNegative negative
  | cleared _ _ _ _ _ remembers => exact remembers serial pin hRejected
  | handed entry live now quiet | ended value quiet | unchanged quiet =>
    exact hNegative quiet.negative

theorem grows_step (pins : PinStore) (ref : CacheRef) (call : Call E) :
    Grows (Remembers mac) pins
      (pins.update ref fun system => (Pkcs11.step mac kind system call).2) :=
  grows_update (fun _ _ _ h => h) pins ref fun system => remembers_step system call

end PinStore

namespace Process
variable {process next : Process Content}

/-- Every device has one cache and every slot has that of its device. -/
structure Sound (process : Process Content) : Prop where
  pins : process.pins.Sound
  module : ∀ module, process.module = some module →
    Loaded.Table ⟨module, process.pins⟩ ∧ Loaded.Owned ⟨module, process.pins⟩

theorem Sound.fresh : Sound (Process.fresh : Process Content) :=
  ⟨.empty, nofun⟩

theorem Sound.of_advances {module loaded}
    (hAdvances : Loaded.Advances ⟨module, process.pins⟩ loaded) (hPins : process.pins.Sound)
    (hTable : Loaded.Table ⟨module, process.pins⟩) (hOwned : Loaded.Owned ⟨module, process.pins⟩) :
    Sound (⟨some loaded.toModuleState, loaded.pins⟩ : Process Content) := by
  refine ⟨hAdvances.keeps.sound hPins, ?_⟩
  intro later hLater
  cases hLater
  exact ⟨hAdvances.binds.table hTable, hAdvances.owned hOwned⟩

open PinStore

theorem cInitialize_sound {enumeration source}
    (h : process.cInitialize enumeration source = some next) (hSound : Sound process) :
    Sound next ∧ Keeps process.pins next.pins := by
  simp only [cInitialize, bind_eq_bind, bind_eq_some_iff] at h
  obtain ⟨⟨result, refreshed⟩, hRefreshed, loaded, hLoaded, hNext⟩ := h
  have hAdvances : Loaded.Advances (⟨.blank, process.pins⟩ : Loaded Content) loaded := by
    refine (refreshSlotsWith_advances hRefreshed).trans ?_
    cases source with
    | none =>
      cases hLoaded
      exact .refl refreshed
    | some source => exact refreshRemoteSlotsWith_advances hLoaded
  cases hNext
  refine ⟨.of_advances hAdvances hSound.pins (.blank process.pins) ?_, hAdvances.keeps⟩
  intro id ref hRef
  simp [ModuleState.blank] at hRef

variable {call : ProcessCall Content E}

section
variable (h : (step mac kind (some process) call).2 = some next)
include h

/-- A step stays sound, and changes a PIN cache only by using it. -/
theorem step_sound (hSound : Sound process) : Sound next ∧ (Keeps process.pins next.pins ∨
      ∃ ref use, call = .useCache ref use ∧ next.pins = process.pins.update ref fun system =>
        (Pkcs11.step mac kind system use).2) := by
  have hSame : Sound process ∧ (Keeps process.pins process.pins ∨
      ∃ ref use, call = .useCache ref use ∧ process.pins = process.pins.update ref fun system =>
        (Pkcs11.step mac kind system use).2) := ⟨hSound, .inl (PinStore.Keeps.refl _)⟩
  cases call with
  | cInitialize enumeration source =>
    simp only [step] at h
    split at h
    · cases h
      exact hSame
    split at h
    · cases h
    rename_i started hStarted
    cases h
    obtain ⟨hNext, hKeeps⟩ := cInitialize_sound hStarted hSound
    exact ⟨hNext, .inl hKeeps⟩
  | cFinalize =>
    simp only [step] at h
    split at h
    · cases h
      exact hSame
    rename_i module hModule
    cases h
    have hKeeps := (clearAllPositivePins_advances (⟨module, process.pins⟩ : Loaded Content)).keeps
    exact ⟨⟨hKeeps.sound hSound.pins, nofun⟩, .inl hKeeps⟩
  | ask call =>
    simp only [step] at h
    split at h
    · cases h
      exact hSame
    rename_i module hModule
    split at h
    · cases h
    rename_i reply loaded hLoaded
    cases h
    have hAdvances := step_advances hLoaded
    obtain ⟨hTable, hOwned⟩ := hSound.module module hModule
    exact ⟨.of_advances hAdvances hSound.pins hTable hOwned, .inl hAdvances.keeps⟩
  | useCache ref use =>
    cases h
    have hGrows : Grows (Remembers mac) process.pins
        (process.pins.update ref fun system => (Pkcs11.step mac kind system use).2) :=
      grows_step process.pins ref use
    refine ⟨⟨hGrows.sound hSound.pins, ?_⟩, .inr ⟨ref, use, rfl, rfl⟩⟩
    intro module hModule
    obtain ⟨hTable, hOwned⟩ := hSound.module module hModule
    exact ⟨⟨hTable.numbered, hTable.next, hTable.fits, hTable.devices⟩, hOwned⟩

theorem step_grows (hSound : Sound process) : Grows (Remembers mac) process.pins next.pins := by
  obtain ⟨-, hKeeps | ⟨ref, use, -, hPins⟩⟩ := step_sound h hSound
  · exact hKeeps.remembers
  · rw [hPins]
    exact grows_step process.pins ref use

end

end Process

open PinStore

section Runs
open Process

abbrev ProcessEvent (Content E : Type) : Type :=
  Event (Option (Process Content)) (ProcessCall Content E) (ProcessReply Content)

def cacheGiven (event : ProcessEvent Content E) : Option (SlotKind × CacheRef) :=
  match event.state, event.call, event.reply with
  | some process, .ask (.pinCache id _), .answered (.cache (.ok ref)) => do
      let module ← process.module
      let kind ← (Loaded.mk module process.pins).slotKind id
      return (kind, ref)
  | _, _, _ => none

/-- The caches a run leaves: sound, and with every cache handed out so far at
the key of its device. An aborted process leaves those of its last state. -/
def Kept (past : List (ProcessEvent Content E)) (state : Option (Process Content)) : Prop :=
  ∃ pins : PinStore, pins.Sound ∧
    (∀ process, state = some process → process.pins = pins ∧ Sound process) ∧
    ∀ event ∈ past, ∀ slotKind ref, cacheGiven event = some (slotKind, ref) →
      pins.processPinCaches.get? slotKind.device.cacheKey = some ref

variable {ref : CacheRef} {slotKind : SlotKind}

/-- A cache is handed out under the key of the device of its slot. -/
theorem Loaded.pinCache_key {module next : Loaded Content} {id}
    {fingerprintKey : Option Bytes} (hTable : Table module) (hOwned : Owned module)
    (hKind : module.slotKind id = some slotKind)
    (h : module.pinCache id fingerprintKey = (.ok ref, next)) :
    next.pins.processPinCaches.get? slotKind.device.cacheKey = some ref := by
  obtain ⟨slot, hSlot, rfl⟩ := map_eq_some_iff.mp hKind
  unfold pinCache at h
  split at h
  · rename_i known hKnown
    cases h
    obtain ⟨owner, hOwner, rfl, hKey⟩ := hOwned id ref hKnown
    obtain ⟨position, hPosition⟩ := List.mem_iff_getElem?.mp hOwner
    rw [hTable.slot_eq hPosition] at hSlot
    cases hSlot
    exact hKey
  rw [hKind] at h
  dsimp only at h
  split at h
  · cases h
  rename_i found pins hPins
  cases h
  rw [← SlotKind.cacheKey_eq_device]
  exact obtain_key hPins

theorem cacheGiven_eq_some {process : Process Content} {call} (hSound : Sound process)
    (h : cacheGiven (event (Process.step mac kind) (some process) call) = some (slotKind, ref)) :
    ∃ next, (Process.step mac kind (some process) call).2 = some next ∧
      next.pins.processPinCaches.get? slotKind.device.cacheKey = some ref := by
  cases call with
  | cInitialize enumeration source | cFinalize | useCache ref call => simp [cacheGiven, event] at h
  | ask call =>
    cases call with
    | pinCache id fingerprintKey =>
      cases hModule : process.module with
      | none => simp [cacheGiven, event, Process.step, hModule] at h
      | some module =>
        cases hAnswer : (Loaded.mk module process.pins).pinCache id fingerprintKey with
        | mk result next =>
          cases result with
          | error error =>
            simp [cacheGiven, event, Process.step, Loaded.step, hModule, hAnswer] at h
          | ok found =>
            simp only [cacheGiven, event, Process.step, Loaded.step, hModule, hAnswer,
              bind_eq_bind, bind_some, bind_eq_some_iff,
              pure_def, some.injEq, Prod.mk.injEq] at h
            obtain ⟨found, hKind, rfl, rfl⟩ := h
            obtain ⟨hTable, hOwned⟩ := hSound.module module hModule
            exact ⟨⟨some next.toModuleState, next.pins⟩,
              by simp [Process.step, Loaded.step, hModule, hAnswer],
              pinCache_key hTable hOwned hKind hAnswer⟩
    | _ => simp [cacheGiven, event] at h

variable (calls : List (ProcessCall Content E))

theorem kept_history :
    Kept (history (Process.step mac kind) (some .fresh) calls) (final (Process.step mac kind) (some .fresh) calls) := by
  refine history_invariant (Process.step mac kind) ?_ ?_ calls
  · refine ⟨.empty, .empty, ?_, by simp⟩
    intro process hProcess
    cases hProcess
    exact ⟨rfl, .fresh⟩
  rintro past state call ⟨pins, hPins, hState, hPast⟩
  cases state with
  | none =>
    exact ⟨pins, hPins, by simp [Process.step], forall_mem_snoc hPast (by simp [cacheGiven, event])⟩
  | some process =>
    obtain ⟨rfl, hSound⟩ := hState process rfl
    cases hNext : (Process.step mac kind (some process) call).2 with
    | none =>
      refine ⟨process.pins, hPins, by simp, forall_mem_snoc hPast fun slotKind ref hGiven => ?_⟩
      obtain ⟨next, hSome, -⟩ := cacheGiven_eq_some hSound hGiven
      rw [hNext] at hSome
      cases hSome
    | some next =>
      have hNextSound := (step_sound hNext hSound).1
      have hGrows := step_grows hNext hSound
      refine ⟨next.pins, hNextSound.pins, ?_, ?_⟩
      · intro later hLater
        cases hLater
        exact ⟨rfl, hNextSound⟩
      refine forall_mem_snoc (fun e he slotKind ref hGiven =>
        hGrows.keys _ _ (hPast e he slotKind ref hGiven)) fun slotKind ref hGiven => ?_
      obtain ⟨later, hSome, hKey⟩ := cacheGiven_eq_some hSound hGiven
      rw [hNext] at hSome
      cases hSome
      exact hKey

theorem final_ended :
    final (Process.step mac kind) (none : Option (Process Content)) calls = none := by
  induction calls with
  | nil => rfl
  | cons call rest ih => exact ih

variable {calls : List (ProcessCall Content E)}

theorem Process.Sound.run {process next} (hSound : Sound process)
    (h : final (Process.step mac kind) (some process) calls = some next) :
    Sound next ∧ Grows (Remembers mac) process.pins next.pins := by
  induction calls generalizing process with
  | nil =>
    cases h
    exact ⟨hSound, (PinStore.Keeps.refl _).remembers⟩
  | cons call rest ih =>
    rw [final] at h
    cases hNext : (Process.step mac kind (some process) call).2 with
    | none =>
      rw [hNext, final_ended] at h
      cases h
    | some middle =>
      rw [hNext] at h
      obtain ⟨hLast, hGrows⟩ := ih (step_sound hNext hSound).1 h
      exact ⟨hLast, (step_grows hNext hSound).trans
        (fun hFirst hSecond serial pin h => hSecond serial pin (hFirst serial pin h)) hGrows⟩

/-- Every two slots of a run, under whatever initialisations of the module,
get one cache exactly when they are bound to one device, unless one is a reader
that carries the name of the other's pairing. No cache forgets a refused PIN
for the life of the process, and only its own use changes what it refuses. -/
theorem pin_memory_per_device (mac : Mac) (kind : E → Apdu.TransportErrorKind)
    (calls : List (ProcessCall Content E)) :
    (∀ first ∈ history (Process.step mac kind) (some (.fresh : Process Content)) calls,
      ∀ second ∈ history (Process.step mac kind) (some .fresh) calls,
      ∀ slotKind otherKind ref otherRef, cacheGiven first = some (slotKind, ref) →
        cacheGiven second = some (otherKind, otherRef) →
        ((ref = otherRef ↔ slotKind.device = otherKind.device) ↔
          ¬Device.NamedAlike slotKind.device otherKind.device)) ∧
    (∀ early late, calls = early ++ late → ∀ process next,
      final (Process.step mac kind) (some (.fresh : Process Content)) early = some process →
      final (Process.step mac kind) (some process) late = some next →
      ∀ (ref : CacheRef) (system : System), process.pins.caches[ref]? = some system →
        ∃ later, next.pins.caches[ref]? = some later ∧ Remembers mac system later) ∧
    (∀ early call late, calls = early ++ call :: late → ∀ process next,
      final (Process.step mac kind) (some (.fresh : Process Content)) early = some process →
      (Process.step mac kind (some process) call).2 = some next →
      ∀ (ref : CacheRef) (system later : System), process.pins.caches[ref]? = some system →
        next.pins.caches[ref]? = some later → (∀ use, call ≠ .useCache ref use) →
        SameRefused system later) := by
  refine ⟨?_, ?_, ?_⟩
  · intro first hFirst second hSecond slotKind otherKind ref otherRef hGiven hOther
    obtain ⟨pins, hPins, -, hKept⟩ := @kept_history _ _ mac kind calls
    have hKey := hKept first hFirst slotKind ref hGiven
    have hOtherKey := hKept second hSecond otherKind otherRef hOther
    have hSame : ref = otherRef ↔ slotKind.device.cacheKey = otherKind.device.cacheKey := by
      constructor
      · rintro rfl
        exact hPins.injective _ _ ref hKey hOtherKey
      · intro hSame
        rw [hSame, hOtherKey] at hKey
        exact (some.inj hKey).symm
    rw [hSame, Device.cacheKey_eq_iff]
    constructor
    · intro hIff hAlike
      exact hAlike.ne (hIff.mp (.inr hAlike))
    · intro hAlike
      exact ⟨fun h => h.resolve_right hAlike, .inl⟩
  · intro early late _ process next hEarly hLate ref system hSystem
    exact (((Sound.fresh.run hEarly).1.run hLate).2).caches ref system hSystem
  intro early call late _ process next hEarly hNext ref system later hSystem hLater hUse
  obtain ⟨-, hKeeps | ⟨other, use, rfl, hPins⟩⟩ :=
    step_sound hNext (Sound.fresh.run hEarly).1
  · obtain ⟨same, hSame, hRefused⟩ := hKeeps.caches ref system hSystem
    rw [hLater] at hSame
    cases hSame
    exact hRefused
  · have hRef : other ≠ ref := by
      rintro rfl
      exact hUse use rfl
    rw [hPins, update, List.getElem?_modify, hSystem] at hLater
    simp only [hRef, if_false, map_eq_map, map_some, some.injEq] at hLater
    rw [← hLater]
    rfl

def zeroPairing : RemoteSlotId := ⟨⟨List.replicate pairIdSize 0, by decide⟩⟩

/-- A reader that calls itself by thirty-two zeros, and that pairing. -/
def sharedName : List (ProcessCall Unit Apdu.TransportErrorKind) :=
  [.cInitialize (.ok [⟨⟨⟨zeroPairing.toHex⟩, true, 0⟩, .present, .ok ⟨[], (), 0⟩⟩])
      (some (fun _ _ => none, some ⟨zeroPairing, "phone", ⟨"computer"⟩, none⟩)),
    .ask (.pinCache 1 (some [])), .ask (.pinCache 2 (some []))]

theorem reader_shares_cache_of_pairing :
    (history (Process.step sampleMac id) (some .fresh) sharedName).filterMap cacheGiven =
      [(.atReader ⟨zeroPairing.toHex⟩, 0), (.remote zeroPairing "phone" ⟨"computer"⟩, 0)] := by
  decide +kernel

end Runs

end RefineId.Pkcs11
