import RefineId.Data.BTreeMap
import RefineId.Pkcs11.PinReuse
import RefineId.Rapp.Txt

/-! The slot table of the PKCS#11 module and what it keeps for each slot
(`crates/pkcs11/src/slot_kind.rs`, `crates/pkcs11/src/state.rs`). Whatever a
card or a paired phone answers is an argument of the call that asks. -/
namespace RefineId.Pkcs11

open Data Semantics
open PinCache (Mac)

/-- A reader, by the name its driver reports. -/
structure ReaderId where
  asStr : String
  deriving DecidableEq

def pairIdSize : Nat := 16

structure RemoteSlotId where
  bytes : FixedBytes pairIdSize
  deriving DecidableEq

def RemoteSlotId.toHex (pairId : RemoteSlotId) : String :=
  Rapp.Txt.lowerHex pairId.bytes.val

structure DisplayText where
  asStr : String
  deriving DecidableEq

/-- What a slot is bound to. `atReader` is the source's `Local`. -/
inductive SlotKind where
  | atReader (reader : ReaderId)
  | remote (pairId : RemoteSlotId) (label : String) (context : DisplayText)
  deriving DecidableEq

namespace SlotKind

def isRemote : SlotKind → Bool
  | atReader _ => false
  | remote .. => true

def localReader : SlotKind → Option ReaderId
  | atReader reader => some reader
  | remote .. => none

def remotePairId : SlotKind → Option RemoteSlotId
  | atReader _ => none
  | remote pairId .. => some pairId

def cacheKey : SlotKind → String
  | atReader reader => reader.asStr
  | remote pairId .. => pairId.toHex

end SlotKind

inductive CkRv where
  | deviceError
  | tokenNotPresent
  deriving DecidableEq

/-- The largest `CK_ULONG` where it has 64 bits. -/
def ulongMax : Nat := 2 ^ 64 - 1

abbrev CkSlotId : Type := Nat

abbrev CkSessionHandle : Type := Nat

def saturatingSucc (value : Nat) : Nat :=
  min (value + 1) ulongMax

def slotIdBase : CkSlotId := 1

def sessionHandleBase : CkSessionHandle := 1

structure SlotRecord where
  id : Nat
  kind : SlotKind
  cardPresent : Bool
  deriving DecidableEq

/-- No `Vec` is longer. -/
def isizeMax : Nat := 2 ^ 63 - 1

/-- One more slot. A table that is full aborts the process. -/
def pushSlot (slots : List SlotRecord) (slot : SlotRecord) : Option (List SlotRecord) :=
  if slots.length < isizeMax then some (slots ++ [slot]) else none

/-- The objects of a token. `content` is whatever else was read with the
certificate. `generation` tells raised tokens apart; it counts on where the
source stops at the last handle. -/
structure TokenObjects (Content : Type) where
  authCertDer : Bytes
  content : Content
  generation : Nat

def firstTokenGeneration : Nat := 1

inductive FineidCardObservation where
  | present
  | absent
  | temporarilyUnavailable
  deriving DecidableEq

def FineidCardObservation.preservesLastKnownState : FineidCardObservation → Bool
  | temporarilyUnavailable => true
  | present | absent => false

structure ReaderInfo where
  id : ReaderId
  cardPresent : Bool
  cardEvents : UInt32
  deriving DecidableEq

/-- One enumerated reader with the answers its card gives if it is asked. -/
structure Sighting (Content : Type) where
  reader : ReaderInfo
  probe : FineidCardObservation
  buildObjects : Except CkRv (TokenObjects Content)

/-- A reader the enumeration shows without a card is not asked. -/
def Sighting.observation {Content : Type} (sighting : Sighting Content) : FineidCardObservation :=
  if sighting.reader.cardPresent then sighting.probe else .absent

structure RemoteOffer where
  pairId : RemoteSlotId
  label : String
  context : DisplayText
  certificate : Option Bytes
  deriving DecidableEq

/-- What an offered certificate becomes, when it is one of a FINEID card. -/
abbrev RemoteTokenObjects (Content : Type) : Type :=
  RemoteSlotId → Bytes → Option (TokenObjects Content)

/-- A shared cache, known by its number. -/
abbrev CacheRef : Type := Nat

/-- The caches of the process by the key of their device, and the caches
themselves with the values out of them. -/
structure PinStore where
  processPinCaches : BTreeMap String CacheRef
  caches : List System

namespace PinStore

def empty : PinStore :=
  ⟨.empty, []⟩

def update (pins : PinStore) (ref : CacheRef) (change : System → System) : PinStore :=
  { pins with caches := pins.caches.modify ref change }

def clearPositive (pins : PinStore) (ref : CacheRef) : PinStore :=
  pins.update ref fun system => { system with cache := system.cache.clearPositive }

/-- The cache of a key, made when there is none. No cache is made without
random bytes for its marks. -/
def obtain (pins : PinStore) (key : String) (fingerprintKey : Option Bytes) :
    Except CkRv (CacheRef × PinStore) :=
  match pins.processPinCaches.get? key with
  | some ref => .ok (ref, pins)
  | none =>
    match fingerprintKey with
    | none => .error .deviceError
    | some fingerprintKey =>
      let ref := pins.caches.length
      .ok (ref, ⟨pins.processPinCaches.insert key ref, pins.caches ++ [.new fingerprintKey]⟩)

end PinStore

/-- The state between `C_Initialize` and `C_Finalize`. A session is kept as
the slot it belongs to. -/
structure ModuleState (Content : Type) where
  slots : List SlotRecord
  nextSlotId : Nat
  sessions : BTreeMap CkSessionHandle CkSlotId
  nextSessionHandle : CkSessionHandle
  pinCaches : BTreeMap CkSlotId CacheRef
  tokenCache : BTreeMap CkSlotId (TokenObjects Content)
  eventReported : BTreeMap CkSlotId Bool
  remoteLoggedIn : List CkSlotId
  cardEvents : BTreeMap CkSlotId UInt32
  nextTokenGeneration : Nat

/-- The state with the caches of the process it runs in. -/
structure Loaded (Content : Type) extends ModuleState Content where
  pins : PinStore

variable {Content : Type}

/-- The state `new` refreshes first. -/
def ModuleState.blank : ModuleState Content where
  slots := []
  nextSlotId := slotIdBase
  sessions := .empty
  nextSessionHandle := sessionHandleBase
  pinCaches := .empty
  tokenCache := .empty
  eventReported := .empty
  remoteLoggedIn := []
  cardEvents := .empty
  nextTokenGeneration := firstTokenGeneration

namespace Loaded

variable (module : Loaded Content)

variable (id : CkSlotId)

def slot : Option SlotRecord :=
  module.slots.find? (·.id = id)

def slotKind : Option SlotKind :=
  (module.slot id).map (·.kind)

def cacheToken (objects : TokenObjects Content) : TokenObjects Content × Loaded Content :=
  let raised := { objects with generation := module.nextTokenGeneration }
  (raised, { module with
    tokenCache := module.tokenCache.insert id raised
    nextTokenGeneration := module.nextTokenGeneration + 1 })

def clearPin : Loaded Content :=
  { module with pins := match module.pinCaches.get? id with
      | none => module.pins
      | some ref => module.pins.clearPositive ref }

def invalidateSlot : Loaded Content :=
  { module with tokenCache := module.tokenCache.erase id }.clearPin id

def clearAllPositivePins : Loaded Content :=
  { module with
    pins := module.pinCaches.entries.foldl (fun pins entry => pins.clearPositive entry.2)
      module.pins }

variable (position : Nat)

def setCardPresent (present : Bool) : Loaded Content :=
  { module with
    slots := module.slots.modify position fun slot => { slot with cardPresent := present } }

def setCardPresentOf (present : Bool) : Loaded Content :=
  { module with slots := match module.slots.findIdx? (·.id = id) with
      | none => module.slots
      | some position =>
        module.slots.modify position fun slot => { slot with cardPresent := present } }

/-- A slot that was reported before counts as reported without a card. -/
def forgetReport : Loaded Content :=
  { module with eventReported :=
      if module.eventReported.contains id then module.eventReported.insert id false
      else module.eventReported }

/-- The token of a slot whose card left since the last refresh. -/
def dropMoved (id : CkSlotId) : Loaded Content :=
  ((module.setCardPresent position false).invalidateSlot id).forgetReport id

/-- Follow the card of a known reader: a card that came is raised only with
its objects read. -/
def followCard (id : CkSlotId) (wasPresent : Bool) (sighting : Sighting Content) : Loaded Content :=
  let aidPresent : Bool := sighting.observation = .present
  if aidPresent && !wasPresent then
    match sighting.buildObjects with
    | .error _ => module
    | .ok objects =>
      (((module.setCardPresent position true).invalidateSlot id).cacheToken id objects).2
  else if wasPresent && !aidPresent then
    (module.setCardPresent position false).invalidateSlot id
  else module

def visitSlot (slot : SlotRecord) (sighting : Sighting Content) : Loaded Content :=
  let last := module.cardEvents.get? slot.id
  let noted := { module with
    cardEvents := module.cardEvents.insert slot.id sighting.reader.cardEvents }
  let cardMoved := last.any (· ≠ sighting.reader.cardEvents)
  if cardMoved && slot.cardPresent then
    (noted.dropMoved position slot.id).followCard position slot.id false sighting
  else noted.followCard position slot.id slot.cardPresent sighting

variable (sighting : Sighting Content)

/-- A reader without a slot gets one with its first proven card. -/
def admitReader : Option (Loaded Content) :=
  if sighting.observation = .present then
    match sighting.buildObjects with
    | .error _ => some module
    | .ok objects => do
        let id := module.nextSlotId
        let slots ← pushSlot module.slots ⟨id, .atReader sighting.reader.id, true⟩
        let admitted := { module with
          slots
          nextSlotId := saturatingSucc module.nextSlotId
          cardEvents := module.cardEvents.insert id sighting.reader.cardEvents }
        return (admitted.cacheToken id objects).2
  else some module

/-- One turn of the loop over the enumerated readers. -/
def visit : Option (Loaded Content) :=
  if sighting.observation.preservesLastKnownState then some module
  else
    match module.slots.findIdx? (·.kind.localReader = some sighting.reader.id) with
    | none => module.admitReader sighting
    | some position =>
      match module.slots[position]? with
      | none => some module
      | some slot => some (module.visitSlot position slot sighting)

/-- The refresh of the local slots. No result means that the process ended. -/
def refreshSlotsWith (enumeration : Except CkRv (List (Sighting Content))) :
    Option (Except CkRv Unit × Loaded Content) :=
  match enumeration with
  | .error error => some (.error error, module.clearAllPositivePins)
  | .ok sightings => (sightings.foldlM visit module).map fun next => (.ok (), next)

def withdrawToken : Loaded Content :=
  let absent := module.setCardPresentOf id false
  { absent with remoteLoggedIn := absent.remoteLoggedIn.filter (· ≠ id) }.invalidateSlot id

def remoteSlotFor (offer : RemoteOffer) : Option (CkSlotId × Loaded Content) :=
  match module.slots.findIdx? (·.kind.remotePairId = some offer.pairId) with
  | some position => do
      let slot ← module.slots[position]?
      return (slot.id, { module with slots := module.slots.modify position fun slot =>
          { slot with kind := .remote offer.pairId offer.label offer.context } })
  | none => do
      let id := module.nextSlotId
      let slots ← pushSlot module.slots ⟨id, .remote offer.pairId offer.label offer.context, false⟩
      return (id, { module with slots, nextSlotId := saturatingSucc module.nextSlotId })

def unnamed (offer : Option RemoteOffer) : List CkSlotId :=
  (module.slots.filter fun slot =>
    slot.cardPresent && slot.kind.isRemote &&
      offer.all fun offer => slot.kind.remotePairId ≠ some offer.pairId).map (·.id)

def followOffer (objects : Option (TokenObjects Content)) : Loaded Content :=
  match objects with
  | none => module.withdrawToken id
  | some objects =>
    if (module.tokenCache.get? id).any (·.authCertDer = objects.authCertDer) then module
    else
      (((((module.withdrawToken id).cacheToken id objects).2).setCardPresentOf id
        true).forgetReport id)

def refreshRemoteSlotsWith (remoteTokenObjects : RemoteTokenObjects Content) (offer : Option RemoteOffer) :
    Option (Loaded Content) :=
  let withdrawn := (module.unnamed offer).foldl withdrawToken module
  match offer with
  | none => some withdrawn
  | some offer => do
      let (id, named) ← withdrawn.remoteSlotFor offer
      return named.followOffer id (offer.certificate.bind (remoteTokenObjects offer.pairId))

def refreshRemoteSlots (source : Option (RemoteTokenObjects Content × Option RemoteOffer)) :
    Option (Loaded Content) :=
  match source with
  | none => some module
  | some (remoteTokenObjects, offer) => module.refreshRemoteSlotsWith remoteTokenObjects offer

def logout : Loaded Content :=
  { module with remoteLoggedIn := module.remoteLoggedIn.filter (· ≠ id) }.clearPin id

def openSession : CkSessionHandle × Loaded Content :=
  (module.nextSessionHandle, { module with
    sessions := module.sessions.insert module.nextSessionHandle id
    nextSessionHandle := saturatingSucc module.nextSessionHandle })

def forgetLoginIfNoSessions : Loaded Content :=
  if module.sessions.entries.any (·.2 = id) then module else module.logout id

def closeSession (handle : CkSessionHandle) : Bool × Loaded Content :=
  match module.sessions.get? handle with
  | none => (false, module)
  | some id =>
    (true, { module with sessions := module.sessions.erase handle }.forgetLoginIfNoSessions id)

def closeAllSessions : Loaded Content :=
  { module with sessions := .ofList (module.sessions.entries.filter (·.2 ≠ id)) }.logout id

def setRemoteLoggedIn (loggedIn : Bool) : Loaded Content :=
  { module with remoteLoggedIn :=
      if loggedIn then id :: module.remoteLoggedIn.filter (· ≠ id)
      else module.remoteLoggedIn.filter (· ≠ id) }

/-- The cache of a slot: the one it was given before, or that of its device. -/
def pinCache (fingerprintKey : Option Bytes) : Except CkRv CacheRef × Loaded Content :=
  match module.pinCaches.get? id with
  | some ref => (.ok ref, module)
  | none =>
    match module.slotKind id with
    | none => (.error .deviceError, module)
    | some kind =>
      match module.pins.obtain kind.cacheKey fingerprintKey with
      | .error error => (.error error, module)
      | .ok (ref, pins) =>
        (.ok ref, { module with pins, pinCaches := module.pinCaches.insert id ref })

def ensureToken (build : Except CkRv (TokenObjects Content)) :
    Except CkRv (TokenObjects Content) × Loaded Content :=
  match module.tokenCache.get? id with
  | some cached => (.ok cached, module)
  | none =>
    match module.slotKind id with
    | none => (.error .deviceError, module)
    | some kind =>
      if kind.isRemote then (.error .tokenNotPresent, module)
      else
        match build with
        | .error error => (.error error, module)
        | .ok objects =>
          let (raised, next) := module.cacheToken id objects
          (.ok raised, next)

/-- The first slot whose mark differs from what was last reported of it. -/
def takeSlotEvent : Option CkSlotId × Loaded Content :=
  match module.slots.find? fun slot =>
      module.eventReported.get? slot.id ≠ some slot.cardPresent with
  | none => (none, module)
  | some slot =>
    (some slot.id, { module with
      eventReported := module.eventReported.insert slot.id slot.cardPresent })

end Loaded

/-- The operations of an initialised module, with what the outside answers
during each. -/
inductive ModuleCall (Content : Type) where
  | refreshSlots (enumeration : Except CkRv (List (Sighting Content)))
  | refreshRemoteSlots (remoteTokenObjects : RemoteTokenObjects Content)
      (offer : Option RemoteOffer)
  | takeSlotEvent
  | ensureToken (id : CkSlotId) (build : Except CkRv (TokenObjects Content))
  | pinCache (id : CkSlotId) (fingerprintKey : Option Bytes)
  | openSession (id : CkSlotId)
  | closeSession (handle : CkSessionHandle)
  | closeAllSessions (id : CkSlotId)
  | setRemoteLoggedIn (id : CkSlotId) (loggedIn : Bool)
  | logout (id : CkSlotId)

inductive ModuleReply (Content : Type) where
  | refreshed (result : Except CkRv Unit)
  | event (id : Option CkSlotId)
  | token (result : Except CkRv (TokenObjects Content))
  | cache (result : Except CkRv CacheRef)
  | session (handle : CkSessionHandle)
  | closed (known : Bool)
  | done

def Loaded.step (module : Loaded Content) :
    ModuleCall Content → Option (ModuleReply Content × Loaded Content)
  | .refreshSlots enumeration => do
      let (result, next) ← module.refreshSlotsWith enumeration
      return (.refreshed result, next)
  | .refreshRemoteSlots remoteTokenObjects offer => do
      let next ← module.refreshRemoteSlotsWith remoteTokenObjects offer
      return (.done, next)
  | .takeSlotEvent =>
    let (id, next) := module.takeSlotEvent
    some (.event id, next)
  | .ensureToken id build =>
    let (result, next) := module.ensureToken id build
    some (.token result, next)
  | .pinCache id fingerprintKey =>
    let (result, next) := module.pinCache id fingerprintKey
    some (.cache result, next)
  | .openSession id =>
    let (handle, next) := module.openSession id
    some (.session handle, next)
  | .closeSession handle =>
    let (known, next) := module.closeSession handle
    some (.closed known, next)
  | .closeAllSessions id => some (.done, module.closeAllSessions id)
  | .setRemoteLoggedIn id loggedIn => some (.done, module.setRemoteLoggedIn id loggedIn)
  | .logout id => some (.done, module.logout id)

/-- The process: the module between initialisation and finalisation, and the
caches that outlive it. -/
structure Process (Content : Type) where
  module : Option (ModuleState Content)
  pins : PinStore

namespace Process

def fresh : Process Content :=
  ⟨none, .empty⟩

variable {E : Type}

/-- Everything that may happen in a process. A cache once handed out is used
by whoever has it, also after the module that handed it out is gone. -/
inductive ProcessCall (Content E : Type) where
  | cInitialize (enumeration : Except CkRv (List (Sighting Content)))
      (source : Option (RemoteTokenObjects Content × Option RemoteOffer))
  | cFinalize
  | ask (call : ModuleCall Content)
  | useCache (ref : CacheRef) (call : Call E)

inductive ProcessReply (Content : Type) where
  | initialized
  | alreadyInitialized
  | finalized
  | notInitialized
  | answered (reply : ModuleReply Content)
  | used
  | ended

/-- `C_Initialize`: an empty table with its first refresh. -/
def cInitialize (process : Process Content) (enumeration : Except CkRv (List (Sighting Content)))
    (source : Option (RemoteTokenObjects Content × Option RemoteOffer)) :
    Option (Process Content) := do
  let (_, refreshed) ←
    (⟨ModuleState.blank, process.pins⟩ : Loaded Content).refreshSlotsWith enumeration
  let loaded ← refreshed.refreshRemoteSlots source
  return ⟨some loaded.toModuleState, loaded.pins⟩

/-- One call. An aborted process answers nothing more. -/
def step (mac : Mac) (kind : E → Apdu.TransportErrorKind) :
    Option (Process Content) → ProcessCall Content E →
      ProcessReply Content × Option (Process Content)
  | none, _ => (.ended, none)
  | some process, .cInitialize enumeration source =>
    match process.module with
    | some _ => (.alreadyInitialized, some process)
    | none =>
      match process.cInitialize enumeration source with
      | none => (.ended, none)
      | some next => (.initialized, some next)
  | some process, .cFinalize =>
    match process.module with
    | none => (.notInitialized, some process)
    | some module =>
      (.finalized, some ⟨none, (Loaded.mk module process.pins).clearAllPositivePins.pins⟩)
  | some process, .ask call =>
    match process.module with
    | none => (.notInitialized, some process)
    | some module =>
      match (Loaded.mk module process.pins).step call with
      | none => (.ended, none)
      | some (reply, next) => (.answered reply, some ⟨some next.toModuleState, next.pins⟩)
  | some process, .useCache ref call =>
    (.used, some { process with
      pins := process.pins.update ref fun system => (Pkcs11.step mac kind system call).2 })

end Process

end RefineId.Pkcs11
