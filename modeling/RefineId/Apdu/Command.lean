import RefineId.Data.Words
import RefineId.Data.Result
import RefineId.Data.Chunks

/-! Command and response APDUs (`crates/apdu/src/command.rs`, `transport.rs`)
and the GET RESPONSE builder of `iso7816.rs`. -/
namespace RefineId.Apdu

open Data List

def apduHeaderLen : Nat := 4
def shortApduDataMax : Nat := 255

inductive ApduClass where
  | plain
  | secureMessaging
  | chainedFirst
  deriving DecidableEq

def ApduClass.asByte : ApduClass → UInt8
  | plain => 0x00
  | secureMessaging => 0x0C
  | chainedFirst => 0x10

structure CommandHeader where
  class_ : ApduClass
  instruction : UInt8
  p1 : UInt8
  p2 : UInt8
  deriving DecidableEq

def CommandHeader.toBytes (header : CommandHeader) : Bytes :=
  [header.class_.asByte, header.instruction, header.p1, header.p2]

inductive CommandDataError where
  | empty
  | tooLong (got : Nat)
  deriving DecidableEq

/-- An outgoing command that may be sent again. -/
structure CommandApdu where
  bytes : Bytes
  wrongLeRetry : Bool
  deriving DecidableEq

namespace CommandApdu

def fromWire (bytes : Bytes) : CommandApdu := ⟨bytes, false⟩

variable (header : CommandHeader)

def case1 : CommandApdu :=
  fromWire header.toBytes

variable (data : Bytes)

def shortFormLc : Except CommandDataError UInt8 :=
  if data = [] then .error .empty
  else if shortApduDataMax < data.length then .error (.tooLong data.length)
  else .ok (UInt8.ofNat data.length)

def case3 : Except CommandDataError CommandApdu := do
  let lc ← shortFormLc data
  return fromWire (header.toBytes ++ [lc] ++ data)

def case4 (le : UInt8) : Except CommandDataError CommandApdu := do
  let lc ← shortFormLc data
  return fromWire (header.toBytes ++ [lc] ++ data ++ [le])

/-- Every chunk but the last goes out under the chaining class. -/
def chainChunks (header : CommandHeader) (le : UInt8) :
    List Bytes → Except CommandDataError (List CommandApdu)
  | [] => .ok []
  | [chunk] => do
    let command ← case4 header chunk le
    return [command]
  | chunk :: rest => do
    let command ← case3 { header with class_ := .chainedFirst } chunk
    let commands ← chainChunks header le rest
    return command :: commands

/-- One instruction over data of any length. -/
def commandChain (le : UInt8) : Except CommandDataError (List CommandApdu) :=
  if data = [] then .error .empty else chainChunks header le (chunks shortApduDataMax data)

theorem shortFormLc_of_short {data} (hSome : data ≠ []) (hShort : data.length ≤ shortApduDataMax) :
    shortFormLc data = .ok (UInt8.ofNat data.length) := by
  rw [shortFormLc, if_neg hSome, if_neg (Nat.not_lt.mpr hShort)]

theorem chainChunks_snoc (header : CommandHeader) (le : UInt8) {firsts last}
    (hFirsts : ∀ chunk ∈ firsts, chunk.length = shortApduDataMax) (hSome : last ≠ [])
    (hShort : last.length ≤ shortApduDataMax) :
    chainChunks header le (firsts ++ [last]) = .ok (firsts.map (fun chunk =>
          fromWire ({ header with class_ := .chainedFirst }.toBytes ++ [255] ++ chunk)) ++
        [fromWire (header.toBytes ++ [UInt8.ofNat last.length] ++ last ++ [le])]) := by
  induction firsts with
  | nil =>
    show (case4 header last le >>= fun command => pure [command]) = _
    rw [case4, shortFormLc_of_short hSome hShort]
    rfl
  | cons chunk rest ih =>
    obtain ⟨hChunk, hRest⟩ := forall_mem_cons.mp hFirsts
    have hNonempty : chunk ≠ [] := by
      rintro rfl
      cases hChunk
    obtain ⟨next, tail, hTail⟩ :=
      exists_cons_of_ne_nil (append_ne_nil_of_right_ne_nil rest (cons_ne_nil last []))
    have hLc := shortFormLc_of_short hNonempty hChunk.le
    rw [hTail] at ih
    rw [cons_append, hTail, chainChunks, case3, hLc, hChunk, ih hRest]
    · rfl
    · exact cons_ne_nil next tail

/-- A short case-2 command may be corrected once. -/
def allowWrongLeRetry (command : CommandApdu) : CommandApdu :=
  { command with wrongLeRetry := command.bytes.length = apduHeaderLen + 1 }

def correctedWrongLe (command : CommandApdu) (le : UInt8) : Option CommandApdu :=
  if command.wrongLeRetry then
    match command.bytes with
    | [] => none
    | bytes => some ⟨bytes.dropLast ++ [le], false⟩
  else none

end CommandApdu

/-- GET RESPONSE: fetch what the card holds after it announced more bytes. -/
structure GetResponse where
  class_ : ApduClass
  le : UInt8

def GetResponse.intoApdu (command : GetResponse) : CommandApdu :=
  (CommandApdu.fromWire [command.class_.asByte, 0xC0, 0x00, 0x00, command.le]).allowWrongLeRetry

def credentialBodyMax : Nat := 24
def credentialWireMax : Nat := 64

inductive CredentialBodyError where
  | empty
  | tooLong
  | wireTooLong
  deriving DecidableEq

/-- The data field of a credential command: one to 24 bytes. -/
structure CredentialBody where
  bytes : Bytes
  nonempty : bytes ≠ []
  bound : bytes.length ≤ credentialBodyMax

/-- A credential block whose assembler declared `length` bytes of it filled. -/
def CredentialBody.fromBlock (block : FixedBytes credentialBodyMax) (length : Nat) :
    Except CredentialBodyError CredentialBody :=
  if hEmpty : length = 0 then .error .empty
  else if hBound : credentialBodyMax < length then .error .tooLong
  else
    .ok ⟨block.val.take length, by
        have hLength : (block.val.take length).length = length := by
          rw [length_take, block.length_val]
          omega
        intro hNil
        rw [hNil] at hLength
        exact hEmpty hLength.symm,
      (length_take_le' length block.val).trans (Nat.le_of_eq block.length_val)⟩

/-- A command that carries a credential: a header, a length, at least one byte
of data and perhaps an expected length, in at most 64 bytes. It is sent once. -/
structure CredentialCommand where
  wire : Bytes
  shape : apduHeaderLen + 2 ≤ wire.length
  bound : wire.length ≤ credentialWireMax

namespace CredentialCommand

open CommandHeader

def assemble (header : CommandHeader) (body : CredentialBody) : CredentialCommand where
  wire := header.toBytes ++ [UInt8.ofNat body.bytes.length] ++ body.bytes
  shape := by
    have hBody := length_pos_iff.mpr body.nonempty
    simp only [length_append, toBytes, length_cons, length_nil, apduHeaderLen]
    omega
  bound := by
    have hBody := body.bound
    simp only [length_append, toBytes, length_cons, length_nil,
      credentialWireMax, credentialBodyMax] at hBody ⊢
    omega

def fromProtectedParts (header : CommandHeader) (body : Bytes) (le : UInt8) :
    Except CredentialBodyError CredentialCommand :=
  if hEmpty : body = [] then .error .empty
  else if hBound : credentialWireMax < apduHeaderLen + 1 + body.length + 1 then
    .error .wireTooLong
  else
    .ok {
      wire := header.toBytes ++ [UInt8.ofNat body.length] ++ body ++ [le]
      shape := by
        have hBody := length_pos_iff.mpr hEmpty
        simp only [length_append, toBytes, length_cons, length_nil, apduHeaderLen]
        omega
      bound := by
        simp only [length_append, toBytes, length_cons, length_nil,
          credentialWireMax, apduHeaderLen] at hBound ⊢
        omega }

end CredentialCommand

structure ResponseApdu where
  body : Bytes
  sw1 : UInt8
  sw2 : UInt8
  deriving DecidableEq

inductive TransportOutcome where
  | response (response : ResponseApdu)
  | noCard
  | timeoutUnknownState
  | cardReset
  | protocolDesync
  | readerRemoved
  deriving DecidableEq

inductive TransportErrorKind where
  | backend
  | noCard
  | timeoutUnknownState
  | cardReset
  | protocolDesync
  | readerRemoved
  deriving DecidableEq

namespace TransportOutcome

def kind : TransportOutcome → Option TransportErrorKind
  | response _ => none
  | noCard => some .noCard
  | timeoutUnknownState => some .timeoutUnknownState
  | cardReset => some .cardReset
  | protocolDesync => some .protocolDesync
  | readerRemoved => some .readerRemoved

end TransportOutcome

def sw1BytesAvailable : UInt8 := 0x61
def sw1WrongLe : UInt8 := 0x6C

def extendedResponseDataMaxBytes : Nat := 65536

def splitStatus (raw : Bytes) : Option ResponseApdu :=
  match raw.reverse with
  | sw2 :: sw1 :: body => some ⟨body.reverse, sw1, sw2⟩
  | _ => none

/-- A short case-4 command as the case-3 command that T=0 takes. The card then
announces its response. -/
def t0Case3FromShortCase4 (apdu : Bytes) : Option Bytes :=
  match apdu[4]? with
  | none => none
  | some lc =>
    if lc.toNat = 0 then none
    else if apdu.length ≠ 5 + lc.toNat + 1 then none
    else some apdu.dropLast

theorem t0Case3FromShortCase4_eq_some {apdu case3}
    (h : t0Case3FromShortCase4 apdu = some case3) : case3 = apdu.dropLast ∧ 6 ≤ case3.length := by
  unfold t0Case3FromShortCase4 at h
  split at h
  · cases h
  split at h
  · cases h
  split_ifs at h
  cases h
  rename_i lc _ hLc hLength
  refine ⟨rfl, ?_⟩
  rw [length_dropLast]
  omega

end RefineId.Apdu
