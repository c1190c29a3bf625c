import RefineId.Pace.Symmetric
import RefineId.Ber.Records
import RefineId.Apdu.StatusWord
import RefineId.Apdu.ReadBinary
import RefineId.Semantics.Dialogue

/-! The secure-messaging channel of the terminal (`crates/pace/src/secure_messaging.rs`). -/
namespace RefineId.Pace

open Data Apdu Ber Semantics

def tagCryptogram : UInt8 := 0x87
def tagCryptogramOdd : UInt8 := 0x85
def tagProtectedLe : UInt8 := 0x97
def tagProtectedStatus : UInt8 := 0x99
def tagMac : UInt8 := 0x8E
def insOddMask : UInt8 := 0x01
def paddingIndicator : UInt8 := 0x01
def smLeAny : UInt8 := 0x00
def headerLen : Nat := 4

inductive SmError (E : Type) where
  | transport (error : E)
  | malformed (what : String)
  | macMismatch
  | unprotected (sw : StatusWord)
  | commandTooLong
  deriving DecidableEq

def decodeShortApdu (apdu : Bytes) : Option (Bytes × Option UInt8) :=
  if apdu.length = headerLen then some ([], none)
  else if apdu.length = headerLen + 1 then apdu[headerLen]?.map fun le => ([], some le)
  else
    match apdu[headerLen]? with
    | none => none
    | some lc =>
      if apdu.length < headerLen + 1 + lc.toNat then none
      else
        let data := (apdu.drop (headerLen + 1)).take lc.toNat
        if apdu.length = headerLen + 1 + lc.toNat then some (data, none)
        else if apdu.length = headerLen + 1 + lc.toNat + 1 then
          apdu[headerLen + 1 + lc.toNat]?.map fun le => (data, some le)
        else none

/-- The keys and the counter of an established session. -/
@[ext] structure SmTransport where
  kEnc : Aes256Key
  kMac : Aes256Key
  ssc : Ssc
  deriving DecidableEq

/-- A cryptogram object: its tag and its value. -/
abbrev Cryptogram := UInt8 × Bytes

structure ResponseObjects where
  cryptogram : Option Cryptogram
  status : Option Bytes
  mac : Option Bytes

def ResponseObjects.keep (found : ResponseObjects) (record : BerTlvAny) : ResponseObjects :=
  if record.tag = tagCryptogram.toUInt16 ∨ record.tag = tagCryptogramOdd.toUInt16 then
    { found with cryptogram := some (record.tag.toUInt8, record.value) }
  else if record.tag = tagProtectedStatus.toUInt16 then { found with status := some record.value }
  else if record.tag = tagMac.toUInt16 then { found with mac := some record.value }
  else found

/-- The objects of a response that has a status and an authentication tag. -/
@[ext] structure ProtectedResponse where
  cryptogram : Option Cryptogram
  sw1 : UInt8
  sw2 : UInt8
  mac : FixedBytes cmacTagTruncated
  deriving DecidableEq

variable {E : Type}

def commandObject (tag : UInt8) (value : Bytes) : Except (SmError E) Bytes :=
  match tlv tag value with
  | .ok object => .ok object
  | .error _ => .error .commandTooLong

def leObject : Option UInt8 → Except (SmError E) Bytes
  | some le => commandObject tagProtectedLe [le]
  | none => .ok []

def commandMacInput (ssc : Ssc) (header : CommandHeader) (objects : Bytes) : Bytes :=
  iso78164Pad (ssc.asBytes.val ++ iso78164Pad header.toBytes ++ objects)

def ResponseObjects.complete (found : ResponseObjects) : Except (SmError E) ProtectedResponse :=
  match found.status, found.mac with
  | none, _ => .error (.malformed "no protected status object")
  | some _, none => .error (.malformed "no authentication object")
  | some [sw1, sw2], some mac =>
    match FixedBytes.ofSlice? cmacTagTruncated mac with
    | none => .error (.malformed "authentication object wrong length")
    | some mac => .ok ⟨found.cryptogram, sw1, sw2, mac⟩
  | some _, some _ => .error (.malformed "status object wrong length")

def protectedResponse (response : Bytes) : Except (SmError E) ProtectedResponse :=
  match records response with
  | .error _ => .error (.malformed "response BER parse")
  | .ok list => (list.foldl ResponseObjects.keep ⟨none, none, none⟩).complete

/-- The object a cryptogram was read from, in its shortest form. -/
def cryptogramBytes : Option Cryptogram → Except (SmError E) Bytes
  | none => .ok []
  | some (tag, value) =>
    match tlv tag value with
    | .ok object => .ok object
    | .error _ => .error (.malformed "cryptogram too long to re-encode")

/-- What the tag of a response is computed over, whatever the order of its
objects on the wire. -/
def responseMacInput (ssc : Ssc) (found : ProtectedResponse) :
    Except (SmError E) Bytes := do
  let object ← cryptogramBytes found.cryptogram
  match tlv tagProtectedStatus [found.sw1, found.sw2] with
  | .ok statusObject => .ok (iso78164Pad (ssc.asBytes.val ++ object ++ statusObject))
  | .error _ => .error (.malformed "status too long to re-encode")

def cryptogramCipher : Cryptogram → Except (SmError E) Bytes
  | (tag, value) =>
    if tag = tagCryptogram then
      match value with
      | [] => .error (.malformed "cryptogram empty")
      | indicator :: cipher =>
        if indicator ≠ paddingIndicator then .error (.malformed "cryptogram padding indicator")
        else .ok cipher
    else .ok value

namespace SmTransport
variable (aes : Aes) (channel : SmTransport)

def stepped : SmTransport :=
  { channel with ssc := channel.ssc.increment }

@[simp] theorem stepped_ssc : channel.stepped.ssc = channel.ssc.increment := rfl

def blockIv : AesBlock :=
  aes256EcbEncryptBlock aes channel.kEnc channel.ssc.asBytes

/-- The object that carries encrypted data, if there is any. An odd instruction
takes no padding indicator. -/
def cryptogramObject (instruction : UInt8) (data : Bytes) : Except (SmError E) Bytes :=
  if data = [] then .ok []
  else
    match aes256CbcEncryptNoPadding aes channel.kEnc (channel.blockIv aes) (iso78164Pad data) with
    | .error _ => .error (.malformed "padded plaintext not block-aligned")
    | .ok cipher =>
      if instruction &&& insOddMask ≠ 0 then commandObject tagCryptogramOdd cipher
      else commandObject tagCryptogram (paddingIndicator :: cipher)

/-- The objects of a command, with its authentication tag over them. -/
def protectCommand (header : CommandHeader) (data : Bytes) (le : Option UInt8) :
    Except (SmError E) Bytes := do
  let cryptogram ← channel.cryptogramObject aes header.instruction data
  let protectedLe ← leObject le
  let macInput := commandMacInput channel.ssc header (cryptogram ++ protectedLe)
  let macObject ← commandObject tagMac (aes256CmacTruncated aes channel.kMac macInput).val
  .ok (cryptogram ++ protectedLe ++ macObject)

/-- A command that is no short form leaves the counter where it was. The class
byte of the plain command is not kept. -/
def wrap (plain : Bytes) : Except (SmError E) (CommandHeader × Bytes) × SmTransport :=
  match plain with
  | _ :: instruction :: p1 :: p2 :: _ =>
    match decodeShortApdu plain with
    | none => (.error (.malformed "command is not a short-form case"), channel)
    | some (data, le) =>
      let header : CommandHeader := ⟨.secureMessaging, instruction, p1, p2⟩
      (do
        let body ← channel.stepped.protectCommand aes header data le
        .ok (header, body), channel.stepped)
  | _ => (.error (.malformed "command shorter than its header"), channel)

def openCryptogram : Option Cryptogram → Except (SmError E) Bytes
  | none => .ok []
  | some cryptogram => do
      let cipher ← cryptogramCipher cryptogram
      if cipher.length % aesBlock ≠ 0 then .error (.malformed "cryptogram not whole blocks")
      else
        match aes256CbcDecryptNoPadding aes channel.kEnc (channel.blockIv aes) cipher with
        | .error _ => .error (.malformed "cryptogram not whole blocks")
        | .ok plain => .ok (iso78164Unpad plain)

/-- Authenticate the objects of a response, then decrypt. -/
def openResponse (response : Bytes) : Except (SmError E) (Bytes × StatusWord) := do
  let found ← protectedResponse response
  let macInput ← responseMacInput channel.ssc found
  if aes256CmacTruncated aes channel.kMac macInput ≠ found.mac then .error .macMismatch
  else do
    let body ← channel.openCryptogram aes found.cryptogram
    .ok (body, .fromBytes found.sw1 found.sw2)

def unwrap (response : Bytes) : Except (SmError E) (Bytes × StatusWord) × SmTransport :=
  (channel.stepped.openResponse aes response, channel.stepped)

/-- A response without a body has nothing to authenticate and leaves the
counter alone. -/
def finish : TransportOutcome → Except (SmError E) TransportOutcome × SmTransport
  | .response response =>
    if response.body = [] then (.error (.unprotected response.statusWord), channel)
    else
      match channel.unwrap aes response.body with
      | (.error error, channel) => (.error error, channel)
      | (.ok (body, sw), channel) =>
        let (sw1, sw2) := u16BeBytes sw.asU16
        (.ok (.response ⟨body, sw1, sw2⟩), channel)
  | other => (.ok other, channel)

end SmTransport

def smReadBinaryMaxLe : UInt8 := 0xDF
def p1SfiFormFlag : UInt8 := 0x80
def p1SfiOffsetHighMask : UInt8 := 0x07
def leAllBytes : Nat := 256
def directOffsetMax : Nat := 0x7FFF
def sfiOffsetMax : Nat := 0x07FF

def leBytesRequested (le : UInt8) : Nat :=
  if le = smLeAny then leAllBytes else le.toNat

/-- Two reads covering the same span. -/
abbrev FragmentPair := Bytes × Bytes

/-- Split a READ BINARY that asks for more than one protected response holds.
The short-file form takes the low bits of P1 for high bits of the offset. -/
def splitProtectedRead (command : Bytes) : Except (SmError E) (Option FragmentPair) :=
  match command with
  | [class_, ins, p1, p2, le] =>
    if ins ≠ ReadBinary.ins then .ok none
    else
      let total := leBytesRequested le
      let firstLen := smReadBinaryMaxLe.toNat
      if total ≤ firstLen then .ok none
      else
        let direct := p1 &&& p1SfiFormFlag = 0
        let offset :=
          if direct then (u16FromBytes p1 p2).toNat
          else (u16FromBytes (p1 &&& p1SfiOffsetHighMask) p2).toNat
        let ceiling := if direct then directOffsetMax else sfiOffsetMax
        let secondOffset := offset + firstLen
        if ceiling < secondOffset then
          .error (.malformed "fragmented read offset out of form")
        else if 2 ^ 8 ≤ total - firstLen then .error (.malformed "fragment too long")
        else
          let secondHigh := UInt8.ofNat (secondOffset / 256)
          let secondP1 :=
            if direct then secondHigh
            else (p1 &&& ~~~p1SfiOffsetHighMask) ||| (secondHigh &&& p1SfiOffsetHighMask)
          .ok (some ([class_, ReadBinary.ins, p1, p2, smReadBinaryMaxLe],
            [class_, ReadBinary.ins, secondP1, UInt8.ofNat secondOffset,
              UInt8.ofNat (total - firstLen)]))
  | _ => .ok none

section Transmit

/-- What the channel asks of the transport below it. -/
inductive InnerCall where
  | transmit (command : CommandApdu)
  | transmitCredential (command : CredentialCommand)

abbrev SmDialogue (E : Type) : Type → Type :=
  Dialogue InnerCall (Except E TransportOutcome)

abbrev SmResult (E : Type) :=
  Except (SmError E) TransportOutcome × SmTransport

variable (aes : Aes)

namespace SmTransport

variable (channel : SmTransport)

/-- What the transport below answers, through the unwrap path. -/
def settle :
    Except E TransportOutcome → SmDialogue E (SmResult E)
  | .error error => .done (.error (.transport error), channel)
  | .ok raw => .done (channel.finish aes raw)

def transmitSingle (plain : Bytes) : SmDialogue E (SmResult E) :=
  match channel.wrap aes plain with
  | (.error error, channel) => .done (.error error, channel)
  | (.ok (header, body), channel) =>
    match CommandApdu.case4 header body smLeAny with
    | .error _ => .done (.error .commandTooLong, channel)
    | .ok wrapped => .ask (.transmit wrapped) (channel.settle aes)

def transmitCredential (channel : SmTransport) (command : CredentialCommand) :
    SmDialogue E (SmResult E) :=
  match channel.wrap aes command.wire with
  | (.error error, channel) => .done (.error error, channel)
  | (.ok (header, body), channel) =>
    match CredentialCommand.fromProtectedParts header body smLeAny with
    | .error _ => .done (.error .commandTooLong, channel)
    | .ok wrapped => .ask (.transmitCredential wrapped) (channel.settle aes)

/-- Two protected reads covering one overlong span. The second runs only when
the first returns a full fragment. -/
def transmitFragmentedRead (first second : Bytes) :
    SmDialogue E (SmResult E) := do
  let (outcome, channel) ← channel.transmitSingle aes first
  match outcome with
  | .ok (.response firstResponse) =>
    if ¬firstResponse.isOk ∨ firstResponse.body.length ≠ smReadBinaryMaxLe.toNat then
      .done (.ok (.response firstResponse), channel)
    else do
      let (outcome, channel) ← channel.transmitSingle aes second
      match outcome with
      | .ok (.response secondResponse) =>
        .done (.ok (.response ⟨firstResponse.body ++ secondResponse.body,
          secondResponse.sw1, secondResponse.sw2⟩), channel)
      | other => .done (other, channel)
  | other => .done (other, channel)

def transmit (command : CommandApdu) : SmDialogue E (SmResult E) :=
  match splitProtectedRead command.bytes with
  | .error error => .done (.error error, channel)
  | .ok (some (first, second)) => channel.transmitFragmentedRead aes first second
  | .ok none => channel.transmitSingle aes command.bytes

end SmTransport

end Transmit

end RefineId.Pace
