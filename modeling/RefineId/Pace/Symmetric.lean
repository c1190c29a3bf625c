import RefineId.Data.BlockCipher

/-! Symmetric operations of the card channel (`crates/pace/src/crypto/symmetric.rs`),
the padding of `secure_messaging.rs` and the send sequence counter of
`handshake.rs`. AES and CMAC are parameters: a permutation of the blocks for
each key, and a function of key and message. -/
namespace RefineId.Pace

open Data List Nat

def aesBlock : Nat := 16
def aesKeyLen : Nat := 32
def cmacTagTruncated : Nat := 8

abbrev AesBlock := FixedBytes aesBlock
abbrev Aes256Key := FixedBytes aesKeyLen

structure Aes where
  block : Aes256Key → Equiv.Perm AesBlock
  cmac : Aes256Key → Bytes → AesBlock

structure UnalignedInput where
  len : Nat
  deriving DecidableEq

section Primitives
variable (aes : Aes) (key : Aes256Key)

def aes256EcbEncryptBlock (block : AesBlock) : AesBlock :=
  aes.block key block

variable (iv : AesBlock)

def aes256CbcEncryptNoPadding (plaintext : Bytes) : Except UnalignedInput Bytes :=
  if plaintext.length % aesBlock ≠ 0 then .error ⟨plaintext.length⟩
  else .ok (cbcEncryptBytes (aes.block key) iv plaintext)

def aes256CbcDecryptNoPadding (ciphertext : Bytes) : Except UnalignedInput Bytes :=
  if ciphertext.length % aesBlock ≠ 0 then .error ⟨ciphertext.length⟩
  else .ok (cbcDecryptBytes (aes.block key) iv ciphertext)

def aes256Cmac (message : Bytes) : AesBlock :=
  aes.cmac key message

def aes256CmacTruncated (message : Bytes) : FixedBytes cmacTagTruncated :=
  ⟨(aes256Cmac aes key message).val.take cmacTagTruncated, by simp [cmacTagTruncated, aesBlock]⟩

theorem aes256CbcEncrypt_eq_ok {plaintext} (hAligned : plaintext.length % aesBlock = 0) :
    ∃ ciphertext, aes256CbcEncryptNoPadding aes key iv plaintext = .ok ciphertext ∧
      ciphertext.length = plaintext.length ∧
      aes256CbcDecryptNoPadding aes key iv ciphertext = .ok plaintext := by
  have hWhole : aesBlock ∣ plaintext.length := dvd_of_mod_eq_zero hAligned
  have hLength := cbcEncryptBytes_length (aes.block key) iv hWhole
  refine ⟨cbcEncryptBytes (aes.block key) iv plaintext, ?_, hLength, ?_⟩
  · rw [aes256CbcEncryptNoPadding, if_neg (not_not_intro hAligned)]
  · rw [aes256CbcDecryptNoPadding, hLength, if_neg (not_not_intro hAligned),
      cbcDecryptBytes_cbcEncryptBytes (aes.block key) iv hWhole]

end Primitives

section Padding

def padMarker : UInt8 := 0x80
def padFiller : UInt8 := 0x00

/-- Filler up to the next block boundary. -/
def fillBlock (out : Bytes) : Bytes :=
  out ++ replicate ((aesBlock - out.length % aesBlock) % aesBlock) padFiller

/-- The marker, then filler to the block boundary. -/
def iso78164Pad (data : Bytes) : Bytes :=
  fillBlock (data ++ [padMarker])

/-- Strip the filler and the marker. Malformed padding stays. -/
def iso78164Unpad (data : Bytes) : Bytes :=
  let trailingFiller := (data.reverse.takeWhile (· = padFiller)).length
  if data.length < trailingFiller + 1 then data
  else
    let markerPos := data.length - (trailingFiller + 1)
    if data[markerPos]? = some padMarker then data.take markerPos else data

theorem fillBlock_aligned (out : Bytes) : (fillBlock out).length % aesBlock = 0 := by
  rw [fillBlock, length_append, length_replicate, aesBlock]
  omega

variable (data : Bytes)

theorem iso78164Pad_aligned : (iso78164Pad data).length % aesBlock = 0 :=
  fillBlock_aligned _

theorem iso78164Pad_length :
    (iso78164Pad data).length = aesBlock * (data.length / aesBlock + 1) := by
  rw [iso78164Pad, fillBlock, length_append, length_replicate, length_append,
    length_singleton, aesBlock]
  omega

@[simp] theorem iso78164Unpad_pad : iso78164Unpad (iso78164Pad data) = data := by
  obtain ⟨count, hPad⟩ : ∃ count, iso78164Pad data =
      data ++ padMarker :: replicate count padFiller :=
    ⟨_, by rw [iso78164Pad, fillBlock, append_assoc, singleton_append]⟩
  have hFiller : (((iso78164Pad data).reverse).takeWhile (· = padFiller)).length = count := by
    have hAll : ∀ byte ∈ replicate count padFiller, decide (byte = padFiller) = true := by
      intro byte hByte
      rw [eq_of_mem_replicate hByte, decide_eq_true rfl]
    rw [hPad, reverse_append, reverse_cons, reverse_replicate, append_assoc,
      takeWhile_append_of_pos hAll, singleton_append,
      takeWhile_cons_of_neg (by decide), append_nil, length_replicate]
  have hLength : (iso78164Pad data).length = data.length + (count + 1) := by
    rw [hPad, length_append, length_cons, length_replicate]
  have hPos : data.length + (count + 1) - (count + 1) = data.length := by omega
  rw [iso78164Unpad]
  simp only [hFiller, hLength]
  rw [if_neg (by omega), hPos, hPad, getElem?_append_right (Nat.le_refl _), Nat.sub_self,
    getElem?_cons_zero, if_pos rfl, take_left]

theorem iso78164Pad_injective : Function.Injective iso78164Pad := by
  intro left right h
  rw [← iso78164Unpad_pad left, h, iso78164Unpad_pad]

end Padding

/-- The send sequence counter, big endian. -/
structure Ssc where
  bytes : AesBlock
  deriving DecidableEq

namespace Ssc

def initial : Ssc := ⟨.replicate aesBlock 0⟩

/-- One more, from the last byte on. A byte that wraps carries. -/
def carry : Bytes → Bytes
  | [] => []
  | byte :: rest => if byte = 255 then 0 :: carry rest else (byte + 1) :: rest

@[simp] theorem carry_length (bytes : Bytes) : (carry bytes).length = bytes.length := by
  induction bytes with
  | nil => rfl
  | cons byte rest ih =>
    rw [carry]
    split
    · rw [length_cons, ih, length_cons]
    · rfl

def increment (ssc : Ssc) : Ssc :=
  ⟨⟨(carry ssc.bytes.val.reverse).reverse, by simp⟩⟩

def asBytes (ssc : Ssc) : AesBlock := ssc.bytes

def value (ssc : Ssc) : Nat :=
  beValue ssc.bytes.val

theorem beValue_carry (bytes : Bytes) :
    beValue (carry bytes).reverse = (beValue bytes.reverse + 1) % 256 ^ bytes.length := by
  induction bytes with
  | nil => rfl
  | cons byte rest ih =>
    have hBound := beValue_lt rest.reverse
    rw [length_reverse] at hBound
    rw [carry, reverse_cons, beValue_append_singleton, length_cons, pow_succ,
      mul_comm (256 ^ rest.length)]
    split
    · rename_i hLast
      have hByte : byte.toNat = 255 := by
        rw [hLast]
        rfl
      rw [reverse_cons, beValue_append_singleton, ih, hByte, UInt8.toNat_zero,
        show beValue rest.reverse * 256 + 255 + 1 = 256 * (beValue rest.reverse + 1) by ring,
        mul_mod_mul_left, add_zero, mul_comm]
    rename_i hLast
    have hByte : byte.toNat < 255 := by
      have hOctet := byte.toNat_lt
      have hNe : byte.toNat ≠ 255 := fun h => hLast (UInt8.toNat_inj.mp h)
      omega
    have hNext : (byte + 1).toNat = byte.toNat + 1 := by
      rw [UInt8.toNat_add, UInt8.toNat_one]
      omega
    rw [reverse_cons, beValue_append_singleton, hNext, mod_eq_of_lt (by omega)]
    omega

variable (ssc : Ssc)

@[simp] theorem value_increment : ssc.increment.value = (ssc.value + 1) % 2 ^ 128 := by
  have hCarry := beValue_carry ssc.bytes.val.reverse
  rw [reverse_reverse, length_reverse, ssc.bytes.length_val] at hCarry
  exact hCarry

def advance (ssc : Ssc) (steps : Nat) : Ssc :=
  increment^[steps] ssc

@[simp] theorem advance_zero : ssc.advance 0 = ssc :=
  rfl

theorem advance_succ (steps : Nat) : ssc.advance (steps + 1) = (ssc.advance steps).increment :=
  Function.iterate_succ_apply' increment steps ssc

theorem value_lt : ssc.value < 2 ^ 128 := by
  have hBound := beValue_lt ssc.bytes.val
  rwa [ssc.bytes.length_val] at hBound

theorem value_advance (steps : Nat) :
    (ssc.advance steps).value = (ssc.value + steps) % 2 ^ 128 := by
  induction steps with
  | zero => rw [advance_zero, add_zero, mod_eq_of_lt ssc.value_lt]
  | succ steps ih => rw [advance_succ, value_increment, ih, mod_add_mod, add_assoc]

end Ssc

end RefineId.Pace
