import RefineId.Data.Words

/-! Block ciphers as permutations of fixed-size blocks, and cipher block
chaining over them. The byte-string forms cut their input into whole blocks. -/
namespace RefineId.Data

open List

variable {size : Nat}

section Blocks

variable (left right : FixedBytes size)

def FixedBytes.xor : FixedBytes size :=
  ⟨zipWith (· ^^^ ·) left.val right.val, by simp⟩

theorem zipWith_xor_cancel (left right : Bytes) (hLength : right.length = left.length) :
    zipWith (· ^^^ ·) left (zipWith (· ^^^ ·) left right) = right := by
  induction left generalizing right with
  | nil => simp [length_eq_zero_iff.mp hLength]
  | cons byte left ih =>
    cases right with
    | nil => cases hLength
    | cons other right =>
      rw [zipWith_cons_cons, zipWith_cons_cons, ih right (by simpa using hLength),
        ← UInt8.xor_assoc, UInt8.xor_self, UInt8.zero_xor]

@[simp] theorem FixedBytes.xor_xor_cancel : left.xor (left.xor right) = right := by
  apply Subtype.ext
  exact zipWith_xor_cancel left.val right.val (by simp)

def firstBlock (size : Nat) (bytes : Bytes) : FixedBytes size :=
  ⟨(bytes ++ replicate size 0).take size, by simp⟩

def blocks (size : Nat) : Nat → Bytes → List (FixedBytes size)
  | 0, _ => []
  | count + 1, bytes => firstBlock size bytes :: blocks size count (bytes.drop size)

def blockBytes (list : List (FixedBytes size)) : Bytes :=
  list.flatMap (·.val)

@[simp] theorem blockBytes_cons (block : FixedBytes size) (list : List (FixedBytes size)) :
    blockBytes (block :: list) = block.val ++ blockBytes list :=
  rfl

variable (list : List (FixedBytes size))

theorem blockBytes_length : (blockBytes list).length = size * list.length := by
  induction list with
  | nil => simp [blockBytes]
  | cons block list ih =>
    rw [blockBytes_cons, length_append, ih, block.length_val, length_cons,
      Nat.mul_succ, Nat.add_comm]

@[simp] theorem blocks_length (count : Nat) (bytes : Bytes) :
    (blocks size count bytes).length = count := by
  induction count generalizing bytes with
  | zero => rfl
  | succ count ih => rw [blocks, length_cons, ih]

theorem blocks_blockBytes : blocks size list.length (blockBytes list) = list := by
  induction list with
  | nil => rfl
  | cons block list ih =>
    rw [length_cons, blocks, blockBytes_cons]
    congr 1
    · apply Subtype.ext
      change (block.val ++ blockBytes list ++ replicate size 0).take size = block.val
      rw [append_assoc, take_left' block.length_val]
    · rw [drop_left' block.length_val, ih]

theorem blockBytes_blocks (count : Nat) {bytes} (hLength : bytes.length = size * count) :
    blockBytes (blocks size count bytes) = bytes := by
  induction count generalizing bytes with
  | zero =>
    rw [Nat.mul_zero] at hLength
    simp [blocks, blockBytes, length_eq_zero_iff.mp hLength]
  | succ count ih =>
    have hFirst : size ≤ bytes.length := by
      rw [hLength]
      exact Nat.le_mul_of_pos_right size (Nat.succ_pos count)
    have hRest : (bytes.drop size).length = size * count := by
      rw [length_drop, hLength, Nat.mul_succ, Nat.add_sub_cancel]
    rw [blocks, blockBytes_cons, ih hRest, firstBlock]
    simp only [take_append_of_le_length hFirst]
    exact take_append_drop size bytes

end Blocks

section Chaining
variable (perm : Equiv.Perm (FixedBytes size))

/-- Each block is mixed with the ciphertext before it, then permuted. -/
def cbcEncrypt : FixedBytes size → List (FixedBytes size) → List (FixedBytes size)
  | _, [] => []
  | iv, block :: rest => perm (iv.xor block) :: cbcEncrypt (perm (iv.xor block)) rest

def cbcDecrypt : FixedBytes size → List (FixedBytes size) → List (FixedBytes size)
  | _, [] => []
  | iv, block :: rest => iv.xor (perm.symm block) :: cbcDecrypt block rest

variable (iv : FixedBytes size)

variable (list : List (FixedBytes size))

@[simp] theorem cbcEncrypt_length : (cbcEncrypt perm iv list).length = list.length := by
  induction list generalizing iv with
  | nil => rfl
  | cons block rest ih => rw [cbcEncrypt, length_cons, ih, length_cons]

theorem cbcDecrypt_cbcEncrypt : cbcDecrypt perm iv (cbcEncrypt perm iv list) = list := by
  induction list generalizing iv with
  | nil => rfl
  | cons block rest ih =>
    rw [cbcEncrypt, cbcDecrypt, Equiv.symm_apply_apply, FixedBytes.xor_xor_cancel, ih]

/-- Chaining over the whole blocks of a byte string. -/
def cbcEncryptBytes (iv : FixedBytes size) (plaintext : Bytes) : Bytes :=
  blockBytes (cbcEncrypt perm iv (blocks size (plaintext.length / size) plaintext))

def cbcDecryptBytes (iv : FixedBytes size) (ciphertext : Bytes) : Bytes :=
  blockBytes (cbcDecrypt perm iv (blocks size (ciphertext.length / size) ciphertext))

theorem cbcEncryptBytes_length {plaintext} (hAligned : size ∣ plaintext.length) :
    (cbcEncryptBytes perm iv plaintext).length = plaintext.length := by
  rw [cbcEncryptBytes, blockBytes_length, cbcEncrypt_length, blocks_length,
    Nat.mul_div_cancel' hAligned]

theorem cbcDecryptBytes_cbcEncryptBytes {plaintext} (hAligned : size ∣ plaintext.length) :
    cbcDecryptBytes perm iv (cbcEncryptBytes perm iv plaintext) = plaintext := by
  have hCount : plaintext.length / size =
      (cbcEncrypt perm iv (blocks size (plaintext.length / size) plaintext)).length := by simp
  rw [cbcDecryptBytes, cbcEncryptBytes_length perm iv hAligned, cbcEncryptBytes]
  nth_rewrite 1 [hCount]
  rw [blocks_blockBytes, cbcDecrypt_cbcEncrypt,
    blockBytes_blocks _ (Nat.mul_div_cancel' hAligned).symm]

end Chaining

end RefineId.Data
