import Mathlib.Data.List.Basic
import Mathlib.Data.List.Induction
import Mathlib.Tactic.Ring

/-! Byte strings, lists that grow at their end, big-endian integers and the
checked arithmetic of machine words. Nothing here refers to a particular wire format. -/
namespace RefineId.Data

open List Nat UInt64

abbrev Bytes := List UInt8

section Lists
variable {α β : Type*} {list : List α} {last : α}

theorem forall_mem_snoc {P : α → Prop} (h : ∀ value ∈ list, P value) (hLast : P last) :
    ∀ value ∈ list ++ [last], P value :=
  forall_mem_append.mpr ⟨h, forall_mem_singleton.mpr hLast⟩

theorem nodup_snoc (h : list.Nodup) (hNew : last ∉ list) : (list ++ [last]).Nodup := by
  refine nodup_append.mpr ⟨h, by simp, fun value hValue other hOther hSame => hNew ?_⟩
  rwa [← mem_singleton.mp hOther, ← hSame]

theorem nodup_map_snoc {f : α → β} (h : (list.map f).Nodup)
    (hNew : ∀ value ∈ list, f value ≠ f last) : ((list ++ [last]).map f).Nodup := by
  rw [map_append]
  refine nodup_snoc h fun hMem => ?_
  obtain ⟨value, hValue, hSame⟩ := mem_map.mp hMem
  exact hNew value hValue hSame

end Lists

/-- A property of the bytes below a bound, checked code by code. -/
theorem forall_byte_lt {P : UInt8 → Prop} {bound}
    (h : ∀ code < bound, P (UInt8.ofNat code)) {byte : UInt8} (hByte : byte.toNat < bound) :
    P byte := by
  have hCode := h byte.toNat hByte
  rwa [UInt8.ofNat_toNat] at hCode

theorem forall_byte {P : UInt8 → Prop} (h : ∀ code < 256, P (UInt8.ofNat code)) (byte : UInt8) :
    P byte :=
  forall_byte_lt h byte.toNat_lt

/-- Byte strings of one length, the fixed-size arrays of the source. -/
abbrev FixedBytes (size : Nat) := {bytes : Bytes // bytes.length = size}

def FixedBytes.replicate (size : Nat) (byte : UInt8) : FixedBytes size :=
  ⟨List.replicate size byte, length_replicate⟩

def FixedBytes.ofSlice? (size : Nat) (bytes : Bytes) : Option (FixedBytes size) :=
  if h : bytes.length = size then some ⟨bytes, h⟩ else none

variable {size : Nat}

@[simp] theorem FixedBytes.length_val (bytes : FixedBytes size) : bytes.val.length = size :=
  bytes.property

open FixedBytes

@[simp] theorem FixedBytes.ofSlice?_val (bytes : FixedBytes size) :
    ofSlice? size bytes.val = some bytes := by
  simp [ofSlice?, bytes.property]

theorem FixedBytes.ofSlice?_eq_some {bytes fixed} :
    ofSlice? size bytes = some fixed ↔ bytes = fixed.val := by
  constructor
  · intro h
    unfold ofSlice? at h
    split at h
    · cases h
      rfl
    · cases h
  · rintro rfl
    exact ofSlice?_val fixed

/-- Addition in a machine word of 64 bits, refused on overflow. -/
def checkedAdd (a b : Nat) : Option Nat :=
  if a + b < 2 ^ 64 then some (a + b) else none

def checkedMul (a b : Nat) : Option Nat :=
  if a * b < 2 ^ 64 then some (a * b) else none

/-- The successor of a 64-bit counter, refused at its last value. -/
def checkedSucc (value : UInt64) : Option UInt64 :=
  if value.toNat + 1 < 2 ^ 64 then some (value + 1) else none

theorem checkedSucc_eq_some {value next} (h : checkedSucc value = some next) :
    value.toNat + 1 < 2 ^ 64 ∧ next.toNat = value.toNat + 1 := by
  unfold checkedSucc at h
  split at h
  · rename_i hBound
    cases h
    refine ⟨hBound, ?_⟩
    rw [UInt64.toNat_add, UInt64.toNat_one, Nat.mod_eq_of_lt hBound]
  · cases h

theorem checkedSucc_of_lt {value} (h : value.toNat + 1 < 2 ^ 64) :
    checkedSucc value = some (value + 1) := by
  simp only [checkedSucc, h, ↓reduceIte]

theorem u64_ofNat_inj {left right} (hLeft : left < 2 ^ 64) (hRight : right < 2 ^ 64)
    (h : UInt64.ofNat left = UInt64.ofNat right) : left = right := by
  have hNat := congrArg UInt64.toNat h
  rwa [toNat_ofNat_of_lt' hLeft, toNat_ofNat_of_lt' hRight] at hNat

/-- A counter that holds a list's length counts one more, while it can. -/
theorem checkedSucc_ofNat {count following} (hCount : count < 2 ^ 64)
    (h : checkedSucc (UInt64.ofNat count) = some following) :
    count + 1 < 2 ^ 64 ∧ following = UInt64.ofNat (count + 1) := by
  obtain ⟨hBound, hNext⟩ := checkedSucc_eq_some h
  rw [toNat_ofNat_of_lt' hCount] at hBound hNext
  refine ⟨hBound, UInt64.toNat_inj.mp ?_⟩
  rw [hNext, UInt64.toNat_ofNat_of_lt' hBound]

theorem checkedSucc_ofNat_of_lt {count} (h : count + 1 < 2 ^ 64) :
    checkedSucc (UInt64.ofNat count) = some (UInt64.ofNat (count + 1)) := by
  have hNat : (UInt64.ofNat count).toNat = count :=
    UInt64.toNat_ofNat_of_lt' (Nat.lt_of_succ_lt h)
  rw [checkedSucc_of_lt (by rw [hNat]; exact h), UInt64.ofNat_add]
  rfl

variable (a b : UInt64)

/-- Addition of 64-bit words that stops at the largest word. -/
def saturatingAdd : UInt64 :=
  if a.toNat + b.toNat < 2 ^ 64 then a + b else UInt64.ofNat (2 ^ 64 - 1)

theorem saturatingAdd_toNat : (saturatingAdd a b).toNat = min (a.toNat + b.toNat) (2 ^ 64 - 1) := by
  unfold saturatingAdd
  split
  · rename_i hBound
    rw [UInt64.toNat_add, Nat.mod_eq_of_lt hBound]
    omega
  · rename_i hBound
    have hMax : (UInt64.ofNat (2 ^ 64 - 1)).toNat = 2 ^ 64 - 1 := by decide
    omega

theorem saturatingAdd_le : (saturatingAdd a b).toNat ≤ a.toNat + b.toNat := by
  rw [saturatingAdd_toNat]
  exact min_le_left _ _

def u64TryFrom (value : Int) : Option UInt64 :=
  if 0 ≤ value ∧ value < 2 ^ 64 then some (UInt64.ofNat value.toNat) else none

def i64TryFrom (value : Int) : Option Int64 :=
  if -2 ^ 63 ≤ value ∧ value < 2 ^ 63 then some (Int64.ofInt value) else none

@[simp] theorem i64TryFrom_toInt (value : Int64) : i64TryFrom value.toInt = some value := by
  rw [i64TryFrom, if_pos ⟨value.le_toInt, value.toInt_lt⟩, Int64.ofInt_toInt]

/-- Fixed-width big-endian bytes. Values outside the width are truncated,
as a narrowing cast truncates them. -/
def beBytes : Nat → Nat → Bytes
  | 0, _ => []
  | width + 1, value => beBytes width (value / 256) ++ [UInt8.ofNat value]

/-- Numerical value of a big-endian byte string. -/
def beValue (bytes : Bytes) : Nat :=
  bytes.foldl (fun acc byte => acc * 256 + byte.toNat) 0

@[simp] theorem beBytes_length (width value : Nat) : (beBytes width value).length = width := by
  induction width generalizing value with
  | zero => rfl
  | succ width ih => simp [beBytes, ih]

variable (bytes : Bytes)

@[simp] theorem beValue_append_singleton (byte : UInt8) :
    beValue (bytes ++ [byte]) = beValue bytes * 256 + byte.toNat := by
  simp [beValue]

variable {width value : Nat}

theorem beValue_beBytes (h : value < 256 ^ width) : beValue (beBytes width value) = value := by
  induction width generalizing value with
  | zero => simp at h; subst value; rfl
  | succ width ih =>
    have hDiv : value / 256 < 256 ^ width := by
      apply (div_lt_iff_lt_mul (by omega)).mpr
      simpa [pow_succ] using h
    rw [beBytes, beValue_append_singleton, ih hDiv]
    simp only [UInt8.toNat_ofNat']
    omega

theorem beValue_lt : beValue bytes < 256 ^ bytes.length := by
  induction bytes using reverseRecOn with
  | nil => decide
  | append_singleton bytes byte ih =>
    have hByte := byte.toNat_lt
    rw [beValue_append_singleton, length_append, length_singleton, pow_succ]
    omega

theorem beValue_append (left right : Bytes) :
    beValue (left ++ right) = beValue left * 256 ^ right.length + beValue right := by
  induction right using reverseRecOn with
  | nil => simp [beValue]
  | append_singleton right last ih =>
    rw [← append_assoc, beValue_append_singleton, ih, beValue_append_singleton,
      length_append, length_singleton, pow_succ]
    ring

theorem beValue_cons (first : UInt8) (rest : Bytes) :
    beValue (first :: rest) = first.toNat * 256 ^ rest.length + beValue rest := by
  rw [← singleton_append, beValue_append]
  simp [beValue]

/-- What is cut off at the end is what the power of two divides away. -/
theorem beValue_take (count : Nat) :
    beValue (bytes.take count) = beValue bytes / 2 ^ (8 * bytes.length - 8 * count) := by
  have hSplit := beValue_append (bytes.take count) (bytes.drop count)
  have hPower : 2 ^ (8 * bytes.length - 8 * count) = 256 ^ (bytes.drop count).length := by
    rw [show (256 : ℕ) = 2 ^ 8 from rfl, ← pow_mul, length_drop]
    congr 1
    omega
  rw [take_append_drop] at hSplit
  rw [hSplit, hPower, mul_comm, mul_add_div (Nat.pow_pos (by decide)),
    div_eq_of_lt (beValue_lt _), add_zero]

theorem foldl_shift_eq_beValue :
    bytes.foldl (fun acc byte => acc <<< 8 ||| byte.toNat) 0 = beValue bytes := by
  rw [beValue]
  congr 1
  funext acc byte
  rw [← shiftLeft_add_eq_or_of_lt byte.toNat_lt, shiftLeft_eq]

theorem beBytes_injective {left right} (hLeft : left < 256 ^ width)
    (hRight : right < 256 ^ width) (h : beBytes width left = beBytes width right) :
    left = right := by
  rw [← beValue_beBytes hLeft, h, beValue_beBytes hRight]

/-- The two bytes of a word, high byte first. -/
def u16BeBytes (value : UInt16) : UInt8 × UInt8 :=
  ((value >>> 8).toUInt8, value.toUInt8)

variable (high low : UInt8)

def u16FromBytes : UInt16 :=
  high.toUInt16 <<< 8 ||| low.toUInt16

theorem u16FromBytes_toNat : (u16FromBytes high low).toNat = high.toNat * 256 + low.toNat := by
  have hHigh := high.toNat_lt
  have hShift : (high.toUInt16 <<< 8).toNat = high.toNat <<< 8 := by
    have hCount : (8 : UInt16).toNat % 16 = 8 := rfl
    rw [UInt16.toNat_shiftLeft, UInt8.toNat_toUInt16, hCount]
    apply Nat.mod_eq_of_lt
    rw [Nat.shiftLeft_eq]
    omega
  rw [u16FromBytes, UInt16.toNat_or, hShift, UInt8.toNat_toUInt16,
    ← Nat.shiftLeft_add_eq_or_of_lt low.toNat_lt, Nat.shiftLeft_eq]

@[simp] theorem u16BeBytes_fromBytes : u16BeBytes (u16FromBytes high low) = (high, low) := by
  have hLow := low.toNat_lt
  have hHigh := high.toNat_lt
  rw [u16BeBytes, Prod.mk.injEq]
  constructor
  · apply UInt8.toNat_inj.mp
    rw [UInt16.toNat_toUInt8, UInt16.toNat_shiftRight, u16FromBytes_toNat, Nat.shiftRight_eq_div_pow]
    simp
    omega
  · apply UInt8.toNat_inj.mp
    rw [UInt16.toNat_toUInt8, u16FromBytes_toNat]
    omega

@[simp] theorem u16FromBytes_beBytes (value : UInt16) :
    u16FromBytes (u16BeBytes value).1 (u16BeBytes value).2 = value := by
  have hValue := value.toNat_lt
  apply UInt16.toNat_inj.mp
  rw [u16FromBytes_toNat, u16BeBytes, UInt16.toNat_toUInt8, UInt16.toNat_toUInt8,
    UInt16.toNat_shiftRight, shiftRight_eq_div_pow]
  simp
  omega

def leBytes (width value : Nat) : Bytes :=
  (beBytes width value).reverse

def leValue (bytes : Bytes) : Nat :=
  beValue bytes.reverse

@[simp] theorem leBytes_length (width value : Nat) : (leBytes width value).length = width := by
  rw [leBytes, length_reverse, beBytes_length]

theorem leValue_leBytes (h : value < 256 ^ width) : leValue (leBytes width value) = value := by
  rw [leValue, leBytes, reverse_reverse, beValue_beBytes h]

theorem leValue_lt : leValue bytes < 256 ^ bytes.length := by
  have hBound := beValue_lt bytes.reverse
  rwa [length_reverse] at hBound

theorem beBytes_beValue : beBytes bytes.length (beValue bytes) = bytes := by
  induction bytes using reverseRecOn with
  | nil => rfl
  | append_singleton bytes byte ih =>
    have hByte := byte.toNat_lt
    have hHigh : (beValue bytes * 256 + byte.toNat) / 256 = beValue bytes := by omega
    have hLow : UInt8.ofNat (beValue bytes * 256 + byte.toNat) = byte := by
      apply UInt8.toNat_inj.mp
      rw [UInt8.toNat_ofNat']
      omega
    rw [beValue_append_singleton, length_append, length_singleton, beBytes, hHigh, ih, hLow]

theorem leBytes_leValue : leBytes bytes.length (leValue bytes) = bytes := by
  have hBytes := beBytes_beValue bytes.reverse
  rw [length_reverse] at hBytes
  rw [leBytes, leValue, hBytes, reverse_reverse]

end RefineId.Data
