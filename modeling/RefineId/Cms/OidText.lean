import RefineId.Data.Words
import Mathlib.Tactic.IntervalCases

/-! Object identifiers as text. Two renderers read the same content octets,
one of them for the labels of extended key usages. -/
namespace RefineId.Cms

open Data List

/-- The arcs after the first two, seven bits an octet, in a register of so
many bits. -/
def laterArcs (bits : Nat) : Bytes → Nat → String
  | [], _ => ""
  | byte :: rest, acc =>
    let acc := acc <<< 7 % 2 ^ bits ||| (byte &&& 0x7F).toNat
    if byte &&& 0x80 = 0 then "." ++ toString acc ++ laterArcs bits rest 0
    else laterArcs bits rest acc

def Oid.fmt : Bytes → String
  | [] => "(empty-oid)"
  | first :: rest =>
    let arc1Raw := first.toNat / 40
    let (arc1, arc2) := if arc1Raw > 2 then (2, first.toNat - 80) else (arc1Raw, first.toNat % 40)
    toString arc1 ++ "." ++ toString arc2 ++ laterArcs 128 rest 0

def oidDotNotation : Bytes → String
  | [] => ""
  | first :: rest =>
    toString (first.toNat / 40) ++ "." ++ toString (first.toNat % 40) ++ laterArcs 32 rest 0

/-- The octets of a number before its last one. -/
def leadingOctets (value : Nat) : Bytes :=
  if value = 0 then [] else leadingOctets (value / 128) ++ [UInt8.ofNat (value % 128 + 128)]

def subidentifier (value : Nat) : Bytes :=
  leadingOctets (value / 128) ++ [UInt8.ofNat (value % 128)]

structure Arcs where
  first : Nat
  second : Nat
  later : List Nat
  first_le : first ≤ 2
  second_lt : first < 2 → second < 40
  encodable : ∀ value ∈ (40 * first + second) :: later, value < 2 ^ 32

namespace Arcs
variable (arcs : Arcs)

/-- The first two arcs share a subidentifier. -/
def joint : Nat :=
  40 * arcs.first + arcs.second

def content : Bytes :=
  (arcs.joint :: arcs.later).flatMap subidentifier

def dots : List Nat → String
  | [] => ""
  | arc :: later => "." ++ toString arc ++ dots later

def dotted : String :=
  toString arcs.first ++ dots (arcs.second :: arcs.later)

end Arcs

theorem octet_bits : ∀ low < 128,
    (UInt8.ofNat low &&& 0x7F).toNat = low ∧ UInt8.ofNat low &&& 0x80 = 0 ∧
      (UInt8.ofNat (low + 128) &&& 0x7F).toNat = low ∧ UInt8.ofNat (low + 128) &&& 0x80 ≠ 0 := by
  decide

variable {bits value : Nat}

/-- The register takes the next seven bits while the value fits it. -/
theorem register_eq (h : value < 2 ^ bits) :
    (value / 128) <<< 7 % 2 ^ bits ||| value % 128 = value := by
  have hHigh : (value / 128) <<< 7 < 2 ^ bits := by
    rw [Nat.shiftLeft_eq]
    omega
  rw [Nat.mod_eq_of_lt hHigh, ← Nat.shiftLeft_add_eq_or_of_lt (Nat.mod_lt _ (by decide)),
    Nat.shiftLeft_eq]
  omega

theorem laterArcs_leading (h : value < 2 ^ bits) (rest : Bytes) :
    laterArcs bits (leadingOctets value ++ rest) 0 = laterArcs bits rest value := by
  induction value using Nat.strongRecOn generalizing rest with
  | ind value ih =>
    rw [leadingOctets]
    split_ifs with hZero
    · rw [hZero]
      rfl
    obtain ⟨-, -, hLow, hMore⟩ := octet_bits (value % 128) (Nat.mod_lt _ (by decide))
    rw [append_assoc, ih (value / 128) (by omega) (by omega), singleton_append, laterArcs, hLow,
      register_eq h, if_neg hMore]

theorem laterArcs_flatMap {values} (h : ∀ value ∈ values, value < 2 ^ bits) :
    laterArcs bits (values.flatMap subidentifier) 0 = Arcs.dots values := by
  induction values with
  | nil => rfl
  | cons value values ih =>
    obtain ⟨hValue, hValues⟩ := forall_mem_cons.mp h
    obtain ⟨hLow, hLast, -⟩ := octet_bits (value % 128) (Nat.mod_lt _ (by decide))
    rw [flatMap_cons, subidentifier, append_assoc, laterArcs_leading (by omega), singleton_append,
      laterArcs, hLow, register_eq hValue, if_pos hLast, ih hValues, Arcs.dots]

theorem leadingOctets_high : ∀ byte ∈ leadingOctets value, 128 ≤ byte.toNat := by
  induction value using Nat.strongRecOn with
  | ind value ih =>
    rw [leadingOctets]
    split_ifs with hZero
    · simp
    refine forall_mem_snoc (ih _ (by omega)) ?_
    rw [UInt8.toNat_ofNat']
    omega

namespace Arcs
variable {arcs : Arcs}

/-- While both arcs fit one octet as the renderers take it apart. -/
theorem rendered_of_lt (h : arcs.joint < 120) :
    Oid.fmt arcs.content = arcs.dotted ∧ oidDotNotation arcs.content = arcs.dotted := by
  have hSecond := arcs.second_lt
  have hContent : arcs.content = UInt8.ofNat arcs.joint :: arcs.later.flatMap subidentifier := by
    rw [content, flatMap_cons, subidentifier, Nat.div_eq_of_lt (by omega), leadingOctets,
      if_pos rfl, Nat.mod_eq_of_lt (by omega)]
    rfl
  have hOctet : (UInt8.ofNat arcs.joint).toNat = arcs.joint := by
    rw [UInt8.toNat_ofNat']
    omega
  have hLater {bits : Nat} (h : 32 ≤ bits) : ∀ value ∈ arcs.later, value < 2 ^ bits :=
    fun value hMem =>
      (arcs.encodable value (mem_cons_of_mem _ hMem)).trans_le (Nat.pow_le_pow_right (by decide) h)
  have hParts : arcs.joint / 40 = arcs.first ∧ arcs.joint % 40 = arcs.second := by
    rw [joint] at h ⊢
    omega
  rw [hContent, Oid.fmt, oidDotNotation, hOctet, hParts.1, hParts.2, if_neg (by omega),
    laterArcs_flatMap (hLater (by decide)), laterArcs_flatMap (hLater le_rfl), dotted, dots]
  simp [String.append_assoc]

theorem head_of_le (h : 120 ≤ arcs.joint) :
    ∃ byte rest, arcs.content = byte :: rest ∧ 120 ≤ byte.toNat := by
  rw [content, flatMap_cons, subidentifier]
  cases hLeading : leadingOctets (arcs.joint / 128) with
  | nil =>
    have hHigh : arcs.joint / 128 = 0 := by
      rw [leadingOctets] at hLeading
      split_ifs at hLeading with hZero
      · exact hZero
      · simp at hLeading
    refine ⟨_, _, rfl, ?_⟩
    rw [UInt8.toNat_ofNat']
    omega
  | cons byte rest =>
    have hByte := leadingOctets_high byte (hLeading ▸ mem_cons_self)
    exact ⟨byte, _, rfl, by omega⟩

/-- Both renderers print the dotted form exactly while the second arc under
the first arc 2 is below 40. -/
theorem both_rendered_iff (arcs : Arcs) :
    (Oid.fmt arcs.content = arcs.dotted ∧ oidDotNotation arcs.content = arcs.dotted) ↔
      (arcs.first = 2 → arcs.second < 40) := by
  have hFirst := arcs.first_le
  have hSecond := arcs.second_lt
  constructor
  · rintro ⟨-, hText⟩ hTwo
    by_contra hLarge
    obtain ⟨byte, rest, hContent, hByte⟩ := arcs.head_of_le (by rw [joint]; omega)
    have hUpper := byte.toNat_lt
    rw [hContent, oidDotNotation, dotted, hTwo] at hText
    have hHead := congrArg (fun text => text.toList.head?) hText
    -- the first arc is printed as a digit from 3 to 6
    obtain ⟨digit, hDigit⟩ : ∃ digit, byte.toNat / 40 = digit := ⟨_, rfl⟩
    rw [hDigit] at hHead
    obtain ⟨hLow, hHigh⟩ : 3 ≤ digit ∧ digit ≤ 6 := by omega
    interval_cases digit <;>
      simp [String.toList_append, Nat.toDigits_of_lt_base, Nat.digitChar] at hHead
  · intro h
    exact rendered_of_lt (by rw [joint]; omega)

/-- The identifier 2.40 is printed as 3.0. -/
theorem label_misprinted :
    oidDotNotation (Arcs.mk 2 40 [] (by decide) (by decide) (by decide)).content = "3.0" := by
  decide +kernel

end Arcs

end RefineId.Cms
