import RefineId.Data.BTreeMap
import RefineId.Data.Result
import RefineId.Data.Text
import RefineId.Rapp.Types

/-! The restricted value set of the wire and its deterministic encoding
(`crates/rapp/src/wire.rs`). -/
namespace RefineId.Rapp

open Data BTreeMap

def maxNestingDepth : Nat := 8

def maxTextSize : Nat := 4096

def argumentImmediateMax : UInt8 := 23

def argumentOneByte : UInt8 := 24

def argumentTwoBytes : UInt8 := 25

def argumentFourBytes : UInt8 := 26

def argumentEightBytes : UInt8 := 27

/-- Values the protocol can carry. Floating point, tags, indefinite lengths
and map keys other than text cannot be built. -/
inductive WireValue where
  | unsigned (value : UInt64)
  | negative (value : Int64)
  | bytes (bytes : Bytes)
  | text (text : String)
  | array (values : List WireValue)
  | map (values : BTreeMap String WireValue)
  | bool (value : Bool)
  | null

/-- The text-keyed map every message body is. -/
abbrev Body := BTreeMap String WireValue

inductive WireError where
  | truncated
  | trailingData
  | nonCanonical
  | forbiddenCborType
  | nestingTooDeep
  | textTooLong (got : Nat)
  | collectionTooLarge (got : Nat)
  | invalidUtf8
  | duplicateMapKey
  | nonTextMapKey
  | missingField (field : String)
  | unknownField
  | wrongType (field : String)
  | wrongLength (field : String) (expected got : Nat)
  | invalidValue (field : String)
  | unsupportedVersion
  | unknownMessageType
  | oversizedPlaintext (got : Nat)
  | wrongSession
  | wrongSequence (expected got : UInt64)
  | sequenceWrapped
  | integerOverflow
  deriving DecidableEq

/-- Induction with the elements of an array and the values of a map as
hypotheses. -/
@[elab_as_elim] theorem WireValue.induction {P : WireValue → Prop}
    (unsigned : ∀ value, P (.unsigned value)) (negative : ∀ value, P (.negative value))
    (bytes : ∀ bytes, P (.bytes bytes)) (text : ∀ text, P (.text text))
    (array : ∀ values, (∀ value ∈ values, P value) → P (.array values))
    (map : ∀ values : Body, (∀ key, P (values.value key)) → P (.map values))
    (bool : ∀ value, P (.bool value)) (null : P .null) (value : WireValue) : P value := by
  refine @WireValue.rec P (fun values => ∀ value ∈ values, P value)
    (fun values => ∀ key, P (values.value key))
    unsigned negative bytes text array map bool null ?_ ?_ ?_ value
  · simp
  · intro head tail hHead hTail
    simpa using ⟨hHead, hTail⟩
  · intro keys value hValue
    exact hValue

/-- Initial byte and argument of one item, in the shortest form. -/
def encodeArgument (major : UInt8) (value : UInt64) : Bytes :=
  let lead := major <<< 5
  if value.toNat ≤ 23 then [lead ||| value.toUInt8]
  else if value.toNat ≤ 0xff then [lead ||| argumentOneByte, value.toUInt8]
  else if value.toNat ≤ 0xffff then (lead ||| argumentTwoBytes) :: beBytes 2 value.toNat
  else if value.toNat ≤ 0xffffffff then (lead ||| argumentFourBytes) :: beBytes 4 value.toNat
  else (lead ||| argumentEightBytes) :: beBytes 8 value.toNat

def encodeText (text : String) : Except WireError Bytes :=
  if maxTextSize < byteLen text then .error (.textTooLong (byteLen text))
  else .ok (encodeArgument 3 (UInt64.ofNat (byteLen text)) ++ asBytes text)

/-- Map entries with encoded keys; the first oversized key is the error. -/
def encodeKeys {α : Type} : List (String × α) → Except WireError (List (Bytes × α))
  | [] => .ok []
  | (key, value) :: rest => do
      let encoded ← encodeText key
      let ordered ← encodeKeys rest
      .ok ((encoded, value) :: ordered)

/-- Deterministic key order: shorter encodings first, then bytewise. -/
def keyLe {α : Type} (left right : Bytes × α) : Prop :=
  left.1.length < right.1.length ∨ (left.1.length = right.1.length ∧ left.1 ≤ right.1)

instance {α : Type} : DecidableRel (keyLe (α := α)) :=
  fun _ _ => inferInstanceAs (Decidable (_ ∨ _))

/-- Concatenate entries; the first value that failed to encode is the error. -/
def joinEntries : List (Bytes × Except WireError Bytes) → Except WireError Bytes
  | [] => .ok []
  | (key, value) :: rest => do
      let value ← value
      let output ← joinEntries rest
      .ok (key ++ value ++ output)

mutual
/-- The bytes `encode_value` appends for one value at a nesting depth. -/
def encodeValue (value : WireValue) (depth : Nat) : Except WireError Bytes :=
  if maxNestingDepth < depth then .error .nestingTooDeep
  else match value with
    | .unsigned value => .ok (encodeArgument 0 value)
    | .negative value =>
      if value < 0 then
        match u64TryFrom (-1 - value.toInt) with
        | some encoded => .ok (encodeArgument 1 encoded)
        | none => .error .integerOverflow
      else .error (.invalidValue "integer")
    | .bytes bytes => .ok (encodeArgument 2 (UInt64.ofNat bytes.length) ++ bytes)
    | .text text => encodeText text
    | .array values => do
        let output ← encodeItems values (depth + 1)
        .ok (encodeArgument 4 (UInt64.ofNat values.length) ++ output)
    | .map values => do
        let ordered ← encodeKeys (encodeEntries values (depth + 1))
        let output ← joinEntries (ordered.insertionSort keyLe)
        .ok (encodeArgument 5 (UInt64.ofNat values.length) ++ output)
    | .bool false => .ok [0xf4]
    | .bool true => .ok [0xf5]
    | .null => .ok [0xf6]

def encodeItems (values : List WireValue) (depth : Nat) : Except WireError Bytes :=
  match values with
  | [] => .ok []
  | value :: rest => do
      let head ← encodeValue value depth
      let tail ← encodeItems rest depth
      .ok (head ++ tail)

/-- Keys of a map with the outcome of encoding their values. -/
def encodeEntries (values : Body) (depth : Nat) : List (String × Except WireError Bytes) :=
  match values with
  | ⟨keys, value⟩ => keys.list.attach.map fun key => (key.val, encodeValue (value key) depth)
end

def encodeDeterministicCbor (value : WireValue) : Except WireError Bytes :=
  encodeValue value 0

/-- Encoding at a depth succeeds only within the nesting limit. -/
theorem encodeValue_depth {value depth encoding}
    (h : encodeValue value depth = .ok encoding) : depth ≤ maxNestingDepth := by
  by_contra hDepth
  rw [encodeValue.eq_def, if_pos (not_le.mp hDepth)] at h
  cases h

section WithinLimit
variable {depth : Nat} (hDepth : depth ≤ maxNestingDepth)
include hDepth

theorem encodeValue_array (values : List WireValue) : encodeValue (.array values) depth =
      encodeItems values (depth + 1) >>= fun output =>
        .ok (encodeArgument 4 (UInt64.ofNat values.length) ++ output) := by
  rw [encodeValue.eq_def, if_neg (not_lt.mpr hDepth)]

theorem encodeValue_map (values : Body) : encodeValue (.map values) depth =
      encodeKeys (encodeEntries values (depth + 1)) >>= fun ordered =>
        joinEntries (ordered.insertionSort keyLe) >>= fun output =>
          .ok (encodeArgument 5 (UInt64.ofNat values.length) ++ output) := by
  rw [encodeValue.eq_def, if_neg (not_lt.mpr hDepth)]

end WithinLimit

theorem encodeEntries_eq (values : Body) (depth : Nat) : encodeEntries values depth =
      values.entries.map fun entry => (entry.1, encodeValue entry.2 depth) := by
  rw [encodeEntries.eq_def, entries, List.map_map]
  rfl

/-! Equality, as the source derives it. -/

mutual
def WireValue.same : WireValue → WireValue → Bool
  | .unsigned left, .unsigned right => left = right
  | .negative left, .negative right => left = right
  | .bytes left, .bytes right => left = right
  | .text left, .text right => left = right
  | .array left, .array right => sameItems left right
  | .map left, .map right => sameEntries left right
  | .bool left, .bool right => left = right
  | .null, .null => true
  | _, _ => false

def sameItems : List WireValue → List WireValue → Bool
  | [], [] => true
  | left :: lefts, right :: rights => left.same right && sameItems lefts rights
  | _, _ => false

def sameEntries (left right : Body) : Bool :=
  match left with
  | ⟨keys, value⟩ =>
    decide (keys.list = right.keys.list) && keys.list.attach.all fun key =>
        match right.get? key.val with
        | some other => (value key).same other
        | none => false
end

theorem sameItems_iff {lefts}
    (h : ∀ left ∈ lefts, ∀ right, left.same right = true ↔ left = right) (rights : List WireValue) :
    sameItems lefts rights = true ↔ lefts = rights := by
  induction lefts generalizing rights with
  | nil => cases rights <;> simp [sameItems]
  | cons left lefts ih =>
    rw [List.forall_mem_cons] at h
    cases rights with
    | nil => simp [sameItems]
    | cons right rights => simp [sameItems, h.1 right, ih h.2 rights]

theorem sameEntries_iff {left}
    (h : ∀ key right, (left.value key).same right = true ↔ left.value key = right) (right : Body) :
    sameEntries left right = true ↔ left = right := by
  obtain ⟨keys, value⟩ := left
  simp only [sameEntries, Bool.and_eq_true, decide_eq_true_eq, List.all_eq_true]
  constructor
  · rintro ⟨hKeys, hValues⟩
    apply ext_get?
    intro key
    by_cases hMem : key ∈ keys.list
    · have hSame := hValues ⟨key, hMem⟩ (List.mem_attach _ _)
      rw [get?_value ⟨keys, value⟩ ⟨key, hMem⟩]
      cases hGet : right.get? key with
      | none => simp [hGet] at hSame
      | some other =>
        simp only [hGet] at hSame
        exact congrArg some ((h ⟨key, hMem⟩ other).mp hSame)
    · have hOther : key ∉ right.keys.list := hKeys ▸ hMem
      rw [get?_eq_none_iff.mpr hMem, get?_eq_none_iff.mpr hOther]
  · rintro rfl
    refine ⟨rfl, fun key _ => ?_⟩
    rw [get?_value ⟨keys, value⟩ key]
    exact (h key _).mpr rfl

theorem WireValue.same_iff (left right : WireValue) : left.same right = true ↔ left = right := by
  induction left using WireValue.induction generalizing right with
  | array values ih => cases right <;> simp [WireValue.same, sameItems_iff ih]
  | map values ih => cases right <;> simp [WireValue.same, sameEntries_iff ih]
  | unsigned value | negative value | bytes bytes | text text | bool value | null =>
    cases right <;> simp [WireValue.same]

instance : DecidableEq WireValue := fun left right =>
  decidable_of_iff _ (WireValue.same_iff left right)

instance : DecidableEq Body := fun left right =>
  decidable_of_iff _ (sameEntries_iff (fun key => WireValue.same_iff (left.value key)) right)

end RefineId.Rapp
