import RefineId.Auth.Manage
import RefineId.Ber.Records

/-! The readers of the PIN container look for tag and length octets at every
byte of the answer (`read_pin_change_record` and `read_puk_status_from_container`
of `crates/auth/src/activation.rs`). When that reads what the elements hold. -/
namespace RefineId.Auth

open Data Apdu Ber Semantics List Except PinRetries

def recordOfFlag (flag : UInt8) : PinChangeRecord :=
  if flag = 0x00 then .unchanged else if flag = 0x01 then .changed else .unreadable

/-- The value of the first element with a tag, where the body is a list of
elements. -/
def elementIn (tag : UInt16) (body : Bytes) : Option Bytes :=
  ((records body).toOption.bind (·.find? (·.tag = tag))).map BerTlvAny.value

def changeRecordIn (body : Bytes) : PinChangeRecord :=
  match elementIn 0xDF2F body with
  | some [flag] => recordOfFlag flag
  | _ => .unreadable

def pukStatusIn (body : Bytes) : PinStatus :=
  match elementIn 0xDF21 body with
  | some [tries, _, _, _] => ((fromNibble tries).map .remaining).getD .noInfo
  | _ => .noInfo

/-- A body with an element of a tag `0xDF` and `low` between others. -/
def around (low : UInt8) (bytes octets value rest : Bytes) : Bytes :=
  bytes ++ ([0xDF, low] ++ octets ++ value ++ rest)

/-- The first window of a body that a reader takes. -/
def scan {α : Type} (window : Bytes → Option α) (body : Bytes) : Option α :=
  body.tails.findSome? window

section Programs
variable {E α : Type}

/-- The result of a program whose every request is answered with a body. -/
def readFrom (body : Bytes) (program : CardProgram E α) : Except (AuthError E) α :=
  (program.run.run (fun _ _ => (.ok (.response ⟨body, 0x90, 0x00⟩), ())) ()).1

theorem readFrom_change (slot : PinSlot) (body : Bytes) :
    readFrom body (readPinChangeRecord slot : CardProgram E _) =
      .ok (((scan changedFlag body).map recordOfFlag).getD .unreadable) := by
  have hRead : readFrom body (readPinChangeRecord slot : CardProgram E _) =
      .ok (pinChangeRecordOf ⟨body, 0x90, 0x00⟩) := by cases slot <;> rfl
  rw [hRead, pinChangeRecordOf, ResponseApdu.statusWord_mk, StatusWord.fromBytes_success, if_pos rfl]
  change _ = Except.ok (((body.tails.findSome? changedFlag).map recordOfFlag).getD _)
  cases body.tails.findSome? changedFlag <;> rfl

theorem readFrom_puk (body : Bytes) :
    readFrom body (readPukStatusFromContainer : CardProgram E _) =
      .ok (((scan attributeTries body).map .remaining).getD .noInfo) := by
  have hRead : readFrom body (readPukStatusFromContainer : CardProgram E _) =
      .ok (pukStatusOf ⟨body, 0x90, 0x00⟩) := rfl
  rw [hRead, pukStatusOf, ResponseApdu.statusWord_mk, StatusWord.fromBytes_success]
  change _ = Except.ok (((body.tails.findSome? attributeTries).map _).getD _)
  cases body.tails.findSome? attributeTries <;> rfl

end Programs

/-- What the windows of a reader have in common: they start with `0xDF`, the low
octet of the tag and the length, and one that starts before a tag reads nothing
behind the octet that follows the tag. -/
structure Window {α : Type} (window : Bytes → Option α) (low length : UInt8) : Prop where
  low_ne : low ≠ 0xDF
  eq_none : ∀ bytes, (∀ value rest, bytes ≠ 0xDF :: low :: length :: value :: rest) →
    window bytes = none
  before : ∀ first before other rest, window (first :: (before ++ ([0xDF, low, other] ++ rest))) =
    window (first :: (before ++ [0xDF, low, other]))

theorem window_change : Window changedFlag 0x2F 1 where
  low_ne := by decide
  eq_none bytes h := by
    unfold changedFlag
    split
    · refine if_neg ?_
      rintro ⟨rfl, rfl, rfl⟩
      exact h _ _ rfl
    · rfl
  before first before other rest := by
    rcases before with _ | ⟨low, _ | ⟨length, _ | ⟨flag, before⟩⟩⟩ <;> simp [changedFlag]

theorem window_attributes : Window attributeTries 0x21 4 where
  low_ne := by decide
  eq_none bytes h := by
    unfold attributeTries
    split
    · refine if_neg ?_
      rintro ⟨rfl, rfl, rfl⟩
      exact h _ _ rfl
    · rfl
  before first before other rest := by
    rcases before with
      _ | ⟨low, _ | ⟨length, _ | ⟨tries, _ | ⟨next, _ | ⟨more, _ | ⟨last, before⟩⟩⟩⟩⟩⟩ <;>
      rcases rest with _ | ⟨a, _ | ⟨b, _ | ⟨c, rest⟩⟩⟩ <;>
      simp [attributeTries, fromNibble]

section Scans
variable {α : Type} {window : Bytes → Option α}

theorem scan_cons (first : UInt8) (rest : Bytes) :
    scan window (first :: rest) = (window (first :: rest)).or (scan window rest) := by
  rw [scan, tails, findSome?_cons]
  cases window (first :: rest) <;> rfl

variable {low length : UInt8} (hWindow : Window window low length)
include hWindow

/-- Nothing is read from bytes that no window starts with. -/
theorem scan_skip {skipped} (h : 0xDF ∉ skipped) (rest : Bytes) :
    scan window (skipped ++ rest) = scan window rest := by
  induction skipped with
  | nil => rfl
  | cons first skipped ih =>
    rw [mem_cons, not_or] at h
    rw [cons_append, scan_cons, hWindow.eq_none _ (by simp [Ne.symm h.1]), Option.none_or, ih h.2]

theorem scan_before (before rest : Bytes) (other : UInt8) :
    scan window (before ++ ([0xDF, low, other] ++ rest)) =
      (scan window (before ++ [0xDF, low, other])).or (scan window ([0xDF, low, other] ++ rest)) := by
  induction before with
  | nil =>
    have hNone : scan window [0xDF, low, other] = none := by simp [scan, hWindow.eq_none]
    rw [nil_append, nil_append, hNone, Option.none_or]
  | cons first before ih =>
    simp only [@cons_append _ first]
    rw [scan_cons, scan_cons, hWindow.before, ih, Option.or_assoc]

/-- An element whose length is in another form is passed over. -/
theorem scan_long (before rest : Bytes) {marker value more}
    (hMarker : marker ≠ length) (h : 0xDF ∉ marker :: more) (hValue : value ≠ 0xDF) :
    scan window (before ++ ([0xDF, low, marker] ++ (more ++ value :: rest))) =
      (scan window (before ++ [0xDF, low, marker])).or (scan window rest) := by
  have hSkip : 0xDF ∉ low :: marker :: (more ++ [value]) := by
    simp_all [Ne.symm hWindow.low_ne, eq_comm]
  rw [scan_before hWindow, ← scan_skip hWindow hSkip rest, cons_append, scan_cons,
    hWindow.eq_none _ (by simp [hMarker]), Option.none_or]
  simp

end Scans

/-- A small length in another form than one octet: no window starts in it, and
it does not look like the octet. -/
theorem lengthForm_cases {octets} (octet : UInt8) (h : LengthForm octets octet.toNat)
    (hSmall : octet.toNat < 0x80) : octets = [octet] ∨
      ∃ marker more, octets = marker :: more ∧ marker ≠ octet ∧ 0xDF ∉ marker :: more := by
  generalize hLength : octet.toNat = length at h hSmall
  cases h with
  | short other _ => exact .inl (by rw [UInt8.toNat_inj.mp hLength])
  | long octets hSome hMost =>
    have hMarker : 0x80 < (longFormMarker octets.length).toNat ∧
        0xDF ≠ longFormMarker octets.length := by
      generalize octets.length = count at hSome hMost
      interval_cases count <;> decide
    refine .inr ⟨_, octets, rfl, ?_, not_mem_cons_of_ne_of_not_mem hMarker.2 fun hMem => ?_⟩
    · rintro rfl
      omega
    obtain ⟨front, back, rfl⟩ := append_of_mem hMem
    rw [beValue_append, beValue_cons, show (0xDF : UInt8).toNat = 223 from rfl] at hSmall
    have hPower := Nat.one_le_pow back.length 256 (by decide)
    omega

section Elements
variable {E : Type} {header bytes octets rest : Bytes} {before after : List BerTlvAny}

/-- The element behind others with other tags, in any form of its length. -/
theorem elementIn_around {tag low value} (hTag : TagForm [0xDF, low] tag)
    (hBytes : records bytes = .ok before) (hForm : LengthForm octets value.length)
    (hRest : records rest = .ok after) (hBefore : ∀ element ∈ before, element.tag ≠ tag) :
    elementIn tag (around low bytes octets value rest) = some value := by
  have hParse : BerTlvAny.parse ([0xDF, low] ++ octets ++ value ++ rest) =
      .ok ⟨tag, value, ([0xDF, low] ++ octets ++ value).length⟩ :=
    BerTlvAny.parse_eq_ok.mpr ⟨_, octets, rest, hTag, hForm, rfl, rfl⟩
  rw [elementIn, around, records_append hBytes (records_of_parse hParse rfl hRest), Except.toOption,
    Option.bind_some, find?_append, find?_eq_none.mpr (by simpa using hBefore)]
  simp

/-- The first window decides, so two flags are told apart only if the length is
in one octet and nothing before the record looks like one. -/
theorem change_follows_iff (slot : PinSlot) (hBytes : records bytes = .ok before)
    (hForm : LengthForm octets 1) (hRest : records rest = .ok after)
    (hBefore : ∀ element ∈ before, element.tag ≠ 0xDF2F) :
    (∀ flag, readFrom (header ++ around 0x2F bytes octets [flag] rest)
        (readPinChangeRecord slot : CardProgram E _) =
      .ok (changeRecordIn (around 0x2F bytes octets [flag] rest))) ↔
    octets = [1] ∧ scan changedFlag (header ++ bytes ++ [0xDF, 0x2F, 1]) = none := by
  have hTag : TagForm [0xDF, 0x2F] 0xDF2F := .double 0xDF 0x2F (by decide) (by decide)
  have hHeld (flag : UInt8) : changeRecordIn (around 0x2F bytes octets [flag] rest) =
      recordOfFlag flag := by
    rw [changeRecordIn, elementIn_around hTag hBytes hForm hRest hBefore]
  simp only [readFrom_change, hHeld, ok.injEq]
  rcases lengthForm_cases 1 hForm (by decide) with rfl | ⟨marker, more, rfl, hMarker, hSkip⟩
  · have hScan (flag : UInt8) := scan_before window_change (header ++ bytes) (flag :: rest) 1
    simp only [around, append_assoc, cons_append, nil_append] at hScan ⊢
    simp only [hScan, true_and]
    cases scan changedFlag (header ++ (bytes ++ [0xDF, 0x2F, 1])) with
    | none => exact iff_of_true (fun _ => rfl) rfl
    | some found =>
      refine iff_of_false (fun h => ?_) nofun
      cases (h 0).symm.trans (h 1)
  refine iff_of_false (fun h => ?_) (by rintro ⟨hOne, -⟩; cases hOne; exact hMarker rfl)
  have hScan {flag : UInt8} := @scan_long _ _ _ _ window_change (header ++ bytes) rest _ flag _
    hMarker hSkip
  simp only [around, append_assoc, cons_append, nil_append] at hScan h
  have hZero := h 0
  have hOne := h 1
  rw [hScan (by decide)] at hZero hOne
  cases hZero.symm.trans hOne

/-- The same for the attributes, where an octet that is no count lets the scan
go on in them. -/
theorem puk_follows_iff (a b c : UInt8) (hBytes : records bytes = .ok before)
    (hForm : LengthForm octets 4) (hRest : records rest = .ok after)
    (hBefore : ∀ element ∈ before, element.tag ≠ 0xDF21) :
    (∀ tries, readFrom (header ++ around 0x21 bytes octets [tries, a, b, c] rest)
        (readPukStatusFromContainer : CardProgram E _) =
      .ok (pukStatusIn (around 0x21 bytes octets [tries, a, b, c] rest))) ↔
    octets = [4] ∧ scan attributeTries (header ++ bytes ++ [0xDF, 0x21, 4]) = none ∧
      scan attributeTries (0xDF :: a :: b :: c :: rest) = none := by
  have hTag : TagForm [0xDF, 0x21] 0xDF21 := .double 0xDF 0x21 (by decide) (by decide)
  have hHeld (tries : UInt8) :
      pukStatusIn (around 0x21 bytes octets [tries, a, b, c] rest) =
        ((fromNibble tries).map .remaining).getD .noInfo := by
    rw [pukStatusIn, elementIn_around hTag hBytes hForm hRest hBefore]
  simp only [readFrom_puk, hHeld, ok.injEq]
  rcases lengthForm_cases 4 hForm (by decide) with rfl | ⟨marker, more, rfl, hMarker, hSkip⟩
  · have hScan (tries : UInt8) : scan attributeTries
        (header ++ around 0x21 bytes [4] [tries, a, b, c] rest) =
        (scan attributeTries (header ++ bytes ++ [0xDF, 0x21, 4])).or
          ((fromNibble tries).or
            (scan attributeTries (tries :: a :: b :: c :: rest))) := by
      have hBefore := scan_before window_attributes (header ++ bytes) (tries :: a :: b :: c :: rest) 4
      have hInside := @scan_skip _ _ _ _ window_attributes [0x21, 4] (by decide)
        (tries :: a :: b :: c :: rest)
      simp only [around, append_assoc, cons_append, nil_append] at hBefore hInside ⊢
      rw [hBefore, scan_cons, hInside]
      rfl
    simp only [hScan, true_and]
    constructor
    · -- An octet that is no count of tries, and that starts a window.
      intro h
      have hLast := h 0xDF
      rw [show fromNibble 0xDF = none from rfl, Option.none_or] at hLast
      refine Option.or_eq_none_iff.mp (Option.eq_none_iff_forall_ne_some.mpr fun found hFound => ?_)
      rw [hFound] at hLast
      cases hLast
    rintro ⟨hFirst, hLast⟩ tries
    rw [hFirst, Option.none_or]
    cases hTries : fromNibble tries with
    | some retries => rfl
    | none =>
      have hNone : scan attributeTries (tries :: a :: b :: c :: rest) = none := by
        by_cases hSame : tries = 0xDF
        · rw [hSame, hLast]
        rw [scan_cons] at hLast
        rw [scan_cons, window_attributes.eq_none _ (by simp [hSame]),
          (Option.or_eq_none_iff.mp hLast).2]
        rfl
      rw [hNone]
      rfl
  refine iff_of_false (fun h => ?_) (by rintro ⟨hFour, -⟩; cases hFour; exact hMarker rfl)
  have hScan {tries : UInt8} := @scan_long _ _ _ _ window_attributes (header ++ bytes)
    (a :: b :: c :: rest) _ tries _ hMarker hSkip
  simp only [around, append_assoc, cons_append, nil_append] at hScan h
  have hOne := h 1
  have hTwo := h 2
  rw [hScan (by decide)] at hOne hTwo
  cases hOne.symm.trans hTwo

end Elements

end RefineId.Auth
