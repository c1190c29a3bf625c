import Mathlib.Order.Monotone.Basic
import Mathlib.Tactic.Ring

/-! The calendar fields of a clock reading, compared with the calendar itself:
the length of every month and of every year. -/
namespace RefineId.DocSign

structure Date where
  year : Nat
  month : Nat
  day : Nat

structure SigningTime extends Date where
  hour : Nat
  minute : Nat
  second : Nat

section Civil
variable (dayOfEra dayOfYear : Nat)

def yearOfEra : Nat :=
  (dayOfEra - dayOfEra / 1460 + dayOfEra / 36524 - dayOfEra / 146096) / 365

/-- Days of the era before a year of it. -/
def yearStart (year : Nat) : Nat :=
  365 * year + year / 4 - year / 100

/-- The number of the month in a year that starts with March. -/
def monthPrime : Nat :=
  (5 * dayOfYear + 2) / 153

def month : Nat :=
  if monthPrime dayOfYear < 10 then monthPrime dayOfYear + 3 else monthPrime dayOfYear - 9

def dayOfMonth : Nat :=
  dayOfYear - (153 * monthPrime dayOfYear + 2) / 5 + 1

end Civil

def civil (days : Nat) : Date :=
  let z := days + 719468
  let era := z / 146097
  let dayOfEra := z - era * 146097
  let year := yearOfEra dayOfEra
  let dayOfYear := dayOfEra - yearStart year
  { year := if month dayOfYear ≤ 2 then year + era * 400 + 1 else year + era * 400
    month := month dayOfYear
    day := dayOfMonth dayOfYear }

/-- A conversion to fewer bits, with the value that stands in when it fails. -/
def tryFromOr (bits fallback value : Nat) : Nat :=
  if value < 2 ^ bits then value else fallback

def SigningTime.fromUnixSecs (secs : Nat) : SigningTime :=
  let date := civil (secs / 86400)
  let daySecs := secs % 86400
  { year := tryFromOr 16 1970 date.year
    month := tryFromOr 8 1 date.month
    day := tryFromOr 8 1 date.day
    hour := tryFromOr 8 0 (daySecs / 3600)
    minute := tryFromOr 8 0 (daySecs / 60 % 60)
    second := tryFromOr 8 0 (daySecs % 60) }

open Date

section Calendar

def isLeap (year : Nat) : Bool :=
  year % 4 = 0 && (year % 100 ≠ 0 || year % 400 = 0)

def monthDays (leap : Bool) (month : Nat) : Nat :=
  if month = 2 then 28 + leap.toNat
  else if month ∈ [4, 6, 9, 11] then 30 else 31

/-- Days in the first months of a year. -/
def daysOfMonths (leap : Bool) : Nat → Nat
  | 0 => 0
  | months + 1 => daysOfMonths leap months + monthDays leap (months + 1)

/-- Days in the years before a year, from year 0 of the proleptic calendar. -/
def daysBefore : Nat → Nat
  | 0 => 0
  | year + 1 => daysBefore year + daysOfMonths (isLeap year) 12

/-- The month exists and has the day. -/
structure Date.Valid (date : Date) : Prop where
  month : 1 ≤ date.month ∧ date.month ≤ 12
  day : 1 ≤ date.day ∧ date.day ≤ monthDays (isLeap date.year) date.month

def Date.days (date : Date) : Nat :=
  daysBefore date.year + daysOfMonths (isLeap date.year) (date.month - 1) + (date.day - 1)

namespace SigningTime
variable (time : SigningTime)

structure Valid : Prop where
  date : time.toDate.Valid
  hour : time.hour < 24
  minute : time.minute < 60
  second : time.second < 60

/-- Seconds from the start of year 0. -/
def seconds : Nat :=
  86400 * time.days + (3600 * time.hour + 60 * time.minute + time.second)

def epoch : SigningTime := ⟨⟨1970, 1, 1⟩, 0, 0, 0⟩

/-- The fields in the order in which they decide what is later. -/
def fields : List Nat :=
  [time.year, time.month, time.day, time.hour, time.minute, time.second]

end SigningTime

theorem daysOfMonths_twelve (leap : Bool) : daysOfMonths leap 12 = 365 + leap.toNat := by
  cases leap <;> rfl

theorem daysBefore_succ (year : Nat) :
    daysBefore (year + 1) = 366 + 365 * year + year / 4 - year / 100 + year / 400 := by
  induction year with
  | zero => rfl
  | succ year ih =>
    rw [daysBefore, ih, daysOfMonths_twelve]
    cases hLeap : isLeap (year + 1) <;> simp [isLeap] at hLeap ⊢ <;> omega

theorem yearOfEra_mono : Monotone yearOfEra := by
  refine monotone_nat_of_le_succ fun day => Nat.div_le_div_right ?_
  have hCenturies (days : Nat) : days / 146096 = days / 36524 / 4 :=
    (Nat.div_div_eq_div_mul days 36524 4).symm
  rw [hCenturies, hCenturies]
  omega

theorem yearStart_table : ∀ year < 400, yearOfEra (yearStart year) = year ∧
    (year = 0 ∨ yearOfEra (yearStart year - 1) < year) ∧
    yearStart (year + 1) ≤ yearStart year + 365 + (isLeap (year + 1)).toNat := by
  decide +kernel

/-- A day of the era lies in its year. -/
theorem yearOfEra_spec {day} (h : day < 146097) :
    yearOfEra day < 400 ∧ yearStart (yearOfEra day) ≤ day ∧
      day < yearStart (yearOfEra day) + 365 + (isLeap (yearOfEra day + 1)).toNat := by
  have hYear : yearOfEra day ≤ 399 := yearOfEra_mono (Nat.le_of_lt_succ h)
  generalize hDay : yearOfEra day = year at *
  obtain ⟨hStart, hBefore, hNext⟩ := yearStart_table year (by omega)
  refine ⟨by omega, ?_, ?_⟩
  · by_contra hLess
    have hEarlier := yearOfEra_mono (show day ≤ yearStart year - 1 by omega)
    have hFirst : year ≠ 0 := by
      rintro rfl
      exact hLess (Nat.zero_le day)
    omega
  · by_contra hLate
    rcases Nat.lt_or_ge year 399 with hLast | hLast
    · have hLater := yearOfEra_mono (show yearStart (year + 1) ≤ day by omega)
      rw [(yearStart_table (year + 1) (by omega)).1] at hLater
      omega
    · obtain rfl : year = 399 := by omega
      exact hLate h

/-- Month and day fall where the calendar has them: the months from March on
in the year the count starts in, the others in the next. -/
theorem month_spec : ∀ dayOfYear < 366, ∀ leap : Bool,
    (month dayOfYear ≤ 2 → dayOfYear < 365 + leap.toNat) →
    (1 ≤ month dayOfYear ∧ month dayOfYear ≤ 12) ∧
      (1 ≤ dayOfMonth dayOfYear ∧ dayOfMonth dayOfYear ≤ monthDays leap (month dayOfYear)) ∧
      daysOfMonths leap (month dayOfYear - 1) + (dayOfMonth dayOfYear - 1) +
          (if month dayOfYear ≤ 2 then 306 else 0) =
        dayOfYear + (if month dayOfYear ≤ 2 then 0 else 59 + leap.toNat) := by
  decide +kernel

/-- `civil` inverts the day count. -/
theorem civil_spec (days : Nat) : (civil days).Valid ∧ (civil days).days = days + 719528 := by
  obtain ⟨hYear, hStart, hEnd⟩ := yearOfEra_spec
    (show days + 719468 - (days + 719468) / 146097 * 146097 < 146097 by omega)
  dsimp only [civil]
  generalize hE : (days + 719468) / 146097 = era at *
  generalize hDay : days + 719468 - era * 146097 = day at *
  generalize yearOfEra day = year at *
  have hLeap : isLeap (year + era * 400 + 1) = isLeap (year + 1) := by
    have h4 : (year + era * 400 + 1) % 4 = (year + 1) % 4 := by omega
    have h100 : (year + era * 400 + 1) % 100 = (year + 1) % 100 := by omega
    have h400 : (year + era * 400 + 1) % 400 = (year + 1) % 400 := by omega
    rw [isLeap, h4, h100, h400, isLeap]
  have hNext : daysBefore (year + era * 400 + 1) = 366 + era * 146097 + yearStart year := by
    have h4 : (year + era * 400) / 4 = year / 4 + era * 100 := by omega
    have h100 : (year + era * 400) / 100 = year / 100 + era * 4 := by omega
    have h400 : (year + era * 400) / 400 = era := by omega
    rw [daysBefore_succ, h4, h100, h400, yearStart]
    omega
  generalize hDoy : day - yearStart year = dayOfYear
  have hBound := (isLeap (year + 1)).toNat_le
  by_cases hMonth : month dayOfYear ≤ 2
  · obtain ⟨hExists, hHas, hDays⟩ := month_spec dayOfYear (by omega) (isLeap (year + era * 400 + 1))
      fun _ => by rw [hLeap]; omega
    simp only [hMonth, if_true] at hDays ⊢
    refine ⟨⟨hExists, hHas⟩, ?_⟩
    rw [Date.days]
    dsimp only
    omega
  · obtain ⟨hExists, hHas, hDays⟩ := month_spec dayOfYear (by omega) (isLeap (year + era * 400))
      fun hEarly => absurd hEarly hMonth
    simp only [hMonth, if_false] at hDays ⊢
    refine ⟨⟨hExists, hHas⟩, ?_⟩
    rw [daysBefore, daysOfMonths_twelve] at hNext
    rw [Date.days]
    dsimp only
    omega

theorem daysBefore_mono : Monotone daysBefore :=
  monotone_nat_of_le_succ fun _ => Nat.le_add_right _ _

theorem daysOfMonths_mono (leap : Bool) : Monotone (daysOfMonths leap) :=
  monotone_nat_of_le_succ fun _ => Nat.le_add_right _ _

theorem Date.Valid.in_month {date : Date} (h : date.Valid) :
    daysOfMonths (isLeap date.year) (date.month - 1) + (date.day - 1) <
      daysOfMonths (isLeap date.year) date.month := by
  obtain ⟨⟨hMonth, -⟩, hDay⟩ := h
  obtain ⟨months, hMonths⟩ : ∃ months, date.month = months + 1 := ⟨date.month - 1, by omega⟩
  rw [hMonths] at hDay ⊢
  rw [Nat.add_sub_cancel, daysOfMonths]
  omega

theorem Date.Valid.in_year {date : Date} (h : date.Valid) :
    date.days < daysBefore (date.year + 1) := by
  have hMonth := h.in_month
  have hYear := daysOfMonths_mono (isLeap date.year) h.month.2
  rw [days, daysBefore]
  omega

end Calendar

namespace SigningTime

variable {secs : Nat}

theorem fields_lt {time later : SigningTime} (hTime : time.Valid) (hLater : later.Valid)
    (h : time.seconds < later.seconds) : time.fields < later.fields := by
  obtain ⟨hDate, hHour, hMinute, hSecond⟩ := hTime
  obtain ⟨hDate', hHour', hMinute', hSecond'⟩ := hLater
  have hDays : time.days ≤ later.days := by
    rw [seconds, seconds] at h
    omega
  simp only [fields, List.cons_lt_cons_iff]
  rcases lt_trichotomy time.year later.year with hYear | hYear | hYear
  · exact .inl hYear
  · refine .inr ⟨hYear, ?_⟩
    rw [seconds, seconds, days, days, hYear] at h
    rw [days, days, hYear] at hDays
    rcases lt_trichotomy time.month later.month with hMonth | hMonth | hMonth
    · exact .inl hMonth
    · refine .inr ⟨hMonth, ?_⟩
      rw [hMonth] at h
      have hLaterDay := hDate'.day.1
      omega
    · have hBefore := daysOfMonths_mono (isLeap later.year) (Nat.le_sub_one_of_lt hMonth)
      have hEnd := hDate'.in_month
      omega
  · have hBefore : daysBefore (later.year + 1) ≤ daysBefore time.year := daysBefore_mono hYear
    have hEnd := hDate'.in_year
    rw [days] at hDays
    omega

theorem epoch_seconds : epoch.seconds = 86400 * 719528 := by
  rw [seconds, days, epoch, daysBefore_succ 1969]
  rfl

theorem fromUnixSecs_spec {limit} (hLimit : limit ≤ 65536)
    (h : epoch.seconds + secs < 86400 * daysBefore limit) :
    (fromUnixSecs secs).Valid ∧ (fromUnixSecs secs).seconds = epoch.seconds + secs := by
  obtain ⟨hDate, hDays⟩ := civil_spec (secs / 86400)
  rw [epoch_seconds] at h ⊢
  have hYear : (civil (secs / 86400)).year < 65536 := by
    refine (daysBefore_mono.reflect_lt ?_).trans_le hLimit
    rw [days] at hDays
    omega
  have hMonth := hDate.month.2
  have hDay : (civil (secs / 86400)).day ≤ 31 := by
    refine hDate.day.2.trans ?_
    have hLeap := (isLeap (civil (secs / 86400)).year).toNat_le
    unfold monthDays
    split_ifs <;> omega
  -- Every field fits its width, so no fallback is taken.
  have hFields : fromUnixSecs secs = ⟨civil (secs / 86400), secs % 86400 / 3600,
      secs % 86400 / 60 % 60, secs % 86400 % 60⟩ := by
    simp only [fromUnixSecs, tryFromOr, Nat.reducePow]
    rw [if_pos hYear, if_pos (by omega), if_pos (by omega), if_pos (by omega), if_pos (by omega),
      if_pos (by omega)]
  rw [hFields, seconds, hDays]
  refine ⟨⟨hDate, ?_, ?_, ?_⟩, ?_⟩ <;> (try dsimp only) <;> omega

/-- Every clock reading before the year 65536 gives the date and time that lies
that many seconds after the epoch, and later readings give later times. -/
theorem civil_time_exact {secs : Nat} (h : epoch.seconds + secs < 86400 * daysBefore 65536) :
    (fromUnixSecs secs).Valid ∧ (fromUnixSecs secs).seconds = epoch.seconds + secs ∧
      ∀ earlier < secs, (fromUnixSecs earlier).fields < (fromUnixSecs secs).fields := by
  obtain ⟨hValid, hSeconds⟩ := fromUnixSecs_spec le_rfl h
  refine ⟨hValid, hSeconds, fun earlier hEarlier => ?_⟩
  obtain ⟨hEarlierValid, hEarlierSeconds⟩ :=
    fromUnixSecs_spec le_rfl ((Nat.add_lt_add_left hEarlier _).trans h)
  refine fields_lt hEarlierValid hValid ?_
  rw [hEarlierSeconds, hSeconds]
  exact Nat.add_lt_add_left hEarlier _

theorem civil_time_exact_leap_day :
    fromUnixSecs 1709210096 = ⟨⟨2024, 2, 29⟩, 12, 34, 56⟩ ∧
      (fromUnixSecs 1709210096).seconds = epoch.seconds + 1709210096 := by
  have hYear : daysBefore (2024 + 1) ≤ daysBefore 65536 := daysBefore_mono (by decide)
  refine ⟨rfl, (civil_time_exact (Nat.lt_of_lt_of_le ?_ (Nat.mul_le_mul_left _ hYear))).2.1⟩
  rw [epoch_seconds, daysBefore_succ]
  decide

end SigningTime

end RefineId.DocSign
