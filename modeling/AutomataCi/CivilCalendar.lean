import Mathlib.Tactic

/-!
# The civil calendar

Dates of the proleptic Gregorian calendar, numbered by days from 1 January
1970.  The number of the next date is the next number, different dates have
different numbers, and every number is the number of a date.
-/

namespace CivilCalendar

variable (year : Int)

def isLeapYear : Bool :=
  decide (year % 4 = 0 ∧ (year % 100 ≠ 0 ∨ year % 400 = 0))

def daysInMonth (month : Nat) : Nat :=
  if month = 2 then if isLeapYear year then 29 else 28
  else if month = 4 ∨ month = 6 ∨ month = 9 ∨ month = 11 then 30
  else 31

def daysInYear : Nat :=
  if isLeapYear year then 366 else 365

@[ext]
structure Date where
  year : Int
  (month day : Nat)
  one_le_month : 1 ≤ month
  month_le : month ≤ 12
  one_le_day : 1 ≤ day
  day_le : day ≤ daysInMonth year month
  deriving DecidableEq, Repr

def daysBeforeYear : Int :=
  365 * (year - 1) + (year - 1) / 4 - (year - 1) / 100 + (year - 1) / 400

def daysBeforeMonth (year : Int) : Nat → Nat
  | 0 => 0
  | 1 => 0
  | month + 2 => daysBeforeMonth year (month + 1) + daysInMonth year (month + 1)

/-- The days from 1 January of the year 1 to 1 January 1970. -/
def daysBeforeEpoch : Int :=
  719162

namespace Date

def dayNumber (date : Date) : Int :=
  daysBeforeYear date.year + daysBeforeMonth date.year date.month + (date.day - 1) - daysBeforeEpoch

def weekday (date : Date) : Nat :=
  ((date.dayNumber + 4) % 7).toNat

end Date

theorem daysBeforeYear_succ :
    daysBeforeYear (year + 1) = daysBeforeYear year + daysInYear year := by
  unfold daysBeforeYear daysInYear isLeapYear
  split <;> rename_i hleap <;> simp only [decide_eq_true_eq] at hleap <;> push_cast <;> omega

theorem daysInMonth_pos (month : Nat) : 28 ≤ daysInMonth year month := by
  unfold daysInMonth
  split_ifs <;> omega

theorem daysBeforeMonth_succ {month : Nat} (hmonth : 1 ≤ month) :
    daysBeforeMonth year (month + 1) = daysBeforeMonth year month + daysInMonth year month := by
  cases month with
  | zero => omega
  | succ => rfl

theorem daysBeforeMonth_thirteen : daysBeforeMonth year 13 = daysInYear year := by
  cases hleap : isLeapYear year <;> simp [daysBeforeMonth, daysInMonth, daysInYear, hleap]

theorem daysBeforeYear_mono {first second : Int} (hle : first ≤ second) :
    daysBeforeYear first ≤ daysBeforeYear second := by
  unfold daysBeforeYear
  omega

theorem daysBeforeMonth_mono (year : Int) : Monotone (daysBeforeMonth year) := by
  refine monotone_nat_of_le_succ fun month => ?_
  cases month with
  | zero => exact le_rfl
  | succ month =>
    rw [daysBeforeMonth_succ year (Nat.le_add_left 1 month)]
    exact Nat.le_add_right _ _

namespace Date

theorem daysBeforeMonth_add_day_le (date : Date) :
    daysBeforeMonth date.year date.month + date.day ≤
      daysBeforeMonth date.year (date.month + 1) := by
  rw [daysBeforeMonth_succ date.year date.one_le_month]
  have hday := date.day_le
  omega

theorem dayNumber_bounds (date : Date) :
    daysBeforeYear date.year ≤ date.dayNumber + daysBeforeEpoch ∧
      date.dayNumber + daysBeforeEpoch < daysBeforeYear (date.year + 1) := by
  have hmonth := date.daysBeforeMonth_add_day_le
  have hmonths := daysBeforeMonth_mono date.year
    (show date.month + 1 ≤ 13 by have := date.month_le; omega)
  have hday := date.one_le_day
  rw [daysBeforeMonth_thirteen] at hmonths
  rw [daysBeforeYear_succ]
  unfold dayNumber
  constructor <;> omega

theorem year_eq_of_dayNumber_eq {first second : Date}
    (hnumber : first.dayNumber = second.dayNumber) :
    first.year = second.year := by
  have hfirst := first.dayNumber_bounds
  have hsecond := second.dayNumber_bounds
  rcases lt_trichotomy first.year second.year with hlt | heq | hgt
  · have hmono := daysBeforeYear_mono (show first.year + 1 ≤ second.year by omega)
    omega
  · exact heq
  · have hmono := daysBeforeYear_mono (show second.year + 1 ≤ first.year by omega)
    omega

theorem dayNumber_injective : Function.Injective dayNumber := by
  intro first second hnumber
  have hyear := year_eq_of_dayNumber_eq hnumber
  have hfirst := first.daysBeforeMonth_add_day_le
  have hsecond := second.daysBeforeMonth_add_day_le
  have hone := first.one_le_day
  have htwo := second.one_le_day
  unfold dayNumber at hnumber
  rw [hyear] at hnumber hfirst
  have hmonth : first.month = second.month := by
    rcases lt_trichotomy first.month second.month with hlt | heq | hgt
    · have hmono := daysBeforeMonth_mono second.year (show first.month + 1 ≤ second.month by omega)
      omega
    · exact heq
    · have hmono := daysBeforeMonth_mono second.year (show second.month + 1 ≤ first.month by omega)
      omega
  rw [hmonth] at hnumber
  exact Date.ext hyear hmonth (by omega)

def tomorrow (date : Date) : Date :=
  if hday : date.day < daysInMonth date.year date.month then
    { date with
      day := date.day + 1
      one_le_day := by omega
      day_le := hday }
  else if hmonth : date.month < 12 then
    { year := date.year
      month := date.month + 1
      day := 1
      one_le_month := by omega
      month_le := hmonth
      one_le_day := le_rfl
      day_le := (by decide : 1 ≤ 28).trans (daysInMonth_pos _ _) }
  else
    { year := date.year + 1
      month := 1
      day := 1
      one_le_month := le_rfl
      month_le := by decide
      one_le_day := le_rfl
      day_le := (by decide : 1 ≤ 28).trans (daysInMonth_pos _ _) }

theorem dayNumber_tomorrow (date : Date) : date.tomorrow.dayNumber = date.dayNumber + 1 := by
  have hday := date.day_le
  have hmonth := date.month_le
  unfold tomorrow
  split_ifs with hsame hnext
  · simp only [dayNumber]
    omega
  · have hdays := daysBeforeMonth_succ date.year date.one_le_month
    simp only [dayNumber]
    omega
  · have hdays := daysBeforeMonth_succ date.year date.one_le_month
    have hyear := daysBeforeYear_succ date.year
    have hlast : date.month = 12 := by omega
    rw [hlast, daysBeforeMonth_thirteen] at hdays
    have hfirst : daysBeforeMonth (date.year + 1) 1 = 0 := rfl
    simp only [dayNumber, hlast, hyear, hfirst]
    rw [hlast] at hsame hday
    omega

theorem weekday_lt (date : Date) : date.weekday < 7 := by
  unfold weekday
  omega

end Date

/-- The month and the day which are some days after the first of a month, with
so many months after this one in the year. -/
def placeFrom (year : Int) (month : Nat) : Nat → Nat → Nat × Nat
  | 0, days => (month, days + 1)
  | months + 1, days =>
    if days < daysInMonth year month then (month, days + 1)
    else placeFrom year (month + 1) months (days - daysInMonth year month)

theorem placeFrom_spec {year : Int} {month months days : Nat} (hmonth : 1 ≤ month)
    (hmonths : month + months = 12)
    (hdays : daysBeforeMonth year month + days < daysInYear year) :
    1 ≤ (placeFrom year month months days).1 ∧
    (placeFrom year month months days).1 ≤ 12 ∧
    1 ≤ (placeFrom year month months days).2 ∧
    (placeFrom year month months days).2 ≤ daysInMonth year (placeFrom year month months days).1 ∧
    daysBeforeMonth year (placeFrom year month months days).1 +
        (placeFrom year month months days).2 =
      daysBeforeMonth year month + days + 1 := by
  have hnext := daysBeforeMonth_succ year hmonth
  induction months generalizing month days with
  | zero =>
    have hlast : month = 12 := by omega
    subst hlast
    rw [daysBeforeMonth_thirteen] at hnext
    simp only [placeFrom]
    omega
  | succ months ih =>
    unfold placeFrom
    split_ifs with hwithin
    · simp only
      omega
    · have hdays' : daysBeforeMonth year (month + 1) +
          (days - daysInMonth year month) < daysInYear year := by
        omega
      have hrest := ih (by omega) (by omega) hdays' (daysBeforeMonth_succ year (by omega))
      omega

/-- The year which contains a day, counted from 1 January of the year 1.  Four
centuries have as many days as any other four, a century of them has the same
number but for the last, and so on. -/
def yearOf (days : Int) : Int :=
  let ofEra := days % 146097
  let century := min 3 (ofEra / 36524)
  let ofCentury := ofEra - 36524 * century
  let ofCycle := ofCentury % 1461
  400 * (days / 146097) + 100 * century + 4 * (ofCentury / 1461) + min 3 (ofCycle / 365) + 1

theorem daysBeforeYear_parts {era century cycle rest : Int} (hcentury : 0 ≤ century ∧ century ≤ 3)
    (hcycle : 0 ≤ cycle ∧ cycle ≤ 24)
    (hrest : 0 ≤ rest ∧ rest ≤ 3) :
    daysBeforeYear (400 * era + 100 * century + 4 * cycle + rest + 1) =
      146097 * era + 36524 * century + 1461 * cycle + 365 * rest := by
  unfold daysBeforeYear
  omega

theorem isLeapYear_parts (era : Int) {century cycle : Int} (hcycle : 0 ≤ cycle ∧ cycle ≤ 24)
    (hlong : cycle ≤ 23 ∨ century = 3) :
    isLeapYear (400 * era + 100 * century + 4 * cycle + 3 + 1) = true := by
  unfold isLeapYear
  rw [decide_eq_true_eq]
  omega

variable (days : Int)

theorem yearOf_bounds :
    daysBeforeYear (yearOf days) ≤ days ∧ days < daysBeforeYear (yearOf days + 1) := by
  have hera : 0 ≤ days % 146097 ∧ days % 146097 < 146097 := by omega
  have hdays : days = 146097 * (days / 146097) + days % 146097 := by omega
  rw [daysBeforeYear_succ]
  unfold yearOf
  generalize days / 146097 = era at hdays
  generalize days % 146097 = ofEra at hdays hera
  simp only
  have hcentury : 0 ≤ min 3 (ofEra / 36524) ∧ min 3 (ofEra / 36524) ≤ 3 := by omega
  have hofCentury :
      0 ≤ ofEra - 36524 * min 3 (ofEra / 36524) ∧ (ofEra - 36524 * min 3 (ofEra / 36524) < 36524 ∨
          min 3 (ofEra / 36524) = 3 ∧ ofEra - 36524 * min 3 (ofEra / 36524) ≤ 36524) := by
    omega
  have hsum : ofEra = 36524 * min 3 (ofEra / 36524) + (ofEra - 36524 * min 3 (ofEra / 36524)) := by
    omega
  generalize ofEra - 36524 * min 3 (ofEra / 36524) = ofCentury at *
  generalize min 3 (ofEra / 36524) = century at *
  have hcycle : 0 ≤ ofCentury / 1461 ∧ ofCentury / 1461 ≤ 24 := by omega
  have hrest : 0 ≤ min 3 (ofCentury % 1461 / 365) ∧ min 3 (ofCentury % 1461 / 365) ≤ 3 := by omega
  rw [daysBeforeYear_parts hcentury hcycle hrest]
  have hlength : (365 : Int) ≤ (daysInYear (400 * era + 100 * century +
      4 * (ofCentury / 1461) + min 3 (ofCentury % 1461 / 365) + 1) : Int) := by
    unfold daysInYear
    split_ifs <;> norm_num
  constructor
  · omega
  · by_cases hleap : min 3 (ofCentury % 1461 / 365) = 3 ∧ (ofCentury / 1461 ≤ 23 ∨ century = 3)
    · have hyear := isLeapYear_parts era hcycle hleap.2
      rw [hleap.1, daysInYear, if_pos hyear]
      omega
    · omega

def dayOfYear : Nat :=
  (days - daysBeforeYear (yearOf days)).toNat

theorem daysBeforeYear_add_dayOfYear : daysBeforeYear (yearOf days) + dayOfYear days = days := by
  have hbounds := yearOf_bounds days
  unfold dayOfYear
  omega

def placeOf : Nat × Nat :=
  placeFrom (yearOf days) 1 11 (dayOfYear days)

theorem placeOf_spec :
    1 ≤ (placeOf days).1 ∧
    (placeOf days).1 ≤ 12 ∧
    1 ≤ (placeOf days).2 ∧
    (placeOf days).2 ≤ daysInMonth (yearOf days) (placeOf days).1 ∧
    daysBeforeMonth (yearOf days) (placeOf days).1 + (placeOf days).2 = dayOfYear days + 1 := by
  have hbounds := yearOf_bounds days
  have hdays := daysBeforeYear_add_dayOfYear days
  rw [daysBeforeYear_succ] at hbounds
  have hfirst : daysBeforeMonth (yearOf days) 1 = 0 := rfl
  have hspec := placeFrom_spec (le_refl 1) (by decide : 1 + 11 = 12)
    (show daysBeforeMonth (yearOf days) 1 + dayOfYear days < daysInYear (yearOf days) by omega)
  rw [hfirst, Nat.zero_add] at hspec
  exact hspec

namespace Date

def ofDayNumber (number : Int) : Date where
  year := yearOf (number + daysBeforeEpoch)
  month := (placeOf (number + daysBeforeEpoch)).1
  day := (placeOf (number + daysBeforeEpoch)).2
  one_le_month := (placeOf_spec _).1
  month_le := (placeOf_spec _).2.1
  one_le_day := (placeOf_spec _).2.2.1
  day_le := (placeOf_spec _).2.2.2.1

@[simp] theorem dayNumber_ofDayNumber (number : Int) : (ofDayNumber number).dayNumber = number := by
  have hplace := placeOf_spec (number + daysBeforeEpoch)
  have hdays := daysBeforeYear_add_dayOfYear (number + daysBeforeEpoch)
  simp only [dayNumber, ofDayNumber]
  omega

@[simp] theorem ofDayNumber_dayNumber (date : Date) : ofDayNumber date.dayNumber = date :=
  dayNumber_injective (dayNumber_ofDayNumber date.dayNumber)

theorem dayNumber_lt_of_year_lt {first second : Date} (hyear : first.year < second.year) :
    first.dayNumber < second.dayNumber := by
  have hfirst := first.dayNumber_bounds
  have hsecond := second.dayNumber_bounds
  have hmono := daysBeforeYear_mono (show first.year + 1 ≤ second.year by omega)
  omega

end Date

theorem daysBeforeYear_add_le (year : Int) (years : Nat) :
    daysBeforeYear (year + years) ≤ daysBeforeYear year + 366 * years := by
  unfold daysBeforeYear
  omega

theorem exists_leapYear (year : Int) :
    ∃ later, year < later ∧ later ≤ year + 8 ∧ isLeapYear later = true := by
  by_cases hcentury :
    isLeapYear (year + (4 - year % 4)) = true
  · exact ⟨_, by omega, by omega, hcentury⟩
  · refine ⟨year + (8 - year % 4), by omega, by omega, ?_⟩
    unfold isLeapYear at hcentury ⊢
    rw [decide_eq_true_eq] at hcentury ⊢
    omega

theorem exists_year_with_day {month day : Nat} {some : Int}
    (hday : day ≤ daysInMonth some month) (year : Int) :
    ∃ later, year < later ∧ later ≤ year + 8 ∧ day ≤ daysInMonth later month := by
  obtain ⟨later, hlt, hle, hleap⟩ := exists_leapYear year
  refine ⟨later, hlt, hle, hday.trans ?_⟩
  simp only [daysInMonth, hleap, if_true]
  split_ifs <;> omega

theorem exists_date_with_weekday (year : Int) {month weekday : Nat}
    (hmonth : 1 ≤ month ∧ month ≤ 12) (hweekday : weekday < 7) :
    ∃ date : Date, date.year = year ∧ date.month = month ∧ date.weekday = weekday := by
  have hlength := daysInMonth_pos year month
  let first : Int := daysBeforeYear year + daysBeforeMonth year month - daysBeforeEpoch
  let offset : Nat := ((weekday - (first + 4)) % 7).toNat
  have hoffset : offset < 7 := by omega
  refine ⟨⟨year, month, offset + 1, hmonth.1, hmonth.2, by omega, by omega⟩, rfl, rfl, ?_⟩
  have hnumber : Date.dayNumber ⟨year, month, offset + 1, hmonth.1, hmonth.2, by omega, by omega⟩ =
        first + offset := by
    simp only [Date.dayNumber, first]
    push_cast
    omega
  unfold Date.weekday
  rw [hnumber]
  omega

end CivilCalendar
