import Mathlib.Algebra.BigOperators.Intervals
import Mathlib.Algebra.Order.BigOperators.Group.Finset
import Mathlib.Tactic.IntervalCases
import TapeMachine.Calendar

/-! Dates and days.  The calendar is given by the lengths of its months and years; from them follow
the number of days before a date (`daysFromEpoch`) and the day after one (`next`).  `Date.ofDays`
gives for each number of days the one date that has so many before it, so the number after it gives
the next day (`ofDays_succ`). -/

namespace TapeMachine.Calendar

open Finset

/-! ### Lengths -/

/-- Every fourth year is a leap year, but of the years that end a century only every fourth. -/
def IsLeap (year : Nat) : Prop :=
  4 ∣ year ∧ (¬100 ∣ year ∨ 400 ∣ year)

instance (year : Nat) : Decidable (IsLeap year) :=
  inferInstanceAs (Decidable (_ ∧ _))

def yearLength (year : Nat) : Nat :=
  if IsLeap year then 366 else 365

def monthLength (year month : Nat) : Nat :=
  match month with
  | 2 => if IsLeap year then 29 else 28
  | 4 | 6 | 9 | 11 => 30
  | _ => 31

namespace Date

/-- A date that the calendar has. -/
structure Valid (date : Date) : Prop where
  month : 1 ≤ date.month ∧ date.month ≤ 12
  day : 1 ≤ date.day ∧ date.day ≤ monthLength date.year date.month

/-- The days from 1 January 1970 to a date of that year or a later one. -/
def daysFromEpoch (date : Date) : Nat :=
  ∑ year ∈ Ico 1970 date.year, yearLength year
    + ∑ month ∈ Ico 1 date.month, monthLength date.year month + (date.day - 1)

/-- The day after a date. -/
def next (date : Date) : Date :=
  if date.day < monthLength date.year date.month then { date with day := date.day + 1 }
  else if date.month < 12 then { date with month := date.month + 1, day := 1 }
  else ⟨date.year + 1, 1, 1⟩

end Date

theorem yearLength_eq (year : Nat) : yearLength year = monthLength year 2 + 337 := by
  simp only [yearLength, monthLength]
  split <;> rfl

theorem monthLength_bounds (year month : Nat) :
    0 < monthLength year month ∧ monthLength year month ≤ 31 := by
  unfold monthLength
  split
  · split <;> decide
  all_goals decide

theorem sum_monthLength_year (year : Nat) :
    ∑ month ∈ Ico 1 13, monthLength year month = yearLength year := by
  simp only [sum_Ico_succ_top, Nat.reduceLeDiff, monthLength, yearLength, Ico_self, sum_empty]
  split <;> rfl

namespace Date

/-! ### Valid dates -/

section Valid

variable {date : Date}

theorem Valid.next_valid (h : date.Valid) : date.next.Valid := by
  obtain ⟨⟨hFirst, hLast⟩, hDay, hLength⟩ := h
  unfold next
  split
  case isTrue hLater => exact ⟨⟨hFirst, hLast⟩, by show 1 ≤ date.day + 1; omega, hLater⟩
  case isFalse =>
    split
    case isTrue hMonth =>
      exact ⟨⟨by show 1 ≤ date.month + 1; omega, hMonth⟩, le_refl 1, (monthLength_bounds _ _).1⟩
    case isFalse =>
      exact ⟨⟨le_refl 1, by show 1 ≤ 12; omega⟩, le_refl 1, (monthLength_bounds _ _).1⟩

theorem next_year (date : Date) : date.year ≤ date.next.year := by
  unfold next
  split
  · exact le_refl _
  · split
    · exact le_refl _
    · exact Nat.le_succ _

theorem Valid.daysFromEpoch_next (h : date.Valid) (hYear : 1970 ≤ date.year) :
    date.next.daysFromEpoch = date.daysFromEpoch + 1 := by
  obtain ⟨⟨hFirst, hLast⟩, hDay, hLength⟩ := h
  unfold next
  split
  case isTrue hLater =>
    simp only [daysFromEpoch]
    omega
  case isFalse hEnd =>
    split
    case isTrue hMonth =>
      simp only [daysFromEpoch, sum_Ico_succ_top hFirst]
      omega
    case isFalse hDecember =>
      have hMonth : date.month = 12 := by omega
      have hMonths := sum_monthLength_year date.year
      rw [sum_Ico_succ_top (by decide), ← hMonth] at hMonths
      simp only [daysFromEpoch, sum_Ico_succ_top hYear, Ico_self, sum_empty]
      omega

theorem Valid.daysOfYear_lt (h : date.Valid) (month : Nat) (hMonth : date.month < month) :
    ∑ month ∈ Ico 1 date.month, monthLength date.year month + (date.day - 1) <
      ∑ month ∈ Ico 1 month, monthLength date.year month := by
  obtain ⟨⟨hFirst, -⟩, hDay, hLength⟩ := h
  have hEnd : ∑ month ∈ Ico 1 (date.month + 1), monthLength date.year month ≤
      ∑ month ∈ Ico 1 month, monthLength date.year month :=
    sum_le_sum_of_subset (Ico_subset_Ico_right hMonth)
  rw [sum_Ico_succ_top hFirst] at hEnd
  omega

/-- A date comes before all dates of later years. -/
theorem Valid.daysFromEpoch_lt (h : date.Valid) (hYear : 1970 ≤ date.year) {year : Nat}
    (hLater : date.year < year) :
    date.daysFromEpoch < ∑ year ∈ Ico 1970 year, yearLength year := by
  have hMonths := h.daysOfYear_lt 13 (Nat.lt_succ_of_le h.month.2)
  have hEnd : ∑ year ∈ Ico 1970 (date.year + 1), yearLength year ≤
      ∑ year ∈ Ico 1970 year, yearLength year :=
    sum_le_sum_of_subset (Ico_subset_Ico_right hLater)
  rw [sum_monthLength_year] at hMonths
  rw [sum_Ico_succ_top hYear] at hEnd
  rw [daysFromEpoch]
  omega

/-- Different dates have different numbers of days before them. -/
theorem Valid.eq_of_daysFromEpoch {a b : Date} (ha : a.Valid) (hb : b.Valid)
    (haYear : 1970 ≤ a.year) (hbYear : 1970 ≤ b.year)
    (h : a.daysFromEpoch = b.daysFromEpoch) : a = b := by
  have hYear : a.year = b.year := by
    rcases Nat.lt_trichotomy a.year b.year with hLess | hSame | hGreater
    · have := ha.daysFromEpoch_lt haYear hLess
      simp only [daysFromEpoch] at h this
      omega
    · exact hSame
    · have := hb.daysFromEpoch_lt hbYear hGreater
      simp only [daysFromEpoch] at h this
      omega
  simp only [daysFromEpoch, hYear] at h
  have hMonth : a.month = b.month := by
    rcases Nat.lt_trichotomy a.month b.month with hLess | hSame | hGreater
    · have := ha.daysOfYear_lt b.month hLess
      rw [hYear] at this
      omega
    · exact hSame
    · have := hb.daysOfYear_lt a.month hGreater
      omega
  have hDay : a.day = b.day := by
    have := ha.day.1
    have := hb.day.1
    rw [hMonth] at h
    omega
  cases a
  cases b
  cases hYear
  cases hMonth
  cases hDay
  rfl

end Valid

end Date

/-! ### Years from March -/

/-- The days from 1 March of year 0 to 1 March of a year. -/
def daysBeforeMarch (year : Nat) : Nat :=
  365 * year + year / 4 - year / 100 + year / 400

theorem daysBeforeMarch_succ (year : Nat) :
    daysBeforeMarch (year + 1) = daysBeforeMarch year + yearLength (year + 1) := by
  have hCenturies : year / 100 ≤ year / 4 := Nat.div_le_div_left (by decide) (by decide)
  have h400 : 400 ∣ year + 1 → 100 ∣ year + 1 := Nat.dvd_trans (by decide)
  have h100 : 100 ∣ year + 1 → 4 ∣ year + 1 := Nat.dvd_trans (by decide)
  simp only [daysBeforeMarch, Nat.succ_div]
  by_cases hLeap : IsLeap (year + 1)
  · rw [yearLength, if_pos hLeap]
    unfold IsLeap at hLeap
    split_ifs <;> grind
  · rw [yearLength, if_neg hLeap]
    unfold IsLeap at hLeap
    split_ifs <;> grind

theorem sum_yearLength (year : Nat) (h : 1969 ≤ year) :
    ∑ year ∈ Ico 1970 (year + 1), yearLength year + daysBeforeEpoch =
      daysBeforeMarch year + 306 := by
  induction year, h using Nat.le_induction with
  | base => rfl
  | succ year h ih =>
    rw [sum_Ico_succ_top (by omega), daysBeforeMarch_succ]
    omega

/-- The date of a day of a month of a year, the last two counted from March. -/
def Date.ofMarch (year month day : Nat) : Date :=
  if month < 10 then ⟨year, month + 3, day + 1⟩ else ⟨year + 1, month - 9, day + 1⟩

/-- The days of a month that is counted from March. -/
def marchLength (year month : Nat) : Nat :=
  if month < 10 then monthLength year (month + 3) else monthLength (year + 1) (month - 9)

theorem daysBeforeMonth_succ (year : Nat) {month : Nat} (h : month < 11) :
    daysBeforeMonth (month + 1) = daysBeforeMonth month + marchLength year month := by
  interval_cases month <;> rfl

theorem sum_monthLength (year : Nat) {month : Nat} (h : month < 10) :
    ∑ month ∈ Ico 1 (month + 3), monthLength year month + 306 =
      yearLength year + daysBeforeMonth month := by
  induction month with
  | zero =>
    rw [yearLength_eq, sum_Ico_succ_top (by decide), sum_Ico_succ_top (by decide)]
    simp only [Ico_self, sum_empty, monthLength, daysBeforeMonth]
    omega
  | succ month ih =>
    rw [sum_Ico_succ_top (by omega), daysBeforeMonth_succ year (by omega), marchLength,
      if_pos (by omega)]
    have := ih (by omega)
    omega

namespace Date

theorem ofMarch_eq {year month day : Nat} (h : month < 12) :
    ofMarch year month day =
      ⟨if (if month < 10 then month + 3 else month - 9) ≤ 2 then year + 1 else year,
        if month < 10 then month + 3 else month - 9, day + 1⟩ := by
  unfold ofMarch
  split
  case isTrue => rw [if_neg (by omega)]
  case isFalse => rw [if_pos (by omega)]

theorem ofMarch_valid {year month day : Nat} (hMonth : month < 12)
    (hDay : day < marchLength year month) : (ofMarch year month day).Valid := by
  unfold marchLength at hDay
  unfold ofMarch
  split_ifs at hDay ⊢
  · exact ⟨⟨by simp, by show month + 3 ≤ 12; omega⟩, by simp, hDay⟩
  · exact ⟨⟨by show 1 ≤ month - 9; omega, by show month - 9 ≤ 12; omega⟩, by simp, hDay⟩

theorem daysFromEpoch_ofMarch {year month day : Nat} (hMonth : month < 12)
    (hYear : 1970 ≤ (ofMarch year month day).year) :
    (ofMarch year month day).daysFromEpoch + daysBeforeEpoch =
      daysBeforeMarch year + daysBeforeMonth month + day := by
  unfold ofMarch at hYear ⊢
  split_ifs at hYear ⊢ with hSpring
  · have hMonths := sum_monthLength year hSpring
    have hYears := sum_yearLength (year - 1) (by dsimp only at hYear; omega)
    have hMarch := daysBeforeMarch_succ (year - 1)
    dsimp only at hYear
    rw [Nat.sub_add_cancel (by omega)] at hYears hMarch
    simp only [daysFromEpoch]
    omega
  · have hYears := sum_yearLength year (by dsimp only at hYear; omega)
    have hMonths : ∑ month ∈ Ico 1 (month - 9), monthLength (year + 1) month + 306 =
        daysBeforeMonth month := by
      interval_cases month <;> rfl
    simp only [daysFromEpoch]
    omega

end Date

/-! ### Days of an era -/

/-- A day of an era: the whole centuries, groups of four years and years before it, and the days
after them.  A leap day is the last day of its group, and only the last century of an era ends with
one. -/
structure DayOfEra where
  centuries : Nat
  groups : Nat
  years : Nat
  days : Nat
  centuries_lt : centuries < 4
  groups_lt : groups < 25
  years_lt : years < 4
  days_le : days < 365 ∨ days = 365 ∧ years = 3 ∧ (groups < 24 ∨ centuries = 3)

namespace DayOfEra

/-- The days of the era before the year of the day. -/
def before (e : DayOfEra) : Nat :=
  36524 * e.centuries + 1461 * e.groups + 365 * e.years

def year (e : DayOfEra) : Nat :=
  100 * e.centuries + 4 * e.groups + e.years

theorem exists_of_lt {day : Nat} (h : day < daysPerEra) :
    ∃ e : DayOfEra, e.before + e.days = day := by
  unfold daysPerEra at h
  obtain ⟨c, inCentury, hc, hCentury, hDay⟩ : ∃ c r, c < 4 ∧ (r < 36524 ∨ r = 36524 ∧ c = 3) ∧
      day = 36524 * c + r :=
    ⟨min 3 (day / 36524), day - 36524 * min 3 (day / 36524), by omega, by omega, by omega⟩
  obtain ⟨g, inGroup, hg, hGroup, hRest⟩ : ∃ g r, g < 25 ∧
      (r < 1460 ∨ r = 1460 ∧ (g < 24 ∨ c = 3)) ∧ inCentury = 1461 * g + r :=
    ⟨min 24 (inCentury / 1461), inCentury - 1461 * min 24 (inCentury / 1461),
      by omega, by omega, by omega⟩
  refine ⟨⟨c, g, min 3 (inGroup / 365), inGroup - 365 * min 3 (inGroup / 365),
    hc, hg, by omega, by omega⟩, ?_⟩
  simp only [before]
  omega

variable (e : DayOfEra)

theorem yearOfEra_eq : yearOfEra (e.before + e.days) = e.year := by
  obtain ⟨c, g, y, d, hc, hg, hy, hd⟩ := e
  simp only [yearOfEra, before, year]
  by_cases hLast : 36524 * c + 1461 * g + 365 * y + d = 146096
  · rw [hLast]
    omega
  · have hEras : (36524 * c + 1461 * g + 365 * y + d) / 146096 = 0 := by omega
    have hCenturies : (36524 * c + 1461 * g + 365 * y + d) / 36524 = c := by omega
    have hGroups : (36524 * c + 1461 * g + 365 * y + d) / 1460 = 25 * c + g ∨
        y = 3 ∧ 1 ≤ d ∧ (36524 * c + 1461 * g + 365 * y + d) / 1460 = 25 * c + g + 1 := by omega
    rw [hEras, hCenturies]
    omega

theorem daysBeforeYear_eq : daysBeforeYear e.year = e.before := by
  obtain ⟨c, g, y, d, hc, hg, hy, -⟩ := e
  simp only [daysBeforeYear, before, year]
  omega

theorem daysBeforeMarch_eq (eras : Nat) :
    daysBeforeMarch (e.year + eras * 400) = daysPerEra * eras + e.before := by
  obtain ⟨c, g, y, d, hc, hg, hy, -⟩ := e
  simp only [daysBeforeMarch, daysPerEra, before, year]
  omega

theorem bounds : e.before + e.days < daysPerEra ∧ e.year < 400 ∧ e.days < 366 := by
  obtain ⟨c, g, y, d, hc, hg, hy, hd⟩ := e
  simp only [before, year, daysPerEra]
  omega

theorem monthOfYear_lt : monthOfYear e.days < 12 := by
  have := e.bounds
  unfold monthOfYear
  omega

theorem lt_yearLength (eras : Nat) : e.days < yearLength (e.year + eras * 400 + 1) := by
  obtain ⟨c, g, y, d, hc, hg, hy, hd⟩ := e
  show d < yearLength (100 * c + 4 * g + y + eras * 400 + 1)
  unfold yearLength
  split
  case isTrue => omega
  case isFalse hCommon =>
    unfold IsLeap at hCommon
    omega

end DayOfEra

theorem monthOfYear_bounds (day : Nat) :
    daysBeforeMonth (monthOfYear day) ≤ day ∧ day < daysBeforeMonth (monthOfYear day + 1) := by
  unfold daysBeforeMonth monthOfYear
  omega

theorem lt_marchLength {year day : Nat} (hMonth : monthOfYear day < 12)
    (h : day < yearLength (year + 1)) :
    day - daysBeforeMonth (monthOfYear day) < marchLength year (monthOfYear day) := by
  obtain ⟨hFrom, hTo⟩ := monthOfYear_bounds day
  by_cases hFebruary : monthOfYear day = 11
  · have hLength : marchLength year 11 + daysBeforeMonth 11 = yearLength (year + 1) := by
      rw [yearLength_eq]
      rfl
    rw [hFebruary] at hFrom ⊢
    omega
  · rw [daysBeforeMonth_succ year (by omega)] at hTo
    omega

/-! ### Dates of days -/

def dayOfEra (days : Nat) : Nat :=
  (days + daysBeforeEpoch) % daysPerEra

def dayOfYear (days : Nat) : Nat :=
  dayOfEra days - daysBeforeYear (yearOfEra (dayOfEra days))

theorem exists_dayOfEra (days : Nat) :
    ∃ e : DayOfEra, dayOfEra days = e.before + e.days ∧ yearOfEra (dayOfEra days) = e.year ∧
      dayOfYear days = e.days := by
  obtain ⟨e, he⟩ := DayOfEra.exists_of_lt (Nat.mod_lt (days + daysBeforeEpoch) (by decide))
  replace he : dayOfEra days = e.before + e.days := he.symm
  have hYear : yearOfEra (dayOfEra days) = e.year := by rw [he, e.yearOfEra_eq]
  refine ⟨e, he, hYear, ?_⟩
  rw [dayOfYear, hYear, e.daysBeforeYear_eq, he, Nat.add_sub_cancel_left]

namespace Date

theorem ofDays_eq_ofMarch (days : Nat) :
    ofDays days =
      ofMarch (yearOfEra (dayOfEra days) + (days + daysBeforeEpoch) / daysPerEra * 400)
        (monthOfYear (dayOfYear days))
        (dayOfYear days - daysBeforeMonth (monthOfYear (dayOfYear days))) := by
  obtain ⟨e, -, -, hDay⟩ := exists_dayOfEra days
  have hMonth : monthOfYear (dayOfYear days) < 12 := hDay ▸ e.monthOfYear_lt
  exact (ofMarch_eq hMonth).symm

/-- A date is a day of a month of a year from March, and there are as many days before it. -/
theorem exists_ofDays_eq (days : Nat) :
    ∃ year month day, ofDays days = ofMarch year month day ∧ month < 12 ∧
      day < marchLength year month ∧
      daysBeforeMarch year + daysBeforeMonth month + day = days + daysBeforeEpoch := by
  obtain ⟨e, hEra, hYear, hDay⟩ := exists_dayOfEra days
  have hDivided : daysPerEra * ((days + daysBeforeEpoch) / daysPerEra) + dayOfEra days =
      days + daysBeforeEpoch := Nat.div_add_mod _ _
  have hMarch := e.daysBeforeMarch_eq ((days + daysBeforeEpoch) / daysPerEra)
  refine ⟨_, _, _, ofDays_eq_ofMarch days, ?_, ?_, ?_⟩
  · rw [hDay]
    exact e.monthOfYear_lt
  · rw [hDay, hYear]
    exact lt_marchLength e.monthOfYear_lt (e.lt_yearLength _)
  · rw [hDay, hYear, hMarch]
    have := (monthOfYear_bounds e.days).1
    omega

theorem ofDays_year (days : Nat) : 1970 ≤ (ofDays days).year := by
  obtain ⟨year, month, day, hDate, hMonth, hDay, hDays⟩ := exists_ofDays_eq days
  rw [hDate, ofMarch]
  unfold daysBeforeMarch daysBeforeEpoch at hDays
  split
  case isTrue hSpring =>
    have hNext := daysBeforeMonth_succ year (show month < 11 by omega)
    unfold daysBeforeMonth at hDays hNext
    show 1970 ≤ year
    omega
  case isFalse hWinter =>
    have hLength : marchLength year month ≤ 31 := by
      rw [marchLength, if_neg hWinter]
      exact (monthLength_bounds _ _).2
    unfold daysBeforeMonth at hDays
    show 1970 ≤ year + 1
    omega

theorem ofDays_valid (days : Nat) : (ofDays days).Valid := by
  obtain ⟨year, month, day, hDate, hMonth, hDay, -⟩ := exists_ofDays_eq days
  exact hDate ▸ ofMarch_valid hMonth hDay

theorem daysFromEpoch_ofDays (days : Nat) : (ofDays days).daysFromEpoch = days := by
  have hYear := ofDays_year days
  obtain ⟨year, month, day, hDate, hMonth, -, hDays⟩ := exists_ofDays_eq days
  rw [hDate] at hYear ⊢
  have := daysFromEpoch_ofMarch hMonth hYear
  omega

theorem ofDays_daysFromEpoch {date : Date} (h : date.Valid) (hYear : 1970 ≤ date.year) :
    ofDays date.daysFromEpoch = date :=
  (ofDays_valid _).eq_of_daysFromEpoch h (ofDays_year _) hYear (daysFromEpoch_ofDays _)

theorem ofDays_succ (days : Nat) : ofDays (days + 1) = (ofDays days).next := by
  have hValid := ofDays_valid days
  have hYear := ofDays_year days
  rw [← ofDays_daysFromEpoch hValid.next_valid (hYear.trans (next_year _)),
    hValid.daysFromEpoch_next hYear, daysFromEpoch_ofDays]

end Date

/-! ### Words -/

/-- The way from days to a date stays in words: no difference is cut off at zero, within an era all
numbers fit in 32 bits, and the days and years of all eras fit in 63. -/
structure InWords (days : Nat) : Prop where
  days_fit : days + daysBeforeEpoch < 0x8000000000000000
  years_fit : yearOfEra (dayOfEra days) + (days + daysBeforeEpoch) / daysPerEra * 400 + 1 <
    0x8000000000000000
  leapDays : dayOfEra days / 1460 ≤ dayOfEra days
  leapDays_fit : dayOfEra days + dayOfEra days / 36524 < 0x100000000
  lastDay : dayOfEra days / 146096 ≤
    dayOfEra days - dayOfEra days / 1460 + dayOfEra days / 36524
  centuries : yearOfEra (dayOfEra days) / 100 ≤
    365 * yearOfEra (dayOfEra days) + yearOfEra (dayOfEra days) / 4
  yearDays_fit : 365 * yearOfEra (dayOfEra days) + yearOfEra (dayOfEra days) / 4 < 0x100000000
  year : daysBeforeYear (yearOfEra (dayOfEra days)) ≤ dayOfEra days
  month_fit : 5 * dayOfYear days + 2 < 0x100000000
  monthDays_fit : 153 * monthOfYear (dayOfYear days) + 2 < 0x100000000
  month : daysBeforeMonth (monthOfYear (dayOfYear days)) ≤ dayOfYear days
  january : ¬monthOfYear (dayOfYear days) < 10 → 9 ≤ monthOfYear (dayOfYear days)

theorem inWords_of_lt {days : Nat} (h : days < 0x4000000000000000) : InWords days := by
  obtain ⟨e, hEra, hYear, hDay⟩ := exists_dayOfEra days
  have hBounds := e.bounds
  have hMonth := e.monthOfYear_lt
  constructor
  all_goals simp only [hYear, hDay, e.daysBeforeYear_eq, daysPerEra, daysBeforeEpoch] at hBounds ⊢
  case month => exact (monthOfYear_bounds e.days).1
  all_goals omega

end TapeMachine.Calendar
