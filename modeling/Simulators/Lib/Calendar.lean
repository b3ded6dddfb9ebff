/-
# The proleptic Gregorian calendar

A date is a year, a month and a day within the length of that month; `Date.next`
is the day after it. Counting days is easier in years that begin in March,
grouped in eras of 400 years: the leap day is then the last of its year, and the
days before a year, and before a month of it, are given by two formulas without
a case. `MarchDate` is a date so written, `days` its number, and `date` the
calendar date it stands for.

Key definitions: `Date`, `Date.next`, `MarchDate`, `MarchDate.days`, `MarchDate.date`.
Key theorems: `MarchDate.days_next`, `MarchDate.date_next`, `MarchDate.exists_days`.
-/
import Mathlib.Data.Int.Notation
import Mathlib.Data.Nat.Notation
import Mathlib.Tactic.Common
import Mathlib.Tactic.IntervalCases

namespace Simulators
namespace Calendar

/-- Every fourth year, of the centuries every fourth. -/
def IsLeap (y : ℤ) : Prop := 4 ∣ y ∧ (¬ 100 ∣ y ∨ 400 ∣ y)

instance (y : ℤ) : Decidable (IsLeap y) := inferInstanceAs (Decidable (_ ∧ _))

def monthLength (y : ℤ) (m : ℕ) : ℕ :=
  if m = 2 then (if IsLeap y then 29 else 28) else if m = 4 ∨ m = 6 ∨ m = 9 ∨ m = 11 then 30 else 31

theorem monthLength_pos (y : ℤ) (m : ℕ) : 0 < monthLength y m := by
  unfold monthLength
  split_ifs <;> decide

/-- A date that exists. -/
structure Date where
  year : ℤ
  month : ℕ
  day : ℕ
  month_pos : 1 ≤ month
  month_le : month ≤ 12
  day_pos : 1 ≤ day
  day_le : day ≤ monthLength year month

/-- The day after. -/
def Date.next (a : Date) : Date :=
  if h : a.day < monthLength a.year a.month then
    ⟨a.year, a.month, a.day + 1, a.month_pos, a.month_le, Nat.le_add_left 1 _, h⟩
  else if h : a.month < 12 then
    ⟨a.year, a.month + 1, 1, Nat.le_add_left 1 _, h, Nat.le_refl 1, monthLength_pos _ _⟩
  else
    ⟨a.year + 1, 1, 1, Nat.le_refl 1, by decide, Nat.le_refl 1, monthLength_pos _ _⟩

/-! ### Years that begin in March -/

/-- The month at position `mp` of such a year. -/
def monthAt (mp : ℕ) : ℕ := if mp < 10 then mp + 3 else mp - 9

/-- The calendar year of that month; January and February belong to the next. -/
def yearAt (era : ℤ) (yoe mp : ℕ) : ℤ := if monthAt mp ≤ 2 then yoe + era * 400 + 1 else yoe + era * 400

/-- The days of the era before the year `yoe`. -/
def daysBeforeYear (yoe : ℕ) : ℕ := 365 * yoe + yoe / 4 - yoe / 100

/-- The days of the year before the month at position `mp`. -/
def daysBeforeMonth (mp : ℕ) : ℕ := (153 * mp + 2) / 5

/-- A day of an era: its year, the position of its month and the days of the month before it. -/
structure MarchDate where
  era : ℤ
  yoe : ℕ
  mp : ℕ
  day : ℕ
  yoe_lt : yoe < 400
  mp_lt : mp < 12
  day_lt : day < monthLength (yearAt era yoe mp) (monthAt mp)

theorem monthAt_pos {mp : ℕ} (h : mp < 12) : 1 ≤ monthAt mp := by
  unfold monthAt
  split <;> omega

theorem monthAt_le {mp : ℕ} (h : mp < 12) : monthAt mp ≤ 12 := by
  unfold monthAt
  split <;> omega

/-- Months other than February have the same length in every year. -/
theorem daysBeforeMonth_succ {mp : ℕ} (h : mp < 11) (y : ℤ) :
    daysBeforeMonth (mp + 1) = daysBeforeMonth mp + monthLength y (monthAt mp) := by
  interval_cases mp <;> rfl

theorem monthLength_feb (era : ℤ) (yoe : ℕ) :
    monthLength (yearAt era yoe 11) (monthAt 11) = if IsLeap (yoe + era * 400 + 1) then 29 else 28 := rfl

/-- The days of a year before February. -/
theorem daysBeforeMonth_feb : daysBeforeMonth 11 = 337 := rfl

/-- A year is as long as its February makes it. -/
theorem daysBeforeYear_succ (era : ℤ) {yoe : ℕ} (h : yoe < 399) : daysBeforeYear (yoe + 1) =
    daysBeforeYear yoe + daysBeforeMonth 11 + monthLength (yearAt era yoe 11) (monthAt 11) := by
  rw [monthLength_feb, daysBeforeMonth_feb]
  unfold daysBeforeYear
  by_cases hleap : IsLeap (yoe + era * 400 + 1)
  · rw [if_pos hleap]
    unfold IsLeap at hleap
    omega
  · rw [if_neg hleap]
    unfold IsLeap at hleap
    omega

/-- The last year of an era ends with a leap day. -/
theorem daysBeforeYear_era (era : ℤ) :
    146097 = daysBeforeYear 399 + daysBeforeMonth 11 + monthLength (yearAt era 399 11) (monthAt 11) := by
  have hleap : IsLeap ((399 : ℕ) + era * 400 + 1) := by
    unfold IsLeap
    omega
  rw [monthLength_feb, if_pos hleap]
  rfl

namespace MarchDate

/-- The days since the first of March of the year zero. -/
def days (p : MarchDate) : ℤ := p.era * 146097 + daysBeforeYear p.yoe + daysBeforeMonth p.mp + p.day

def date (p : MarchDate) : Date where
  year := yearAt p.era p.yoe p.mp
  month := monthAt p.mp
  day := p.day + 1
  month_pos := monthAt_pos p.mp_lt
  month_le := monthAt_le p.mp_lt
  day_pos := Nat.le_add_left 1 _
  day_le := p.day_lt

def next (p : MarchDate) : MarchDate :=
  if h : p.day + 1 < monthLength (yearAt p.era p.yoe p.mp) (monthAt p.mp) then
    ⟨p.era, p.yoe, p.mp, p.day + 1, p.yoe_lt, p.mp_lt, h⟩
  else if h : p.mp < 11 then
    ⟨p.era, p.yoe, p.mp + 1, 0, p.yoe_lt, Nat.succ_lt_succ h, monthLength_pos _ _⟩
  else if h : p.yoe < 399 then
    ⟨p.era, p.yoe + 1, 0, 0, Nat.succ_lt_succ h, by decide, monthLength_pos _ _⟩
  else
    ⟨p.era + 1, 0, 0, 0, by decide, by decide, monthLength_pos _ _⟩

/-- A month ends after its length, a year after its February, an era after its last year. -/
theorem days_next (p : MarchDate) : p.next.days = p.days + 1 := by
  obtain ⟨era, yoe, mp, day, hyoe, hmp, hday⟩ := p
  unfold next
  dsimp only
  split_ifs with h1 h2 h3
  · simp only [days]
    omega
  · have hmonth := daysBeforeMonth_succ h2 (yearAt era yoe mp)
    simp only [days]
    omega
  · obtain rfl : mp = 11 := by omega
    have hyear := daysBeforeYear_succ era h3
    have hmarch : daysBeforeMonth 0 = 0 := rfl
    simp only [days]
    omega
  · obtain rfl : mp = 11 := by omega
    obtain rfl : yoe = 399 := by omega
    have hera := daysBeforeYear_era era
    have hfirst : daysBeforeYear 0 = 0 := rfl
    have hmarch : daysBeforeMonth 0 = 0 := rfl
    simp only [days]
    omega

/-- The month after, in the same year unless the month is December. -/
theorem date_next (p : MarchDate) : p.next.date = p.date.next := by
  obtain ⟨era, yoe, mp, day, hyoe, hmp, hday⟩ := p
  by_cases hd : day + 1 < monthLength (yearAt era yoe mp) (monthAt mp)
  · simp only [next, date, Date.next, hd, reduceDIte]
  · by_cases hm : mp < 11
    · have hstep : monthAt mp < 12 ∧ monthAt (mp + 1) = monthAt mp + 1 ∧ yearAt era yoe (mp + 1) = yearAt era yoe mp ∨
          monthAt mp = 12 ∧ monthAt (mp + 1) = 1 ∧ yearAt era yoe (mp + 1) = yearAt era yoe mp + 1 := by
        unfold yearAt monthAt
        split_ifs <;> omega
      rcases hstep with ⟨hlt, hmonth, hyear⟩ | ⟨hdec, hmonth, hyear⟩
      · simp only [next, date, Date.next, hd, hm, hlt, reduceDIte, hmonth, hyear, Nat.zero_add]
      · have hlt : ¬ monthAt mp < 12 := by omega
        simp only [next, date, Date.next, hd, hm, hlt, reduceDIte, hmonth, hyear, Nat.zero_add]
    · obtain rfl : mp = 11 := by omega
      have hfeb : monthAt 11 < 12 := by decide
      have hmarch : monthAt 0 = monthAt 11 + 1 := rfl
      by_cases hy : yoe < 399
      · have hyear : yearAt era (yoe + 1) 0 = yearAt era yoe 11 := by
          show ((yoe + 1 : ℕ) : ℤ) + era * 400 = yoe + era * 400 + 1
          omega
        simp only [next, date, Date.next, hd, hm, hy, hfeb, reduceDIte, hmarch, hyear, Nat.zero_add]
      · obtain rfl : yoe = 399 := by omega
        have hyear : yearAt (era + 1) 0 0 = yearAt era 399 11 := by
          show ((0 : ℕ) : ℤ) + (era + 1) * 400 = (399 : ℕ) + era * 400 + 1
          omega
        simp only [next, date, Date.next, hd, hm, hy, hfeb, reduceDIte, hmarch, hyear, Nat.zero_add]

/-- Every day has a date: count on from the first day of its era. -/
theorem exists_days (z : ℤ) : ∃ p : MarchDate, p.days = z := by
  have hcount : ∀ (era : ℤ) (n : ℕ), ∃ p : MarchDate, p.days = era * 146097 + n := by
    intro era n
    induction n with
    | zero =>
      refine ⟨⟨era, 0, 0, 0, by decide, by decide, monthLength_pos _ _⟩, ?_⟩
      simp [days, daysBeforeYear, daysBeforeMonth]
    | succ n ih =>
      obtain ⟨p, hp⟩ := ih
      refine ⟨p.next, ?_⟩
      rw [days_next, hp]
      omega
  obtain ⟨p, hp⟩ := hcount (z / 146097) (z % 146097).toNat
  refine ⟨p, ?_⟩
  rw [hp]
  omega

end MarchDate
end Calendar
end Simulators
