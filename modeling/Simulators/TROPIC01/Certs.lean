/-
# TROPIC01: the dates of the certificates

`certs.rs` turns the days since 1970-01-01 into a calendar date. It counts in
eras of 400 years that begin in March, and finds the year, and then the month,
by a division each; the divisions are exact inverses of the counts of days
before a year (`year_of_day`) and before a month (`month_of_day`).

Key definition: `civilFromDays`.
Key theorems: `civilFromDays_date`, `civilFromDays_calendar`.
-/
import Simulators.Lib.Calendar

namespace Simulators
namespace TROPIC01

open Calendar

/-- Civil date from days since 1970-01-01, where no sum leaves the `i64`s. -/
def civilFromDays (days : ℤ) : ℤ × UInt32 × UInt32 :=
  let z := days + 719468
  let era := z / 146097
  let doe := z % 146097
  let yoe := (doe - doe.tdiv 1460 + doe.tdiv 36524 - doe.tdiv 146096).tdiv 365
  let y := yoe + era * 400
  let doy := doe - (365 * yoe + yoe.tdiv 4 - yoe.tdiv 100)
  let mp := (5 * doy + 2).tdiv 153
  let d := UInt32.ofInt (doy - (153 * mp + 2).tdiv 5 + 1)
  let m := UInt32.ofInt (if mp < 10 then mp + 3 else mp - 9)
  (if m ≤ 2 then y + 1 else y, m, d)

/-! ### The two divisions -/

/-- The days of a year before one of its days: 366 in a leap year only. -/
theorem day_of_year (p : MarchDate) : daysBeforeMonth p.mp + p.day < 365 ∨
    daysBeforeMonth p.mp + p.day = 365 ∧ (p.yoe = 399 ∨ (p.yoe + 1) % 4 = 0 ∧ (p.yoe + 1) % 100 ≠ 0) := by
  obtain ⟨era, yoe, mp, day, hyoe, hmp, hday⟩ := p
  dsimp only at hday ⊢
  by_cases hm : mp < 11
  · have hmonth := daysBeforeMonth_succ hm (yearAt era yoe mp)
    unfold daysBeforeMonth at hmonth ⊢
    omega
  · obtain rfl : mp = 11 := by omega
    rw [monthLength_feb] at hday
    rw [daysBeforeMonth_feb]
    by_cases hleap : IsLeap (yoe + era * 400 + 1)
    · rw [if_pos hleap] at hday
      unfold IsLeap at hleap
      omega
    · rw [if_neg hleap] at hday
      omega

/-- The year of an era is read off its day. -/
theorem year_of_day {yoe doy doe : ℕ} (hyoe : yoe < 400) (hdoe : doe = daysBeforeYear yoe + doy)
    (hdoy : doy < 365 ∨ doy = 365 ∧ (yoe = 399 ∨ (yoe + 1) % 4 = 0 ∧ (yoe + 1) % 100 ≠ 0)) :
    doe < 146097 ∧ doe / 1460 + doe / 146096 ≤ doe + doe / 36524 ∧
      (doe + doe / 36524 - (doe / 1460 + doe / 146096)) / 365 = yoe := by
  -- the year as centuries, groups of four years and years
  obtain ⟨c, q, r, hq, hr, rfl⟩ : ∃ c q r, q < 25 ∧ r < 4 ∧ yoe = 100 * c + 4 * q + r :=
    ⟨yoe / 100, yoe % 100 / 4, yoe % 4, by omega, by omega, by omega⟩
  have hsum : doe = 36524 * c + 1461 * q + 365 * r + doy := by
    unfold daysBeforeYear at hdoe
    omega
  have hc : c < 4 := by omega
  have hleap : doy < 365 ∨ doy = 365 ∧ r = 3 ∧ (q < 24 ∨ c = 3) := by omega
  have hera : 36524 * c + 1461 * q + 365 * r + doy < 146097 := by omega
  have hquad : doe / 1460 = 25 * c + q ∨ doe / 1460 = 25 * c + q + 1 ∧ r = 3 ∧ 1 ≤ doy := by omega
  have hcentury : doe / 36524 = c ∧ doe / 146096 = 0 ∨ doe = 146096 := by omega
  rcases hcentury with ⟨hcent, hlast⟩ | hlast
  · rcases hquad with hquad | ⟨hquad, hr, hdoy⟩
    · omega
    · omega
  · omega

/-- The month of a year is read off its day. -/
theorem month_of_day (p : MarchDate) : (5 * (daysBeforeMonth p.mp + p.day) + 2) / 153 = p.mp := by
  obtain ⟨era, yoe, mp, day, hyoe, hmp, hday⟩ := p
  dsimp only at hday ⊢
  by_cases hm : mp < 11
  · have hmonth := daysBeforeMonth_succ hm (yearAt era yoe mp)
    unfold daysBeforeMonth at hmonth ⊢
    omega
  · obtain rfl : mp = 11 := by omega
    have hfeb : monthLength (yearAt era yoe 11) (monthAt 11) ≤ 29 := by
      rw [monthLength_feb]
      split <;> decide
    rw [daysBeforeMonth_feb]
    omega

/-! ### The date -/

/-- A date as `civil_from_days` returns it. -/
def triple (a : Date) : ℤ × UInt32 × UInt32 := (a.year, UInt32.ofNat a.month, UInt32.ofNat a.day)

theorem ofInt_natCast (n : ℕ) : UInt32.ofInt n = UInt32.ofNat n := by
  apply UInt32.toNat_inj.mp
  rw [UInt32.ofInt, UInt32.toNat_ofNat', UInt32.toNat_ofNat']
  omega

theorem ofNat_le_two {m : ℕ} (h : m ≤ 12) : UInt32.ofNat m ≤ 2 ↔ m ≤ 2 := by
  rw [UInt32.le_iff_toNat_le, UInt32.toNat_ofNat', Nat.mod_eq_of_lt (by omega)]
  rfl

theorem civilFromDays_date (p : MarchDate) : civilFromDays (p.days - 719468) = triple p.date := by
  obtain ⟨hlt, hle, hyear⟩ := year_of_day p.yoe_lt rfl (day_of_year p)
  have hmonth := month_of_day p
  generalize hdoy : daysBeforeMonth p.mp + p.day = doy at hlt hle hyear hmonth
  generalize hdoe : daysBeforeYear p.yoe + doy = doe at hlt hle hyear
  have hdays : p.days - 719468 + 719468 = p.era * 146097 + doe := by
    unfold MarchDate.days
    omega
  have hera : (p.era * 146097 + doe) / 146097 = p.era := by omega
  have hrem : (p.era * 146097 + doe) % 146097 = doe := by omega
  have hdiv : ∀ {a : ℤ} (b : ℤ), 0 ≤ a → a.tdiv b = a / b := fun _ h => Int.tdiv_eq_ediv_of_nonneg h
  have hyoe : ((doe : ℤ) - (doe : ℤ) / 1460 + (doe : ℤ) / 36524 - (doe : ℤ) / 146096).tdiv 365 = p.yoe := by
    rw [hdiv 365 (by omega)]
    omega
  have hday : (doe : ℤ) - (365 * p.yoe + (p.yoe : ℤ) / 4 - (p.yoe : ℤ) / 100) = doy := by
    unfold daysBeforeYear at hdoe
    omega
  have hmp : (5 * (doy : ℤ) + 2).tdiv 153 = p.mp := by
    rw [hdiv 153 (by omega)]
    omega
  have hd : (doy : ℤ) - (153 * (p.mp : ℤ) + 2).tdiv 5 + 1 = (p.day + 1 : ℕ) := by
    rw [hdiv 5 (by omega)]
    unfold daysBeforeMonth at hdoy
    omega
  have hm : (if (p.mp : ℤ) < 10 then (p.mp : ℤ) + 3 else p.mp - 9) = (monthAt p.mp : ℕ) := by
    unfold monthAt
    split_ifs <;> omega
  unfold civilFromDays
  simp only [hdays, hera, hrem, hdiv _ (Int.natCast_nonneg _), hyoe, hday, hmp, hd, hm, ofInt_natCast,
    ofNat_le_two (monthAt_le p.mp_lt)]
  rfl

/-- Every day number is given a date that exists, the epoch its own, and the next day the next date. -/
theorem civilFromDays_calendar : civilFromDays 0 = (1970, 1, 1) ∧
    ∀ z : ℤ, ∃ a : Date, civilFromDays z = triple a ∧ civilFromDays (z + 1) = triple a.next := by
  refine ⟨by decide, ?_⟩
  intro z
  obtain ⟨p, hp⟩ := MarchDate.exists_days (z + 719468)
  have hz : z = p.days - 719468 := by omega
  have hnext : z + 1 = p.next.days - 719468 := by
    rw [MarchDate.days_next]
    omega
  refine ⟨p.date, ?_, ?_⟩
  · rw [hz, civilFromDays_date]
  · rw [hnext, civilFromDays_date, MarchDate.date_next]

end TROPIC01
end Simulators
