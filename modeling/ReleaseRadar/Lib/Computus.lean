import Mathlib.Data.Nat.Count
import Mathlib.Order.Bounds.Basic
import Mathlib.Tactic.IntervalCases
import ReleaseRadar.Lib.Gregorian

/-!
# The date of Easter

The rule of the Gregorian calendar reform. The days of the year are labelled with epacts, and
in a year the tabular new moons are on the days that have the epact of the year. The epact
grows by eleven each year, is one less after a century that begins without a leap day, and one
more eight times in 2500 years. In the months of 29 days two epacts share a day: the second of
them is 25 in the first half of the cycle of nineteen years, and in the second half 25 is a day
earlier, with 26.

Easter is the first Sunday after the full moon that is the first on 21 March or later.

* `solarCorrections_eq`, `lunarCorrections_eq`, `epact_eq` — the corrections without counting;
* `paschalFullMoon_fullMoonDay` — the full moon without the table;
* `isEaster_of` — the Sunday after it.

Days are counted from the first of March where the year does not matter.
-/

namespace ReleaseRadar.Lib.Computus

open Gregorian

/-! ## The epact -/

/-- The place of a year in the cycle of the moon. -/
def goldenNumber (y : Int) : Int := y % 19 + 1

/-- How many centuries have begun without a leap day, up to century `c`. -/
def solarCorrections (c : Nat) : Nat := Nat.count (fun k => 16 ≤ k ∧ k % 4 ≠ 0) (c + 1)

/-- How many steps of the moon there were: from 1800 on seven after 300 years each, and the
eighth after 400. -/
def lunarCorrections (c : Nat) : Nat :=
  Nat.count (fun k => 18 ≤ k ∧ (k - 18) % 25 % 3 = 0 ∧ (k - 18) % 25 < 24) (c + 1)

/-- In 1583 golden number 1 had the epact 1. -/
def epact (y : Int) : Int :=
  let c := (y / 100).toNat
  (11 * (goldenNumber y - 1) + 1 - solarCorrections c + lunarCorrections c) % 30

/-- One day for every century year that is no leap year. -/
theorem solarCorrections_eq {c : Nat} (h : 15 ≤ c) :
    (solarCorrections c : Int) = c - c / 4 - 12 := by
  induction c, h using Nat.le_induction with
  | base => decide
  | succ c h ih =>
    unfold solarCorrections at ih ⊢
    rw [Nat.count_succ]
    split <;> omega

/-- Eight steps in a cycle of 25 centuries. -/
theorem lunar_step (j : Nat) : (8 * (17 + j + 1 : Int) + 13) / 25 =
    (8 * (17 + j : Int) + 13) / 25 + if j % 25 % 3 = 0 ∧ j % 25 < 24 then 1 else 0 := by
  obtain ⟨q, r, hr, rfl⟩ : ∃ q r, r < 25 ∧ j = 25 * q + r := ⟨j / 25, j % 25, by omega, by omega⟩
  rw [show (25 * q + r) % 25 = r by omega]
  split <;> interval_cases r <;> omega

/-- Eight days in twenty-five centuries. -/
theorem lunarCorrections_eq {c : Nat} (h : 15 ≤ c) :
    (lunarCorrections c : Int) = (8 * c + 13) / 25 - 5 := by
  induction c, h using Nat.le_induction with
  | base => decide
  | succ c h ih =>
    unfold lunarCorrections at ih ⊢
    rw [Nat.count_succ]
    by_cases hc : 17 ≤ c
    · obtain ⟨j, rfl⟩ := Nat.exists_eq_add_of_le hc
      have hstep := lunar_step j
      rw [show 17 + j + 1 - 18 = j by omega]
      push_cast at ih ⊢
      split <;> split at hstep <;> omega
    · rw [if_neg (by omega)]
      omega

/-- The epact in one formula. -/
theorem epact_eq {y : Int} (h : 1500 ≤ y) : epact y =
    (11 * (y % 19) + 8 - y / 100 + y / 100 / 4 + (8 * (y / 100) + 13) / 25) % 30 := by
  have hc : 15 ≤ (y / 100).toNat := by omega
  have hcast : ((y / 100).toNat : Int) = y / 100 := Int.toNat_of_nonneg (by omega)
  have hsolar := solarCorrections_eq hc
  have hlunar := lunarCorrections_eq hc
  rw [hcast] at hsolar hlunar
  unfold epact goldenNumber
  dsimp only
  rw [hsolar, hlunar]
  congr 1
  omega

theorem epact_bounds (y : Int) : 0 ≤ epact y ∧ epact y < 30 := by
  unfold epact
  dsimp only
  omega

/-! ## The moon -/

/-- The labels of the `n`-th day of March, into April: a month of 30 days, from the 31st on one
of 29. -/
def newMoonEpacts (golden n : Int) : List Int :=
  if n ≤ 30 then [(31 - n) % 30]
  else if n ≤ 34 then [(61 - n) % 30]
  else if n = 35 then if golden ≤ 11 then [26] else [26, 25]
  else if n = 36 then if golden ≤ 11 then [25, 24] else [24]
  else [60 - n]

/-- A day of the two months. -/
def NewMoon (y n : Int) : Prop := 1 ≤ n ∧ n ≤ 59 ∧ epact y ∈ newMoonEpacts (goldenNumber y) n

/-- The fourteenth day of the moon. -/
def FullMoon (y n : Int) : Prop := NewMoon y (n - 13)

def PaschalFullMoon (y n : Int) : Prop := IsLeast {m | 21 ≤ m ∧ FullMoon y m} n

/-- The full moon of epact 23 is on 21 March. -/
def fullMoonDay (y : Int) : Int :=
  let h := (23 - epact y) % 30
  if h = 29 ∨ h = 28 ∧ 11 < goldenNumber y then 20 + h else 21 + h

/-- The epacts of a day of the ecclesiastical calendar. -/
theorem mem_newMoonEpacts {golden n e : Int} : e ∈ newMoonEpacts golden n ↔
    (n ≤ 30 ∧ e = (31 - n) % 30) ∨ (30 < n ∧ n ≤ 34 ∧ e = (61 - n) % 30) ∨
      (n = 35 ∧ (e = 26 ∨ 11 < golden ∧ e = 25)) ∨ (n = 36 ∧ (e = 24 ∨ golden ≤ 11 ∧ e = 25)) ∨
        36 < n ∧ e = 60 - n := by
  unfold newMoonEpacts
  split
  · rw [List.mem_singleton]
    omega
  · split
    · rw [List.mem_singleton]
      omega
    · split
      · split <;> simp only [List.mem_cons, List.not_mem_nil, or_false] <;> omega
      · split
        · split <;> simp only [List.mem_cons, List.not_mem_nil, or_false] <;> omega
        · rw [List.mem_singleton]
          omega

/-- The day of the formula is the paschal full moon. -/
theorem paschalFullMoon_fullMoonDay (y : Int) : PaschalFullMoon y (fullMoonDay y) := by
  have hE := epact_bounds y
  unfold PaschalFullMoon FullMoon NewMoon fullMoonDay
  simp only [mem_newMoonEpacts]
  generalize epact y = e at hE
  generalize goldenNumber y = g
  constructor
  · show 21 ≤ _ ∧ _
    split <;> omega
  · rintro n ⟨h21, h1, h59, hn⟩
    split <;> omega

/-! ## The Sunday -/

/-- The `n`-th day of March, also beyond the 31st. -/
def marchDay (y n : Int) : Int := (⟨y, 3, n⟩ : Date).toDay

/-- The first Sunday strictly after the Paschal full moon. -/
def IsEaster (y n : Int) : Prop :=
  ∃ moon, PaschalFullMoon y moon ∧ IsLeast {m | weekday m = 0 ∧ marchDay y moon < m} n

theorem marchDay_add (y n k : Int) : marchDay y (n + k) = marchDay y n + k := by
  unfold marchDay Date.toDay
  dsimp only
  omega

theorem marchDay_mono {y m n : Int} (h : m ≤ n) : marchDay y m ≤ marchDay y n := by
  unfold marchDay Date.toDay
  dsimp only
  omega

/-- The days of April. -/
theorem toDay_april (y n : Int) : (⟨y, 4, n⟩ : Date).toDay = marchDay y (31 + n) := by
  have hlen : monthStart (isLeap y) 4 = monthStart (isLeap y) 3 + 31 := by
    cases isLeap y <;> decide
  unfold marchDay Date.toDay
  dsimp only
  omega

/-- A Sunday at most a week after the full moon. -/
theorem isEaster_of {y n : Int} (hsunday : weekday (marchDay y n) = 0) (h₁ : fullMoonDay y < n)
    (h₂ : n ≤ fullMoonDay y + 7) : IsEaster y (marchDay y n) := by
  obtain ⟨k, rfl⟩ : ∃ k, n = fullMoonDay y + k := ⟨n - fullMoonDay y, by omega⟩
  rw [marchDay_add] at hsunday ⊢
  refine ⟨fullMoonDay y, paschalFullMoon_fullMoonDay y, ⟨hsunday, by omega⟩, ?_⟩
  rintro m ⟨hm, hlt⟩
  unfold weekday at hsunday hm
  omega

/-- The weekday of a day of March: the year counts as many days as it has years and leap days. -/
theorem weekday_marchDay (y n : Int) :
    weekday (marchDay y n) = (y + y / 4 - y / 100 + y / 400 + n + 2) % 7 := by
  have hmarch : newYear y + monthStart (isLeap y) 3 = newYear (y + 1) - 306 := by
    rw [newYear_succ, ← monthStart_year]
    cases isLeap y <;> simp [monthStart] <;> omega
  unfold marchDay Date.toDay weekday
  dsimp only
  have h4 : (y + 1 - 1969) / 4 = y / 4 - 492 := by omega
  have h100 : (y + 1 - 1901) / 100 = y / 100 - 19 := by omega
  have h400 : (y + 1 - 1601) / 400 = y / 400 - 4 := by omega
  rw [hmarch, newYear, h4, h100, h400]
  omega

end ReleaseRadar.Lib.Computus
