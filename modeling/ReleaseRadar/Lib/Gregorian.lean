import Mathlib.Tactic.ByContra

/-!
# The Gregorian calendar

The proleptic Gregorian calendar over all days, past and future, a day being counted from
1970-01-01.

* `newYear`, `monthStart` — where a year and a month begin; `newYear_succ` and
  `monthStart_succ` give them back their lengths;
* `date`, `Date.day` — a day as a date, and back: they are inverse (`day_date`, `date_day`);
* `yearOf_mono`, `month_mono`, `month_convex` — the order of the days and that of their dates;
* `makeDay` — a day of a month that need not be one of the month's.
-/

namespace ReleaseRadar.Lib.Gregorian

/-! ## Years -/

def isLeap (y : Int) : Bool := y % 4 = 0 && (y % 100 ≠ 0 || y % 400 = 0)

def yearLength (y : Int) : Int := if isLeap y then 366 else 365

/-- The first day of a year. -/
def newYear (y : Int) : Int :=
  365 * (y - 1970) + (y - 1969) / 4 - (y - 1901) / 100 + (y - 1601) / 400

/-- A year is as long as it is. -/
theorem newYear_succ (y : Int) : newYear (y + 1) = newYear y + yearLength y := by
  unfold newYear yearLength
  by_cases h : isLeap y
  · rw [if_pos h]
    simp only [isLeap, Bool.and_eq_true, Bool.or_eq_true, decide_eq_true_eq] at h
    omega
  · rw [if_neg h]
    simp only [isLeap, Bool.and_eq_true, Bool.or_eq_true, decide_eq_true_eq] at h
    omega

/-- Later years begin later. -/
theorem newYear_mono {y z : Int} (h : y ≤ z) : newYear y ≤ newYear z := by
  unfold newYear
  omega

/-- A year is 365.2425 days long, and the calendar is never two days off. -/
theorem newYear_bounds (y : Int) :
    146097 * (y - 1970) - 506 ≤ 400 * newYear y ∧ 400 * newYear y ≤ 146097 * (y - 1970) + 589 := by
  unfold newYear
  omega

/-- The year a day is in. -/
def yearOf (n : Int) : Int :=
  -- at most one off
  let y := 1970 + 400 * n / 146097
  if n < newYear y then y - 1 else if newYear (y + 1) ≤ n then y + 1 else y

/-- A day lies in its year. -/
theorem newYear_yearOf (n : Int) : newYear (yearOf n) ≤ n ∧ n < newYear (yearOf n + 1) := by
  have hlow := newYear_bounds (1970 + 400 * n / 146097 - 1)
  have hhigh := newYear_bounds (1970 + 400 * n / 146097 + 1 + 1)
  unfold yearOf
  dsimp only
  split
  · rw [Int.sub_add_cancel]
    omega
  · split
    · omega
    · omega

/-- It is the only one. -/
theorem yearOf_eq {n y : Int} (h₁ : newYear y ≤ n) (h₂ : n < newYear (y + 1)) : yearOf n = y := by
  obtain ⟨g₁, g₂⟩ := newYear_yearOf n
  rcases Int.lt_trichotomy (yearOf n) y with h | h | h
  · have := newYear_mono (show yearOf n + 1 ≤ y from h)
    omega
  · exact h
  · have := newYear_mono (show y + 1 ≤ yearOf n from h)
    omega

/-! ## Months -/

/-- The days of a year before its month `m`. From March on the lengths of the months follow
a line, and the line is one or two days ahead. -/
def monthStart (leap : Bool) (m : Int) : Int :=
  (367 * m - 362) / 12 - (if m ≤ 2 then 0 else if leap then 1 else 2)

def monthLength (leap : Bool) (m : Int) : Int :=
  if m = 2 then if leap then 29 else 28
  else if m = 4 ∨ m = 6 ∨ m = 9 ∨ m = 11 then 30
  else 31

/-- No month is longer than 31 days. -/
theorem monthLength_le (leap : Bool) (m : Int) : monthLength leap m ≤ 31 := by
  unfold monthLength
  split
  · split <;> decide
  · split <;> decide

theorem monthStart_one (leap : Bool) : monthStart leap 1 = 0 := by cases leap <;> decide

/-- The thirteenth month would begin after the year. -/
theorem monthStart_year (y : Int) : monthStart (isLeap y) 13 = yearLength y := by
  unfold yearLength
  cases isLeap y <;> decide

/-- A month is as long as it is. -/
theorem monthStart_succ (leap : Bool) {m : Int} (h₁ : 1 ≤ m) (h₂ : m ≤ 12) :
    monthStart leap (m + 1) = monthStart leap m + monthLength leap m := by
  have hm : m = 1 ∨ m = 2 ∨ m = 3 ∨ m = 4 ∨ m = 5 ∨ m = 6 ∨ m = 7 ∨ m = 8 ∨ m = 9 ∨ m = 10 ∨
      m = 11 ∨ m = 12 := by omega
  rcases hm with rfl | rfl | rfl | rfl | rfl | rfl | rfl | rfl | rfl | rfl | rfl | rfl <;>
    cases leap <;> decide

/-- Later months begin later. -/
theorem monthStart_mono (leap : Bool) {m k : Int} (h₁ : 1 ≤ m) (h : m ≤ k) :
    monthStart leap m ≤ monthStart leap k := by
  unfold monthStart
  cases leap <;> simp only [Bool.false_eq_true, if_false, if_true] <;> omega

/-- The month that day `d` of a year is in, `d` counted from 0. -/
def monthOf (leap : Bool) (d : Int) : Int :=
  (12 * (d + (if d < monthStart leap 3 then 0 else if leap then 1 else 2)) + 373) / 367

/-- A day of the year lies in its month. -/
theorem monthOf_spec {leap : Bool} {d : Int} (h₁ : 0 ≤ d) (h₂ : d < monthStart leap 13) :
    (1 ≤ monthOf leap d ∧ monthOf leap d ≤ 12) ∧
      monthStart leap (monthOf leap d) ≤ d ∧ d < monthStart leap (monthOf leap d + 1) := by
  cases leap
  · simp [monthStart, monthOf] at h₂ ⊢
    omega
  · simp [monthStart, monthOf] at h₂ ⊢
    omega

/-- And in no other. -/
theorem monthOf_eq {leap : Bool} {d m : Int} (hm₁ : 1 ≤ m) (hm₂ : m ≤ 12)
    (h₁ : monthStart leap m ≤ d) (h₂ : d < monthStart leap (m + 1)) : monthOf leap d = m := by
  have h₀ : 0 ≤ d := by
    have := monthStart_mono leap (Int.le_refl 1) hm₁
    rw [monthStart_one] at this
    omega
  have h₁₃ := monthStart_mono leap (m := m + 1) (k := 13) (by omega) (by omega)
  obtain ⟨⟨g₁, g₁₂⟩, g₂, g₃⟩ := monthOf_spec h₀ (Int.lt_of_lt_of_le h₂ h₁₃)
  rcases Int.lt_trichotomy (monthOf leap d) m with h | h | h
  · have := monthStart_mono leap (show 1 ≤ monthOf leap d + 1 by omega) h
    omega
  · exact h
  · have := monthStart_mono leap (show 1 ≤ m + 1 by omega) h
    omega

/-! ## Dates -/

structure Date where
  year : Int
  month : Int
  day : Int
deriving DecidableEq, Repr

/-- A date of the calendar. -/
structure Date.Valid (d : Date) : Prop where
  month : 1 ≤ d.month ∧ d.month ≤ 12
  day : 1 ≤ d.day ∧ d.day ≤ monthLength (isLeap d.year) d.month

/-- The day of a date. -/
def Date.toDay (d : Date) : Int := newYear d.year + monthStart (isLeap d.year) d.month + d.day - 1

/-- The date of a day. -/
def date (n : Int) : Date :=
  let y := yearOf n
  let m := monthOf (isLeap y) (n - newYear y)
  ⟨y, m, n - newYear y - monthStart (isLeap y) m + 1⟩

/-- Sunday is 0. -/
def weekday (n : Int) : Int := (n + 4) % 7

/-- The `dt`-th day of a month, which it need not have; months are counted from 0, and there
may be more of them than the year has. -/
def makeDay (year month dt : Int) : Int :=
  newYear (year + month / 12) + monthStart (isLeap (year + month / 12)) (month % 12 + 1) + dt - 1

/-- The date of a day is that day. -/
theorem day_date (n : Int) : (date n).toDay = n := by
  unfold date Date.toDay
  dsimp only
  omega

/-- A day is less than a year after its new year. -/
theorem dayOfYear (n : Int) :
    0 ≤ n - newYear (yearOf n) ∧ n - newYear (yearOf n) < monthStart (isLeap (yearOf n)) 13 := by
  obtain ⟨h₁, h₂⟩ := newYear_yearOf n
  rw [monthStart_year]
  rw [newYear_succ] at h₂
  omega

/-- The date of a day is one of the calendar. -/
theorem valid_date (n : Int) : (date n).Valid := by
  obtain ⟨h₁, h₂⟩ := dayOfYear n
  obtain ⟨⟨g₁, g₁₂⟩, g₂, g₃⟩ := monthOf_spec h₁ h₂
  rw [monthStart_succ _ g₁ g₁₂] at g₃
  unfold date
  exact ⟨⟨g₁, g₁₂⟩, by dsimp only; omega⟩

/-- A valid date lies in its month, and in its year. -/
theorem Date.Valid.bounds {d : Date} (h : d.Valid) :
    monthStart (isLeap d.year) d.month ≤ d.toDay - newYear d.year ∧
      d.toDay - newYear d.year < monthStart (isLeap d.year) (d.month + 1) ∧
        newYear d.year ≤ d.toDay ∧ d.toDay < newYear (d.year + 1) := by
  obtain ⟨⟨hm₁, hm₂⟩, hd₁, hd₂⟩ := h
  have hstart := monthStart_mono (isLeap d.year) (Int.le_refl 1) hm₁
  have hend := monthStart_mono (isLeap d.year) (m := d.month + 1) (k := 13) (by omega)
    (by omega)
  rw [monthStart_one] at hstart
  rw [monthStart_year] at hend
  have hsucc := monthStart_succ (isLeap d.year) hm₁ hm₂
  rw [newYear_succ]
  unfold Date.toDay
  omega

/-- The day of a date has that date. -/
theorem date_day {d : Date} (h : d.Valid) : date d.toDay = d := by
  obtain ⟨h₁, h₂, h₃, h₄⟩ := h.bounds
  have hy := yearOf_eq h₃ h₄
  have hm := monthOf_eq h.month.1 h.month.2 h₁ h₂
  unfold date
  dsimp only
  rw [hy, hm]
  obtain ⟨y, m, d⟩ := d
  simp only [Date.toDay, Date.mk.injEq, true_and]
  omega

/-- Two days have two dates. -/
theorem date_injective {m n : Int} (h : date m = date n) : m = n := by
  rw [← day_date m, h, day_date n]

/-- `MakeDay` within the year. -/
theorem makeDay_month {year month dt : Int} (h₁ : 0 ≤ month) (h₂ : month < 12) :
    makeDay year month dt = (⟨year, month + 1, dt⟩ : Date).toDay := by
  unfold makeDay Date.toDay
  rw [Int.ediv_eq_zero_of_lt h₁ h₂, Int.emod_eq_of_lt h₁ h₂, Int.add_zero]

/-- Counting on from a day's own number. -/
theorem makeDay_date (n k : Int) :
    makeDay (date n).year ((date n).month - 1) ((date n).day + k) = n + k := by
  obtain ⟨⟨h₁, h₂⟩, -⟩ := valid_date n
  rw [makeDay_month (by omega) (by omega), Int.sub_add_cancel]
  have := day_date n
  unfold Date.toDay at this ⊢
  dsimp only
  omega

/-! ## Order -/

/-- Later days lie in later years. -/
theorem yearOf_mono {m n : Int} (h : m ≤ n) : yearOf m ≤ yearOf n := by
  by_contra hlt
  have := newYear_mono (show yearOf n + 1 ≤ yearOf m by omega)
  have hm := newYear_yearOf m
  have hn := newYear_yearOf n
  omega

/-- In one year, later days are in later months. -/
theorem month_mono {m n : Int} (h : m ≤ n) (hy : (date m).year = (date n).year) :
    (date m).month ≤ (date n).month := by
  have hm := (valid_date m).bounds
  have hn := (valid_date n).bounds
  rw [day_date] at hm hn
  rw [hy] at hm
  by_contra hlt
  have := monthStart_mono (isLeap (date n).year) (m := (date n).month + 1)
    (k := (date m).month) (by have := (valid_date n).month; omega) (by omega)
  omega

/-- The days of a month follow one another. -/
theorem month_convex {k m n : Int} (h₁ : k ≤ m) (h₂ : m ≤ n) (hy : (date k).year = (date n).year)
    (hm : (date k).month = (date n).month) :
    (date m).year = (date k).year ∧ (date m).month = (date k).month := by
  have hy₁ : (date k).year ≤ (date m).year := yearOf_mono h₁
  have hy₂ : (date m).year ≤ (date n).year := yearOf_mono h₂
  have hyear : (date m).year = (date k).year := by omega
  have hm₁ := month_mono h₁ hyear.symm
  have hm₂ := month_mono h₂ (by omega)
  exact ⟨hyear, by omega⟩

end ReleaseRadar.Lib.Gregorian
