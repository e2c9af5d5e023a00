import ReleaseRadar.Lib.Computus
import ReleaseRadar.Lib.JsDate

/-!
# Days on which nothing should be rolled out

`core/schedule-rules.ts`: Fridays, the public holidays of the Canton of Bern and the days before
them. `easterSunday` is the rule of the calendar reform for every year since that has dates
(`easterSunday_computus`). `scheduleWarnings` looks for the next day among the holidays of the
date's own year, so it is right on every day but the last of a year, and but the last day that is
a `Date`: the one after it has the key of the holidays at the end of that year, which are none
either (`scheduleWarnings_exact_iff`, `sylvester_not_warned`, `last_day_warned`).

`%` has the sign of the dividend (`Int.tmod`). A `Map` is the list of what was set, the last
first. Dates are local, in any zone less than a day from UTC that leaves out no morning of the
year; `none` is the date that is none, whose getters give `NaN`.
-/

namespace ReleaseRadar.Frontend.ScheduleRules

open Lib JsDate Gregorian Computus

/-! ## The functions -/

def pad (n : Int) : String := String.ofList (Decimal.zeroPad 2 n.toNat)

def key (z : Zone) : Option TimeValue → String
  | some d => toString (z.getFullYear d.val) ++ "-" ++ pad (z.getMonth d.val + 1) ++ "-" ++
      pad (z.getDate d.val)
  | none => "NaN-NaN-NaN"

/-- The numbers of `easterSunday`. -/
structure EasterNumbers where
  a : Int
  b : Int
  c : Int
  d : Int
  e : Int
  f : Int
  g : Int
  h : Int
  i : Int
  k : Int
  l : Int
  m : Int
  month : Int
  day : Int
deriving DecidableEq

def easterNumbers (year : Int) : EasterNumbers :=
  -- the place in the cycle of the moon
  let a := year.tmod 19
  let b := year / 100
  let c := year.tmod 100
  -- the centuries with a leap day
  let d := b / 4
  let e := b.tmod 4
  -- the steps of the moon, eight in 25 centuries
  let f := (b + 8) / 25
  let g := (b - f + 1) / 3
  -- the full moon, in days after 21 March
  let h := (19 * a + b - d - g + 15).tmod 30
  let i := c / 4
  let k := c.tmod 4
  -- from the day after it to a Sunday
  let l := (32 + 2 * e + 2 * i - h - k).tmod 7
  -- the exceptions: a week earlier
  let m := (a + 11 * h + 22 * l) / 451
  let month := (h + l - 7 * m + 114) / 31 -- 3=March, 4=April
  let day := (h + l - 7 * m + 114).tmod 31 + 1
  ⟨a, b, c, d, e, f, g, h, i, k, l, m, month, day⟩

def easterSunday (z : Zone) (year : Int) : Option TimeValue :=
  z.newDate year ((easterNumbers year).month - 1) (easterNumbers year).day

def addDaysLocal (z : Zone) (d : Option TimeValue) (n : Int) : Option TimeValue :=
  d.bind fun d => z.addDays d n

/-- The public holidays of a year, with their names. -/
def holidays (z : Zone) (year : Int) : List (Option TimeValue × String) :=
  let easter := easterSunday z year
  [(z.newDate year 0 1, "Neujahr"),
    (z.newDate year 0 2, "Berchtoldstag"),
    (addDaysLocal z easter (-2), "Karfreitag"),
    (addDaysLocal z easter 1, "Ostermontag"),
    (addDaysLocal z easter 39, "Auffahrt"),
    (addDaysLocal z easter 50, "Pfingstmontag"),
    (z.newDate year 7 1, "Bundesfeier"),
    (z.newDate year 11 25, "Weihnachten"),
    (z.newDate year 11 26, "Stephanstag")]

def bernHolidays (z : Zone) (year : Int) : List (String × String) :=
  (holidays z year).foldl (fun map (d, name) => (key z d, name) :: map) []

def fridayText : String := "Freitag — keine Rollouts an Freitagen"

def holidayText (today : String) : String := "Berner Feiertag: " ++ today

def dayBeforeText (next : String) : String := "Tag vor Berner Feiertag (" ++ next ++ ")"

def scheduleWarnings (z : Zone) (d : TimeValue) : List String :=
  let holidays := bernHolidays z (z.getFullYear d.val)
  let out := if z.getDay d.val = 5 then [fridayText] else []
  let out := match holidays.lookup (key z (some d)) with
    | some today => out ++ [holidayText today]
    | none => out
  match holidays.lookup (key z (addDaysLocal z (some d) 1)) with
  | some next => out ++ [dayBeforeText next]
  | none => out

/-! ## Easter -/

/-- What a remainder or a quotient is taken of, in the order of the source. -/
def dividends (year : Int) : List Int :=
  let n := easterNumbers year
  [year, year, year, n.b, n.b, n.b + 8, n.b - n.f + 1, 19 * n.a + n.b - n.d - n.g + 15, n.c, n.c,
    32 + 2 * n.e + 2 * n.i - n.h - n.k, n.a + 11 * n.h + 22 * n.l, n.h + n.l - 7 * n.m + 114,
    n.h + n.l - 7 * n.m + 114]

/-- The numbers with remainders that are not negative. -/
structure EasterNumbers.Spec (n : EasterNumbers) (year : Int) : Prop where
  a : n.a = year % 19
  b : n.b = year / 100
  c : n.c = year % 100
  d : n.d = n.b / 4
  e : n.e = n.b % 4
  f : n.f = (n.b + 8) / 25
  g : n.g = (n.b - n.f + 1) / 3
  h : n.h = (19 * n.a + n.b - n.d - n.g + 15) % 30
  i : n.i = n.c / 4
  k : n.k = n.c % 4
  l : n.l = (32 + 2 * n.e + 2 * n.i - n.h - n.k) % 7
  m : n.m = (n.a + 11 * n.h + 22 * n.l) / 451
  month : n.month = (n.h + n.l - 7 * n.m + 114) / 31
  day : n.day = (n.h + n.l - 7 * n.m + 114) % 31 + 1

/-- No dividend is negative. -/
theorem easterNumbers_spec (year : Int) (hyear : 0 ≤ year) :
    (easterNumbers year).Spec year ∧ ∀ x ∈ dividends year, 0 ≤ x := by
  unfold dividends
  generalize hn : easterNumbers year = n
  have a : n.a = year % 19 := by
    rw [← hn]
    exact Int.tmod_eq_emod_of_nonneg hyear
  have b : n.b = year / 100 := by rw [← hn]; rfl
  have c : n.c = year % 100 := by
    rw [← hn]
    exact Int.tmod_eq_emod_of_nonneg hyear
  have d : n.d = n.b / 4 := by rw [← hn]; rfl
  have hb : 0 ≤ n.b := by omega
  have e : n.e = n.b % 4 := by
    rw [← Int.tmod_eq_emod_of_nonneg hb, ← hn]
    rfl
  have f : n.f = (n.b + 8) / 25 := by rw [← hn]; rfl
  have g : n.g = (n.b - n.f + 1) / 3 := by rw [← hn]; rfl
  -- a third and a quarter of the century are less than the century
  have hh : 0 ≤ 19 * n.a + n.b - n.d - n.g + 15 := by omega
  have h : n.h = (19 * n.a + n.b - n.d - n.g + 15) % 30 := by
    rw [← Int.tmod_eq_emod_of_nonneg hh, ← hn]
    rfl
  have i : n.i = n.c / 4 := by rw [← hn]; rfl
  have k : n.k = n.c % 4 := by
    rw [← Int.tmod_eq_emod_of_nonneg (by omega : 0 ≤ n.c), ← hn]
    rfl
  -- what is taken away is at most 29 and 3
  have hl : 0 ≤ 32 + 2 * n.e + 2 * n.i - n.h - n.k := by omega
  have l : n.l = (32 + 2 * n.e + 2 * n.i - n.h - n.k) % 7 := by
    rw [← Int.tmod_eq_emod_of_nonneg hl, ← hn]
    rfl
  have m : n.m = (n.a + 11 * n.h + 22 * n.l) / 451 := by rw [← hn]; rfl
  have hday : 0 ≤ n.h + n.l - 7 * n.m + 114 := by omega
  have month : n.month = (n.h + n.l - 7 * n.m + 114) / 31 := by rw [← hn]; rfl
  have day : n.day = (n.h + n.l - 7 * n.m + 114) % 31 + 1 := by
    rw [← Int.tmod_eq_emod_of_nonneg hday, ← hn]
    rfl
  refine ⟨⟨a, b, c, d, e, f, g, h, i, k, l, m, month, day⟩, ?_⟩
  simp only [List.forall_mem_cons, List.not_mem_nil, false_imp_iff, implies_true, and_true]
  omega

/-- A week is taken off when the moon is moved and the Sunday would be the last. -/
theorem EasterNumbers.Spec.week {n : EasterNumbers} {year : Int} (s : n.Spec year) :
    n.m = if n.l = 6 ∧ (n.h = 29 ∨ n.h = 28 ∧ 11 ≤ n.a) then 1 else 0 := by
  obtain ⟨a, -, -, -, -, -, -, h, -, -, l, m, -, -⟩ := s
  have ha : 0 ≤ n.a ∧ n.a < 19 := by omega
  have hh : 0 ≤ n.h ∧ n.h < 30 := by omega
  have hl : 0 ≤ n.l ∧ n.l < 7 := by omega
  clear a h l
  split <;> omega

/-- The full moon, `h` days after 21 March but for the exceptions. -/
theorem EasterNumbers.Spec.moon {n : EasterNumbers} {year : Int} (s : n.Spec year)
    (hyear : 1500 ≤ year) :
    fullMoonDay year = if n.h = 29 ∨ n.h = 28 ∧ 11 ≤ n.a then 20 + n.h else 21 + n.h := by
  obtain ⟨a, b, -, d, -, f, g, h, -, -, -, -, -, -⟩ := s
  have hg : n.g = (8 * n.b + 13) / 25 := by omega
  have hepact := epact_eq hyear
  rw [← a, ← b, ← d, ← hg] at hepact
  have hh : (23 - epact year) % 30 = n.h := by
    rw [hepact, h]
    omega
  unfold fullMoonDay goldenNumber
  dsimp only
  rw [hh, ← a]
  split <;> split <;> omega

/-- The day of March, also beyond the 31st. -/
def EasterNumbers.march (n : EasterNumbers) : Int := 22 + n.h + n.l - 7 * n.m

/-- Easter is between 22 March and 25 April. -/
theorem EasterNumbers.Spec.march_bounds {n : EasterNumbers} {year : Int} (s : n.Spec year) :
    22 ≤ n.march ∧ n.march ≤ 56 := by
  have hweek := s.week
  have hh := s.h
  have hl := s.l
  unfold EasterNumbers.march
  split at hweek <;> omega

/-- It is a Sunday: the leap days of the year and of the centuries cancel out. -/
theorem EasterNumbers.Spec.sunday {n : EasterNumbers} {year : Int} (s : n.Spec year) :
    weekday (marchDay year n.march) = 0 := by
  obtain ⟨-, b, c, d, e, -, -, -, i, k, l, -, -, -⟩ := s
  have h4 : year / 4 = 25 * n.b + n.i := by omega
  have h400 : year / 400 = n.d := by omega
  rw [weekday_marchDay, EasterNumbers.march, h4, ← b, h400]
  omega

/-- The month and the day of the month. -/
theorem EasterNumbers.Spec.toDay {n : EasterNumbers} {year : Int} (s : n.Spec year) :
    (⟨year, n.month, n.day⟩ : Date).toDay = marchDay year n.march := by
  have hbounds := s.march_bounds
  have hmonth := s.month
  have hday := s.day
  unfold EasterNumbers.march at hbounds ⊢
  by_cases hm : n.month = 3
  · rw [hm]
    show marchDay year n.day = _
    congr 1
    omega
  · have hm : n.month = 4 := by omega
    rw [hm, toDay_april]
    congr 1
    omega

/-- The day the algorithm computes is the Easter of its year. -/
theorem isEaster_march {year : Int} (hyear : 1500 ≤ year) :
    IsEaster year (marchDay year (easterNumbers year).march) := by
  obtain ⟨s, -⟩ := easterNumbers_spec year (by omega)
  have hmoon := s.moon hyear
  have hweek := s.week
  have hl := s.l
  refine isEaster_of s.sunday ?_ ?_ <;>
  · rw [hmoon, EasterNumbers.march]
    split <;> split at hweek <;> omega

/-! ## The range of dates -/

/-- The local day of a date, if it is one. -/
def dayOf (z : Zone) (d : Option TimeValue) : Option Int := d.map fun t => z.localDay t.val

/-- The days up to the last are days of dates; those after it are not. -/
def dated (n : Int) : Option Int := if n < 100000000 then some n else none

/-- A day that is not at the end of the range, where the zone decides. -/
def Inside (n : Int) : Prop := -99999998 ≤ n ∧ (n ≤ 99999998 ∨ 100000001 ≤ n)

instance (n : Int) : Decidable (Inside n) := inferInstanceAs (Decidable (_ ∧ _))

section Range

variable {z : Zone} {year n : Int} (hnear : z.Near) (hmornings : z.Mornings year)
include hnear hmornings

/-- A morning of the year, put together: it is in its day. -/
theorem dayOf_morning {r : Int} (hn : Inside n) (hyear : (date n).year = year) (h₀ : 0 ≤ r)
    (h₁ : r < 43200000) : dayOf z (timeClip (z.ofLocal (n * msPerDay + r) : Int)) = dated n := by
  have hrange := hnear.ofLocal (n * msPerDay + r)
  have hkeeps : day (z.toLocal (z.ofLocal (n * msPerDay + r))) = day (n * msPerDay + r) :=
    hmornings.keeps n r hyear h₀ h₁
  rw [day_makeDate h₀ (by unfold msPerDay; omega)] at hkeeps
  rw [timeClip_int]
  unfold Inside at hn
  unfold dated
  by_cases hlast : n < 100000000
  · rw [dif_pos (by unfold msPerDay at *; omega), if_pos hlast]
    exact congrArg some hkeeps
  · rw [dif_neg (by unfold msPerDay at *; omega), if_neg hlast]
    rfl

/-- A local midnight is on its day. -/
theorem dayOf_midnight (hn : Inside n) (hyear : (date n).year = year) :
    dayOf z (timeClip (z.ofLocal (n * msPerDay) : Int)) = dated n := by
  have h := dayOf_morning hnear hmornings hn hyear (Int.le_refl 0) (by decide)
  rwa [Int.add_zero] at h

/-- Days are counted from a midnight. -/
theorem dayOf_later {k : Int} (hn : Inside n) (hbefore : n < 100000000)
    (hyear : (date n).year = year)
    (hk : Inside (n + k)) (hyeark : (date (n + k)).year = year) :
    dayOf z (addDaysLocal z (timeClip (z.ofLocal (n * msPerDay) : Int)) k) = dated (n + k) := by
  have hdate := dayOf_midnight hnear hmornings hn hyear
  rw [dated, if_pos hbefore, dayOf, Option.map_eq_some_iff] at hdate
  obtain ⟨t, ht, hlocal⟩ := hdate
  have hearly := hmornings.early n hyear
  rw [← timeClip_intCast ht] at hearly
  rw [ht, addDaysLocal, Option.bind_some, z.addDays_eq, z.toLocal_add, hlocal]
  exact dayOf_morning hnear hmornings hk hyeark (Int.emod_nonneg _ (by decide)) hearly

end Range

/-- The last year that has dates. -/
theorem newYear_275760 : newYear 275760 = 99999744 := by decide

/-- The years that have dates, since the reform. -/
theorem newYear_range {year : Int} (hyear : 1583 ≤ year) (hlast : year ≤ 275760) :
    -141349 ≤ newYear year ∧ newYear year ≤ 99999744 := by
  have hfirst : newYear 1583 = -141349 := by decide +kernel
  have h₁ := newYear_mono hyear
  have h₂ := newYear_mono hlast
  rw [newYear_275760] at h₂
  omega

/-- A day in spring. -/
theorem marchDay_range (year : Int) {march : Int} (h : 22 ≤ march ∧ march ≤ 56) :
    newYear year + 80 ≤ marchDay year march ∧ marchDay year march ≤ newYear year + 115 := by
  have hs : ∀ leap, monthStart leap 3 = if leap then 60 else 59 := by decide
  unfold marchDay Date.toDay
  dsimp only
  rw [hs]
  split <;> omega

/-- Three hundred days after new year the year is still the same. -/
theorem year_spring {year n : Int} (h₁ : newYear year ≤ n) (h₂ : n ≤ newYear year + 300) :
    (date n).year = year := by
  have hsucc := newYear_succ year
  have hlen : 365 ≤ yearLength year := by
    unfold yearLength
    split <;> decide
  exact yearOf_eq h₁ (by omega)

/-- The function gives the local midnight of the day, from the year 100 on. -/
theorem easterSunday_eq (z : Zone) {year : Int} (hyear : 100 ≤ year) : easterSunday z year =
    timeClip (z.ofLocal (marchDay year (easterNumbers year).march * msPerDay) : Int) := by
  obtain ⟨s, -⟩ := easterNumbers_spec year (by omega)
  have hbounds := s.march_bounds
  have hmonth := s.month
  unfold EasterNumbers.march at hbounds
  unfold easterSunday
  rw [z.newDate_eq hyear (by omega) (by omega), Int.sub_add_cancel, s.toDay]

/-- **`easterSunday` is the Gregorian computus** up to the last year that has dates: a Sunday
between 22 March and 25 April, the first after the Paschal full moon, and no division is one of a
negative number. -/
theorem easterSunday_computus (z : Zone) {year : Int} (hnear : z.Near) (hmornings : z.Mornings year)
    (hyear : 1583 ≤ year) (hlast : year ≤ 275760) : ∃ easter, easterSunday z year = some easter ∧
      weekday (z.localDay easter.val) = 0 ∧
      (⟨year, 3, 22⟩ : Date).toDay ≤ z.localDay easter.val ∧
      z.localDay easter.val ≤ (⟨year, 4, 25⟩ : Date).toDay ∧
      IsEaster year (z.localDay easter.val) ∧ ∀ x ∈ dividends year, 0 ≤ x := by
  obtain ⟨s, hdividends⟩ := easterNumbers_spec year (by omega)
  have hbounds := s.march_bounds
  have hrange := newYear_range hyear hlast
  have hspring := marchDay_range year hbounds
  have hday := dayOf_midnight hnear hmornings (n := marchDay year (easterNumbers year).march)
    (by unfold Inside; omega) (year_spring (by omega) (by omega))
  rw [← easterSunday_eq z (by omega), dated, if_pos (by omega), dayOf,
    Option.map_eq_some_iff] at hday
  obtain ⟨easter, heaster, hlocal⟩ := hday
  refine ⟨easter, heaster, ?_⟩
  rw [hlocal]
  refine ⟨s.sunday, ?_, ?_, isEaster_march (by omega), hdividends⟩
  · exact marchDay_mono hbounds.1
  · rw [toDay_april]
    exact marchDay_mono hbounds.2

/-- 23 April 2000. -/
theorem easterSunday_computus_2000 : IsEaster 2000 (⟨2000, 4, 23⟩ : Date).toDay := by
  obtain ⟨easter, heaster, -, -, -, h, -⟩ := easterSunday_computus (Zone.fixed 3600000)
    (Zone.near_fixed (by decide)) (Zone.mornings_fixed _ _) (show 1583 ≤ 2000 by decide) (by decide)
  have hday : dayOf (Zone.fixed 3600000) (easterSunday (Zone.fixed 3600000) 2000) =
      some (⟨2000, 4, 23⟩ : Date).toDay := by decide
  rw [heaster, dayOf, Option.map_some] at hday
  exact Option.some.inj hday ▸ h

/-- **The year after the last date** has no Easter. -/
theorem easterSunday_after_last : easterSunday (Zone.fixed 0) 275761 = none := by decide

/-! ## Holidays -/

/-- The days of the holidays in a year with that Easter. -/
def holidayDays (year easter : Int) : List (Int × String) :=
  [((⟨year, 1, 1⟩ : Date).toDay, "Neujahr"),
    ((⟨year, 1, 2⟩ : Date).toDay, "Berchtoldstag"),
    (easter - 2, "Karfreitag"),
    (easter + 1, "Ostermontag"),
    (easter + 39, "Auffahrt"),
    (easter + 50, "Pfingstmontag"),
    ((⟨year, 8, 1⟩ : Date).toDay, "Bundesfeier"),
    ((⟨year, 12, 25⟩ : Date).toDay, "Weihnachten"),
    ((⟨year, 12, 26⟩ : Date).toDay, "Stephanstag")]

/-- A day is a holiday of the year it is in. -/
def IsHoliday (n : Int) (name : String) : Prop :=
  ∃ easter, IsEaster (date n).year easter ∧ (n, name) ∈ holidayDays (date n).year easter

/-- A year has one Easter. -/
theorem isEaster_unique {y m n : Int} (hm : IsEaster y m) (hn : IsEaster y n) : m = n := by
  obtain ⟨moon, hmoon, hm⟩ := hm
  obtain ⟨moon', hmoon', hn⟩ := hn
  obtain rfl := hmoon.unique hmoon'
  exact hm.unique hn

/-- The holidays follow one another, and are days of their year. -/
theorem holidayDays_bounds (year : Int) {march : Int} (h : 22 ≤ march ∧ march ≤ 56) :
    ((holidayDays year (marchDay year march)).map Prod.fst).Pairwise (· < ·) ∧
      ∀ e ∈ holidayDays year (marchDay year march),
        newYear year ≤ e.1 ∧ e.1 < newYear (year + 1) := by
  have hlen := newYear_succ year
  have hlast := monthStart_year year
  have hs : ∀ leap, monthStart leap 3 = (if leap then 60 else 59) ∧
      monthStart leap 8 = (if leap then 213 else 212) ∧
        monthStart leap 12 = (if leap then 335 else 334) ∧
      monthStart leap 13 = (if leap then 366 else 365) := by decide
  obtain ⟨h3, h8, h12, h13⟩ := hs (isLeap year)
  unfold holidayDays marchDay Date.toDay
  rw [hlen, ← hlast]
  simp only [List.map_cons, List.map_nil, List.pairwise_cons, List.forall_mem_cons,
    List.not_mem_nil,
    false_imp_iff, implies_true, and_true, List.Pairwise.nil, monthStart_one, h3, h8, h12, h13]
  cases isLeap year <;> simp only [Bool.false_eq_true, if_false, if_true] <;> omega

/-- Two numbers are padded differently. -/
theorem pad_inj {m n : Int} (hm : 0 ≤ m) (hn : 0 ≤ n) (h : pad m = pad n) : m = n := by
  unfold pad at h
  have := Decimal.zeroPad_injective (String.ofList_injective h)
  omega

/-- There is no dash in a padded number. -/
theorem not_dash_pad (n : Int) : '-' ∉ (pad n).toList := by
  unfold pad
  rw [String.toList_ofList]
  exact not_dash_zeroPad

/-- The key of a local day, `none` that of a date that is none. -/
def dayKey : Option Int → String
  | some n => toString (date n).year ++ "-" ++ pad (date n).month ++ "-" ++ pad (date n).day
  | none => "NaN-NaN-NaN"

/-- The key of a date is the key of its day, or of no day. -/
theorem key_eq (z : Zone) (d : Option TimeValue) : key z d = dayKey (dayOf z d) := by
  cases d with
  | none => rfl
  | some t =>
    simp only [key, dayOf, dayKey, Option.map_some, Zone.getFullYear, Zone.getMonth, Zone.getDate,
      Int.sub_add_cancel]

/-- Days from year 0 on have different keys. -/
theorem dayKey_inj {m n : Int} (hm : 0 ≤ (date m).year) (hn : 0 ≤ (date n).year)
    (h : dayKey (some m) = dayKey (some n)) : m = n := by
  have hbounds : ∀ n, 0 ≤ (date n).month ∧ 0 ≤ (date n).day := by
    intro n
    obtain ⟨⟨hm, -⟩, hd, -⟩ := valid_date n
    omega
  unfold dayKey at h
  obtain ⟨h, hday⟩ := Decimal.behind_dash_inj (not_dash_pad _) (not_dash_pad _) h
  obtain ⟨hyear, hmonth⟩ := Decimal.behind_dash_inj (not_dash_pad _) (not_dash_pad _) h
  have hmonth := pad_inj (hbounds m).1 (hbounds n).1 hmonth
  have hday := pad_inj (hbounds m).2 (hbounds n).2 hday
  obtain ⟨y, hy⟩ := Int.eq_ofNat_of_zero_le hm
  obtain ⟨y', hy'⟩ := Int.eq_ofNat_of_zero_le hn
  rw [hy, hy'] at hyear
  have hyear : y = y' := Decimal.toString_inj hyear
  refine date_injective ?_
  generalize date m = d at *
  generalize date n = d' at *
  cases d
  cases d'
  simp only [Date.mk.injEq] at *
  omega

/-- A day of the calendar has not the key of the date that is none. -/
theorem dayKey_ne_nan {n : Int} (hn : 0 ≤ (date n).year) : dayKey (some n) ≠ dayKey none := by
  intro h
  have hnan : dayKey none = "NaN" ++ "-" ++ "NaN" ++ "-" ++ "NaN" := rfl
  rw [hnan] at h
  unfold dayKey at h
  obtain ⟨h, -⟩ := Decimal.behind_dash_inj (not_dash_pad _) (by decide) h
  obtain ⟨hyear, -⟩ := Decimal.behind_dash_inj (not_dash_pad _) (by decide) h
  obtain ⟨y, hy⟩ := Int.eq_ofNat_of_zero_le hn
  rw [hy] at hyear
  have hdigit := Decimal.isDigit_of_mem_toString (n := y) (c := 'N')
    (by rw [show toString y = "NaN" from hyear]; decide)
  exact absurd hdigit (by decide)

/-- A key has the value that it was set to, if that is one. -/
theorem lookup_eq_some_iff_mem {α : Type} {m : List (String × α)} {k : String} {v : α}
    (h : ∀ v v', (k, v) ∈ m → (k, v') ∈ m → v = v') : m.lookup k = some v ↔ (k, v) ∈ m := by
  induction m with
  | nil => simp
  | cons e m ih =>
    obtain ⟨k', v'⟩ := e
    by_cases hk : k = k'
    · subst hk
      rw [List.lookup_cons_self, Option.some.injEq]
      constructor
      · rintro rfl
        exact List.mem_cons_self
      · exact fun hv => h v' v List.mem_cons_self hv
    · rw [List.lookup_cons, beq_false_of_ne hk, List.mem_cons, Prod.mk.injEq]
      rw [ih fun v v' hv hv' => h v v' (List.mem_cons_of_mem _ hv) (List.mem_cons_of_mem _ hv')]
      exact ⟨Or.inr, fun he => he.resolve_left fun hp => hk hp.1⟩

/-- The map holds the holidays, a later entry over an earlier one. -/
theorem bernHolidays_eq (z : Zone) (year : Int) :
    bernHolidays z year = ((holidays z year).map fun e => (key z e.1, e.2)).reverse := rfl

/-- The holidays of a year are in that year. -/
theorem year_of_mem_holidayDays {year march : Int} (h : 22 ≤ march ∧ march ≤ 56) {e : Int × String}
    (he : e ∈ holidayDays year (marchDay year march)) : (date e.1).year = year := by
  obtain ⟨h₁, h₂⟩ := (holidayDays_bounds year h).2 e he
  exact yearOf_eq h₁ h₂

/-- No holiday is at the end of the range. -/
theorem inside_holidayDays {year : Int} (hyear : 1583 ≤ year) (hlast : year ≤ 275760) :
    ∀ e ∈ holidayDays year (marchDay year (easterNumbers year).march), Inside e.1 := by
  rcases eq_or_lt_of_le hlast with rfl | hbefore
  · decide
  · intro e he
    obtain ⟨s, -⟩ := easterNumbers_spec year (by omega)
    obtain ⟨h₁, h₂⟩ := (holidayDays_bounds year s.march_bounds).2 e he
    have hfirst := newYear_range hyear hlast
    have hnext : -141349 ≤ newYear (year + 1) ∧ newYear (year + 1) ≤ 99999744 :=
      newYear_range (by omega) (by omega)
    unfold Inside
    omega

/-- The holidays are on the days the calendar has for them. -/
theorem dayOf_holidays {z : Zone} {year : Int} (hnear : z.Near) (hmornings : z.Mornings year)
    (hyear : 1583 ≤ year) (hlast : year ≤ 275760) :
    (holidays z year).map (fun e => (dayOf z e.1, e.2)) =
      (holidayDays year (marchDay year (easterNumbers year).march)).map fun e =>
        (dated e.1, e.2) := by
  obtain ⟨s, -⟩ := easterNumbers_spec year (by omega)
  have hrange := newYear_range hyear hlast
  have hspring := marchDay_range year s.march_bounds
  have hinside := inside_holidayDays hyear hlast
  have hyears : ∀ e ∈ holidayDays year (marchDay year (easterNumbers year).march),
      (date e.1).year = year := fun e => year_of_mem_holidayDays s.march_bounds
  unfold holidayDays at hinside hyears
  simp only [List.forall_mem_cons] at hinside hyears
  obtain ⟨i₁, i₂, i₃, i₄, i₅, i₆, i₇, i₈, i₉, -⟩ := hinside
  obtain ⟨y₁, y₂, y₃, y₄, y₅, y₆, y₇, y₈, y₉, -⟩ := hyears
  have heaster : Inside (marchDay year (easterNumbers year).march) := by
    unfold Inside
    omega
  have hdate : ∀ month dt, 0 ≤ month → month < 12 →
      Inside (⟨year, month + 1, dt⟩ : Date).toDay →
        (date (⟨year, month + 1, dt⟩ : Date).toDay).year = year →
      dayOf z (z.newDate year month dt) = dated (⟨year, month + 1, dt⟩ : Date).toDay := by
    intro month dt h₀ h₁ hi hy
    rw [z.newDate_eq (by omega) h₀ h₁]
    exact dayOf_midnight hnear hmornings hi hy
  have hlater : ∀ k, Inside (marchDay year (easterNumbers year).march + k) →
      (date (marchDay year (easterNumbers year).march + k)).year = year →
      dayOf z (addDaysLocal z (easterSunday z year) k) =
        dated (marchDay year (easterNumbers year).march + k) := by
    intro k hi hy
    rw [easterSunday_eq z (by omega)]
    exact dayOf_later hnear hmornings heaster (by omega) (year_spring (by omega) (by omega)) hi hy
  unfold holidays holidayDays
  simp only [List.map_cons, List.map_nil]
  rw [hdate 0 1 (by decide) (by decide) i₁ y₁, hdate 0 2 (by decide) (by decide) i₂ y₂,
    hlater (-2) i₃ y₃, hlater 1 i₄ y₄, hlater 39 i₅ y₅, hlater 50 i₆ y₆,
    hdate 7 1 (by decide) (by decide) i₇ y₇, hdate 11 25 (by decide) (by decide) i₈ y₈,
    hdate 11 26 (by decide) (by decide) i₉ y₉]
  rfl

/-- The map has what was set, under the keys of the days. -/
theorem mem_bernHolidays {z : Zone} {year : Int} (hnear : z.Near) (hmornings : z.Mornings year)
    (hyear : 1583 ≤ year) (hlast : year ≤ 275760) {k name : String} :
    (k, name) ∈ bernHolidays z year ↔
      ∃ n, (n, name) ∈ holidayDays year (marchDay year (easterNumbers year).march) ∧
        dayKey (dated n) = k := by
  have hkeys : (holidays z year).map (fun e => (key z e.1, e.2)) =
      ((holidays z year).map fun e => (dayOf z e.1, e.2)).map fun e => (dayKey e.1, e.2) := by
    rw [List.map_map]
    exact List.map_congr_left fun e _ => by rw [key_eq]; rfl
  rw [bernHolidays_eq, List.mem_reverse, hkeys, dayOf_holidays hnear hmornings hyear hlast,
    List.map_map, List.mem_map]
  constructor
  · rintro ⟨⟨n, name'⟩, hmem, he⟩
    obtain ⟨rfl, rfl⟩ := Prod.mk.inj he
    exact ⟨n, hmem, rfl⟩
  · rintro ⟨n, hmem, rfl⟩
    exact ⟨(n, name), hmem, rfl⟩

/-- What the map has for a day of the range. -/
theorem lookup_bernHolidays {z : Zone} {year : Int} (hnear : z.Near) (hmornings : z.Mornings year)
    (hyear : 1583 ≤ year) (hlast : year ≤ 275760) {n : Int} (hn : 0 ≤ (date n).year)
    (hrange : n ≤ 100000000) {name : String} :
    (bernHolidays z year).lookup (dayKey (some n)) = some name ↔
      (n, name) ∈ holidayDays year (marchDay year (easterNumbers year).march) := by
  obtain ⟨s, -⟩ := easterNumbers_spec year (by omega)
  obtain ⟨hpair, -⟩ := holidayDays_bounds year s.march_bounds
  -- the key is that of no other day, and of no holiday that is not dated
  have hmem : ∀ name, (dayKey (some n), name) ∈ bernHolidays z year ↔
      (n, name) ∈ holidayDays year (marchDay year (easterNumbers year).march) := by
    intro name
    rw [mem_bernHolidays hnear hmornings hyear hlast]
    constructor
    · rintro ⟨m, hm, hkey⟩
      have hmyear := year_of_mem_holidayDays s.march_bounds hm
      dsimp only at hmyear
      unfold dated at hkey
      split at hkey
      · rwa [← dayKey_inj (by omega) hn hkey]
      · exact absurd hkey.symm (dayKey_ne_nan hn)
    · intro hm
      have hinside := inside_holidayDays hyear hlast _ hm
      unfold Inside at hinside
      exact ⟨n, hm, by rw [dated, if_pos (by omega)]⟩
  rw [lookup_eq_some_iff_mem, hmem]
  intro v v' hv hv'
  rw [hmem] at hv hv'
  exact (Prod.mk.inj (List.inj_on_of_nodup_map
    (hpair.imp fun h => h.ne) hv hv' rfl)).2

/-- The holidays of a year, for its days. -/
theorem isHoliday_iff {n : Int} (hyear : 1500 ≤ (date n).year) {name : String} : IsHoliday n name ↔
    (n, name) ∈ holidayDays (date n).year
      (marchDay (date n).year (easterNumbers (date n).year).march) := by
  constructor
  · rintro ⟨easter, heaster, hmem⟩
    rw [isEaster_unique heaster (isEaster_march hyear)] at hmem
    exact hmem
  · intro hmem
    exact ⟨_, isEaster_march hyear, hmem⟩

/-! ## Warnings -/

/-- What there is to say about a day. -/
def Warned (n : Int) (w : String) : Prop :=
  weekday n = 5 ∧ w = fridayText ∨ (∃ today, IsHoliday n today ∧ w = holidayText today) ∨
    ∃ next, IsHoliday (n + 1) next ∧ w = dayBeforeText next

/-- The warnings say it, and nothing else. -/
def Exact (z : Zone) (t : TimeValue) : Prop :=
  ∀ w, w ∈ scheduleWarnings z t ↔ Warned (z.localDay t.val) w

/-- The last day of a year. -/
def Sylvester (d : Date) : Prop := d.month = 12 ∧ d.day = 31

instance (d : Date) : Decidable (Sylvester d) := inferInstanceAs (Decidable (_ ∧ _))

/-- What can be among the warnings. -/
theorem mem_scheduleWarnings {z : Zone} {t : TimeValue} {w : String} : w ∈ scheduleWarnings z t ↔
    weekday (z.localDay t.val) = 5 ∧ w = fridayText ∨
      (∃ today, (bernHolidays z (z.getFullYear t.val)).lookup (key z (some t)) = some today ∧
        w = holidayText today) ∨
      ∃ next, (bernHolidays z (z.getFullYear t.val)).lookup (key z (addDaysLocal z (some t) 1)) =
        some next ∧ w = dayBeforeText next := by
  have hfriday : w ∈ (if z.getDay t.val = 5 then [fridayText] else []) ↔
      weekday (z.localDay t.val) = 5 ∧ w = fridayText := by
    unfold Zone.getDay
    split <;> simp [*]
  rw [← hfriday]
  unfold scheduleWarnings
  dsimp only
  generalize (bernHolidays z (z.getFullYear t.val)).lookup (key z (some t)) = today
  generalize (bernHolidays z (z.getFullYear t.val)).lookup
    (key z (addDaysLocal z (some t) 1)) = next
  generalize (if z.getDay t.val = 5 then [fridayText] else []) = out
  cases today <;> cases next <;> simp

/-- The other texts begin with another letter. -/
theorem dayBeforeText_ne (next : String) :
    dayBeforeText next ≠ fridayText ∧ ∀ today, dayBeforeText next ≠ holidayText today := by
  have hday : (dayBeforeText next).toList.head? = some 'T' := by
    show ("Tag vor Berner Feiertag (" ++ next ++ ")").toList.head? = _
    rw [String.toList_append, String.toList_append]
    rfl
  have hfriday : fridayText.toList.head? = some 'F' := by decide
  have hholiday : ∀ today, (holidayText today).toList.head? = some 'B' := by
    intro today
    show ("Berner Feiertag: " ++ today).toList.head? = _
    rw [String.toList_append]
    rfl
  constructor
  · intro h
    rw [h, hfriday] at hday
    exact absurd hday (by decide)
  · intro today h
    rw [h, hholiday today] at hday
    exact absurd hday (by decide)

/-! ## The next day -/

/-- The next day of a date is one. -/
def NextIsDate (z : Zone) (t : TimeValue) : Prop :=
  z.ofLocal (z.toLocal t.val + msPerDay) ≤ 8640000000000000

instance (z : Zone) (t : TimeValue) : Decidable (NextIsDate z t) :=
  inferInstanceAs (Decidable (_ ≤ _))

section Next

variable {z : Zone} {t : TimeValue} (hnear : z.Near)
  (hmornings : z.Mornings (date (z.localDay t.val)).year)
  (hyear : 1583 ≤ (date (z.localDay t.val)).year) (hnext : z.Keeps (z.toLocal t.val + msPerDay))

include hnear

/-- Local days of dates. -/
theorem localDay_range (t : TimeValue) : z.localDay t.val ≤ 100000000 := by
  have h := hnear.toLocal t.val
  have hlast := t.property.2
  unfold Zone.localDay day msPerDay at *
  omega

/-- A date has no later year than the last. -/
theorem yearOf_localDay (t : TimeValue) : (date (z.localDay t.val)).year ≤ 275760 := by
  have h := yearOf_mono (localDay_range hnear t)
  have hlast : yearOf 100000000 = 275760 := by decide
  exact hlast ▸ h

include hyear

theorem localDay_reform : -141349 ≤ z.localDay t.val := by
  have hrange := newYear_range hyear (yearOf_localDay hnear t)
  have hspec := newYear_yearOf (z.localDay t.val)
  exact hrange.1.trans hspec.1

/-- The date that is a day later is on the next day, if it is one. -/
theorem dayOf_next (hnext : z.Keeps (z.toLocal t.val + msPerDay)) :
    dayOf z (addDaysLocal z (some t) 1) =
      if NextIsDate z t then some (z.localDay t.val + 1) else none := by
  have hfirst := localDay_reform hnear hyear
  have hrange := hnear.ofLocal (z.toLocal t.val + msPerDay)
  rw [addDaysLocal, Option.bind_some, z.addDays_eq, Int.one_mul, timeClip_int]
  by_cases h : NextIsDate z t
  · have hlow : -8640000000000000 ≤ z.ofLocal (z.toLocal t.val + msPerDay) := by
      unfold Zone.localDay day msPerDay at *
      omega
    rw [dif_pos ⟨hlow, h⟩, if_pos h]
    have hday : day (z.toLocal t.val + msPerDay) = z.localDay t.val + 1 := by
      unfold Zone.localDay day msPerDay
      omega
    exact congrArg some (hnext.trans hday)
  · rw [dif_neg fun h' => h h'.2, if_neg h]
    rfl

omit hyear in
/-- Only at the end of the last year the next day is none. -/
theorem last_of_not_nextIsDate (h : ¬ NextIsDate z t) : 99999998 ≤ z.localDay t.val := by
  have hrange := hnear.ofLocal (z.toLocal t.val + msPerDay)
  unfold NextIsDate at h
  unfold Zone.localDay day msPerDay at *
  omega

include hmornings

/-- The holidays of the date and of the next day. -/
theorem lookup_today {name : String} :
    (bernHolidays z (z.getFullYear t.val)).lookup (key z (some t)) = some name ↔
      IsHoliday (z.localDay t.val) name := by
  rw [isHoliday_iff (by omega), key_eq]
  exact lookup_bernHolidays hnear hmornings hyear (yearOf_localDay hnear t) (by omega)
    (localDay_range hnear t)

include hnext

/-- Where the next day is a date, its holiday is one of the year of the day itself. -/
theorem lookup_next {name : String} (hdate : NextIsDate z t) :
    (bernHolidays z (z.getFullYear t.val)).lookup (key z (addDaysLocal z (some t) 1)) = some name ↔
      (z.localDay t.val + 1, name) ∈ holidayDays (date (z.localDay t.val)).year
        (marchDay (date (z.localDay t.val)).year
          (easterNumbers (date (z.localDay t.val)).year).march) := by
  have hmono : (date (z.localDay t.val)).year ≤ (date (z.localDay t.val + 1)).year :=
    yearOf_mono (by omega)
  have hday := dayOf_next hnear hyear hnext
  rw [if_pos hdate] at hday
  -- the next day is the local day of a date, too
  have hle : z.localDay t.val + 1 ≤ 100000000 := by
    obtain ⟨t', -, hlocal⟩ := Option.map_eq_some_iff.mp hday
    exact hlocal ▸ localDay_range hnear t'
  rw [key_eq, hday]
  exact lookup_bernHolidays hnear hmornings hyear (yearOf_localDay hnear t) (by omega) hle

/-- Within a year the next day is looked up in the right year. -/
theorem exact_of_same_year (hdate : NextIsDate z t)
    (hsame : (date (z.localDay t.val + 1)).year = (date (z.localDay t.val)).year) : Exact z t := by
  intro w
  rw [mem_scheduleWarnings]
  unfold Warned
  simp only [lookup_today hnear hmornings hyear, lookup_next hnear hmornings hyear hnext hdate]
  simp only [isHoliday_iff (show 1500 ≤ (date (z.localDay t.val + 1)).year by omega), hsame]

/-- The first day of the next year is no holiday of this one. -/
theorem not_exact_of_next_year (hdate : NextIsDate z t)
    (hnewYear : z.localDay t.val + 1 = newYear ((date (z.localDay t.val)).year + 1)) :
    ¬ Exact z t := by
  have hyear' : (date (z.localDay t.val + 1)).year = (date (z.localDay t.val)).year + 1 :=
    year_spring (by omega) (by omega)
  -- it is New Year's Day
  have hday : z.localDay t.val + 1 = (⟨(date (z.localDay t.val)).year + 1, 1, 1⟩ : Date).toDay := by
    rw [hnewYear, Date.toDay, monthStart_one]
    dsimp only
    omega
  have hholiday : IsHoliday (z.localDay t.val + 1) "Neujahr" := by
    rw [isHoliday_iff (by omega), hyear', hday]
    exact List.mem_cons_self
  intro h
  have hwarned := (h (dayBeforeText "Neujahr")).mpr (Or.inr (Or.inr ⟨_, hholiday, rfl⟩))
  rcases mem_scheduleWarnings.mp hwarned with ⟨-, hw⟩ | ⟨today, -, hw⟩ | ⟨next, hlookup, -⟩
  · exact (dayBeforeText_ne _).1 hw
  · exact (dayBeforeText_ne _).2 today hw
  · rw [lookup_next hnear hmornings hyear hnext hdate] at hlookup
    obtain ⟨s, -⟩ := easterNumbers_spec (date (z.localDay t.val)).year (by omega)
    have hsame := year_of_mem_holidayDays s.march_bounds hlookup
    dsimp only at hsame
    omega

/-- The holidays at the end of the last year are no dates: their key is that of the day after
the last date. -/
theorem not_exact_of_no_next (hdate : ¬ NextIsDate z t) : ¬ Exact z t := by
  have hlow := last_of_not_nextIsDate hnear hdate
  have hhigh := localDay_range hnear t
  have hlastYear : ∀ n : Int, 99999998 ≤ n → n ≤ 100000001 → (date n).year = 275760 := by
    have h₁ : yearOf 99999998 = 275760 := by decide
    have h₂ : yearOf 100000001 = 275760 := by decide
    intro n hn hn'
    exact le_antisymm (h₂ ▸ yearOf_mono hn') (h₁ ▸ yearOf_mono hn)
  have hthis := hlastYear (z.localDay t.val) hlow (by omega)
  rw [hthis] at hmornings
  have hday := dayOf_next hnear hyear hnext
  rw [if_neg hdate] at hday
  -- whatever the map has for it, it has something
  have hset : ∃ next,
      (bernHolidays z (z.getFullYear t.val)).lookup (key z (addDaysLocal z (some t) 1)) =
        some next := by
    rw [Zone.getFullYear, hthis, key_eq, hday]
    have hmem : (dayKey none, "Stephanstag") ∈ bernHolidays z 275760 :=
      (mem_bernHolidays hnear hmornings (by decide) (by decide)).mpr
        ⟨100000104, by decide, rfl⟩
    cases hlookup : (bernHolidays z 275760).lookup (dayKey none) with
    | some next => exact ⟨next, rfl⟩
    | none => exact absurd (List.lookup_eq_none_iff.mp hlookup _ hmem) (by simp)
  obtain ⟨next, hset⟩ := hset
  intro h
  have hwarned :=
    (h (dayBeforeText next)).mp (mem_scheduleWarnings.mpr (Or.inr (Or.inr ⟨next, hset, rfl⟩)))
  rcases hwarned with ⟨-, hw⟩ | ⟨today, -, hw⟩ | ⟨next', hholiday, -⟩
  · exact (dayBeforeText_ne _).1 hw
  · exact (dayBeforeText_ne _).2 today hw
  · -- in September there are no holidays
    have hnextYear := hlastYear (z.localDay t.val + 1) (by omega) (by omega)
    rw [isHoliday_iff (by omega), hnextYear] at hholiday
    have hinside := inside_holidayDays (by decide) (by decide) _ hholiday
    have hfree : ∀ e ∈ holidayDays 275760 (marchDay 275760 (easterNumbers 275760).march),
        e.1 < 99999998 ∨ 100000001 < e.1 := by decide
    have := hfree _ hholiday
    dsimp only at this
    omega

end Next

theorem valid_sylvester (y : Int) : (⟨y, 12, 31⟩ : Date).Valid := by
  have hlen : monthLength (isLeap y) 12 = 31 := by cases isLeap y <;> decide
  refine ⟨⟨?_, ?_⟩, ?_, ?_⟩ <;> dsimp only <;> omega

/-- A day is the last of its year when the next one begins the next. -/
theorem sylvester_iff (n : Int) : Sylvester (date n) ↔ n + 1 = newYear ((date n).year + 1) := by
  have hlast : (⟨(date n).year, 12, 31⟩ : Date).toDay + 1 = newYear ((date n).year + 1) := by
    have hdec : monthStart (isLeap (date n).year) 13 = monthStart
      (isLeap (date n).year) 12 + 31 := by
      cases isLeap (date n).year <;> decide
    rw [newYear_succ, ← monthStart_year, hdec, Date.toDay]
    dsimp only
    omega
  rw [← hlast]
  unfold Sylvester
  constructor
  · rintro ⟨hm, hd⟩
    rw [← hm, ← hd, day_date]
  · intro h
    have hn : (⟨(date n).year, 12, 31⟩ : Date).toDay = n := by omega
    have hdate := date_day (valid_sylvester (date n).year)
    rw [hn] at hdate
    rw [hdate]
    exact ⟨rfl, rfl⟩

/-- **Schedule warnings are complete and exact** on every day but the last of a year, and but the
last that is a date. -/
theorem scheduleWarnings_exact_iff {z : Zone} (hnear : z.Near) {t : TimeValue}
    (hyear : 1583 ≤ (date (z.localDay t.val)).year)
    (hmornings : z.Mornings (date (z.localDay t.val)).year)
    (hnext : z.Keeps (z.toLocal t.val + msPerDay)) :
    Exact z t ↔ ¬ Sylvester (date (z.localDay t.val)) ∧
      z.ofLocal (z.toLocal t.val + msPerDay) ≤ 8640000000000000 := by
  change _ ↔ _ ∧ NextIsDate z t
  rw [sylvester_iff]
  by_cases hdate : NextIsDate z t
  · rw [and_iff_left hdate]
    constructor
    · intro h hnewYear
      exact not_exact_of_next_year hnear hmornings hyear hnext hdate hnewYear h
    · intro hnot
      have hspec := newYear_yearOf (z.localDay t.val)
      have hlt : z.localDay t.val + 1 < newYear (yearOf (z.localDay t.val) + 1) :=
        lt_of_le_of_ne hspec.2 hnot
      have hlow : newYear (yearOf (z.localDay t.val)) ≤ z.localDay t.val + 1 := by omega
      exact exact_of_same_year hnear hmornings hyear hnext hdate (yearOf_eq hlow hlt)
  · exact iff_of_false (not_exact_of_no_next hnear hmornings hyear hnext hdate) fun h => hdate h.2

/-- 31 July 2026, a Friday before a holiday. -/
theorem scheduleWarnings_exact_iff_july : Exact (Zone.fixed 7200000) ⟨1785448800000, by decide⟩ :=
  (scheduleWarnings_exact_iff (Zone.near_fixed (by decide)) (by decide)
    (Zone.mornings_fixed _ _) (Zone.keeps_fixed _ _)).mpr (by decide)

/-- **The last day of 2026**: New Year's Day is not looked for in the next year. -/
theorem sylvester_not_warned : ¬ Exact (Zone.fixed 3600000) ⟨1798675200000, by decide⟩ :=
  not_exact_of_next_year (Zone.near_fixed (by decide)) (Zone.mornings_fixed _ _) (by decide +kernel)
    (Zone.keeps_fixed _ _) (by decide) (by decide)

/-- The last date is warned of as the day before a holiday in December. -/
theorem last_day_warned : ¬ Exact (Zone.fixed 0) ⟨8640000000000000, by decide⟩ :=
  not_exact_of_no_next (Zone.near_fixed (by decide)) (Zone.mornings_fixed _ _) (by decide)
    (Zone.keeps_fixed _ _) (by decide)

end ReleaseRadar.Frontend.ScheduleRules
