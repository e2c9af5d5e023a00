import Mathlib.Data.Rat.Floor
import ReleaseRadar.Lib.Decimal
import ReleaseRadar.Lib.Gregorian

/-!
# Dates of JavaScript

A time value is a whole number of milliseconds since 1970, a hundred million days to either side
at most (`TimeValue`); `timeClip` makes a number into one, or into the date that is none. The
local getters and setters read it in a time zone (`Zone`): two functions between time values and
local ones. They may jump, and what is asked of them is said where it is needed: `Near`, `Keeps`,
`Mornings`.

* `addDays_eq`, `newDate_eq` — the time value of a date that is put together;
* `addDays_fixed` — where the offset is fixed, adding days adds their milliseconds;
* `dayText_eq_iff`, `sameText_convex` — the text of an instant cut after ten characters: the
  day, or in far years the month, and in the order of the instants those of one text follow
  one another.
-/

namespace ReleaseRadar.Lib.JsDate

open Gregorian Decimal

def msPerDay : Int := 86400000

/-- `Day(t)`. -/
def day (t : Int) : Int := t / msPerDay

/-- `TimeWithinDay(t)`. -/
def timeWithinDay (t : Int) : Int := t % msPerDay

theorem day_makeDate {n r : Int} (h₀ : 0 ≤ r) (h₁ : r < msPerDay) : day (n * msPerDay + r) = n := by
  unfold day msPerDay at *
  omega

theorem day_mono {s t : Int} (h : s ≤ t) : day s ≤ day t := by
  unfold day msPerDay
  omega

/-! ## Time values -/

/-- The time values of a `Date` that is valid. -/
abbrev TimeValue := { t : Int // -8640000000000000 ≤ t ∧ t ≤ 8640000000000000 }

instance : LinearOrder TimeValue := @Subtype.instLinearOrder Int Int.instLinearOrder _

/-- `TimeClip(x)`: a fraction is cut off; there is no date out of range. -/
def timeClip (x : ℚ) : Option TimeValue :=
  if h : -8640000000000000 ≤ x ∧ x ≤ 8640000000000000 then
    some ⟨if 0 ≤ x then ⌊x⌋ else ⌈x⌉, by
      have hlow : ((-8640000000000000 : Int) : ℚ) ≤ x := by exact_mod_cast h.1
      have hhigh : x ≤ ((8640000000000000 : Int) : ℚ) := by exact_mod_cast h.2
      split
      · exact ⟨Int.le_floor.mpr hlow, by exact_mod_cast (Int.floor_le x).trans hhigh⟩
      · exact ⟨by exact_mod_cast hlow.trans (Int.le_ceil x), Int.ceil_le.mpr hhigh⟩⟩
  else none

/-- A whole number stays as it is. -/
theorem timeClip_val (t : TimeValue) : timeClip (t.val : ℚ) = some t := by
  obtain ⟨n, h₁, h₂⟩ := t
  unfold timeClip
  rw [dif_pos (by exact ⟨by exact_mod_cast h₁, by exact_mod_cast h₂⟩)]
  refine congrArg some (Subtype.ext ?_)
  show (if 0 ≤ (n : ℚ) then ⌊(n : ℚ)⌋ else ⌈(n : ℚ)⌉) = n
  rw [Int.floor_intCast, Int.ceil_intCast, ite_self]

theorem timeClip_int (n : Int) : timeClip (n : ℚ) =
    if h : -8640000000000000 ≤ n ∧ n ≤ 8640000000000000 then some ⟨n, h⟩ else none := by
  by_cases h : -8640000000000000 ≤ n ∧ n ≤ 8640000000000000
  · rw [dif_pos h]
    exact timeClip_val ⟨n, h⟩
  · rw [dif_neg h]
    exact dif_neg fun hq => h ⟨by exact_mod_cast hq.1, by exact_mod_cast hq.2⟩

theorem timeClip_intCast {n : Int} {t : TimeValue} (h : timeClip (n : ℚ) = some t) : t.val = n := by
  unfold timeClip at h
  split at h
  · obtain rfl := Option.some.inj h
    show (if 0 ≤ (n : ℚ) then ⌊(n : ℚ)⌋ else ⌈(n : ℚ)⌉) = n
    rw [Int.floor_intCast, Int.ceil_intCast, ite_self]
  · cases h

/-! ## Local time -/

/-- `LocalTime(t)` and `UTC(t)`. A local time that was left out is moved. -/
structure Zone where
  toLocal : Int → Int
  ofLocal : Int → Int

namespace Zone

/-- A zone whose offset never changes. -/
def fixed (offset : Int) : Zone where
  toLocal t := t + offset
  ofLocal x := x - offset

variable (z : Zone)

/-- The local calendar day of an instant. -/
def localDay (t : Int) : Int := day (z.toLocal t)

def getFullYear (t : Int) : Int := (date (z.localDay t)).year

/-- January is 0. -/
def getMonth (t : Int) : Int := (date (z.localDay t)).month - 1

def getDate (t : Int) : Int := (date (z.localDay t)).day

/-- Sunday is 0. -/
def getDay (t : Int) : Int := weekday (z.localDay t)

/-- `t.setDate(dt)`: the time of day stays. `none` is the date that is none. -/
def setDate (t : TimeValue) (dt : Int) : Option TimeValue :=
  timeClip (z.ofLocal (makeDay (z.getFullYear t.val) (z.getMonth t.val) dt * msPerDay +
    timeWithinDay (z.toLocal t.val)) : Int)

/-- `new Date(year, month, dt)`: two digits are a year of the twentieth century. -/
def newDate (year month dt : Int) : Option TimeValue :=
  let y := if 0 ≤ year ∧ year ≤ 99 then 1900 + year else year
  timeClip (z.ofLocal (makeDay y month dt * msPerDay) : Int)

/-- `t.setDate(t.getDate() + n)`. -/
def addDays (t : TimeValue) (n : Int) : Option TimeValue := z.setDate t (z.getDate t.val + n)

/-! ## What a zone does to a local time -/

/-- The local time is not left out, or is moved within its day. -/
def Keeps (x : Int) : Prop := day (z.toLocal (z.ofLocal x)) = day x

/-- Local time is less than a day from UTC. -/
structure Near : Prop where
  toLocal : ∀ t, t - msPerDay < z.toLocal t ∧ z.toLocal t < t + msPerDay
  ofLocal : ∀ x, x - msPerDay < z.ofLocal x ∧ z.ofLocal x < x + msPerDay

/-- No morning of the year is left out: before noon a local time keeps its day, and midnight is
not moved to the afternoon. -/
structure Mornings (year : Int) : Prop where
  keeps : ∀ n r, (date n).year = year → 0 ≤ r → r < 43200000 → z.Keeps (n * msPerDay + r)
  early : ∀ n, (date n).year = year →
    timeWithinDay (z.toLocal (z.ofLocal (n * msPerDay))) < 43200000

/-- A local time is its day and the time of day. -/
theorem toLocal_add (t n : Int) : z.toLocal t + n * msPerDay =
    (z.localDay t + n) * msPerDay + timeWithinDay (z.toLocal t) := by
  unfold localDay day timeWithinDay msPerDay
  omega

/-- Days are added to the local time. -/
theorem addDays_eq (t : TimeValue) (n : Int) :
    z.addDays t n = timeClip (z.ofLocal (z.toLocal t.val + n * msPerDay) : Int) := by
  unfold addDays setDate getFullYear getMonth getDate
  rw [makeDay_date, toLocal_add]

theorem newDate_eq {year month dt : Int} (hyear : 100 ≤ year) (h₀ : 0 ≤ month) (h₁ : month < 12) :
    z.newDate year month dt =
      timeClip (z.ofLocal ((⟨year, month + 1, dt⟩ : Date).toDay * msPerDay) : Int) := by
  unfold newDate
  dsimp only
  rw [if_neg (by omega), makeDay_month h₀ h₁]

/-- Without changes of the offset. -/
theorem addDays_fixed (offset : Int) (t : TimeValue) (n : Int) :
    (fixed offset).addDays t n = timeClip (t.val + n * msPerDay : Int) := by
  rw [addDays_eq]
  unfold fixed
  dsimp only
  rw [show t.val + offset + n * msPerDay - offset = t.val + n * msPerDay by omega]

theorem keeps_fixed (offset x : Int) : (fixed offset).Keeps x := by
  show day (x - offset + offset) = day x
  rw [Int.sub_add_cancel]

theorem near_fixed {offset : Int} (h : offset.natAbs < 86400000) : (fixed offset).Near := by
  constructor <;> intro t <;> unfold fixed msPerDay <;> dsimp only <;> omega

theorem mornings_fixed (offset year : Int) : (fixed offset).Mornings year := by
  refine ⟨fun n r _ _ _ => keeps_fixed offset _, fun n _ => ?_⟩
  unfold fixed timeWithinDay msPerDay
  dsimp only
  omega

end Zone

/-! ## Texts -/

/-- A year: four digits are enough up to 9999, and it is a sign and six beyond. -/
def isoYear (y : Int) : List Char :=
  if 0 ≤ y ∧ y ≤ 9999 then zeroPad 4 y.toNat
  else (if 0 ≤ y then '+' else '-') :: zeroPad 6 y.natAbs

def isoDay (d : Date) : List Char :=
  isoYear d.year ++ '-' :: zeroPad 2 d.month.toNat ++ '-' :: zeroPad 2 d.day.toNat

/-- `toISOString()`, in UTC. -/
def toISOString (t : Int) : List Char :=
  let time := timeWithinDay t
  isoDay (date (day t)) ++ 'T' :: zeroPad 2 (time / 3600000).toNat ++
    ':' :: zeroPad 2 (time / 60000 % 60).toNat ++ ':' :: zeroPad 2 (time / 1000 % 60).toNat ++
    '.' :: zeroPad 3 (time % 1000).toNat ++ ['Z']

/-- The text of a day, cut after ten characters. -/
def dayText (d : Date) : List Char := (isoDay d).take 10

/-- The text has the year and the month, and the day if it is not cut before it. -/
structure SameText (d d' : Date) : Prop where
  year : d.year = d'.year
  month : d.month = d'.month
  day : 0 ≤ d.year → d.year ≤ 9999 → d.day = d'.day

theorem le_length_isoDay (d : Date) : 10 ≤ (isoDay d).length := by
  have hyear : 4 ≤ (isoYear d.year).length := by
    unfold isoYear
    split
    · exact le_length_zeroPad _ _
    · have := le_length_zeroPad 6 d.year.natAbs
      rw [List.length_cons]
      omega
  have hmonth := le_length_zeroPad 2 d.month.toNat
  have hday := le_length_zeroPad 2 d.day.toNat
  unfold isoDay
  simp only [List.length_append, List.length_cons]
  omega

/-- Nothing of the time of day is left. -/
theorem take_toISOString (t : Int) : (toISOString t).take 10 = dayText (date (day t)) := by
  have hlen := le_length_isoDay (date (day t))
  unfold toISOString dayText
  simp only [List.append_assoc]
  rw [List.take_append_of_le_length hlen]

theorem not_dash_zeroPad {width n : Nat} : '-' ∉ zeroPad width n := by
  intro h
  exact absurd (isDigit_zeroPad '-' h) (by decide)

/-- Up to 9999 it is the whole day. -/
theorem dayText_near {d : Date} (hd : d.Valid) (hyear : 0 ≤ d.year ∧ d.year ≤ 9999) :
    dayText d = zeroPad 4 d.year.toNat ++ '-' :: zeroPad 2 d.month.toNat ++
      '-' :: zeroPad 2 d.day.toNat := by
  obtain ⟨⟨hm₁, hm₂⟩, hd₁, hd₂⟩ := hd
  have hlast := monthLength_le (isLeap d.year) d.month
  have hy := length_zeroPad 4 (n := d.year.toNat) (by decide) (by omega)
  have hm := length_zeroPad 2 (n := d.month.toNat) (by decide) (by omega)
  have hdd := length_zeroPad 2 (n := d.day.toNat) (by decide) (by omega)
  unfold dayText isoDay isoYear
  rw [if_pos hyear, List.take_of_length_le]
  simp only [List.length_append, List.length_cons]
  omega

/-- Beyond it is the month. -/
theorem dayText_far {d : Date} (hd : d.Valid) (hyear : ¬(0 ≤ d.year ∧ d.year ≤ 9999))
    (hsix : d.year.natAbs < 1000000) :
    dayText d = (if 0 ≤ d.year then '+' else '-') :: (zeroPad 6 d.year.natAbs ++
      '-' :: zeroPad 2 d.month.toNat) := by
  obtain ⟨⟨hm₁, hm₂⟩, -⟩ := hd
  have hy := length_zeroPad 6 (n := d.year.natAbs) (by decide) (by omega)
  have hm := length_zeroPad 2 (n := d.month.toNat) (by decide) (by omega)
  unfold dayText isoDay isoYear
  rw [if_neg hyear]
  refine List.take_left' ?_
  simp only [List.length_append, List.length_cons]
  omega

/-- The sign of a far year is no digit. -/
theorem dayText_near_ne_far {d d' : Date} (hd : d.Valid) (hd' : d'.Valid)
    (hyear : 0 ≤ d.year ∧ d.year ≤ 9999) (hyear' : ¬(0 ≤ d'.year ∧ d'.year ≤ 9999))
    (hsix' : d'.year.natAbs < 1000000) : dayText d ≠ dayText d' := by
  rw [dayText_near hd hyear, dayText_far hd' hyear' hsix']
  intro h
  have hlen := le_length_zeroPad 4 d.year.toNat
  cases hy : zeroPad 4 d.year.toNat with
  | nil =>
    rw [hy, List.length_nil] at hlen
    omega
  | cons c cs =>
    rw [hy, List.append_assoc, List.cons_append] at h
    have hdigit : c.isDigit := isDigit_zeroPad c (hy ▸ List.mem_cons_self)
    rw [(List.cons.inj h).1] at hdigit
    split at hdigit <;> exact absurd hdigit (by decide)

/-- What the cut text of a day says. -/
theorem dayText_eq_iff {d d' : Date} (hd : d.Valid) (hd' : d'.Valid)
    (hsix : d.year.natAbs < 1000000)
    (hsix' : d'.year.natAbs < 1000000) : dayText d = dayText d' ↔ SameText d d' := by
  have hm := hd.month
  have hm' := hd'.month
  have hdd := hd.day
  have hdd' := hd'.day
  constructor
  · intro h
    by_cases hyear : 0 ≤ d.year ∧ d.year ≤ 9999
    · by_cases hyear' : 0 ≤ d'.year ∧ d'.year ≤ 9999
      · rw [dayText_near hd hyear, dayText_near hd' hyear'] at h
        obtain ⟨h, hday⟩ := append_sep_inj not_dash_zeroPad not_dash_zeroPad h
        obtain ⟨hy, hmonth⟩ := append_sep_inj not_dash_zeroPad not_dash_zeroPad h
        have e₁ := zeroPad_injective hy
        have e₂ := zeroPad_injective hmonth
        have e₃ := zeroPad_injective hday
        exact ⟨by omega, by omega, fun _ _ => by omega⟩
      · exact absurd h (dayText_near_ne_far hd hd' hyear hyear' hsix')
    · by_cases hyear' : 0 ≤ d'.year ∧ d'.year ≤ 9999
      · exact absurd h.symm (dayText_near_ne_far hd' hd hyear' hyear hsix)
      · rw [dayText_far hd hyear hsix, dayText_far hd' hyear' hsix'] at h
        obtain ⟨hsign, h⟩ := List.cons.inj h
        obtain ⟨hy, hmonth⟩ := append_sep_inj not_dash_zeroPad not_dash_zeroPad h
        have e₁ := zeroPad_injective hy
        have e₂ := zeroPad_injective hmonth
        have hpos : 0 ≤ d.year ↔ 0 ≤ d'.year := by
          split at hsign
          · rename_i hp
            refine ⟨fun _ => ?_, fun _ => hp⟩
            by_contra hn
            rw [if_neg hn] at hsign
            exact absurd hsign (by decide)
          · rename_i hn
            refine ⟨fun hp => absurd hp hn, fun hp => ?_⟩
            rw [if_pos hp] at hsign
            exact absurd hsign (by decide)
        exact ⟨by omega, by omega, fun _ _ => by omega⟩
  · rintro ⟨hy, hmonth, hday⟩
    by_cases hyear : 0 ≤ d.year ∧ d.year ≤ 9999
    · rw [dayText_near hd hyear, dayText_near hd' (hy ▸ hyear), hy, hmonth, hday hyear.1 hyear.2]
    · rw [dayText_far hd hyear hsix, dayText_far hd' (hy ▸ hyear) hsix', hy, hmonth]

/-- The days of one text follow one another. -/
theorem sameText_convex {k m n : Int} (h₁ : k ≤ m) (h₂ : m ≤ n) (h : SameText (date k) (date n)) :
    SameText (date k) (date m) := by
  obtain ⟨hy, hmonth⟩ := month_convex h₁ h₂ h.year h.month
  refine ⟨hy.symm, hmonth.symm, fun hlow hhigh => ?_⟩
  -- up to 9999 there is only one day
  have hdate : date k = date n := by
    have hday := h.day hlow hhigh
    have hyear := h.year
    have hmonth := h.month
    generalize date k = d at *
    generalize date n = d' at *
    cases d
    cases d'
    simp_all
  have hkn := date_injective hdate
  rw [show m = k by omega]

/-- The years of a time value have six digits. -/
theorem year_timeValue (t : TimeValue) : (date (day t.val)).year.natAbs < 1000000 := by
  obtain ⟨t, h₁, h₂⟩ := t
  have hlow : yearOf (day (-8640000000000000)) ≤ yearOf (day t) := yearOf_mono (day_mono h₁)
  have hhigh : yearOf (day t) ≤ yearOf (day 8640000000000000) := yearOf_mono (day_mono h₂)
  have e₁ : yearOf (day (-8640000000000000)) = -271821 := by decide
  have e₂ : yearOf (day 8640000000000000) = 275760 := by decide
  show (yearOf (day t)).natAbs < 1000000
  omega

end ReleaseRadar.Lib.JsDate
