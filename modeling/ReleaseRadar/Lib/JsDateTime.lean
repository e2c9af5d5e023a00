import ReleaseRadar.Lib.JsonText
import ReleaseRadar.Lib.Rfc3339

/-!
# Dates and times of inputs

`Date.parse` for the whole date time format: what may be left out of the time is the seconds,
their fraction and the offset, and without an offset the time is a local one. A fraction may have
any number of digits, as browsers have it; what is beyond the millisecond is dropped.

`inputText` is the value of an input for a local time: to the minute, and with as many digits of
the year as there are.

* `readDateTime_format` — the instant in a text of Go, cut to the millisecond;
* `readDateTime_inputText` — the local time in an input, cut to the minute.
-/

namespace ReleaseRadar.Lib.JsDate

open Gregorian Decimal

/-! ## Reading -/

/-- The milliseconds behind the minute. -/
def readSeconds : List Char → Option (Nat × List Char)
  | ':' :: cs => do
    let (s, cs) ← readNumber 2 cs
    let (ns, cs) := Rfc3339.readFraction cs
    if s < 60 then some (s * 1000 + ns / 1000000, cs) else none
  | cs => some (0, cs)

/-- A time of the day, in milliseconds. The end of a day is 24:00. -/
def readClock (cs : List Char) : Option (Nat × List Char) := do
  let (h, cs) ← readNumber 2 cs
  let cs ← expect ':' cs
  let (m, cs) ← readNumber 2 cs
  let (ms, cs) ← readSeconds cs
  if m < 60 ∧ (h < 24 ∨ h = 24 ∧ m = 0 ∧ ms = 0) then some (h * 3600000 + m * 60000 + ms, cs)
  else none

def readDateTime (cs : List Char) : Option IsoReading := do
  let (d, cs) ← readDay cs
  let cs ← expect 'T' cs
  let (time, cs) ← readClock cs
  let x := d.toDay * msPerDay + time
  if cs = [] then some (.localTime x)
  else (Rfc3339.readZone cs).map fun offset => .instant (x - offset * 1000)

/-- `new Date` of a text; `none` is the date that is none. A text that is in no form of the format
is read by `other`. -/
def parseDate (z : Zone) (other : List Char → Option TimeValue) (text : List Char) :
    Option TimeValue :=
  match readDateTime text with
  | some (.localTime x) => timeClip (z.ofLocal x)
  | some (.instant t) => timeClip t
  | none => other text

/-! ## Writing -/

namespace Zone

variable (z : Zone)

def getHours (t : Int) : Int := timeWithinDay (z.toLocal t) / 3600000

def getMinutes (t : Int) : Int := timeWithinDay (z.toLocal t) / 60000 % 60

/-- `t.setMinutes(0, 0, 0)`. -/
def fullHour (t : TimeValue) : Option TimeValue :=
  timeClip (z.ofLocal (z.localDay t.val * msPerDay + z.getHours t.val * 3600000) : Int)

def inputText (t : Int) : List Char :=
  JsonText.decimal (z.getFullYear t) ++ '-' :: zeroPad 2 (z.getMonth t + 1).toNat ++
    '-' :: zeroPad 2 (z.getDate t).toNat ++ 'T' :: zeroPad 2 (z.getHours t).toNat ++
    ':' :: zeroPad 2 (z.getMinutes t).toNat

end Zone

/-- The minute of a local time. -/
def cutMinute (x : Int) : Int := x - x % 60000

/-! ## What was written is read -/

theorem readClock_written {h m : Nat} (hh : h < 24) (hm : m < 60) {ms : Nat} {cs rest : List Char}
    (hs : readSeconds cs = some (ms, rest)) :
    readClock (zeroPad 2 h ++ ':' :: zeroPad 2 m ++ cs) =
      some (h * 3600000 + m * 60000 + ms, rest) := by
  have hhours := fun rest => readNumber_zeroPad 2 (n := h) (by decide) (by omega) rest
  have hminutes := fun rest => readNumber_zeroPad 2 (n := m) (by decide) (by omega) rest
  unfold readClock
  simp only [List.append_assoc, List.cons_append, Option.bind_eq_bind, Option.bind_some, hhours,
    expect_cons, hminutes, hs]
  exact if_pos ⟨hm, .inl hh⟩

/-- A number with so many digits needs no zeros. -/
theorem zeroPad_eq_toDigits {width n : Nat} (h : 10 ^ width ≤ n) :
    zeroPad (width + 1) n = Nat.toDigits 10 n := by
  have hlong : ¬(Nat.toDigits 10 n).length ≤ width := by
    intro hle
    rcases Nat.eq_zero_or_pos width with rfl | hpos
    · exact absurd (List.length_eq_zero_iff.mp (Nat.le_zero.mp hle)) Nat.toDigits_ne_nil
    · exact absurd ((Nat.length_toDigits_le_iff (by decide) hpos).mp hle) (not_lt_of_ge h)
  have hnone : width + 1 - (Nat.toDigits 10 n).length = 0 := by omega
  rw [zeroPad, hnone, List.replicate_zero, List.nil_append]

theorem decimal_year {y : Int} (h₀ : 1000 ≤ y) (h₁ : y ≤ 9999) :
    JsonText.decimal y = isoYear y := by
  lift y to Nat using (by omega)
  rw [isoYear, if_pos ⟨by omega, h₁⟩]
  exact (@zeroPad_eq_toDigits 3 y (by omega)).symm

/-- **The value of an input is its local minute**, if the year has four digits. -/
theorem readDateTime_inputText (z : Zone) (t : Int) (h₀ : 1000 ≤ z.getFullYear t)
    (h₁ : z.getFullYear t ≤ 9999) :
    readDateTime (z.inputText t) = some (.localTime (cutMinute (z.toLocal t))) := by
  have hday : z.inputText t = isoDay (date (z.localDay t)) ++ 'T' ::
      (zeroPad 2 (z.getHours t).toNat ++ ':' :: zeroPad 2 (z.getMinutes t).toNat ++ []) := by
    have hmonth : z.getMonth t + 1 = (date (z.localDay t)).month := Int.sub_add_cancel _ _
    unfold Zone.inputText isoDay
    rw [decimal_year h₀ h₁, hmonth]
    simp only [List.append_assoc, List.cons_append, List.append_nil]
    rfl
  have hclock := readClock_written (h := (z.getHours t).toNat) (m := (z.getMinutes t).toNat)
    (by unfold Zone.getHours timeWithinDay msPerDay; omega) (by unfold Zone.getMinutes; omega)
    (rfl : readSeconds [] = some (0, []))
  have hyear : (date (z.localDay t)).year.natAbs < 1000000 := by
    unfold Zone.getFullYear at h₀ h₁
    omega
  rw [hday, readDateTime]
  simp only [readDay_isoDay (valid_date _) hyear, Option.bind_eq_bind, Option.bind_some,
    expect_cons,
    hclock, if_true, day_date]
  refine congrArg some (congrArg IsoReading.localTime ?_)
  unfold Zone.localDay Zone.getHours Zone.getMinutes cutMinute timeWithinDay day msPerDay
  omega

theorem readSeconds_written {s ns : Nat} (hs : s < 60) (hns : ns < 1000000000) {rest : List Char}
    (hrest : ∀ c ∈ rest.head?, ¬c.isDigit ∧ c ≠ '.') :
    readSeconds (':' :: zeroPad 2 s ++ (Rfc3339.fraction ns ++ rest)) =
      some (s * 1000 + ns / 1000000, rest) := by
  have hseconds := fun rest => readNumber_zeroPad 2 (n := s) (by decide) (by omega) rest
  rw [List.cons_append, readSeconds]
  simp only [hseconds, Option.bind_eq_bind, Option.bind_some,
    Rfc3339.readFraction_fraction hns hrest]
  exact if_pos hs

/-- **A text of Go is read as its instant**, cut to the millisecond, if the offset is in whole
minutes. -/
theorem readDateTime_format {offset t : Int} (hoffset : offset.tmod 60 = 0) {text : List Char}
    (h : Rfc3339.format offset t = some text) :
    readDateTime text = some (.instant (t / 1000000)) := by
  unfold Rfc3339.format at h
  split at h
  · next hwritable =>
    obtain ⟨hyear, hwidth⟩ := hwritable
    have hparts := Rfc3339.local_parts offset t
    have hsecond : Rfc3339.secondOfDay offset t < 86400 := by
      unfold Rfc3339.secondOfDay Rfc3339.nsPerDay Rfc3339.nsPerSecond
      omega
    have hnano : Rfc3339.nanosecond offset t < 1000000000 := by
      unfold Rfc3339.nanosecond Rfc3339.nsPerSecond
      omega
    generalize Rfc3339.secondOfDay offset t = s at *
    generalize Rfc3339.nanosecond offset t = ns at *
    have hclock := readClock_written (h := s / 3600) (m := s / 60 % 60) (by omega) (by omega)
      (readSeconds_written (s := s % 60) (by omega) hnano (Rfc3339.head_zoneText offset))
    have hne : Rfc3339.zoneText offset ≠ [] := by
      unfold Rfc3339.zoneText
      split <;> exact List.cons_ne_nil _ _
    have hzone := Rfc3339.readZone_zoneText hwidth
    rw [hoffset, Int.sub_zero] at hzone
    unfold Rfc3339.clockText at h
    simp only [List.append_assoc, List.cons_append] at h hclock
    have hday := fun rest => @readDay_isoDay (Rfc3339.localDate offset t) (valid_date _)
      (by omega) rest
    rw [← Option.some.inj h, readDateTime]
    simp only [hday, Option.bind_eq_bind, Option.bind_some,
      expect_cons, hclock, if_neg hne, hzone, Option.map_some]
    refine congrArg some (congrArg IsoReading.instant ?_)
    have hminutes : s / 60 = s / 3600 * 60 + s / 60 % 60 := by omega
    unfold Rfc3339.localTime Rfc3339.nsPerDay Rfc3339.nsPerSecond at hparts
    unfold msPerDay
    push_cast at hparts ⊢
    omega
  · cases h

end ReleaseRadar.Lib.JsDate
