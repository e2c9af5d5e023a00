import ReleaseRadar.Lib.Rfc3339

/-!
# Dates of RFC 1123

Go's layout `time.RFC1123` at UTC: `Mon, 02 Jan 2006 15:04:05 UTC`, with as many digits for the
year as it takes. The weekday says nothing new, so a reader goes by the columns: the day, the
name of the month, the year up to the next space and the time. `read_format` is the round trip,
for every second before 1970 and after it.
-/

namespace ReleaseRadar.Lib.Rfc1123

open Gregorian Decimal JsDate

def weekdayNames : List (List Char) := [
  ['S', 'u', 'n'], ['M', 'o', 'n'], ['T', 'u', 'e'], ['W', 'e', 'd'], ['T', 'h', 'u'],
  ['F', 'r', 'i'], ['S', 'a', 't']]

def monthNames : List (List Char) := [
  ['J', 'a', 'n'], ['F', 'e', 'b'], ['M', 'a', 'r'], ['A', 'p', 'r'], ['M', 'a', 'y'],
  ['J', 'u', 'n'], ['J', 'u', 'l'], ['A', 'u', 'g'], ['S', 'e', 'p'], ['O', 'c', 't'],
  ['N', 'o', 'v'], ['D', 'e', 'c']]

/-! ## Writing -/

def weekdayName (day : Int) : List Char := weekdayNames.getD (weekday day).toNat []

/-- January is 1. -/
def monthName (m : Int) : List Char := monthNames.getD (m - 1).toNat []

/-- At least four digits. -/
def yearText (y : Int) : List Char := (if y < 0 then ['-'] else []) ++ zeroPad 4 y.natAbs

/-- `Format(time.RFC1123)` of a second, counted from 1970. -/
def format (s : Int) : List Char :=
  let d := date (s / 86400)
  weekdayName (s / 86400) ++ ([',', ' '] ++ (zeroPad 2 d.day.toNat ++ ' ' :: (monthName d.month ++
    ' ' :: (yearText d.year ++ ' ' :: (Rfc3339.clockText (s % 86400).toNat ++
      [' ', 'U', 'T', 'C'])))))

/-! ## Reading -/

def readMonth (cs : List Char) : Option (Int × List Char) :=
  (monthNames.idxOf? (cs.take 3)).map fun i => ((i : Int) + 1, cs.drop 3)

def readYear (cs : List Char) : Int × List Char :=
  let digits := if cs.head? = some '-' then cs.tail else cs
  let n : Int := (readDigits (digits.takeWhile Char.isDigit) : Nat)
  (if cs.head? = some '-' then -n else n, digits.dropWhile Char.isDigit)

/-- The second that a date stands for. -/
def read (cs : List Char) : Option Int := do
  let (d, cs) ← readNumber 2 (cs.drop 5)
  let cs ← expect ' ' cs
  let (m, cs) ← readMonth cs
  let cs ← expect ' ' cs
  let (y, cs) := readYear cs
  let cs ← expect ' ' cs
  let (time, _) ← readTime cs
  some ((Date.mk y m d).toDay * 86400 + time / 1000)

/-! ## The round trip -/

theorem length_weekdayName (day : Int) : (weekdayName day).length = 3 := by
  have hall : ∀ i < 7, (weekdayNames.getD i []).length = 3 := by decide
  exact hall _ (by unfold weekday; omega)

theorem readMonth_monthName {m : Int} (hm : 1 ≤ m ∧ m ≤ 12) (rest : List Char) :
    readMonth (monthName m ++ rest) = some (m, rest) := by
  have hall : ∀ i < 12, (monthNames.getD i []).length = 3 ∧
      monthNames.idxOf? (monthNames.getD i []) = some i := by decide
  obtain ⟨hlen, hindex⟩ := hall (m - 1).toNat (by omega)
  unfold readMonth monthName
  rw [List.take_left' hlen, List.drop_left' hlen, hindex]
  refine congrArg some (Prod.ext ?_ rfl)
  show ((m - 1).toNat : Int) + 1 = m
  omega

theorem head_zeroPad (width n : Nat) (hwidth : 0 < width) (rest : List Char) :
    (zeroPad width n ++ rest).head? ≠ some '-' := by
  intro hhead
  have hlen := le_length_zeroPad width n
  cases hdigits : zeroPad width n with
  | nil =>
    rw [hdigits] at hlen
    exact absurd hlen (Nat.not_le.mpr hwidth)
  | cons c cs =>
    rw [hdigits] at hhead
    have hc := isDigit_zeroPad c (hdigits ▸ List.mem_cons_self)
    rw [Option.some.inj hhead] at hc
    exact absurd hc (by decide)

theorem readYear_yearText (y : Int) {rest : List Char} (hrest : ∀ c ∈ rest.head?, ¬c.isDigit) :
    readYear (yearText y ++ rest) = (y, rest) := by
  obtain ⟨htake, hdrop⟩ := @Rfc3339.takeWhile_digits (zeroPad 4 y.natAbs) rest isDigit_zeroPad hrest
  unfold readYear yearText
  by_cases hneg : y < 0
  · simp only [if_pos hneg, List.cons_append, List.nil_append, List.head?_cons, if_true,
      List.tail_cons, htake, hdrop, readDigits_zeroPad]
    exact Prod.ext (by show -(y.natAbs : Int) = y; omega) rfl
  · have hhead := head_zeroPad 4 y.natAbs (by decide) rest
    simp only [if_neg hneg, List.nil_append, if_neg hhead, htake, hdrop, readDigits_zeroPad]
    exact Prod.ext (by show (y.natAbs : Int) = y; omega) rfl

/-- **A second is read back from its date.** -/
theorem read_format (s : Int) : read (format s) = some s := by
  have hvalid := valid_date (s / 86400)
  have hmonth := monthLength_le (isLeap (date (s / 86400)).year) (date (s / 86400)).month
  have hday := hvalid.day
  have hdays := day_date (s / 86400)
  generalize hd : date (s / 86400) = d at *
  have hcolumns : (format s).drop 5 = zeroPad 2 d.day.toNat ++ ' ' :: (monthName d.month ++
      ' ' :: (yearText d.year ++ ' ' :: (Rfc3339.clockText (s % 86400).toNat ++
        [' ', 'U', 'T', 'C']))) := by
    unfold format
    rw [hd, ← List.append_assoc]
    exact List.drop_left' (by rw [List.length_append, length_weekdayName]; rfl)
  have hyear := @readYear_yearText d.year (' ' :: (Rfc3339.clockText (s % 86400).toNat ++
    [' ', 'U', 'T', 'C'])) (fun c hc => by obtain rfl := Option.some.inj hc; decide)
  unfold read
  rw [hcolumns]
  simp only [readNumber_zeroPad 2 (n := d.day.toNat) (by decide) (by omega), Option.bind_eq_bind,
    Option.bind_some, expect_cons, readMonth_monthName hvalid.month, hyear,
    Rfc3339.readTime_clockText (s := (s % 86400).toNat) (by omega)]
  have hdate : (Date.mk d.year d.month d.day.toNat).toDay = s / 86400 := by
    rw [← hdays, Int.toNat_of_nonneg (by omega)]
  rw [hdate]
  refine congrArg some ?_
  omega

example : format 1718010000 = "Mon, 10 Jun 2024 09:00:00 UTC".toList := by decide

end ReleaseRadar.Lib.Rfc1123
