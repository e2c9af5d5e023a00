import ReleaseRadar.Lib.JsDate

/-!
# Reading dates of JavaScript

`Date.parse` for two forms of the date time format: a local date and time to the second, and
the text that `toISOString` writes. What it makes of any other text is a parameter.

Each reader takes what it knows from the front of a text and leaves the rest, so the lemmas say
what a reader does with what was written in front of any rest. From them
`readISO_toISOString`: an instant is read back from its text.
-/

namespace ReleaseRadar.Lib.JsDate

open Gregorian Decimal

/-! ## Numbers and signs -/

/-- So many digits. -/
def readNumber (width : Nat) (cs : List Char) : Option (Nat × List Char) :=
  let digits := cs.take width
  if digits.length = width ∧ digits.all Char.isDigit then some (readDigits digits, cs.drop width)
  else none

/-- The sign must be there. -/
def expect (sign : Char) : List Char → Option (List Char)
  | c :: cs => if c = sign then some cs else none
  | [] => none

theorem readNumber_zeroPad (width : Nat) {n : Nat} (h₀ : 0 < width) (h : n < 10 ^ width)
    (rest : List Char) : readNumber width (zeroPad width n ++ rest) = some (n, rest) := by
  have hlen := length_zeroPad width h₀ h
  have htake : (zeroPad width n ++ rest).take width = zeroPad width n := List.take_left' hlen
  have hdrop : (zeroPad width n ++ rest).drop width = rest := List.drop_left' hlen
  have hdigits : (zeroPad width n).all Char.isDigit = true := List.all_eq_true.mpr isDigit_zeroPad
  simp only [readNumber, htake, hdrop, hlen, hdigits, and_self, if_true, readDigits_zeroPad]

@[simp] theorem expect_cons (sign : Char) (cs : List Char) : expect sign (sign :: cs) = some cs :=
  if_pos rfl

/-! ## Dates and times -/

/-- Four digits, or a sign and six; there is no year `-000000`. -/
def readYear (cs : List Char) : Option (Int × List Char) :=
  if cs.head? = some '+' then (readNumber 6 cs.tail).map fun (y, cs) => ((y : Int), cs)
  else if cs.head? = some '-' then
    (readNumber 6 cs.tail).bind fun (y, cs) => if y = 0 then none else some (-(y : Int), cs)
  else (readNumber 4 cs).map fun (y, cs) => ((y : Int), cs)

/-- A day of the calendar. -/
def readDay (cs : List Char) : Option (Date × List Char) := do
  let (y, cs) ← readYear cs
  let cs ← expect '-' cs
  let (m, cs) ← readNumber 2 cs
  let cs ← expect '-' cs
  let (d, cs) ← readNumber 2 cs
  if 1 ≤ m ∧ m ≤ 12 ∧ 1 ≤ d ∧ d ≤ monthLength (isLeap y) m then some (⟨y, m, d⟩, cs) else none

/-- A time of the day, in milliseconds. -/
def readTime (cs : List Char) : Option (Int × List Char) := do
  let (h, cs) ← readNumber 2 cs
  let cs ← expect ':' cs
  let (m, cs) ← readNumber 2 cs
  let cs ← expect ':' cs
  let (s, cs) ← readNumber 2 cs
  if h < 24 ∧ m < 60 ∧ s < 60 then some ((h * 3600000 + m * 60000 + s * 1000 : Nat), cs) else none

/-- What a text says. -/
inductive IsoReading
  | localTime (x : Int)
  | instant (t : Int)
deriving DecidableEq, Repr

def readISO (cs : List Char) : Option IsoReading := do
  let (d, cs) ← readDay cs
  let cs ← expect 'T' cs
  let (time, cs) ← readTime cs
  let x := d.toDay * msPerDay + time
  if cs = [] then some (.localTime x)
  else
    let cs ← expect '.' cs
    let (ms, cs) ← readNumber 3 cs
    if cs = ['Z'] then some (.instant (x + ms)) else none

/-- `Date.parse`, and `new Date` of a text; `none` is `NaN`. Another text than those of the two
forms is read by `other`. -/
def parse (z : Zone) (other : List Char → Option TimeValue) (text : List Char) : Option TimeValue :=
  match readISO text with
  | some (.localTime x) => timeClip (z.ofLocal x)
  | some (.instant t) => timeClip t
  | none => other text

/-! ## What was written -/

theorem readYear_isoYear {y : Int} (h : y.natAbs < 1000000) (rest : List Char) :
    readYear (isoYear y ++ rest) = some (y, rest) := by
  by_cases hnear : 0 ≤ y ∧ y ≤ 9999
  · have hread := readNumber_zeroPad 4 (n := y.toNat) (by decide) (by omega) rest
    -- the first of the digits is no sign
    have hhead : ∀ c, ¬c.isDigit → (zeroPad 4 y.toNat ++ rest).head? ≠ some c := by
      intro c hc hhead
      have hlen := length_zeroPad 4 (n := y.toNat) (by decide) (by omega)
      cases hdigits : zeroPad 4 y.toNat with
      | nil => simp [hdigits] at hlen
      | cons d ds =>
        rw [hdigits, List.cons_append, List.head?_cons, Option.some.injEq] at hhead
        exact hc (hhead ▸ isDigit_zeroPad d (hdigits ▸ List.mem_cons_self))
    rw [isoYear, if_pos hnear, readYear, if_neg (hhead '+' (by decide)),
      if_neg (hhead '-' (by decide)), hread]
    exact congrArg some (Prod.ext (Int.toNat_of_nonneg hnear.1) rfl)
  · have hread := readNumber_zeroPad 6 (n := y.natAbs) (by decide) (by omega) rest
    rw [isoYear, if_neg hnear]
    by_cases hsign : 0 ≤ y
    · rw [if_pos hsign, List.cons_append, readYear, List.head?_cons, List.tail_cons, if_pos rfl,
        hread]
      exact congrArg some (Prod.ext (Int.natAbs_of_nonneg hsign) rfl)
    · rw [if_neg hsign, List.cons_append, readYear, List.head?_cons, List.tail_cons,
        if_neg (by simp), if_pos rfl, hread, Option.bind_some]
      show (if y.natAbs = 0 then none else some (-(y.natAbs : Int), rest)) = _
      rw [if_neg (by omega)]
      exact congrArg some (Prod.ext (by omega) rfl)

theorem readDay_isoDay {d : Date} (hd : d.Valid) (hyear : d.year.natAbs < 1000000)
    (rest : List Char) : readDay (isoDay d ++ rest) = some (d, rest) := by
  obtain ⟨⟨hm₁, hm₂⟩, hd₁, hd₂⟩ := hd
  have hlast := monthLength_le (isLeap d.year) d.month
  have hmonth := fun rest =>
    readNumber_zeroPad 2 (n := d.month.toNat) (by decide) (by omega) rest
  have hday := fun rest =>
    readNumber_zeroPad 2 (n := d.day.toNat) (by decide) (by omega) rest
  have hmc : (d.month.toNat : Int) = d.month := Int.toNat_of_nonneg (by omega)
  have hdc : (d.day.toNat : Int) = d.day := Int.toNat_of_nonneg (by omega)
  have hvalid : 1 ≤ d.month.toNat ∧ d.month.toNat ≤ 12 ∧ 1 ≤ d.day.toNat ∧
      d.day ≤ monthLength (isLeap d.year) d.month := by omega
  unfold isoDay readDay
  simp only [List.append_assoc, List.cons_append, readYear_isoYear hyear, Option.bind_eq_bind,
    Option.bind_some, expect_cons, hmonth, hday, hmc, hdc]
  exact if_pos hvalid

/-- The time of the day. -/
theorem readTime_written {h m s : Nat} (hh : h < 24) (hm : m < 60) (hs : s < 60)
    (rest : List Char) :
    readTime (zeroPad 2 h ++ ':' :: zeroPad 2 m ++ ':' :: zeroPad 2 s ++ rest) =
      some (((h * 3600000 + m * 60000 + s * 1000 : Nat) : Int), rest) := by
  have hread : ∀ {n : Nat}, n < 60 → ∀ rest, readNumber 2 (zeroPad 2 n ++ rest) = some (n, rest) :=
    fun hn rest => readNumber_zeroPad 2 (by decide) (by omega) rest
  unfold readTime
  simp only [List.append_assoc, List.cons_append, Option.bind_eq_bind, Option.bind_some,
    expect_cons, hread (by omega : h < 60), hread hm, hread hs]
  exact if_pos ⟨hh, hm, hs⟩

/-- The hours, minutes, seconds and milliseconds of a time of the day. -/
theorem clock_sum {time : Int} (h : 0 ≤ time) :
    (((time / 3600000).toNat * 3600000 + (time / 60000 % 60).toNat * 60000 +
      (time / 1000 % 60).toNat * 1000 : Nat) : Int) + (time % 1000).toNat = time := by
  lift time to Nat using h
  have hs : time / 1000 = time / 60000 * 60 + time / 1000 % 60 := by omega
  have hm : time / 60000 = time / 3600000 * 60 + time / 60000 % 60 := by omega
  have hsum : time / 3600000 * 3600000 + time / 60000 % 60 * 60000 + time / 1000 % 60 * 1000 +
      time % 1000 = time := by omega
  exact_mod_cast hsum

/-- **An instant is read back from its text.** -/
theorem readISO_toISOString (t : TimeValue) :
    readISO (toISOString t.val) = some (.instant t.val) := by
  have hyear := year_timeValue t
  generalize t.val = t at *
  have htime : 0 ≤ timeWithinDay t ∧ timeWithinDay t < 86400000 := by
    unfold timeWithinDay msPerDay
    omega
  have hdays : day t * msPerDay + timeWithinDay t = t := by
    unfold day timeWithinDay msPerDay
    omega
  have hms := readNumber_zeroPad 3 (n := (timeWithinDay t % 1000).toNat) (by decide)
    (by omega) ['Z']
  unfold toISOString readISO
  generalize timeWithinDay t = time at *
  have hread := readTime_written (h := (time / 3600000).toNat) (m := (time / 60000 % 60).toNat)
    (s := (time / 1000 % 60).toNat) (by omega) (by omega) (by omega)
    ('.' :: (zeroPad 3 (time % 1000).toNat ++ ['Z']))
  simp only [List.append_assoc, List.cons_append] at hread ⊢
  simp only [readDay_isoDay (valid_date _) hyear, Option.bind_eq_bind, Option.bind_some,
    expect_cons, hread, List.cons_ne_nil, if_false, hms, if_true, day_date]
  rw [Int.add_assoc, clock_sum htime.1, hdays]

theorem parse_toISOString (z : Zone) (other : List Char → Option TimeValue) (t : TimeValue) :
    parse z other (toISOString t.val) = some t := by
  rw [parse, readISO_toISOString]
  exact timeClip_val t

/-- A date and a time as inputs write them: the local time. -/
theorem parse_local (z : Zone) (other : List Char → Option TimeValue) {d : Date} {h m : Nat}
    (hd : d.Valid) (hyear : 0 ≤ d.year ∧ d.year ≤ 9999) (hh : h < 24) (hm : m < 60) :
    parse z other (isoDay d ++ 'T' :: (zeroPad 2 h ++ ':' :: zeroPad 2 m) ++ [':', '0', '0']) =
      timeClip (z.ofLocal (d.toDay * msPerDay + (h * 3600000 + m * 60000 : Nat))) := by
  have hread := readTime_written hh hm (by decide : 0 < 60) []
  have hzero : zeroPad 2 0 = ['0', '0'] := by decide
  have hiso : readISO (isoDay d ++ 'T' :: (zeroPad 2 h ++ ':' :: zeroPad 2 m) ++ [':', '0', '0']) =
      some (.localTime (d.toDay * msPerDay + (h * 3600000 + m * 60000 : Nat))) := by
    have hwhole : h * 3600000 + m * 60000 + 0 * 1000 = h * 3600000 + m * 60000 := by omega
    rw [hwhole] at hread
    simp only [hzero, List.append_assoc, List.cons_append, List.append_nil] at hread
    unfold readISO
    simp only [List.append_assoc, List.cons_append, readDay_isoDay hd (by omega), hread,
      Option.bind_eq_bind, Option.bind_some, expect_cons, if_true]
  rw [parse, hiso]

end ReleaseRadar.Lib.JsDate
