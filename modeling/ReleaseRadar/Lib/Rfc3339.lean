import Mathlib.Data.List.DropRight
import ReleaseRadar.Lib.IsoDate

/-!
# Instants in RFC 3339

How Go's `time` writes an instant with its nanoseconds and reads it again. An instant is a
number of nanoseconds since 1970, and it is written in the local time of an offset, which is in
seconds to the east of UTC. A fraction is written without the zeros at its end, an offset in
whole minutes.

`read_format` says what is read back: the instant, up to the seconds of the offset that were
not written. `read_toISOString` is about the texts of JavaScript.
-/

namespace ReleaseRadar.Lib.Rfc3339

open Gregorian Decimal JsDate

def nsPerSecond : Int := 1000000000

def nsPerDay : Int := 86400 * nsPerSecond

/-! ## Writing -/

/-- The fraction of a second. -/
def fraction (ns : Nat) : List Char :=
  if ns = 0 then [] else '.' :: (zeroPad 9 ns).rdropWhile (· == '0')

/-- The offset, cut to whole minutes. -/
def zoneText (offset : Int) : List Char :=
  if offset = 0 then ['Z']
  else
    let minutes := offset.tdiv 60
    (if minutes < 0 then '-' else '+') ::
      (zeroPad 2 (minutes.natAbs / 60) ++ ':' :: zeroPad 2 (minutes.natAbs % 60))

/-- The time of the day, in whole seconds. -/
def clockText (s : Nat) : List Char :=
  zeroPad 2 (s / 3600) ++ ':' :: zeroPad 2 (s / 60 % 60) ++ ':' :: zeroPad 2 (s % 60)

/-- The instant as its offset shows it. -/
def localTime (offset t : Int) : Int := t + offset * nsPerSecond

def localDate (offset t : Int) : Date := date (localTime offset t / nsPerDay)

/-- The second of the local day. -/
def secondOfDay (offset t : Int) : Nat := (localTime offset t % nsPerDay / nsPerSecond).toNat

/-- The nanosecond of the second. -/
def nanosecond (offset t : Int) : Nat := (localTime offset t % nsPerSecond).toNat

/-- A text has four digits for the year and two for the hours of the offset. -/
def Writable (offset t : Int) : Prop :=
  (0 ≤ (localDate offset t).year ∧ (localDate offset t).year ≤ 9999) ∧ offset.natAbs < 86400

instance (offset t : Int) : Decidable (Writable offset t) := inferInstanceAs (Decidable (_ ∧ _))

/-- `appendStrictRFC3339`; `none` is its error. -/
def format (offset t : Int) : Option (List Char) :=
  if Writable offset t then
    some (isoDay (localDate offset t) ++ 'T' :: (clockText (secondOfDay offset t) ++
      (fraction (nanosecond offset t) ++ zoneText offset)))
  else none

/-! ## Reading -/

/-- A day whose year has four digits. -/
def readDate (cs : List Char) : Option (Date × List Char) :=
  if cs.head? = some '+' ∨ cs.head? = some '-' then none else readDay cs

/-- The nanoseconds of a fraction, of which nine digits count. -/
def readFraction (cs : List Char) : Nat × List Char :=
  match cs with
  | '.' :: rest =>
    let digits := rest.takeWhile Char.isDigit
    if digits = [] then (0, cs)
    else (readDigits (digits.take 9) * 10 ^ (9 - (digits.take 9).length),
      rest.dropWhile Char.isDigit)
  | _ => (0, cs)

/-- The offset in seconds, at the end of the text. -/
def readZone : List Char → Option Int
  | ['Z'] => some 0
  | sign :: cs => do
    let (h, cs) ← readNumber 2 cs
    let cs ← expect ':' cs
    let (m, cs) ← readNumber 2 cs
    if (sign = '+' ∨ sign = '-') ∧ h < 24 ∧ m < 60 ∧ cs = [] then
      let offset : Int := ((h * 60 + m) * 60 : Nat)
      some (if sign = '-' then -offset else offset)
    else none
  | [] => none

/-- `parseRFC3339`. -/
def read (cs : List Char) : Option Int := do
  let (d, cs) ← readDate cs
  let cs ← expect 'T' cs
  let (time, cs) ← readTime cs
  let (ns, cs) := readFraction cs
  let offset ← readZone cs
  some (d.toDay * nsPerDay + time * 1000000 + ns - offset * nsPerSecond)

/-! ## What was written is read -/

theorem readDate_isoDay {d : Date} (hd : d.Valid) (hyear : 0 ≤ d.year ∧ d.year ≤ 9999)
    (rest : List Char) : readDate (isoDay d ++ rest) = some (d, rest) := by
  -- the first of the digits is no sign
  have hhead : ∀ c, ¬c.isDigit → (isoDay d ++ rest).head? ≠ some c := by
    intro c hc hhead
    have hlen := length_zeroPad 4 (n := d.year.toNat) (by decide) (by omega)
    unfold isoDay isoYear at hhead
    rw [if_pos hyear] at hhead
    cases hdigits : zeroPad 4 d.year.toNat with
    | nil => simp [hdigits] at hlen
    | cons e es =>
      simp only [hdigits, List.cons_append, List.head?_cons, Option.some.injEq] at hhead
      exact hc (hhead ▸ isDigit_zeroPad e (hdigits ▸ List.mem_cons_self))
  have hsign : ¬((isoDay d ++ rest).head? = some '+' ∨ (isoDay d ++ rest).head? = some '-') := by
    intro h
    rcases h with h | h
    · exact hhead '+' (by decide) h
    · exact hhead '-' (by decide) h
  rw [readDate, if_neg hsign]
  exact readDay_isoDay hd (by omega) rest

theorem readTime_clockText {s : Nat} (h : s < 86400) (rest : List Char) :
    readTime (clockText s ++ rest) = some (((s * 1000 : Nat) : Int), rest) := by
  have hread := readTime_written (h := s / 3600) (m := s / 60 % 60) (s := s % 60) (by omega)
    (by omega) (by omega) rest
  have hsum : s / 3600 * 3600000 + s / 60 % 60 * 60000 + s % 60 * 1000 = s * 1000 := by
    have hm : s / 60 = s / 3600 * 60 + s / 60 % 60 := by omega
    omega
  rw [hsum] at hread
  exact hread

/-- Zeros at the end of digits are a power of ten. -/
theorem readDigits_replicate (cs : List Char) (k : Nat) :
    readDigits (cs ++ List.replicate k '0') = readDigits cs * 10 ^ k := by
  unfold readDigits
  rw [Nat.ofDigitChars_append, Nat.ofDigitChars_replicate_zero, Nat.mul_comm]

/-- A list without the zeros at its end, and those. -/
theorem rdropWhile_append_replicate (cs : List Char) :
    ∃ k, cs = cs.rdropWhile (· == '0') ++ List.replicate k '0' := by
  have hzeros : ∀ c ∈ cs.rtakeWhile (· == '0'), c = '0' := fun c hc =>
    eq_of_beq (List.mem_rtakeWhile_imp (p := (· == '0')) hc)
  refine ⟨(cs.rtakeWhile (· == '0')).length, ?_⟩
  rw [← List.eq_replicate_of_mem hzeros]
  exact (List.rdropWhile_append_rtakeWhile ..).symm

theorem takeWhile_digits {ds rest : List Char} (hds : ∀ c ∈ ds, c.isDigit)
    (hrest : ∀ c ∈ rest.head?, ¬c.isDigit) :
    (ds ++ rest).takeWhile Char.isDigit = ds ∧ (ds ++ rest).dropWhile Char.isDigit = rest := by
  rw [List.takeWhile_append_of_pos hds, List.dropWhile_append_of_pos hds]
  cases rest with
  | nil => exact ⟨List.append_nil _, rfl⟩
  | cons c rest =>
    have hc := hrest c rfl
    rw [List.takeWhile_cons_of_neg hc, List.dropWhile_cons_of_neg hc, List.append_nil]
    exact ⟨rfl, rfl⟩

theorem readFraction_fraction {ns : Nat} (h : ns < 1000000000) {rest : List Char}
    (hrest : ∀ c ∈ rest.head?, ¬c.isDigit ∧ c ≠ '.') :
    readFraction (fraction ns ++ rest) = (ns, rest) := by
  unfold fraction
  split
  · next hzero =>
    rw [List.nil_append, hzero]
    unfold readFraction
    split
    · exact absurd rfl (hrest '.' rfl).2
    · rfl
  · next hzero =>
    obtain ⟨k, hpad⟩ := rdropWhile_append_replicate (zeroPad 9 ns)
    generalize hdigits : (zeroPad 9 ns).rdropWhile (· == '0') = ds at *
    have hvalue : readDigits ds * 10 ^ k = ns := by
      rw [← readDigits_replicate, ← hpad, readDigits_zeroPad]
    have hlen : ds.length + k = 9 := by
      have hlen := length_zeroPad 9 (n := ns) (by decide) (by omega)
      rw [hpad, List.length_append, List.length_replicate] at hlen
      exact hlen
    have hne : ds ≠ [] := by
      intro hnil
      rw [hnil] at hvalue
      exact hzero (hvalue.symm.trans (Nat.zero_mul _))
    have hall : ∀ c ∈ ds, c.isDigit := fun c hc =>
      isDigit_zeroPad c (by rw [hpad]; exact List.mem_append_left _ hc)
    obtain ⟨htake, hdrop⟩ := takeWhile_digits hall fun c hc => (hrest c hc).1
    have hnine : ds.take 9 = ds := List.take_of_length_le (by omega)
    have hk : 9 - ds.length = k := by omega
    simp only [readFraction, List.cons_append, htake, hdrop, if_neg hne, hnine, hk, hvalue]

theorem readZone_signed {sign : Char} (hsign : sign = '+' ∨ sign = '-') {h m : Nat} (hh : h < 24)
    (hm : m < 60) :
    readZone (sign :: (zeroPad 2 h ++ ':' :: zeroPad 2 m)) =
      some (if sign = '-' then -(((h * 60 + m) * 60 : Nat) : Int)
        else ((h * 60 + m) * 60 : Nat)) := by
  have hhours := fun rest => readNumber_zeroPad 2 (n := h) (by decide) (by omega) rest
  have hminutes := readNumber_zeroPad 2 (n := m) (by decide) (by omega) []
  rw [List.append_nil] at hminutes
  have hz : sign ≠ 'Z' := by
    rcases hsign with rfl | rfl <;> decide
  rw [readZone.eq_2 _ _ fun hZ _ => hz hZ]
  simp only [hhours, Option.bind_eq_bind, Option.bind_some, expect_cons, hminutes]
  exact if_pos ⟨hsign, hh, hm, trivial⟩

theorem readZone_zoneText {offset : Int} (h : offset.natAbs < 86400) :
    readZone (zoneText offset) = some (offset - offset.tmod 60) := by
  unfold zoneText
  split
  · next hzero =>
    rw [hzero]
    rfl
  · have hcut : offset - offset.tmod 60 = offset.tdiv 60 * 60 := by
      have := Int.mul_tdiv_add_tmod offset 60
      omega
    have hsum : ∀ n : Nat, (n / 60 * 60 + n % 60) * 60 = n * 60 := fun n => by
      rw [Nat.div_add_mod']
    have hminutes : (offset.tdiv 60).natAbs < 1440 := by
      rw [Int.natAbs_tdiv]
      show offset.natAbs / 60 < 1440
      omega
    rw [hcut]
    dsimp only
    split
    · next hneg =>
      rw [readZone_signed (.inr rfl) (by omega) (by omega), if_pos rfl, hsum]
      exact congrArg some (by omega)
    · next hpos =>
      rw [readZone_signed (.inl rfl) (by omega) (by omega), if_neg (by decide), hsum]
      exact congrArg some (by omega)

/-- An offset starts with a letter or a sign. -/
theorem head_zoneText (offset : Int) : ∀ c ∈ (zoneText offset).head?, ¬c.isDigit ∧ c ≠ '.' := by
  intro c hc
  unfold zoneText at hc
  split at hc
  · obtain rfl := Option.some.inj hc
    decide
  · dsimp only at hc
    split at hc
    · obtain rfl := Option.some.inj hc
      decide
    · obtain rfl := Option.some.inj hc
      decide

/-- The parts of an instant in its local time. -/
theorem local_parts (offset t : Int) :
    localTime offset t = (localDate offset t).toDay * nsPerDay +
      (secondOfDay offset t * 1000 : Nat) * 1000000 + nanosecond offset t := by
  unfold localDate secondOfDay nanosecond
  rw [day_date]
  generalize localTime offset t = x
  unfold nsPerDay nsPerSecond
  omega

/-- **An instant is read back** but for the seconds of its offset. -/
theorem read_format {offset t : Int} {text : List Char} (h : format offset t = some text) :
    read text = some (t + offset.tmod 60 * nsPerSecond) := by
  unfold format at h
  split at h
  · next hwritable =>
    obtain ⟨hyear, hoffset⟩ := hwritable
    have hsecond : secondOfDay offset t < 86400 := by
      unfold secondOfDay nsPerDay nsPerSecond
      omega
    have hnano : nanosecond offset t < 1000000000 := by
      unfold nanosecond nsPerSecond
      omega
    rw [← Option.some.inj h, read]
    simp only [readDate_isoDay (valid_date _) hyear, Option.bind_eq_bind, Option.bind_some,
      expect_cons, readTime_clockText hsecond, readFraction_fraction hnano (head_zoneText offset),
      readZone_zoneText hoffset, localDate]
    have hparts := local_parts offset t
    unfold localDate localTime at hparts
    refine congrArg some ?_
    unfold localTime
    rw [← hparts, Int.sub_mul]
    omega
  · cases h

/-- **What JavaScript writes is read as the instant it is**, if its year has four digits. -/
theorem read_toISOString {t : Int} (h : 0 ≤ (date (day t)).year ∧ (date (day t)).year ≤ 9999) :
    read (toISOString t) = some (t * 1000000) := by
  have htime : 0 ≤ timeWithinDay t ∧ timeWithinDay t < 86400000 := by
    unfold timeWithinDay msPerDay
    omega
  have hdays : day t * msPerDay + timeWithinDay t = t := by
    unfold day timeWithinDay msPerDay
    omega
  unfold toISOString read
  generalize timeWithinDay t = time at *
  have hclock := readTime_written (h := (time / 3600000).toNat) (m := (time / 60000 % 60).toNat)
    (s := (time / 1000 % 60).toNat) (by omega) (by omega) (by omega)
    ('.' :: (zeroPad 3 (time % 1000).toNat ++ ['Z']))
  have hlen := length_zeroPad 3 (n := (time % 1000).toNat) (by decide) (by omega)
  have hfraction : readFraction ('.' :: (zeroPad 3 (time % 1000).toNat ++ ['Z'])) =
      ((time % 1000).toNat * 1000000, ['Z']) := by
    obtain ⟨htake, hdrop⟩ :=
      @takeWhile_digits (zeroPad 3 (time % 1000).toNat) ['Z'] isDigit_zeroPad fun c hc => by
        obtain rfl := Option.some.inj hc
        decide
    have hne : zeroPad 3 (time % 1000).toNat ≠ [] := fun hnil => by
      rw [hnil] at hlen
      cases hlen
    have hnine : (zeroPad 3 (time % 1000).toNat).take 9 = zeroPad 3 (time % 1000).toNat :=
      List.take_of_length_le (by omega)
    simp only [readFraction, htake, hdrop, if_neg hne, hnine, hlen, readDigits_zeroPad]
    rfl
  have hsum := clock_sum htime.1
  simp only [List.append_assoc, List.cons_append] at hclock ⊢
  simp only [readDate_isoDay (valid_date _) h, Option.bind_eq_bind, Option.bind_some, expect_cons,
    hclock, hfraction, readZone, day_date]
  refine congrArg some ?_
  unfold msPerDay at hdays
  unfold nsPerDay nsPerSecond
  push_cast at hsum ⊢
  omega

end ReleaseRadar.Lib.Rfc3339
