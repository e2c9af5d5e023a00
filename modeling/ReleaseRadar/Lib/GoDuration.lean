import ReleaseRadar.Lib.Double
import ReleaseRadar.Lib.Rfc3339

/-!
# Durations of Go

`time.Duration.String` and `time.ParseDuration`. A duration is a number of nanoseconds of 64
bits. It is written in hours, minutes and seconds, or in one smaller unit, with the fraction of
the last unit but not the zeros at its end. A text is read number by number, each with its own
unit; a fraction is converted in double precision, which is exact for as many digits as the
unit has (`fractionOf_exact`).

`parse_text` is the round trip.
-/

namespace ReleaseRadar.Lib.GoDuration

open Decimal Rfc3339

/-- What `int64` holds. -/
def Fits (d : Int) : Prop := -2 ^ 63 ≤ d ∧ d < 2 ^ 63

instance (d : Int) : Decidable (Fits d) := inferInstanceAs (Decidable (_ ∧ _))

/-! ## Writing -/

/-- The digits behind the point, and the point, of `r` parts of `10 ^ prec`. -/
def fraction (prec r : Nat) : List Char :=
  if r = 0 then [] else '.' :: (zeroPad prec r).rdropWhile (· == '0')

/-- `u` parts of `10 ^ prec`. -/
def decimal (prec u : Nat) : List Char :=
  zeroPad 0 (u / 10 ^ prec) ++ fraction prec (u % 10 ^ prec)

/-- The hours, then the minutes, of so many minutes, if there are any. -/
def minutesText (m : Nat) : List Char :=
  if m = 0 then []
  else (if m / 60 = 0 then [] else zeroPad 0 (m / 60) ++ ['h']) ++ zeroPad 0 (m % 60) ++ ['m']

def magnitudeText (u : Nat) : List Char :=
  if u = 0 then ['0', 's']
  else if u < 1000 then decimal 0 u ++ ['n', 's']
  else if u < 1000000 then decimal 3 u ++ ['µ', 's']
  else if u < 1000000000 then decimal 6 u ++ ['m', 's']
  else
    minutesText (u / 1000000000 / 60) ++
      (zeroPad 0 (u / 1000000000 % 60) ++ fraction 9 (u % 1000000000) ++ ['s'])

/-- `String`. -/
def text (d : Int) : List Char := (if d < 0 then ['-'] else []) ++ magnitudeText d.natAbs

/-! ## Reading -/

/-- `unitMap`; the micro sign and the Greek letter are both known. -/
def unitOf (name : List Char) : Option Nat :=
  if name = ['n', 's'] then some 1
  else if name = ['u', 's'] ∨ name = ['µ', 's'] ∨ name = ['μ', 's'] then some 1000
  else if name = ['m', 's'] then some 1000000
  else if name = ['s'] then some 1000000000
  else if name = ['m'] then some 60000000000
  else if name = ['h'] then some 3600000000000
  else none

/-- `leadingFraction`: the number that the digits stand for, and how many of them fit. -/
def leadingFraction (x k : Nat) : List Char → Nat × Nat
  | [] => (x, k)
  | c :: cs =>
    if (2 ^ 63 - 1) / 10 < x then (x, k)
    else
      let y := x * 10 + (c.toNat - '0'.toNat)
      if 2 ^ 63 < y then (x, k) else leadingFraction y (k + 1) cs

/-- `uint64(float64(f) * (float64(unit) / scale))`, where `scale` is `10 ^ k`. -/
def fractionOf (unit f k : Nat) : Nat :=
  ⌊nearest (nearest f * nearest (unit / 10 ^ k))⌋.toNat

/-- Not a digit and no point: it belongs to a unit. -/
def isUnitChar (c : Char) : Bool := !(c == '.' || c.isDigit)

/-- What is behind the point, if there is one, and what is left. -/
def readFraction : List Char → List Char × List Char
  | '.' :: cs => (cs.takeWhile Char.isDigit, cs.dropWhile Char.isDigit)
  | cs => ([], cs)

/-- One number with its unit. -/
def readPart (cs : List Char) : Option (Nat × List Char) :=
  let int := cs.takeWhile Char.isDigit
  let (frac, rest) := readFraction (cs.dropWhile Char.isDigit)
  if 2 ^ 63 < readDigits int then none
  else if int = [] ∧ frac = [] then none
  else
    (unitOf (rest.takeWhile isUnitChar)).bind fun unit =>
      if 2 ^ 63 / unit < readDigits int then none
      else
        let (f, k) := leadingFraction 0 0 frac
        let v := readDigits int * unit + if 0 < f then fractionOf unit f k else 0
        if 2 ^ 63 < v then none else some (v, rest.dropWhile isUnitChar)

/-- One part after the other, at most so many. -/
def readParts : Nat → List Char → Option Nat
  | _, [] => some 0
  | 0, _ :: _ => none
  | n + 1, cs => do
    let (v, rest) ← readPart cs
    let d ← readParts n rest
    if 2 ^ 63 < v + d then none else some (v + d)

/-- `ParseDuration`; `none` is its error. -/
def parse (cs : List Char) : Option Int :=
  let body := if cs.head? = some '-' ∨ cs.head? = some '+' then cs.tail else cs
  if body = ['0'] then some 0
  else if body = [] then none
  else
    (readParts body.length body).bind fun d =>
      if cs.head? = some '-' then some (-d) else if 2 ^ 63 ≤ d then none else some d

/-! ## Fractions -/

/-- As many digits as fit into 63 bits anyway. -/
theorem leadingFraction_digits {ds : List Char} (hds : ∀ c ∈ ds, c.isDigit) {x k j : Nat}
    (hx : x < 10 ^ j) (hj : j + ds.length ≤ 18) :
    leadingFraction x k ds = (Nat.ofDigitChars 10 ds x, k + ds.length) := by
  induction ds generalizing x k j with
  | nil => rfl
  | cons c ds ih =>
    rw [List.length_cons] at hj
    have hpow : (10 : Nat) ^ j ≤ 10 ^ 17 := Nat.pow_le_pow_right (by decide) (by omega)
    have hc : c.toNat - '0'.toNat ≤ 9 := by
      have hdigit := hds c List.mem_cons_self
      simp only [Char.isDigit, Bool.and_eq_true, decide_eq_true_eq,
        UInt32.le_iff_toNat_le] at hdigit
      have h9 : c.toNat ≤ 57 := hdigit.2
      show c.toNat - 48 ≤ 9
      omega
    have hnext : x * 10 + (c.toNat - '0'.toNat) < 10 ^ (j + 1) := by
      rw [Nat.pow_succ]
      omega
    rw [leadingFraction, if_neg (by omega), Nat.ofDigitChars_cons, Nat.mul_comm 10 x]
    dsimp only
    rw [if_neg (by omega), ih (fun d hd => hds d (List.mem_cons_of_mem c hd)) hnext (by omega)]
    rw [List.length_cons]
    congr 1
    omega

/-- Nothing is rounded when the unit has as many digits as the fraction. -/
theorem fractionOf_exact {prec f k : Nat} (hk : k ≤ prec) (hprec : prec ≤ 9)
    (hf : f * 10 ^ (prec - k) < 10 ^ prec) :
    fractionOf (10 ^ prec) f k = f * 10 ^ (prec - k) := by
  have hsmall : (10 : Nat) ^ prec ≤ 10 ^ 9 := Nat.pow_le_pow_right (by decide) hprec
  have hexact : ∀ n : Nat, n ≤ 10 ^ 9 → nearest (n : ℚ) = n := by
    intro n hn
    have hgrid : OnGrid ((n : Int) : ℚ) := onGrid_intCast (by
      rw [Nat.abs_cast]
      exact_mod_cast hn.trans (by decide))
    exact_mod_cast nearest_of_onGrid hgrid
  have hscale : ((10 ^ prec : Nat) : ℚ) / 10 ^ k = ((10 ^ (prec - k) : Nat) : ℚ) := by
    rw [div_eq_iff (by positivity)]
    push_cast
    rw [← pow_add, Nat.sub_add_cancel hk]
  have hunit : 10 ^ (prec - k) ≤ 10 ^ 9 :=
    (Nat.pow_le_pow_right (by decide) (Nat.sub_le prec k)).trans hsmall
  have hle : f ≤ f * 10 ^ (prec - k) := Nat.le_mul_of_pos_right f (by positivity)
  unfold fractionOf
  rw [hscale, hexact _ hunit, hexact f (by omega), ← Nat.cast_mul, hexact _ (by omega),
    Int.floor_natCast, Int.toNat_natCast]

/-! ## One number -/

/-- A unit as it is written: its name, and how many nanoseconds it has. -/
structure IsUnit (name : List Char) (unit : Nat) : Prop where
  ne_nil : name ≠ []
  chars : ∀ c ∈ name, isUnitChar c
  unitOf : unitOf name = some unit
  small : unit ≤ 3600000000000

/-- Another number follows, or nothing. -/
def Ends (rest : List Char) : Prop := ∀ c ∈ rest.head?, isUnitChar c = false

/-- A unit ends where the next number begins. -/
theorem takeWhile_unit {name rest : List Char} (hname : ∀ c ∈ name, isUnitChar c)
    (hrest : Ends rest) :
    (name ++ rest).takeWhile isUnitChar = name ∧ (name ++ rest).dropWhile isUnitChar = rest := by
  rw [List.takeWhile_append_of_pos hname, List.dropWhile_append_of_pos hname]
  cases rest with
  | nil => exact ⟨List.append_nil _, rfl⟩
  | cons c rest =>
    have hc : ¬isUnitChar c = true := by rw [hrest c rfl]; exact Bool.false_ne_true
    rw [List.takeWhile_cons_of_neg hc, List.dropWhile_cons_of_neg hc, List.append_nil]
    exact ⟨rfl, rfl⟩

/-- A unit starts with neither a digit nor a point. -/
theorem IsUnit.head {name : List Char} {unit : Nat} (h : IsUnit name unit) (rest : List Char) :
    ∀ c ∈ (name ++ rest).head?, ¬c.isDigit ∧ c ≠ '.' := by
  intro c hc
  cases name with
  | nil => exact absurd rfl h.ne_nil
  | cons d name =>
    obtain rfl := Option.some.inj hc
    have hd := h.chars d List.mem_cons_self
    simp only [isUnitChar, Bool.not_eq_true', Bool.or_eq_false_iff] at hd
    refine ⟨by simp [hd.2], fun he => ?_⟩
    rw [he] at hd
    exact absurd hd.1 (by decide)

/-- A number has a digit. -/
theorem toDigits_ne_nil (n : Nat) : zeroPad 0 n ≠ [] := by
  unfold zeroPad
  exact List.append_ne_nil_of_right_ne_nil _ Nat.toDigits_ne_nil

/-- The digits of a fraction: what they stand for, and how many there are. -/
structure FractionDigits (prec r : Nat) (ds : List Char) : Prop where
  digits : ∀ c ∈ ds, c.isDigit
  length : ds.length ≤ prec
  value : readDigits ds * 10 ^ (prec - ds.length) = r

/-- A fraction without its trailing zeros is still the fraction. -/
theorem fraction_digits {prec r : Nat} (hprec : 0 < prec) (hr : r < 10 ^ prec) :
    FractionDigits prec r ((zeroPad prec r).rdropWhile (· == '0')) := by
  obtain ⟨k, hpad⟩ := rdropWhile_append_replicate (zeroPad prec r)
  generalize (zeroPad prec r).rdropWhile (· == '0') = ds at *
  have hlen := length_zeroPad prec hprec hr
  rw [hpad, List.length_append, List.length_replicate] at hlen
  refine ⟨fun c hc => isDigit_zeroPad c (hpad ▸ List.mem_append_left _ hc), by omega, ?_⟩
  have hk : prec - ds.length = k := by omega
  rw [hk, ← readDigits_replicate, ← hpad, readDigits_zeroPad]

/-- What is read of a fraction. -/
theorem readFraction_written {prec r : Nat} (hr : r < 10 ^ prec) {rest : List Char}
    (hrest : ∀ c ∈ rest.head?, ¬c.isDigit ∧ c ≠ '.') :
    ∃ ds, readFraction (fraction prec r ++ rest) = (ds, rest) ∧ FractionDigits prec r ds := by
  unfold fraction
  split
  · next hzero =>
    refine ⟨[], ?_, fun c hc => absurd hc List.not_mem_nil, Nat.zero_le _, ?_⟩
    · rw [List.nil_append]
      unfold readFraction
      split
      · exact absurd rfl (hrest '.' rfl).2
      · rfl
    · rw [hzero]
      exact Nat.zero_mul _
  · next hne =>
    have hprec : 0 < prec := by
      by_contra h
      obtain rfl : prec = 0 := by omega
      omega
    have hdigits := fraction_digits hprec hr
    refine ⟨_, ?_, hdigits⟩
    obtain ⟨htake, hdrop⟩ := takeWhile_digits hdigits.digits fun c hc => (hrest c hc).1
    rw [List.cons_append, readFraction, htake, hdrop]

/-- **A number with its unit is read back.** -/
theorem readPart_written {n prec r unit : Nat} {name rest : List Char} (hunit : IsUnit name unit)
    (hprec : prec ≤ 9) (hr : r < 10 ^ prec) (hfraction : r = 0 ∨ unit = 10 ^ prec)
    (hrest : Ends rest) (hfits : n * unit + r ≤ 2 ^ 63) (hpos : 0 < unit) :
    readPart (zeroPad 0 n ++ (fraction prec r ++ (name ++ rest))) = some (n * unit + r, rest) := by
  have hhead := hunit.head rest
  obtain ⟨ds, hread, hds⟩ := readFraction_written hr hhead
  -- behind the digits comes a point or a unit
  have hstop : ∀ c ∈ (fraction prec r ++ (name ++ rest)).head?, ¬c.isDigit := by
    intro c hc
    unfold fraction at hc
    split at hc
    · exact (hhead c hc).1
    · obtain rfl := Option.some.inj hc
      decide
  obtain ⟨htake, hdrop⟩ := @takeWhile_digits (zeroPad 0 n) _ isDigit_zeroPad hstop
  obtain ⟨hname, htail⟩ := takeWhile_unit hunit.chars hrest
  have hle : n ≤ n * unit := Nat.le_mul_of_pos_right n hpos
  have hdiv : n ≤ 2 ^ 63 / unit := (Nat.le_div_iff_mul_le hpos).mpr (by omega)
  have hleading := leadingFraction_digits (x := 0) (k := 0) (j := 0) hds.digits (by decide)
    (by have := hds.length; omega)
  rw [Nat.zero_add] at hleading
  have hvalue :
      (if 0 < readDigits ds then fractionOf unit (readDigits ds) ds.length else 0) = r := by
    split
    · next hf =>
      have hr0 : r ≠ 0 := by
        rw [← hds.value]
        exact Nat.ne_of_gt (Nat.mul_pos hf (by positivity))
      rw [hfraction.resolve_left hr0,
        fractionOf_exact hds.length hprec (by rw [hds.value]; exact hr), hds.value]
    · next hf =>
      rw [← hds.value, Nat.eq_zero_of_not_pos hf, Nat.zero_mul]
  unfold readPart
  simp only [htake, hdrop, hread, readDigits_zeroPad, if_neg (by omega : ¬2 ^ 63 < n),
    if_neg (fun h : zeroPad 0 n = [] ∧ ds = [] => toDigits_ne_nil n h.1), hname, htail,
    hunit.unitOf, Option.bind_some, if_neg (not_lt.mpr hdiv)]
  show (match leadingFraction 0 0 ds with
    | (f, k) => _) = _
  rw [hleading]
  show (if 2 ^ 63 < n * unit + (if 0 < readDigits ds then fractionOf unit (readDigits ds) ds.length
    else 0) then none else some (n * unit + (if 0 < readDigits ds then
      fractionOf unit (readDigits ds) ds.length else 0), rest)) = _
  rw [hvalue, if_neg (by omega)]

/-! ## The round trip -/

/-- Its parts add up to `d`. -/
def ReadsAs (cs : List Char) (d : Nat) : Prop := ∀ n, cs.length ≤ n → readParts n cs = some d

theorem readsAs_nil : ReadsAs [] 0 := fun n _ => by cases n <;> rfl

/-- One number with its unit is read, and what follows it. -/
theorem readsAs_part {n prec r unit d : Nat} {name rest : List Char} (hunit : IsUnit name unit)
    (hprec : prec ≤ 9) (hr : r < 10 ^ prec) (hfraction : r = 0 ∨ unit = 10 ^ prec)
    (hrest : Ends rest) (hpos : 0 < unit) (hd : ReadsAs rest d)
    (hfits : n * unit + r + d ≤ 2 ^ 63) :
    ReadsAs (zeroPad 0 n ++ (fraction prec r ++ (name ++ rest))) (n * unit + r + d) := by
  intro m hm
  have hpart := readPart_written (n := n) hunit hprec hr hfraction hrest (by omega) hpos
  obtain ⟨c, cs, hcs⟩ := List.exists_cons_of_ne_nil (toDigits_ne_nil n)
  have hlen : (zeroPad 0 n).length = cs.length + 1 := by rw [hcs]; rfl
  simp only [List.length_append] at hm
  obtain ⟨m, rfl⟩ := Nat.exists_eq_succ_of_ne_zero (by omega : m ≠ 0)
  have hmore := hd m (by omega)
  rw [hcs] at hpart ⊢
  simp only [List.cons_append] at hpart ⊢
  simp only [readParts, hpart, hmore, Option.bind_eq_bind, Option.bind_some,
    if_neg (by omega : ¬2 ^ 63 < n * unit + r + d)]

/-- The end of the text ends a unit. -/
theorem ends_nil : Ends [] := fun _ h => absurd h nofun

/-- So does a digit. -/
theorem ends_zeroPad (n : Nat) (rest : List Char) : Ends (zeroPad 0 n ++ rest) := by
  intro c hc
  obtain ⟨d, ds, hds⟩ := List.exists_cons_of_ne_nil (toDigits_ne_nil n)
  rw [hds] at hc
  obtain rfl := Option.some.inj hc
  have hdigit := @isDigit_zeroPad 0 n d (hds ▸ List.mem_cons_self)
  simp [isUnitChar, hdigit]

/-- The units are those of the table. -/
theorem isUnit_ns : IsUnit ['n', 's'] 1 :=
  ⟨by decide, List.all_eq_true.mp rfl, by decide, by decide⟩

theorem isUnit_us : IsUnit ['µ', 's'] 1000 :=
  ⟨by decide, List.all_eq_true.mp rfl, by decide, by decide⟩

theorem isUnit_ms : IsUnit ['m', 's'] 1000000 :=
  ⟨by decide, List.all_eq_true.mp rfl, by decide, by decide⟩

theorem isUnit_s : IsUnit ['s'] 1000000000 :=
  ⟨by decide, List.all_eq_true.mp rfl, by decide, by decide⟩

theorem isUnit_m : IsUnit ['m'] 60000000000 :=
  ⟨by decide, List.all_eq_true.mp rfl, by decide, by decide⟩

theorem isUnit_h : IsUnit ['h'] 3600000000000 :=
  ⟨by decide, List.all_eq_true.mp rfl, by decide, by decide⟩

/-- One unit alone, with its fraction. -/
theorem readsAs_decimal {prec u unit : Nat} {name : List Char} (hunit : IsUnit name unit)
    (hscale : unit = 10 ^ prec) (hprec : prec ≤ 9) (hu : u ≤ 2 ^ 63) :
    ReadsAs (decimal prec u ++ name) u := by
  subst hscale
  have hpos : 0 < 10 ^ prec := by positivity
  have hsum : u / 10 ^ prec * 10 ^ prec + u % 10 ^ prec + 0 = u := Nat.div_add_mod' u _
  have h := readsAs_part (n := u / 10 ^ prec) hunit hprec (Nat.mod_lt u hpos) (.inr rfl) ends_nil
    hpos readsAs_nil (by omega)
  rw [hsum, List.append_nil] at h
  rw [decimal, List.append_assoc]
  exact h

/-- Whole minutes before a text that starts with a number. -/
theorem readsAs_minutes {m d : Nat} {rest : List Char} (hrest : Ends rest) (hd : ReadsAs rest d)
    (hfits : m * 60000000000 + d ≤ 2 ^ 63) :
    ReadsAs (minutesText m ++ rest) (m * 60000000000 + d) := by
  have hzero : ∀ n (cs : List Char), zeroPad 0 n ++ cs = zeroPad 0 n ++ (fraction 0 0 ++ cs) :=
    fun _ _ => rfl
  unfold minutesText
  split
  · next hm =>
    rw [hm, Nat.zero_mul, Nat.zero_add]
    exact hd
  · have hle : m % 60 * 60000000000 ≤ m * 60000000000 := Nat.mul_le_mul_right _ (Nat.mod_le m 60)
    have hless : m % 60 * 60000000000 + 0 + d ≤ 2 ^ 63 := by
      rw [Nat.add_zero]
      exact (Nat.add_le_add_right hle d).trans hfits
    have hminutes := @readsAs_part (m % 60) 0 0 _ _ _ _ isUnit_m (by decide) (by decide)
      (.inl rfl) hrest (by decide) hd hless
    split
    · next hhours =>
      have hmod : m % 60 * 60000000000 + 0 + d = m * 60000000000 + d := by omega
      rw [hmod] at hminutes
      rw [List.nil_append, List.append_assoc, hzero]
      exact hminutes
    · have hends := ends_zeroPad (m % 60) (fraction 0 0 ++ (['m'] ++ rest))
      have hsum : m / 60 * 3600000000000 + 0 + (m % 60 * 60000000000 + 0 + d) =
          m * 60000000000 + d := by omega
      have hhours := @readsAs_part (m / 60) 0 0 _ _ _ _ isUnit_h (by decide) (by decide)
        (.inl rfl) hends (by decide) hminutes (hsum.trans_le hfits)
      rw [hsum] at hhours
      simp only [List.append_assoc]
      rw [hzero (m / 60), hzero (m % 60)]
      exact hhours

/-- Hours, minutes and seconds are read back. -/
theorem readsAs_magnitude {u : Nat} (hu : u ≤ 2 ^ 63) : ReadsAs (magnitudeText u) u := by
  unfold magnitudeText
  split
  · next hzero =>
    rw [hzero]
    exact @readsAs_decimal 9 0 _ ['s'] isUnit_s (by norm_num) (by decide) (by decide)
  · split
    · exact @readsAs_decimal 0 u _ _ isUnit_ns (by norm_num) (by decide) hu
    · split
      · exact @readsAs_decimal 3 u _ _ isUnit_us (by norm_num) (by decide) hu
      · split
        · exact @readsAs_decimal 6 u _ _ isUnit_ms (by norm_num) (by decide) hu
        · have hseconds := @readsAs_part (u / 1000000000 % 60) 9
            (u % 1000000000) _ _ _ _ isUnit_s (by decide) (by omega) (.inr (by norm_num)) ends_nil
            (by decide) readsAs_nil (by omega)
          have hends := ends_zeroPad (u / 1000000000 % 60)
            (fraction 9 (u % 1000000000) ++ (['s'] ++ []))
          have h := readsAs_minutes (m := u / 1000000000 / 60) hends hseconds (by omega)
          have hsum : u / 1000000000 / 60 * 60000000000 +
              (u / 1000000000 % 60 * 1000000000 + u % 1000000000 + 0) = u := by omega
          rw [hsum] at h
          simp only [List.append_assoc, List.append_nil] at h ⊢
          exact h

/-- It begins with a digit. -/
theorem head_magnitude (u : Nat) : ∃ c cs, magnitudeText u = c :: cs ∧ c.isDigit := by
  have hstart : ∀ n (cs : List Char), ∃ c ds, zeroPad 0 n ++ cs = c :: ds ∧ c.isDigit := by
    intro n cs
    obtain ⟨c, ds, hds⟩ := List.exists_cons_of_ne_nil (toDigits_ne_nil n)
    exact ⟨c, ds ++ cs, by rw [hds]; rfl, isDigit_zeroPad c (hds ▸ List.mem_cons_self)⟩
  unfold magnitudeText decimal minutesText
  simp only [List.append_assoc]
  split
  · exact ⟨'0', ['s'], rfl, by decide⟩
  · split
    · exact hstart _ _
    · split
      · exact hstart _ _
      · split
        · exact hstart _ _
        · split
          · exact hstart _ _
          · split
            · rw [List.nil_append, List.append_assoc]
              exact hstart _ _
            · simp only [List.append_assoc]
              exact hstart _ _

/-- **A duration is read back from its text.** -/
theorem parse_text {d : Int} (h : Fits d) : parse (text d) = some d := by
  obtain ⟨hlow, hhigh⟩ := h
  have hreads := readsAs_magnitude (u := d.natAbs) (by omega) _ (Nat.le_refl _)
  obtain ⟨c, cs, hcs, hc⟩ := head_magnitude d.natAbs
  have hsign : ∀ sign, ¬sign.isDigit → (magnitudeText d.natAbs).head? ≠ some sign := by
    intro sign hsign he
    rw [hcs] at he
    exact hsign (Option.some.inj he ▸ hc)
  have hzero : magnitudeText d.natAbs ≠ ['0'] := by
    intro he
    rw [he] at hreads
    cases hreads
  have hne : magnitudeText d.natAbs ≠ [] := by
    rw [hcs]
    exact List.cons_ne_nil c cs
  unfold parse text
  by_cases hneg : d < 0
  · simp only [if_pos hneg, List.cons_append, List.nil_append, List.head?_cons, List.tail_cons,
      true_or, if_true, if_neg hzero, if_neg hne, hreads, Option.bind_some]
    exact congrArg some (by omega)
  · simp only [if_neg hneg, List.nil_append, hsign '-' (by decide), hsign '+' (by decide), or_self,
      if_false, if_neg hzero, if_neg hne, hreads, Option.bind_some]
    rw [if_neg (by omega)]
    exact congrArg some (by omega)

example : text 5400000000000 = "1h30m0s".toList := by decide

example : text (-1500) = "-1.5µs".toList := by decide

end ReleaseRadar.Lib.GoDuration
