import Mathlib.Data.Int.Log
import Mathlib.Data.Rat.Floor
import Mathlib.Tactic.FieldSimp
import Mathlib.Tactic.Linarith
import Mathlib.Tactic.Positivity
import Mathlib.Tactic.Ring

/-!
# Double precision

The numbers of binary64 as exact rationals: a value is a whole multiple of a power of two
(`OnGrid`), and an operation rounds its exact result to the nearest of them, of two to the even
one (`nearest`), unless it is too large. The two zeros are one.

* `le_nearest`, `nearest_le` — rounding does not pass a value, so a value is its own rounding
  (`nearest_of_onGrid`) and whole numbers up to `2 ^ 53` are exact (`onGrid_intCast`);
* `le_nearest_iff`, `nearest_le_iff` — which numbers are rounded to a bound or beyond it;
* `round_eq_finite_iff` — which numbers are not too large.
-/

namespace ReleaseRadar.Lib

/-! ## The nearest whole number -/

/-- Of two the even one. -/
def roundEven (q : ℚ) : Int :=
  if q - ⌊q⌋ < 1 / 2 then ⌊q⌋
  else if 1 / 2 < q - ⌊q⌋ then ⌊q⌋ + 1
  else if ⌊q⌋ % 2 = 0 then ⌊q⌋ else ⌊q⌋ + 1

/-- An integer is below the rounding exactly if it is at most half a unit above the number. -/
theorem le_roundEven_iff {k : Int} {q : ℚ} :
    k ≤ roundEven q ↔ (k : ℚ) - 1 / 2 < q ∨ (k : ℚ) - 1 / 2 = q ∧ k % 2 = 0 := by
  have hlow := Int.floor_le q
  have hhigh := Int.lt_floor_add_one q
  unfold roundEven
  generalize ⌊q⌋ = n at *
  -- below the floor, at it, next to it, above
  rcases lt_trichotomy k (n + 1) with hk | rfl | hk
  · have hkn : (k : ℚ) ≤ n := by exact_mod_cast Int.lt_add_one_iff.mp hk
    have hle : k ≤ n := Int.lt_add_one_iff.mp hk
    refine iff_of_true ?_ (.inl (by linarith))
    split
    · exact hle
    · split
      · omega
      · split <;> omega
  · push_cast
    split
    · next h => exact iff_of_false (by omega) (by rintro (h | ⟨h, -⟩) <;> linarith)
    · split
      · next h => exact iff_of_true (by omega) (.inl (by linarith))
      · next h₁ h₂ =>
        have htie : q = n + 1 / 2 := by linarith
        subst htie
        split
        · next heven =>
          refine iff_of_false (by omega) ?_
          rintro (h | ⟨-, h⟩)
          · linarith
          · omega
        · next hodd => exact iff_of_true (by omega) (.inr ⟨by ring, by omega⟩)
  · have hkn : (n : ℚ) + 2 ≤ k := by exact_mod_cast (by omega : n + 2 ≤ k)
    refine iff_of_false ?_ (by rintro (h | ⟨h, -⟩) <;> linarith)
    split
    · omega
    · split
      · omega
      · split <;> omega

/-- And above it likewise. -/
theorem roundEven_le_iff {k : Int} {q : ℚ} :
    roundEven q ≤ k ↔ q < (k : ℚ) + 1 / 2 ∨ q = (k : ℚ) + 1 / 2 ∧ k % 2 = 0 := by
  rw [← not_lt, ← Int.add_one_le_iff, le_roundEven_iff]
  push_cast
  rw [not_or, not_lt, not_and_or]
  constructor
  · rintro ⟨hle, hne | hodd⟩
    · exact .inl (lt_of_le_of_ne (by linarith) fun h => hne (by linarith))
    · rcases lt_or_eq_of_le hle with h | h
      · exact .inl (by linarith)
      · exact .inr ⟨by linarith, by omega⟩
  · rintro (h | ⟨rfl, heven⟩)
    · exact ⟨by linarith, .inl fun he => by linarith⟩
    · exact ⟨by linarith, .inr (by omega)⟩

/-- Rounding to even is symmetric. -/
theorem roundEven_neg (q : ℚ) : roundEven (-q) = -roundEven q := by
  refine eq_of_forall_le_iff fun k => ?_
  rw [le_roundEven_iff, le_neg, roundEven_le_iff]
  push_cast
  constructor
  · rintro (h | ⟨h, heven⟩)
    · exact .inl (by linarith)
    · exact .inr ⟨by linarith, by omega⟩
  · rintro (h | ⟨h, heven⟩)
    · exact .inl (by linarith)
    · exact .inr ⟨by linarith, by omega⟩

/-! ## The nearest value -/

/-- The exponent of the last place of `x`: 53 places, but not below `2 ^ -1074`. -/
def ulpExp (x : ℚ) : Int := max (Int.log 2 |x| - 52) (-1074)

/-- The value that `x` is rounded to, were there no largest one. -/
def nearest (x : ℚ) : ℚ := roundEven (x / 2 ^ ulpExp x) * 2 ^ ulpExp x

/-- A whole multiple of a power of two, with 53 places. -/
def OnGrid (x : ℚ) : Prop := ∃ m e : Int, x = m * 2 ^ e ∧ |m| ≤ 2 ^ 53 ∧ -1074 ≤ e

/-- The grid is symmetric. -/
theorem OnGrid.neg {x : ℚ} (h : OnGrid x) : OnGrid (-x) := by
  obtain ⟨m, e, rfl, hm, he⟩ := h
  exact ⟨-m, e, by push_cast; ring, by rwa [abs_neg], he⟩

/-- Integers up to 2^53 are on the grid. -/
theorem onGrid_intCast {n : Int} (h : |n| ≤ 2 ^ 53) : OnGrid n := ⟨n, 0, by simp, h, by decide⟩

/-- So are the powers of two. -/
theorem onGrid_zpow {e : Int} (h : -1074 ≤ e) : OnGrid ((2 : ℚ) ^ e) :=
  ⟨1, e, by simp, by decide, h⟩

theorem two_zpow_pos (e : Int) : (0 : ℚ) < 2 ^ e := zpow_pos (by norm_num) e

/-- A number has at most 53 bits above its last place. -/
theorem lt_zpow_ulpExp (x : ℚ) : |x| < 2 ^ (ulpExp x + 53) := by
  refine (Int.lt_zpow_succ_log_self (by decide : 1 < 2) |x|).trans_le ?_
  refine zpow_le_zpow_right₀ (by norm_num) ?_
  have := le_max_left (Int.log 2 |x| - 52) (-1074)
  unfold ulpExp
  omega

/-- And as many, unless it is subnormal. -/
theorem zpow_ulpExp_le {x : ℚ} (hx : x ≠ 0) (h : -1074 < ulpExp x) : 2 ^ (ulpExp x + 52) ≤ |x| := by
  have hlog := Int.zpow_log_le_self (by decide : 1 < 2) (abs_pos.mpr hx)
  have he : ulpExp x + 52 = Int.log 2 |x| := by
    unfold ulpExp at h ⊢
    omega
  rw [he]
  exact_mod_cast hlog

/-- Rounding is symmetric. -/
theorem nearest_neg (x : ℚ) : nearest (-x) = -nearest x := by
  unfold nearest
  have he : ulpExp (-x) = ulpExp x := by
    unfold ulpExp
    rw [abs_neg]
  rw [he, neg_div, roundEven_neg]
  push_cast
  ring

/-- Rounding is monotone at whole numbers. -/
theorem le_roundEven_of_le {k : Int} {q : ℚ} (h : (k : ℚ) ≤ q) : k ≤ roundEven q :=
  le_roundEven_iff.mpr (.inl (by linarith))

/-- **Rounding does not pass a value.** -/
theorem le_nearest {c x : ℚ} (hc : OnGrid c) (h : c ≤ x) : c ≤ nearest x := by
  have hu := two_zpow_pos (ulpExp x)
  obtain ⟨m, e, rfl, hm, he⟩ := hc
  have hmq : |(m : ℚ)| ≤ 2 ^ 53 := by exact_mod_cast hm
  -- what is a multiple of the last place of `x` is not passed
  have hmultiple : ∀ k : Int, (k : ℚ) * 2 ^ ulpExp x ≤ x → (k : ℚ) * 2 ^ ulpExp x ≤ nearest x := by
    intro k hk
    have hround : k ≤ roundEven (x / 2 ^ ulpExp x) := le_roundEven_of_le ((le_div_iff₀ hu).mpr hk)
    exact mul_le_mul_of_nonneg_right (by exact_mod_cast hround) hu.le
  rcases le_or_gt (ulpExp x) e with hexp | hexp
  · obtain ⟨n, rfl⟩ := Int.le.dest hexp
    have heq : (m : ℚ) * 2 ^ (ulpExp x + n) = (m * 2 ^ n : Int) * 2 ^ ulpExp x := by
      push_cast
      rw [zpow_add₀ (by norm_num), zpow_natCast]
      ring
    rw [heq] at h ⊢
    exact hmultiple _ h
  · -- otherwise it is not larger than `2 ^ 52` last places, and `x` is not smaller
    have hsmall : |(m : ℚ) * 2 ^ e| ≤ 2 ^ 52 * 2 ^ ulpExp x := by
      rw [abs_mul, abs_of_pos (two_zpow_pos e)]
      have hstep : (2 : ℚ) * 2 ^ e ≤ 2 ^ ulpExp x := by
        rw [← zpow_one_add₀ (by norm_num)]
        exact zpow_le_zpow_right₀ (by norm_num) (by omega)
      have hpos := two_zpow_pos e
      nlinarith
    have hsmall := abs_le.mp hsmall
    rcases eq_or_ne x 0 with rfl | hx
    · have := hmultiple 0
      simp only [Int.cast_zero, zero_mul] at this
      exact h.trans (this le_rfl)
    have hlarge := zpow_ulpExp_le hx (by omega)
    rw [zpow_add₀ (by norm_num), mul_comm] at hlarge
    norm_cast at hlarge hsmall ⊢
    rcases le_or_gt 0 x with hsign | hsign
    · rw [abs_of_nonneg hsign] at hlarge
      have := hmultiple (2 ^ 52) (by exact_mod_cast hlarge)
      push_cast at this hsmall ⊢
      linarith
    · rw [abs_of_neg hsign] at hlarge
      have := hmultiple (-2 ^ 52) (by push_cast at *; linarith)
      push_cast at this hsmall h hlarge ⊢
      linarith

/-- Nothing on the grid lies between a number and its rounding. -/
theorem nearest_le {c x : ℚ} (hc : OnGrid c) (h : x ≤ c) : nearest x ≤ c := by
  have hneg := le_nearest hc.neg (neg_le_neg h)
  rw [nearest_neg] at hneg
  exact neg_le_neg_iff.mp hneg

/-- A value is its own rounding. -/
theorem nearest_of_onGrid {x : ℚ} (h : OnGrid x) : nearest x = x :=
  le_antisymm (nearest_le h le_rfl) (le_nearest h le_rfl)

/-- What `x` is rounded to is a value. -/
theorem onGrid_nearest (x : ℚ) : OnGrid (nearest x) := by
  have hu := two_zpow_pos (ulpExp x)
  refine ⟨roundEven (x / 2 ^ ulpExp x), ulpExp x, rfl, ?_, le_max_right _ _⟩
  have hlt := lt_zpow_ulpExp x
  rw [zpow_add₀ (by norm_num), mul_comm] at hlt
  obtain ⟨hlow, hhigh⟩ := abs_lt.mp hlt
  norm_cast at hlow hhigh
  refine abs_le.mpr ⟨le_roundEven_iff.mpr (.inl ?_), roundEven_le_iff.mpr (.inl ?_)⟩
  · rw [lt_div_iff₀ hu]
    push_cast at hlow ⊢
    linarith
  · rw [div_lt_iff₀ hu]
    push_cast at hhigh ⊢
    linarith

/-! ## Where the rounding changes -/

/-- Where the last place is `2 ^ e`. -/
theorem ulpExp_eq {x : ℚ} {e : Int} (he : -1074 ≤ e) (hlow : (2 : ℚ) ^ (e + 52) ≤ x)
    (hhigh : x < 2 ^ (e + 53)) : ulpExp x = e := by
  have hx : 0 < x := (two_zpow_pos _).trans_le hlow
  have h₁ : e + 52 ≤ Int.log 2 x :=
    (Int.zpow_le_iff_le_log (by decide) hx).mp (by exact_mod_cast hlow)
  have h₂ : Int.log 2 x < e + 53 :=
    (Int.lt_zpow_iff_log_lt (by decide) hx).mp (by exact_mod_cast hhigh)
  unfold ulpExp
  rw [abs_of_pos hx]
  omega

section Bounds

variable {k e : Int} {x : ℚ} (he : -1074 ≤ e)
include he

/-- Below, at and above the numbers whose last place is `2 ^ e`. -/
theorem nearest_cases :
    (x < 2 ^ 52 * 2 ^ e ∧ nearest x ≤ 2 ^ 52 * 2 ^ e) ∨
      nearest x = roundEven (x / 2 ^ e) * 2 ^ e ∨
        (2 ^ 53 * 2 ^ e ≤ x ∧ 2 ^ 53 * 2 ^ e ≤ nearest x) := by
  have hpow : ∀ n : Nat, (2 : ℚ) ^ n * 2 ^ e = 2 ^ (e + n) := fun n => by
    rw [zpow_add₀ (by norm_num), zpow_natCast, mul_comm]
  have hgrid : ∀ n : Nat, OnGrid ((2 : ℚ) ^ n * 2 ^ e) := fun n => by
    rw [hpow]
    exact onGrid_zpow (by omega)
  rcases lt_or_ge x (2 ^ 52 * 2 ^ e) with h₁ | h₁
  · exact .inl ⟨h₁, nearest_le (hgrid 52) h₁.le⟩
  · rcases lt_or_ge x (2 ^ 53 * 2 ^ e) with h₂ | h₂
    · rw [hpow] at h₁ h₂
      refine .inr (.inl ?_)
      rw [nearest, ulpExp_eq he (by exact_mod_cast h₁) (by exact_mod_cast h₂)]
    · exact .inr (.inr ⟨h₂, le_nearest (hgrid 53) h₂⟩)

/-- What is rounded to a value or beyond it: from the middle to the value before it on, if the
last digit is even, and above the middle otherwise. -/
theorem le_nearest_iff (hk : 2 ^ 52 < k) (hk' : k ≤ 2 ^ 53) :
    (k : ℚ) * 2 ^ e ≤ nearest x ↔
      ((k : ℚ) - 1 / 2) * 2 ^ e < x ∨ ((k : ℚ) - 1 / 2) * 2 ^ e = x ∧ k % 2 = 0 := by
  have hu := two_zpow_pos e
  have hkq : (2 : ℚ) ^ 52 + 1 ≤ k := by exact_mod_cast hk
  have hkq' : (k : ℚ) ≤ 2 ^ 53 := by exact_mod_cast hk'
  rcases nearest_cases (x := x) he with ⟨h, hn⟩ | hn | ⟨h, hn⟩
  · refine iff_of_false (by nlinarith) ?_
    rintro (h' | ⟨h', -⟩) <;> nlinarith
  · rw [hn, mul_le_mul_iff_left₀ hu, Int.cast_le, le_roundEven_iff, lt_div_iff₀ hu,
      eq_div_iff hu.ne']
  · exact iff_of_true (by nlinarith) (.inl (by nlinarith))

/-- What is rounded to a value or to less. -/
theorem nearest_le_iff (hk : 2 ^ 52 ≤ k) (hk' : k < 2 ^ 53) :
    nearest x ≤ (k : ℚ) * 2 ^ e ↔
      x < ((k : ℚ) + 1 / 2) * 2 ^ e ∨ x = ((k : ℚ) + 1 / 2) * 2 ^ e ∧ k % 2 = 0 := by
  have hu := two_zpow_pos e
  have hkq : (2 : ℚ) ^ 52 ≤ k := by exact_mod_cast hk
  have hkq' : (k : ℚ) + 1 ≤ 2 ^ 53 := by exact_mod_cast hk'
  rcases nearest_cases (x := x) he with ⟨h, hn⟩ | hn | ⟨h, hn⟩
  · exact iff_of_true (by nlinarith) (.inl (by nlinarith))
  · rw [hn, mul_le_mul_iff_left₀ hu, Int.cast_le, roundEven_le_iff, div_lt_iff₀ hu,
      div_eq_iff hu.ne']
  · refine iff_of_false (by nlinarith) ?_
    rintro (h' | ⟨h', -⟩) <;> nlinarith

end Bounds

/-- Nor between their absolute values. -/
theorem le_abs_nearest {c x : ℚ} (hc : OnGrid c) (h : c ≤ |x|) : c ≤ |nearest x| := by
  rcases le_abs'.mp h with h | h
  · have hneg := nearest_le hc.neg h
    exact le_abs'.mpr (.inl hneg)
  · exact (le_nearest hc h).trans (le_abs_self _)

/-- Up to `2 ^ 53` the last place is 1: half of it is too little to pass an even bound. -/
theorem abs_nearest_le_iff {k : Int} {x : ℚ} (hk : 2 ^ 52 ≤ k) (hk' : k < 2 ^ 53)
    (heven : k % 2 = 0) : |nearest x| ≤ k ↔ |x| ≤ k + 1 / 2 := by
  have hbound : ∀ x : ℚ, nearest x ≤ k ↔ x ≤ k + 1 / 2 := by
    intro x
    have h := nearest_le_iff (e := 0) (x := x) (by decide) hk hk'
    rwa [zpow_zero, mul_one, mul_one, and_iff_left heven, ← le_iff_lt_or_eq] at h
  rw [abs_le', abs_le', hbound, ← nearest_neg, hbound]

/-- Half is reached half a unit early. -/
theorem half_le_nearest_iff {x : ℚ} : 1 / 2 ≤ nearest x ↔ 1 / 2 - 1 / 2 ^ 55 ≤ x := by
  have h := le_nearest_iff (k := 2 ^ 53) (e := -54) (x := x) (by decide) (by decide) (by decide)
  rw [and_iff_left (by decide : (2 : Int) ^ 53 % 2 = 0), ← le_iff_lt_or_eq] at h
  norm_num at h ⊢
  exact h

/-! ## Numbers -/

/-- The last place of the largest values. -/
def ulpMax : ℚ := 2 ^ (971 : Int)

theorem lt_ulpMax : 2 ^ 53 < ulpMax := by
  calc (2 : ℚ) ^ 53 = 2 ^ (53 : Int) := (zpow_natCast 2 53).symm
    _ < ulpMax := zpow_lt_zpow_right₀ (by norm_num) (by decide)

/-- The values that have an exponent. -/
abbrev Double.Value := { x : ℚ // OnGrid x ∧ |x| < 2 ^ 53 * ulpMax }

inductive Double
  | nan
  | inf (negative : Bool)
  | finite (x : Double.Value)

namespace Double

/-- The exact result of an operation, rounded. -/
def round (x : ℚ) : Double :=
  if h : |nearest x| < 2 ^ 53 * ulpMax then finite ⟨nearest x, onGrid_nearest x, h⟩
  else inf (x < 0)

def ofInt (n : Int) : Double := round n

def add : Double → Double → Double
  | nan, _ => nan
  | _, nan => nan
  | inf s, inf t => if s = t then inf s else nan
  | inf s, finite _ => inf s
  | finite _, inf t => inf t
  | finite x, finite y => round (x.val + y.val)

def mul : Double → Double → Double
  | nan, _ => nan
  | _, nan => nan
  | inf s, inf t => inf (s ^^ t)
  | inf s, finite y => if y.val = 0 then nan else inf (s ^^ decide (y.val < 0))
  | finite x, inf t => if x.val = 0 then nan else inf (decide (x.val < 0) ^^ t)
  | finite x, finite y => round (x.val * y.val)

def Positive : Double → Prop
  | finite x => 0 < x.val
  | _ => False

/-- A double is its own rounding. -/
theorem round_of_value (x : Value) : round x.val = finite x := by
  have hn := nearest_of_onGrid x.property.1
  unfold round
  rw [dif_pos (by rw [hn]; exact x.property.2)]
  exact congrArg finite (Subtype.ext hn)

/-- **What is not too large**: less than half a last place above the largest value. -/
theorem abs_nearest_lt_iff {x : ℚ} :
    |nearest x| < 2 ^ 53 * ulpMax ↔ |x| < (2 ^ 53 - 1 / 2) * ulpMax := by
  have hbound : ∀ x : ℚ,
      nearest x < 2 ^ 53 * ulpMax ↔ x < (2 ^ 53 - 1 / 2) * ulpMax := by
    intro x
    have h := le_nearest_iff (k := 2 ^ 53) (e := 971) (x := x) (by decide) (by decide) (by decide)
    rw [← ulpMax, show ((2 ^ 53 : Int) : ℚ) = 2 ^ 53 by norm_num,
      and_iff_left (by decide : (2 : Int) ^ 53 % 2 = 0), ← le_iff_lt_or_eq] at h
    rw [← not_le, h, not_le]
  rw [abs_lt, abs_lt, hbound, neg_lt, ← nearest_neg, hbound, neg_lt]

/-- Below the limit the rounding is finite, -/
theorem round_eq_finite {x : ℚ} (h : |x| < (2 ^ 53 - 1 / 2) * ulpMax) :
    round x = finite ⟨nearest x, onGrid_nearest x, abs_nearest_lt_iff.mpr h⟩ :=
  dif_pos (abs_nearest_lt_iff.mpr h)

/-- and from it on infinite. -/
theorem round_eq_inf {x : ℚ} (h : ¬|x| < (2 ^ 53 - 1 / 2) * ulpMax) :
    round x = inf (x < 0) := dif_neg (mt abs_nearest_lt_iff.mp h)

/-- What is on the grid is kept. -/
theorem round_of_onGrid {x : ℚ} (h : OnGrid x) (hx : |x| < 2 ^ 53 * ulpMax) :
    ∃ v : Value, round x = finite v ∧ v.val = x := by
  let v : Value := ⟨x, h, hx⟩
  exact ⟨v, round_of_value v, rfl⟩

/-- Integers up to 2^53 are doubles. -/
theorem ofInt_eq {n : Int} (h : |n| ≤ 2 ^ 53) : ∃ v : Value, ofInt n = finite v ∧ v.val = n := by
  refine round_of_onGrid (onGrid_intCast h) ?_
  have hn : |(n : ℚ)| ≤ 2 ^ 53 := by exact_mod_cast h
  have hmax := lt_ulpMax
  linarith

/-- A large number stays large. -/
theorem round_large {c x : ℚ} (hc : OnGrid c) (h : c ≤ |x|) :
    (∃ s, round x = inf s) ∨ ∃ v : Value, round x = finite v ∧ c ≤ |v.val| := by
  by_cases hx : |x| < (2 ^ 53 - 1 / 2) * ulpMax
  · exact .inr ⟨_, round_eq_finite hx, le_abs_nearest hc h⟩
  · exact .inl ⟨_, round_eq_inf hx⟩

/-- `Math.round`: halves go up. -/
def mathRound : Double → Double
  | finite x => if x.val = ⌊x.val⌋ then finite x else ofInt ⌊x.val + 1 / 2⌋
  | v => v

/-- A fraction has a place behind the point, so it is not large. -/
theorem abs_le_of_fraction {x : ℚ} (h : OnGrid x) (hx : x ≠ ⌊x⌋) : |x| ≤ 2 ^ 52 := by
  obtain ⟨m, e, rfl, hm, -⟩ := h
  have he : e < 0 := by
    by_contra hnot
    obtain ⟨n, rfl⟩ := Int.eq_ofNat_of_zero_le (not_lt.mp hnot)
    refine hx ?_
    have hint : (m : ℚ) * 2 ^ ((n : Nat) : Int) = (m * 2 ^ n : Int) := by
      push_cast [zpow_natCast]
      rfl
    rw [hint, Int.floor_intCast]
  have hhalf : (2 : ℚ) ^ e ≤ 2 ^ (-1 : Int) := zpow_le_zpow_right₀ (by norm_num) (by omega)
  have hmq : |(m : ℚ)| ≤ 2 ^ 53 := by exact_mod_cast hm
  rw [abs_mul, abs_of_pos (two_zpow_pos e)]
  calc |(m : ℚ)| * 2 ^ e ≤ 2 ^ 53 * 2 ^ (-1 : Int) :=
        mul_le_mul hmq hhalf (two_zpow_pos e).le (by norm_num)
    _ = 2 ^ 52 := by norm_num

/-- `Math.round` of a double is the floor of the number a half above it. -/
theorem mathRound_finite (x : Value) :
    ∃ y : Value, mathRound (finite x) = finite y ∧ y.val = ⌊x.val + 1 / 2⌋ := by
  by_cases hwhole : x.val = ⌊x.val⌋
  · refine ⟨x, if_pos hwhole, ?_⟩
    rw [hwhole, Int.floor_intCast_add]
    norm_num
  · rw [mathRound, if_neg hwhole]
    refine ofInt_eq ?_
    obtain ⟨hlow, hhigh⟩ := abs_le.mp (abs_le_of_fraction x.property.1 hwhole)
    refine abs_le.mpr ⟨Int.le_floor.mpr ?_, Int.floor_le_iff.mpr ?_⟩
    · push_cast
      linarith
    · push_cast
      linarith

end Double

end ReleaseRadar.Lib
