import Mathlib.Algebra.Group.Nat.Defs

/-!
# Numbers in decimal digits

A number is written with at least so many digits (`zeroPad`) and read back from them
(`readDigits`); `readDigits_zeroPad` is the round trip, whatever the width. A digit is no
separator, so a text with a number behind a separator can be taken apart (`append_sep_inj`,
`behind_dash_inj`, `dashed_inj`).
-/

namespace ReleaseRadar.Lib.Decimal

/-- The digits of a number, with zeros in front up to `width`. -/
def zeroPad (width n : Nat) : List Char :=
  List.replicate (width - (Nat.toDigits 10 n).length) '0' ++ Nat.toDigits 10 n

/-- The number that digits stand for. -/
def readDigits (cs : List Char) : Nat := Nat.ofDigitChars 10 cs 0

@[simp] theorem readDigits_zeroPad (width n : Nat) : readDigits (zeroPad width n) = n := by
  unfold readDigits zeroPad
  rw [Nat.ofDigitChars_append, Nat.ofDigitChars_replicate_zero, Nat.mul_zero,
    Nat.ofDigitChars_ten_toDigits]

theorem zeroPad_injective {width : Nat} {m n : Nat}
    (h : zeroPad width m = zeroPad width n) : m = n := by
  rw [← readDigits_zeroPad width m, h, readDigits_zeroPad]

theorem le_length_zeroPad (width n : Nat) : width ≤ (zeroPad width n).length := by
  unfold zeroPad
  rw [List.length_append, List.length_replicate]
  omega

/-- A number that has room takes exactly that. -/
theorem length_zeroPad (width : Nat) {n : Nat} (h₀ : 0 < width) (h : n < 10 ^ width) :
    (zeroPad width n).length = width := by
  have hdigits := (Nat.length_toDigits_le_iff (by decide) h₀).mpr h
  unfold zeroPad
  rw [List.length_append, List.length_replicate]
  omega

theorem isDigit_zeroPad {width n : Nat} : ∀ c ∈ zeroPad width n, c.isDigit := by
  intro c hc
  unfold zeroPad at hc
  rcases List.mem_append.mp hc with hzero | hdigit
  · obtain rfl := List.eq_of_mem_replicate hzero
    decide
  · exact Nat.isDigit_of_mem_toDigits (by decide) (by decide) hdigit

theorem isDigit_of_mem_toString {n : Nat} {c : Char} (h : c ∈ (toString n).toList) : c.isDigit := by
  rw [Nat.toString_eq_repr, Nat.toList_repr] at h
  exact Nat.isDigit_of_mem_toDigits (by decide) (by decide) h

theorem toString_inj {m n : Nat} (h : toString m = toString n) : m = n := by
  have hdigits := congrArg String.toList h
  rw [Nat.toString_eq_repr, Nat.toString_eq_repr, Nat.toList_repr, Nat.toList_repr] at hdigits
  rw [← Nat.ofDigitChars_ten_toDigits (n := m), hdigits, Nat.ofDigitChars_ten_toDigits]

/-- A separator that is not in what follows it is the last one. -/
theorem append_sep_inj {α : Type} {sep : α} {a b c d : List α} (hc : sep ∉ c) (hd : sep ∉ d)
    (h : a ++ sep :: c = b ++ sep :: d) : a = b ∧ c = d := by
  rcases List.append_eq_append_iff.mp h with ⟨x, hb, hx⟩ | ⟨x, ha, hx⟩
  · cases x with
    | nil =>
      rw [List.append_nil] at hb
      exact ⟨hb.symm, (List.cons.inj hx).2⟩
    | cons y x =>
      refine absurd ?_ hc
      rw [(List.cons.inj hx).2]
      simp
  · cases x with
    | nil =>
      rw [List.append_nil] at ha
      exact ⟨ha, (List.cons.inj hx).2.symm⟩
    | cons y x =>
      refine absurd ?_ hd
      rw [(List.cons.inj hx).2]
      simp

/-- A text that has no dash behind the last dash. -/
theorem behind_dash_inj {s t u v : String} (hu : '-' ∉ u.toList) (hv : '-' ∉ v.toList)
    (h : s ++ "-" ++ u = t ++ "-" ++ v) : s = t ∧ u = v := by
  have hlist := congrArg String.toList h
  simp only [String.toList_append, List.append_assoc] at hlist
  obtain ⟨hs, hn⟩ := append_sep_inj hu hv hlist
  exact ⟨String.toList_inj.mp hs, String.toList_inj.mp hn⟩

/-- A number behind a dash: the number has none, so the last one ends the text. -/
theorem dashed_inj {s t : String} {m n : Nat}
    (h : s ++ "-" ++ toString m = t ++ "-" ++ toString n) :
    s = t ∧ m = n := by
  have hdash : ∀ n : Nat, '-' ∉ (toString n).toList := by
    intro n hm
    exact absurd (isDigit_of_mem_toString hm) (by decide)
  obtain ⟨hs, hn⟩ := behind_dash_inj (hdash m) (hdash n) h
  exact ⟨hs, toString_inj hn⟩

end ReleaseRadar.Lib.Decimal
