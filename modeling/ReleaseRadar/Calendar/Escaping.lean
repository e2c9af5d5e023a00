import ReleaseRadar.Calendar.Feed

/-!
# Escaping

`escape` of `ics.go` over every string of octets, as the replacer of the source sees it; on
text it is the `escape` of the feed (`utf8_escape`). The replacer takes the first pattern that
matches, so a CRLF is one break and not two, and goes on behind what it has read, so a
backslash that it has written is not escaped again.

`escaping`: no line break is left, each separator stands behind an odd run of backslashes, a
reader of the value gets the string with its line breaks in one style, and so two strings
that are written alike differ in that style only.
-/

namespace ReleaseRadar.Calendar

open Lib Lib.ContentLine

def backslash : UInt8 := 92
def comma : UInt8 := 44
def semicolon : UInt8 := 59

/-- The replacer of `escape`: at each place the first pattern that matches. -/
def escapeOctets : List UInt8 → List UInt8
  | [] => []
  | 92 :: bs => 92 :: 92 :: escapeOctets bs
  | 13 :: 10 :: bs => 92 :: 110 :: escapeOctets bs
  | 13 :: bs => 92 :: 110 :: escapeOctets bs
  | 10 :: bs => 92 :: 110 :: escapeOctets bs
  | 44 :: bs => 92 :: 44 :: escapeOctets bs
  | 59 :: bs => 92 :: 59 :: escapeOctets bs
  | b :: bs => b :: escapeOctets bs

/-- A value of type TEXT, decoded to its end: a backslash and what it escapes are one
character, and a separator does not stand alone. -/
def decodeOctets : List UInt8 → Option (List UInt8)
  | [] => some []
  | 92 :: 110 :: bs => (decodeOctets bs).map (10 :: ·)
  | 92 :: 78 :: bs => (decodeOctets bs).map (10 :: ·)
  | 92 :: 92 :: bs => (decodeOctets bs).map (92 :: ·)
  | 92 :: 44 :: bs => (decodeOctets bs).map (44 :: ·)
  | 92 :: 59 :: bs => (decodeOctets bs).map (59 :: ·)
  | 92 :: _ => none
  | 44 :: _ => none
  | 59 :: _ => none
  | b :: bs => (decodeOctets bs).map (b :: ·)

/-- Every CRLF, lone CR and lone LF is one LF. -/
def breaksOctets : List UInt8 → List UInt8
  | [] => []
  | 13 :: 10 :: bs => 10 :: breaksOctets bs
  | 13 :: bs => 10 :: breaksOctets bs
  | b :: bs => b :: breaksOctets bs

/-- The backslashes a string ends in. -/
def backslashRun (bs : List UInt8) : Nat := (bs.reverse.takeWhile (· == backslash)).length

/-! ## On text -/

/-- An octet that the replacer copies, whatever comes behind it. -/
def Copied (b : UInt8) : Prop := b ≠ 92 ∧ b ≠ 13 ∧ b ≠ 10 ∧ b ≠ 44 ∧ b ≠ 59

theorem escapeOctets_append {bs : List UInt8} (h : ∀ b ∈ bs, Copied b) (rest : List UInt8) :
    escapeOctets (bs ++ rest) = bs ++ escapeOctets rest := by
  induction bs with
  | nil => rfl
  | cons b bs ih =>
    obtain ⟨h₁, h₂, h₃, h₄, h₅⟩ := h b (List.mem_cons_self ..)
    rw [List.cons_append, escapeOctets.eq_8 b _ h₁ (fun _ he _ => h₂ he) h₂ h₃ h₄ h₅,
      ih fun x hx => h x (List.mem_cons_of_mem _ hx), List.cons_append]

/-- An ASCII octet is the one of its character. -/
theorem ne_of_char_ne {b : UInt8} {c d : Char} (hb : b ∈ String.utf8EncodeChar c) (hne : c ≠ d)
    {n : UInt8} (hn : n.toNat < 0x80) (hd : d.toNat = n.toNat) : b ≠ n := by
  rintro rfl
  have hc := toNat_of_mem_utf8EncodeChar hn hb
  exact hne (Char.ext (UInt32.toNat.inj (hc.trans hd.symm)))

theorem encodeUtf8_escapeChars (cs : List Char) :
    encodeUtf8 (escapeChars cs) = escapeOctets (encodeUtf8 cs) := by
  have hcons : ∀ (c : Char) (ds : List Char),
      encodeUtf8 (c :: ds) = String.utf8EncodeChar c ++ encodeUtf8 ds := fun _ _ =>
        List.flatMap_cons
  fun_induction escapeChars cs with
  | case1 => rfl
  | case4 cs hlf ih =>
    -- the next octet is no LF, because the next character is none
    have hnext : ∀ bs, encodeUtf8 cs ≠ 10 :: bs := by
      intro bs he
      cases cs with
      | nil => cases he
      | cons c cs =>
        rw [hcons] at he
        obtain ⟨x, xs, hx⟩ := List.exists_cons_of_ne_nil (@String.utf8EncodeChar_ne_nil c)
        rw [hx, List.cons_append] at he
        have hmem : x ∈ String.utf8EncodeChar c := hx ▸ List.mem_cons_self ..
        have hc : c ≠ '\n' := fun hc => hlf cs (hc ▸ rfl)
        exact ne_of_char_ne hmem hc (n := 10) (by decide) (by decide) (List.cons.inj he).1
    have hescape : escapeOctets (13 :: encodeUtf8 cs) = 92 :: 110 :: escapeOctets (encodeUtf8 cs) :=
      escapeOctets.eq_4 _ fun bs he => hnext bs he
    show 92 :: 110 :: encodeUtf8 (escapeChars cs) = escapeOctets (13 :: encodeUtf8 cs)
    rw [hescape, ih]
  | case8 c cs hbs hcrlf hcr hlf hcomma hsemi ih =>
    have hcopied : ∀ b ∈ String.utf8EncodeChar c, Copied b := fun b hb =>
      ⟨ne_of_char_ne hb hbs (by decide) (by decide), ne_of_char_ne hb hcr (by decide) (by decide),
        ne_of_char_ne hb hlf (by decide) (by decide),
          ne_of_char_ne hb hcomma (by decide) (by decide),
        ne_of_char_ne hb hsemi (by decide) (by decide)⟩
    rw [hcons, hcons, escapeOctets_append hcopied, ih]
  | case2 cs ih | case6 cs ih | case7 cs ih | case5 cs ih =>
    show _ :: _ :: encodeUtf8 (escapeChars cs) = _
    rw [ih]
    rfl
  | case3 cs ih =>
    show 92 :: 110 :: encodeUtf8 (escapeChars cs) = escapeOctets (13 :: 10 :: encodeUtf8 cs)
    rw [ih]
    rfl

/-- On text it is the `escape` of the feed. -/
theorem utf8_escape (s : String) : utf8 (escape s) = escapeOctets (utf8 s) := by
  unfold escape utf8
  rw [String.toList_ofList]
  exact encodeUtf8_escapeChars s.toList

/-! ## What is written -/

theorem no_break_escapeOctets (s : List UInt8) : cr ∉ escapeOctets s ∧ lf ∉ escapeOctets s := by
  fun_induction escapeOctets s with
  | case1 => simp
  | case8 b bs hbs hcrlf hcr hlf hcomma hsemi ih =>
    exact ⟨List.not_mem_cons_of_ne_of_not_mem (Ne.symm hcr) ih.1,
      List.not_mem_cons_of_ne_of_not_mem (Ne.symm hlf) ih.2⟩
  | case2 bs ih | case3 bs ih | case4 bs _ ih | case5 bs ih | case6 bs ih | case7 bs ih =>
    simpa [cr, lf] using ih

@[simp] theorem backslashRun_backslash (bs : List UInt8) :
    backslashRun (bs ++ [92]) = backslashRun bs + 1 := by
  simp [backslashRun, backslash]

theorem backslashRun_other (bs : List UInt8) {b : UInt8} (h : b ≠ 92) :
    backslashRun (bs ++ [b]) = 0 := by
  simp [backslashRun, backslash, h]

/-- In `l`, behind `p`, each separator has an odd run of backslashes before it. -/
def OddBefore (p l : List UInt8) : Prop :=
  ∀ pre c post, l = pre ++ c :: post → c = comma ∨ c = semicolon → backslashRun (p ++ pre) % 2 = 1

/-- An octet that is no separator. -/
theorem OddBefore.cons {p l : List UInt8} {b : UInt8} (hb : b ≠ comma ∧ b ≠ semicolon)
    (h : OddBefore (p ++ [b]) l) : OddBefore p (b :: l) := by
  intro pre c post hl hc
  cases pre with
  | nil =>
    obtain rfl : b = c := (List.cons.inj hl).1
    exact absurd hc (not_or.mpr hb)
  | cons x pre =>
    obtain ⟨rfl, htail⟩ := List.cons.inj hl
    have := h pre c post htail hc
    rwa [List.append_assoc] at this

/-- A backslash behind an even run, and what it escapes. -/
theorem OddBefore.pair {p l : List UInt8} {y : UInt8} (hp : backslashRun p % 2 = 0)
    (h : OddBefore (p ++ [92] ++ [y]) l) : OddBefore p (92 :: y :: l) := by
  refine .cons (by decide) fun pre c post hl hc => ?_
  cases pre with
  | nil =>
    rw [List.append_nil, backslashRun_backslash]
    omega
  | cons x pre =>
    obtain ⟨rfl, htail⟩ := List.cons.inj hl
    have := h pre c post htail hc
    rwa [List.append_assoc] at this

/-- The induction is over what is behind an even run: the replacer is between two characters
there. -/
theorem oddBefore_escapeOctets {s p : List UInt8} (hp : backslashRun p % 2 = 0) :
    OddBefore p (escapeOctets s) := by
  have hother : ∀ {y : UInt8} {q : List UInt8}, y ≠ 92 → backslashRun (q ++ [y]) % 2 = 0 := by
    intro y q hy
    rw [backslashRun_other q hy]
  fun_induction escapeOctets s generalizing p with
  | case1 =>
    intro pre c post h
    cases pre <;> cases h
  | case2 bs ih =>
    refine .pair hp (ih ?_)
    rw [backslashRun_backslash, backslashRun_backslash]
    omega
  | case8 b bs hbs hcrlf hcr hlf hcomma hsemi ih => exact .cons ⟨hcomma, hsemi⟩ (ih (hother hbs))
  | case3 bs ih | case4 bs _ ih | case5 bs ih | case6 bs ih | case7 bs ih =>
    exact .pair hp (ih (hother (by decide)))

/-- **A reader gets the string back**, and reads it to its end. -/
theorem decodeOctets_escapeOctets (s : List UInt8) :
    decodeOctets (escapeOctets s) = some (breaksOctets s) := by
  fun_induction escapeOctets s with
  | case1 => rfl
  | case4 bs hlf ih =>
    rw [breaksOctets.eq_3 bs hlf]
    simp [decodeOctets, ih]
  | case8 b bs hbs hcrlf hcr hlf hcomma hsemi ih =>
    rw [breaksOctets.eq_4 b bs hcrlf hcr,
      decodeOctets.eq_10 b _ (fun _ he _ => hbs he) (fun _ he _ => hbs he) (fun _ he _ => hbs he)
        (fun _ he _ => hbs he) (fun _ he _ => hbs he) hbs hcomma hsemi, ih]
    rfl
  | case2 bs ih | case3 bs ih | case5 bs ih | case6 bs ih | case7 bs ih =>
    simp [decodeOctets, breaksOctets, ih]

/-- **Escaping is undone by a reader of TEXT.** -/
theorem escaping (s : List UInt8) :
    (cr ∉ escapeOctets s ∧ lf ∉ escapeOctets s) ∧
      (∀ pre c post, escapeOctets s = pre ++ c :: post → c = comma ∨ c = semicolon →
        backslashRun pre % 2 = 1) ∧
      decodeOctets (escapeOctets s) = some (breaksOctets s) ∧
      ∀ t, escapeOctets s = escapeOctets t → breaksOctets s = breaksOctets t := by
  refine ⟨no_break_escapeOctets s, oddBefore_escapeOctets (p := []) rfl,
    decodeOctets_escapeOctets s,
    fun t h => ?_⟩
  have hread : some (breaksOctets s) = some (breaksOctets t) := by
    rw [← decodeOctets_escapeOctets s, h, decodeOctets_escapeOctets t]
  exact Option.some.inj hread

end ReleaseRadar.Calendar
