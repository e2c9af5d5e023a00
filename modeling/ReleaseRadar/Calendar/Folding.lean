import ReleaseRadar.Calendar.Feed

/-!
# Folding

`splitLine` and `folder.Line` of `ics.go`, over every string of octets, text or not. The
cut backs up over the octets that go on with a character, and a guard keeps it from backing
up to the start: each round takes between one and `n` octets, so the loop ends
(`splits_splitLine`), and nothing is lost, empty or too long. In text the guard is never
needed when `n` is at least four, and no character is cut (`Splits.text`).

`folding` puts this together with the lines that are written: they are at most 75 octets
long, and taking out each CRLF before a space gives the string back. A chunk may itself begin
with spaces; only the one space that was put in front of it goes with the CRLF.
-/

namespace ReleaseRadar.Calendar

open Lib Lib.ContentLine

/-! ## The cut -/

theorem backUp_le (s : List UInt8) (cut : Nat) : backUp s cut ≤ cut := by
  induction cut with
  | zero => exact Nat.le_refl 0
  | succ cut ih =>
    unfold backUp
    split
    · exact Nat.le_refl _
    · omega

/-- The loop stops at the start or before an octet that starts a character. -/
theorem runeStart_backUp {s : List UInt8} {cut : Nat} (h : backUp s cut ≠ 0) :
    runeStart (s.getD (backUp s cut) 0) = true := by
  induction cut with
  | zero => exact absurd rfl h
  | succ cut ih =>
    unfold backUp at h ⊢
    split
    · assumption
    · next hno =>
      rw [if_neg hno] at h
      exact ih h

/-- It goes no further back than it must. -/
theorem le_backUp {s : List UInt8} {cut j : Nat} (hj : j ≤ cut)
    (hstart : runeStart (s.getD j 0) = true) :
    j ≤ backUp s cut := by
  induction cut with
  | zero => exact hj
  | succ cut ih =>
    unfold backUp
    split
    · exact hj
    · next hno =>
      have hne : j ≠ cut + 1 := by
        rintro rfl
        exact hno hstart
      exact ih (by omega)

theorem cutAt_le (s : List UInt8) (n : Nat) : cutAt s n ≤ n := by
  unfold cutAt
  split
  · exact Nat.le_refl n
  · exact backUp_le s n

theorem cutAt_pos (s : List UInt8) {n : Nat} (hn : 1 ≤ n) : 0 < cutAt s n := by
  unfold cutAt
  split
  · exact hn
  · omega

/-- **Text is cut before a character.** -/
theorem cut_text {cs : List Char} {n : Nat} (hn : 4 ≤ n) (hlong : n < (encodeUtf8 cs).length) :
    ∃ cs₁ cs₂, (encodeUtf8 cs).take (cutAt (encodeUtf8 cs) n) = encodeUtf8 cs₁ ∧
      (encodeUtf8 cs).drop (cutAt (encodeUtf8 cs) n) = encodeUtf8 cs₂ := by
  -- one of the last four places is a start, so the guard is not needed
  obtain ⟨j, hj, hnear, x, hx, hstart⟩ := exists_start hlong
  have hrune : runeStart ((encodeUtf8 cs).getD j 0) = true := by
    rw [List.getD_eq_getElem?_getD, hx]
    show (!isContinuation x) = true
    rw [hstart]
    rfl
  have hback := le_backUp hj hrune
  have hne : backUp (encodeUtf8 cs) n ≠ 0 := by omega
  have hcut : cutAt (encodeUtf8 cs) n = backUp (encodeUtf8 cs) n := if_neg hne
  have hlt : backUp (encodeUtf8 cs) n < (encodeUtf8 cs).length :=
    Nat.lt_of_le_of_lt (backUp_le _ n) hlong
  have hend := runeStart_backUp hne
  rw [List.getD_eq_getElem?_getD, List.getElem?_eq_getElem hlt] at hend
  rw [hcut]
  refine cut_encodeUtf8 (List.getElem?_eq_getElem hlt) ?_
  show isContinuation _ = false
  rw [← Bool.not_eq_true']
  exact hend

/-! ## The loop -/

/-- The loop of `splitLine`, run to its end: what it leaves of `s`, in chunks. -/
inductive Splits (n : Nat) : List UInt8 → List (List UInt8) → Prop
  | last {s : List UInt8} (h : s.length ≤ n) : Splits n s [s]
  | round {s : List UInt8} {chunks : List (List UInt8)} (h : n < s.length)
      (hrest : Splits n (s.drop (cutAt s n)) chunks) : Splits n s (s.take (cutAt s n) :: chunks)

/-- **The loop ends**, after a round for each octet at most. -/
theorem splits_splitLoop {n : Nat} (hn : 1 ≤ n) {fuel : Nat} {s : List UInt8}
    (h : s.length ≤ fuel) :
    Splits n s (splitLoop n fuel s) := by
  induction fuel generalizing s with
  | zero => exact .last (by omega)
  | succ fuel ih =>
    unfold splitLoop
    split
    · next hshort => exact .last hshort
    · next hlong =>
      refine .round (by omega) (ih ?_)
      have hpos := cutAt_pos s hn
      rw [List.length_drop]
      omega

theorem splits_splitLine {n : Nat} (hn : 1 ≤ n) (s : List UInt8) : Splits n s (splitLine s n) :=
  splits_splitLoop hn (Nat.le_refl _)

namespace Splits

variable {n : Nat} {s : List UInt8} {chunks : List (List UInt8)}

theorem flatten (h : Splits n s chunks) : chunks.flatten = s := by
  induction h with
  | last h => simp
  | round h hrest ih => rw [List.flatten_cons, ih, List.take_append_drop]

theorem length_le (h : Splits n s chunks) : ∀ chunk ∈ chunks, chunk.length ≤ n := by
  induction h with
  | last h =>
    intro chunk hchunk
    rw [List.mem_singleton.mp hchunk]
    exact h
  | @round s _ h hrest ih =>
    intro chunk hchunk
    rcases List.mem_cons.mp hchunk with rfl | hchunk
    · have := cutAt_le s n
      rw [List.length_take]
      omega
    · exact ih chunk hchunk

theorem ne_nil (hn : 1 ≤ n) (h : Splits n s chunks) (hs : s ≠ []) : ∀ chunk ∈ chunks,
    chunk ≠ [] := by
  induction h with
  | last h =>
    intro chunk hchunk
    rw [List.mem_singleton.mp hchunk]
    exact hs
  | @round s _ h hrest ih =>
    have hpos := cutAt_pos s hn
    have hle := cutAt_le s n
    intro chunk hchunk
    rcases List.mem_cons.mp hchunk with rfl | hchunk
    · refine List.ne_nil_of_length_pos ?_
      rw [List.length_take]
      omega
    · refine ih (List.ne_nil_of_length_pos ?_) chunk hchunk
      rw [List.length_drop]
      omega

/-- **No character is cut.** -/
theorem text (hn : 4 ≤ n) (h : Splits n s chunks) {cs : List Char} (hs : s = encodeUtf8 cs) :
    ∀ chunk ∈ chunks, ∃ ds, chunk = encodeUtf8 ds := by
  induction h generalizing cs with
  | last h =>
    intro chunk hchunk
    rw [List.mem_singleton.mp hchunk]
    exact ⟨cs, hs⟩
  | @round s _ h hrest ih =>
    subst hs
    obtain ⟨cs₁, cs₂, htake, hdrop⟩ := cut_text hn h
    intro chunk hchunk
    rcases List.mem_cons.mp hchunk with rfl | hchunk
    · exact ⟨cs₁, htake⟩
    · exact ih hdrop chunk hchunk

end Splits

/-! ## The lines -/

/-- The chunks as lines: all but the first begin with a space. -/
def physicalLines : List (List UInt8) → List (List UInt8)
  | [] => []
  | first :: rest => first :: rest.map (space :: ·)

theorem lineOctets_eq_physicalLines (s : List UInt8) :
    lineOctets s = (physicalLines (splitLine s 73)).flatMap (· ++ crlf) := by
  unfold lineOctets
  split
  · next h =>
    rw [h]
    rfl
  · next first rest h =>
    rw [h, physicalLines, List.flatMap_cons, List.flatMap_map]
    rfl

/-- Every CRLF that one space follows is deleted, with the space. -/
def deleteFolds : List UInt8 → List UInt8
  | 13 :: 10 :: 32 :: bs => deleteFolds bs
  | b :: bs => b :: deleteFolds bs
  | [] => []

theorem deleteFolds_append {bs rest : List UInt8} (h : cr ∉ bs) :
    deleteFolds (bs ++ rest) = bs ++ deleteFolds rest := by
  induction bs with
  | nil => rfl
  | cons b bs ih =>
    have hb : b ≠ 13 := fun he => h (he ▸ List.mem_cons_self ..)
    rw [List.cons_append, deleteFolds.eq_2 b _ fun _ he _ => hb he,
      ih fun hm => h (List.mem_cons_of_mem _ hm), List.cons_append]

theorem deleteFolds_folded {chunks : List (List UInt8)} (hne : chunks ≠ [])
    (hcr : ∀ chunk ∈ chunks, cr ∉ chunk) :
    deleteFolds (folded chunks) = chunks.flatten ++ crlf := by
  induction chunks with
  | nil => exact absurd rfl hne
  | cons chunk chunks ih =>
    have hchunk : cr ∉ chunk := hcr chunk (List.mem_cons_self ..)
    cases chunks with
    | nil =>
      rw [folded, deleteFolds_append hchunk, List.flatten_singleton]
      rfl
    | cons next chunks =>
      have ih := ih (by simp) fun c hc => hcr c (List.mem_cons_of_mem _ hc)
      have hfold : deleteFolds ([cr, lf, space] ++ folded (next :: chunks)) =
          deleteFolds (folded (next :: chunks)) := rfl
      rw [folded, List.append_assoc, deleteFolds_append hchunk, hfold, ih, List.flatten_cons,
        List.append_assoc]
      · simp
      · exact List.cons_ne_nil next chunks

/-- What is not in the string is in no chunk. -/
theorem not_mem_chunk {s : List UInt8} {b : UInt8} (h : b ∉ s) :
    ∀ chunk ∈ splitLine s 73, b ∉ chunk := by
  intro chunk hchunk hb
  have hflat : (splitLine s 73).flatten = s := splitLoop_flatten ..
  exact h (hflat ▸ List.mem_flatten.mpr ⟨chunk, hchunk, hb⟩)

/-- **The lines are short enough**, and are what stands between the CRLFs. -/
theorem physicalLines_short {s : List UInt8} (hcr : cr ∉ s) (hlf : lf ∉ s) :
    ∀ l ∈ physicalLines (splitLine s 73), l.length ≤ 75 ∧ cr ∉ l ∧ lf ∉ l := by
  have hlen := (splits_splitLine (n := 73) (by omega) s).length_le
  have hnocr := not_mem_chunk hcr
  have hnolf := not_mem_chunk hlf
  intro l hl
  cases hchunks : splitLine s 73 with
  | nil =>
    rw [hchunks] at hl
    cases hl
  | cons first rest =>
    rw [hchunks] at hl hlen hnocr hnolf
    rcases List.mem_cons.mp hl with rfl | hl
    · have hmem := List.mem_cons_self (a := l) (l := rest)
      have := hlen l hmem
      exact ⟨by omega, hnocr l hmem, hnolf l hmem⟩
    · obtain ⟨chunk, hchunk, rfl⟩ := List.mem_map.mp hl
      have hmem := List.mem_cons_of_mem first hchunk
      have := hlen chunk hmem
      refine ⟨by rw [List.length_cons]; omega, fun hm => ?_, fun hm => ?_⟩
      · rcases List.mem_cons.mp hm with he | hm
        · exact absurd he (by decide)
        · exact hnocr chunk hmem hm
      · rcases List.mem_cons.mp hm with he | hm
        · exact absurd he (by decide)
        · exact hnolf chunk hmem hm

/-! ## The law -/

/-- What `splitLine` promises of a string and a bound. -/
structure Split (s : List UInt8) (n : Nat) : Prop where
  ends : Splits n s (splitLine s n)
  lossless : (splitLine s n).flatten = s
  bounded : ∀ chunk ∈ splitLine s n, chunk.length ≤ n
  nonempty : s ≠ [] → ∀ chunk ∈ splitLine s n, chunk ≠ []
  text : 4 ≤ n → ∀ cs, s = encodeUtf8 cs → ∀ chunk ∈ splitLine s n, ∃ ds, chunk = encodeUtf8 ds

/-- What `folder.Line` promises of a string. -/
structure Folded (s : List UInt8) : Prop where
  lines : ∃ ls : List (List UInt8), lineOctets s = ls.flatMap (· ++ crlf) ∧
    ∀ l ∈ ls, l.length ≤ 75 ∧ cr ∉ l ∧ lf ∉ l
  undone : deleteFolds (lineOctets s) = s ++ crlf

/-- **Folding loses nothing, keeps its bound and ends.** -/
theorem folding (s : List UInt8) :
    (∀ n, 1 ≤ n → Split s n) ∧ (cr ∉ s → lf ∉ s → Folded s) := by
  refine ⟨fun n hn => ?_, fun hcr hlf => ?_⟩
  · have h := splits_splitLine hn s
    exact ⟨h, h.flatten, h.length_le, h.ne_nil hn, fun h₄ cs hs => h.text h₄ hs⟩
  · refine ⟨⟨_, lineOctets_eq_physicalLines s, physicalLines_short hcr hlf⟩, ?_⟩
    have hflat : (splitLine s 73).flatten = s := splitLoop_flatten ..
    have hne : splitLine s 73 ≠ [] := splitLoop_ne_nil _ _ _
    rw [lineOctets_eq_folded, deleteFolds_folded hne (not_mem_chunk hcr), hflat]

/-- Chunks that begin with spaces. -/
theorem folding_spaces : Split (List.replicate 200 space) 4 ∧ Folded (List.replicate 200 space) :=
  ⟨(folding _).1 4 (by decide), (folding _).2 (by decide) (by decide)⟩

end ReleaseRadar.Calendar
