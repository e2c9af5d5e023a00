import Mathlib.Algebra.BigOperators.Group.Finset.Piecewise
import Mathlib.Algebra.Order.BigOperators.Group.Finset

/-!
# Retrying a batch at a time

A worker drains a set `S` of items in rounds. Each item may be tried at most `K`
more times. A round takes up `L` items of `S`, or all that are left when they are
fewer, and tries each of them once; a try may fail, and an item may go for
another reason. Which items a round takes up is open.

`Bounded.finished`: after `K + K * |S| / L` rounds no item of `S` is left, so
that failing items cannot keep the others waiting for ever.

The argument is a potential. While there are `L` items left, each round uses up
`L` of the `K * |S|` tries there are (`Bounded.full`), so there are at most
`K * |S| / L` such rounds; from the first round that takes up all, each round
lowers the tries of every item (`Bounded.short`).
-/

namespace ReleaseRadar.Lib.Retry

open Finset

variable {ι : Type} [DecidableEq ι]

/-- The tries an item has left once the batch in hand has been tried. -/
def owed (tries : ι → Nat) (hand : List ι) (i : ι) : Nat := tries i - if i ∈ hand then 1 else 0

@[simp] theorem owed_nil (tries : ι → Nat) (i : ι) : owed tries [] i = tries i := by
  simp [owed]

/-- A round that begins with nothing in hand takes up the batch: `L` items of `S`, or
all that are left. -/
def Covers (S : Finset ι) (L : Nat) (tries : ι → Nat) (batch : List ι) : Prop :=
  (∀ i ∈ S, 0 < tries i → i ∈ batch) ∨ L ≤ (S.filter fun i => 0 < tries i ∧ i ∈ batch).card

/-- Where the worker can be after `rounds` rounds have begun. -/
inductive Bounded (S : Finset ι) (K L : Nat) (tries : ι → Nat) (hand : List ι) (rounds : Nat) :
    Prop
  | full (cap : ∀ i ∈ S, tries i ≤ K)
      (spent : L * rounds + ∑ i ∈ S, owed tries hand i ≤ K * S.card)
  | short (first : Nat) (bound : L * first ≤ K * S.card)
      (few : (S.filter fun i => 0 < tries i).card < L)
      (left : ∀ i ∈ S, owed tries hand i ≤ K + first - rounds)

variable {S : Finset ι} {K L rounds : Nat} {tries tries' : ι → Nat} {hand hand' batch : List ι}

theorem bounded_start (h : ∀ i ∈ S, tries i ≤ K) : Bounded S K L tries [] 0 := by
  refine .full h ?_
  have hsum : ∑ i ∈ S, owed tries [] i ≤ ∑ _i ∈ S, K := by
    apply Finset.sum_le_sum
    intro i hi
    rw [owed_nil]
    exact h i hi
  rw [Finset.sum_const_nat fun _ _ => rfl, Nat.mul_comm] at hsum
  omega

/-- Between two rounds tries are only used up: one for an item that leaves the hand,
all of them for an item that goes. -/
theorem Bounded.mono (h : Bounded S K L tries hand rounds) (htries : ∀ i ∈ S, tries' i ≤ tries i)
    (howed : ∀ i ∈ S, owed tries' hand' i ≤ owed tries hand i) :
    Bounded S K L tries' hand' rounds := by
  cases h with
  | full cap spent =>
    refine .full (fun i hi => Nat.le_trans (htries i hi) (cap i hi)) ?_
    have hsum : ∑ i ∈ S, owed tries' hand' i ≤ ∑ i ∈ S, owed tries hand i :=
      Finset.sum_le_sum howed
    omega
  | short first bound few left =>
    refine .short first bound ?_ fun i hi => Nat.le_trans (howed i hi) (left i hi)
    refine Nat.lt_of_le_of_lt (Finset.card_le_card ?_) few
    intro i hi
    obtain ⟨hS, hpos⟩ := Finset.mem_filter.mp hi
    exact Finset.mem_filter.mpr ⟨hS, Nat.lt_of_lt_of_le hpos (htries i hS)⟩

/-- A batch owes a try for each of its items that has one. -/
theorem sum_owed (S : Finset ι) (tries : ι → Nat) (batch : List ι) :
    ∑ i ∈ S, owed tries batch i + (S.filter fun i => 0 < tries i ∧ i ∈ batch).card =
      ∑ i ∈ S, tries i := by
  rw [Finset.card_filter, ← Finset.sum_add_distrib]
  apply Finset.sum_congr rfl
  intro i _
  unfold owed
  by_cases hb : i ∈ batch
  · by_cases hpos : 0 < tries i
    · rw [if_pos hb, if_pos ⟨hpos, hb⟩]
      omega
    · rw [if_pos hb, if_neg (fun hc => hpos hc.1)]
      omega
  · rw [if_neg hb, if_neg (fun hc => hb hc.2)]
    omega

/-- **A round.** -/
theorem Bounded.round (h : Bounded S K L tries [] rounds) (hbatch : Covers S L tries batch) :
    Bounded S K L tries batch (rounds + 1) := by
  -- an item of a batch that takes up all that is left has a try less afterwards
  have hless : (∀ i ∈ S, 0 < tries i → i ∈ batch) → ∀ i ∈ S, owed tries batch i = tries i - 1 := by
    intro hall i hi
    by_cases hpos : 0 < tries i
    · rw [owed, if_pos (hall i hi hpos)]
    · rw [owed]
      omega
  cases h with
  | full cap spent =>
    have hsum := sum_owed S tries batch
    simp only [owed_nil] at spent
    by_cases hL : L ≤ (S.filter fun i => 0 < tries i ∧ i ∈ batch).card
    · refine .full cap ?_
      rw [Nat.mul_succ]
      omega
    · have hall : ∀ i ∈ S, 0 < tries i → i ∈ batch := hbatch.resolve_right hL
      refine .short rounds (by omega) ?_ fun i hi => ?_
      · refine Nat.lt_of_le_of_lt (Finset.card_le_card ?_) (Nat.lt_of_not_le hL)
        intro i hi
        obtain ⟨hS, hpos⟩ := Finset.mem_filter.mp hi
        exact Finset.mem_filter.mpr ⟨hS, hpos, hall i hS hpos⟩
      · have hcap := cap i hi
        rw [hless hall i hi]
        omega
  | short first bound few left =>
    have hall : ∀ i ∈ S, 0 < tries i → i ∈ batch := by
      refine hbatch.resolve_right ?_
      intro hL
      have hle : (S.filter fun i => 0 < tries i ∧ i ∈ batch).card ≤
          (S.filter fun i => 0 < tries i).card := by
        apply Finset.card_le_card
        intro i hi
        obtain ⟨hS, hpos, -⟩ := Finset.mem_filter.mp hi
        exact Finset.mem_filter.mpr ⟨hS, hpos⟩
      omega
    refine .short first bound few fun i hi => ?_
    have hleft := left i hi
    rw [owed_nil] at hleft
    rw [hless hall i hi]
    omega

/-- **Nothing is left** after `K + K * |S| / L` rounds. -/
theorem Bounded.finished (h : Bounded S K L tries [] rounds) (hK : 0 < K) (hL : 0 < L)
    (hrounds : K + K * S.card / L ≤ rounds) : ∀ i ∈ S, tries i = 0 := by
  intro i hi
  cases h with
  | full cap spent =>
    have hle : rounds ≤ K * S.card / L := by
      rw [Nat.le_div_iff_mul_le hL, Nat.mul_comm]
      omega
    omega
  | short first bound few left =>
    have hfirst : first ≤ K * S.card / L := by
      rw [Nat.le_div_iff_mul_le hL, Nat.mul_comm]
      exact bound
    have hleft := left i hi
    rw [owed_nil] at hleft
    omega

end ReleaseRadar.Lib.Retry
