import Mathlib.Order.Lattice

/-!
# Readers that are woken by numbered signals

A reader keeps a copy of something that changes. Every change publishes a signal;
a signal is numbered at some point on its way (`none`: not yet), and signals may
arrive in any order. On arrival the reader compares the number with the highest it
has acted on: a higher one schedules a read, the others are thrown away.

`Awaits` says that a reader which is behind still has something coming that will
make it read. The rules say what keeps it: a new change, more signals on the way,
an arrival (`receive`), a read. With nothing scheduled and nothing on the way, it
says that the reader is up to date (`Awaits.current`).
-/

namespace ReleaseRadar.Lib

/-- A reader: the version it last read, whether a read is scheduled, and the highest
signal it has acted on. -/
structure Reader (ρ : Type) where
  seen : Nat
  armed : Bool
  mark : ρ

namespace Reader

variable {ρ : Type} [LinearOrder ρ] {R : Reader ρ} {version : Nat} {onWay : List (Option ρ)}

/-- The signal will not be thrown away: it is not numbered yet, or above the mark. -/
def Fresh (R : Reader ρ) : Option ρ → Prop
  | none => True
  | some r => R.mark < r

/-- A reader that is behind has a read scheduled, or a fresh signal on the way. -/
def Awaits (R : Reader ρ) (version : Nat) (onWay : List (Option ρ)) : Prop :=
  R.seen < version → R.armed = true ∨ ∃ σ ∈ onWay, R.Fresh σ

instance decidableFresh (R : Reader ρ) : ∀ σ, Decidable (R.Fresh σ)
  | none => isTrue trivial
  | some r => inferInstanceAs (Decidable (R.mark < r))

instance decidableAwaits (R : Reader ρ) (version : Nat) (onWay : List (Option ρ)) :
    Decidable (R.Awaits version onWay) :=
  inferInstanceAs (Decidable (_ → _))

/-- A signal arrives. -/
def receive (R : Reader ρ) (r : ρ) : Reader ρ :=
  if r ≤ R.mark then R else { R with armed := true, mark := r }

theorem awaits_of_armed (h : R.armed = true) : R.Awaits version onWay := fun _ => Or.inl h

theorem awaits_of_read (h : version ≤ R.seen) : R.Awaits version onWay :=
  fun hlt => absurd h (Nat.not_le.mpr hlt)

/-- A change that has just been published is noticed by every reader. -/
theorem awaits_of_published (h : none ∈ onWay) : R.Awaits version onWay :=
  fun _ => Or.inr ⟨none, h, trivial⟩

/-- The signals on the way may change as long as a fresh one stays. -/
theorem Awaits.mono {onWay' : List (Option ρ)} (h : R.Awaits version onWay)
    (hstay : ∀ σ ∈ onWay, R.Fresh σ → ∃ σ' ∈ onWay', R.Fresh σ') : R.Awaits version onWay' := by
  intro hlt
  rcases h hlt with harmed | ⟨σ, hσ, hf⟩
  · exact Or.inl harmed
  · exact Or.inr (hstay σ hσ hf)

theorem Awaits.subset {onWay' : List (Option ρ)} (h : R.Awaits version onWay)
    (hsub : onWay ⊆ onWay') : R.Awaits version onWay' :=
  h.mono fun σ hσ hf => ⟨σ, hsub hσ, hf⟩

/-- An arrival may take its signal away: it either schedules a read or was not fresh. -/
theorem Awaits.receive {onWay' : List (Option ρ)} {r : ρ} (h : R.Awaits version onWay)
    (hrest : ∀ σ ∈ onWay, σ = some r ∨ σ ∈ onWay') : (R.receive r).Awaits version onWay' := by
  unfold Reader.receive
  by_cases hle : r ≤ R.mark
  · rw [if_pos hle]
    refine h.mono fun σ hσ hf => ?_
    rcases hrest σ hσ with rfl | hmem
    · exact absurd hf (not_lt.mpr hle)
    · exact ⟨σ, hmem, hf⟩
  · rw [if_neg hle]
    exact awaits_of_armed rfl

/-- **Nothing lost**: with nothing scheduled and nothing on the way, the reader has read
the last version. -/
theorem Awaits.current (h : R.Awaits version []) (hidle : R.armed = false) : version ≤ R.seen := by
  by_contra hbehind
  rcases h (Nat.lt_of_not_le hbehind) with harmed | ⟨σ, hσ, -⟩
  · rw [hidle] at harmed
    exact absurd harmed (by decide)
  · exact absurd hσ List.not_mem_nil

end Reader

end ReleaseRadar.Lib
