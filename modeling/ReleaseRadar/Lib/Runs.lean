import Mathlib.Data.List.Chain
import Mathlib.Order.Lattice

/-!
# Runs of one key

A list is cut where the key of its items changes (`Runs`). A key is an `IntervalKey` of the
time of an item when the times of one key are an interval, as those of a calendar day are.
Then in a list that is in the order of time no key comes twice: the runs are those of different
keys, one after the other (`Runs.before`).
-/

namespace ReleaseRadar.Lib

/-- The maximal runs of items with one key. -/
structure Runs {α κ : Type} (key : α → κ) (xs : List α) (gs : List (List α)) : Prop where
  flatten : gs.flatten = xs
  ne_nil : ∀ g ∈ gs, g ≠ []
  same : ∀ g ∈ gs, ∀ a ∈ g, ∀ b ∈ g, key a = key b
  adjacent : gs.IsChain fun g h => ∀ a ∈ g, ∀ b ∈ h, key a ≠ key b

section

variable {α κ : Type} {key : α → κ} {xs : List α} {gs : List (List α)}

theorem Runs.nil : Runs key [] [] :=
  ⟨rfl, (by nofun), (by nofun), .nil⟩

/-- The item has the key of the last run. -/
theorem Runs.extend {g : List α} {a : α} (h : Runs key xs (gs ++ [g]))
    (ha : ∀ b ∈ g, key b = key a) :
    Runs key (xs ++ [a]) (gs ++ [g ++ [a]]) := by
  obtain ⟨hflatten, hne, hsame, hadj⟩ := h
  constructor
  · rw [← hflatten]
    simp
  · intro x hx
    rcases List.mem_append.mp hx with hx | hx
    · exact hne x (List.mem_append_left _ hx)
    · obtain rfl := List.mem_singleton.mp hx
      simp
  · intro x hx b hb c hc
    rcases List.mem_append.mp hx with hx | hx
    · exact hsame x (List.mem_append_left _ hx) b hb c hc
    · obtain rfl := List.mem_singleton.mp hx
      have hall : ∀ b ∈ g ++ [a], key b = key a := by
        intro b hb
        rcases List.mem_append.mp hb with hb | hb
        · exact ha b hb
        · rw [List.mem_singleton.mp hb]
      rw [hall b hb, hall c hc]
  · rw [List.isChain_append] at hadj ⊢
    refine ⟨hadj.1, .singleton _, fun x hx y hy b hb c hc => ?_⟩
    obtain rfl := Option.some.inj hy
    -- the run has an item already, of the same key
    obtain ⟨d, hd⟩ := List.exists_mem_of_ne_nil g (hne g (by simp))
    have hbd := hadj.2.2 x hx g rfl b hb d hd
    rcases List.mem_append.mp hc with hc | hc
    · exact hadj.2.2 x hx g rfl b hb c hc
    · rw [List.mem_singleton.mp hc, ← ha d hd]
      exact hbd

/-- The item has another key. -/
theorem Runs.push {a : α} (h : Runs key xs gs) (ha : ∀ g ∈ gs.getLast?, ∀ b ∈ g, key b ≠ key a) :
    Runs key (xs ++ [a]) (gs ++ [[a]]) := by
  obtain ⟨hflatten, hne, hsame, hadj⟩ := h
  constructor
  · rw [← hflatten]
    simp
  · intro x hx
    rcases List.mem_append.mp hx with hx | hx
    · exact hne x hx
    · obtain rfl := List.mem_singleton.mp hx
      simp
  · intro x hx b hb c hc
    rcases List.mem_append.mp hx with hx | hx
    · exact hsame x hx b hb c hc
    · obtain rfl := List.mem_singleton.mp hx
      rw [List.mem_singleton.mp hb, List.mem_singleton.mp hc]
  · rw [List.isChain_append]
    refine ⟨hadj, .singleton _, fun x hx y hy b hb c hc => ?_⟩
    obtain rfl := Option.some.inj hy
    rw [List.mem_singleton.mp hc]
    exact ha x hx b hb

end

/-! ## Keys of the time -/

section

variable {α τ κ : Type} [LinearOrder τ] {k : τ → κ}

/-- The times of one key are an interval. -/
def IntervalKey (k : τ → κ) : Prop := ∀ x y z, x ≤ y → y ≤ z → k x = k z → k x = k y

/-- Whatever has the key of `x` is earlier than whatever has the key of `y`. -/
def Before (k : τ → κ) (x y : τ) : Prop := ∀ x' y', k x' = k x → k y' = k y → x' < y'

theorem Before.ne {x y : τ} (h : Before k x y) : k x ≠ k y :=
  fun he => absurd (h y y he.symm rfl) (lt_irrefl y)

/-- Two times of different keys are enough. -/
theorem IntervalKey.before (hk : IntervalKey k) {x y : τ} (hle : x ≤ y) (hne : k x ≠ k y) :
    Before k x y := by
  intro x' y' hx hy
  by_contra hlt
  have hyx : y' ≤ x' := not_lt.mp hlt
  rcases le_total x y' with h | h
  · -- y' is between x and x'
    exact hne ((hk x y' x' h hyx hx.symm).trans hy)
  · -- x is between y' and y
    exact hne ((hk y' x y h hle hy).symm.trans hy)

theorem Before.trans (hk : IntervalKey k) {x y z : τ} (h₁ : Before k x y) (h₂ : Before k y z) :
    Before k x z := by
  have hxy : x < y := h₁ x y rfl rfl
  have hyz : y < z := h₂ y z rfl rfl
  refine hk.before (hxy.trans hyz).le fun he => h₁.ne ?_
  exact hk x y z hxy.le hyz.le he

/-- **In the order of time no key comes twice**, and the runs are in the order of their keys. -/
theorem Runs.before {time : α → τ} {xs : List α} {gs : List (List α)} (hk : IntervalKey k)
    (h : Runs (fun a => k (time a)) xs gs) (hsorted : xs.Pairwise fun a b => time a ≤ time b) :
    gs.Pairwise fun g g' => ∀ a ∈ g, ∀ b ∈ g', Before k (time a) (time b) := by
  rw [← h.flatten, List.pairwise_flatten] at hsorted
  have hle := hsorted.2
  have hne := h.ne_nil
  have hadj := h.adjacent
  clear h hsorted
  induction gs with
  | nil => exact .nil
  | cons g gs ih =>
    have hpair := ih (List.pairwise_cons.mp hle).2 (fun x hx => hne x (List.mem_cons_of_mem g hx))
      hadj.tail
    refine List.pairwise_cons.mpr ⟨fun g' hg' a ha b hb => ?_, hpair⟩
    cases gs with
    | nil => cases hg'
    | cons m gs =>
      -- the next run has an item between the two
      obtain ⟨c, hc⟩ := List.exists_mem_of_ne_nil m (hne m (by simp))
      have hac : Before k (time a) (time c) :=
        hk.before ((List.pairwise_cons.mp hle).1 m List.mem_cons_self a ha c hc)
          ((List.isChain_cons_cons.mp hadj).1 a ha c hc)
      rcases List.mem_cons.mp hg' with rfl | hg'
      · exact hk.before ((List.pairwise_cons.mp hle).1 g' List.mem_cons_self a ha b hb)
          ((List.isChain_cons_cons.mp hadj).1 a ha b hb)
      · exact hac.trans hk ((List.pairwise_cons.mp hpair).1 g' hg' c hc b hb)

end

end ReleaseRadar.Lib
