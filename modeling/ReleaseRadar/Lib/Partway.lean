import ReleaseRadar.Lib.Db
import ReleaseRadar.Lib.Machine

/-!
# Jobs that stop partway

A long job over a database is a list of transactions with none around them all: when a call
fails, those before it stay. `Follows M as m` says how far such a program gets. Wherever `m`
stops, what it has done is the run of `M` over the first `k` of the steps `as`, and these are
all of them exactly when it has not failed. It is closed under sequence and under loops.

The steps are programs themselves, taken as what they do when nothing fails (`committed`).
For that a program must not turn an error into a value: `Steady` programs that got through
under some fault plan end in the same way without one.
-/

namespace ReleaseRadar.Lib

namespace Db

variable {σ ε α β γ : Type}

/-! ## Programs that pass every error on -/

/-- What gets through under a fault plan gets through without one, in the same way. -/
def Steady (m : Db σ ε α) : Prop :=
  ∀ F c a c', m F c = (.ok a, c') →
    ∀ n, ∃ n', m noFaults ⟨c.store, n⟩ = (.ok a, ⟨c'.store, n'⟩)

/-- No call, nothing to differ. -/
theorem steady_pure (a : α) : Steady (pure a : Db σ ε α) := by
  intro F c b c' h n
  obtain ⟨hb, rfl⟩ := Prod.mk.inj h
  exact ⟨n, by rw [← hb]; rfl⟩

theorem steady_call (f : σ → Except ε (α × σ)) : Steady (call f) := by
  intro F c a c' h n
  refine ⟨n + 1, ?_⟩
  simp [call, noFaults, call_ok h]

/-- A query whose caller asks for the error of the iteration. -/
theorem steady_checked {ρ : Type} (f : σ → Except ε (List ρ)) :
    Steady (query f >>= fun rows => checked rows) := by
  intro F c out c' h n
  obtain ⟨rows, c₁, hrows, hout⟩ := bind_ok h
  obtain ⟨rfl, rfl⟩ := checked_ok hout
  obtain ⟨hstore, -⟩ := query_ok hrows
  -- rows without an error were not cut short
  obtain ⟨all, hall, ⟨-, hseen⟩ | ⟨k, e, -, hseen⟩⟩ := query_seen hrows
  · obtain rfl := congrArg Rows.seen hseen
    refine ⟨n + 1, ?_⟩
    rw [bind_def]
    simp [query, noFaults, hall, hstore, checked, pure_def]
  · cases congrArg Rows.err hseen

/-- One program after the other. -/
theorem steady_bind {m : Db σ ε α} {f : α → Db σ ε β} (hm : Steady m) (hf : ∀ a, Steady (f a)) :
    Steady (m >>= f) := by
  intro F c b c' h n
  obtain ⟨a, c₁, ha, hb⟩ := bind_ok h
  obtain ⟨n₁, h₁⟩ := hm F c a c₁ ha n
  obtain ⟨n₂, h₂⟩ := hf a F c₁ b c' hb n₁
  exact ⟨n₂, by rw [bind_def, h₁]; exact h₂⟩

/-- A loop of steady rounds. -/
theorem steady_forEach {body : α → Db σ ε Unit} (hbody : ∀ x, Steady (body x)) :
    ∀ xs, Steady (forEach xs body)
  | [] => steady_pure ()
  | x :: xs => steady_bind (hbody x) fun _ => steady_forEach hbody xs

/-- A transaction around what is steady. -/
theorem steady_tx {body : Db σ ε α} (hbody : Steady body) : Steady (tx body) := by
  intro F c a c' h n
  obtain ⟨c₁, c₂, hc₁, hb, hc'⟩ := tx_ok h
  obtain ⟨n', h'⟩ := hbody F c₁ a c₂ hb (n + 1)
  refine ⟨n' + 1, ?_⟩
  rw [hc₁] at h'
  rw [hc']
  simp [tx, noFaults] at h' ⊢
  rw [h']

/-- A steady program that ended well has done what it does without faults. -/
theorem Steady.run {m : Db σ ε α} (hm : Steady m) {F : Faults ε} {c c' : Conn σ} {a : α}
    (h : m F c = (.ok a, c')) : m.run c.store = (.ok a, c'.store) := by
  obtain ⟨n', h'⟩ := hm F c a c' h 0
  unfold Db.run
  rw [h']

/-! ## How far a job gets -/

/-- A step is a program that gets through. -/
def committed (step : γ → Db σ ε α) : Machine σ γ where
  step s x :=
    match (step x).run s with
    | (.ok _, t) => some t
    | (.error _, _) => none

/-- A step is the program, run without faults. -/
theorem committed_step {step : γ → Db σ ε α} {x : γ} {s t : σ}
    (h : (committed step).step s x = some t) : ∃ a, (step x).run s = (.ok a, t) := by
  simp only [committed] at h
  split at h
  · next a u hrun => exact ⟨a, by rw [hrun, Option.some.inj h]⟩
  · cases h

/-- Wherever `m` stops, it has taken the first of the steps `as`, and all of them just when it
has not failed. -/
def Follows (M : Machine σ γ) (as : List γ) (m : Db σ ε α) : Prop :=
  ∀ F c, ∃ k ≤ as.length, M.exec c.store (as.take k) = some (m F c).2.store ∧
    ((m F c).1.isOk = true ↔ k = as.length)

/-- A job that has not failed is done. -/
theorem Follows.of_ok {M : Machine σ γ} {as : List γ} {m : Db σ ε α} (hm : Follows M as m)
    {F : Faults ε} {c c' : Conn σ} {a : α} (h : m F c = (.ok a, c')) :
    M.exec c.store as = some c'.store := by
  obtain ⟨k, -, hrun, hok⟩ := hm F c
  rw [h] at hrun hok
  obtain rfl := hok.mp rfl
  rwa [List.take_length] at hrun

theorem follows_pure (M : Machine σ γ) (a : α) : Follows M [] (pure a : Db σ ε α) :=
  fun _ _ => ⟨0, Nat.le_refl 0, rfl, iff_of_true rfl rfl⟩

/-- One program that is done or not done follows its own step. -/
theorem follows_step {step : γ → Db σ ε α} {x : γ} (hsteady : Steady (step x))
    (herror : ∀ F c e c', step x F c = (.error e, c') → c'.store = c.store) :
    Follows (committed step) [x] (step x) := by
  intro F c
  match h : step x F c with
  | (.ok a, c') =>
    refine ⟨1, Nat.le_refl 1, ?_, iff_of_true rfl rfl⟩
    have hstep : (committed step).step c.store x = some c'.store := by
      simp only [committed, hsteady.run h]
    exact ((committed step).exec_cons hstep).trans rfl
  | (.error e, c') =>
    refine ⟨0, Nat.zero_le 1, ?_, iff_of_false (Bool.false_ne_true) Nat.zero_ne_one⟩
    exact congrArg some (herror F c e c' h).symm

/-- One after the other, in the order of the steps. -/
theorem follows_bind {M : Machine σ γ} {as bs : List γ} {m : Db σ ε α} {f : α → Db σ ε β}
    (hm : Follows M as m) (hf : ∀ a, Follows M bs (f a)) : Follows M (as ++ bs) (m >>= f) := by
  intro F c
  obtain ⟨k, hk, hrun, hok⟩ := hm F c
  rw [bind_def, List.length_append]
  match h : m F c with
  | (.error e, c') =>
    -- the steps of `m` are not all taken, so those of `f` have not begun
    rw [h] at hrun hok
    have hne : k ≠ as.length := fun he => absurd (hok.mpr he) Bool.false_ne_true
    refine ⟨k, by omega, ?_, iff_of_false Bool.false_ne_true (by omega)⟩
    rw [List.take_append_of_le_length hk]
    exact hrun
  | (.ok a, c') =>
    rw [h] at hrun hok
    obtain rfl := hok.mp rfl
    obtain ⟨l, hl, hrest, hdone⟩ := hf a F c'
    refine ⟨as.length + l, by omega, ?_, hdone.trans (by omega)⟩
    rw [List.take_length_add_append, Machine.exec_append]
    rw [List.take_length] at hrun
    rw [hrun]
    exact hrest

/-- A loop follows the steps of its rounds. -/
theorem follows_forEach {M : Machine σ γ} {body : α → Db σ ε Unit} {g : α → γ}
    (hbody : ∀ x, Follows M [g x] (body x)) : ∀ xs, Follows M (xs.map g) (forEach xs body)
  | [] => follows_pure M ()
  | x :: xs => follows_bind (hbody x) fun _ => follows_forEach hbody xs

/-- What a successful run is known to end in, one without faults ends in. -/
theorem Total.of_ok {P : σ → Prop} {Q R : α → σ → Prop} {m : Db σ ε α} (h : Total P m Q)
    (hok : ∀ F c a c', P c.store → m F c = (.ok a, c') → R a c'.store) : Total P m R := by
  intro F c hF hP
  obtain ⟨a, c', hm, hF', -⟩ := h F c hF hP
  exact ⟨a, c', hm, hF', hok F c a c' hP hm⟩

end Db

end ReleaseRadar.Lib
