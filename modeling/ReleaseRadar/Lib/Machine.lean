/-!
# Labelled machines and their runs

Concurrent code is modelled as a partial step function over an explicit
state: `step s a = none` says that the action `a` is not enabled in `s`. A run
is the list of actions taken, in order, and `exec` is where it ends. A schedule
is data here, so an interleaving that breaks a property is a list that `decide`
can run.

Two rules carry the developments over it. `exec_invariant` is the induction
rule: what every step preserves, every run preserves. `exec_invariant_along`
is the same for runs whose steps all meet a side condition on the state they
are taken from (`Along`), which is how "in every run in which no step does
..." is said; `exec_prefix_iff_along` is its converse, for a condition that a
step cannot do without. `exec_refines` carries a run over to a more abstract machine.
-/

namespace ReleaseRadar.Lib

/-- A labelled machine: a partial step function. -/
structure Machine (σ α : Type) where
  step : σ → α → Option σ

namespace Machine

variable {σ α : Type} (M : Machine σ α)

/-- The state a run ends in, `none` when one of its actions was not enabled. -/
def exec (s : σ) : List α → Option σ
  | [] => some s
  | a :: as =>
    match M.step s a with
    | none => none
    | some s' => exec s' as

/-- Every step of the run meets `G` in the state it is taken from. -/
def Along (G : σ → α → Prop) (s : σ) : List α → Prop
  | [] => True
  | a :: as =>
    G s a ∧
      match M.step s a with
      | none => True
      | some s' => Along G s' as

/-- A run's side condition can be evaluated when each step's can. -/
instance decidableAlong {G : σ → α → Prop} [∀ s a, Decidable (G s a)] :
    ∀ (as : List α) (s : σ), Decidable (M.Along G s as)
  | [], _ => isTrue trivial
  | a :: as, s =>
    match h : M.step s a with
    | none => decidable_of_iff (G s a) (by simp [Along, h])
    | some s' =>
      have : Decidable (M.Along G s' as) := decidableAlong as s'
      decidable_of_iff (G s a ∧ M.Along G s' as) (by simp [Along, h])

/-- What a given run leads to can be evaluated. -/
instance decidableExec {P : σ → Prop} [DecidablePred P] (s : σ) (as : List α) :
    Decidable (∃ t, M.exec s as = some t ∧ P t) :=
  match h : M.exec s as with
  | none => isFalse (by simp)
  | some t => decidable_of_iff (P t) (by simp)

@[simp] theorem exec_nil (s : σ) : M.exec s [] = some s := rfl

theorem exec_cons {s s' : σ} {a : α} {as : List α} (h : M.step s a = some s') :
    M.exec s (a :: as) = M.exec s' as := by
  simp only [exec, h]

/-- A run that gets through took its first step. -/
theorem exec_cons_some {s t : σ} {a : α} {as : List α} (h : M.exec s (a :: as) = some t) :
    ∃ s', M.step s a = some s' ∧ M.exec s' as = some t := by
  simp only [exec] at h
  split at h
  · exact absurd h (by simp)
  · next s' hs => exact ⟨s', hs, h⟩

theorem exec_append {s : σ} (as bs : List α) :
    M.exec s (as ++ bs) = (M.exec s as).bind fun s' => M.exec s' bs := by
  induction as generalizing s with
  | nil => rfl
  | cons a as ih =>
    simp only [List.cons_append, exec]
    split
    · rfl
    · exact ih

theorem along_cons_some {G : σ → α → Prop} {s s' : σ} {a : α} {as : List α}
    (h : M.Along G s (a :: as)) (hs : M.step s a = some s') : G s a ∧ M.Along G s' as := by
  simp only [Along, hs] at h
  exact h

theorem along_cons {G : σ → α → Prop} {s : σ} {a : α} {as : List α} (hG : G s a)
    (h : ∀ s', M.step s a = some s' → M.Along G s' as) : M.Along G s (a :: as) := by
  refine ⟨hG, ?_⟩
  split
  · trivial
  · next s' hs => exact h s' hs

/-- A side condition that every action meets in every state holds along every run. -/
theorem along_of_forall {G : σ → α → Prop} {as : List α} (h : ∀ a ∈ as, ∀ s, G s a) :
    ∀ s, M.Along G s as := by
  induction as with
  | nil => exact fun _ => trivial
  | cons a as ih =>
    intro s
    refine M.along_cons (h a List.mem_cons_self s) fun s' _ => ?_
    exact ih (fun b hb => h b (List.mem_cons_of_mem _ hb)) s'

/-- A side condition along a run may be weakened at each of its actions. -/
theorem along_imp {G G' : σ → α → Prop} {as : List α} (h : ∀ a ∈ as, ∀ s, G s a → G' s a) :
    ∀ {s : σ}, M.Along G s as → M.Along G' s as := by
  induction as with
  | nil => exact fun _ => trivial
  | cons a as ih =>
    intro s hG
    refine M.along_cons (h a List.mem_cons_self s hG.1) fun s' hs => ?_
    exact ih (fun b hb => h b (List.mem_cons_of_mem _ hb)) (M.along_cons_some hG hs).2

/-- A side condition along a run holds along each of its beginnings. -/
theorem along_append {G : σ → α → Prop} :
    ∀ {as bs : List α} {s : σ}, M.Along G s (as ++ bs) → M.Along G s as := by
  intro as
  induction as with
  | nil => intro bs s _; trivial
  | cons a as ih =>
    intro bs s h
    simp only [List.cons_append, Along] at h ⊢
    refine ⟨h.1, ?_⟩
    split
    · trivial
    · next s' hs =>
      have h2 := h.2
      rw [hs] at h2
      exact ih h2

/-- Two side conditions hold along a run together. -/
theorem along_and {G G' : σ → α → Prop} :
    ∀ {as : List α} {s : σ}, M.Along G s as → M.Along G' s as →
      M.Along (fun s a => G s a ∧ G' s a) s as := by
  intro as
  induction as with
  | nil => intro s _ _; trivial
  | cons a as ih =>
    intro s h h'
    simp only [Along] at h h' ⊢
    refine ⟨⟨h.1, h'.1⟩, ?_⟩
    split
    · trivial
    · next s' hs =>
      have h2 := h.2
      have h2' := h'.2
      rw [hs] at h2 h2'
      exact ih h2 h2'

/-- **The induction rule for conditional runs**: an invariant that every step
meeting `G` preserves holds at the end of every run along `G`. -/
theorem exec_invariant_along {G : σ → α → Prop} {I : σ → Prop}
    (hstep : ∀ s a s', I s → G s a → M.step s a = some s' → I s') :
    ∀ {as : List α} {s t : σ}, I s → M.Along G s as → M.exec s as = some t → I t := by
  intro as
  induction as with
  | nil =>
    intro s t hI _ he
    simp only [exec_nil, Option.some.injEq] at he
    exact he ▸ hI
  | cons a as ih =>
    intro s t hI hG he
    obtain ⟨s', hs, he'⟩ := M.exec_cons_some he
    obtain ⟨hg, hG'⟩ := M.along_cons_some hG hs
    exact ih (hstep s a s' hI hg hs) hG' he'

/-- **The induction rule**: what every step preserves, every run preserves. -/
theorem exec_invariant {I : σ → Prop} (hstep : ∀ s a s', I s → M.step s a = some s' → I s')
    {as : List α} {s t : σ} (hI : I s) (he : M.exec s as = some t) : I t := by
  induction as generalizing s with
  | nil =>
    simp only [exec_nil, Option.some.injEq] at he
    exact he ▸ hI
  | cons a as ih =>
    obtain ⟨s', hs, he'⟩ := M.exec_cons_some he
    exact ih (hstep s a s' hI hs) he'

/-- **Where `G` is exactly what a step needs**: the states that a run goes through all meet the
invariant just when its steps all meet `G`. -/
theorem exec_prefix_iff_along {G : σ → α → Prop} {I : σ → Prop}
    (hstep : ∀ s a s', I s → M.step s a = some s' → (I s' ↔ G s a))
    (hnone : ∀ s a, M.step s a = none → G s a) :
    ∀ {as : List α} {s : σ}, I s →
      ((∀ bs, bs <+: as → ∀ t, M.exec s bs = some t → I t) ↔ M.Along G s as) := by
  intro as s hI
  constructor
  · intro h
    induction as generalizing s with
    | nil => trivial
    | cons a as ih =>
      cases hs : M.step s a with
      | none => exact M.along_cons (hnone s a hs) fun s' hs' => absurd (hs.symm.trans hs') (by simp)
      | some s' =>
        have hI' : I s' := h [a] (List.prefix_append [a] as) s' (M.exec_cons hs)
        refine M.along_cons ((hstep s a s' hI hs).mp hI') fun u hu => ?_
        obtain rfl := Option.some.inj (hs.symm.trans hu)
        refine ih hI' fun bs hbs t ht => ?_
        exact h (a :: bs) (List.cons_prefix_cons.mpr ⟨rfl, hbs⟩) t ((M.exec_cons hs).trans ht)
  · rintro h bs ⟨cs, rfl⟩ t ht
    exact M.exec_invariant_along (fun s a s' hI hG hs => (hstep s a s' hI hs).mpr hG) hI
      (M.along_append h) ht

/-- **The refinement rule**: where a step of `M` does nothing that `f` sees or one step of `N`
that the action asks for, a run of `M` is a run of `N` over some of what was asked for, in its
order. -/
theorem exec_refines {τ β : Type} (N : Machine τ β) (f : σ → τ) (asks : α → Option β) {I : σ → Prop}
    (hkeep : ∀ s a s', I s → M.step s a = some s' → I s')
    (hstep : ∀ s a s', I s → M.step s a = some s' →
      f s' = f s ∨ ∃ b, asks a = some b ∧ N.step (f s) b = some (f s'))
    {as : List α} {s t : σ} (hI : I s) (he : M.exec s as = some t) :
    ∃ bs, bs.Sublist (as.filterMap asks) ∧ N.exec (f s) bs = some (f t) := by
  induction as generalizing s with
  | nil =>
    obtain rfl := Option.some.inj he
    exact ⟨[], List.Sublist.refl _, rfl⟩
  | cons a as ih =>
    obtain ⟨s', hs, he'⟩ := M.exec_cons_some he
    obtain ⟨bs, hbs, hrun⟩ := ih (hkeep s a s' hI hs) he'
    have hrest : (as.filterMap asks).Sublist ((a :: as).filterMap asks) :=
      (List.sublist_cons_self a as).filterMap asks
    rcases hstep s a s' hI hs with hsame | ⟨b, hb, hN⟩
    · exact ⟨bs, hbs.trans hrest, hsame ▸ hrun⟩
    · refine ⟨b :: bs, ?_, (N.exec_cons hN).trans hrun⟩
      rw [List.filterMap_cons_some hb]
      exact hbs.cons_cons b

end Machine

end ReleaseRadar.Lib
