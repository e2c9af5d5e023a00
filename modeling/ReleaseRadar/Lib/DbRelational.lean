import ReleaseRadar.Lib.Db

/-!
# Two runs of database programs

`Alike S R m m'` compares a run of `m` with a run of `m'` under one fault plan: from
stores related by `S`, after as many calls, both end in stores related by `S`, after as
many calls again, and either with the same error or with results related by `R`. With
`S` saying that two stores agree on what an observer may see, `Alike S (· = ·) m m`
says that `m` tells the observer nothing else.

The relation is closed under the constructs of the language, so it is proved by
composing it.
-/

namespace ReleaseRadar.Lib.Db

variable {σ ε α β α' β' : Type} {S : σ → σ → Prop}

/-- Both failed alike, or both succeeded with related results. -/
def SameOutcome (R : α → α' → Prop) : Except ε α → Except ε α' → Prop
  | .ok a, .ok a' => R a a'
  | .error e, .error e' => e = e'
  | _, _ => False

def Alike (S : σ → σ → Prop) (R : α → α' → Prop) (m : Db σ ε α) (m' : Db σ ε α') : Prop :=
  ∀ F c c', S c.store c'.store → c.calls = c'.calls →
    SameOutcome R (m F c).1 (m' F c').1 ∧
      S (m F c).2.store (m' F c').2.store ∧ (m F c).2.calls = (m' F c').2.calls

/-- Programs that only return are alike as their results are. -/
theorem alike_pure {R : α → α' → Prop} {a : α} {a' : α'} (h : R a a') :
    Alike S R (pure a : Db σ ε α) (pure a') :=
  fun _ _ _ hS hcalls => ⟨h, hS, hcalls⟩

theorem alike_throw {R : α → α' → Prop} (e : ε) :
    Alike S R (throw e : Db σ ε α) (throw e) :=
  fun _ _ _ hS hcalls => ⟨rfl, hS, hcalls⟩

/-- Calls are alike as their statements are. -/
theorem alike_call {R : α → α' → Prop} {f : σ → Except ε (α × σ)} {f' : σ → Except ε (α' × σ)}
    (hf : ∀ s s', S s s' →
      SameOutcome (fun x y => R x.1 y.1 ∧ S x.2 y.2) (f s) (f' s')) :
    Alike S R (call f) (call f') := by
  intro F c c' hS hcalls
  have hout := hf c.store c'.store hS
  unfold call
  rw [← hcalls]
  cases F c.calls with
  | some x => exact ⟨rfl, hS, rfl⟩
  | none =>
    match hs : f c.store, hs' : f' c'.store with
    | .ok x, .ok y =>
      rw [hs, hs'] at hout
      exact ⟨hout.1, hout.2, rfl⟩
    | .error e, .error e' =>
      rw [hs, hs'] at hout
      exact ⟨hout, hS, rfl⟩
    | .ok x, .error e' => rw [hs, hs'] at hout; exact hout.elim
    | .error e, .ok y => rw [hs, hs'] at hout; exact hout.elim

/-- Two result sets that are cut at the same place stay alike when `Q` is closed under
taking a prefix. -/
theorem alike_query {ρ ρ' : Type} {Q : List ρ → List ρ' → Prop}
    (htake : ∀ k xs ys, Q xs ys → Q (xs.take k) (ys.take k)) {f : σ → Except ε (List ρ)}
    {f' : σ → Except ε (List ρ')} (hf : ∀ s s', S s s' → SameOutcome Q (f s) (f' s')) :
    Alike S (fun rows rows' => rows.err = rows'.err ∧ Q rows.seen rows'.seen) (query f)
      (query f') := by
  intro F c c' hS hcalls
  have hout := hf c.store c'.store hS
  unfold query
  rw [← hcalls]
  match hs : f c.store, hs' : f' c'.store with
  | .ok xs, .ok ys =>
    rw [hs, hs'] at hout
    cases F c.calls with
    | none => exact ⟨⟨rfl, hout⟩, hS, rfl⟩
    | some x =>
      cases x with
      | fail e => exact ⟨rfl, hS, rfl⟩
      | cut k e => exact ⟨⟨rfl, htake k xs ys hout⟩, hS, rfl⟩
  | .error e, .error e' =>
    rw [hs, hs'] at hout
    obtain rfl : e = e' := hout
    cases F c.calls with
    | none => exact ⟨rfl, hS, rfl⟩
    | some x =>
      cases x with
      | fail e => exact ⟨rfl, hS, rfl⟩
      | cut k e => exact ⟨rfl, hS, rfl⟩
  | .ok x, .error e' => rw [hs, hs'] at hout; exact hout.elim
  | .error e, .ok y => rw [hs, hs'] at hout; exact hout.elim

/-- One program after the other. -/
theorem alike_bind {R : α → α' → Prop} {R' : β → β' → Prop} {m : Db σ ε α} {m' : Db σ ε α'}
    {f : α → Db σ ε β} {f' : α' → Db σ ε β'} (hm : Alike S R m m')
    (hf : ∀ a a', R a a' → Alike S R' (f a) (f' a')) : Alike S R' (m >>= f) (m' >>= f') := by
  intro F c c' hS hcalls
  obtain ⟨hout, hS₁, hcalls₁⟩ := hm F c c' hS hcalls
  rw [bind_def, bind_def]
  match hr : m F c, hr' : m' F c' with
  | (.ok a, c₁), (.ok a', c₁') =>
    rw [hr, hr'] at hout hS₁ hcalls₁
    exact hf a a' hout F c₁ c₁' hS₁ hcalls₁
  | (.error e, c₁), (.error e', c₁') =>
    rw [hr, hr'] at hout hS₁ hcalls₁
    exact ⟨hout, hS₁, hcalls₁⟩
  | (.ok a, c₁), (.error e', c₁') => rw [hr, hr'] at hout; exact hout.elim
  | (.error e, c₁), (.ok a', c₁') => rw [hr, hr'] at hout; exact hout.elim

/-- Rows that fail alike are alike. -/
theorem alike_checked {ρ ρ' : Type} {Q : List ρ → List ρ' → Prop} {rows : Rows ρ ε}
    {rows' : Rows ρ' ε} (h : rows.err = rows'.err ∧ Q rows.seen rows'.seen) :
    Alike S Q (checked rows) (checked rows') := by
  unfold checked
  rw [← h.1]
  cases rows.err with
  | none => exact alike_pure h.2
  | some e => exact alike_throw e

end ReleaseRadar.Lib.Db
