/-!
# Programs over a database connection that may fail at any call

`Db σ ε α` is a program that talks to a store `σ` over a connection. Every
statement, `BEGIN` and `COMMIT` is one *call*, counted by `Conn.calls`, and a
fault plan `F : Nat → Option (Fault ε)` says which calls fail and how. A theorem
for every `F` therefore covers every single point of failure at once, and also
a cancelled request context (every call from some point on fails). A query can
fail in two ways: it is refused, or its rows are cut short and the error is left
for the caller to ask for (`Rows.err`).

`tx` is a transaction with a deferred rollback: an error anywhere in it, the
`COMMIT` included, puts the store back (`tx_error_store`).

Three ways to reason about a program are provided. `Within R` says that whatever
happens, the store changes only as the frame `R` allows. `Total P m Q` says that
from `P`, with no fault ahead, `m` succeeds and ends in `Q`. Both are closed under
every construct of the language, so either is proved by composing it. The `_ok`
lemmas invert a *successful* run, one construct at a time.
-/

namespace ReleaseRadar.Lib

/-- The store a program works on and the number of calls made so far. -/
structure Conn (σ : Type) where
  store : σ
  calls : Nat

/-- How a call fails: refused, or, for a query, cut short after some rows. -/
inductive Fault (ε : Type)
  | fail (e : ε)
  | cut (rows : Nat) (e : ε)

def Fault.err {ε : Type} : Fault ε → ε
  | .fail e => e
  | .cut _ e => e

/-- Which calls fail, and how. -/
abbrev Faults (ε : Type) := Nat → Option (Fault ε)

/-- What iterating over a query's result yields: the rows, and the error that
ended the iteration early. -/
structure Rows (ρ ε : Type) where
  seen : List ρ
  err : Option ε

/-- A program over a store. -/
def Db (σ ε α : Type) : Type := Faults ε → Conn σ → Except ε α × Conn σ

namespace Db

variable {σ ε α β : Type}

protected def pure (a : α) : Db σ ε α := fun _ c => (.ok a, c)

protected def bind (m : Db σ ε α) (f : α → Db σ ε β) : Db σ ε β := fun F c =>
  match m F c with
  | (.ok a, c') => f a F c'
  | (.error e, c') => (.error e, c')

instance : Monad (Db σ ε) where
  pure := Db.pure
  bind := Db.bind

/-- Stop with an error, without a call. -/
def throw (e : ε) : Db σ ε α := fun _ c => (.error e, c)

/-- One call: it fails as planned, or it runs `f` on the store. -/
def call (f : σ → Except ε (α × σ)) : Db σ ε α := fun F c =>
  match F c.calls with
  | some x => (.error x.err, { c with calls := c.calls + 1 })
  | none =>
    match f c.store with
    | .error e => (.error e, { c with calls := c.calls + 1 })
    | .ok (a, s) => (.ok a, ⟨s, c.calls + 1⟩)

/-- One query: its rows may be cut short. -/
def query {ρ : Type} (f : σ → Except ε (List ρ)) : Db σ ε (Rows ρ ε) := fun F c =>
  match F c.calls with
  | some (.fail e) => (.error e, { c with calls := c.calls + 1 })
  | some (.cut k e) =>
    match f c.store with
    | .error e' => (.error e', { c with calls := c.calls + 1 })
    | .ok rows => (.ok ⟨rows.take k, some e⟩, { c with calls := c.calls + 1 })
  | none =>
    match f c.store with
    | .error e => (.error e, { c with calls := c.calls + 1 })
    | .ok rows => (.ok ⟨rows, none⟩, { c with calls := c.calls + 1 })

/-- The rows, for a caller that checks `rows.Err()`. -/
def checked {ρ : Type} (rows : Rows ρ ε) : Db σ ε (List ρ) :=
  match rows.err with
  | none => pure rows.seen
  | some e => throw e

/-- Keep the error as a value, as a caller does that looks at `err`. -/
def attempt (m : Db σ ε α) : Db σ ε (Except ε α) := fun F c =>
  match m F c with
  | (r, c') => (.ok r, c')

/-- Run `body` for each element, in order, stopping at the first error. -/
def forEach (xs : List α) (body : α → Db σ ε Unit) : Db σ ε Unit :=
  match xs with
  | [] => pure ()
  | x :: xs => Db.bind (body x) fun _ => forEach xs body

/-- Run `body` for each element, in order, and collect the results. -/
def mapEach (xs : List α) (body : α → Db σ ε β) : Db σ ε (List β) :=
  match xs with
  | [] => pure []
  | x :: xs => Db.bind (body x) fun y => Db.bind (mapEach xs body) fun ys => pure (y :: ys)

/-- A transaction: `BEGIN`, the body, `COMMIT`, and a rollback on any error. -/
def tx (body : Db σ ε α) : Db σ ε α := fun F c =>
  match F c.calls with
  | some x => (.error x.err, { c with calls := c.calls + 1 })
  | none =>
    match body F { c with calls := c.calls + 1 } with
    | (.error e, c') => (.error e, ⟨c.store, c'.calls⟩)
    | (.ok a, c') =>
      match F c'.calls with
      | some x => (.error x.err, ⟨c.store, c'.calls + 1⟩)
      | none => (.ok a, { c' with calls := c'.calls + 1 })

/-- No call fails on its own. -/
def noFaults : Faults ε := fun _ => none

/-- Run a program against a store on a fresh connection with no faults. -/
def run (m : Db σ ε α) (s : σ) : Except ε α × σ :=
  match m noFaults ⟨s, 0⟩ with
  | (r, c) => (r, c.store)

/-! ## Successful runs, one construct at a time -/

theorem pure_def (a : α) (F : Faults ε) (c : Conn σ) : (pure a : Db σ ε α) F c = (.ok a, c) := rfl

theorem bind_def (m : Db σ ε α) (f : α → Db σ ε β) (F : Faults ε) (c : Conn σ) :
    (m >>= f) F c = match m F c with
      | (.ok a, c') => f a F c'
      | (.error e, c') => (.error e, c') := rfl

/-- Programs compose as in any monad. -/
theorem bind_assoc {γ : Type} (m : Db σ ε α) (f : α → Db σ ε β) (g : β → Db σ ε γ) :
    (m >>= f) >>= g = m >>= fun a => f a >>= g := by
  funext F c
  simp only [bind_def]
  match m F c with
  | (.ok _, _) => rfl
  | (.error _, _) => rfl

/-- A program that ends well has ended well in both parts. -/
theorem bind_ok {m : Db σ ε α} {f : α → Db σ ε β} {F : Faults ε} {c c' : Conn σ} {b : β}
    (h : (m >>= f) F c = (.ok b, c')) :
    ∃ a c₁, m F c = (.ok a, c₁) ∧ f a F c₁ = (.ok b, c') := by
  rw [bind_def] at h
  split at h
  · next a c₁ hm => exact ⟨a, c₁, hm, h⟩
  · simp at h

/-- A call that ends well has done what its statement does. -/
theorem call_ok {f : σ → Except ε (α × σ)} {F : Faults ε} {c c' : Conn σ} {a : α}
    (h : call f F c = (.ok a, c')) : f c.store = .ok (a, c'.store) := by
  unfold call at h
  split at h
  · simp at h
  · split at h
    · simp at h
    · next s hf =>
      obtain ⟨rfl, rfl⟩ : _ = a ∧ _ = c' := by simpa using h
      exact hf

/-- A call that succeeded was not due to fail. -/
theorem call_ok_faults {f : σ → Except ε (α × σ)} {F : Faults ε} {c c' : Conn σ} {a : α}
    (h : call f F c = (.ok a, c')) : F c.calls = none := by
  unfold call at h
  split at h
  · simp at h
  · assumption

/-- A call that fails did not touch the store. -/
theorem call_error {f : σ → Except ε (α × σ)} {F : Faults ε} {c c' : Conn σ} {e : ε}
    (h : call f F c = (.error e, c')) : c'.store = c.store := by
  unfold call at h
  split at h
  · exact (congrArg (·.2.store) h).symm
  · split at h
    · exact (congrArg (·.2.store) h).symm
    · simp at h

/-- A call counts, however it ends. -/
theorem call_calls (f : σ → Except ε (α × σ)) (F : Faults ε) (c : Conn σ) :
    (call f F c).2.calls = c.calls + 1 := by
  unfold call
  split
  · rfl
  · split <;> rfl

/-- A query is one call, whatever becomes of it. -/
theorem query_calls {ρ : Type} (f : σ → Except ε (List ρ)) (F : Faults ε) (c : Conn σ) :
    (query f F c).2.calls = c.calls + 1 := by
  unfold query
  split
  · rfl
  · split <;> rfl
  · split <;> rfl

/-- A query that returns rows did not touch the store. -/
theorem query_ok {ρ : Type} {f : σ → Except ε (List ρ)} {F : Faults ε} {c c' : Conn σ}
    {rows : Rows ρ ε} (h : query f F c = (.ok rows, c')) :
    c'.store = c.store ∧ ∃ all, f c.store = .ok all ∧ (F c.calls = none → rows = ⟨all, none⟩) := by
  unfold query at h
  split at h
  · simp at h
  · next k e hF =>
    split at h
    · simp at h
    · next all hf =>
      obtain ⟨rfl, rfl⟩ : _ = rows ∧ _ = c' := by simpa using h
      exact ⟨rfl, all, hf, by simp [hF]⟩
  · split at h
    · simp at h
    · next all hf =>
      obtain ⟨rfl, rfl⟩ : _ = rows ∧ _ = c' := by simpa using h
      exact ⟨rfl, all, hf, fun _ => rfl⟩

/-- The rows of a query whose iteration ended without an error are all there are; with
one, they are those before the cut. -/
theorem query_seen {ρ : Type} {f : σ → Except ε (List ρ)} {F : Faults ε} {c c' : Conn σ}
    {rows : Rows ρ ε} (h : query f F c = (.ok rows, c')) :
    ∃ all, f c.store = .ok all ∧ ((F c.calls = none ∧ rows = ⟨all, none⟩) ∨
      ∃ k e, F c.calls = some (.cut k e) ∧ rows = ⟨all.take k, some e⟩) := by
  unfold query at h
  split at h
  · simp at h
  · next k e hF =>
    split at h
    · simp at h
    · next all hf =>
      obtain ⟨rfl, -⟩ : _ = rows ∧ _ = c' := by simpa using h
      exact ⟨all, hf, Or.inr ⟨k, e, hF, rfl⟩⟩
  · next hF =>
    split at h
    · simp at h
    · next all hf =>
      obtain ⟨rfl, -⟩ : _ = rows ∧ _ = c' := by simpa using h
      exact ⟨all, hf, Or.inl ⟨hF, rfl⟩⟩

/-- A caller that asks for the error goes on with all the rows, or not at all. -/
theorem checked_ok {ρ : Type} {rows : Rows ρ ε} {out : List ρ} {F : Faults ε} {c c' : Conn σ}
    (h : checked rows F c = (.ok out, c')) : c = c' ∧ rows = ⟨out, none⟩ := by
  obtain ⟨seen, err⟩ := rows
  cases err with
  | none =>
    obtain ⟨rfl, rfl⟩ : seen = out ∧ c = c' := by simpa [checked, pure_def] using h
    exact ⟨rfl, rfl⟩
  | some e => simp [checked, throw] at h

/-- A transaction that ends well has run its body, and what the body left is committed. -/
theorem tx_ok {body : Db σ ε α} {F : Faults ε} {c c' : Conn σ} {a : α}
    (h : tx body F c = (.ok a, c')) :
    ∃ c₁ c₂, c₁.store = c.store ∧ body F c₁ = (.ok a, c₂) ∧ c'.store = c₂.store := by
  unfold tx at h
  split at h
  · simp at h
  · split at h
    · simp at h
    · next a' c₂ hb =>
      split at h
      · simp at h
      · obtain ⟨rfl, rfl⟩ : a' = a ∧ _ = c' := by simpa using h
        exact ⟨{ c with calls := c.calls + 1 }, c₂, rfl, hb, rfl⟩

/-- A transaction that returns an error leaves the store as it was. -/
theorem tx_error_store {body : Db σ ε α} {F : Faults ε} {c c' : Conn σ} {e : ε}
    (h : tx body F c = (.error e, c')) : c'.store = c.store := by
  unfold tx at h
  split at h
  · have := congrArg (·.2.store) h
    exact this.symm
  · split at h
    · have := congrArg (·.2.store) h
      exact this.symm
    · split at h
      · have := congrArg (·.2.store) h
        exact this.symm
      · simp at h

/-- A loop whose body, when it succeeds, applies `g` to the store is a fold
when it succeeds. -/
theorem forEach_ok {body : α → Db σ ε Unit} (g : σ → α → σ) {F : Faults ε}
    (hbody : ∀ x c c', body x F c = (.ok (), c') → c'.store = g c.store x) :
    ∀ {xs : List α} {c c' : Conn σ},
      forEach xs body F c = (.ok (), c') → c'.store = xs.foldl g c.store := by
  intro xs
  induction xs with
  | nil =>
    intro c c' h
    obtain rfl : c = c' := congrArg Prod.snd h
    rfl
  | cons x xs ih =>
    intro c c' h
    obtain ⟨_, c₁, hx, hxs⟩ := bind_ok h
    rw [List.foldl_cons, ← hbody x c c₁ hx]
    exact ih hxs

/-- Every round of a loop that succeeded has succeeded. -/
theorem forEach_ok_each {body : α → Db σ ε Unit} {F : Faults ε} :
    ∀ {xs : List α} {c c' : Conn σ}, forEach xs body F c = (.ok (), c') →
      ∀ x ∈ xs, ∃ d d', body x F d = (.ok (), d') := by
  intro xs
  induction xs with
  | nil => intro c c' _ x hx; cases hx
  | cons y xs ih =>
    intro c c' h x hx
    obtain ⟨_, c₁, hy, hxs⟩ := bind_ok h
    rcases List.mem_cons.mp hx with rfl | hx
    · exact ⟨c, c₁, hy⟩
    · exact ih hxs x hx

/-- A loop whose body, when it succeeds, only reads gives what is read for each. -/
theorem mapEach_ok {body : α → Db σ ε β} (g : σ → α → β) {F : Faults ε}
    (hbody : ∀ x c c' y, body x F c = (.ok y, c') → c'.store = c.store ∧ y = g c.store x) :
    ∀ {xs : List α} {c c' : Conn σ} {ys : List β},
      mapEach xs body F c = (.ok ys, c') → c'.store = c.store ∧ ys = xs.map (g c.store) := by
  intro xs
  induction xs with
  | nil =>
    intro c c' ys h
    obtain ⟨hys, rfl⟩ := Prod.mk.inj h
    exact ⟨rfl, (Except.ok.inj hys).symm⟩
  | cons x xs ih =>
    intro c c' ys h
    obtain ⟨y, c₁, hx, h⟩ := bind_ok h
    obtain ⟨zs, c₂, hxs, h⟩ := bind_ok h
    obtain ⟨hys, rfl⟩ := Prod.mk.inj h
    obtain ⟨hstore, rfl⟩ := hbody x c c₁ y hx
    obtain ⟨hstore₂, rfl⟩ := ih hxs
    refine ⟨hstore₂.trans hstore, ?_⟩
    rw [← Except.ok.inj hys, hstore, List.map_cons]

/-! ## What holds of the stores before and after, whatever happens -/

/-- A frame condition: a preorder saying which changes of the store are allowed. -/
structure Frame (σ : Type) where
  allows : σ → σ → Prop
  refl : ∀ s, allows s s
  trans : ∀ {s t u}, allows s t → allows t u → allows s u

/-- Changes that leave the value of `p` alone. -/
def Frame.keeps {σ β : Type} (p : σ → β) : Frame σ where
  allows s t := p t = p s
  refl _ := rfl
  trans h₁ h₂ := h₂.trans h₁

/-- Changes that do not break `I`. -/
def Frame.invariant {σ : Type} (I : σ → Prop) : Frame σ where
  allows s t := I s → I t
  refl _ := id
  trans h₁ h₂ h := h₂ (h₁ h)

/-- Before and after a run of `m` the stores are as `R` allows, under every fault
plan and whether the run succeeds or not. -/
def Within (R : Frame σ) (m : Db σ ε α) : Prop :=
  ∀ F c, R.allows c.store (m F c).2.store

section Within

variable {R : Frame σ}

theorem within_pure (a : α) : Within R (pure a : Db σ ε α) := fun _ c => R.refl c.store

theorem within_throw (e : ε) : Within R (throw e : Db σ ε α) := fun _ c => R.refl c.store

/-- A call changes what its statement changes, or nothing. -/
theorem within_call {f : σ → Except ε (α × σ)}
    (hf : ∀ s a s', f s = .ok (a, s') → R.allows s s') : Within R (call f) := by
  intro F c
  unfold call
  split
  · exact R.refl c.store
  · split
    · exact R.refl c.store
    · next a s h => exact hf _ _ _ h

/-- A query changes nothing. -/
theorem within_query {ρ : Type} (f : σ → Except ε (List ρ)) : Within R (query f) := by
  intro F c
  unfold query
  split
  · exact R.refl c.store
  · split <;> exact R.refl c.store
  · split <;> exact R.refl c.store

/-- Asking for the error of the rows changes nothing either. -/
theorem within_checked {ρ : Type} (rows : Rows ρ ε) :
    Within R (checked rows : Db σ ε (List ρ)) := by
  unfold checked
  split
  · exact within_pure _
  · exact within_throw _

/-- One program after the other. -/
theorem within_bind {m : Db σ ε α} {f : α → Db σ ε β} (hm : Within R m)
    (hf : ∀ a, Within R (f a)) : Within R (m >>= f) := by
  intro F c
  have h := hm F c
  rw [bind_def]
  split
  · next a c₁ he =>
    rw [he] at h
    exact R.trans h (hf a F c₁)
  · next e c₁ he =>
    rw [he] at h
    exact h

/-- A program that changes nothing unless it succeeds. -/
theorem within_of_ok {m : Db σ ε α}
    (hok : ∀ F c a c', m F c = (.ok a, c') → R.allows c.store c'.store)
    (herr : ∀ F c e c', m F c = (.error e, c') → c'.store = c.store) : Within R m := by
  intro F c
  cases h : m F c with
  | mk r c' =>
    cases r with
    | ok a => exact hok F c a c' h
    | error e =>
      show R.allows c.store c'.store
      rw [herr F c e c' h]
      exact R.refl _

/-- What a program leaves alone decides an invariant about nothing else. -/
theorem Within.invariant {β : Type} {p : σ → β} {I : σ → Prop} {m : Db σ ε α}
    (hm : Within (Frame.keeps p) m) (hI : ∀ s t, p t = p s → I s → I t) :
    Within (Frame.invariant I) m :=
  fun F c => hI _ _ (hm F c)

/-- A loop stays within what each of its rounds may do. -/
theorem within_forEach {body : α → Db σ ε Unit} (hbody : ∀ x, Within R (body x)) :
    ∀ xs, Within R (forEach xs body)
  | [] => within_pure ()
  | x :: xs => within_bind (hbody x) fun _ => within_forEach hbody xs

/-- A loop with results too. -/
theorem within_mapEach {body : α → Db σ ε β} (hbody : ∀ x, Within R (body x)) :
    ∀ xs, Within R (mapEach xs body)
  | [] => within_pure []
  | x :: xs => within_bind (hbody x) fun _ => within_bind (within_mapEach hbody xs) fun _ =>
      within_pure _

/-- An error that is caught has changed no more than one that is not. -/
theorem within_attempt {m : Db σ ε α} (hm : Within R m) : Within R (attempt m) := fun F c => hm F c

/-- A transaction that is rolled back has changed nothing. -/
theorem within_tx {body : Db σ ε α} (hbody : Within R body) : Within R (tx body) := by
  intro F c
  unfold tx
  split
  · exact R.refl c.store
  · have h := hbody F { c with calls := c.calls + 1 }
    split
    · exact R.refl c.store
    · next a c₁ he =>
      rw [he] at h
      split
      · exact R.refl c.store
      · exact h

end Within

/-! ## What holds of a value that comes out -/

section Yields

variable {Q : α → Prop} {R : β → Prop}

/-- Whatever fails, a value that `m` returns satisfies `Q`. -/
def Yields (m : Db σ ε α) (Q : α → Prop) : Prop := ∀ F c x c', m F c = (.ok x, c') → Q x

/-- Nothing is claimed of the result. -/
theorem yields_any {m : Db σ ε α} : Yields m fun _ => True := fun _ _ _ _ _ => trivial

theorem yields_pure {a : α} (h : Q a) : Yields (pure a : Db σ ε α) Q := by
  intro F c x c' hx
  obtain ⟨hx, -⟩ := Prod.mk.inj hx
  exact Except.ok.inj hx ▸ h

/-- A program that fails has no result. -/
theorem yields_throw (e : ε) : Yields (throw e : Db σ ε α) Q := by
  intro F c x c' hx
  cases (Prod.mk.inj hx).1

/-- What the first part yields is what the second starts from. -/
theorem yields_bind {m : Db σ ε α} {f : α → Db σ ε β} (hm : Yields m Q)
    (hf : ∀ x, Q x → Yields (f x) R) : Yields (m >>= f) R := by
  intro F c y c' hy
  obtain ⟨x, c₁, hx, hy⟩ := bind_ok hy
  exact hf x (hm F c x c₁ hx) F c₁ y c' hy

end Yields

/-! ## What succeeds when nothing fails -/

/-- No fault lies ahead. -/
def Clean (F : Faults ε) (c : Conn σ) : Prop := ∀ k, c.calls ≤ k → F k = none

/-- From a store in `P`, with no fault ahead, `m` succeeds and ends in `Q`. -/
def Total (P : σ → Prop) (m : Db σ ε α) (Q : α → σ → Prop) : Prop :=
  ∀ F c, Clean F c → P c.store → ∃ a c', m F c = (.ok a, c') ∧ Clean F c' ∧ Q a c'.store

section Total

variable {P : σ → Prop} {Q : α → σ → Prop}

/-- After one call the rest of the plan is still clean. -/
theorem Clean.next {F : Faults ε} {c : Conn σ} (h : Clean F c) (s : σ) :
    Clean F ⟨s, c.calls + 1⟩ :=
  fun k hk => h k (Nat.le_of_succ_le hk)

theorem total_pure {a : α} (h : ∀ s, P s → Q a s) : Total P (pure a : Db σ ε α) Q :=
  fun _ c hF hP => ⟨a, c, rfl, hF, h _ hP⟩

/-- A statement that succeeds on the store succeeds where no fault hits it. -/
theorem total_call {f : σ → Except ε (α × σ)}
    (hf : ∀ s, P s → ∃ a s', f s = .ok (a, s') ∧ Q a s') : Total P (call f) Q := by
  intro F c hF hP
  obtain ⟨a, s', hs, hQ⟩ := hf c.store hP
  refine ⟨a, ⟨s', c.calls + 1⟩, ?_, hF.next s', hQ⟩
  simp [call, hF c.calls (Nat.le_refl _), hs]

/-- One program after the other. -/
theorem total_bind {m : Db σ ε α} {f : α → Db σ ε β} {R : β → σ → Prop} (hm : Total P m Q)
    (hf : ∀ a, Total (Q a) (f a) R) : Total P (m >>= f) R := by
  intro F c hF hP
  obtain ⟨a, c₁, h₁, hF₁, hQ⟩ := hm F c hF hP
  obtain ⟨b, c₂, h₂, hF₂, hR⟩ := hf a F c₁ hF₁ hQ
  exact ⟨b, c₂, by rw [bind_def, h₁]; exact h₂, hF₂, hR⟩

/-- A loop whose body keeps `P` succeeds and keeps `P`. -/
theorem total_forEach {body : α → Db σ ε Unit} :
    ∀ {xs : List α}, (∀ x ∈ xs, Total P (body x) fun _ => P) →
      Total P (forEach xs body) fun _ => P
  | [], _ => total_pure fun _ h => h
  | x :: _, hbody =>
    total_bind (hbody x (List.mem_cons_self ..)) fun _ =>
      total_forEach fun y hy => hbody y (List.mem_cons_of_mem _ hy)

/-- A loop whose rounds keep the condition ends. -/
theorem total_mapEach {body : α → Db σ ε β} :
    ∀ {xs : List α}, (∀ x ∈ xs, Total P (body x) fun _ => P) →
      Total P (mapEach xs body) fun _ => P
  | [], _ => total_pure fun _ h => h
  | x :: _, hbody =>
    total_bind (hbody x (List.mem_cons_self ..)) fun _ =>
      total_bind (total_mapEach fun y hy => hbody y (List.mem_cons_of_mem _ hy)) fun _ =>
        total_pure fun _ h => h

/-- So does a transaction around what ends. -/
theorem total_tx {body : Db σ ε α} (hbody : Total P body Q) : Total P (tx body) Q := by
  intro F c hF hP
  obtain ⟨a, c₁, h₁, hF₁, hQ⟩ := hbody F { c with calls := c.calls + 1 } (hF.next _) hP
  refine ⟨a, ⟨c₁.store, c₁.calls + 1⟩, ?_, hF₁.next _, hQ⟩
  simp [tx, hF c.calls (Nat.le_refl _), h₁, hF₁ c₁.calls (Nat.le_refl _)]

/-- A total program has a successful run without faults. -/
theorem Total.run {m : Db σ ε α} (h : Total P m Q) {s : σ} (hP : P s) :
    ∃ a s', m.run s = (.ok a, s') ∧ Q a s' := by
  obtain ⟨a, c', hm, -, hQ⟩ := h noFaults ⟨s, 0⟩ (fun _ _ => rfl) hP
  exact ⟨a, c'.store, by simp [Db.run, hm], hQ⟩

end Total

end Db

end ReleaseRadar.Lib
