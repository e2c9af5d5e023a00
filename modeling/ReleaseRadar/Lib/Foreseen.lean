import ReleaseRadar.Lib.Db

/-!
# Programs whose failure can be told in advance

When no call fails on its own, a program over a store fails only because the store refuses
a statement. `Foreseen P m e Q` says which refusal that is: from a store in `P` the program
ends in the error `e`, or, when `e` is `none`, succeeds and ends in `Q` (`Total`). The
refusals of the parts are put together in the order in which the parts run: the first one
counts, so a sequence has `Option.or` of its parts, a loop the first of its rounds.
-/

namespace ReleaseRadar.Lib.Db

variable {σ ε α β : Type} {P : σ → Prop} {Q : α → σ → Prop} {e : Option ε}

/-- From a store in `P`, with no fault ahead, `m` ends in `e`, or without one in `Q`. -/
def Foreseen (P : σ → Prop) (m : Db σ ε α) (e : Option ε) (Q : α → σ → Prop) : Prop :=
  match e with
  | none => Total P m Q
  | some e => ∀ F c, Clean F c → P c.store → ∃ c', m F c = (.error e, c')

/-- What a call on the store gives. -/
def Answers (r : Except ε (α × σ)) (e : Option ε) (Q : α → σ → Prop) : Prop :=
  match e with
  | none => ∃ a s, r = .ok (a, s) ∧ Q a s
  | some e => r = .error e

theorem foreseen_call {f : σ → Except ε (α × σ)} (hf : ∀ s, P s → Answers (f s) e Q) :
    Foreseen P (call f) e Q := by
  cases e with
  | none => exact total_call hf
  | some e =>
    intro F c hF hP
    have herr : f c.store = .error e := hf c.store hP
    refine ⟨{ c with calls := c.calls + 1 }, ?_⟩
    simp only [call, hF c.calls (Nat.le_refl _), herr]

/-- The first error of the two. -/
theorem foreseen_bind {m : Db σ ε α} {f : α → Db σ ε β} {e' : Option ε} {R : β → σ → Prop}
    (hm : Foreseen P m e Q) (hf : e = none → ∀ a, Foreseen (Q a) (f a) e' R) :
    Foreseen P (m >>= f) (e.or e') R := by
  cases e with
  | some e =>
    intro F c hF hP
    obtain ⟨c₁, h₁⟩ := hm F c hF hP
    exact ⟨c₁, by rw [bind_def, h₁]⟩
  | none =>
    have hf := hf rfl
    cases e' with
    | none => exact total_bind hm hf
    | some e =>
      intro F c hF hP
      obtain ⟨a, c₁, h₁, hF₁, hQ⟩ := hm F c hF hP
      obtain ⟨c₂, h₂⟩ := hf a F c₁ hF₁ hQ
      exact ⟨c₂, by rw [bind_def, h₁]; exact h₂⟩

/-- What cannot fail does not change what is foreseen. -/
theorem Foreseen.andThen {m : Db σ ε α} {f : α → Db σ ε β} {R : β → σ → Prop}
    (hm : Foreseen P m e Q)
    (hf : e = none → ∀ a, Total (Q a) (f a) R) : Foreseen P (m >>= f) e R := by
  rw [← Option.or_none (o := e)]
  exact foreseen_bind hm hf

/-- The first error of the rounds. -/
theorem foreseen_forEach {body : α → Db σ ε Unit} {g : α → Option ε} :
    ∀ {xs : List α}, (∀ x ∈ xs, Foreseen P (body x) (g x) fun _ => P) →
      Foreseen P (forEach xs body) (xs.findSome? g) fun _ => P
  | [], _ => total_pure fun _ h => h
  | x :: xs, hbody => by
    have hrest : Foreseen P (forEach xs body) (xs.findSome? g) fun _ => P :=
      foreseen_forEach fun y hy => hbody y (List.mem_cons_of_mem _ hy)
    have h := foreseen_bind (hbody x (List.mem_cons_self ..)) fun _ _ => hrest
    rw [List.findSome?_cons]
    cases hx : g x with
    | none =>
      rw [hx] at h
      exact h
    | some e =>
      rw [hx] at h
      exact h

theorem foreseen_tx {body : Db σ ε α} (hbody : Foreseen P body e Q) : Foreseen P (tx body) e Q := by
  cases e with
  | none => exact total_tx hbody
  | some e =>
    intro F c hF hP
    obtain ⟨c₁, h₁⟩ := hbody F { c with calls := c.calls + 1 } (hF.next _) hP
    refine ⟨⟨c.store, c₁.calls⟩, ?_⟩
    simp only [tx, hF c.calls (Nat.le_refl _), h₁]

/-- A fact that is known of the state and does not depend on it. -/
theorem foreseen_assume {p : Prop} {m : Db σ ε α} (h : p → Foreseen P m e Q) :
    Foreseen (fun s => P s ∧ p) m e Q := by
  cases e with
  | none => exact fun F c hF hP => h hP.2 F c hF hP.1
  | some e => exact fun F c hF hP => h hP.2 F c hF hP.1

/-- Less is said about how it ends. -/
theorem Foreseen.weaken {m : Db σ ε α} {R : α → σ → Prop} (hm : Foreseen P m e Q)
    (h : ∀ a s, Q a s → R a s) : Foreseen P m e R := by
  cases e with
  | some e => exact hm
  | none =>
    intro F c hF hP
    obtain ⟨a, c₁, h₁, hF₁, hQ⟩ := hm F c hF hP
    exact ⟨a, c₁, h₁, hF₁, h a _ hQ⟩

end ReleaseRadar.Lib.Db
