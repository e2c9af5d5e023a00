import Mathlib.Order.Monotone.Basic
import ReleaseRadar.Lib.Db

/-!
# Programs that only read

A `Reading` is a program whose calls all are queries, with its calls laid open: what it asks,
and how it goes on with the answer. `toDb` is the same program over a connection. `result` is
what it returns when every call finds a store of its own, which is how it runs while others
write and it does not read in a transaction.

* `toDb_eq` — run alone, every call finds the same store;
* `result_row`, `result_query` — the inversion of a run that returns, one call at a time;
* `replay` — the same run call by call; `replay_now`: where every call has found the same store
  and none has failed, it returns what the program returns there;
* `Interleaving` — the commits of the others in their order, and how many of them each call
  finds; `between_induction` is the rule for what the commits between two calls leave alone.
-/

namespace ReleaseRadar.Lib

/-- A program that asks a store `σ`: `row` for one value, `query` for rows. -/
inductive Reading (σ ε α : Type) : Type 1
  | done (a : α)
  | throw (e : ε)
  | row {β : Type} (f : σ → Except ε β) (k : β → Reading σ ε α)
  | query {ρ : Type} (f : σ → Except ε (List ρ)) (k : Rows ρ ε → Reading σ ε α)

namespace Reading

variable {σ ε α β ρ : Type}

protected def bind : Reading σ ε α → (α → Reading σ ε β) → Reading σ ε β
  | done a, g => g a
  | throw e, _ => .throw e
  | row f k, g => .row f fun b => (k b).bind g
  | query f k, g => .query f fun rows => (k rows).bind g

instance : Monad (Reading σ ε) where
  pure := .done
  bind := Reading.bind

/-- The rows, for a caller that checks `rows.Err()`. -/
def checked (rows : Rows ρ ε) : Reading σ ε (List ρ) :=
  match rows.err with
  | none => .done rows.seen
  | some e => .throw e

/-- The program over a connection. -/
def toDb : Reading σ ε α → Db σ ε α
  | done a => pure a
  | throw e => Db.throw e
  | row f k => (Db.call fun s => (f s).map fun b => (b, s)) >>= fun b => (k b).toDb
  | query f k => Db.query f >>= fun rows => (k rows).toDb

/-- What the program returns when its calls, from the `n`-th on, find the stores `store`. -/
def result (F : Faults ε) (store : Nat → σ) : Reading σ ε α → Nat → Except ε α
  | done a, _ => .ok a
  | throw e, _ => .error e
  | row f k, n =>
    match F n with
    | some x => .error x.err
    | none =>
      match f (store n) with
      | .error e => .error e
      | .ok b => (k b).result F store (n + 1)
  | query f k, n =>
    match F n with
    | some (.fail e) => .error e
    | some (.cut i e) =>
      match f (store n) with
      | .error e' => .error e'
      | .ok rows => (k ⟨rows.take i, some e⟩).result F store (n + 1)
    | none =>
      match f (store n) with
      | .error e => .error e
      | .ok rows => (k ⟨rows, none⟩).result F store (n + 1)

variable {F : Faults ε} {store : Nat → σ}

/-- Run alone, the program finds the same store at every call and leaves it alone. -/
theorem toDb_eq (m : Reading σ ε α) (c : Conn σ) :
    (m.toDb F c).1 = m.result F (fun _ => c.store) c.calls ∧ (m.toDb F c).2.store = c.store := by
  induction m generalizing c with
  | done a => exact ⟨rfl, rfl⟩
  | throw e => exact ⟨rfl, rfl⟩
  | row f k ih =>
    rw [toDb, result, Db.bind_def, Db.call]
    cases F c.calls with
    | some x => exact ⟨rfl, rfl⟩
    | none =>
      cases f c.store with
      | error e => exact ⟨rfl, rfl⟩
      | ok b => exact ih b ⟨c.store, c.calls + 1⟩
  | query f k ih =>
    rw [toDb, result, Db.bind_def, Db.query]
    cases F c.calls with
    | some x =>
      cases x with
      | fail e => exact ⟨rfl, rfl⟩
      | cut i e =>
        cases f c.store with
        | error e' => exact ⟨rfl, rfl⟩
        | ok rows => exact ih ⟨rows.take i, some e⟩ ⟨c.store, c.calls + 1⟩
    | none =>
      cases f c.store with
      | error e => exact ⟨rfl, rfl⟩
      | ok rows => exact ih ⟨rows, none⟩ ⟨c.store, c.calls + 1⟩

private theorem bind_done (m : Db σ ε α) : (m >>= fun a => (done a : Reading σ ε α).toDb) = m := by
  funext F c
  rw [Db.bind_def]
  match m F c with
  | (.ok a, c') => rfl
  | (.error e, c') => rfl

theorem toDb_row (f : σ → Except ε β) :
    (row f done).toDb = Db.call fun s => (f s).map fun b => (b, s) := bind_done _

theorem toDb_query (f : σ → Except ε (List ρ)) : (query f done).toDb = Db.query f := bind_done _

theorem toDb_bind (m : Reading σ ε α) (g : α → Reading σ ε β) :
    (m >>= g).toDb = m.toDb >>= fun a => (g a).toDb := by
  induction m with
  | done a => rfl
  | throw e => rfl
  | row f k ih =>
    show (_ >>= fun b => (k b >>= g).toDb) = _
    rw [toDb, Db.bind_assoc]
    exact congrArg _ (funext fun b => ih b)
  | query f k ih =>
    show (_ >>= fun rows => (k rows >>= g).toDb) = _
    rw [toDb, Db.bind_assoc]
    exact congrArg _ (funext fun rows => ih rows)

theorem toDb_checked (rows : Rows ρ ε) :
    (checked rows : Reading σ ε (List ρ)).toDb = Db.checked rows := by
  obtain ⟨seen, err⟩ := rows
  cases err <;> rfl

/-- A query for one value went through. -/
theorem result_row {f : σ → Except ε β} {k : β → Reading σ ε α} {n : Nat} {a : α}
    (h : (row f k).result F store n = .ok a) :
    ∃ b, f (store n) = .ok b ∧ (k b).result F store (n + 1) = .ok a := by
  rw [result] at h
  split at h
  · cases h
  · split at h
    · cases h
    · next b hb => exact ⟨b, hb, h⟩

/-- A query for rows went through. Whoever has seen no error has seen them all. -/
theorem result_query {f : σ → Except ε (List ρ)} {k : Rows ρ ε → Reading σ ε α} {n : Nat} {a : α}
    (h : (query f k).result F store n = .ok a) :
    ∃ rows all, f (store n) = .ok all ∧ (rows.err = none → rows.seen = all) ∧
      ((∀ i e, F n ≠ some (.cut i e)) → rows.err = none) ∧
        (k rows).result F store (n + 1) = .ok a := by
  rw [result] at h
  split at h
  · cases h
  · next i e hF =>
    split at h
    · cases h
    · next all hall =>
      exact ⟨_, all, hall, fun herr => (by cases herr), fun hcut => absurd hF (hcut i e), h⟩
  · split at h
    · cases h
    · next all hall => exact ⟨_, all, hall, fun _ => rfl, fun _ => rfl, h⟩

/-! ### Call by call -/

/-- What the program has returned after these calls, each with the store it has found and how it
has failed, if it has; `none`: it is still asking. -/
def replay : Reading σ ε α → List (σ × Option (Fault ε)) → Option (Except ε α)
  | done a, _ => some (.ok a)
  | throw e, _ => some (.error e)
  | row _ _, [] => none
  | query _ _, [] => none
  | row f k, (s, x) :: calls =>
    match x with
    | some x => some (.error x.err)
    | none =>
      match f s with
      | .error e => some (.error e)
      | .ok b => (k b).replay calls
  | query f k, (s, x) :: calls =>
    match x with
    | some (.fail e) => some (.error e)
    | some (.cut i e) =>
      match f s with
      | .error e' => some (.error e')
      | .ok rows => (k ⟨rows.take i, some e⟩).replay calls
    | none =>
      match f s with
      | .error e => some (.error e)
      | .ok rows => (k ⟨rows, none⟩).replay calls

/-- What the program returns when every call finds the store `s` and none fails. -/
def now (s : σ) (m : Reading σ ε α) : Except ε α := m.result (fun _ => none) (fun _ => s) 0

private theorem result_replay {s : σ} {m : Reading σ ε α} {r : Except ε α} :
    ∀ {calls : List (σ × Option (Fault ε))} {n : Nat}, (∀ c ∈ calls, c = (s, none)) →
      m.replay calls = some r → m.result (fun _ => none) (fun _ => s) n = r := by
  induction m with
  | done a => exact fun _ hr => Option.some.inj hr
  | throw e => exact fun _ hr => Option.some.inj hr
  | row f k ih =>
    intro calls n hsame hr
    cases calls with
    | nil => cases hr
    | cons c calls =>
      obtain rfl := hsame c List.mem_cons_self
      rw [replay] at hr
      rw [result]
      cases hf : f s with
      | error e => rw [hf] at hr; exact Option.some.inj hr
      | ok b =>
        rw [hf] at hr
        exact ih b (fun c hc => hsame c (List.mem_cons_of_mem _ hc)) hr
  | query f k ih =>
    intro calls n hsame hr
    cases calls with
    | nil => cases hr
    | cons c calls =>
      obtain rfl := hsame c List.mem_cons_self
      rw [replay] at hr
      rw [result]
      cases hf : f s with
      | error e => rw [hf] at hr; exact Option.some.inj hr
      | ok rows =>
        rw [hf] at hr
        exact ih ⟨rows, none⟩ (fun c hc => hsame c (List.mem_cons_of_mem _ hc)) hr

/-- A program whose calls have all found `s`, and have not failed, returns what it returns
at `s`. -/
theorem replay_now {s : σ} {m : Reading σ ε α} {calls : List (σ × Option (Fault ε))}
    {r : Except ε α} (hsame : ∀ c ∈ calls, c = (s, none)) (hr : m.replay calls = some r) :
    m.now s = r := result_replay hsame hr

/-- The program over a connection where no call fails. -/
theorem toDb_now (m : Reading σ ε α) (s : σ) : (m.toDb (fun _ => none) ⟨s, 0⟩).1 = m.now s :=
  (m.toDb_eq ⟨s, 0⟩).1

/-- A loop whose body asks. -/
def mapEach {γ : Type} (xs : List α) (body : α → Reading σ ε γ) : Reading σ ε (List γ) :=
  match xs with
  | [] => .done []
  | x :: xs => (body x).bind fun y => (mapEach xs body).bind fun ys => .done (y :: ys)

theorem toDb_mapEach {γ : Type} {xs : List α} {body : α → Reading σ ε γ} :
    (mapEach xs body).toDb = Db.mapEach xs fun x => (body x).toDb := by
  induction xs with
  | nil => rfl
  | cons x xs ih =>
    show (body x >>= fun y => mapEach xs body >>= fun ys => done (y :: ys)).toDb = _
    rw [toDb_bind, Db.mapEach]
    refine congrArg (Db.bind _) (funext fun y => ?_)
    rw [toDb_bind, ih]
    rfl

end Reading

/-! ## Commits in between -/

/-- What others commit while a program reads: `seen n` of the commits are there at its `n`-th
call. -/
structure Interleaving (κ : Type) where
  commits : List κ
  seen : Nat → Nat
  mono : Monotone seen

namespace Interleaving

variable {κ σ : Type} (I : Interleaving κ) (apply : κ → σ → σ) (s : σ)

/-- The store after the first `j` commits. -/
def storeAfter (j : Nat) : σ := (I.commits.take j).foldl (fun s c => apply c s) s

/-- The store the `n`-th call finds. -/
def store (n : Nat) : σ := I.storeAfter apply s (I.seen n)

/-- What is committed between two calls. -/
def between (m n : Nat) : List κ := (I.commits.take (I.seen n)).drop (I.seen m)

variable {I apply s}

theorem foldl_induction {P : σ → Prop} {cs : List κ} (hstep : ∀ c ∈ cs, ∀ s, P s → P (apply c s)) :
    ∀ {s}, P s → P (cs.foldl (fun s c => apply c s) s) := by
  induction cs with
  | nil => exact fun h => h
  | cons c cs ih =>
    intro s h
    exact ih (fun c hc => hstep c (List.mem_cons_of_mem _ hc)) (hstep c List.mem_cons_self s h)

/-- What every commit preserves every call finds. -/
theorem store_induction {P : σ → Prop} (hstep : ∀ c s, P s → P (apply c s)) (h : P s) (n : Nat) :
    P (I.store apply s n) :=
  foldl_induction (fun c _ => hstep c) h

/-- What the commits between two calls preserve. -/
theorem between_induction {P : σ → Prop} {m n : Nat} (hmn : m ≤ n)
    (hstep : ∀ c ∈ I.between m n, ∀ s, P s → P (apply c s)) (h : P (I.store apply s m)) :
    P (I.store apply s n) := by
  have hsplit : I.commits.take (I.seen n) = I.commits.take (I.seen m) ++ I.between m n := by
    have hle : I.seen m ≤ I.seen n := I.mono hmn
    unfold between
    conv_lhs => rw [← List.take_append_drop (I.seen m) (I.commits.take (I.seen n))]
    rw [List.take_take, Nat.min_eq_left hle]
  unfold store storeAfter
  rw [hsplit, List.foldl_append]
  exact foldl_induction hstep h

/-- Up to an earlier call there are fewer of them. -/
theorem between_subset {m n n' : Nat} (h : n ≤ n') : I.between m n ⊆ I.between m n' := by
  have htake : I.commits.take (I.seen n) <+: I.commits.take (I.seen n') :=
    List.take_prefix_take_left (I.mono h)
  exact (htake.sublist.drop _).subset

end Interleaving

end ReleaseRadar.Lib
