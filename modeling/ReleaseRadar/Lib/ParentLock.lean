import Mathlib.Data.List.Basic
import Mathlib.Data.List.Find
import Mathlib.Logic.Function.Basic
import ReleaseRadar.Lib.Machine
import ReleaseRadar.Lib.ReadCommitted

/-!
# Transactions that lock their parent first

One parent row, the rows below it, and any number of transactions over both, each of which
writes the parent row before anything else. They run statement by statement under READ
COMMITTED, and each may be rolled back at any point.

* A statement takes its snapshot when it starts (`start`) and has its effect later
  (`finish`). What it waits for in between, another transaction that is under way, keeps it
  from finishing.
* An `UPDATE` of the parent waits for the writer of the row's newest version. It needs a
  version in its snapshot to find the row, but it is the newest one it builds on. An upsert
  finds the row by the unique index, snapshot or not.
* `DELETE` and `INSERT` below the parent are those of `ReadCommitted`, with a third outcome
  for a transaction, `aborted`, whose versions and deletions count for nothing.

`serializable`: what has been committed is what the committed transactions do one after the
other, in the order of their commits. A transaction that has run anything is the writer of
the newest version of the parent, so there is only one (`Inv.alone`); and its later statements
see whatever was committed before it took the row, however early the snapshot of its first
statement was.
-/

namespace ReleaseRadar.Lib.ParentLock

open ReadCommitted (Version)

/-- A statement on the parent row or on the rows below it. -/
inductive Stmt (π ρ : Type)
  /-- `UPDATE parent SET ... WHERE id = $1`; it is an error if there is no row. -/
  | update (f : π → π)
  /-- `INSERT INTO parent ... ON CONFLICT (id) DO UPDATE SET ...`. -/
  | upsert (new : π) (f : π → π)
  /-- `DELETE FROM child WHERE p`. -/
  | delete (p : ρ → Bool)
  /-- `INSERT INTO child`, with `ON CONFLICT DO NOTHING` if `skip`. -/
  | insert (r : ρ) (skip : Bool)

/-- Where a transaction is: the statements it is through with and those to come. `snap` is
what had committed when the statement that is running started. -/
inductive Phase (τ π ρ : Type)
  | ready (done rest : List (Stmt π ρ))
  | running (snap : List τ) (done : List (Stmt π ρ)) (st : Stmt π ρ) (rest : List (Stmt π ρ))
  | ended

/-- The versions of the parent row, the newest first and each with its writer (`none`: before
the run), those of the rows below it, and the transactions. -/
structure State (τ π ρ : Type) where
  parent : List (π × Option τ)
  children : List (Version τ ρ)
  committed : List τ
  aborted : List τ
  phase : τ → Phase τ π ρ

inductive Action (τ : Type)
  | start (t : τ)
  | finish (t : τ)
  | commit (t : τ)
  | rollback (t : τ)
deriving DecidableEq, Repr

section Model

variable {τ π ρ κ : Type}

def Stmt.isLock : Stmt π ρ → Bool
  | update _ | upsert _ _ => true
  | delete _ | insert _ _ => false

def Phase.done : Phase τ π ρ → List (Stmt π ρ)
  | ready done _ | running _ done _ _ => done
  | ended => []

/-- All the statements of a transaction that is not over. -/
def Phase.program : Phase τ π ρ → Option (List (Stmt π ρ))
  | ready done rest => some (done ++ rest)
  | running _ done st rest => some (done ++ st :: rest)
  | ended => none

variable [DecidableEq τ] [DecidableEq κ] (key : ρ → κ)

/-- `INSERT` under a unique index on `key`. -/
def addRow (rows : List ρ) (r : ρ) : List ρ :=
  if ∃ r' ∈ rows, key r' = key r then rows else rows ++ [r]

/-- What a statement does to the rows on its own. -/
def Stmt.run : Stmt π ρ → Option π × List ρ → Option π × List ρ
  | update f, d => (d.1.map f, d.2)
  | upsert new f, d => (some (d.1.elim new f), d.2)
  | delete p, d => (d.1, d.2.filter fun r => !p r)
  | insert r _, d => (d.1, addRow key d.2 r)

def runAll (program : List (Stmt π ρ)) (d : Option π × List ρ) : Option π × List ρ :=
  program.foldl (fun d st => st.run key d) d

/-- A `DELETE` and the `INSERT`s that follow it. -/
def refill (p : ρ → Bool) (new : List ρ) (skip : Bool) : List (Stmt π ρ) :=
  .delete p :: new.map fun r => .insert r skip

/-- The parent row as a snapshot shows it: the newest version of a writer in `S`. -/
def parentAt (S : List τ) (versions : List (π × Option τ)) : Option π :=
  (versions.find? fun v => decide (∀ u ∈ v.2, u ∈ S)).map (·.1)

/-- The rows below it. -/
def childrenAt (S : List τ) (versions : List (Version τ ρ)) : List ρ :=
  (versions.filter fun v => decide (v.visible S)).map (·.row)

namespace State

variable (s : State τ π ρ)

/-- What a snapshot shows. -/
def view (S : List τ) : Option π × List ρ := (parentAt S s.parent, childrenAt S s.children)

/-- `u` is under way, and it is another one. -/
def Open (t u : τ) : Prop := u ≠ t ∧ u ∉ s.committed ∧ u ∉ s.aborted

instance (t u : τ) : Decidable (s.Open t u) := inferInstanceAs (Decidable (_ ∧ _ ∧ _))

/-- The newest version of the parent that counts. -/
def tip : Option (π × Option τ) := s.parent.find? fun v => decide (∀ u ∈ v.2, u ∉ s.aborted)

/-- A writer puts its version on the newest one, once that is settled. -/
def writeParent (t : τ) (found : Bool) (new : Option π) (f : π → π) : Option (State τ π ρ) :=
  match s.tip with
  | some (x, writer) =>
    if ∃ u ∈ writer, s.Open t u then none
    else if found then some { s with parent := (f x, some t) :: s.parent }
    else none
  | none => new.map fun x => { s with parent := (x, some t) :: s.parent }

def deleteVersion (t : τ) (snap : List τ) (p : ρ → Bool) (v : Version τ ρ) : Version τ ρ :=
  if v.visible (t :: snap) ∧ p v.row ∧ ∀ u ∈ v.xmax, u ∈ s.aborted then { v with xmax := some t }
  else v

def deleteChildren (t : τ) (snap : List τ) (p : ρ → Bool) : Option (State τ π ρ) :=
  if ∃ v ∈ s.children, v.visible (t :: snap) ∧ p v.row ∧ ∃ u ∈ v.xmax, s.Open t u then none
  else some { s with children := s.children.map (s.deleteVersion t snap p) }

/-- Certainly there, as far as `t` can tell. -/
def Live (t : τ) (v : Version τ ρ) : Prop :=
  (∀ u ∈ v.xmin, u ∈ t :: s.committed) ∧ ∀ u ∈ v.xmax, u ∈ s.aborted

/-- Certainly gone. -/
def Dead (t : τ) (v : Version τ ρ) : Prop :=
  (∃ u ∈ v.xmin, u ∈ s.aborted) ∨ ∃ u ∈ v.xmax, u ∈ t :: s.committed

instance (t : τ) (v : Version τ ρ) : Decidable (s.Live t v) :=
  inferInstanceAs (Decidable (_ ∧ _))

instance (t : τ) (v : Version τ ρ) : Decidable (s.Dead t v) :=
  inferInstanceAs (Decidable ((∃ u ∈ v.xmin, u ∈ s.aborted) ∨ ∃ u ∈ v.xmax, u ∈ t :: s.committed))

/-- The unique index knows every version: a live one is a conflict, and one that may turn out
to be live is waited for. -/
def insertChild (t : τ) (r : ρ) (skip : Bool) : Option (State τ π ρ) :=
  if ∃ v ∈ s.children, key v.row = key r ∧ s.Live t v then if skip then some s else none
  else if ∃ v ∈ s.children, key v.row = key r ∧ ¬s.Dead t v then none
  else some { s with children := s.children ++ [⟨r, some t, none⟩] }

/-- The effect of a statement of `t` that started on `snap`. -/
def execute (t : τ) (snap : List τ) : Stmt π ρ → Option (State τ π ρ)
  | .update f => s.writeParent t (parentAt (t :: snap) s.parent).isSome none f
  | .upsert new f => s.writeParent t true (some new) f
  | .delete p => s.deleteChildren t snap p
  | .insert r skip => s.insertChild key t r skip

def enter (t : τ) (ph : Phase τ π ρ) : State τ π ρ :=
  { s with phase := Function.update s.phase t ph }

end State

def step (s : State τ π ρ) : Action τ → Option (State τ π ρ)
  | .start t =>
    match s.phase t with
    | .ready done (st :: rest) => some (s.enter t (.running s.committed done st rest))
    | _ => none
  | .finish t =>
    match s.phase t with
    | .running snap done st rest =>
      (s.execute key t snap st).map fun s' => s'.enter t (.ready (done ++ [st]) rest)
    | _ => none
  | .commit t =>
    match s.phase t with
    | .ready _ [] => some { s.enter t .ended with committed := t :: s.committed }
    | _ => none
  | .rollback t =>
    match s.phase t with
    | .ended => none
    | _ => some { s.enter t .ended with aborted := t :: s.aborted }

/-- The transactions over the rows. -/
def transactions : Machine (State τ π ρ) (Action τ) := ⟨step key⟩

/-- All of them are still to come. -/
def before (d : Option π × List ρ) (program : τ → List (Stmt π ρ)) : State τ π ρ :=
  ⟨d.1.toList.map fun x => (x, none), d.2.map fun r => ⟨r, none, none⟩, [], [],
    fun t => .ready [] (program t)⟩

/-- One after the other, the last one at the head of the list. -/
def serial (d : Option π × List ρ) (program : τ → List (Stmt π ρ)) : List τ → Option π × List ρ
  | [] => d
  | t :: ts => runAll key (program t) (serial d program ts)

end Model

/-! ## Tables

The rows below the parent may be those of several tables. `get` picks the rows of one. -/

section Tables

variable {π ρ α κ ν : Type} [DecidableEq κ] [DecidableEq ν] {key : ρ → κ} {get : ρ → Option α}
  {p : ρ → Bool} {d : Option π × List ρ}

/-- Statements one after the other. -/
theorem runAll_append (xs ys : List (Stmt π ρ)) :
    runAll key (xs ++ ys) d = runAll key ys (runAll key xs d) := List.foldl_append

/-- A row with a new key is appended. -/
theorem addRow_of_fresh {rows : List ρ} {r : ρ} (h : ∀ r' ∈ rows, key r' ≠ key r) :
    addRow key rows r = rows ++ [r] := by
  unfold addRow
  rw [if_neg]
  rintro ⟨r', hr', hkey⟩
  exact h r' hr' hkey

/-- Rows with keys of their own are appended, one after the other. -/
theorem foldl_addRow {rows new : List ρ} (hfresh : ∀ r ∈ new, ∀ r' ∈ rows, key r' ≠ key r)
    (hnew : (new.map key).Nodup) : new.foldl (addRow key) rows = rows ++ new := by
  induction new generalizing rows with
  | nil => exact (List.append_nil rows).symm
  | cons r new ih =>
    obtain ⟨hr, hnew⟩ := List.nodup_cons.mp hnew
    rw [List.foldl_cons, addRow_of_fresh (hfresh r List.mem_cons_self), ih, List.append_assoc]
    · rfl
    · intro x hx r' hr'
      rcases List.mem_append.mp hr' with hr' | hr'
      · exact hfresh x (List.mem_cons_of_mem _ hx) r' hr'
      · obtain rfl := List.mem_singleton.mp hr'
        intro hkey
        exact hr (hkey ▸ List.mem_map_of_mem hx)
    · exact hnew

/-- What is inserted, without the rest. -/
theorem runAll_refill (p : ρ → Bool) (new : List ρ) (skip : Bool) (d : Option π × List ρ) :
    runAll key (refill p new skip) d =
      (d.1, new.foldl (addRow key) (d.2.filter fun r => !p r)) := by
  have hinserts : ∀ (new : List ρ) (d : Option π × List ρ),
      runAll key (new.map fun r => .insert r skip) d = (d.1, new.foldl (addRow key) d.2) := by
    intro new
    induction new with
    | nil => exact fun d => rfl
    | cons r new ih => exact fun d => ih _
  exact hinserts new _

/-- An insert into the table. -/
theorem filterMap_addRow {rows : List ρ} {r : ρ} {k : α → ν} {a : α} (hget : get r = some a)
    (hkey : ∀ x, key x = key r ↔ ∃ b, get x = some b ∧ k b = k a) :
    (addRow key rows r).filterMap get = addRow k (rows.filterMap get) a := by
  have hsame : (∃ b ∈ rows.filterMap get, k b = k a) ↔ ∃ x ∈ rows, key x = key r := by
    constructor
    · rintro ⟨b, hb, hk⟩
      obtain ⟨x, hx, hxb⟩ := List.mem_filterMap.mp hb
      exact ⟨x, hx, (hkey x).mpr ⟨b, hxb, hk⟩⟩
    · rintro ⟨x, hx, hk⟩
      obtain ⟨b, hb, hk⟩ := (hkey x).mp hk
      exact ⟨b, List.mem_filterMap.mpr ⟨x, hx, hb⟩, hk⟩
  unfold addRow
  by_cases h : ∃ x ∈ rows, key x = key r
  · rw [if_pos h, if_pos (hsame.mpr h)]
  · rw [if_neg h, if_neg fun hb => h (hsame.mp hb), List.filterMap_append,
      List.filterMap_cons_some hget, List.filterMap_nil]

/-- A delete in the table. -/
theorem filterMap_delete {q : α → Bool} (h : ∀ x, p x = (get x).any q) (rows : List ρ) :
    (rows.filter fun x => !p x).filterMap get = (rows.filterMap get).filter fun a => !q a := by
  rw [List.filterMap_filter, List.filter_filterMap]
  refine List.filterMap_congr fun x _ => ?_
  rw [h x]
  cases hx : get x with
  | none => simp
  | some a => cases hq : q a <;> simp [Option.filter, hq]

/-- The table is refilled. -/
theorem filterMap_refill (get : ρ → Option α) {q : α → Bool} {mk : α → ρ} {k : α → ν} {new : List α}
    (skip : Bool)
    (hdelete : ∀ x, p x = (get x).any q) (hget : ∀ a, get (mk a) = some a)
    (hkey : ∀ x a, key x = key (mk a) ↔ ∃ b, get x = some b ∧ k b = k a) :
    (runAll key (refill p (new.map mk) skip) d).2.filterMap get =
      new.foldl (addRow k) ((d.2.filterMap get).filter fun a => !q a) := by
  have hinserts : ∀ (new : List α) (rows : List ρ),
      ((new.map mk).foldl (addRow key) rows).filterMap get =
        new.foldl (addRow k) (rows.filterMap get) := by
    intro new
    induction new with
    | nil => exact fun rows => rfl
    | cons a new ih =>
      intro rows
      rw [List.map_cons, List.foldl_cons, ih, filterMap_addRow (hget a) fun x => hkey x a]
      rfl
  rw [runAll_refill]
  show List.filterMap get ((new.map mk).foldl (addRow key) _) = _
  rw [hinserts, filterMap_delete hdelete]

/-- Another table is refilled. -/
theorem filterMap_refill_other {β : Type} {get' : ρ → Option β} {q : β → Bool} {mk : β → ρ}
    {new : List β} (skip : Bool) (hdelete : ∀ x, p x = (get' x).any q)
    (hmk : ∀ x b, get' x = some b → x = mk b) (hother : ∀ b, get (mk b) = none) :
    (runAll key (refill p (new.map mk) skip) d).2.filterMap get = d.2.filterMap get := by
  have hinserts : ∀ rows : List ρ, ((new.map mk).foldl (addRow key) rows).filterMap get =
      rows.filterMap get := by
    induction new with
    | nil => exact fun rows => rfl
    | cons b new ih =>
      intro rows
      rw [List.map_cons, List.foldl_cons, ih]
      unfold addRow
      split
      · rfl
      · rw [List.filterMap_append, List.filterMap_cons_none (hother b), List.filterMap_nil,
          List.append_nil]
  rw [runAll_refill]
  show List.filterMap get ((new.map mk).foldl (addRow key) _) = _
  rw [hinserts, List.filterMap_filter]
  refine List.filterMap_congr fun x _ => ?_
  rw [hdelete x]
  cases hx : get' x with
  | none => rfl
  | some b =>
    -- a row of the one table is none of the other
    obtain rfl := hmk x b hx
    rw [hother b]
    split <;> rfl

end Tables

/-! ## What a statement does -/

section Statements

variable {τ π ρ κ : Type} {key : ρ → κ} {s s' : State τ π ρ} {t : τ}

namespace State

/-- Every transaction that has left a mark is over, one way or the other, or is `t`. -/
structure Stamped (s : State τ π ρ) (t : τ) : Prop where
  parent : ∀ v ∈ s.parent, ∀ u ∈ v.2, u ∈ s.committed ∨ u ∈ s.aborted ∨ u = t
  xmin : ∀ v ∈ s.children, ∀ u ∈ v.xmin, u ∈ s.committed ∨ u ∈ s.aborted ∨ u = t
  xmax : ∀ v ∈ s.children, ∀ u ∈ v.xmax, u ∈ s.committed ∨ u ∈ s.aborted ∨ u = t

/-- `t` is under way, and nobody both commits and aborts. -/
structure Running (s : State τ π ρ) (t : τ) : Prop where
  disjoint : ∀ u ∈ s.committed, u ∉ s.aborted
  committed : t ∉ s.committed
  aborted : t ∉ s.aborted

/-- What a running transaction sees has not been rolled back. -/
theorem Running.not_aborted (h : s.Running t) {u : τ} (hu : u ∈ t :: s.committed) :
    u ∉ s.aborted := by
  rcases List.mem_cons.mp hu with rfl | hu
  · exact h.aborted
  · exact h.disjoint u hu

/-- With marks of nobody else under way, what is not aborted is seen by `t`. -/
theorem Running.settled (hr : s.Running t) {u : τ}
    (h : u ∈ s.committed ∨ u ∈ s.aborted ∨ u = t) : u ∉ s.aborted ↔ u ∈ t :: s.committed := by
  constructor
  · intro hu
    rcases h with h | h | rfl
    · exact List.mem_cons_of_mem _ h
    · exact absurd h hu
    · exact List.mem_cons_self
  · exact hr.not_aborted

/-- Marking rows and adding own ones keeps the stamps. -/
theorem stamped_children (hst : s.Stamped t) {children : List (Version τ ρ)}
    (h : ∀ v ∈ children, (∃ w ∈ s.children, v.xmin = w.xmin ∧ (v.xmax = w.xmax ∨ v.xmax = some t)) ∨
      v.xmin = some t ∧ v.xmax = none) : { s with children := children }.Stamped t := by
  refine ⟨hst.parent, fun v hv u hu => ?_, fun v hv u hu => ?_⟩
  · rcases h v hv with ⟨w, hw, hmin, -⟩ | ⟨hmin, -⟩
    · exact hst.xmin w hw u (hmin ▸ hu)
    · rw [hmin] at hu
      exact Or.inr (Or.inr (Option.some.inj hu).symm)
  · rcases h v hv with ⟨w, hw, -, hmax | hmax⟩ | ⟨-, hmax⟩
    · exact hst.xmax w hw u (hmax ▸ hu)
    · rw [hmax] at hu
      exact Or.inr (Or.inr (Option.some.inj hu).symm)
    · rw [hmax] at hu
      cases hu

variable [DecidableEq τ] [DecidableEq κ]

/-- What a statement of `t` leaves alone, and what it makes of the rows `t` sees. -/
structure Ran (s s' : State τ π ρ) (t : τ)
    (run : Option π × List ρ → Option π × List ρ) : Prop where
  committed : s'.committed = s.committed
  aborted : s'.aborted = s.aborted
  phase : s'.phase = s.phase
  stamped : s'.Stamped t
  view : s'.view s.committed = s.view s.committed
  own : s'.view (t :: s.committed) = run (s.view (t :: s.committed))

/-- While it runs alone, the tip of the parent is what the transaction sees. -/
theorem tip_eq (hr : s.Running t) (hst : s.Stamped t) :
    s.tip.map (·.1) = parentAt (t :: s.committed) s.parent := by
  have hsame : ∀ v ∈ s.parent, decide (∀ u ∈ v.2, u ∉ s.aborted) =
      decide (∀ u ∈ v.2, u ∈ t :: s.committed) := by
    intro v hv
    rw [decide_eq_decide]
    exact forall₂_congr fun u hu => hr.settled (hst.parent v hv u hu)
  unfold tip parentAt
  rw [List.find?_congr hsame]

/-- A writer gets through when the newest version is settled, and puts its own on it. -/
theorem writeParent_some {found : Bool} {new : Option π} {f : π → π}
    (h : s.writeParent t found new f = some s') :
    (∀ x writer, s.tip = some (x, writer) → ∀ u ∈ writer, ¬s.Open t u) ∧
      ∃ x, s' = { s with parent := (x, some t) :: s.parent } ∧
        (s.tip.map (·.1)).elim new (fun y => some (f y)) = some x := by
  unfold writeParent at h
  cases htip : s.tip with
  | none =>
    rw [htip] at h
    obtain ⟨x, hx, rfl⟩ := Option.map_eq_some_iff.mp h
    exact ⟨nofun, x, rfl, hx⟩
  | some v =>
    obtain ⟨y, writer⟩ := v
    rw [htip] at h
    dsimp only at h
    split at h
    · cases h
    · next hopen =>
      split at h
      · cases h
        refine ⟨fun x w hv u hu ho => ?_, f y, rfl, rfl⟩
        obtain ⟨-, rfl⟩ := Prod.mk.inj (Option.some.inj hv)
        exact hopen ⟨u, hu, ho⟩
      · cases h

/-- A write of the parent is what the serial statement does. -/
theorem ran_writeParent (hr : s.Running t) (hst : s.Stamped t) {x : π}
    {run : Option π × List ρ → Option π × List ρ}
    (hrun : run (s.view (t :: s.committed)) = (some x, childrenAt (t :: s.committed) s.children)) :
    s.Ran { s with parent := (x, some t) :: s.parent } t run where
  committed := rfl
  aborted := rfl
  phase := rfl
  stamped := by
    refine ⟨fun v hv u hu => ?_, hst.xmin, hst.xmax⟩
    rcases List.mem_cons.mp hv with rfl | hv
    · exact Or.inr (Or.inr (Option.some.inj hu).symm)
    · exact hst.parent v hv u hu
  view := by
    have hskip : ¬∀ u ∈ (some t : Option τ), u ∈ s.committed := fun h => hr.committed (h t rfl)
    unfold view parentAt
    rw [List.find?_cons_of_neg (by simpa using hskip)]
  own := by
    rw [hrun]
    unfold view parentAt
    rw [List.find?_cons_of_pos (by simp)]
    rfl

/-- Marking a version leaves its row. -/
theorem deleteVersion_row (snap : List τ) (p : ρ → Bool) (v : Version τ ρ) :
    (s.deleteVersion t snap p v).row = v.row := by
  unfold deleteVersion
  split <;> rfl

/-- To everyone else a version that `t` deletes is still there. -/
theorem visible_deleteVersion (hr : s.Running t) {snap : List τ} {p : ρ → Bool}
    {v : Version τ ρ} :
    (s.deleteVersion t snap p v).visible s.committed ↔ v.visible s.committed := by
  unfold deleteVersion
  split
  · next h =>
    -- who deleted it before, if anybody, has aborted
    have hbefore : ∀ u ∈ v.xmax, u ∉ s.committed := fun u hu hc => hr.disjoint u hc (h.2.2 u hu)
    have hafter : ∀ u ∈ (some t : Option τ), u ∉ s.committed := by
      intro u hu
      obtain rfl := Option.some.inj hu
      exact hr.committed
    exact ⟨fun hv => ⟨hv.1, hbefore⟩, fun hv => ⟨hv.1, hafter⟩⟩
  · rfl

/-- To `t` itself a version that it deletes is gone. -/
theorem own_deleteVersion (hr : s.Running t) {p : ρ → Bool} {v : Version τ ρ}
    (hxmax : ∀ u ∈ v.xmax, u ∈ s.committed ∨ u ∈ s.aborted ∨ u = t) :
    (s.deleteVersion t s.committed p v).visible (t :: s.committed) ↔
      v.visible (t :: s.committed) ∧ p v.row = false := by
  unfold deleteVersion
  split
  · next h =>
    refine iff_of_false (fun hv => hv.2 t rfl List.mem_cons_self) fun hv => ?_
    rw [h.2.1] at hv
    cases hv.2
  · next h =>
    constructor
    · intro hv
      refine ⟨hv, ?_⟩
      by_contra hp
      refine h ⟨hv, by simpa using hp, fun u hu => ?_⟩
      -- `t` sees it, so whoever deleted it has aborted
      by_contra hna
      exact hv.2 u hu ((hr.settled (hxmax u hu)).mp hna)
    · exact fun hv => hv.1

/-- Marking versions leaves the rows that stay visible. -/
theorem childrenAt_map {S : List τ} {g : Version τ ρ → Version τ ρ} (hrow : ∀ v, (g v).row = v.row)
    (versions : List (Version τ ρ)) : childrenAt S (versions.map g) =
      (versions.filter fun v => decide ((g v).visible S)).map (·.row) := by
  unfold childrenAt
  rw [List.filter_map, List.map_map]
  exact List.map_congr_left fun v _ => hrow v

/-- A delete of children is what the serial statement does. -/
theorem ran_deleteChildren (hr : s.Running t) (hst : s.Stamped t) {p : ρ → Bool}
    (h : s.deleteChildren t s.committed p = some s') :
    s.Ran s' t (Stmt.run key (.delete p)) := by
  unfold deleteChildren at h
  split at h
  · cases h
  · obtain rfl := Option.some.inj h
    refine ⟨rfl, rfl, rfl, stamped_children hst fun v hv => ?_, ?_, ?_⟩
    · obtain ⟨w, hw, rfl⟩ := List.mem_map.mp hv
      refine Or.inl ⟨w, hw, ?_⟩
      unfold deleteVersion
      split
      · exact ⟨rfl, Or.inr rfl⟩
      · exact ⟨rfl, Or.inl rfl⟩
    · unfold view
      rw [childrenAt_map (deleteVersion_row _ _)]
      unfold childrenAt
      congr 2
      exact List.filter_congr fun v _ => decide_eq_decide.mpr (visible_deleteVersion hr)
    · show (_, childrenAt _ _) = (_, (childrenAt _ _).filter _)
      rw [childrenAt_map (deleteVersion_row _ _)]
      unfold childrenAt
      rw [List.filter_map, List.filter_filter]
      refine congrArg _ (congrArg _ (List.filter_congr fun v hv => ?_))
      have hown := own_deleteVersion hr (p := p) (hst.xmax v hv)
      simp [hown, Bool.and_comm]

/-- So is an insert. -/
theorem ran_insertChild (hr : s.Running t) (hst : s.Stamped t) {r : ρ} {skip : Bool}
    (h : s.insertChild key t r skip = some s') :
    s.Ran s' t (Stmt.run key (.insert r skip)) := by
  unfold insertChild at h
  split at h
  · next hlive =>
    obtain ⟨v, hv, hkey, hmin, hmax⟩ := hlive
    split at h
    · obtain rfl := Option.some.inj h
      refine ⟨rfl, rfl, rfl, hst, rfl, ?_⟩
      have hseen : ∃ r' ∈ (s.view (t :: s.committed)).2, key r' = key r := by
        refine ⟨v.row, List.mem_map.mpr ⟨v, List.mem_filter.mpr ⟨hv, ?_⟩, rfl⟩, hkey⟩
        exact decide_eq_true ⟨hmin, fun u hu hs => hr.not_aborted hs (hmax u hu)⟩
      rw [Stmt.run, addRow, if_pos hseen]
    · cases h
  · next hlive =>
    split at h
    · cases h
    · next hdead =>
      obtain rfl := Option.some.inj h
      refine ⟨rfl, rfl, rfl, stamped_children hst fun v hv => ?_, ?_, ?_⟩
      · rcases List.mem_append.mp hv with hv | hv
        · exact Or.inl ⟨v, hv, rfl, Or.inl rfl⟩
        · obtain rfl := List.mem_singleton.mp hv
          exact Or.inr ⟨rfl, rfl⟩
      · have hnew : ¬(⟨r, some t, none⟩ : Version τ ρ).visible s.committed :=
          fun hv => hr.committed (hv.1 t rfl)
        unfold view childrenAt
        rw [List.filter_append, List.filter_cons_of_neg (by simpa using hnew), List.filter_nil,
          List.append_nil]
      · have hfree : ¬∃ r' ∈ (s.view (t :: s.committed)).2, key r' = key r := by
          rintro ⟨r', hr', hkey⟩
          obtain ⟨v, hv, rfl⟩ := List.mem_map.mp hr'
          obtain ⟨hv, hvis⟩ := List.mem_filter.mp hv
          have hvis : v.visible (t :: s.committed) := of_decide_eq_true hvis
          refine hdead ⟨v, hv, hkey, ?_⟩
          rintro (⟨u, hu, ha⟩ | ⟨u, hu, hc⟩)
          · exact hr.not_aborted (hvis.1 u hu) ha
          · exact hvis.2 u hu hc
        have hnew : (⟨r, some t, none⟩ : Version τ ρ).visible (t :: s.committed) := by
          refine ⟨fun u hu => ?_, nofun⟩
          obtain rfl := Option.some.inj hu
          exact List.mem_cons_self
        rw [Stmt.run, addRow, if_neg hfree]
        show (_, childrenAt _ _) = (_, childrenAt _ _ ++ [r])
        unfold childrenAt
        rw [List.filter_append, List.filter_cons_of_pos (by simpa using hnew), List.filter_nil,
          List.map_append]
        rfl

/-- **A statement of a transaction that is alone** does what it does on its own, to what its
transaction sees; nobody else sees any of it. Its snapshot may be old if it writes the
parent. -/
theorem ran_execute (hr : s.Running t) (hst : s.Stamped t) {snap : List τ} {st : Stmt π ρ}
    (hsnap : st.isLock = false → snap = s.committed) (h : s.execute key t snap st = some s') :
    s.Ran s' t (st.run key) := by
  cases st with
  | update f =>
    obtain ⟨-, x, rfl, hx⟩ := writeParent_some h
    refine ran_writeParent hr hst ?_
    show (Option.map f (parentAt _ _), childrenAt _ _) = _
    rw [← tip_eq hr hst]
    cases htip : s.tip.map (·.1) with
    | none =>
      rw [htip] at hx
      cases hx
    | some y =>
      rw [htip] at hx
      rw [← hx]
      rfl
  | upsert new f =>
    obtain ⟨-, x, rfl, hx⟩ := writeParent_some h
    refine ran_writeParent hr hst ?_
    show (some ((parentAt _ _).elim new f), childrenAt _ _) = _
    rw [← tip_eq hr hst, ← hx]
    cases s.tip.map (·.1) <;> rfl
  | delete p =>
    obtain rfl := hsnap rfl
    exact ran_deleteChildren hr hst h
  | insert r skip => exact ran_insertChild hr hst h

/-- A statement locks and writes the parent, or leaves it alone. -/
theorem execute_parent {snap : List τ} {st : Stmt π ρ} (h : s.execute key t snap st = some s') :
    (st.isLock = false ∧ s'.parent = s.parent) ∨
      (∀ x writer, s.tip = some (x, writer) → ∀ u ∈ writer, ¬s.Open t u) ∧
        ∃ x, s'.parent = (x, some t) :: s.parent := by
  cases st with
  | update f =>
    obtain ⟨hsettled, x, rfl, -⟩ := writeParent_some h
    exact Or.inr ⟨hsettled, x, rfl⟩
  | upsert new f =>
    obtain ⟨hsettled, x, rfl, -⟩ := writeParent_some h
    exact Or.inr ⟨hsettled, x, rfl⟩
  | delete p =>
    refine Or.inl ⟨rfl, ?_⟩
    unfold execute deleteChildren at h
    dsimp only at h
    split at h
    · cases h
    · exact Option.some.inj h ▸ rfl
  | insert r skip =>
    refine Or.inl ⟨rfl, ?_⟩
    unfold execute insertChild at h
    dsimp only at h
    split at h
    · split at h
      · exact Option.some.inj h ▸ rfl
      · cases h
    · split at h
      · cases h
      · exact Option.some.inj h ▸ rfl

/-- Who has left no mark sees what everyone sees. -/
theorem view_unmarked (hparent : ∀ v ∈ s.parent, v.2 ≠ some t)
    (hchildren : ∀ v ∈ s.children, v.xmin ≠ some t ∧ v.xmax ≠ some t) (S : List τ) :
    s.view (t :: S) = s.view S := by
  have hsee : ∀ {o : Option τ}, o ≠ some t → ((∀ u ∈ o, u ∈ t :: S) ↔ ∀ u ∈ o, u ∈ S) := by
    intro o ho
    refine forall₂_congr fun u hu => ?_
    have hne : u ≠ t := by
      rintro rfl
      exact ho hu
    rw [List.mem_cons]
    exact or_iff_right hne
  have hgone : ∀ {o : Option τ}, o ≠ some t → ((∀ u ∈ o, u ∉ t :: S) ↔ ∀ u ∈ o, u ∉ S) := by
    intro o ho
    refine forall₂_congr fun u hu => ?_
    have hne : u ≠ t := by
      rintro rfl
      exact ho hu
    rw [List.mem_cons]
    exact not_congr (or_iff_right hne)
  have hvisible : ∀ v ∈ s.children, decide (v.visible (t :: S)) = decide (v.visible S) :=
    fun v hv => decide_eq_decide.mpr
      (and_congr (hsee (hchildren v hv).1) (hgone (hchildren v hv).2))
  unfold view parentAt childrenAt
  rw [List.find?_congr fun v hv => decide_eq_decide.mpr (hsee (hparent v hv)),
    List.filter_congr hvisible]

end State

end Statements

/-! ## Runs -/

section Runs

variable {τ π ρ κ : Type} [DecidableEq τ] [DecidableEq κ] {key : ρ → κ} {s s' : State τ π ρ}
  {t : τ} {d : Option π × List ρ} {program : τ → List (Stmt π ρ)}

/-- Each transaction begins with a write of the parent. -/
def LocksFirst (program : τ → List (Stmt π ρ)) : Prop :=
  ∀ t, ∃ st rest, program t = st :: rest ∧ st.isLock = true

/-- The transaction is under way and through with a statement. -/
def Active (s : State τ π ρ) (t : τ) : Prop := (s.phase t).done ≠ []

/-- The transaction has created a version or deleted one. -/
def Marked (s : State τ π ρ) (t : τ) : Prop :=
  (∃ v ∈ s.parent, v.2 = some t) ∨ ∃ v ∈ s.children, v.xmin = some t ∨ v.xmax = some t

/-- A transaction that is active is alone, has the newest version of the parent, and sees what
its statements so far have made of what is committed. -/
structure Inv (key : ρ → κ) (d : Option π × List ρ) (program : τ → List (Stmt π ρ))
    (s : State τ π ρ) : Prop where
  disjoint : ∀ u ∈ s.committed, u ∉ s.aborted
  ended : ∀ u, s.phase u = .ended ↔ u ∈ s.committed ∨ u ∈ s.aborted
  planned : ∀ u p, (s.phase u).program = some p → p = program u
  alone : ∀ u w, Active s u → Active s w → u = w
  marked : ∀ u, Marked s u → u ∈ s.committed ∨ u ∈ s.aborted ∨ Active s u
  fresh : ∀ u snap done st rest, s.phase u = .running snap done st rest → done ≠ [] →
    snap = s.committed
  holds : ∀ u, Active s u → ∃ x older, s.parent = (x, some u) :: older
  view : s.view s.committed = serial key d program s.committed
  own : ∀ u, Active s u →
    s.view (u :: s.committed) = runAll key (s.phase u).done (s.view s.committed)

/-- It holds before anything has begun. -/
theorem inv_before : Inv key d program (before d program) where
  disjoint _ hu := absurd hu List.not_mem_nil
  ended u := iff_of_false (fun h => by cases h) (by simp [before])
  planned u p hp := (Option.some.inj hp).symm
  alone u w hu := absurd rfl hu
  marked u hu := by
    rcases hu with ⟨v, hv, hu⟩ | ⟨v, hv, hu⟩
    · obtain ⟨x, -, rfl⟩ := List.mem_map.mp hv
      cases hu
    · obtain ⟨r, -, rfl⟩ := List.mem_map.mp hv
      rcases hu with hu | hu <;> cases hu
  fresh u snap done st rest h := by cases h
  holds u hu := absurd rfl hu
  view := by
    obtain ⟨x, rows⟩ := d
    show (parentAt [] _, childrenAt [] _) = (x, rows)
    have hrows : childrenAt ([] : List τ) (rows.map fun r => (⟨r, none, none⟩ : Version τ ρ))
      = rows := by
      unfold childrenAt
      rw [List.filter_eq_self.mpr, List.map_map]
      · exact List.map_id _
      · intro v hv
        obtain ⟨r, -, rfl⟩ := List.mem_map.mp hv
        exact decide_eq_true ⟨nofun, nofun⟩
    have hparent : parentAt ([] : List τ) (x.toList.map fun x => (x, none)) = x := by
      cases x with
      | none => rfl
      | some x => simp [parentAt]
    exact Prod.ext hparent hrows
  own u hu := absurd rfl hu

/-- A transaction that has not ended is neither committed nor rolled back. -/
theorem Inv.not_over (hI : Inv key d program s) (h : s.phase t ≠ .ended) :
    t ∉ s.committed ∧ t ∉ s.aborted :=
  not_or.mp fun ho => h ((hI.ended t).mpr ho)

/-- So it is a running one. -/
theorem Inv.running (hI : Inv key d program s) (h : s.phase t ≠ .ended) : s.Running t :=
  ⟨hI.disjoint, (hI.not_over h).1, (hI.not_over h).2⟩

omit [DecidableEq τ] in
/-- Who has the lock has not ended. -/
theorem Active.not_ended (h : Active s t) : s.phase t ≠ .ended := by
  intro he
  unfold Active at h
  rw [he] at h
  exact h rfl

/-- Where only one has the lock, only its stamps are open. -/
theorem Inv.stamped (hI : Inv key d program s) (h : ∀ u, Active s u → u = t) : s.Stamped t where
  parent v hv u hu :=
    (hI.marked u (Or.inl ⟨v, hv, hu⟩)).imp_right fun hu => hu.imp_right (h u)
  xmin v hv u hu :=
    (hI.marked u (Or.inr ⟨v, hv, Or.inl hu⟩)).imp_right fun hu => hu.imp_right (h u)
  xmax v hv u hu :=
    (hI.marked u (Or.inr ⟨v, hv, Or.inr hu⟩)).imp_right fun hu => hu.imp_right (h u)

theorem enter_self (ph : Phase τ π ρ) : (s.enter t ph).phase t = ph := Function.update_self ..

/-- The others stay in their phase. -/
theorem enter_ne {u : τ} (ph : Phase τ π ρ) (h : u ≠ t) : (s.enter t ph).phase u = s.phase u :=
  Function.update_of_ne h ..

/-- Starting a statement only takes its snapshot. -/
theorem inv_start (hI : Inv key d program s) {done rest : List (Stmt π ρ)} {st : Stmt π ρ}
    (ht : s.phase t = .ready done (st :: rest)) :
    Inv key d program (s.enter t (.running s.committed done st rest)) := by
  have hdone : ∀ u, ((s.enter t (.running s.committed done st rest)).phase u).done =
      (s.phase u).done := by
    intro u
    by_cases hu : u = t
    · rw [hu, enter_self, ht]
      rfl
    · rw [enter_ne _ hu]
  have hactive : ∀ u, Active (s.enter t (.running s.committed done st rest)) u ↔ Active s u := by
    intro u
    unfold Active
    rw [hdone u]
  refine ⟨hI.disjoint, fun u => ?_, fun u p hp => ?_, fun u w hu hw => ?_, fun u hu => ?_,
    fun u snap dn st' rs h hne => ?_, fun u hu => hI.holds u ((hactive u).mp hu), hI.view,
    fun u hu => ?_⟩
  · show _ ↔ u ∈ s.committed ∨ u ∈ s.aborted
    rw [← hI.ended u]
    by_cases hu : u = t
    · rw [hu, enter_self, ht]
      exact ⟨nofun, nofun⟩
    · rw [enter_ne _ hu]
  · by_cases hu : u = t
    · rw [hu, enter_self] at hp
      exact hu ▸ hI.planned t p (by rw [ht]; exact hp)
    · rw [enter_ne _ hu] at hp
      exact hI.planned u p hp
  · exact hI.alone u w ((hactive u).mp hu) ((hactive w).mp hw)
  · exact (hI.marked u hu).imp_right fun h => h.imp_right (hactive u).mpr
  · by_cases hu : u = t
    · rw [hu, enter_self] at h
      exact (Phase.running.inj h).1.symm
    · rw [enter_ne _ hu] at h
      exact hI.fresh u snap dn st' rs h hne
  · rw [hdone u]
    exact hI.own u ((hactive u).mp hu)

/-- Only the lock comes first. -/
theorem Inv.not_first (hI : Inv key d program s) (hprogram : LocksFirst program) {snap : List τ}
    {done rest : List (Stmt π ρ)} {st : Stmt π ρ} (ht : s.phase t = .running snap done st rest)
    (hlock : st.isLock = false) : done ≠ [] := by
  rintro rfl
  obtain ⟨st', rest', hp, hlock'⟩ := hprogram t
  have hfirst : st :: rest = program t := by
    apply hI.planned t
    rw [ht]
    rfl
  rw [hp] at hfirst
  obtain ⟨rfl, -⟩ := List.cons.inj hfirst
  rw [hlock] at hlock'
  cases hlock'

/-- A statement that gets through finds nobody else active: if it is the first one it writes
the parent, and the newest version of the parent is settled. -/
theorem Inv.alone_of_execute (hI : Inv key d program s) (hprogram : LocksFirst program)
    {snap : List τ} {done rest : List (Stmt π ρ)} {st : Stmt π ρ}
    (ht : s.phase t = .running snap done st rest) (h : s.execute key t snap st = some s') {u : τ}
    (hu : Active s u) : u = t := by
  by_cases hdone : done = []
  · rcases State.execute_parent h with ⟨hnot, -⟩ | ⟨hsettled, -⟩
    · exact absurd hdone (hI.not_first hprogram ht hnot)
    · obtain ⟨x, older, hparent⟩ := hI.holds u hu
      obtain ⟨hc, ha⟩ := hI.not_over hu.not_ended
      have htip : s.tip = some (x, some u) := by
        unfold State.tip
        rw [hparent, List.find?_cons_of_pos (by simpa using ha)]
      by_contra hne
      exact hsettled x (some u) htip u rfl ⟨hne, hc, ha⟩
  · refine hI.alone u t hu ?_
    unfold Active
    rw [ht]
    exact hdone

/-- A statement of the transaction keeps it. -/
theorem inv_finish (hI : Inv key d program s) (hprogram : LocksFirst program)
    {snap : List τ} {done rest : List (Stmt π ρ)} {st : Stmt π ρ}
    (ht : s.phase t = .running snap done st rest) (h : s.execute key t snap st = some s') :
    Inv key d program (s'.enter t (.ready (done ++ [st]) rest)) := by
  have halone : ∀ u, Active s u → u = t := fun u => hI.alone_of_execute hprogram ht h
  have hopen : s.phase t ≠ .ended := by
    rw [ht]
    exact nofun
  -- a statement after the lock reads what has been committed by then
  have hsnap : st.isLock = false → snap = s.committed := by
    intro hlock
    exact hI.fresh t snap done st rest ht (hI.not_first hprogram ht hlock)
  have hran := State.ran_execute (hI.running hopen) (hI.stamped halone) hsnap h
  -- nobody else becomes active by this step
  have hactive : ∀ u, Active (s'.enter t (.ready (done ++ [st]) rest)) u → u = t := by
    intro u hu
    by_contra hne
    unfold Active at hu
    rw [enter_ne _ hne, hran.phase] at hu
    exact hne (halone u hu)
  have hself : Active (s'.enter t (.ready (done ++ [st]) rest)) t := by
    unfold Active
    rw [enter_self]
    exact List.append_ne_nil_of_right_ne_nil _ (List.cons_ne_nil _ _)
  refine ⟨?_, fun u => ?_, fun u p hp => ?_, fun u w hu hw => ?_, fun u hu => ?_,
    fun u snap' dn st' rs hph hne => ?_, fun u hu => ?_, ?_, fun u hu => ?_⟩
  · show ∀ u ∈ s'.committed, u ∉ s'.aborted
    rw [hran.committed, hran.aborted]
    exact hI.disjoint
  · show _ ↔ u ∈ s'.committed ∨ u ∈ s'.aborted
    rw [hran.committed, hran.aborted, ← hI.ended u]
    by_cases hu : u = t
    · rw [hu, enter_self, ht]
      exact ⟨nofun, nofun⟩
    · rw [enter_ne _ hu, hran.phase]
  · by_cases hu : u = t
    · rw [hu, enter_self] at hp
      refine hu ▸ hI.planned t p ?_
      rw [ht]
      show some (done ++ st :: rest) = some p
      rw [← hp, Phase.program, List.append_assoc]
      rfl
    · rw [enter_ne _ hu, hran.phase] at hp
      exact hI.planned u p hp
  · rw [hactive u hu, hactive w hw]
  · show u ∈ s'.committed ∨ u ∈ s'.aborted ∨ _
    rw [hran.committed, hran.aborted]
    have hst := hran.stamped
    have hmark : u ∈ s'.committed ∨ u ∈ s'.aborted ∨ u = t := by
      rcases hu with ⟨v, hv, hu⟩ | ⟨v, hv, hu | hu⟩
      · exact hst.parent v hv u hu
      · exact hst.xmin v hv u hu
      · exact hst.xmax v hv u hu
    rw [hran.committed, hran.aborted] at hmark
    refine hmark.imp_right fun hm => hm.imp_right ?_
    rintro rfl
    exact hself
  · have hu : Active (s'.enter t (.ready (done ++ [st]) rest)) u := by
      unfold Active
      rw [hph]
      exact hne
    rw [hactive u hu, enter_self] at hph
    cases hph
  · obtain rfl := hactive u hu
    show ∃ x older, s'.parent = (x, some u) :: older
    rcases State.execute_parent h with ⟨hlock, hparent⟩ | ⟨-, x, hparent⟩
    · -- not the first statement, so the row has been written before
      have hbefore : Active s u := by
        unfold Active
        rw [ht]
        exact hI.not_first hprogram ht hlock
      rw [hparent]
      exact hI.holds u hbefore
    · exact ⟨x, s.parent, hparent⟩
  · show s'.view s'.committed = serial key d program s'.committed
    rw [hran.committed, hran.view]
    exact hI.view
  · obtain rfl := hactive u hu
    rw [enter_self]
    show s'.view (u :: s'.committed) = runAll key (done ++ [st]) (s'.view s'.committed)
    rw [hran.committed, hran.own, hran.view, runAll, List.foldl_append]
    show _ = st.run key (runAll key done (s.view s.committed))
    -- what `t` itself sees: before its first statement the committed rows, then its own
    by_cases hdone : done = []
    · have hnone : ¬Active s u := by
        unfold Active
        rw [ht]
        exact fun hn => hn hdone
      have hunmarked : ¬Marked s u := by
        intro hm
        rcases hI.marked u hm with hc | ha | hact
        · exact (hI.not_over hopen).1 hc
        · exact (hI.not_over hopen).2 ha
        · exact hnone hact
      rw [State.view_unmarked (fun v hv he => hunmarked (Or.inl ⟨v, hv, he⟩)) (fun v hv =>
        ⟨fun he => hunmarked (Or.inr ⟨v, hv, Or.inl he⟩),
          fun he => hunmarked (Or.inr ⟨v, hv, Or.inr he⟩)⟩), hdone]
      rfl
    · have hbefore : Active s u := by
        unfold Active
        rw [ht]
        exact hdone
      have hown := hI.own u hbefore
      rw [ht] at hown
      rw [hown]
      rfl

/-- What becomes of the phases when `t` ends. -/
theorem active_of_ended {u : τ} (h : Active (s.enter t .ended) u) : u ≠ t ∧ Active s u := by
  have hne : u ≠ t := by
    rintro rfl
    unfold Active at h
    rw [enter_self] at h
    exact h rfl
  unfold Active at h
  rw [enter_ne _ hne] at h
  exact ⟨hne, h⟩

/-- Ending leaves the plans of the others. -/
theorem Inv.planned_of_ended (hI : Inv key d program s) {u : τ} {p : List (Stmt π ρ)}
    (hp : ((s.enter t .ended).phase u).program = some p) : p = program u := by
  by_cases hu : u = t
  · rw [hu, enter_self] at hp
    cases hp
  · rw [enter_ne _ hu] at hp
    exact hI.planned u p hp

/-- With its commit the rows are what the transaction has made of them. -/
theorem inv_commit (hI : Inv key d program s) (hprogram : LocksFirst program)
    {done : List (Stmt π ρ)} (ht : s.phase t = .ready done []) :
    Inv key d program { s.enter t .ended with committed := t :: s.committed } := by
  have hopen : s.phase t ≠ .ended := by
    rw [ht]
    exact nofun
  obtain ⟨hc, ha⟩ := hI.not_over hopen
  have hdone : done = program t := by
    apply hI.planned t
    rw [ht, Phase.program, List.append_nil]
  have hself : Active s t := by
    obtain ⟨st, rest, hp, -⟩ := hprogram t
    unfold Active
    rw [ht]
    show done ≠ []
    rw [hdone, hp]
    exact List.cons_ne_nil st rest
  -- it was alone, so nobody is active any more
  have hnone : ∀ u, ¬Active (s.enter t .ended) u := fun u hu =>
    (active_of_ended hu).1 (hI.alone u t (active_of_ended hu).2 hself)
  refine ⟨fun u hu => ?_, fun u => ?_, fun u p hp => hI.planned_of_ended hp,
    fun u w hu => absurd hu (hnone u), fun u hu => ?_, fun u snap dn st rs hph hne => ?_,
    fun u hu => absurd hu (hnone u), ?_, fun u hu => absurd hu (hnone u)⟩
  · rcases List.mem_cons.mp hu with rfl | hu
    · exact ha
    · exact hI.disjoint u hu
  · show (s.enter t .ended).phase u = .ended ↔ u ∈ t :: s.committed ∨ u ∈ s.aborted
    by_cases hu : u = t
    · rw [hu, enter_self]
      exact iff_of_true rfl (Or.inl List.mem_cons_self)
    · rw [enter_ne _ hu, hI.ended u, List.mem_cons, or_iff_right hu]
  · show u ∈ t :: s.committed ∨ u ∈ s.aborted ∨ _
    rcases hI.marked u hu with h | h | h
    · exact Or.inl (List.mem_cons_of_mem _ h)
    · exact Or.inr (Or.inl h)
    · rw [hI.alone u t h hself]
      exact Or.inl List.mem_cons_self
  · refine absurd ?_ (hnone u)
    unfold Active
    rw [hph]
    exact hne
  · show s.view (t :: s.committed) = runAll key (program t) (serial key d program s.committed)
    rw [hI.own t hself, ht, hI.view, ← hdone]
    rfl

/-- A rollback leaves what is committed as it is. -/
theorem inv_rollback (hI : Inv key d program s) (hopen : s.phase t ≠ .ended) :
    Inv key d program { s.enter t .ended with aborted := t :: s.aborted } := by
  obtain ⟨hc, ha⟩ := hI.not_over hopen
  have hphase : ∀ u, Active (s.enter t .ended) u → (s.enter t .ended).phase u = s.phase u :=
    fun u hu => enter_ne _ (active_of_ended hu).1
  refine ⟨fun u hu => ?_, fun u => ?_, fun u p hp => hI.planned_of_ended hp,
    fun u w hu hw => hI.alone u w (active_of_ended hu).2 (active_of_ended hw).2, fun u hu => ?_,
    fun u snap dn st rs hph hne => ?_, fun u hu => hI.holds u (active_of_ended hu).2, hI.view,
    fun u hu => ?_⟩
  · show u ∉ t :: s.aborted
    rw [List.mem_cons, not_or]
    refine ⟨?_, hI.disjoint u hu⟩
    rintro rfl
    exact hc hu
  · show (s.enter t .ended).phase u = .ended ↔ u ∈ s.committed ∨ u ∈ t :: s.aborted
    by_cases hu : u = t
    · rw [hu, enter_self]
      exact iff_of_true rfl (Or.inr List.mem_cons_self)
    · rw [enter_ne _ hu, hI.ended u, List.mem_cons, or_iff_right hu]
  · show u ∈ s.committed ∨ u ∈ t :: s.aborted ∨ Active (s.enter t .ended) u
    rcases hI.marked u hu with h | h | h
    · exact Or.inl h
    · exact Or.inr (Or.inl (List.mem_cons_of_mem _ h))
    · by_cases hut : u = t
      · exact Or.inr (Or.inl (hut ▸ List.mem_cons_self))
      · refine Or.inr (Or.inr ?_)
        unfold Active
        rw [enter_ne _ hut]
        exact h
  · have hu : Active (s.enter t .ended) u := by
      unfold Active
      rw [show (s.enter t .ended).phase u = _ from hph]
      exact hne
    exact hI.fresh u snap dn st rs ((hphase u hu).symm.trans hph) hne
  · show s.view (u :: s.committed) = runAll key ((s.enter t .ended).phase u).done _
    rw [hphase u hu]
    exact hI.own u (active_of_ended hu).2

/-- The four actions. -/
theorem inv_step (hprogram : LocksFirst program) (hI : Inv key d program s) {a : Action τ}
    (h : step key s a = some s') : Inv key d program s' := by
  cases a with
  | start t =>
    unfold step at h
    dsimp only at h
    split at h
    · next done st rest ht =>
      obtain rfl := Option.some.inj h
      exact inv_start hI ht
    · cases h
  | finish t =>
    unfold step at h
    dsimp only at h
    split at h
    · next snap done st rest ht =>
      obtain ⟨s₁, hex, rfl⟩ := Option.map_eq_some_iff.mp h
      exact inv_finish hI hprogram ht hex
    · cases h
  | commit t =>
    unfold step at h
    dsimp only at h
    split at h
    · next done ht =>
      obtain rfl := Option.some.inj h
      exact inv_commit hI hprogram ht
    · cases h
  | rollback t =>
    unfold step at h
    dsimp only at h
    split at h
    · cases h
    · next hopen =>
      obtain rfl := Option.some.inj h
      exact inv_rollback hI hopen

/-- So it holds in every interleaving. -/
theorem inv_exec (hprogram : LocksFirst program) {as : List (Action τ)}
    (h : (transactions key).exec (before d program) as = some s) : Inv key d program s :=
  (transactions key).exec_invariant (I := Inv key d program)
    (fun _ _ _ hI hs => inv_step hprogram hI hs) inv_before h

/-- Whatever the interleaving and whoever is rolled back, what is committed is what the
committed transactions do one after the other. -/
theorem serializable (hprogram : LocksFirst program) {as : List (Action τ)}
    (h : (transactions key).exec (before d program) as = some s) :
    s.view s.committed = serial key d program s.committed :=
  (inv_exec hprogram h).view

end Runs

end ReleaseRadar.Lib.ParentLock
