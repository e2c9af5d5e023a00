import Mathlib.Data.List.Sort
import ReleaseRadar.Lib.Db
import ReleaseRadar.Store.Notifications

/-!
# The database

The tables of `backend/internal/store/migrations`, one record of row lists, with
what a statement needs of Postgres: a text parameter may not hold U+0000
(SQLSTATE 22021), a violated constraint aborts the statement with a class 23
code, and an index takes no entry that is too long (`Indexes`). A table's list order is
the order in which an unordered query returns its rows.
-/

namespace ReleaseRadar

open Lib

/-- What a store call can return as an error. `notFound` is `store.ErrNotFound`,
`pg` a `*pgconn.PgError` with its SQLSTATE, `other` anything else. Wrapping with
`%w` keeps the kind, which is all a caller looks at. -/
inductive Err
  | notFound
  | pg (code : String)
  | other (msg : String)
deriving DecidableEq, Repr

/-- `err.Error()`. -/
def Err.text : Err → String
  | .notFound => "not found"
  | .pg code => "SQLSTATE " ++ code
  | .other msg => msg

/-! ## Rows -/

structure ActorRow where
  id : String
  email : String
  name : String
  role : String
deriving DecidableEq, Repr

structure ProductRow where
  id : String
  name : String
  owner : Option String
  brokers : List String
deriving DecidableEq, Repr

/-- `cascadePlan` is a JSONB document: an array, or JSON `null`. -/
structure RolloutTypeRow where
  id : String
  name : String
  short : String
  tone : String
  delayProd1 : Int
  delayProd2 : Int
  cascadePlan : Slice CascadeStage
  announce : Option String
  rules : List String
deriving DecidableEq, Repr

structure TypeTaskRow where
  typeId : String
  seq : Nat
  description : String
deriving DecidableEq, Repr

structure RolloutRow where
  id : String
  productId : String
  typeId : String
  title : String
  descExt : String
  descInt : String
  risks : String
  createdAt : Int
  updatedAt : Int
  createdBy : Option String
deriving DecidableEq, Repr

structure StageRow where
  rolloutId : String
  seq : Nat
  env : String
  startAt : Int
  duration : Int
  status : String
deriving DecidableEq, Repr

/-- `rollout_actors`. It is read without an `ORDER BY`: a pair is a set of actors, here in the order
they were inserted in. -/
structure PairRow where
  rolloutId : String
  actorId : String
deriving DecidableEq, Repr

structure TaskRow where
  rolloutId : String
  seq : Nat
  description : String
  status : String
  reason : String
  completedBy : Option String
  completedAt : Option Int
deriving DecidableEq, Repr

structure LockRow where
  id : String
  title : String
  description : String
  contact : String
  startAt : Int
  endAt : Int
  products : List String
  kind : String
  createdBy : Option String
  createdAt : Int
deriving DecidableEq, Repr

/-- The whole database. -/
structure Store where
  actors : List ActorRow
  products : List ProductRow
  rolloutTypes : List RolloutTypeRow
  rolloutTypeTasks : List TypeTaskRow
  rollouts : List RolloutRow
  rolloutStages : List StageRow
  rolloutActors : List PairRow
  rolloutTasks : List TaskRow
  locks : List LockRow
  notifications : NotificationTable

namespace Store

/-- A freshly migrated database. -/
def empty : Store := ⟨[], [], [], [], [], [], [], [], [], NotificationTable.empty⟩

def hasActor (s : Store) (id : String) : Bool := s.actors.any (·.id == id)
def hasProduct (s : Store) (id : String) : Bool := s.products.any (·.id == id)
def hasRolloutType (s : Store) (id : String) : Bool := s.rolloutTypes.any (·.id == id)
def hasRollout (s : Store) (id : String) : Bool := s.rollouts.any (·.id == id)
def hasLock (s : Store) (id : String) : Bool := s.locks.any (·.id == id)

end Store

/-! ## Statements -/

/-- A program against the database. -/
abbrev Repo := Db Store Err

/-- `nullIfEmpty`: an empty string is sent as `NULL`. -/
def nullIfEmpty (s : String) : Option String := if s = "" then none else some s

/-- Postgres text cannot hold U+0000. -/
def hasNul (s : String) : Bool := s.toList.any (· == '\x00')

/-- A statement with its text parameters. -/
def stmt {α : Type} (params : List String) (f : Store → Except Err (α × Store)) : Repo α :=
  Db.call fun s => if params.any hasNul then .error (.pg "22021") else f s

/-- A query with its text parameters. -/
def select {ρ : Type} (params : List String) (f : Store → List ρ) : Repo (Rows ρ Err) :=
  Db.query fun s => if params.any hasNul then .error (.pg "22021") else .ok (f s)

/-- `ORDER BY key`. The sort is stable, so sorting by a second key first gives
`ORDER BY key, second`. -/
def orderBy {ρ κ : Type} [LE κ] [DecidableLE κ] (key : ρ → κ) (rows : List ρ) : List ρ :=
  rows.insertionSort fun a b => key a ≤ key b

/-- A constraint: `code` when it is violated. -/
def constraint (holds : Bool) (code : String) : Except Err Unit :=
  if holds then .ok () else .error (.pg code)

def foreignKeyViolation : String := "23503"
def uniqueViolation : String := "23505"
def checkViolation : String := "23514"
def notNullViolation : String := "23502"

/-- `jsonb` refuses the escape of U+0000. -/
def untranslatableCharacter : String := "22P05"

/-- A btree index refuses an entry that is too long. -/
def programLimitExceeded : String := "54000"

/-- A column of an index entry. -/
inductive Datum
  | text (s : String)
  | int (n : Nat)

/-- The entries a btree index takes: Postgres compresses an entry, and refuses what is longer
than 2704 octets then. -/
class Indexes where
  holds : List Datum → Bool

/-- Every entry is taken. A statement whose entry is refused does nothing but fail, so nothing is
lost where any call may fail. -/
instance (priority := low) Indexes.roomy : Indexes := ⟨fun _ => true⟩

@[simp] theorem Indexes.holds_roomy (key : List Datum) : Indexes.holds key = true := rfl

/-- A nullable foreign key into `actors`. -/
def Store.actorRef (s : Store) (id : Option String) : Bool :=
  match id with
  | none => true
  | some a => s.hasActor a

/-- A statement that ended well has done what it does. -/
theorem stmt_ok {α : Type} {params : List String} {f : Store → Except Err (α × Store)}
    {F : Faults Err} {c c' : Conn Store} {a : α} (h : stmt params f F c = (.ok a, c')) :
    f c.store = .ok (a, c'.store) := by
  have h₁ := Db.call_ok h
  split at h₁
  · simp at h₁
  · exact h₁

/-- A statement that succeeded had parameters Postgres can hold. -/
theorem stmt_ok_params {α : Type} {params : List String} {f : Store → Except Err (α × Store)}
    {F : Faults Err} {c c' : Conn Store} {a : α} (h : stmt params f F c = (.ok a, c')) :
    params.any hasNul = false := by
  have h₁ := Db.call_ok h
  split at h₁
  · simp at h₁
  · next hn => simpa using hn

/-- A statement with texts Postgres takes ends well as it does. -/
theorem total_stmt {P : Store → Prop} {α : Type} {Q : α → Store → Prop} {params : List String}
    {f : Store → Except Err (α × Store)} (hp : params.any hasNul = false)
    (hf : ∀ s, P s → ∃ a s', f s = .ok (a, s') ∧ Q a s') : Db.Total P (stmt params f) Q := by
  refine Db.total_call fun s hP => ?_
  rw [hp]
  exact hf s hP

/-- A query reads its rows. -/
theorem total_select {s : Store} {ρ : Type} {params : List String} {f : Store → List ρ}
    (hp : params.any hasNul = false) :
    Db.Total (· = s) (select params f) fun rows t => t = s ∧ rows = ⟨f s, none⟩ := by
  rintro F c hF rfl
  refine ⟨⟨f c.store, none⟩, ⟨c.store, c.calls + 1⟩, ?_, hF.next _, rfl, rfl⟩
  simp [select, Db.query, hF c.calls (Nat.le_refl _), hp]

/-- A query whose iteration is asked for its error. -/
theorem total_checked_select {s : Store} {ρ : Type} {params : List String} {f : Store → List ρ}
    (hp : params.any hasNul = false) :
    Db.Total (· = s) (select params f >>= fun rows => Db.checked rows)
      fun out t => t = s ∧ out = f s := by
  refine Db.total_bind (total_select hp) fun rows => ?_
  rintro F c hF ⟨hc, rfl⟩
  exact ⟨f s, c, rfl, hF, hc, rfl⟩

/-- A statement stays within what it does. -/
theorem within_stmt {R : Db.Frame Store} {α : Type} {params : List String}
    {f : Store → Except Err (α × Store)} (hf : ∀ s a s', f s = .ok (a, s') → R.allows s s') :
    Db.Within R (stmt params f) := by
  refine Db.within_call fun s a s' h => ?_
  split at h
  · simp at h
  · exact hf s a s' h

theorem within_select {R : Db.Frame Store} {ρ : Type} (params : List String)
    (f : Store → List ρ) : Db.Within R (select params f) :=
  Db.within_query _

/-- A query changes nothing, and reads all rows unless a fault cuts them. -/
theorem select_ok {ρ : Type} {params : List String} {f : Store → List ρ} {F : Faults Err}
    {c c' : Conn Store} {rows : Rows ρ Err} (h : select params f F c = (.ok rows, c')) :
    c'.store = c.store ∧ (F c.calls = none → rows = ⟨f c.store, none⟩) := by
  obtain ⟨hs, all, hall, hrows⟩ := Db.query_ok h
  split at hall
  · simp at hall
  · obtain rfl : f c.store = all := by simpa using hall
    exact ⟨hs, hrows⟩

/-- An iteration that ended without an error has seen all the rows. -/
theorem select_seen {ρ : Type} {params : List String} {f : Store → List ρ} {F : Faults Err}
    {c c' : Conn Store} {rows : Rows ρ Err} (h : select params f F c = (.ok rows, c'))
    (herr : rows.err = none) : rows.seen = f c.store := by
  obtain ⟨all, hall, ⟨-, rfl⟩ | ⟨k, e, -, rfl⟩⟩ := Db.query_seen h
  · split at hall
    · simp at hall
    · exact (Except.ok.inj hall).symm
  · cases herr

/-- A query whose iteration is asked for its error returns all the rows. -/
theorem checked_select_ok {ρ : Type} {params : List String} {f : Store → List ρ} {F : Faults Err}
    {c c' : Conn Store} {out : List ρ}
    (h : (select params f >>= fun rows => Db.checked rows) F c = (.ok out, c')) :
    c'.store = c.store ∧ out = f c.store := by
  obtain ⟨rows, c₁, hrows, hout⟩ := Db.bind_ok h
  obtain ⟨rfl, hseen⟩ := Db.checked_ok hout
  refine ⟨(select_ok hrows).1, ?_⟩
  have := select_seen hrows (by rw [hseen])
  rw [hseen] at this
  exact this

theorem stmt_calls {α : Type} {params : List String} {f : Store → Except Err (α × Store)}
    {F : Faults Err} {c c' : Conn Store} {r : Except Err α} (h : stmt params f F c = (r, c')) :
    c'.calls = c.calls + 1 := by
  have h₁ := Db.call_calls (fun s => if params.any hasNul then .error (.pg "22021") else f s) F c
  rw [show Db.call _ F c = _ from h] at h₁
  exact h₁

theorem select_calls {ρ : Type} {params : List String} {f : Store → List ρ} {F : Faults Err}
    {c c' : Conn Store} {r : Except Err (Rows ρ Err)} (h : select params f F c = (r, c')) :
    c'.calls = c.calls + 1 := by
  have h₁ := Db.query_calls
    (fun s => if params.any hasNul then .error (.pg "22021") else .ok (f s)) F c
  rw [show Db.query _ F c = _ from h] at h₁
  exact h₁

/-- A statement that got past a constraint satisfies it. -/
theorem constraint_bind_ok {α : Type} {holds : Bool} {code : String} {f : Unit → Except Err α}
    {a : α} (h : (constraint holds code >>= f) = .ok a) : holds = true ∧ f () = .ok a := by
  cases holds with
  | true => exact ⟨rfl, h⟩
  | false => simp [constraint, bind, Except.bind] at h

/-- A statement that says whether it hit a row, and `ErrNotFound` when it did not. -/
theorem affected_ok {α : Type} {params : List String} {f : Store → Except Err (Bool × Store)}
    {x y : α} {F : Faults Err} {c c' : Conn Store}
    (h : (stmt params f >>= fun affected => if affected then pure x else Db.throw .notFound) F c =
      (.ok y, c')) : y = x ∧ f c.store = .ok (true, c'.store) := by
  obtain ⟨affected, c₁, hst, hres⟩ := Db.bind_ok h
  cases affected with
  | true =>
    obtain ⟨rfl, rfl⟩ : x = y ∧ c₁ = c' := by simpa [Db.pure_def] using hres
    exact ⟨rfl, stmt_ok hst⟩
  | false => simp [Db.throw] at hres

theorem affected_error {α : Type} {params : List String} {f : Store → Except Err (Bool × Store)}
    {x : α} {F : Faults Err} {c c' : Conn Store} {e : Err}
    (h : (stmt params f >>= fun affected => if affected then pure x else Db.throw .notFound) F c =
      (.error e, c')) : c'.store = c.store ∨ f c.store = .ok (false, c'.store) := by
  rw [Db.bind_def] at h
  split at h
  · next affected c₁ hst =>
    cases affected with
    | true => simp [Db.pure_def] at h
    | false =>
      obtain rfl : c₁ = c' := congrArg Prod.snd h
      exact Or.inr (stmt_ok hst)
  · next e' c₁ hst =>
    obtain rfl : c₁ = c' := congrArg Prod.snd h
    exact Or.inl (Db.call_error hst)

end ReleaseRadar
