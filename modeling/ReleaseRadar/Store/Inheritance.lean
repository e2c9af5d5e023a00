import ReleaseRadar.Store.ConcurrentUpdates
import ReleaseRadar.Store.ReadMoments
import ReleaseRadar.Store.References

/-!
# The tasks a rollout inherits

`CreateRollout` looks its type up outside of its transaction, with a query for the row and one
for the tasks, while other admins replace the rows of that type one by one (`Upserts`). The
tasks come from the second query alone, and what a query finds is what has been committed: the
tasks of the upsert that committed last, all of them (`tasks_inherited`). No upsert touches the
tasks of a rollout (`tasksOf_upsertRolloutType`).
-/

namespace ReleaseRadar

open Lib

namespace Repository

open ParentLock (before transactions)

/-! ## The lookup, query by query -/

def findRolloutType (id : String) (s : Store) : Except Err RolloutType :=
  match s.rolloutTypes.find? fun t => t.id == id with
  | none => .error .notFound
  | some t => .ok (scanRolloutType t)

def rolloutTypeReading (id : String) : Reading Store Err RolloutType := do
  let t ← askRow [id] (findRolloutType id)
  let rows ← askRows [t.id] fun s => typeTasksOf s t.id
  let tasks ← Reading.checked rows
  pure { t with tasks := some tasks }

/-- The queries are those of `RolloutType`. -/
theorem toDb_rolloutTypeReading (id : String) : (rolloutTypeReading id).toDb = rolloutType id := by
  unfold rolloutTypeReading rolloutType
  rw [Reading.toDb_bind]
  refine congrArg₂ (· >>= ·) ?_ (funext fun t => ?_)
  · unfold askRow stmt
    rw [Reading.toDb_row]
    refine congrArg Db.call (funext fun s => ?_)
    unfold findRolloutType
    by_cases hnul : [id].any hasNul = true
    · rw [if_pos hnul, if_pos hnul]
      rfl
    · rw [if_neg hnul, if_neg hnul]
      dsimp only
      cases s.rolloutTypes.find? fun t => t.id == id <;> rfl
  · unfold rolloutTypeTasks
    rw [Reading.toDb_bind, askRows, Reading.toDb_query, Db.bind_assoc]
    refine congrArg _ (funext fun rows => ?_)
    rw [Reading.toDb_bind, Reading.toDb_checked]
    rfl

/-- The tasks are those the second query finds. -/
theorem rolloutTypeReading_ok {id : String} {F : Faults Err} {store : Nat → Store}
    {rt : RolloutType}
    (h : (rolloutTypeReading id).result F store 0 = .ok rt) :
    rt.tasks = some (typeTasksOf (store 1) id) := by
  obtain ⟨t, ht, h⟩ := Reading.result_row h
  have hid : t.id = id := by
    split at ht
    · cases ht
    · unfold findRolloutType at ht
      split at ht
      · cases ht
      · next r hr =>
        rw [← Except.ok.inj ht]
        exact eq_of_beq (List.find?_some (p := fun t : RolloutTypeRow => t.id == id) hr)
  obtain ⟨-, rows, hseen, -, h⟩ := askRows_ok h
  obtain ⟨seen, err⟩ := rows
  cases err with
  | some e => cases h
  | none =>
    obtain rfl := Except.ok.inj h
    exact congrArg some ((hseen rfl).trans (by rw [hid]))

/-- `CreateRollout` up to its commit, each of its first two calls and its transaction finding a
store of its own. The transaction inserts below `rollouts`, and of the type it only asks that
it is there. -/
def createAmong (F : Faults Err) (store : Nat → Store) (now : Int) (ro : Rollout) :
    Except Err Unit × Conn Store :=
  match (rolloutTypeReading ro.typeId).result F store 0 with
  | .error e => (.error e, ⟨store 2, 2⟩)
  | .ok rt => createRolloutTx now ro rt.tasks.items F ⟨store 2, 2⟩

theorem rolloutType_calls {id : String} {F : Faults Err} {c c' : Conn Store} {rt : RolloutType}
    (h : rolloutType id F c = (.ok rt, c')) : c'.calls = c.calls + 2 := by
  obtain ⟨t, c₁, hrow, h⟩ := Db.bind_ok h
  obtain ⟨tasks, c₂, htasks, h⟩ := Db.bind_ok h
  obtain ⟨rows, c₃, hrows, hchecked⟩ := Db.bind_ok htasks
  obtain ⟨rfl, -⟩ := Db.checked_ok hchecked
  obtain rfl : c₃ = c' := congrArg Prod.snd h
  rw [select_calls hrows, stmt_calls hrow]

/-- Run alone it is `CreateRollout`. -/
theorem createAmong_alone (F : Faults Err) (s : Store) (now : Int) (ro : Rollout) :
    (createAmong F (fun _ => s) now ro).1 = (createRolloutCommit now ro F ⟨s, 0⟩).1 ∧
      (createAmong F (fun _ => s) now ro).2.store =
        (createRolloutCommit now ro F ⟨s, 0⟩).2.store := by
  obtain ⟨hresult, hstore⟩ := (rolloutTypeReading ro.typeId).toDb_eq (F := F) ⟨s, 0⟩
  rw [toDb_rolloutTypeReading] at hresult hstore
  unfold createAmong createRolloutCommit
  rw [← hresult, Db.bind_def]
  match h : rolloutType ro.typeId F ⟨s, 0⟩ with
  | (.error e, c') =>
    rw [h] at hstore
    exact ⟨rfl, hstore.symm⟩
  | (.ok rt, c') =>
    have hcalls := rolloutType_calls h
    rw [h] at hstore
    obtain ⟨s', n⟩ := c'
    obtain rfl : s' = s := hstore
    obtain rfl : n = 2 := hcalls
    exact ⟨rfl, rfl⟩

/-! ## Upserts in between -/

/-- `UpsertRolloutType` transactions on one type, one for each `t`, running statement by
statement between the calls of another request: before call `n` they have taken the actions
`acts n`. -/
structure Upserts (τ : Type) [DecidableEq τ] (id : String) (ty : τ → RolloutType) (s : Store) where
  acts : Nat → List (ParentLock.Action τ)
  state : Nat → ParentLock.State τ RolloutTypeRow TypeTaskRow
  first : (transactions typeTaskKey).exec
    (before (typeRows id s) fun t => upsertStatements (ty t)) (acts 0) = some (state 0)
  next : ∀ n, (transactions typeTaskKey).exec (state n) (acts (n + 1)) = some (state (n + 1))

section Upserts

variable {τ : Type} [DecidableEq τ] {id : String} {ty : τ → RolloutType} {s : Store}

/-- What is committed when call `n` is made. -/
def Upserts.store (W : Upserts τ id ty s) (n : Nat) : Store :=
  let committed := (W.state n).view (W.state n).committed
  { s with
    rolloutTypes := committed.1.elim s.rolloutTypes fun row => upsertRow (·.id) row s.rolloutTypes
    rolloutTypeTasks := committed.2 }

/-- The ordered tasks of the version that the last to commit has left. -/
def versionTasks (id : String) (ty : τ → RolloutType) (s : Store) : List τ → List String
  | [] => typeTasksOf s id
  | t :: _ => (ty t).tasks.items

/-- All that has happened before call `n`, in one run. -/
theorem Upserts.run (W : Upserts τ id ty s) (n : Nat) : ∃ as, (transactions typeTaskKey).exec
    (before (typeRows id s) fun t => upsertStatements (ty t)) as = some (W.state n) := by
  induction n with
  | zero => exact ⟨W.acts 0, W.first⟩
  | succ n ih =>
    obtain ⟨as, has⟩ := ih
    refine ⟨as ++ W.acts (n + 1), ?_⟩
    rw [Machine.exec_append, has]
    exact W.next n

/-- A query for the tasks finds those of one version, whole and in order. -/
theorem Upserts.typeTasksOf_store (W : Upserts τ id ty s) (hid : ∀ t, (ty t).id = id) (n : Nat) :
    typeTasksOf (W.store n) id = versionTasks id ty s (W.state n).committed := by
  obtain ⟨as, hrun⟩ := W.run n
  cases hc : (W.state n).committed with
  | nil =>
    have hview := ParentLock.serializable locksFirst_upsert hrun
    rw [hc] at hview
    show typeTasksOf
      { s with rolloutTypeTasks := ((W.state n).view (W.state n).committed).2 } id = _
    rw [hc, hview]
    rfl
  | cons t older =>
    have hset := (typeSetTo_of_run hid hrun hc).tasks
    rw [hid t] at hset
    have hsorted : orderBy (·.seq) (typeTaskRows id (ty t).tasks.items) =
        typeTaskRows id (ty t).tasks.items :=
      orderBy_of_ascending (pairwise_zipIdx TypeTaskRow.seq _ (fun _ => rfl) _)
    show (orderBy (·.seq) (((W.state n).view (W.state n).committed).2.filter _)).map _ = _
    rw [hset, hsorted, typeTaskRows, List.map_map]
    exact List.zipIdx_map_fst 0 _

/-- A task as it is inherited: at its place in the list, pending and with an empty log. -/
def inheritedTask (d : String × Nat) : RolloutTask := ⟨d.2, d.1, "", "", "", none⟩

/-- The tasks of a new rollout are those of the version that was there when its type's tasks
were asked for. -/
theorem Upserts.tasks_inherited (W : Upserts τ id ty s) (hid : ∀ t, (ty t).id = id)
    (hrefs : s.References) {F : Faults Err} {now : Int} {ro : Rollout} {c' : Conn Store}
    (htype : ro.typeId = id) (h : createAmong F W.store now ro = (.ok (), c')) :
    tasksOf c'.store ro.id =
      (versionTasks id ty s (W.state 1).committed).zipIdx.map inheritedTask := by
  unfold createAmong at h
  split at h
  · cases (Prod.mk.inj h).1
  · next rt hread =>
    obtain ⟨hnew, -, hstore⟩ := createRolloutTx_ok h
    have hrefs₂ : (W.store 2).References := hrefs.congr rfl
    rw [hstore, tasksOf_applyCreate hrefs₂ hnew, rolloutTypeReading_ok hread, htype,
      Slice.items_some, W.typeTasksOf_store hid]
    rfl

end Upserts

/-- An upsert leaves the tasks of every rollout alone, whatever becomes of it. -/
theorem tasksOf_upsertRolloutType (t : RolloutType) (F : Faults Err) (c : Conn Store)
    (id : String) :
    tasksOf (upsertRolloutType t F c).2.store id = tasksOf c.store id := by
  match h : upsertRolloutType t F c with
  | (.ok (), c') =>
    rw [(upsertRolloutType_ok h).2]
    rfl
  | (.error e, c') => rw [Db.tx_error_store h]

/-- **Inheritance is exact and final**: whatever upserts of its type run in between, a rollout
is created with the tasks of one committed version, the one that was there when they were asked
for, and no later upsert changes them. -/
theorem inheritance_exact_and_final :
    (∀ (τ : Type) [DecidableEq τ] (ty : τ → RolloutType) (s : Store) (ro : Rollout)
      (W : Upserts τ ro.typeId ty s) (F : Faults Err) (now : Int) (c' : Conn Store),
      s.References → (∀ t, (ty t).id = ro.typeId) → createAmong F W.store now ro = (.ok (), c') →
        tasksOf c'.store ro.id =
          (versionTasks ro.typeId ty s (W.state 1).committed).zipIdx.map inheritedTask) ∧
    ∀ (t : RolloutType) (F : Faults Err) (c : Conn Store) (id : String),
      tasksOf (upsertRolloutType t F c).2.store id = tasksOf c.store id :=
  ⟨fun _ _ _ _ _ W _ _ _ hrefs hid h => W.tasks_inherited hid hrefs rfl h,
    tasksOf_upsertRolloutType⟩

/-! ## A version that commits between the two queries -/

/-- A type with one task. -/
private def oneTask : Store :=
  { Store.empty with
    products := [⟨"p1", "Product", none, []⟩]
    rolloutTypes := [⟨"t1", "Type", "T", "info", 0, 0, none, none, []⟩]
    rolloutTypeTasks := [⟨"t1", 0, "old"⟩] }

private def fromType : Rollout :=
  ⟨"r1", "p1", "t1", "Title", "", "", "", none, none,
    some [⟨0, "mine", "done", "", "ann", none⟩], 0, 0,
    ""⟩

private def beforeUpserts : ParentLock.State Bool RolloutTypeRow TypeTaskRow :=
  before (typeRows "t1" oneTask) fun t => upsertStatements (twoTypes t)

private theorem typesRun_ends :
    ((transactions typeTaskKey).exec beforeUpserts typesRun).isSome = true := by
  decide

/-- Both upserts run between the query for the row and the one for the tasks. -/
private def betweenQueries : Upserts Bool "t1" twoTypes oneTask where
  acts n := if n = 1 then typesRun else []
  state
    | 0 => beforeUpserts
    | _ + 1 => ((transactions typeTaskKey).exec beforeUpserts typesRun).get typesRun_ends
  first := rfl
  next
    | 0 => (Option.some_get typesRun_ends).symm
    | _ + 1 => rfl

/-- The tasks are those of the version that has just committed, and none is the body's. -/
theorem inheritance_exact_and_final_between :
    ∃ c', createAmong Db.noFaults betweenQueries.store 0 fromType = (.ok (), c') ∧
      tasksOf c'.store "r1" =
        [⟨0, "check", "", "", "", none⟩, ⟨1, "deploy", "", "", "", none⟩] := by
  match h : createAmong Db.noFaults betweenQueries.store 0 fromType with
  | (.ok (), c') =>
    refine ⟨c', rfl, (inheritance_exact_and_final.1 Bool twoTypes oneTask fromType betweenQueries
      Db.noFaults 0 c' (by decide) (fun _ => rfl) h).trans ?_⟩
    decide
  | (.error e, c') =>
    have hok : (createAmong Db.noFaults betweenQueries.store 0 fromType).1.isOk = true := by
      decide
    rw [h] at hok
    cases hok

end Repository

end ReleaseRadar
