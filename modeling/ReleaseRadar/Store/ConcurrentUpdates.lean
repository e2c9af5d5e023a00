import ReleaseRadar.Lib.ParentLock
import ReleaseRadar.Store.MasterData

/-!
# Two edits at once

Any number of `UpdateRollout` transactions on one rollout, interleaved statement by statement
under READ COMMITTED, and any number of `UpsertRolloutType` transactions on one type. The
first statement of each writes the parent row and so takes its lock; the stages, the pair and
the tasks are rewritten after that.

* `updateStatements`, `upsertStatements` — the statements of a transaction, in the order of
  the source;
* `Holds.runAll_update`, `runAll_upsert_typeRows` — run alone they do `applyUpdate` and
  `applyRolloutType`, table by table;
* `edits_do_not_mix` — whatever the interleaving, what is committed is what the transaction
  that committed last has asked for, in all the tables.
-/

namespace ReleaseRadar

open Lib

namespace Repository

open ParentLock (Stmt Action runAll refill serial before transactions addRow LocksFirst)

/-! ## UpdateRollout -/

/-- A row below `rollouts`. -/
inductive ChildRow
  | stage (r : StageRow)
  | pair (r : PairRow)
  | task (r : TaskRow)
deriving DecidableEq, Repr

/-- The primary keys of the three tables. -/
inductive ChildKey
  | stage (rolloutId : String) (seq : Nat)
  | pair (rolloutId actorId : String)
  | task (rolloutId : String) (seq : Nat)
deriving DecidableEq, Repr

namespace ChildRow

def key : ChildRow → ChildKey
  | stage r => .stage r.rolloutId r.seq
  | pair r => .pair r.rolloutId r.actorId
  | task r => .task r.rolloutId r.seq

def asStage : ChildRow → Option StageRow
  | stage r => some r
  | _ => none

def asPair : ChildRow → Option PairRow
  | pair r => some r
  | _ => none

def asTask : ChildRow → Option TaskRow
  | task r => some r
  | _ => none

end ChildRow

/-- The row of one rollout, and the three tables below `rollouts`. -/
def rolloutRows (id : String) (s : Store) : Option RolloutRow × List ChildRow :=
  (s.rollouts.find? fun r => r.id == id,
    s.rolloutStages.map .stage ++ s.rolloutActors.map .pair ++ s.rolloutTasks.map .task)

/-- The transaction of `UpdateRollout`. -/
def updateStatements (now : Int) (ro : Rollout) : List (Stmt RolloutRow ChildRow) :=
  .update (updatedRow now ro) ::
    (refill (fun r => r.asStage.any fun r => r.rolloutId == ro.id)
        ((stageRowsFor ro.id ro.stages.items).map .stage) false
      ++ refill (fun r => r.asPair.any fun r => r.rolloutId == ro.id)
        ((ro.pair.items.map fun actorID => ⟨ro.id, actorID⟩).map .pair) true
      ++ refill (fun r => r.asTask.any fun r => r.rolloutId == ro.id)
        ((taskRowsFor ro.id ro.tasks.items).map .task) false)

/-- The rows are those of the store. -/
structure Holds (id : String) (s : Store) (d : Option RolloutRow × List ChildRow) : Prop where
  row : d.1 = s.rollouts.find? fun r => r.id == id
  stages : d.2.filterMap ChildRow.asStage = s.rolloutStages
  pair : d.2.filterMap ChildRow.asPair = s.rolloutActors
  tasks : d.2.filterMap ChildRow.asTask = s.rolloutTasks

section Alone

variable {id : String} {s : Store} {d : Option RolloutRow × List ChildRow}

/-- The versions of the start are the rows of the tables. -/
theorem holds_rolloutRows : Holds id s (rolloutRows id s) where
  row := rfl
  stages := by
    simp [rolloutRows, List.filterMap_map, Function.comp_def, ChildRow.asStage]
  pair := by
    simp [rolloutRows, List.filterMap_map, Function.comp_def, ChildRow.asPair]
  tasks := by
    simp [rolloutRows, List.filterMap_map, Function.comp_def, ChildRow.asTask]

/-- Rows numbered by their place have the places as their numbers. -/
theorem seq_zipIdx {α β : Type} (seq : β → Nat) (f : α × Nat → β) (hseq : ∀ x, seq (f x) = x.2)
    (xs : List α) : (xs.zipIdx.map f).map seq = List.range xs.length := by
  have h : seq ∘ f = Prod.snd := funext hseq
  rw [List.map_map, h, List.zipIdx_map_snd, List.range_eq_range']

/-- Stages are numbered through. -/
theorem seq_stageRowsFor (sts : List RolloutStage) :
    (stageRowsFor id sts).map (·.seq) = List.range sts.length :=
  seq_zipIdx StageRow.seq _ (fun _ => rfl) sts

/-- Tasks too. -/
theorem seq_taskRowsFor (ts : List RolloutTask) :
    (taskRowsFor id ts).map (·.seq) = List.range ts.length :=
  seq_zipIdx TaskRow.seq _ (fun _ => rfl) ts

/-- And the tasks of a type. -/
theorem seq_typeTaskRows (ts : List String) :
    (typeTaskRows id ts).map (·.seq) = List.range ts.length :=
  seq_zipIdx TypeTaskRow.seq _ (fun _ => rfl) ts

/-- Rows of one rollout with sequence numbers of their own take the place of the old ones. -/
theorem foldl_refill {α : Type} {rid : α → String} {seq : α → Nat} {new : List α} {n : Nat}
    (hnew : ∀ r ∈ new, rid r = id) (hseq : new.map seq = List.range n) (rows : List α) :
    new.foldl (addRow fun r => (rid r, seq r)) (rows.filter fun r => !(rid r == id)) =
      (rows.filter fun r => !(rid r == id)) ++ new := by
  apply ParentLock.foldl_addRow
  · intro r hr r' hr' hkey
    have hother : rid r' ≠ id := by simpa using (List.mem_filter.mp hr').2
    exact hother ((Prod.mk.inj hkey).1.trans (hnew r hr))
  · have hnodup : (new.map seq).Nodup := hseq ▸ List.nodup_range
    apply List.Nodup.of_map Prod.snd
    rw [List.map_map]
    exact hnodup

/-- A child that is read as a stage is one. -/
theorem asStage_some {x : ChildRow} {r : StageRow} (h : x.asStage = some r) : x = .stage r := by
  cases x with
  | stage r' => exact congrArg ChildRow.stage (Option.some.inj h)
  | pair r' => cases h
  | task r' => cases h

/-- One that is read as a member of the pair is one. -/
theorem asPair_some {x : ChildRow} {r : PairRow} (h : x.asPair = some r) : x = .pair r := by
  cases x with
  | pair r' => exact congrArg ChildRow.pair (Option.some.inj h)
  | stage r' => cases h
  | task r' => cases h

/-- One that is read as a task is one. -/
theorem asTask_some {x : ChildRow} {r : TaskRow} (h : x.asTask = some r) : x = .task r := by
  cases x with
  | task r' => exact congrArg ChildRow.task (Option.some.inj h)
  | stage r' => cases h
  | pair r' => cases h

/-- The key of a stage row is that of its table. -/
theorem stage_key (x : ChildRow) (r : StageRow) : x.key = (ChildRow.stage r).key ↔
    ∃ r', x.asStage = some r' ∧ (r'.rolloutId, r'.seq) = (r.rolloutId, r.seq) := by
  cases x <;> simp [ChildRow.key, ChildRow.asStage]

/-- The row of a member is its own key. -/
theorem pair_key (x : ChildRow) (r : PairRow) : x.key = (ChildRow.pair r).key ↔
    ∃ r', x.asPair = some r' ∧ r' = r := by
  cases x with
  | pair r' =>
    obtain ⟨id', actorId'⟩ := r'
    obtain ⟨id, actorId⟩ := r
    simp [ChildRow.key, ChildRow.asPair]
  | stage r' => simp [ChildRow.key, ChildRow.asPair]
  | task r' => simp [ChildRow.key, ChildRow.asPair]

/-- The key of a task row is that of its table. -/
theorem task_key (x : ChildRow) (r : TaskRow) : x.key = (ChildRow.task r).key ↔
    ∃ r', x.asTask = some r' ∧ (r'.rolloutId, r'.seq) = (r.rolloutId, r.seq) := by
  cases x <;> simp [ChildRow.key, ChildRow.asTask]

/-- The members of the pair are added under `ON CONFLICT DO NOTHING`. -/
theorem foldl_addRow_pair (rows : List PairRow) (pair : List String) :
    (pair.map fun actorID => (⟨id, actorID⟩ : PairRow)).foldl (addRow fun r => r) rows =
      addPairs id rows pair := by
  have hadd : ∀ (rows : List PairRow) actorID, addRow (fun r => r) rows ⟨id, actorID⟩ =
      if rows.contains ⟨id, actorID⟩ then rows else rows ++ [⟨id, actorID⟩] := by
    intro rows actorID
    unfold addRow
    simp
  unfold addPairs
  rw [List.foldl_map]
  simp only [hadd]

/-- The stages, the pair and the tasks are replaced one after the other. -/
theorem Holds.runAll_update (h : Holds id s d) (now : Int) (ro : Rollout) :
    Holds id (applyUpdate now ro s) (runAll ChildRow.key (updateStatements now ro) d) := by
  have hrow : (runAll ChildRow.key (updateStatements now ro) d).1 = d.1.map
    (updatedRow now ro) := by
    rw [updateStatements, ← List.singleton_append, ParentLock.runAll_append,
      ParentLock.runAll_append, ParentLock.runAll_append, ParentLock.runAll_refill,
      ParentLock.runAll_refill, ParentLock.runAll_refill]
    rfl
  have hupdate : (runAll ChildRow.key [.update (updatedRow now ro)] d).2 = d.2 := rfl
  refine ⟨?_, ?_, ?_, ?_⟩
  · rw [hrow, h.row]
    exact (find_updatedRow now ro s.rollouts).symm
  all_goals
    rw [updateStatements, ← List.singleton_append, ParentLock.runAll_append,
      ParentLock.runAll_append, ParentLock.runAll_append]
  · rw [ParentLock.filterMap_refill_other false (fun _ => rfl) (fun _ _ => asTask_some)
      fun _ => rfl,
      ParentLock.filterMap_refill_other true (fun _ => rfl) (fun _ _ => asPair_some) fun _ => rfl,
      ParentLock.filterMap_refill ChildRow.asStage false (fun _ => rfl) (fun _ => rfl) stage_key,
      hupdate, h.stages]
    exact foldl_refill stageRowsFor_rolloutId (seq_stageRowsFor _) _
  · rw [ParentLock.filterMap_refill_other false (fun _ => rfl) (fun _ _ => asTask_some)
      fun _ => rfl,
      ParentLock.filterMap_refill ChildRow.asPair true (fun _ => rfl) (fun _ => rfl) pair_key,
      ParentLock.filterMap_refill_other false (fun _ => rfl) (fun _ _ => asStage_some) fun _ => rfl,
      hupdate, h.pair]
    exact foldl_addRow_pair _ _
  · rw [ParentLock.filterMap_refill ChildRow.asTask false (fun _ => rfl) (fun _ => rfl) task_key,
      ParentLock.filterMap_refill_other true (fun _ => rfl) (fun _ _ => asPair_some) fun _ => rfl,
      ParentLock.filterMap_refill_other false (fun _ => rfl) (fun _ _ => asStage_some) fun _ => rfl,
      hupdate, h.tasks]
    exact foldl_refill taskRowsFor_rolloutId (seq_taskRowsFor _) _

/-- The rows of other rollouts after replacing those of `id`. -/
theorem filter_replace_others {ρ : Type} (rid : ρ → String) {old new : List ρ}
    (hnew : ∀ r ∈ new, rid r = id) :
    ((old.filter fun r => !(rid r == id)) ++ new).filter (fun r => !(rid r == id)) =
      old.filter fun r => !(rid r == id) := by
  have h : new.filter (fun r => !(rid r == id)) = [] := by
    rw [List.filter_eq_nil_iff]
    intro r hr
    simpa using hnew r hr
  rw [List.filter_append, List.filter_filter, h, List.append_nil]
  simp

/-- The later edit takes back what the earlier one did. -/
theorem applyUpdate_applyUpdate {ro ro' : Rollout} (hid : ro'.id = ro.id) (now now' : Int)
    (s : Store) : applyUpdate now ro (applyUpdate now' ro' s) = applyUpdate now ro s := by
  have hrow : updatedRow now ro ∘ updatedRow now' ro' = updatedRow now ro := by
    funext r
    unfold updatedRow
    by_cases h : r.id = ro.id
    · simp [hid, h]
    · simp [hid, h]
  have hstages : ∀ r ∈ stageRowsFor ro.id ro'.stages.items, r.rolloutId = ro.id :=
    stageRowsFor_rolloutId
  have htasks : ∀ r ∈ taskRowsFor ro.id ro'.tasks.items, r.rolloutId = ro.id :=
    taskRowsFor_rolloutId
  unfold applyUpdate
  rw [hid, List.map_map, hrow, filter_replace_others StageRow.rolloutId hstages,
    filter_replace_others TaskRow.rolloutId htasks, filter_addPairs (by simp), List.filter_filter]
  simp

/-- The rollout's rows are what the edit asks for, in all the tables, and those of the other
rollouts are as they were. -/
structure EditedTo (now : Int) (ro : Rollout) (s : Store) (d : Option RolloutRow × List ChildRow) :
    Prop where
  row : d.1 = (s.rollouts.find? fun r => r.id == ro.id).map (updatedRow now ro)
  stages : (d.2.filterMap ChildRow.asStage).filter (fun r => r.rolloutId == ro.id) =
    stageRowsFor ro.id ro.stages.items
  stageSeqs : ((d.2.filterMap ChildRow.asStage).filter fun r => r.rolloutId == ro.id).map (·.seq) =
    List.range ro.stages.items.length
  pair : ∀ actorID, ⟨ro.id, actorID⟩ ∈ d.2.filterMap ChildRow.asPair ↔ actorID ∈ ro.pair.items
  tasks : (d.2.filterMap ChildRow.asTask).filter (fun r => r.rolloutId == ro.id) =
    taskRowsFor ro.id ro.tasks.items
  taskSeqs : ((d.2.filterMap ChildRow.asTask).filter fun r => r.rolloutId == ro.id).map (·.seq) =
    List.range ro.tasks.items.length
  otherStages : (d.2.filterMap ChildRow.asStage).filter (fun r => !(r.rolloutId == ro.id)) =
    s.rolloutStages.filter fun r => !(r.rolloutId == ro.id)
  otherPair : (d.2.filterMap ChildRow.asPair).filter (fun r => !(r.rolloutId == ro.id)) =
    s.rolloutActors.filter fun r => !(r.rolloutId == ro.id)
  otherTasks : (d.2.filterMap ChildRow.asTask).filter (fun r => !(r.rolloutId == ro.id)) =
    s.rolloutTasks.filter fun r => !(r.rolloutId == ro.id)

/-- Versions that hold the rows of an update are the rollout as it was edited. -/
theorem Holds.editedTo {now : Int} {ro : Rollout} (h : Holds ro.id (applyUpdate now ro s) d) :
    EditedTo now ro s d := by
  have hstages : (applyUpdate now ro s).rolloutStages.filter (fun r => r.rolloutId == ro.id) =
      stageRowsFor ro.id ro.stages.items :=
    filter_replace StageRow.rolloutId ro.id stageRowsFor_rolloutId
  have htasks : (applyUpdate now ro s).rolloutTasks.filter (fun r => r.rolloutId == ro.id) =
      taskRowsFor ro.id ro.tasks.items :=
    filter_replace TaskRow.rolloutId ro.id taskRowsFor_rolloutId
  refine ⟨?_, ?_, ?_, fun actorID => ?_, ?_, ?_, ?_, ?_, ?_⟩
  · rw [h.row]
    exact find_updatedRow now ro s.rollouts
  · rw [h.stages, hstages]
  · rw [h.stages, hstages, seq_stageRowsFor]
  · rw [h.pair, applyUpdate, mem_addPairs]
    -- what was there before has been deleted
    simp
  · rw [h.tasks, htasks]
  · rw [h.tasks, htasks, seq_taskRowsFor]
  · rw [h.stages]
    exact filter_replace_others StageRow.rolloutId stageRowsFor_rolloutId
  · rw [h.pair, applyUpdate, filter_addPairs (by simp), List.filter_filter]
    simp
  · rw [h.tasks]
    exact filter_replace_others TaskRow.rolloutId taskRowsFor_rolloutId

end Alone

section Runs

variable {τ : Type} {id : String} {s : Store} {now : τ → Int} {ro : τ → Rollout}

/-- The UPDATE of the rollout comes first and takes the lock of its row. -/
theorem locksFirst_update :
    LocksFirst fun t => updateStatements (now t) (ro t) := fun _ => ⟨_, _, rfl, rfl⟩

/-- One edit after the other: the next one finds what it would have found without them. -/
theorem holds_serial (s : Store) (now : τ → Int) (hid : ∀ t, (ro t).id = id) (ts : List τ) : ∃ s',
    Holds id s'
      (serial ChildRow.key (rolloutRows id s) (fun t => updateStatements (now t) (ro t)) ts) ∧
      ∀ now' ro', ro'.id = id → applyUpdate now' ro' s' = applyUpdate now' ro' s := by
  induction ts with
  | nil => exact ⟨s, holds_rolloutRows, fun _ _ _ => rfl⟩
  | cons t ts ih =>
    obtain ⟨s', hs', hsame⟩ := ih
    refine ⟨applyUpdate (now t) (ro t) s', hs'.runAll_update (now t) (ro t), fun now' ro' h => ?_⟩
    rw [applyUpdate_applyUpdate ((hid t).trans h.symm), hsame now' ro' h]

/-- The youngest commit decides: the rows are those of its update. -/
theorem editedTo_of_run [DecidableEq τ] (hid : ∀ t, (ro t).id = id)
    {run : List (ParentLock.Action τ)}
    {st : ParentLock.State τ RolloutRow ChildRow}
    (hrun : (transactions ChildRow.key).exec
      (before (rolloutRows id s) fun t => updateStatements (now t) (ro t)) run = some st)
    {t : τ} {older : List τ} (hc : st.committed = t :: older) :
    EditedTo (now t) (ro t) s (st.view st.committed) := by
  obtain ⟨s', hs', hsame⟩ := holds_serial s now hid older
  have hview := ParentLock.serializable locksFirst_update hrun
  rw [hc] at hview ⊢
  have hlast : Holds id (applyUpdate (now t) (ro t) s') (st.view (t :: older)) := by
    rw [hview]
    exact hs'.runAll_update (now t) (ro t)
  rw [hsame _ _ (hid t)] at hlast
  apply Holds.editedTo
  rw [hid t]
  exact hlast

end Runs

/-! ## UpsertRolloutType -/

/-- The row of one type, and the tasks of all of them. -/
def typeRows (id : String) (s : Store) : Option RolloutTypeRow × List TypeTaskRow :=
  (s.rolloutTypes.find? fun r => r.id == id, s.rolloutTypeTasks)

/-- The transaction of `UpsertRolloutType`. -/
def upsertStatements (t : RolloutType) : List (Stmt RolloutTypeRow TypeTaskRow) :=
  .upsert (rolloutTypeRow t) (fun _ => rolloutTypeRow t) ::
    refill (fun r => r.typeId == t.id) (typeTaskRows t.id t.tasks.items) false

def typeTaskKey (r : TypeTaskRow) : String × Nat := (r.typeId, r.seq)

/-- The type's row and tasks are what the call asks for, and the tasks of the other types are
as they were. -/
structure TypeSetTo (t : RolloutType) (s : Store) (d : Option RolloutTypeRow × List TypeTaskRow) :
    Prop where
  row : d.1 = some (rolloutTypeRow t)
  tasks : d.2.filter (fun r => r.typeId == t.id) = typeTaskRows t.id t.tasks.items
  taskSeqs : (d.2.filter fun r => r.typeId == t.id).map (·.seq) = List.range t.tasks.items.length
  others : d.2.filter (fun r => !(r.typeId == t.id)) =
    s.rolloutTypeTasks.filter fun r => !(r.typeId == t.id)

theorem typeTaskRows_typeId {id : String} {tasks : List String} :
    ∀ r ∈ typeTaskRows id tasks, r.typeId = id := by
  intro r hr
  obtain ⟨d, -, rfl⟩ := List.mem_map.mp hr
  rfl

/-- Run alone, whatever was there. -/
theorem runAll_upsert (t : RolloutType) (d : Option RolloutTypeRow × List TypeTaskRow) :
    runAll typeTaskKey (upsertStatements t) d =
      (some (rolloutTypeRow t), (d.2.filter fun r => !(r.typeId == t.id))
        ++ typeTaskRows t.id t.tasks.items) := by
  have hrow : d.1.elim (rolloutTypeRow t) (fun _ => rolloutTypeRow t) = rolloutTypeRow t := by
    cases d.1 <;> rfl
  have htasks : (typeTaskRows t.id t.tasks.items).foldl (addRow typeTaskKey)
      (d.2.filter fun r => !(r.typeId == t.id)) = _ :=
    foldl_refill typeTaskRows_typeId (seq_typeTaskRows _) d.2
  rw [upsertStatements, ← List.singleton_append, ParentLock.runAll_append, ParentLock.runAll_refill]
  show (some (d.1.elim _ _), _) = _
  rw [hrow]
  exact congrArg _ htasks

/-- The row of an upsert is found under its id. -/
theorem find_upsertRow {ρ : Type} (key : ρ → String) (row : ρ) (rows : List ρ) :
    (upsertRow key row rows).find? (fun r => key r == key row) = some row := by
  unfold upsertRow
  split
  · next hold =>
    induction rows with
    | nil => cases hold
    | cons r rows ih =>
      by_cases hr : key r = key row
      · rw [List.map_cons, if_pos hr, List.find?_cons_of_pos (by simp)]
      · rw [List.map_cons, if_neg hr, List.find?_cons_of_neg (by simpa using hr)]
        apply ih
        simpa [hr] using hold
  · next hnew =>
    rw [List.find?_append, List.find?_eq_none.mpr, List.find?_cons_of_pos (by simp)]
    · rfl
    · intro r hr hk
      exact hnew (List.any_eq_true.mpr ⟨r, hr, hk⟩)

/-- The statements run alone are `applyRolloutType`. -/
theorem runAll_upsert_typeRows (t : RolloutType) (s : Store) :
    runAll typeTaskKey (upsertStatements t) (typeRows t.id s) =
      typeRows t.id (applyRolloutType t s) := by
  have hrow : (applyRolloutType t s).rolloutTypes.find? (fun r => r.id == t.id) =
      some (rolloutTypeRow t) := find_upsertRow RolloutTypeRow.id (rolloutTypeRow t) s.rolloutTypes
  rw [runAll_upsert, typeRows, typeRows, hrow]
  rfl

section TypeRuns

variable {τ : Type} {id : String} {s : Store} {ty : τ → RolloutType}

/-- The upsert of the type comes first and takes the lock of its row. -/
theorem locksFirst_upsert : LocksFirst fun t => upsertStatements (ty t) := fun _ => ⟨_, _, rfl, rfl⟩

/-- The tasks of other types after any number of calls. -/
theorem others_serial (s : Store) (hid : ∀ t, (ty t).id = id) (ts : List τ) :
    (serial typeTaskKey (typeRows id s) (fun t => upsertStatements (ty t)) ts).2.filter
      (fun r => !(r.typeId == id)) = s.rolloutTypeTasks.filter fun r => !(r.typeId == id) := by
  induction ts with
  | nil => rfl
  | cons t ts ih =>
    obtain rfl := hid t
    rw [serial, runAll_upsert]
    exact (filter_replace_others TypeTaskRow.typeId typeTaskRows_typeId).trans ih

/-- The youngest commit decides here too. -/
theorem typeSetTo_of_run [DecidableEq τ] (hid : ∀ t, (ty t).id = id)
    {run : List (ParentLock.Action τ)} {st : ParentLock.State τ RolloutTypeRow TypeTaskRow}
    (hrun : (transactions typeTaskKey).exec
      (before (typeRows id s) fun t => upsertStatements (ty t)) run = some st)
    {t : τ} {older : List τ} (hc : st.committed = t :: older) :
    TypeSetTo (ty t) s (st.view st.committed) := by
  have hview := ParentLock.serializable locksFirst_upsert hrun
  have hothers := others_serial s hid (t :: older)
  obtain rfl := hid t
  rw [hc] at hview ⊢
  rw [serial, runAll_upsert] at hothers hview
  rw [hview]
  refine ⟨rfl, ?_, ?_, hothers⟩
  · exact filter_replace TypeTaskRow.typeId (ty t).id typeTaskRows_typeId
  · show ((List.filter _ _).map _) = _
    rw [filter_replace TypeTaskRow.typeId (ty t).id typeTaskRows_typeId, seq_typeTaskRows]

end TypeRuns

/-- **Concurrent edits do not mix**: once a transaction has committed, whatever the others have
done in between and whatever becomes of them, the rows are the ones the last to commit has
asked for. -/
theorem edits_do_not_mix :
    (∀ (τ : Type) [DecidableEq τ] (id : String) (now : τ → Int) (ro : τ → Rollout) (s : Store)
      (run : List (ParentLock.Action τ)) (st : ParentLock.State τ RolloutRow ChildRow),
      (∀ t, (ro t).id = id) →
      (transactions ChildRow.key).exec
        (before (rolloutRows id s) fun t => updateStatements (now t) (ro t)) run = some st →
      (st.committed = [] → st.view st.committed = rolloutRows id s) ∧
        ∀ t older, st.committed = t :: older → EditedTo (now t) (ro t) s (st.view st.committed)) ∧
    ∀ (τ : Type) [DecidableEq τ] (id : String) (ty : τ → RolloutType) (s : Store)
      (run : List (ParentLock.Action τ)) (st : ParentLock.State τ RolloutTypeRow TypeTaskRow),
      (∀ t, (ty t).id = id) →
      (transactions typeTaskKey).exec
        (before (typeRows id s) fun t => upsertStatements (ty t)) run = some st →
      (st.committed = [] → st.view st.committed = typeRows id s) ∧
        ∀ t older, st.committed = t :: older → TypeSetTo (ty t) s (st.view st.committed) := by
  constructor
  · intro τ _ id now ro s run st hid hrun
    refine ⟨fun hc => ?_, fun t older hc => editedTo_of_run hid hrun hc⟩
    rw [ParentLock.serializable locksFirst_update hrun, hc]
    rfl
  · intro τ _ id ty s run st hid hrun
    refine ⟨fun hc => ?_, fun t older hc => typeSetTo_of_run hid hrun hc⟩
    rw [ParentLock.serializable locksFirst_upsert hrun, hc]
    rfl

/-- Two edits of one rollout: one has new stages, the other one a new pair and a task. -/
def twoEdits (t : Bool) : Rollout :=
  { id := "r1", productId := "p1", typeId := "t1", title := if t then "Rollout A" else "Rollout B"
    descExt := "", descInt := "", risks := ""
    stages := some (if t then [⟨"prod1", 0, 0, "planned"⟩, ⟨"prod2", 0, 0, "planned"⟩] else [])
    pair := some (if t then [] else ["anna", "anna"])
    tasks := some (if t then [] else [⟨0, "check", "", "", "", none⟩])
    createdAt := 0, updatedAt := 0, createdBy := "" }

/-- What both found. -/
def beforeEdits : Store :=
  { Store.empty with
    rollouts := [⟨"r1", "p1", "t1", "Rollout", "", "", "", 0, 0, none⟩]
    rolloutStages := [⟨"r1", 0, "prod1", 5, 5, "planned"⟩, ⟨"r2", 0, "prod1", 5, 5, "planned"⟩]
    rolloutActors := [⟨"r1", "ben"⟩] }

/-- The second starts while the first is under way, and gets no further before its commit. -/
def editsRun : List (Action Bool) :=
  [Action.start true, .finish true, .start false]
    ++ ((List.replicate 5 [Action.start true, .finish true]).flatten ++
      [Action.commit true, .finish false])
    ++ (List.replicate 6 [Action.start false, .finish false]).flatten ++ [Action.commit false]

/-- Two versions of a new rollout type. -/
def twoTypes (t : Bool) : RolloutType :=
  { id := "t1", name := if t then "Type A" else "Type B", short := "T", tone := "info"
    delayProd1 := 0, delayProd2 := 0, cascadePlan := none, announce := "", rules := some []
    tasks := some (if t then ["check", "deploy"] else []) }

/-- The one with two tasks commits last. -/
def typesRun : List (Action Bool) :=
  [Action.start false, .finish false, .start true, .start false, .finish false, .commit false]
    ++ [Action.finish true] ++ (List.replicate 3 [Action.start true, .finish true]).flatten ++
      [Action.commit true]

/-- Two edits of a rollout and two of a type, each time one waiting for the other. -/
theorem edits_do_not_mix_waiting :
    (∃ st : ParentLock.State Bool RolloutRow ChildRow,
      (transactions ChildRow.key).exec
        (before (rolloutRows "r1" beforeEdits) fun t => updateStatements 7 (twoEdits t)) editsRun =
          some st ∧
        st.committed = [false, true] ∧
        EditedTo 7 (twoEdits false) beforeEdits (st.view st.committed)) ∧
    ∃ st : ParentLock.State Bool RolloutTypeRow TypeTaskRow,
      (transactions typeTaskKey).exec
        (before (typeRows "t1" Store.empty) fun t => upsertStatements (twoTypes t)) typesRun =
          some st ∧
        st.committed = [true, false] ∧
        TypeSetTo (twoTypes true) Store.empty (st.view st.committed) := by
  constructor
  · have hends : ((transactions ChildRow.key).exec
        (before (rolloutRows "r1" beforeEdits) fun t => updateStatements 7 (twoEdits t))
        editsRun).map (·.committed) = some [false, true] := by decide
    obtain ⟨st, hrun, hc⟩ := Option.map_eq_some_iff.mp hends
    have hmix := (edits_do_not_mix.1 Bool "r1" (fun _ => 7) twoEdits beforeEdits editsRun st
      (fun t => rfl) hrun).2
    exact ⟨st, hrun, hc, hmix false [true] hc⟩
  · have hends : ((transactions typeTaskKey).exec
        (before (typeRows "t1" Store.empty) fun t => upsertStatements (twoTypes t))
        typesRun).map (·.committed) = some [true, false] := by decide
    obtain ⟨st, hrun, hc⟩ := Option.map_eq_some_iff.mp hends
    have hmix := (edits_do_not_mix.2 Bool "t1" twoTypes Store.empty typesRun st
      (fun t => rfl) hrun).2
    exact ⟨st, hrun, hc, hmix true [false] hc⟩

end Repository

end ReleaseRadar
