import ReleaseRadar.Lib.Reading
import ReleaseRadar.Store.Schema

/-!
# Reading while others write

`Rollout` and `Rollouts` ask four queries and do not ask them in a transaction, so each of them
finds what has been committed by then. The writers are `CreateRollout`, `UpdateRollout`,
`UpdateRolloutTask` and `DeleteRollout`.

* `rolloutReading`, `rolloutsReading` — the two reads with their queries laid open
  (`toDb_rolloutReading`, `toDb_rolloutsReading`);
* `read_moments` — the row, the stages, the pair and the tasks are each as stored at the moment
  of their own query. Unless `UpdateRollout` or `DeleteRollout` commits on the rollout in
  between, that is the rollout as stored at the moment of the last one;
* `read_mixture` — such a commit does mix.
-/

namespace ReleaseRadar

open Lib

namespace Repository

/-! ## The reads, query by query -/

def askRow {β : Type} (params : List String) (f : Store → Except Err β) : Reading Store Err β :=
  .row (fun s => if params.any hasNul then .error (.pg "22021") else f s) .done

def askRows {ρ : Type} (params : List String) (f : Store → List ρ) : Reading Store Err
    (Rows ρ Err) :=
  .query (fun s => if params.any hasNul then .error (.pg "22021") else .ok (f s)) .done

def hydrateReading (ro : Rollout) : Reading Store Err Rollout := do
  let stages ← askRows [ro.id] fun s => (stageRows s ro.id).map scanStage
  let pair ← askRows [ro.id] fun s => (pairRows s ro.id).map (·.actorId)
  let tasks ← askRows [ro.id] fun s => (taskRows s ro.id).map scanTask
  pure { ro with stages := some stages.seen, pair := some pair.seen, tasks := some tasks.seen }

def findRollout (id : String) (s : Store) : Except Err Rollout :=
  match s.rollouts.find? fun r => r.id == id with
  | none => .error .notFound
  | some r => .ok (scanRollout r)

def rolloutReading (id : String) : Reading Store Err Rollout := do
  let ro ← askRow [id] (findRollout id)
  hydrateReading ro

def appendReading {ρ : Type} (append : List Rollout → ρ → List Rollout) (rows : Rows ρ Err)
    (rollouts : List Rollout) : Reading Store Err (List Rollout) :=
  match rows.err with
  | none => pure (rows.seen.foldl append rollouts)
  | some e => .throw e

def hydrateAllReading (rollouts : List Rollout) : Reading Store Err (List Rollout) := do
  let rollouts := rollouts.map fun ro =>
    { ro with stages := some [], pair := some [], tasks := some [] }
  if rollouts.isEmpty then pure rollouts
  else do
    let ids := rollouts.map (·.id)
    let idx := indexOf rollouts
    let srows ← askRows ids fun s =>
      orderBy (·.rolloutId) (orderBy (·.seq)
        (s.rolloutStages.filter fun r => ids.contains r.rolloutId))
    let rollouts ← appendReading (appendStage idx) srows rollouts
    let arows ← askRows ids fun s => s.rolloutActors.filter fun r => ids.contains r.rolloutId
    let rollouts ← appendReading (appendPair idx) arows rollouts
    let trows ← askRows ids fun s =>
      orderBy (·.rolloutId) (orderBy (·.seq)
        (s.rolloutTasks.filter fun r => ids.contains r.rolloutId))
    appendReading (appendTask idx) trows rollouts

def rolloutsReading : Reading Store Err (List Rollout) := do
  let rows ← askRows [] fun s => (orderBy (-·.createdAt) s.rollouts).map scanRollout
  let out ← Reading.checked rows
  hydrateAllReading out

/-- Handing out rows is the same, whichever moment they are of. -/
theorem toDb_appendReading {ρ : Type} (append : List Rollout → ρ → List Rollout) (rows : Rows ρ Err)
    (rollouts : List Rollout) :
    (appendReading append rows rollouts).toDb = appendRows append rows rollouts := by
  obtain ⟨seen, err⟩ := rows
  cases err <;> rfl

/-- At one moment the reads of one rollout are `hydrate`. -/
theorem toDb_hydrateReading (ro : Rollout) : (hydrateReading ro).toDb = hydrate ro := by
  unfold hydrateReading hydrate
  rw [Reading.toDb_bind, askRows, Reading.toDb_query]
  refine congrArg _ (funext fun stages => ?_)
  rw [Reading.toDb_bind, askRows, Reading.toDb_query]
  refine congrArg _ (funext fun pair => ?_)
  rw [Reading.toDb_bind, askRows, Reading.toDb_query]
  rfl

/-- The queries are those of `Rollout`. -/
theorem toDb_rolloutReading (id : String) : (rolloutReading id).toDb = rollout id := by
  unfold rolloutReading rollout
  rw [Reading.toDb_bind]
  refine congrArg₂ (· >>= ·) ?_ (funext toDb_hydrateReading)
  unfold askRow stmt
  rw [Reading.toDb_row]
  refine congrArg Db.call (funext fun s => ?_)
  unfold findRollout
  by_cases hnul : [id].any hasNul = true
  · rw [if_pos hnul, if_pos hnul]
    rfl
  · rw [if_neg hnul, if_neg hnul]
    dsimp only
    cases s.rollouts.find? fun r => r.id == id <;> rfl

/-- Those of all are `hydrateAll`. -/
theorem toDb_hydrateAllReading (rollouts : List Rollout) :
    (hydrateAllReading rollouts).toDb = hydrateAll rollouts := by
  unfold hydrateAllReading hydrateAll
  dsimp only
  split
  · rfl
  · rw [Reading.toDb_bind, askRows, Reading.toDb_query]
    refine congrArg _ (funext fun srows => ?_)
    rw [Reading.toDb_bind, toDb_appendReading]
    refine congrArg _ (funext fun out₁ => ?_)
    rw [Reading.toDb_bind, askRows, Reading.toDb_query]
    refine congrArg _ (funext fun arows => ?_)
    rw [Reading.toDb_bind, toDb_appendReading]
    refine congrArg _ (funext fun out₂ => ?_)
    rw [Reading.toDb_bind, askRows, Reading.toDb_query]
    exact congrArg _ (funext fun trows => toDb_appendReading ..)

/-- The queries are those of `Rollouts`. -/
theorem toDb_rolloutsReading : rolloutsReading.toDb = rollouts := by
  unfold rolloutsReading rollouts
  rw [Reading.toDb_bind, askRows, Reading.toDb_query]
  refine congrArg _ (funext fun rows => ?_)
  rw [Reading.toDb_bind, Reading.toDb_checked]
  exact congrArg _ (funext toDb_hydrateAllReading)

/-- A rollout put together from a row and the tables at three moments. -/
def assembled (s₁ s₂ s₃ : Store) (r : RolloutRow) : Rollout :=
  { scanRollout r with
    stages := some (stagesOf s₁ r.id)
    pair := some ((pairRows s₂ r.id).map (·.actorId))
    tasks := some (tasksOf s₃ r.id) }

section Moments

variable {F : Faults Err} {store : Nat → Store}

/-- A query that went well has read the rows of its moment, up to where they were cut. -/
theorem askRows_ok {ρ α : Type} {params : List String} {f : Store → List ρ}
    {k : Rows ρ Err → Reading Store Err α} {n : Nat} {a : α}
    (h : (askRows params f >>= k).result F store n = .ok a) :
    params.any hasNul = false ∧ ∃ rows, (rows.err = none → rows.seen = f (store n)) ∧
      ((∀ i e, F n ≠ some (.cut i e)) → rows.err = none) ∧
        (k rows).result F store (n + 1) = .ok a := by
  obtain ⟨rows, all, hall, hseen, hcut, h⟩ := Reading.result_query h
  split at hall
  · cases hall
  · next hnul =>
    obtain rfl := Except.ok.inj hall
    exact ⟨Bool.not_eq_true _ ▸ hnul, rows, hseen, hcut, h⟩

/-- Rows are handed out only if they were not cut. -/
theorem appendReading_ok {ρ α : Type} {append : List Rollout → ρ → List Rollout} {rows : Rows ρ Err}
    {rollouts : List Rollout} {k : List Rollout → Reading Store Err α} {n : Nat} {a : α}
    (h : (appendReading append rows rollouts >>= k).result F store n = .ok a) :
    rows.err = none ∧ (k (rows.seen.foldl append rollouts)).result F store n = .ok a := by
  obtain ⟨seen, err⟩ := rows
  cases err with
  | none => exact ⟨rfl, h⟩
  | some e => cases h

/-- The last table too. -/
theorem appendReading_last {ρ : Type} {append : List Rollout → ρ → List Rollout} {rows : Rows ρ Err}
    {rollouts out : List Rollout} {n : Nat}
    (h : (appendReading append rows rollouts).result F store n = .ok out) :
    rows.err = none ∧ rows.seen.foldl append rollouts = out := by
  obtain ⟨seen, err⟩ := rows
  cases err with
  | none => exact ⟨rfl, Except.ok.inj h⟩
  | some e => cases h

/-- Each part of a rollout is as stored when the query for it was answered. -/
theorem rolloutReading_ok {id : String} {ro : Rollout} (hcut : ∀ n i e, F n ≠ some (.cut i e))
    (h : (rolloutReading id).result F store 0 = .ok ro) :
    hasNul id = false ∧ ∃ r, (store 0).rollouts.find? (fun r => r.id == id) = some r ∧
      ro = assembled (store 1) (store 2) (store 3) r := by
  obtain ⟨ro₀, hrow, h⟩ := Reading.result_row h
  obtain ⟨hnul, stages, hstages, hst, h⟩ := askRows_ok h
  obtain ⟨-, pair, hpair, hp, h⟩ := askRows_ok h
  obtain ⟨-, tasks, htasks, ht, h⟩ := askRows_ok h
  split at hrow
  · cases hrow
  · unfold findRollout at hrow
    split at hrow
    · cases hrow
    · next r hr =>
      obtain rfl := Except.ok.inj hrow
      obtain rfl := Except.ok.inj h
      have hid : r.id = id := by simpa using List.find?_some hr
      refine ⟨?_, r, hr, ?_⟩
      · have hscan : hasNul (scanRollout r).id = false := by simpa using hnul
        rw [← hid]
        exact hscan
      · rw [hstages (hst (hcut 1)), hpair (hp (hcut 2)), htasks (ht (hcut 3))]
        rfl

/-- Each rollout has the stages, the pair and the tasks of three moments, one after the other. -/
theorem hydrateAllReading_ok {rollouts out : List Rollout} {n : Nat}
    (hnodup : (rollouts.map (·.id)).Nodup)
    (h : (hydrateAllReading rollouts).result F store n = .ok out) :
    (rollouts.map (·.id)).any hasNul = false ∧ out = rollouts.map fun ro =>
      { ro with
        stages := some (stagesOf (store n) ro.id)
        pair := some ((pairRows (store (n + 1)) ro.id).map (·.actorId))
        tasks := some (tasksOf (store (n + 2)) ro.id) } := by
  unfold hydrateAllReading at h
  dsimp only at h
  split at h
  · next he =>
    obtain rfl := Except.ok.inj h
    rw [List.isEmpty_iff, List.map_eq_nil_iff] at he
    subst he
    exact ⟨rfl, rfl⟩
  · obtain ⟨hnul, srows, hs, -, h⟩ := askRows_ok h
    obtain ⟨hs', h⟩ := appendReading_ok h
    obtain ⟨-, arows, ha, -, h⟩ := askRows_ok h
    obtain ⟨ha', h⟩ := appendReading_ok h
    obtain ⟨-, trows, ht, -, h⟩ := askRows_ok h
    obtain ⟨ht', rfl⟩ := appendReading_last h
    rw [hs hs', ha ha', ht ht']
    refine ⟨?_, handOut_eq hnodup rfl (store n) (store (n + 1)) (store (n + 2))⟩
    rw [List.map_map] at hnul
    exact hnul

/-- The rows are as stored when the first query was answered, and each of the three tables when
its own was, in whatever way the queries fail. -/
theorem rolloutsReading_ok {out : List Rollout} (hids : ((store 0).rollouts.map (·.id)).Nodup)
    (h : rolloutsReading.result F store 0 = .ok out) : ∀ ro ∈ out, hasNul ro.id = false ∧
      ∃ r ∈ (store 0).rollouts, ro = assembled (store 1) (store 2) (store 3) r := by
  obtain ⟨-, rows, hrows, -, h⟩ := askRows_ok h
  obtain ⟨seen, err⟩ := rows
  cases err with
  | some e => cases h
  | none =>
    obtain rfl := hrows rfl
    have hnodup : (((orderBy (-·.createdAt) (store 0).rollouts).map scanRollout).map
      (·.id)).Nodup := by
      rw [List.map_map]
      exact ((List.perm_insertionSort _ _).map _).nodup_iff.mpr hids
    obtain ⟨hnul, rfl⟩ := hydrateAllReading_ok hnodup h
    intro ro hro
    obtain ⟨ro₀, hro₀, rfl⟩ := List.mem_map.mp hro
    obtain ⟨r, hr, rfl⟩ := List.mem_map.mp hro₀
    refine ⟨?_, r, (List.mem_insertionSort _).mp hr, rfl⟩
    have hnone := List.any_eq_false.mp hnul _ (List.mem_map_of_mem hro₀)
    simpa using hnone

end Moments

/-! ## The writers -/

/-- A transaction that another request may commit in the meantime. -/
inductive Commit
  | create (now : Int) (ro : Rollout) (tasks : List String)
  | update (now : Int) (ro : Rollout)
  | task (now : Int) (id : String) (seq : Int) (status reason by_ : String)
  | delete (id : String)

namespace Commit

def program : Commit → Repo Unit
  | create now ro tasks => createRolloutTx now ro tasks
  | update now ro => updateRolloutTx now ro
  | task now id seq status reason by_ => updateRolloutTask now id seq status reason by_
  | delete id => deleteRollout id

/-- What the transaction leaves behind, if only that it has failed. -/
def apply (c : Commit) (s : Store) : Store := (c.program.run s).2

/-- The transaction replaces the stages and the pair of the rollout, or removes them. -/
def rewrites (id : String) : Commit → Bool
  | update _ ro => ro.id == id
  | delete id' => id' == id
  | create .. | task .. => false

end Commit

/-- What a transaction can do. -/
theorem apply_cases (c : Commit) (s : Store) : c.apply s = s ∨
    (∃ now ro tasks, c = .create now ro tasks ∧ s.hasRollout ro.id = false ∧
      hasNul ro.id = false ∧ c.apply s = applyCreate now ro tasks s) ∨
    (∃ now ro, c = .update now ro ∧ c.apply s = applyUpdate now ro s) ∨
    (∃ now id seq status reason by_, c = .task now id seq status reason by_ ∧
      c.apply s = applyTask now id seq status reason by_ s) ∨
    ∃ id, c = .delete id ∧ c.apply s = applyDelete id s := by
  cases hrun : c.program.run s with
  | mk res s' =>
    have happly : c.apply s = s' := congrArg Prod.snd hrun
    rw [happly]
    obtain ⟨c', hm, rfl⟩ := run_eq hrun
    cases c with
    | create now ro tasks =>
      have hm : createRolloutTx now ro tasks Db.noFaults ⟨s, 0⟩ = (res, c') := hm
      cases res with
      | error e => exact Or.inl (Db.tx_error_store hm)
      | ok u =>
        obtain ⟨hnew, htext, hstore⟩ := createRolloutTx_ok hm
        exact Or.inr (Or.inl ⟨now, ro, tasks, rfl, hnew, htext, hstore⟩)
    | update now ro =>
      have hm : updateRolloutTx now ro Db.noFaults ⟨s, 0⟩ = (res, c') := hm
      cases res with
      | error e => exact Or.inl (Db.tx_error_store hm)
      | ok u => exact Or.inr (Or.inr (Or.inl ⟨now, ro, rfl, (updateRolloutTx_ok hm).2.2⟩))
    | task now id seq status reason by_ =>
      cases res with
      | error e => exact Or.inl (updateRolloutTask_error hm)
      | ok u =>
        exact Or.inr (Or.inr (Or.inr (Or.inl
          ⟨now, id, seq, status, reason, by_, rfl, updateRolloutTask_ok hm⟩)))
    | delete id =>
      rw [← happly]
      exact (deleteRollout_run id s).imp_right fun hdel =>
        Or.inr (Or.inr (Or.inr ⟨id, rfl, hdel⟩))

/-- The rollout's row, stages and pair are the same. -/
structure Kept (id : String) (s s' : Store) : Prop where
  row : s'.rollouts.find? (fun r => r.id == id) = s.rollouts.find? fun r => r.id == id
  stages : stagesOf s' id = stagesOf s id
  pair : pairRows s' id = pairRows s id

/-- Nothing has happened. -/
theorem Kept.refl (id : String) (s : Store) : Kept id s s := ⟨rfl, rfl, rfl⟩

section Kept

variable {id : String} {s : Store}

/-- The pair of another rollout stays. -/
theorem pairRows_addPairs {id' : String} (h : id' ≠ id) (rows : List PairRow) (pair : List String) :
    (addPairs id' rows pair).filter (fun r => r.rolloutId == id) =
      rows.filter fun r => r.rolloutId == id :=
  filter_addPairs (fun _ => by simpa using h) rows pair

/-- A create of another id keeps the rollout. -/
theorem kept_create (now : Int) {ro : Rollout} (tasks : List String) (hne : ro.id ≠ id)
    (hhas : s.hasRollout id = true) : Kept id s (applyCreate now ro tasks s) where
  row := by
    rw [hasRollout_eq_find] at hhas
    obtain ⟨r, hr⟩ := Option.isSome_iff_exists.mp hhas
    show (s.rollouts ++ [createdRow now ro]).find? _ = _
    rw [List.find?_append, hr]
    rfl
  stages := stagesOf_applyCreate_ne now tasks s hne.symm
  pair := pairRows_addPairs hne _ _

/-- An update of another one does. -/
theorem kept_update (now : Int) {ro : Rollout} (hne : ro.id ≠ id) :
    Kept id s (applyUpdate now ro s) where
  row := by
    show (s.rollouts.map (updatedRow now ro)).find? _ = _
    rw [find_updatedRow]
    cases hr : s.rollouts.find? fun r => r.id == id with
    | none => rfl
    | some r =>
      have hid : r.id = id := by simpa using List.find?_some hr
      show some (updatedRow now ro r) = some r
      rw [updatedRow, if_neg (by rw [hid]; exact hne.symm)]
  stages := stagesOf_applyUpdate_ne now s hne.symm
  pair := by
    show (addPairs ro.id _ _).filter _ = _
    rw [pairRows_addPairs hne]
    exact filter_other PairRow.rolloutId hne.symm _

/-- A delete of another one does. -/
theorem kept_delete {id' : String} (hne : id' ≠ id) : Kept id s (applyDelete id' s) where
  row := by
    show (s.rollouts.filter fun r => !(r.id == id')).find? _ = _
    rw [List.find?_filter]
    refine congrArg (s.rollouts.find? ·) (funext fun r => ?_)
    by_cases hr : r.id = id
    · simp [hr, hne.symm]
    · simp [hr]
  stages := stagesOf_applyDelete_ne s hne.symm
  pair := filter_other PairRow.rolloutId hne.symm _

/-- One commit after the other. -/
theorem Kept.trans {s' s'' : Store} (h : Kept id s s') (h' : Kept id s' s'') : Kept id s s'' :=
  ⟨h'.row.trans h.row, h'.stages.trans h.stages, h'.pair.trans h.pair⟩

/-- A rollout that is kept is still there, and none appears. -/
theorem Kept.hasRollout {s' : Store} (h : Kept id s s') : s'.hasRollout id = s.hasRollout id := by
  rw [hasRollout_eq_find, hasRollout_eq_find, h.row]

/-- The writers that do not rewrite the rollout keep it. -/
theorem kept_apply {c : Commit} (hc : c.rewrites id = false) (hhas : s.hasRollout id = true) :
    Kept id s (c.apply s) := by
  rcases apply_cases c s with hsame | ⟨now, ro, tasks, rfl, hnew, -, hstore⟩ | ⟨now, ro,
    rfl, hstore⟩ |
    ⟨now, id', seq, status, reason, by_, rfl, hstore⟩ | ⟨id', rfl, hstore⟩
  · rw [hsame]
    exact Kept.refl id s
  · rw [hstore]
    refine kept_create now tasks ?_ hhas
    rintro rfl
    rw [hnew] at hhas
    cases hhas
  · rw [hstore]
    exact kept_update now (by simpa [Commit.rewrites] using hc)
  · rw [hstore]
    exact ⟨rfl, rfl, rfl⟩
  · rw [hstore]
    exact kept_delete (by simpa [Commit.rewrites] using hc)

/-- The primary key of `rollouts` survives every transaction. -/
theorem rolloutKeys_apply (c : Commit) (hk : RolloutKeys s) : RolloutKeys (c.apply s) := by
  rcases apply_cases c s with hsame | ⟨now, ro, tasks, -, hnew, htext, hstore⟩ | ⟨now, ro,
    -, hstore⟩ |
    ⟨now, id', seq, status, reason, by_, -, hstore⟩ | ⟨id', -, hstore⟩
  · rw [hsame]
    exact hk
  · rw [hstore]
    exact rolloutKeys_applyCreate hk hnew htext
  · rw [hstore]
    exact rolloutKeys_applyUpdate hk
  · rw [hstore]
    exact ⟨hk.ids, hk.text⟩
  · rw [hstore]
    exact rolloutKeys_applyDelete hk

end Kept

/-! ## What a read returns -/

/-- What the `n`-th query finds. -/
def Commit.storeAt (s : Store) (I : Interleaving Commit) (n : Nat) : Store :=
  I.store Commit.apply s n

/-- The parts of the rollout are as stored at the moments of their queries, and they are all as
stored at the moment of the last one unless the rollout is rewritten in between. -/
structure AsStored (s : Store) (I : Interleaving Commit) (ro : Rollout) : Prop where
  parts : ∃ r ∈ (Commit.storeAt s I 0).rollouts, ro =
    assembled (Commit.storeAt s I 1) (Commit.storeAt s I 2) (Commit.storeAt s I 3) r
  moment : (∀ c ∈ I.between 0 3, c.rewrites ro.id = false) →
    (rollout ro.id).run (Commit.storeAt s I 3) = (.ok ro, Commit.storeAt s I 3)

section Reads

variable {s : Store} {I : Interleaving Commit}

/-- The keys hold at every moment. -/
theorem rolloutKeys_storeAt (hk : RolloutKeys s) (n : Nat) : RolloutKeys (Commit.storeAt s I n) :=
  Interleaving.store_induction (fun c _ h => rolloutKeys_apply c h) hk n

/-- Up to the last query nothing happens to a rollout that is not rewritten. -/
theorem kept_storeAt {id : String} (hhas : (Commit.storeAt s I 0).hasRollout id = true)
    (hc : ∀ c ∈ I.between 0 3, c.rewrites id = false) {n : Nat} (hn : n ≤ 3) :
    Kept id (Commit.storeAt s I 0) (Commit.storeAt s I n) := by
  apply Interleaving.between_induction (m := 0) (Nat.zero_le n)
    (P := fun t => Kept id (Commit.storeAt s I 0) t)
  · intro c hmem t ht
    have hkept : c.rewrites id = false := hc c (Interleaving.between_subset hn hmem)
    exact ht.trans (kept_apply hkept (ht.hasRollout.trans hhas))
  · exact Kept.refl id _

/-- Parts of a rollout no commit between the reads touches are the rollout as stored. -/
theorem asStored_of_parts (hk : RolloutKeys s) {r : RolloutRow}
    (hr : r ∈ (Commit.storeAt s I 0).rollouts) :
    AsStored s I
      (assembled (Commit.storeAt s I 1) (Commit.storeAt s I 2) (Commit.storeAt s I 3) r) where
  parts := ⟨r, hr, rfl⟩
  moment hc := by
    show (rollout r.id).run _ = _
    have hfind := find_of_mem (rolloutKeys_storeAt hk 0) hr
    have hhas : (Commit.storeAt s I 0).hasRollout r.id = true := by
      rw [hasRollout_eq_find, hfind]
      rfl
    have h₁ := kept_storeAt hhas hc (n := 1) (by omega)
    have h₂ := kept_storeAt hhas hc (n := 2) (by omega)
    have h₃ := kept_storeAt hhas hc (n := 3) (by omega)
    have hsame : hydrated (Commit.storeAt s I 3) r =
        assembled (Commit.storeAt s I 1) (Commit.storeAt s I 2) (Commit.storeAt s I 3) r := by
      unfold hydrated assembled
      rw [h₃.stages, h₁.stages, h₃.pair, h₂.pair]
    rw [rollout_run, (rolloutKeys_storeAt hk 0).text r hr, if_neg (by simp), h₃.row, hfind, ← hsame]

/-- **What is read is stored**: a rollout that is returned without an error has its row, its
stages, its pair and its tasks each as stored at the moment of their own query, and is the
rollout as stored at the moment of the last query unless an `UpdateRollout` or a
`DeleteRollout` of it commits between the first and the last. -/
theorem read_moments (hk : RolloutKeys s) (I : Interleaving Commit) (F : Faults Err) :
    (∀ id ro, (∀ n i e, F n ≠ some (.cut i e)) →
      (rolloutReading id).result F (Commit.storeAt s I) 0 = .ok ro →
        ro.id = id ∧ AsStored s I ro) ∧
    ∀ ros, rolloutsReading.result F (Commit.storeAt s I) 0 = .ok ros →
      ∀ ro ∈ ros, AsStored s I ro := by
  constructor
  · intro id ro hcut h
    obtain ⟨-, r, hr, rfl⟩ := rolloutReading_ok hcut h
    have hid : r.id = id := by simpa using List.find?_some hr
    exact ⟨hid, asStored_of_parts hk (List.mem_of_find?_eq_some hr)⟩
  · intro ros h ro hro
    obtain ⟨-, r, hr, rfl⟩ := rolloutsReading_ok (rolloutKeys_storeAt hk 0).ids h ro hro
    exact asStored_of_parts hk hr

end Reads

/-- A result that is no error has a value. -/
theorem exists_ok {ε α : Type} {r : Except ε α} (h : r.isOk = true) : ∃ a, r = .ok a := by
  cases r with
  | error e => cases h
  | ok a => exact ⟨a, rfl⟩

/-- One rollout with a stage, and another one. -/
def beforeReads : Store :=
  { Store.empty with
    rollouts := [⟨"r1", "p1", "t1", "Rollout A", "", "", "", 0, 0, none⟩,
      ⟨"r2", "p1", "t1", "Rollout", "", "", "", 0, 0, none⟩]
    rolloutStages := [⟨"r1", 0, "prod1", 0, 0, "planned"⟩]
    rolloutTasks := [⟨"r1", 0, "check", "", "", none, none⟩] }

theorem rolloutKeys_beforeReads : RolloutKeys beforeReads := ⟨by decide, by decide⟩

/-- A task is completed and another rollout deleted, each before a query of its own. -/
def completedMeanwhile : Interleaving Commit where
  commits := [.task 7 "r1" 0 "done" "" "", .delete "r2"]
  seen n := n
  mono _ _ h := h

theorem read_moments_completed :
    (∃ ro, (rolloutReading "r1").result Db.noFaults
        (Commit.storeAt beforeReads completedMeanwhile) 0 = .ok ro ∧
      AsStored beforeReads completedMeanwhile ro ∧
      (rollout "r1").run (Commit.storeAt beforeReads completedMeanwhile 3) =
        (.ok ro, Commit.storeAt beforeReads completedMeanwhile 3)) ∧
    ∃ ros, rolloutsReading.result Db.noFaults
        (Commit.storeAt beforeReads completedMeanwhile) 0 = .ok ros ∧
      ∀ ro ∈ ros, AsStored beforeReads completedMeanwhile ro := by
  obtain ⟨hone, hall⟩ := read_moments rolloutKeys_beforeReads completedMeanwhile Db.noFaults
  constructor
  · obtain ⟨ro, hro⟩ := exists_ok (show ((rolloutReading "r1").result Db.noFaults
      (Commit.storeAt beforeReads completedMeanwhile) 0).isOk = true by decide)
    obtain ⟨hid, hstored⟩ := hone "r1" ro nofun hro
    refine ⟨ro, hro, hstored, ?_⟩
    rw [← hid]
    refine hstored.moment fun c hc => ?_
    rw [hid]
    have hnone : ∀ c ∈ completedMeanwhile.between 0 3, c.rewrites "r1" = false := by decide
    exact hnone c hc
  · obtain ⟨ros, hros⟩ := exists_ok (show (rolloutsReading.result Db.noFaults
      (Commit.storeAt beforeReads completedMeanwhile) 0).isOk = true by decide)
    exact ⟨ros, hros, hall ros hros⟩

/-- An update between the first query and the others. -/
def updatedMeanwhile : Interleaving Commit where
  commits := [.update 7 { id := "r1", productId := "p1", typeId := "t1", title := "Rollout B"
                          descExt := "", descInt := "", risks := "", stages := none, pair := none
                          tasks := none, createdAt := 0, updatedAt := 0, createdBy := "" }]
  seen n := min n 1
  mono a b h := by
    dsimp only
    omega

/-- A delete there. -/
def deletedMeanwhile : Interleaving Commit where
  commits := [.delete "r1"]
  seen n := min n 1
  mono a b h := by
    dsimp only
    omega

/-- The title of a rollout and the number of its stages. -/
def titleAndStages (r : Except Err Rollout) : Option (String × Nat) :=
  r.toOption.map fun ro => (ro.title, ro.stages.items.length)

/-- The old title comes with the new stages, and a rollout that is gone with none. -/
theorem read_mixture :
    (¬∀ (s : Store) (I : Interleaving Commit) (id : String) (ro : Rollout), RolloutKeys s →
      (rolloutReading id).result Db.noFaults (Commit.storeAt s I) 0 = .ok ro →
        ∃ j, I.seen 0 ≤ j ∧ j ≤ I.seen 3 ∧
          ((rollout id).run (I.storeAfter Commit.apply s j)).1 = .ok ro) ∧
    ¬∀ (s : Store) (I : Interleaving Commit) (ros : List Rollout), RolloutKeys s →
      rolloutsReading.result Db.noFaults (Commit.storeAt s I) 0 = .ok ros →
        ∀ ro ∈ ros, ∃ j, I.seen 0 ≤ j ∧ j ≤ I.seen 3 ∧
          ((rollout ro.id).run (I.storeAfter Commit.apply s j)).1 = .ok ro := by
  constructor
  · intro h
    have hread : titleAndStages ((rolloutReading "r1").result Db.noFaults
        (Commit.storeAt beforeReads updatedMeanwhile) 0) =
          some ("Rollout A", 0) := by decide
    have hmoments : ∀ j ≤ 1, titleAndStages ((rollout "r1").run
        (updatedMeanwhile.storeAfter Commit.apply beforeReads j)).1 ≠ some ("Rollout A", 0) := by
      decide
    obtain ⟨ro, hro⟩ := exists_ok (show ((rolloutReading "r1").result Db.noFaults
      (Commit.storeAt beforeReads updatedMeanwhile) 0).isOk = true by decide)
    obtain ⟨j, -, hj, hrun⟩ := h beforeReads updatedMeanwhile "r1" ro rolloutKeys_beforeReads hro
    apply hmoments j hj
    rw [hrun, ← hro]
    exact hread
  · intro h
    have hread : ((rolloutsReading.result Db.noFaults
        (Commit.storeAt beforeReads deletedMeanwhile) 0).toOption.map fun ros => ros.map fun ro =>
        (ro.id, ro.title, ro.stages.items.length)) =
        some [("r1", "Rollout A", 0), ("r2", "Rollout", 0)] := by decide
    have hmoments : ∀ j ≤ 1, titleAndStages ((rollout "r1").run
        (deletedMeanwhile.storeAfter Commit.apply beforeReads j)).1 ≠ some ("Rollout A", 0) := by
      decide
    obtain ⟨ros, hros⟩ := exists_ok (show (rolloutsReading.result Db.noFaults
      (Commit.storeAt beforeReads deletedMeanwhile) 0).isOk = true by decide)
    rw [hros] at hread
    have hlist : (ros.map fun ro => (ro.id, ro.title, ro.stages.items.length)) =
        [("r1", "Rollout A", 0), ("r2", "Rollout", 0)] := Option.some.inj hread
    have hmem : ("r1", "Rollout A", 0) ∈
        ros.map fun ro => (ro.id, ro.title, ro.stages.items.length) := by
      rw [hlist]
      exact List.mem_cons_self
    obtain ⟨ro, hro, hsees⟩ := List.mem_map.mp hmem
    obtain ⟨hid, hshown⟩ := Prod.mk.inj hsees
    obtain ⟨j, -, hj, hrun⟩ :=
      h beforeReads deletedMeanwhile ros rolloutKeys_beforeReads hros ro hro
    rw [hid] at hrun
    apply hmoments j hj
    rw [hrun, ← hshown]
    rfl

end Repository

end ReleaseRadar
