import ReleaseRadar.Store.ReadMoments

/-!
# What an update stores

`UpdateRollout` sets the editable columns of one row and replaces the rollout's rows in three
tables, all in one transaction; `updateRollout_stored` says what a reader finds afterwards
under the id (`Stored`) and that a reader of anything else finds what was there
(`OthersKept`).
-/

namespace ReleaseRadar

open Lib

namespace Repository

/-- What is found after an update with `ro`, `before` having been there. -/
structure Stored (ro before after : Rollout) : Prop where
  title : after.title = ro.title
  descExt : after.descExt = ro.descExt
  descInt : after.descInt = ro.descInt
  risks : after.risks = ro.risks
  stages : after.stages = some (ro.stages.items.map storedStage)
  pair : ∀ a, a ∈ after.pair.items ↔ a ∈ ro.pair.items
  pairNodup : after.pair.items.Nodup
  tasks : after.tasks = some (ro.tasks.items.zipIdx.map storedTask)
  kept : after.id = before.id ∧ after.productId = before.productId ∧ after.typeId = before.typeId ∧
    after.createdBy = before.createdBy ∧ after.createdAt = before.createdAt

/-- Nothing but that rollout has changed. -/
structure OthersKept (id : String) (s s' : Store) : Prop where
  rollouts : ∀ other, other ≠ id → ((rollout other).run s').1 = ((rollout other).run s).1
  locks : s'.locks = s.locks
  products : s'.products = s.products
  types : s'.rolloutTypes = s.rolloutTypes
  typeTasks : s'.rolloutTypeTasks = s.rolloutTypeTasks
  notifications : s'.notifications = s.notifications
  actors : s'.actors = s.actors

/-! ## The lists of the rollout -/

section Lists

variable {now : Int} {ro : Rollout} {s : Store}

/-- A member that is there is not inserted again. -/
theorem nodup_addPairs {id : String} {rows : List PairRow} {pair : List String} (h : rows.Nodup) :
    (addPairs id rows pair).Nodup := by
  induction pair generalizing rows with
  | nil => exact h
  | cons a pair ih =>
    refine ih (show (if rows.contains ⟨id, a⟩ then rows else rows ++ [⟨id, a⟩]).Nodup from ?_)
    split
    · exact h
    · next hnew =>
      refine h.append (List.nodup_singleton _) fun r hr hr' => hnew ?_
      rw [List.mem_singleton.mp hr'] at hr
      exact List.contains_iff_mem.mpr hr

/-- The rows of the rollout come from the given members only. -/
theorem filter_addPairs_self {id : String} {rows : List PairRow} {pair : List String}
    (h : ∀ r ∈ rows, r.rolloutId ≠ id) :
    (addPairs id rows pair).filter (fun r => r.rolloutId == id) = addPairs id [] pair := by
  have hmem : ∀ {rows new : List PairRow} {a : String}, (∀ r ∈ rows, r.rolloutId ≠ id) →
      (rows ++ new).contains (⟨id, a⟩ : PairRow) = new.contains ⟨id, a⟩ := by
    intro rows new a hrows
    rw [Bool.eq_iff_iff, List.contains_iff_mem, List.contains_iff_mem, List.mem_append]
    exact or_iff_right fun hold => hrows _ hold rfl
  -- what has been inserted so far stands behind the rows of the others
  have hsplit : ∀ (pair : List String) (new : List PairRow),
      addPairs id (rows ++ new) pair = rows ++ addPairs id new pair := by
    intro pair
    induction pair with
    | nil => intro new; rfl
    | cons a pair ih =>
      intro new
      unfold addPairs at ih ⊢
      rw [List.foldl_cons, List.foldl_cons, hmem h]
      split
      · exact ih new
      · rw [List.append_assoc, ih]
  have hown : ∀ r ∈ addPairs id [] pair, (r.rolloutId == id) = true := by
    intro r hr
    rcases mem_addPairs.mp hr with hold | ⟨hid, -⟩
    · cases hold
    · exact beq_iff_eq.mpr hid
  have hothers : rows.filter (fun r => r.rolloutId == id) = [] := by
    rw [List.filter_eq_nil_iff]
    intro r hr
    simpa using h r hr
  have hall := hsplit pair []
  rw [List.append_nil] at hall
  rw [hall, List.filter_append, hothers, List.nil_append, List.filter_eq_self.mpr hown]

theorem pairRows_applyUpdate :
    pairRows (applyUpdate now ro s) ro.id = addPairs ro.id [] ro.pair.items := by
  refine filter_addPairs_self fun r hr => ?_
  simpa using (List.mem_filter.mp hr).2

end Lists

/-! ## The whole effect -/

section Effect

variable {now : Int} {ro : Rollout} {s : Store}

theorem stored_applyUpdate {r : RolloutRow} (hid : r.id = ro.id) :
    Stored ro (hydrated s r) (hydrated (applyUpdate now ro s) (updatedRow now ro r)) := by
  have hrow : updatedRow now ro r = { r with
      title := ro.title
      descExt := ro.descExt
      descInt := ro.descInt
      risks := ro.risks
      updatedAt := pgTimestamp now } := if_pos hid
  have hsame : (updatedRow now ro r).id = ro.id := by
    rw [hrow]
    exact hid
  have hmembers : ((pairRows (applyUpdate now ro s) (updatedRow now ro r).id).map (·.actorId)) =
      (addPairs ro.id [] ro.pair.items).map (·.actorId) := by
    rw [hsame, pairRows_applyUpdate]
  refine ⟨?_, ?_, ?_, ?_, ?_, fun a => ?_, ?_, ?_, ?_⟩
  · rw [hrow]; rfl
  · rw [hrow]; rfl
  · rw [hrow]; rfl
  · rw [hrow]; rfl
  · show some (stagesOf _ (updatedRow now ro r).id) = _
    rw [hsame, stagesOf_applyUpdate]
  · show a ∈ List.map _ (pairRows _ (updatedRow now ro r).id) ↔ _
    rw [hmembers, List.mem_map]
    constructor
    · rintro ⟨row, hrow, rfl⟩
      rcases mem_addPairs.mp hrow with hold | ⟨-, hgiven⟩
      · cases hold
      · exact hgiven
    · exact fun ha => ⟨⟨ro.id, a⟩, mem_addPairs.mpr (Or.inr ⟨rfl, ha⟩), rfl⟩
  · show (List.map _ (pairRows _ (updatedRow now ro r).id)).Nodup
    rw [hmembers]
    refine List.Nodup.map_on (fun x hx y hy he => ?_) (nodup_addPairs List.nodup_nil)
    obtain ⟨hx, -⟩ := (mem_addPairs.mp hx).resolve_left List.not_mem_nil
    obtain ⟨hy, -⟩ := (mem_addPairs.mp hy).resolve_left List.not_mem_nil
    obtain ⟨rid, a⟩ := x
    obtain ⟨rid', b⟩ := y
    exact congrArg₂ PairRow.mk (hx.trans hy.symm) he
  · show some (tasksOf _ (updatedRow now ro r).id) = _
    rw [hsame, tasksOf_applyUpdate]
  · rw [hrow]
    exact ⟨rfl, rfl, rfl, rfl, rfl⟩

theorem othersKept_applyUpdate : OthersKept ro.id s (applyUpdate now ro s) where
  rollouts other hne := by
    have hkept : Kept other s (applyUpdate now ro s) := kept_update now hne.symm
    rw [rollout_run, rollout_run, hkept.row]
    split
    · rfl
    · cases hr : s.rollouts.find? fun r => r.id == other with
      | none => rfl
      | some r =>
        have hid : r.id = other := by simpa using List.find?_some hr
        simp only [hydrated, hid, hkept.stages, hkept.pair, tasksOf_applyUpdate_ne hne]
  locks := rfl
  products := rfl
  types := rfl
  typeTasks := rfl
  notifications := rfl
  actors := rfl

/-- `UpdateRollout` stores what it was given and nothing else, or it leaves no trace. -/
structure UpdateExact (now : Int) (ro : Rollout) (F : Faults Err) (c : Conn Store) : Prop where
  /-- The transaction is in: whatever becomes of the reading back. -/
  committed : ∀ c₁, updateRolloutTx now ro F c = (.ok (), c₁) →
    OthersKept ro.id c.store (updateRollout now ro F c).2.store ∧
      ∃ before after, ((rollout ro.id).run c.store).1 = .ok before ∧
        ((rollout ro.id).run (updateRollout now ro F c).2.store).1 = .ok after ∧
        Stored ro before after
  /-- A statement of it has failed, or its `BEGIN` or `COMMIT`. -/
  failed : ∀ e c₁, updateRolloutTx now ro F c = (.error e, c₁) →
    updateRollout now ro F c = (.error e, c₁) ∧ c₁.store = c.store
  /-- There is no such rollout. -/
  absent : c.store.hasRollout ro.id = false →
    (∃ e, (updateRollout now ro F c).1 = .error e) ∧ (updateRollout now ro F c).2.store = c.store

/-- **What a committed `UpdateRollout` has stored**, whatever becomes of its reading back. -/
theorem updateRollout_stored {F : Faults Err} {c c₁ : Conn Store}
    (h : updateRolloutTx now ro F c = (.ok (), c₁)) :
    OthersKept ro.id c.store (updateRollout now ro F c).2.store ∧
      ∃ before after, ((rollout ro.id).run c.store).1 = .ok before ∧
        ((rollout ro.id).run (updateRollout now ro F c).2.store).1 = .ok after ∧
        Stored ro before after := by
  obtain ⟨hhas, hnul, hstore⟩ := updateRolloutTx_ok h
  have hread : (updateRollout now ro F c).2.store = applyUpdate now ro c.store := by
    have hsame := within_rollout (Db.Frame.keeps fun s => s) ro.id F c₁
    have hrun : updateRollout now ro F c = rollout ro.id F c₁ := by
      unfold updateRollout
      rw [Db.bind_def, h]
    rw [hrun, ← hstore]
    exact hsame
  have hfind : (applyUpdate now ro c.store).rollouts.find? (fun r => r.id == ro.id) =
      (c.store.rollouts.find? fun r => r.id == ro.id).map (updatedRow now ro) :=
    find_updatedRow now ro c.store.rollouts
  rw [hread]
  rw [hasRollout_eq_find] at hhas
  obtain ⟨r, hr⟩ := Option.isSome_iff_exists.mp hhas
  have hid : r.id = ro.id := by simpa using List.find?_some hr
  refine ⟨othersKept_applyUpdate, hydrated c.store r,
    hydrated (applyUpdate now ro c.store) (updatedRow now ro r), ?_, ?_, stored_applyUpdate hid⟩
  · rw [rollout_run, hr]
    simp [hnul]
  · rw [rollout_run, hfind, hr]
    simp [hnul]

/-- One that did not commit has done nothing. -/
theorem updateRollout_refused {F : Faults Err} {c c₁ : Conn Store} {e : Err}
    (h : updateRolloutTx now ro F c = (.error e, c₁)) :
    updateRollout now ro F c = (.error e, c₁) ∧ c₁.store = c.store := by
  refine ⟨?_, updateRolloutTx_error h⟩
  unfold updateRollout
  rw [Db.bind_def, h]

/-- **An update is exact**, whatever fails. -/
theorem updateExact (now : Int) (ro : Rollout) (F : Faults Err) (c : Conn Store) :
    UpdateExact now ro F c where
  committed _ h := updateRollout_stored h
  failed _ _ h := updateRollout_refused h
  absent habsent := by
    match h : updateRolloutTx now ro F c with
    | (.ok (), c₁) =>
      rw [(updateRolloutTx_ok h).1] at habsent
      cases habsent
    | (.error e, c₁) =>
      obtain ⟨hrun, hstore⟩ := updateRollout_refused h
      rw [hrun]
      exact ⟨⟨e, rfl⟩, hstore⟩

end Effect

end Repository

end ReleaseRadar
