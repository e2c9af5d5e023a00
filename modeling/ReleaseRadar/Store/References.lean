import ReleaseRadar.Store.RolloutSpec

/-!
# The foreign keys into `rollouts`

The stages, the pair, the tasks and the notifications of a rollout reference its row
(`REFERENCES rollouts(id) ON DELETE CASCADE` in `0001_init.sql`). `References` says that no
such row is an orphan; every write of the repository keeps it. What follows from it:

* deleting a rollout that is not there deletes nothing (`applyDelete_absent`);
* a rollout that is being created has no task rows yet (`tasksOf_applyCreate`).
-/

namespace ReleaseRadar

open Lib

namespace Store

/-- The rollouts that the rows of the child tables name. -/
def owners (s : Store) : List String :=
  s.rolloutStages.map (·.rolloutId) ++ s.rolloutActors.map (·.rolloutId) ++
    s.rolloutTasks.map (·.rolloutId) ++ s.notifications.rows.map (·.rolloutId)

/-- Every one of them is there. -/
def References (s : Store) : Prop := ∀ id ∈ s.owners, s.hasRollout id = true

instance (s : Store) : Decidable s.References :=
  inferInstanceAs (Decidable (∀ id ∈ s.owners, s.hasRollout id = true))

/-- Nothing refers to anything. -/
theorem references_empty : empty.References := fun _ h => absurd h List.not_mem_nil

/-- New rows name a rollout that is there, and none goes that is still named. -/
theorem References.of_owners {s t : Store} (hs : s.References)
    (howners : ∀ id ∈ t.owners, id ∈ s.owners ∨ t.hasRollout id = true)
    (hkept : ∀ id ∈ t.owners, s.hasRollout id = true → t.hasRollout id = true) : t.References := by
  intro id hid
  rcases howners id hid with hold | hnew
  · exact hkept id hid (hs id hold)
  · exact hnew

/-- The tables that carry and are referenced by a foreign key into `rollouts`. -/
def rolloutTables (s : Store) :
    List RolloutRow × List StageRow × List PairRow × List TaskRow × NotificationTable :=
  (s.rollouts, s.rolloutStages, s.rolloutActors, s.rolloutTasks, s.notifications)

/-- Only the tables of the rollouts count. -/
theorem References.congr {s t : Store} (h : rolloutTables t = rolloutTables s) (hs : s.References) :
    t.References := by
  obtain ⟨hr, hst, hp, ht, hn⟩ : t.rollouts = s.rollouts ∧ t.rolloutStages = s.rolloutStages ∧
      t.rolloutActors = s.rolloutActors ∧ t.rolloutTasks = s.rolloutTasks ∧
      t.notifications = s.notifications := by
    simpa [rolloutTables] using h
  unfold References owners hasRollout at hs ⊢
  rw [hr, hst, hp, ht, hn]
  exact hs

end Store

namespace Repository

theorem inheritedRowsFor_rolloutId {id : String} {descs : List String} :
    ∀ r ∈ inheritedRowsFor id descs, r.rolloutId = id := by
  intro r hr
  obtain ⟨d, -, rfl⟩ := List.mem_map.mp hr
  rfl

/-! ## What the writes do to the owners -/

section Owners

variable {s : Store} {now : Int} {ro : Rollout} {id : String}

/-- A create adds rows of its rollout only. -/
theorem owners_applyCreate {tasks : List String} :
    ∀ o ∈ (applyCreate now ro tasks s).owners, o ∈ s.owners ∨ o = ro.id := by
  intro o ho
  simp only [Store.owners, List.mem_append, List.mem_map] at ho ⊢
  rcases ho with ((⟨r, hr, rfl⟩ | ⟨r, hr, rfl⟩) | ⟨r, hr, rfl⟩) | hn
  · rcases List.mem_append.mp hr with hold | hnew
    · exact Or.inl (Or.inl (Or.inl (Or.inl ⟨r, hold, rfl⟩)))
    · exact Or.inr (stageRowsFor_rolloutId r hnew)
  · rcases mem_addPairs.mp hr with hold | ⟨hid, -⟩
    · exact Or.inl (Or.inl (Or.inl (Or.inr ⟨r, hold, rfl⟩)))
    · exact Or.inr hid
  · rcases List.mem_append.mp hr with hold | hnew
    · exact Or.inl (Or.inl (Or.inr ⟨r, hold, rfl⟩))
    · exact Or.inr (inheritedRowsFor_rolloutId r hnew)
  · exact Or.inl (Or.inr hn)

/-- An update too. -/
theorem owners_applyUpdate : ∀ o ∈ (applyUpdate now ro s).owners, o ∈ s.owners ∨ o = ro.id := by
  intro o ho
  simp only [Store.owners, List.mem_append, List.mem_map] at ho ⊢
  rcases ho with ((⟨r, hr, rfl⟩ | ⟨r, hr, rfl⟩) | ⟨r, hr, rfl⟩) | hn
  · rcases List.mem_append.mp hr with hold | hnew
    · exact Or.inl (Or.inl (Or.inl (Or.inl ⟨r, (List.mem_filter.mp hold).1, rfl⟩)))
    · exact Or.inr (stageRowsFor_rolloutId r hnew)
  · rcases mem_addPairs.mp hr with hold | ⟨hid, -⟩
    · exact Or.inl (Or.inl (Or.inl (Or.inr ⟨r, (List.mem_filter.mp hold).1, rfl⟩)))
    · exact Or.inr hid
  · rcases List.mem_append.mp hr with hold | hnew
    · exact Or.inl (Or.inl (Or.inr ⟨r, (List.mem_filter.mp hold).1, rfl⟩))
    · exact Or.inr (taskRowsFor_rolloutId r hnew)
  · exact Or.inl (Or.inr hn)

/-- A delete takes all rows of its rollout. -/
theorem owners_applyDelete : ∀ o ∈ (applyDelete id s).owners, o ∈ s.owners ∧ o ≠ id := by
  have hkeep : ∀ {ρ : Type} {rid : ρ → String} {rows : List ρ} {r : ρ},
      r ∈ rows.filter (fun r => !(rid r == id)) → r ∈ rows ∧ rid r ≠ id := by
    intro ρ rid rows r hr
    obtain ⟨hmem, hne⟩ := List.mem_filter.mp hr
    exact ⟨hmem, by simpa using hne⟩
  intro o ho
  simp only [Store.owners, List.mem_append, List.mem_map] at ho ⊢
  rcases ho with ((⟨r, hr, rfl⟩ | ⟨r, hr, rfl⟩) | ⟨r, hr, rfl⟩) | ⟨r, hr, rfl⟩
  · exact ⟨Or.inl (Or.inl (Or.inl ⟨r, (hkeep hr).1, rfl⟩)), (hkeep hr).2⟩
  · exact ⟨Or.inl (Or.inl (Or.inr ⟨r, (hkeep hr).1, rfl⟩)), (hkeep hr).2⟩
  · exact ⟨Or.inl (Or.inr ⟨r, (hkeep hr).1, rfl⟩), (hkeep hr).2⟩
  · exact ⟨Or.inr ⟨r, (hkeep hr).1, rfl⟩, (hkeep hr).2⟩

theorem owners_applyTask {seq : Int} {status reason by_ : String} :
    (applyTask now id seq status reason by_ s).owners = s.owners := by
  have hrow : ((·.rolloutId) ∘ fun r : TaskRow =>
      if addressed id seq r then logTask now status reason by_ r else r) = (·.rolloutId) := by
    funext r
    simp only [Function.comp, logTask]
    split
    · split <;> rfl
    · rfl
  unfold Store.owners applyTask
  rw [List.map_map, hrow]

/-! ## The writes keep the foreign keys -/

/-- A create keeps the references, -/
theorem references_applyCreate {tasks : List String} (hs : s.References) :
    (applyCreate now ro tasks s).References := by
  refine hs.of_owners (fun o ho => ?_) fun o _ hhas => ?_
  · rcases owners_applyCreate o ho with hold | rfl
    · exact Or.inl hold
    · exact Or.inr (by simp)
  · simp [hhas]

/-- an update of a rollout that is there does, -/
theorem references_applyUpdate (hhas : s.hasRollout ro.id = true) (hs : s.References) :
    (applyUpdate now ro s).References := by
  refine hs.of_owners (fun o ho => ?_) fun o _ ho => ?_
  · rcases owners_applyUpdate o ho with hold | rfl
    · exact Or.inl hold
    · exact Or.inr (by simpa using hhas)
  · simpa using ho

/-- a delete does, -/
theorem references_applyDelete (hs : s.References) : (applyDelete id s).References := by
  refine hs.of_owners (fun o ho => Or.inl (owners_applyDelete o ho).1) fun o ho hhas => ?_
  rw [hasRollout_applyDelete_ne s (owners_applyDelete o ho).2]
  exact hhas

/-- and so does the log of a task. -/
theorem references_applyTask {seq : Int} {status reason by_ : String} (hs : s.References) :
    (applyTask now id seq status reason by_ s).References := by
  intro o ho
  rw [owners_applyTask] at ho
  exact hs o ho

/-- A queue that names no other rollout. -/
theorem references_notifications {table : NotificationTable} (hs : s.References)
    (htable : ∀ n ∈ table.rows, (∃ m ∈ s.notifications.rows, m.rolloutId = n.rolloutId) ∨
      s.hasRollout n.rolloutId = true) : Store.References { s with notifications := table } := by
  refine hs.of_owners (fun o ho => ?_) fun o _ hhas => hhas
  simp only [Store.owners, List.mem_append, List.mem_map] at ho ⊢
  rcases ho with hrest | ⟨n, hn, rfl⟩
  · exact Or.inl (Or.inl hrest)
  · rcases htable n hn with hold | hhas
    · exact Or.inl (Or.inr hold)
    · exact Or.inr hhas

/-- A reschedule touches no table of the rollouts. -/
theorem within_references_reschedule (id : String) (items : List ScheduledNotification) :
    Db.Within (Db.Frame.invariant Store.References) (rescheduleNotifications id items) := by
  refine Db.within_tx (Db.within_bind (within_stmt fun s a s' h hs => ?_) fun _ =>
    Db.within_forEach (fun it => within_stmt fun s a s' h hs => ?_) _)
  · obtain rfl := congrArg Prod.snd (Except.ok.inj h)
    exact references_notifications hs fun n hn => Or.inl ⟨n, (List.mem_filter.mp hn).1, rfl⟩
  · obtain ⟨hhas, h₁⟩ := constraint_bind_ok h
    obtain rfl := congrArg Prod.snd (Except.ok.inj h₁)
    refine references_notifications hs fun n hn => ?_
    -- the row that was there, or the new one, whose foreign key is checked
    unfold NotificationTable.insert at hn
    split at hn
    · exact Or.inl ⟨n, hn, rfl⟩
    · rcases List.mem_append.mp hn with hold | hlast
      · exact Or.inl ⟨n, hold, rfl⟩
      · rw [List.mem_singleton.mp hlast]
        exact Or.inr hhas

end Owners

/-! ## What follows -/

/-- Deleting a rollout that is not there deletes nothing. -/
theorem applyDelete_absent {s : Store} {id : String} (hs : s.References)
    (habsent : s.hasRollout id = false) : applyDelete id s = s := by
  have hkeep : ∀ {ρ : Type} (rid : ρ → String) (rows : List ρ),
      (∀ r ∈ rows, rid r ∈ s.owners) → rows.filter (fun r => !(rid r == id)) = rows := by
    intro ρ rid rows howner
    rw [List.filter_eq_self]
    intro r hr
    have hhas := hs _ (howner r hr)
    simp only [Bool.not_eq_true', beq_eq_false_iff_ne]
    rintro rfl
    rw [habsent] at hhas
    cases hhas
  have hrows : s.rollouts.filter (fun r => !(r.id == id)) = s.rollouts := by
    rw [List.filter_eq_self]
    intro r hr
    unfold Store.hasRollout at habsent
    rw [List.any_eq_false] at habsent
    simpa using habsent r hr
  have hqueue : s.notifications.deleteRollout id = s.notifications := by
    have := hkeep Notification.rolloutId s.notifications.rows
      fun n hn => List.mem_append_right _ (List.mem_map_of_mem hn)
    unfold NotificationTable.deleteRollout NotificationTable.keep
    simp only [this]
  unfold applyDelete
  rw [hrows, hqueue, hkeep StageRow.rolloutId, hkeep PairRow.rolloutId, hkeep TaskRow.rolloutId]
  · intro r hr
    simp only [Store.owners, List.mem_append]
    exact Or.inl (Or.inr (List.mem_map_of_mem hr))
  · intro r hr
    simp only [Store.owners, List.mem_append]
    exact Or.inl (Or.inl (Or.inr (List.mem_map_of_mem hr)))
  · intro r hr
    simp only [Store.owners, List.mem_append]
    exact Or.inl (Or.inl (Or.inl (List.mem_map_of_mem hr)))

/-- A rollout that was not there has the inherited tasks and no others. -/
theorem tasksOf_applyCreate {s : Store} {now : Int} {ro : Rollout} {tasks : List String}
    (hs : s.References) (hnew : s.hasRollout ro.id = false) :
    tasksOf (applyCreate now ro tasks s) ro.id =
      tasks.zipIdx.map fun d => ⟨d.2, d.1, "", "", "", none⟩ := by
  have hnone : s.rolloutTasks.filter (fun r => r.rolloutId == ro.id) = [] := by
    rw [List.filter_eq_nil_iff]
    intro r hr hid
    have hhas := hs r.rolloutId (by
      simp only [Store.owners, List.mem_append]
      exact Or.inl (Or.inr (List.mem_map_of_mem hr)))
    rw [eq_of_beq hid, hnew] at hhas
    cases hhas
  have hall : (inheritedRowsFor ro.id tasks).filter (fun r => r.rolloutId == ro.id) =
      inheritedRowsFor ro.id tasks := by
    rw [List.filter_eq_self]
    intro r hr
    exact beq_iff_eq.mpr (inheritedRowsFor_rolloutId r hr)
  have hsorted : orderBy (·.seq) (inheritedRowsFor ro.id tasks) = inheritedRowsFor ro.id tasks :=
    orderBy_of_ascending (pairwise_zipIdx TaskRow.seq _ (fun _ => rfl) _)
  unfold tasksOf taskRows applyCreate
  rw [List.filter_append, hnone, hall, List.nil_append, hsorted, inheritedRowsFor, List.map_map]
  rfl

end Repository

end ReleaseRadar
