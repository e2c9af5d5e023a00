import ReleaseRadar.Notify.Plan
import ReleaseRadar.Store.References

/-!
# A deleted rollout falls silent

`DeleteRollout` takes the rollout's queued notifications along (`ON DELETE CASCADE`), but a
tick may hold rows of it, and write requests for it may be anywhere between their commit and
their `RescheduleNotifications`. None of these brings it back: a row in hand no longer finds
its rollout, and a late reschedule meets the foreign key. Only the announcement whose rollout
and stage the dispatcher had already read is still made.

* `references_step` — every step keeps the foreign keys into `rollouts`;
* `deleted_falls_silent` — after the delete the queue never again has a row of the rollout, and
  `AnnounceStage` is called for it at most once more.
-/

namespace ReleaseRadar

open Lib Repository

namespace Notify

/-! ## The foreign keys in every run -/

section References

variable {s s' : Sys} {a : Action}

/-- A reschedule that goes through keeps them, whatever it inserts. -/
theorem references_reschedule_run {store : Store} (hs : store.References) (id : String)
    (items : List ScheduledNotification) :
    ((rescheduleNotifications id items).run store).2.References := by
  obtain ⟨c', hm, hc'⟩ :=
    run_eq (Prod.mk.eta (p := (rescheduleNotifications id items).run store)).symm
  have hwithin := within_references_reschedule id items Db.noFaults ⟨store, 0⟩ hs
  rw [hm] at hwithin
  exact hc' ▸ hwithin

theorem references_markSent {store : Store} (hs : store.References) (now : Int) (id : Nat)
    (err : String) :
    Store.References
      { store with notifications := store.notifications.markSent now id err } := by
  refine references_notifications hs fun n hn => ?_
  obtain ⟨m, hm, rfl⟩ := List.mem_map.mp hn
  exact Or.inl ⟨m, hm, (congrArg Prod.fst (NotificationTable.markRow_key now id err m)).symm⟩

/-- The step's table is what the run of the repository's function leaves. -/
theorem step_reschedule_run {i : Nat} (h : step s (.reschedule i) = some s') :
    ∃ id items, s'.store = ((rescheduleNotifications id items).run s.store).2 := by
  unfold step at h
  dsimp only at h
  split at h
  · next ro created clock _ =>
    refine ⟨ro.id, scheduleItems clock ro.stages.items, ?_⟩
    split at h
    · next hr => rw [hr, ← Option.some.inj h]
    · next hr => rw [hr, ← Option.some.inj h]
  · cases h

theorem references_step (h : step s a = some s') (hs : s.store.References) :
    s'.store.References := by
  cases a with
  | wait d =>
    obtain rfl := Option.some.inj h
    exact hs
  | create ro =>
    rcases step_create h with rfl | ⟨-, -, tasks, rfl⟩
    · exact hs
    · exact references_applyCreate hs
  | update id ro =>
    rcases step_update h with rfl | ⟨hhas, -, rfl⟩
    · exact hs
    · exact references_applyUpdate hhas hs
  | delete id =>
    rcases step_delete h with rfl | rfl
    · exact hs
    · exact references_applyDelete hs
  | reread i =>
    obtain ⟨id, created, -, ⟨rfl, -⟩ | ⟨r, -, -, rfl⟩⟩ := step_reread h <;> exact hs
  | clock i =>
    obtain ⟨ro, created, -, rfl⟩ := step_clock h
    exact hs
  | reschedule i =>
    obtain ⟨id, items, heq⟩ := step_reschedule_run h
    rw [heq]
    exact references_reschedule_run hs id items
  | tick sorted =>
    obtain ⟨-, -, rfl⟩ := step_tick h
    exact hs
  | load =>
    obtain ⟨n, rest, -, ⟨e, rfl, -⟩ | ⟨r, stage, -, -, rfl⟩⟩ := step_load h <;> exact hs
  | announce outcome =>
    obtain ⟨n, r, stage, rest, -, rfl⟩ := step_announce h
    exact hs
  | mark =>
    obtain ⟨n, e, rest, -, ⟨-, rfl⟩ | rfl⟩ := step_mark h
    · exact hs
    · exact references_markSent hs _ _ _

/-- A rollout that is not there has no row in the queue. -/
theorem no_row_of_absent {store : Store} {id : String} (hs : store.References)
    (habsent : store.hasRollout id = false) : ∀ n ∈ store.notifications.rows, n.rolloutId ≠ id := by
  rintro n hn rfl
  have hhas := hs n.rolloutId (List.mem_append_right _ (List.mem_map_of_mem hn))
  rw [habsent] at hhas
  cases hhas

end References

/-! ## Gone -/

section Gone

variable {s s' : Sys} {a : Action} {id : String}

/-- A delete that reaches the database leaves no trace of the rollout. -/
theorem deleteRollout_run_gone {store : Store} (hnul : hasNul id = false) :
    ((deleteRollout id).run store).2.hasRollout id = false := by
  rcases hr : (deleteRollout id).run store with ⟨r, store'⟩
  obtain ⟨c', hm, rfl⟩ := run_eq hr
  unfold deleteRollout at hm
  rw [Db.bind_def] at hm
  split at hm
  · next affected c₁ hst =>
    have h₁ : _ = c₁.store := congrArg Prod.snd (Except.ok.inj (stmt_ok hst))
    have h₂ : c'.store = c₁.store := by
      cases affected
      · exact (congrArg (·.2.store) hm).symm
      · exact (congrArg (·.2.store) hm).symm
    show c'.store.hasRollout id = false
    rw [h₂, ← h₁]
    simp [Store.hasRollout]
  · next e c₁ hst =>
    simp [stmt, Db.call, Db.noFaults, hnul] at hst

/-- A rollout that is gone stays gone until somebody creates it. -/
theorem gone_step (h : step s a = some s') (hgone : s.store.hasRollout id = false)
    (hnew : ∀ ro, a = .create ro → ro.id ≠ id) : s'.store.hasRollout id = false := by
  cases a with
  | wait d =>
    obtain rfl := Option.some.inj h
    exact hgone
  | create ro =>
    rcases step_create h with rfl | ⟨-, -, tasks, rfl⟩
    · exact hgone
    · simpa [hgone] using hnew ro rfl
  | update id' ro =>
    rcases step_update h with rfl | ⟨-, -, rfl⟩
    · exact hgone
    · simpa using hgone
  | delete id' =>
    rcases step_delete h with rfl | rfl
    · exact hgone
    · by_cases hid : id = id'
      · subst hid
        simp [Store.hasRollout, applyDelete]
      · rw [hasRollout_applyDelete_ne _ hid]
        exact hgone
  | reread i =>
    obtain ⟨id', created, -, ⟨rfl, -⟩ | ⟨r, -, -, rfl⟩⟩ := step_reread h <;> exact hgone
  | clock i =>
    obtain ⟨ro, created, -, rfl⟩ := step_clock h
    exact hgone
  | reschedule i =>
    obtain ⟨ro, created, clock, -, ⟨rfl, -⟩ | rfl⟩ := step_reschedule h <;> exact hgone
  | tick sorted =>
    obtain ⟨-, -, rfl⟩ := step_tick h
    exact hgone
  | load =>
    obtain ⟨n, rest, -, ⟨e, rfl, -⟩ | ⟨r, stage, -, -, rfl⟩⟩ := step_load h <;> exact hgone
  | announce outcome =>
    obtain ⟨n, r, stage, rest, -, rfl⟩ := step_announce h
    exact hgone
  | mark =>
    obtain ⟨n, e, rest, -, ⟨-, rfl⟩ | rfl⟩ := step_mark h <;> exact hgone

/-! ## The announcements that are still made -/

/-- The event is a call of `AnnounceStage` for a row of the rollout. -/
def Event.announces (id : String) : Event → Bool
  | .announced p => p.row.rolloutId = id
  | _ => false

/-- How often `AnnounceStage` has been called for the rollout, whatever came of it. -/
def announcements (id : String) (hist : List Event) : Nat := hist.countP (Event.announces id)

/-- The announcement of the rollout that the dispatcher is about to make. -/
def Disp.due (id : String) : Disp → Nat
  | .loaded n _ _ _ => if n.rolloutId = id then 1 else 0
  | .loop _ | .marking _ _ _ => 0

/-- While the rollout is gone, no announcement becomes due: one that is made was. -/
theorem due_step (h : step s a = some s') (hgone : s.store.hasRollout id = false) :
    announcements id s'.hist + s'.disp.due id ≤ announcements id s.hist + s.disp.due id := by
  cases a with
  | wait d =>
    obtain rfl := Option.some.inj h
    exact Nat.le_refl _
  | create ro => rcases step_create h with rfl | ⟨-, -, tasks, rfl⟩ <;> exact Nat.le_refl _
  | update id' ro => rcases step_update h with rfl | ⟨-, -, rfl⟩ <;> exact Nat.le_refl _
  | delete id' => rcases step_delete h with rfl | rfl <;> exact Nat.le_refl _
  | reread i =>
    obtain ⟨id', created, -, ⟨rfl, -⟩ | ⟨r, -, -, rfl⟩⟩ := step_reread h <;> exact Nat.le_refl _
  | clock i =>
    obtain ⟨ro, created, -, rfl⟩ := step_clock h
    exact Nat.le_refl _
  | reschedule i =>
    obtain ⟨ro, created, clock, -, ⟨rfl, -⟩ | rfl⟩ := step_reschedule h <;> exact Nat.le_refl _
  | tick sorted =>
    obtain ⟨hd, -, rfl⟩ := step_tick h
    rw [hd]
    exact Nat.le_refl _
  | load =>
    obtain ⟨n, rest, hd, ⟨e, rfl, -⟩ | ⟨r, stage, hfind, -, rfl⟩⟩ := step_load h
    · rw [hd]
      exact Nat.le_refl _
    · -- the rollout it has found is another one
      have hother : n.rolloutId ≠ id := by
        rintro rfl
        rw [hasRollout_eq_find, hfind] at hgone
        cases hgone
      rw [hd]
      show announcements id s.hist + (if n.rolloutId = id then 1 else 0) ≤ _
      rw [if_neg hother]
      exact Nat.le_refl _
  | announce outcome =>
    obtain ⟨n, r, stage, rest, hd, rfl⟩ := step_announce h
    rw [hd]
    show List.countP _ (_ :: s.hist) + 0 ≤ List.countP _ s.hist +
      (if n.rolloutId = id then 1 else 0)
    rw [List.countP_cons]
    simp [Event.announces]
  | mark =>
    obtain ⟨n, e, rest, hd, ⟨-, rfl⟩ | rfl⟩ := step_mark h
    · rw [hd]
      exact Nat.le_refl _
    · rw [hd]
      exact Nat.le_refl _

end Gone

/-- The state after the delete, as long as nobody creates the rollout. -/
structure Silent (id : String) (calls : Nat) (s : Sys) : Prop where
  references : s.store.References
  gone : s.store.hasRollout id = false
  calls : announcements id s.hist + s.disp.due id ≤ calls

theorem silent_exec {id : String} {calls : Nat} :
    ∀ {as : List Action} {s t : Sys}, Silent id calls s →
      (∀ ro, .create ro ∈ as → ro.id ≠ id) → system.exec s as = some t → Silent id calls t := by
  intro as
  induction as with
  | nil =>
    intro s t h _ he
    cases he
    exact h
  | cons a as ih =>
    intro s t h hnew he
    obtain ⟨s', hs, he'⟩ := system.exec_cons_some he
    refine ih ?_ (fun ro hro => hnew ro (List.mem_cons_of_mem _ hro)) he'
    exact {
      references := references_step hs h.references
      gone := gone_step hs h.gone fun ro hro => hnew ro (hro ▸ List.mem_cons_self)
      calls := (due_step hs h.gone).trans h.calls }

/-- **A deleted rollout falls silent**, wherever its writes and the dispatcher are when it is
deleted: as long as nobody creates it anew, the queue has no row of it, and `AnnounceStage` is
called for it at most once more, for the row whose rollout the dispatcher had already read. -/
theorem deleted_falls_silent {store : Store} {now : Int} {id : String} {before after : List Action}
    {s t : Sys} (hrefs : store.References) (hnul : hasNul id = false)
    (hbefore : system.exec (start store now) before = some s)
    (hafter : system.exec s (.delete id :: after) = some t)
    (hnew : ∀ ro, .create ro ∈ after → ro.id ≠ id) :
    t.store.hasRollout id = false ∧ (∀ n ∈ t.store.notifications.rows, n.rolloutId ≠ id) ∧
      announcements id t.hist ≤ announcements id s.hist + s.disp.due id := by
  have hs : s.store.References :=
    system.exec_invariant (I := fun s => s.store.References)
      (fun _ _ _ h hstep => references_step hstep h) hrefs hbefore
  obtain ⟨s₁, hstep, hrest⟩ := system.exec_cons_some hafter
  have hdelete : step s (.delete id) = some s₁ := hstep
  have hsilent : Silent id (announcements id s.hist + s.disp.due id) s₁ := by
    refine ⟨references_step hdelete hs, ?_, ?_⟩
    · have heq : s₁ = { s with store := ((deleteRollout id).run s.store).2 } :=
        (Option.some.inj hdelete).symm
      rw [heq]
      exact deleteRollout_run_gone hnul
    · rcases step_delete hdelete with rfl | rfl <;> exact Nat.le_refl _
  have ht := silent_exec hsilent hnew hrest
  exact ⟨ht.gone, no_row_of_absent ht.references ht.gone,
    (Nat.le_add_right _ _).trans ht.calls⟩

/-- The rollout is deleted between two steps of its own update, whose reschedule then fails,
and after a tick has read it: that announcement is the last. -/
def deletedUnderway : List Action × List Action :=
  ([.create (sampleRollout "non-prod" (hour / 2)), .reread 0, .clock 0, .reschedule 0,
      .update "r1" (sampleRollout "non-prod" (hour / 2)), .reread 1, .clock 1, .wait 2000000000,
      .tick [⟨0, "r1", 0, .TMS_NP, second, none, none, 0⟩], .load],
    [.announce none, .reschedule 1, .mark, .wait 2000000000, .tick []])

theorem deleted_falls_silent_underway :
    ∃ s t, system.exec (start sampleStore 0) deletedUnderway.1 = some s ∧
      system.exec s (.delete "r1" :: deletedUnderway.2) = some t ∧
      t.store.hasRollout "r1" = false ∧ (∀ n ∈ t.store.notifications.rows, n.rolloutId ≠ "r1") ∧
      announcements "r1" t.hist ≤ announcements "r1" s.hist + s.disp.due "r1" := by
  have hruns : ∃ s, system.exec (start sampleStore 0) deletedUnderway.1 = some s ∧
      ∃ t, system.exec s (.delete "r1" :: deletedUnderway.2) = some t ∧ True := by
    decide +kernel
  obtain ⟨s, hs, t, ht, -⟩ := hruns
  refine ⟨s, t, hs, ht, deleted_falls_silent (by decide) (by decide) hs ht ?_⟩
  intro ro hro
  simp [deletedUnderway] at hro

end Notify

end ReleaseRadar
