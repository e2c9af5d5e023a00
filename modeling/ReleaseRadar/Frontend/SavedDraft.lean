import ReleaseRadar.Frontend.EditSession
import ReleaseRadar.Store.StoredRollout

/-!
# What a saved draft leaves behind

An admin edits a draft of a rollout (the tasks are added, renamed, removed and moved in
`draft.tasks`) and saves it with `updateRollout`. The update stores the draft and nothing
else (`updateExact`), and a task that has survived the edits has its log with it, wherever
they have moved it.
-/

namespace ReleaseRadar.Frontend

open Lib Repository Api

theorem between_edits (es : List Edit) : ∀ a ∈ es.map Action.edit, Between a := by
  intro a ha
  obtain ⟨e, -, rfl⟩ := List.mem_map.mp ha
  trivial

theorem editsOf_edits (es : List Edit) : editsOf (es.map Action.edit) = es := by
  induction es with
  | nil => rfl
  | cons e es ih => exact congrArg (e :: ·) ih

/-- After the edits and a save that went through, the log is that of the draft's task. -/
theorem saved_log {id : String} {store : Store} {d : Rollout} {es : List Edit} {env : Env}
    {faults : Faults Err} {s : State} {k q : Nat}
    (hrun : (session id).exec ⟨store, some d⟩ (es.map .edit ++ [.save env faults]) = some s)
    (hsaved : s.draft = none) (hk : k < d.tasks.items.length) (hq : position d k es = some q) :
    storedLog s.store id q = (d.tasks.items[k]?).map fun t => logOf (storedTask (t, q)) := by
  rw [Machine.exec_append] at hrun
  obtain ⟨s₂, hs₂, hlast⟩ := Option.bind_eq_some_iff.mp hrun
  have hdraft := draft_between (between_edits es) rfl hs₂
  rw [editsOf_edits] at hdraft
  obtain ⟨s₃, hs₃, hend⟩ := (session id).exec_cons_some hlast
  obtain rfl := Option.some.inj hend
  have hsave := step_save (p := fun st => storedLog st id q) (fun _ _ => rfl) hdraft hs₃ hsaved
  refine hsave.trans ((storedLog_applyUpdate env.dbNow _ s₂.store q).trans ?_)
  -- the update stores the log of the task that is at `q` now, and that is the draft's task `k`
  have hmoved := log_edits hk hq
  rw [List.getElem?_eq_getElem hk] at hmoved ⊢
  obtain ⟨t, ht, hlog⟩ := Option.map_eq_some_iff.mp hmoved
  simp only [logOf, Log.mk.injEq] at hlog
  show Option.map _ (es.foldl Edit.apply d).tasks.items[q]? = _
  rw [ht, Option.map_some, Option.map_some, hlog.1, hlog.2.1, hlog.2.2.1, hlog.2.2.2]
  rfl

/-- **An update stores what it was given and nothing else**, and edits followed by a save keep
every surviving task's log with the task. -/
theorem update_stores_given :
    (∀ now ro F c, UpdateExact now ro F c) ∧
      ∀ (id : String) (store : Store) (d : Rollout) (es : List Edit) (env : Env)
        (faults : Faults Err) (s : State) (k q : Nat),
        (session id).exec ⟨store, some d⟩ (es.map .edit ++ [.save env faults]) = some s →
          s.draft = none → k < d.tasks.items.length → position d k es = some q →
            storedLog s.store id q = (d.tasks.items[k]?).map fun t => logOf (storedTask (t, q)) :=
  ⟨updateExact, fun _ _ _ _ _ _ _ _ _ hrun hsaved hk hq => saved_log hrun hsaved hk hq⟩

/-! ## A done task that moves -/

private def noon : Env := ⟨second, second, "01234567", Char.toUpper, Char.toLower, fun _ => 0⟩

/-- A rollout with two tasks, the second one done. -/
private def withDone : Store :=
  { Store.empty with
    actors := [⟨"bob", "bob@example.com", "Bob", roleAdmin⟩]
    products := [⟨"p1", "Product", none, []⟩]
    rolloutTypes := [⟨"t1", "Type", "T", "info", 0, 0, none, none, []⟩]
    rollouts := [⟨"r1", "p1", "t1", "Title", "", "", "", 0, 0, none⟩]
    rolloutTasks := [⟨"r1", 0, "Deploy", "", "", none, none⟩,
      ⟨"r1", 1, "Verify", "done", "", some "bob", some 0⟩] }

/-- The draft of it. -/
private def loaded : Rollout :=
  ⟨"r1", "p1", "t1", "Title", "", "", "", some [], some [],
    some [⟨0, "Deploy", "", "", "", none⟩, ⟨1, "Verify", "done", "", "bob", some 0⟩], 0, 0, ""⟩

/-- Swapped, with a task added behind them. -/
private def swapped : List Edit := [.moveTask 0 1, .addTask "Report"]

/-- The done task goes first and is still done by Bob, and the save is the exact update. -/
theorem update_stores_given_moved :
    UpdateExact second { loaded with title := "New" } Db.noFaults ⟨withDone, 0⟩ ∧
      ∃ s, (session "r1").exec ⟨withDone, some loaded⟩
        (swapped.map .edit ++ [.save noon Db.noFaults])
          = some s ∧ storedLog s.store "r1" 0 = some ⟨"done", "", "bob", some 0⟩ := by
  have hrun : ∃ s, (session "r1").exec ⟨withDone, some loaded⟩
      (swapped.map .edit ++ [.save noon Db.noFaults]) = some s ∧ s.draft = none := by
    decide +kernel
  obtain ⟨s, hs, hsaved⟩ := hrun
  refine ⟨update_stores_given.1 _ _ _ _, s, hs, ?_⟩
  rw [update_stores_given.2 "r1" withDone loaded swapped noon Db.noFaults s 1 0 hs
    hsaved (by decide)
    (by decide)]
  decide

end ReleaseRadar.Frontend
