import ReleaseRadar.Api.RolloutWrite

/-!
# All or nothing

A create or an update writes the rollout in one transaction and its queue in another.
`write_all_or_nothing` goes through every point at which a database call can fail:

* in the write, up to its commit: the answer is an error, nothing has changed, the hub
  has been told nothing;
* in the reschedule: the request succeeds all the same, the queue is as before;
* nowhere: the queue is what the stored stages call for.

Nothing is said of a request whose rollout could not be read back: it is answered as an
error although the write is in.
-/

namespace ReleaseRadar.Api

open Lib Repository NotificationTable

/-- A create or an update, with its decoded body. -/
inductive Write
  | create (sess : Session) (body : Option Rollout)
  | update (id : String) (body : Option Rollout)

namespace Write

def handler (env : Env) : Write → Repo Reply
  | create sess body => createRollout env sess body
  | update id body => updateRollout env id body

/-- The write up to its commit, when the body was readable. -/
def commit (env : Env) : Write → Option (Repo Unit)
  | create sess body => body.map fun ro => createRolloutCommit env.dbNow (createInput env sess ro)
  | update id body => body.map fun ro => updateRolloutTx env.dbNow { ro with id := id }

/-- The rollout it is about. -/
def id (env : Env) : Write → String
  | create sess body => (body.map fun ro => (createInput env sess ro).id).getD ""
  | update id _ => id

/-- The status of its success. -/
def success : Write → Nat
  | create _ _ => 201
  | update _ _ => 200

/-- What it tells the hub. -/
def broadcast (env : Env) (w : Write) : Broadcast :=
  match w with
  | create _ _ => ⟨"rollout", w.id env, "create"⟩
  | update _ _ => ⟨"rollout", w.id env, "update"⟩

end Write

/-- The unsent notifications of the rollout are those its stored stages call for. -/
def Scheduled (clock : Int) (s : Store) (id : String) : Prop :=
  ∀ it, s.notifications.Queues id it ↔ ∃ it' ∈ scheduleItems clock (stagesOf s id), it = it'.stored

/-- An error, and nothing has happened. -/
structure Refused (before : Store) (res : Reply × Conn Store) : Prop where
  status : 400 ≤ res.1.status
  store : res.2.store = before
  silent : res.1.broadcasts = []

/-- A success: one event, and the queue is the one of the stored stages, or, when a
call from `calls` on failed, the one there was. -/
structure Accepted (w : Write) (env : Env) (F : Faults Err) (before : Store) (calls : Nat)
    (res : Reply × Conn Store) : Prop where
  status : res.1.status = w.success
  event : res.1.broadcasts = [w.broadcast env]
  queue : Scheduled env.clock res.2.store (w.id env) ∨
    (res.2.store.notifications = before.notifications ∧ ∃ k, calls ≤ k ∧ (F k).isSome)

/-- Every start in the table is at database resolution. -/
def WholeStarts (s : Store) : Prop := ∀ r ∈ s.rolloutStages, pgTimestamp r.startAt = r.startAt

instance (s : Store) : Decidable (WholeStarts s) :=
  inferInstanceAs (Decidable (∀ r ∈ s.rolloutStages, _))

/-- No sent row of the rollout fires after `clock`. -/
def SentBy (clock : Int) (s : Store) (id : String) : Prop :=
  ∀ n ∈ s.notifications.rows, n.rolloutId = id → ¬n.unsent → n.fireAt ≤ clock

instance (clock : Int) (s : Store) (id : String) : Decidable (SentBy clock s id) :=
  inferInstanceAs (Decidable (∀ n ∈ s.notifications.rows, _))

/-! ## The schedule of what has been stored -/

theorem whole_stagesOf {s : Store} (h : WholeStarts s) (id : String) :
    Notify.Whole (stagesOf s id) := by
  intro st hst
  obtain ⟨r, hr, rfl⟩ := List.mem_map.mp hst
  have hrow : r ∈ s.rolloutStages.filter fun r => r.rolloutId == id :=
    (List.perm_insertionSort _ _).subset hr
  exact h r (List.mem_filter.mp hrow).1

private theorem whole_append {rows : List StageRow} {id : String} {sts : List RolloutStage}
    (h : ∀ r ∈ rows, pgTimestamp r.startAt = r.startAt) :
    ∀ r ∈ rows ++ stageRowsFor id sts, pgTimestamp r.startAt = r.startAt := by
  intro r hr
  rcases List.mem_append.mp hr with hold | hnew
  · exact h r hold
  · obtain ⟨st, -, rfl⟩ := List.mem_map.mp hnew
    exact pgTimestamp_idem _

theorem wholeStarts_applyCreate {s : Store} {now : Int} {ro : Rollout} {tasks : List String}
    (h : WholeStarts s) : WholeStarts (applyCreate now ro tasks s) := whole_append h

theorem wholeStarts_applyUpdate {s : Store} {now : Int} {ro : Rollout} (h : WholeStarts s) :
    WholeStarts (applyUpdate now ro s) :=
  whole_append fun r hr => h r (List.mem_filter.mp hr).1

/-- A reschedule of the stored stages makes the queue theirs. -/
theorem scheduled_reschedule {clock : Int} {s : Store} {id : String} (hwhole : WholeStarts s)
    (hsent : SentBy clock s id) :
    Scheduled clock
      { s with
        notifications :=
          s.notifications.reschedule id (scheduleItems clock (stagesOf s id)) }
      id := by
  intro it
  refine queues_reschedule (fun n hn hr hu => ?_) it
  exact Notify.sent_not_item (whole_stagesOf hwhole id) (hsent n hn hr hu)

/-! ## Every point of failure -/

section Ending

variable {env : Env} {write : Repo Unit} {id : String} {answer : Rollout → Reply} {F : Faults Err}
  {c c₁ : Conn Store} {res : Reply × Conn Store}

/-- A write that fails and leaves no trace is a refusal. -/
theorem Ending.refused_of_error {e : Err} (h : Ending env write id answer F c res)
    (hwrite : write F c = (.error e, c₁)) (hstore : c₁.store = c.store) : Refused c.store res := by
  cases h with
  | refused e' c₁' hwrite' =>
    obtain ⟨rfl, rfl⟩ : e = e' ∧ c₁ = c₁' := by simpa using hwrite.symm.trans hwrite'
    exact ⟨writeErr_status e, hstore, writeErr_silent e⟩
  | unread c₁' e' c₂ hwrite' hread => simp [hwrite] at hwrite'
  | answered c₁' out c₂ r c₃ hwrite' hread hschedule => simp [hwrite] at hwrite'

/-- A write that is in, and whose rollout is read back, is answered, and the queue is
rescheduled unless a call of that fails. -/
theorem Ending.accepted_of_ok {w : Write} (h : Ending env write (w.id env) answer F c res)
    (hanswer : ∀ out, out.id = w.id env →
      (answer out).status = w.success ∧ (answer out).broadcasts = [w.broadcast env])
    (hwrite : write F c = (.ok (), c₁)) (hread : ∀ k < 4, F (c₁.calls + k) = none)
    (hnul : hasNul (w.id env) = false) (hhas : c₁.store.hasRollout (w.id env) = true)
    (hwhole : WholeStarts c₁.store) (hsent : SentBy env.clock c.store (w.id env))
    (hqueue : c₁.store.notifications = c.store.notifications) :
    Accepted w env F c.store (c₁.calls + 4) res := by
  obtain ⟨row, hid, hclean⟩ := rollout_clean hread hnul hhas
  cases h with
  | refused e' c₁' hwrite' => simp [hwrite] at hwrite'
  | unread c₁' e' c₂ hwrite' hread' =>
    obtain rfl : c₁ = c₁' := by simpa using hwrite.symm.trans hwrite'
    simp [hclean] at hread'
  | answered c₁' out c₂ r c₃ hwrite' hread' hschedule =>
    obtain rfl : c₁ = c₁' := by simpa using hwrite.symm.trans hwrite'
    obtain ⟨rfl, rfl⟩ : hydrated c₁.store row = out ∧ ⟨c₁.store, c₁.calls + 4⟩ = c₂ := by
      simpa using hclean.symm.trans hread'
    have hout : (hydrated c₁.store row).id = w.id env := hid
    have hstages : (hydrated c₁.store row).stages.items = stagesOf c₁.store (w.id env) := by
      rw [← hid]
      rfl
    refine ⟨(hanswer _ hout).1, (hanswer _ hout).2, ?_⟩
    rw [hout, hstages] at hschedule
    cases r with
    | ok u =>
      refine Or.inl ?_
      rw [show c₃.store = _ from rescheduleNotifications_ok hschedule]
      refine scheduled_reschedule hwhole ?_
      unfold SentBy
      rw [hqueue]
      exact hsent
    | error e =>
      have hback := Db.tx_error_store hschedule
      refine Or.inr ⟨(congrArg Store.notifications hback).trans hqueue, ?_⟩
      -- it would have succeeded had no call failed
      by_contra hnone
      have hahead : Db.Clean F ⟨c₁.store, c₁.calls + 4⟩ := by
        intro k hk
        by_contra hF
        exact hnone ⟨k, hk, Option.isSome_iff_ne_none.mpr hF⟩
      obtain ⟨u, c', hok, -⟩ := total_rescheduleNotifications hnul _ F _ hahead hhas
      rw [hschedule] at hok
      simp at hok

end Ending

/-- A request without a readable body is refused. -/
theorem refused_undecoded (c : Conn Store) : Refused c.store (badRequestBody, c) :=
  ⟨Nat.le_refl 400, rfl, rfl⟩

/-- **A create or an update is all or nothing**, at every point of failure but the
re-read: an unreadable body or a failing write is refused and leaves no trace; a write
that is in and whose rollout is read back succeeds with one event, and with the queue
of the stored stages unless a call of the reschedule fails. -/
theorem write_all_or_nothing (w : Write) (env : Env) (F : Faults Err) (c : Conn Store)
    (hwhole : WholeStarts c.store) (hsent : SentBy env.clock c.store (w.id env)) :
    (w.commit env = none → Refused c.store (serve (w.handler env) F c)) ∧
      ∀ write ∈ w.commit env,
        (∀ e c₁, write F c = (.error e, c₁) → Refused c.store (serve (w.handler env) F c)) ∧
        ∀ c₁, write F c = (.ok (), c₁) → (∀ k < 4, F (c₁.calls + k) = none) →
          Accepted w env F c.store (c₁.calls + 4) (serve (w.handler env) F c) := by
  cases w with
  | create sess body =>
    cases body with
    | none => exact ⟨fun _ => refused_undecoded c, fun write hwrite => by cases hwrite⟩
    | some ro =>
      refine ⟨nofun, fun write hwrite => ?_⟩
      obtain rfl := Option.some.inj hwrite
      have hend := serve_writeAndSchedule env
        (createRolloutCommit env.dbNow (createInput env sess ro)) (createInput env sess ro).id
        (created env.zone)
        F c
      rw [← createRollout_eq] at hend
      refine ⟨fun e c₁ hw => hend.refused_of_error hw (createRolloutCommit_error hw),
        fun c₁ hw hread => ?_⟩
      obtain ⟨-, hnul, tasks, hstore⟩ := createRolloutCommit_ok hw
      have hhas : c₁.store.hasRollout (createInput env sess ro).id = true := by
        rw [hstore]
        simp
      have hwhole₁ : WholeStarts c₁.store := by
        rw [hstore]
        exact wholeStarts_applyCreate hwhole
      refine hend.accepted_of_ok (w := .create sess (some ro)) (fun out hout => ⟨rfl, ?_⟩) hw hread
        hnul hhas hwhole₁ hsent (by rw [hstore]; rfl)
      show [Broadcast.mk "rollout" out.id "create"] = _
      rw [hout]
      rfl
  | update id body =>
    cases body with
    | none => exact ⟨fun _ => refused_undecoded c, fun write hwrite => by cases hwrite⟩
    | some ro =>
      refine ⟨nofun, fun write hwrite => ?_⟩
      obtain rfl := Option.some.inj hwrite
      have hend := serve_writeAndSchedule env
        (updateRolloutTx env.dbNow { ro with id := id }) id (updated env.zone) F c
      rw [← updateRollout_eq] at hend
      refine ⟨fun e c₁ hw => hend.refused_of_error hw (updateRolloutTx_error hw),
        fun c₁ hw hread => ?_⟩
      obtain ⟨hhad, hnul, hstore⟩ := updateRolloutTx_ok hw
      have hhas : c₁.store.hasRollout id = true := by
        rw [hstore]
        simpa using hhad
      have hwhole₁ : WholeStarts c₁.store := by
        rw [hstore]
        exact wholeStarts_applyUpdate hwhole
      refine hend.accepted_of_ok (w := .update id (some ro)) (fun out hout => ⟨rfl, ?_⟩) hw hread
        hnul hhas hwhole₁ hsent (by rw [hstore]; rfl)
      show [Broadcast.mk "rollout" out.id "update"] = _
      rw [hout]
      rfl

/-! ## A success without its notifications -/

private def caller : Session := ⟨"", "", "", roleAdmin, none, 0⟩

private def atMidnight : Env := ⟨0, 0, "01234567", Char.toUpper, Char.toLower, fun _ => 0⟩

private def oneProduct : Store :=
  { Store.empty with
    products := [⟨"p1", "Product", none, []⟩]
    rolloutTypes := [⟨"t1", "Type", "T", "info", 0, 0, none, none, []⟩] }

/-- A rollout with a stage five hours out. -/
private def inFiveHours : Rollout :=
  ⟨"r1", "p1", "t1", "Title", "", "", "",
    some [⟨"non-prod", 5 * hour, hour, "scheduled"⟩], none, none,
    0, 0, ""⟩

/-- The call at index `k` fails. -/
private def failingAt (k : Nat) : Faults Err := fun i =>
  if i = k then some (.fail (.other "connection lost")) else none

/-- Without a failure the create is accepted and scheduled. -/
theorem write_all_or_nothing_clean :
    ∃ c₁, Accepted (.create caller (some inFiveHours)) atMidnight Db.noFaults oneProduct (c₁ + 4)
      (serve (createRollout atMidnight caller (some inFiveHours)) Db.noFaults ⟨oneProduct, 0⟩) := by
  obtain ⟨-, h⟩ := write_all_or_nothing (.create caller (some inFiveHours)) atMidnight Db.noFaults
    ⟨oneProduct, 0⟩ (by decide) (by decide)
  obtain ⟨-, hok⟩ := h _ rfl
  match hw : createRolloutCommit 0 (createInput atMidnight caller inFiveHours) Db.noFaults
      ⟨oneProduct, 0⟩ with
  | (.ok (), c₁) => exact ⟨c₁.calls, hok c₁ hw fun _ _ => rfl⟩
  | (.error e, c₁) =>
    have hsome : (createRolloutCommit 0 (createInput atMidnight caller inFiveHours) Db.noFaults
        ⟨oneProduct, 0⟩).1.isOk = true := by decide +kernel
    rw [hw] at hsome
    cases hsome

/-- The create whose reschedule fails at its `DELETE`. -/
def cutCreate : Reply × Conn Store :=
  serve (createRollout atMidnight caller (some inFiveHours)) (failingAt 11) ⟨oneProduct, 0⟩

/-- **A create whose reschedule fails** is answered as a success, the hub is told, and
no notification is in the queue. -/
theorem created_unscheduled :
    cutCreate.1.status = 201 ∧ cutCreate.1.broadcasts = [⟨"rollout", "r1", "create"⟩] ∧
      cutCreate.2.store.notifications.rows = [] ∧ ¬Scheduled 0 cutCreate.2.store "r1" := by
  have hempty : cutCreate.2.store.notifications.rows = [] := by decide
  have hcalled : (⟨0, .TMS_NP, 4 * hour⟩ : ScheduledNotification) ∈
      scheduleItems 0 (stagesOf cutCreate.2.store "r1") := by decide
  refine ⟨by decide, by decide +kernel, hempty, fun h => ?_⟩
  obtain ⟨n, hn, -⟩ := (h ⟨0, .TMS_NP, 4 * hour⟩).mpr ⟨_, hcalled, by decide⟩
  rw [hempty] at hn
  cases hn

end ReleaseRadar.Api
