import ReleaseRadar.Api.Handlers
import ReleaseRadar.Store.RolloutSpec

/-!
# A create or an update, from request to reply

`createRollout` and `updateRollout` are one program (`writeAndSchedule`): write in a
transaction, read the rollout back, reschedule, answer. `serve_writeAndSchedule`
says how it can end, for every fault plan; what the two handlers do to a table is
read off it.
-/

namespace ReleaseRadar.Api

open Lib Repository

/-- Write, read back, reschedule, answer. -/
def writeAndSchedule (env : Env) (write : Repo Unit) (id : String) (answer : Rollout → Reply) :
    Repo Reply := do
  write
  let out ← rollout id
  scheduleNotifications env out
  pure (answer out)

/-- The answer to a create, `zone` being the server's. -/
def created (zone : Int → Int) (out : Rollout) : Reply :=
  (writeStored zone 201 out.toJson).after ⟨"rollout", out.id, "create"⟩

/-- The answer to an update. -/
def updated (zone : Int → Int) (out : Rollout) : Reply :=
  (writeStored zone 200 out.toJson).after ⟨"rollout", out.id, "update"⟩

/-- An error is not answered as a success. -/
theorem writeErr_status (e : Err) : 400 ≤ (writeErr e).status := by
  unfold writeErr
  split
  · decide
  · split <;> simp [httpError]
  · decide

theorem writeErr_ne (e : Err) {status : Nat} (h : status < 400) : (writeErr e).status ≠ status := by
  have := writeErr_status e
  omega

theorem writeErr_refused (e : Err) : ¬(writeErr e).status / 100 = 2 := by
  have := writeErr_status e
  omega

section Answered

variable {α : Type} {m : Repo α} {answer : α → Reply} {F : Faults Err} {c c' : Conn Store}

/-- A handler of one call of the store answers with what that gave, or with its error. -/
theorem serve_of_ok {a : α} (h : m F c = (.ok a, c')) :
    serve (m >>= fun a => pure (answer a)) F c = (answer a, c') := by
  unfold serve
  rw [Db.bind_def, h]
  rfl

theorem serve_of_error {e : Err} (h : m F c = (.error e, c')) :
    serve (m >>= fun a => pure (answer a)) F c = (writeErr e, c') := by
  unfold serve
  rw [Db.bind_def, h]

/-- A handler that succeeds has gone through its call of the store. -/
theorem serve_ok (hok : (serve (m >>= fun a => pure (answer a)) F c).1.status / 100 = 2) :
    ∃ a c', m F c = (.ok a, c') ∧ serve (m >>= fun a => pure (answer a)) F c = (answer a, c') := by
  match hm : m F c with
  | (.ok a, c') => exact ⟨a, c', rfl, serve_of_ok hm⟩
  | (.error e, c') =>
    rw [serve_of_error hm] at hok
    exact absurd hok (writeErr_refused e)

end Answered

/-- An error tells the hub nothing. -/
theorem writeErr_silent (e : Err) : (writeErr e).broadcasts = [] := by
  unfold writeErr
  split
  · rfl
  · split <;> rfl
  · rfl

theorem createRollout_eq [Indexes] (env : Env) (sess : Session) (ro : Rollout) :
    createRollout env sess (some ro) =
      writeAndSchedule env (createRolloutCommit env.dbNow (createInput env sess ro))
        (createInput env sess ro).id (created env.zone) :=
  Db.bind_assoc _ _ _

theorem updateRollout_eq [Indexes] (env : Env) (id : String) (ro : Rollout) :
    updateRollout env id (some ro) =
      writeAndSchedule env (updateRolloutTx env.dbNow { ro with id := id }) id (updated env.zone) :=
  Db.bind_assoc _ _ _

/-- How a write request ends. -/
inductive Ending (env : Env) (write : Repo Unit) (id : String) (answer : Rollout → Reply)
    (F : Faults Err) (c : Conn Store) : Reply × Conn Store → Prop
  /-- The write failed. -/
  | refused (e : Err) (c₁ : Conn Store) (hwrite : write F c = (.error e, c₁)) :
      Ending env write id answer F c (writeErr e, c₁)
  /-- The write is in, and reading it back failed. -/
  | unread (c₁ : Conn Store) (e : Err) (c₂ : Conn Store) (hwrite : write F c = (.ok (), c₁))
      (hread : rollout id F c₁ = (.error e, c₂)) :
      Ending env write id answer F c (writeErr e, c₂)
  /-- The write is in, and the rollout was rescheduled, or that failed. -/
  | answered (c₁ : Conn Store) (out : Rollout) (c₂ : Conn Store) (r : Except Err Unit)
      (c₃ : Conn Store) (hwrite : write F c = (.ok (), c₁))
      (hread : rollout id F c₁ = (.ok out, c₂))
      (hschedule : rescheduleNotifications out.id (scheduleItems env.clock out.stages.items) F c₂
        = (r, c₃)) :
      Ending env write id answer F c (answer out, c₃)

/-- **How a create or an update ends**, whatever fails. -/
theorem serve_writeAndSchedule (env : Env) (write : Repo Unit) (id : String)
    (answer : Rollout → Reply) (F : Faults Err) (c : Conn Store) :
    Ending env write id answer F c (serve (writeAndSchedule env write id answer) F c) := by
  unfold serve writeAndSchedule
  rw [Db.bind_def]
  match hw : write F c with
  | (.error e, c₁) => exact .refused e c₁ hw
  | (.ok (), c₁) =>
    simp only [Db.bind_def]
    match hr : rollout id F c₁ with
    | (.error e, c₂) => exact .unread c₁ e c₂ hw hr
    | (.ok out, c₂) =>
      simp only [scheduleNotifications, Db.attempt, Db.bind_def, Db.pure_def]
      exact .answered c₁ out c₂ _ _ hw hr rfl

/-! ## What a write request does to a table -/

/-- A reschedule works on the queue only. -/
theorem within_rescheduleNotifications {β : Type} {p : Store → β}
    (hp : ∀ s t, p { s with notifications := t } = p s) (id : String)
    (items : List ScheduledNotification) :
    Db.Within (Db.Frame.keeps p) (rescheduleNotifications id items) := by
  refine Db.within_tx (Db.within_bind (within_stmt ?_) fun _ => Db.within_forEach (fun it => ?_) _)
  · intro s a s' h
    obtain rfl := congrArg Prod.snd (Except.ok.inj h)
    exact hp s _
  · refine within_stmt fun s a s' h => ?_
    obtain ⟨-, h₁⟩ := constraint_bind_ok h
    obtain rfl := congrArg Prod.snd (Except.ok.inj h₁)
    exact hp s _

/-- Outside the queue, a write request leaves what its write left. -/
theorem Ending.keeps {β : Type} {p : Store → β} (hp : ∀ s t, p { s with notifications := t } = p s)
    {env : Env} {write : Repo Unit} {id : String} {answer : Rollout → Reply} {F : Faults Err}
    {c : Conn Store} {res : Reply × Conn Store} (h : Ending env write id answer F c res) :
    p res.2.store = p (write F c).2.store := by
  cases h with
  | refused e c₁ hwrite => rw [hwrite]
  | unread c₁ e c₂ hwrite hread =>
    have hstay := within_rollout (Db.Frame.keeps p) id F c₁
    rw [hread] at hstay
    rw [hwrite]
    exact hstay
  | answered c₁ out c₂ r c₃ hwrite hread hschedule =>
    have hstay := within_rollout (Db.Frame.keeps p) id F c₁
    rw [hread] at hstay
    have hqueue := within_rescheduleNotifications hp out.id
      (scheduleItems env.clock out.stages.items) F c₂
    rw [hschedule] at hqueue
    rw [hwrite]
    exact hqueue.trans hstay

section Tables

variable {β : Type} {p : Store → β} (hp : ∀ s t, p { s with notifications := t } = p s)
  {env : Env} {sess : Session} {id : String} {ro : Rollout} {F : Faults Err} {c : Conn Store}

include hp

/-- Outside the queue, a create does `applyCreate`, or nothing. -/
theorem createRollout_keeps :
    p (serve (createRollout env sess (some ro)) F c).2.store = p c.store ∨
      ∃ tasks, p (serve (createRollout env sess (some ro)) F c).2.store =
        p (applyCreate env.dbNow (createInput env sess ro) tasks c.store) := by
  rw [createRollout_eq, (serve_writeAndSchedule ..).keeps hp]
  match hw : createRolloutCommit env.dbNow (createInput env sess ro) F c with
  | (.error e, c₁) => exact Or.inl (congrArg p (createRolloutCommit_error hw))
  | (.ok (), c₁) =>
    obtain ⟨-, -, tasks, hstore⟩ := createRolloutCommit_ok hw
    exact Or.inr ⟨tasks, congrArg p hstore⟩

/-- Outside the queue, an update that was answered did `applyUpdate`. -/
theorem updateRollout_answered
    (hok : (serve (updateRollout env id (some ro)) F c).1.status = 200) :
    p (serve (updateRollout env id (some ro)) F c).2.store =
      p (applyUpdate env.dbNow { ro with id := id } c.store) := by
  rw [updateRollout_eq] at hok ⊢
  have hend := serve_writeAndSchedule env (updateRolloutTx env.dbNow { ro with id := id }) id
    (updated env.zone)
    F c
  rw [hend.keeps hp]
  generalize serve _ F c = res at hok hend
  cases hend with
  | refused e c₁ hwrite => exact absurd hok (writeErr_ne e (by decide))
  | unread c₁ e c₂ hwrite hread => exact absurd hok (writeErr_ne e (by decide))
  | answered c₁ out c₂ r c₃ hwrite hread hschedule =>
    rw [hwrite]
    exact congrArg p (updateRolloutTx_ok hwrite).2.2

/-- Outside the queue, an update does `applyUpdate` to a rollout that is there, or
nothing. -/
theorem updateRollout_keeps :
    p (serve (updateRollout env id (some ro)) F c).2.store = p c.store ∨
      (c.store.hasRollout id = true ∧ p (serve (updateRollout env id (some ro)) F c).2.store =
        p (applyUpdate env.dbNow { ro with id := id } c.store)) := by
  rw [updateRollout_eq, (serve_writeAndSchedule ..).keeps hp]
  match hw : updateRolloutTx env.dbNow { ro with id := id } F c with
  | (.error e, c₁) => exact Or.inl (congrArg p (updateRolloutTx_error hw))
  | (.ok (), c₁) =>
    obtain ⟨hhas, -, hstore⟩ := updateRolloutTx_ok hw
    exact Or.inr ⟨hhas, congrArg p hstore⟩

end Tables

end ReleaseRadar.Api
