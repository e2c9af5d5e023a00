import ReleaseRadar.Api.RolloutWrite
import ReleaseRadar.Lib.Machine

/-!
# The completion log of the tasks

Three requests write task rows: `createRollout` copies blank ones, `updateTask` signs
the row it completes and clears the one it reopens, and `updateRollout` stores the log
of its body as it came, only with the status clamped. A body can therefore leave a
pending task with a completion time, or a completion nobody recorded
(`forged_log_stored`).

`task_log_authentic`: in every run in which each `updateRollout` body holds no log but
what `updateTask` had recorded (`Attested`), every row is coherent and signed
(`Authentic`).
-/

namespace ReleaseRadar.Api

open Lib Repository

namespace TaskLog

/-- An `updateTask` that set a status: on which rollout, which status, by whom. -/
structure Signature where
  rolloutId : String
  status : String
  by_ : String
deriving DecidableEq, Repr

inductive Request
  | create (env : Env) (sess : Session) (body : Option Rollout)
  | update (env : Env) (sess : Session) (id : String) (body : Option Rollout)
  | task (env : Env) (sess : Session) (id seq : String) (body : Option TaskBody)

def Request.session : Request → Session
  | create _ sess _ | update _ sess _ _ | task _ sess _ _ _ => sess

def Request.handler : Request → Repo Reply
  | create env sess body => createRollout env sess body
  | update env _ id body => updateRollout env id body
  | task env sess id seq body => updateTask env sess id seq body

/-- The status an answered request has set on a row, with the session that did. -/
def Request.signs (s : Store) (reply : Reply) : Request → List Signature
  | task _ sess id seq (some body) =>
    match atoi seq with
    | none => []
    | some n =>
      if reply.status = 204 ∧ body.status ≠ "" ∧ s.rolloutTasks.any (addressed id n) then
        [⟨id, body.status, sess.id⟩]
      else []
  | _ => []

/-- The database, and every status set so far. -/
structure State where
  store : Store
  signed : List Signature

/-- A request, and which of its database calls fail. -/
structure Action where
  request : Request
  faults : Faults Err

/-- `RequireAdmin` lets a request through. -/
def step (s : State) (a : Action) : Option State :=
  if a.request.session.role = roleAdmin then
    let res := serve a.request.handler a.faults ⟨s.store, 0⟩
    some ⟨res.2.store, s.signed ++ a.request.signs s.store res.1⟩
  else none

def service : Machine State Action := ⟨step⟩

/-- Nothing has been logged. -/
def start (s : Store) : State := ⟨s, []⟩

/-- The log entry of a row is coherent, and a completion is signed by the admin who
recorded it. -/
structure Authentic (signed : List Signature) (r : TaskRow) : Prop where
  coherent : r.status = "" ↔ r.completedBy = none ∧ r.completedAt = none
  signed : r.status = "done" ∨ r.status = "failed" →
    ∃ by_, r.completedBy = some by_ ∧ ⟨r.rolloutId, r.status, by_⟩ ∈ signed

/-- Every row of the table is. -/
def LogAuthentic (s : State) : Prop := ∀ r ∈ s.store.rolloutTasks, Authentic s.signed r

/-- A task of a body carries no log entry but one that was recorded. -/
def Attested (signed : List Signature) (id : String) (t : RolloutTask) : Prop :=
  if clampStatus t.status = "" then t.by_ = "" ∧ t.at_ = none
  else t.by_ ≠ "" ∧ ⟨id, clampStatus t.status, t.by_⟩ ∈ signed

instance (signed : List Signature) (id : String) (t : RolloutTask) :
    Decidable (Attested signed id t) :=
  inferInstanceAs (Decidable (if clampStatus t.status = "" then t.by_ = "" ∧ t.at_ = none
    else t.by_ ≠ "" ∧ ⟨id, clampStatus t.status, t.by_⟩ ∈ signed))

/-- An update of a stored rollout brings attested tasks only, and whoever completes a
task has an id. -/
def Honest (s : State) (a : Action) : Prop :=
  match a.request with
  | .create _ _ _ => True
  | .update _ _ id body =>
    s.store.hasRollout id → ∀ ro ∈ body, ∀ t ∈ ro.tasks.items, Attested s.signed id t
  | .task _ sess _ _ body => ∀ b ∈ body, b.status ≠ "" → sess.id ≠ ""

instance (s : State) : (a : Action) → Decidable (Honest s a)
  | ⟨.create _ _ _, _⟩ => isTrue trivial
  | ⟨.update _ _ id body, _⟩ =>
    inferInstanceAs (Decidable (s.store.hasRollout id → ∀ ro ∈ body, ∀ t ∈ ro.tasks.items,
      Attested s.signed id t))
  | ⟨.task _ sess _ _ body, _⟩ =>
    inferInstanceAs (Decidable (∀ b ∈ body, b.status ≠ "" → sess.id ≠ ""))

/-! ## What each request does to the task rows -/

theorem Authentic.mono {signed signed' : List Signature} {r : TaskRow} (h : Authentic signed r)
    (hsub : signed ⊆ signed') : Authentic signed' r where
  coherent := h.coherent
  signed hs := by
    obtain ⟨by_, hby, hmem⟩ := h.signed hs
    exact ⟨by_, hby, hsub hmem⟩

/-- An inherited task has a blank log. -/
theorem authentic_inherited {signed : List Signature} {id : String} {descs : List String}
    {r : TaskRow} (hr : r ∈ inheritedRowsFor id descs) : Authentic signed r := by
  obtain ⟨d, -, rfl⟩ := List.mem_map.mp hr
  exact ⟨⟨fun _ => ⟨rfl, rfl⟩, fun _ => rfl⟩, fun h => by simp at h⟩

/-- An attested task of a body is stored with its log. -/
theorem authentic_taskRow {signed : List Signature} {id : String} {t : RolloutTask} {i : Nat}
    (h : Attested signed id t) : Authentic signed (taskRow id t i) := by
  unfold Attested at h
  split at h
  · next hpending =>
    obtain ⟨hby, hat⟩ := h
    constructor
    · show clampStatus t.status = "" ↔ nullIfEmpty t.by_ = none ∧ t.at_.map pgTimestamp = none
      simp [hpending, hby, hat, nullIfEmpty]
    · show clampStatus t.status = "done" ∨ clampStatus t.status = "failed" → _
      simp [hpending]
  · next hset =>
    obtain ⟨hby, hmem⟩ := h
    have hstored : nullIfEmpty t.by_ = some t.by_ := if_neg hby
    constructor
    · show clampStatus t.status = "" ↔ nullIfEmpty t.by_ = none ∧ t.at_.map pgTimestamp = none
      simp [hset, hstored]
    · intro _
      exact ⟨t.by_, hstored, hmem⟩

/-- `updateTask` on a row: cleared when it is reopened, signed when it is completed. -/
theorem authentic_logTask {signed : List Signature} {now : Int} {status reason by_ : String}
    {r : TaskRow} (h : clampStatus status ≠ "" → by_ ≠ "" ∧
      ⟨r.rolloutId, clampStatus status, by_⟩ ∈ signed) :
    Authentic signed (logTask now status reason by_ r) := by
  unfold logTask
  split
  · exact ⟨⟨fun _ => ⟨rfl, rfl⟩, fun _ => rfl⟩, fun h => by simp at h⟩
  · next hset =>
    obtain ⟨hby, hmem⟩ := h hset
    have hstored : nullIfEmpty by_ = some by_ := if_neg hby
    exact ⟨by simp [hset], fun _ => ⟨by_, hstored, hmem⟩⟩

private theorem create_authentic {signed : List Signature} {env : Env} {sess : Session}
    {body : Option Rollout} {F : Faults Err} {c : Conn Store}
    (hI : ∀ r ∈ c.store.rolloutTasks, Authentic signed r) :
    ∀ r ∈ (serve (createRollout env sess body) F c).2.store.rolloutTasks, Authentic signed r := by
  intro r hr
  cases body with
  | none => exact hI r hr
  | some ro =>
    rcases createRollout_keeps (p := Store.rolloutTasks) (fun _ _ => rfl) with hsame | ⟨tasks, hnew⟩
    · rw [hsame] at hr
      exact hI r hr
    · rw [hnew] at hr
      rcases List.mem_append.mp hr with hold | hinherited
      · exact hI r hold
      · exact authentic_inherited hinherited

private theorem update_authentic {signed : List Signature} {env : Env} {id : String}
    {body : Option Rollout} {F : Faults Err} {c : Conn Store}
    (hI : ∀ r ∈ c.store.rolloutTasks, Authentic signed r)
    (hbody : c.store.hasRollout id → ∀ ro ∈ body, ∀ t ∈ ro.tasks.items, Attested signed id t) :
    ∀ r ∈ (serve (updateRollout env id body) F c).2.store.rolloutTasks, Authentic signed r := by
  intro r hr
  cases body with
  | none => exact hI r hr
  | some ro =>
    rcases updateRollout_keeps (p := Store.rolloutTasks) (fun _ _ => rfl) with hsame | ⟨hhas, hnew⟩
    · rw [hsame] at hr
      exact hI r hr
    · rw [hnew, applyUpdate_rolloutTasks] at hr
      rcases List.mem_append.mp hr with hold | hgiven
      · exact hI r (List.mem_filter.mp hold).1
      · obtain ⟨⟨t, i⟩, ht, rfl⟩ := List.mem_map.mp hgiven
        exact authentic_taskRow (hbody hhas ro rfl t (List.fst_mem_of_mem_zipIdx ht))

/-- What an `updateTask` does: nothing, or it sets the addressed rows and says so. -/
theorem serve_updateTask (env : Env) (sess : Session) (id seq : String) (body : Option TaskBody)
    (F : Faults Err) (c : Conn Store) :
    (serve (updateTask env sess id seq body) F c).2.store = c.store ∨
      ∃ n b, atoi seq = some n ∧ body = some b ∧ clampStatus b.status = b.status ∧
        (serve (updateTask env sess id seq body) F c).1.status = 204 ∧
        (serve (updateTask env sess id seq body) F c).2.store =
          applyTask env.dbNow id n b.status b.reason sess.id c.store := by
  unfold updateTask
  cases hn : atoi seq with
  | none => exact Or.inl rfl
  | some n =>
    cases body with
    | none => exact Or.inl rfl
    | some b =>
      simp only [decoded]
      split
      · exact Or.inl rfl
      · next hvalid =>
        simp only [serve, Db.bind_def]
        rcases hw : updateRolloutTask env.dbNow id n b.status b.reason sess.id F c with ⟨r, c₁⟩
        cases r with
        | error e => exact Or.inl (updateRolloutTask_error hw)
        | ok u =>
          refine Or.inr ⟨n, b, rfl, rfl, ?_, rfl, updateRolloutTask_ok hw⟩
          unfold clampStatus
          rw [if_neg hvalid]

/-- The signature of a completion that got through. -/
private theorem signs_of_set {s : Store} {reply : Reply} {env : Env} {sess : Session}
    {id seq : String} {n : Int} {b : TaskBody} (hn : atoi seq = some n) (hok : reply.status = 204)
    (hset : b.status ≠ "") {r : TaskRow} (hr : r ∈ s.rolloutTasks) (hhit : addressed id n r) :
    (Request.task env sess id seq (some b)).signs s reply = [⟨id, b.status, sess.id⟩] := by
  have hany : s.rolloutTasks.any (addressed id n) = true := List.any_eq_true.mpr ⟨r, hr, hhit⟩
  simp only [Request.signs, hn]
  rw [if_pos ⟨hok, hset, hany⟩]

private theorem task_authentic {signed : List Signature} {env : Env} {sess : Session}
    {id seq : String} {body : Option TaskBody} {F : Faults Err} {c : Conn Store}
    (hI : ∀ r ∈ c.store.rolloutTasks, Authentic signed r)
    (hid : ∀ b ∈ body, b.status ≠ "" → sess.id ≠ "") :
    ∀ r ∈ (serve (updateTask env sess id seq body) F c).2.store.rolloutTasks,
      Authentic (signed ++ (Request.task env sess id seq body).signs c.store
        (serve (updateTask env sess id seq body) F c).1) r := by
  intro r hr
  rcases serve_updateTask env sess id seq body F c with hsame | ⟨n, b, hn, rfl, hclamp, hok, hset⟩
  · rw [hsame] at hr
    exact (hI r hr).mono (List.subset_append_left ..)
  · rw [hset] at hr
    obtain ⟨r₀, hr₀, rfl⟩ := List.mem_map.mp hr
    split
    · next hhit =>
      refine authentic_logTask fun hstatus => ?_
      rw [hclamp] at hstatus ⊢
      have hrow : r₀.rolloutId = id := by
        simp only [addressed, Bool.and_eq_true, beq_iff_eq] at hhit
        exact hhit.1
      refine ⟨hid b rfl hstatus, List.mem_append_right _ ?_⟩
      rw [signs_of_set hn hok hstatus hr₀ hhit, hrow]
      exact List.mem_singleton.mpr rfl
    · exact (hI r₀ hr₀).mono (List.subset_append_left ..)

/-! ## Every run -/

theorem service_step {s s' : State} {a : Action} (h : service.step s a = some s') :
    s' = ⟨(serve a.request.handler a.faults ⟨s.store, 0⟩).2.store,
      s.signed ++ a.request.signs s.store (serve a.request.handler a.faults ⟨s.store, 0⟩).1⟩ := by
  simp only [service, step] at h
  split at h
  · exact (Option.some.inj h).symm
  · cases h

/-- **A step of an honest request keeps the log authentic.** -/
theorem logAuthentic_step {s s' : State} {a : Action} (hI : LogAuthentic s) (hg : Honest s a)
    (h : service.step s a = some s') : LogAuthentic s' := by
  obtain ⟨req, F⟩ := a
  obtain rfl := service_step h
  cases req with
  | create env sess body =>
    intro r hr
    have hold := create_authentic (c := ⟨s.store, 0⟩) hI r hr
    exact hold.mono (List.subset_append_left ..)
  | update env sess id body =>
    intro r hr
    have hold := update_authentic (c := ⟨s.store, 0⟩) hI hg r hr
    exact hold.mono (List.subset_append_left ..)
  | task env sess id seq body => exact task_authentic (c := ⟨s.store, 0⟩) hI hg

/-- **The log is authentic** after every run of honest requests, failing ones and those
of any faults included. -/
theorem task_log_authentic {store : Store} {as : List Action} {s : State}
    (hempty : store.rolloutTasks = []) (hhonest : service.Along Honest (start store) as)
    (hrun : service.exec (start store) as = some s) : LogAuthentic s := by
  have hstart : LogAuthentic (start store) := by
    intro r hr
    rw [show (start store).store.rolloutTasks = [] from hempty] at hr
    cases hr
  exact service.exec_invariant_along (fun _ _ _ hI hg h => logAuthentic_step hI hg h) hstart
    hhonest hrun

/-! ## A completion that nobody recorded -/

private def admin : Session := ⟨"ann", "ann@example.com", "Ann", roleAdmin, none, 0⟩

private def env : Env := ⟨second, second, "01234567", Char.toUpper, Char.toLower, fun _ => 0⟩

/-- One product, and one rollout type with one task. -/
private def seeded : Store :=
  { Store.empty with
    actors := [⟨"ann", "ann@example.com", "Ann", roleAdmin⟩]
    products := [⟨"p1", "Product", none, []⟩]
    rolloutTypes := [⟨"t1", "Type", "T", "info", 0, 0, none, none, []⟩]
    rolloutTypeTasks := [⟨"t1", 0, "Deploy"⟩] }

private def withTasks (tasks : List RolloutTask) : Rollout :=
  ⟨"r1", "p1", "t1", "Title", "", "", "", none, none, some tasks, 0, 0, ""⟩

/-- Create, complete the task, then save the rollout with the given tasks. -/
private def saving (tasks : List RolloutTask) : List Action :=
  [⟨.create env admin (some (withTasks [])), Db.noFaults⟩,
    ⟨.task env admin "r1" "0" (some ⟨"done", ""⟩), Db.noFaults⟩,
    ⟨.update env admin "r1" (some (withTasks tasks)), Db.noFaults⟩]

/-- Saving the tasks as they were recorded keeps the log. -/
theorem task_log_authentic_saved :
    ∃ s, service.exec (start seeded) (saving [⟨0, "Deploy it", "done", "", "ann", some second⟩])
        = some s ∧ LogAuthentic s := by
  have hrun : ∃ s, service.exec (start seeded)
      (saving [⟨0, "Deploy it", "done", "", "ann", some second⟩]) = some s ∧ True := by
    decide
  obtain ⟨s, hs, -⟩ := hrun
  exact ⟨s, hs, task_log_authentic rfl (by decide +kernel) hs⟩

/-- **A pending task with a completion log**: the status of the body is out of range and
clamped, its log is stored as it came. -/
theorem forged_log_stored :
    ∃ s, service.exec (start seeded) (saving [⟨0, "Deploy", "skipped", "", "ann", some second⟩])
        = some s ∧ ¬LogAuthentic s := by
  have hrun : ∃ s, service.exec (start seeded)
      (saving [⟨0, "Deploy", "skipped", "", "ann", some second⟩]) = some s ∧
      s.store.rolloutTasks = [⟨"r1", 0, "Deploy", "", "", some "ann", some second⟩] := by
    decide +kernel
  obtain ⟨s, hs, hrows⟩ := hrun
  refine ⟨s, hs, fun h => ?_⟩
  have hrow := h ⟨"r1", 0, "Deploy", "", "", some "ann", some second⟩ (by rw [hrows]; simp)
  exact absurd (hrow.coherent.mp rfl).1 (Option.some_ne_none _)

end TaskLog

end ReleaseRadar.Api
