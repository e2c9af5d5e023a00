import ReleaseRadar.Lib.Machine
import ReleaseRadar.Notify.Schedule
import ReleaseRadar.Store.RolloutSpec

/-!
# Requests and dispatcher, interleaved

Any number of `createRollout`, `updateRollout` and `deleteRollout` requests
(`backend/internal/api/handlers.go`) run against one dispatcher goroutine
(`backend/internal/notify/scheduler.go`). Their atomic steps are the points at
which another party can get in between:

* a write request commits its transaction (`create`, `update`), reads the
  rollout back (`reread`), reads the clock and computes the rows (`clock`), and
  replaces the rollout's unsent rows (`reschedule`);
* the dispatcher reads the due rows (`tick`) and then, row by row, reads the
  rollout (`load`), posts (`announce`, with the outcome of the send) and marks
  the row (`mark`).

Time passes by `wait`. `hist` records what happened, newest first; no step reads
it.

Every step runs the repository's own functions; the `step_` lemmas say once what
each of them can do to the state, and no later proof unfolds `step`.
-/

namespace ReleaseRadar

open Lib

namespace Notify

/-- A write request on its way: what it knows, and its next step. `created` tells
`createRollout` from `updateRollout`. -/
inductive Req
  | committed (id : String) (created : Bool)
  | reread (ro : Rollout) (created : Bool)
  | clocked (ro : Rollout) (created : Bool) (clock : Int)
  | done
deriving DecidableEq, Repr

/-- Where the dispatcher is in its loop. `loop []` is between two ticks. -/
inductive Disp
  | loop (todo : List Notification)
  | loaded (n : Notification) (r : Rollout) (stage : RolloutStage) (rest : List Notification)
  | marking (n : Notification) (errMsg : String) (rest : List Notification)
deriving DecidableEq, Repr

namespace Disp

/-- The rows the running tick has read and not yet marked. -/
def hand : Disp → List Notification
  | loop todo => todo
  | loaded n _ _ rest => n :: rest
  | marking n _ rest => n :: rest

/-- The rows the running tick has yet to announce. -/
def toAnnounce : Disp → List Notification
  | loop todo => todo
  | loaded n _ _ rest => n :: rest
  | marking _ _ rest => rest

end Disp

/-- A call of `AnnounceStage`: the row it was made for, the rollout and the stage
rendered, the advance, and how the send ended (`none`: it was posted). -/
structure Post where
  row : Notification
  rollout : Rollout
  stage : RolloutStage
  advance : Int
  time : Int
  outcome : Option String
deriving DecidableEq, Repr

inductive Event
  | committed (req : Nat) (id : String)
  | reread (req : Nat) (id : String)
  | clocked (req : Nat) (id : String) (created : Bool) (clock : Int)
  | rescheduled (req : Nat) (id : String) (created : Bool) (clock : Int)
      (stages : List RolloutStage)
  | ticked (time : Int)
  | announced (post : Post)
deriving DecidableEq, Repr

structure Sys where
  store : Store
  now : Int
  reqs : List Req
  disp : Disp
  hist : List Event

inductive Action
  | wait (d : Nat)
  | create (ro : Rollout)
  | update (id : String) (ro : Rollout)
  | delete (id : String)
  | reread (i : Nat)
  | clock (i : Nat)
  | reschedule (i : Nat)
  | tick (sorted : List Notification)
  | load
  | announce (outcome : Option String)
  | mark

/-- `dispatch` looks the stage up by its index. -/
def loadRow (n : Notification) (rest : List Notification) : Except Err Rollout → Disp
  | .error e => .marking n e.text rest
  | .ok r =>
    match r.stages.items[n.stageSeq]? with
    | none => .marking n "stage out of range" rest
    | some stage => .loaded n r stage rest

def step (s : Sys) : Action → Option Sys
  | .wait d => some { s with now := s.now + d }
  | .create ro =>
    match (Repository.createRolloutCommit s.now ro).run s.store with
    | (.ok _, store) => some { s with
        store := store
        reqs := s.reqs ++ [.committed ro.id true]
        hist := .committed s.reqs.length ro.id :: s.hist }
    | (.error _, store) => some { s with store := store, reqs := s.reqs ++ [.done] }
  | .update id ro =>
    match (Repository.updateRolloutTx s.now { ro with id := id }).run s.store with
    | (.ok _, store) => some { s with
        store := store
        reqs := s.reqs ++ [.committed id false]
        hist := .committed s.reqs.length id :: s.hist }
    | (.error _, store) => some { s with store := store, reqs := s.reqs ++ [.done] }
  | .delete id =>
    some { s with store := ((Repository.deleteRollout id).run s.store).2 }
  | .reread i =>
    match s.reqs[i]? with
    | some (.committed id created) =>
      match (Repository.rollout id).run s.store with
      | (.ok ro, store) => some { s with
          store := store
          reqs := s.reqs.set i (.reread ro created)
          hist := .reread i id :: s.hist }
      | (.error _, store) => some { s with store := store, reqs := s.reqs.set i .done }
    | _ => none
  | .clock i =>
    match s.reqs[i]? with
    | some (.reread ro created) => some { s with
        reqs := s.reqs.set i (.clocked ro created s.now)
        hist := .clocked i ro.id created s.now :: s.hist }
    | _ => none
  | .reschedule i =>
    match s.reqs[i]? with
    | some (.clocked ro created clock) =>
      match (Repository.rescheduleNotifications ro.id
          (scheduleItems clock ro.stages.items)).run s.store with
      | (.ok _, store) => some { s with
          store := store
          reqs := s.reqs.set i .done
          hist := .rescheduled i ro.id created clock ro.stages.items :: s.hist }
      | (.error _, store) => some { s with store := store, reqs := s.reqs.set i .done }
    | _ => none
  | .tick sorted =>
    match s.disp with
    | .loop [] =>
      if NotificationTable.DueOrder s.now s.store.notifications sorted then
        some { s with
          disp := .loop (sorted.take NotificationTable.pendingLimit)
          hist := .ticked s.now :: s.hist }
      else none
    | _ => none
  | .load =>
    match s.disp with
    | .loop (n :: rest) =>
      match (Repository.rollout n.rolloutId).run s.store with
      | (r, store) => some { s with store := store, disp := loadRow n rest r }
    | _ => none
  | .announce outcome =>
    match s.disp with
    | .loaded n r stage rest => some { s with
        disp := .marking n (outcome.getD "") rest
        hist := .announced ⟨n, r, stage, timeSub stage.startAt s.now, s.now, outcome⟩ :: s.hist }
    | _ => none
  | .mark =>
    match s.disp with
    | .marking n errMsg rest =>
      match (Repository.markNotificationSent s.now n.id errMsg).run s.store with
      | (_, store) => some { s with store := store, disp := .loop rest }
    | _ => none

/-- The system. -/
def system : Machine Sys Action := ⟨step⟩

/-- No request under way, no tick running. -/
def start (store : Store) (now : Int) : Sys := ⟨store, now, [], .loop [], []⟩

/-- The posts that went out, newest first. -/
def posts (hist : List Event) : List Post :=
  hist.filterMap fun e =>
    match e with
    | .announced p => if p.outcome.isNone then some p else none
    | _ => none

/-- The last reschedule of a rollout: its clock and the stage list it was computed
from. -/
def lastReschedule (rid : String) (hist : List Event) : Option (Int × List RolloutStage) :=
  hist.findSome? fun e =>
    match e with
    | .rescheduled _ id _ c stages => if id = rid then some (c, stages) else none
    | _ => none

/-- A database with one product and one rollout type. -/
def sampleStore : Store :=
  { Store.empty with
    products := [⟨"p1", "Product", none, []⟩]
    rolloutTypes := [⟨"t1", "Type", "T", "info", 0, 0, none, none, []⟩] }

/-- A rollout with one stage in `env`. -/
def sampleRollout (env : String) (startAt : Int) : Rollout :=
  ⟨"r1", "p1", "t1", "Title", "", "", "", some [⟨env, startAt, hour, "scheduled"⟩], none, none,
    0, 0, ""⟩

/-! ## What each step can do -/

section Steps

variable {s s' : Sys}

/-- A create commits its rollout, or ends. -/
theorem step_create {ro : Rollout} (h : step s (.create ro) = some s') :
    s' = { s with reqs := s.reqs ++ [.done] } ∨
    (s.store.hasRollout ro.id = false ∧ hasNul ro.id = false ∧ ∃ tasks,
      s' = { s with
        store := Repository.applyCreate s.now ro tasks s.store
        reqs := s.reqs ++ [.committed ro.id true]
        hist := .committed s.reqs.length ro.id :: s.hist }) := by
  unfold step at h
  dsimp only at h
  split at h
  · next u store hr =>
    obtain ⟨hnew, hnul, tasks, rfl⟩ := Repository.createRolloutCommit_run_ok hr
    exact Or.inr ⟨hnew, hnul, tasks, (Option.some.inj h).symm⟩
  · next e store hr =>
    rw [Repository.createRolloutCommit_run_error hr] at h
    exact Or.inl (Option.some.inj h).symm

/-- An update too. -/
theorem step_update {id : String} {ro : Rollout} (h : step s (.update id ro) = some s') :
    s' = { s with reqs := s.reqs ++ [.done] } ∨
    (s.store.hasRollout id = true ∧ hasNul id = false ∧
      s' = { s with
        store := Repository.applyUpdate s.now { ro with id := id } s.store
        reqs := s.reqs ++ [.committed id false]
        hist := .committed s.reqs.length id :: s.hist }) := by
  unfold step at h
  dsimp only at h
  split at h
  · next u store hr =>
    obtain ⟨hold, hnul, rfl⟩ := Repository.updateRolloutTx_run_ok hr
    exact Or.inr ⟨hold, hnul, (Option.some.inj h).symm⟩
  · next e store hr =>
    rw [Repository.updateRolloutTx_run_error hr] at h
    exact Or.inl (Option.some.inj h).symm

/-- A delete takes the rollout, or does nothing. -/
theorem step_delete {id : String} (h : step s (.delete id) = some s') :
    s' = s ∨ s' = { s with store := Repository.applyDelete id s.store } := by
  unfold step at h
  dsimp only at h
  rcases Repository.deleteRollout_run id s.store with hr | hr
  · rw [hr] at h
    exact Or.inl (Option.some.inj h).symm
  · rw [hr] at h
    exact Or.inr (Option.some.inj h).symm

/-- The re-read gives the handler its rollout, or it ends. -/
theorem step_reread {i : Nat} (h : step s (.reread i) = some s') :
    ∃ id created, s.reqs[i]? = some (.committed id created) ∧
      ((s' = { s with reqs := s.reqs.set i .done } ∧
          (s.store.hasRollout id = false ∨ hasNul id = true)) ∨
        ∃ r, s.store.rollouts.find? (fun r => r.id == id) = some r ∧ r.id = id ∧
          s' = { s with
            reqs := s.reqs.set i (.reread (Repository.hydrated s.store r) created)
            hist := .reread i id :: s.hist }) := by
  unfold step at h
  dsimp only at h
  split at h
  · next id created hi =>
    refine ⟨id, created, hi, ?_⟩
    split at h
    · next ro store hr =>
      obtain ⟨r, hf, hid, rfl⟩ := Repository.rollout_run_ok hr
      rw [Repository.rollout_run_store hr] at h
      exact Or.inr ⟨r, hf, hid, (Option.some.inj h).symm⟩
    · next e store hr =>
      rw [Repository.rollout_run_store hr] at h
      refine Or.inl ⟨(Option.some.inj h).symm, ?_⟩
      rcases Repository.rollout_run_error hr with hf | hn
      · exact Or.inl (by rw [Repository.hasRollout_eq_find, hf]; rfl)
      · exact Or.inr hn
  · simp at h

/-- The handler looks at the clock. -/
theorem step_clock {i : Nat} (h : step s (.clock i) = some s') :
    ∃ ro created, s.reqs[i]? = some (.reread ro created) ∧
      s' = { s with
        reqs := s.reqs.set i (.clocked ro created s.now)
        hist := .clocked i ro.id created s.now :: s.hist } := by
  unfold step at h
  dsimp only at h
  split at h
  · next ro created hi => exact ⟨ro, created, hi, (Option.some.inj h).symm⟩
  · simp at h

/-- The reschedule is done in one transaction, or not at all. -/
theorem step_reschedule {i : Nat} (h : step s (.reschedule i) = some s') :
    ∃ ro created clock, s.reqs[i]? = some (.clocked ro created clock) ∧
      ((s' = { s with reqs := s.reqs.set i .done } ∧
          (hasNul ro.id = true ∨ s.store.hasRollout ro.id = false)) ∨
        s' = { s with
          store := { s.store with
            notifications := s.store.notifications.reschedule ro.id
              (scheduleItems clock ro.stages.items) }
          reqs := s.reqs.set i .done
          hist := .rescheduled i ro.id created clock ro.stages.items :: s.hist }) := by
  unfold step at h
  dsimp only at h
  split at h
  · next ro created clock hi =>
    refine ⟨ro, created, clock, hi, ?_⟩
    split at h
    · next u store hr =>
      rw [Repository.rescheduleNotifications_run_ok hr] at h
      exact Or.inr (Option.some.inj h).symm
    · next e store hr =>
      obtain ⟨rfl, hwhy⟩ := Repository.rescheduleNotifications_run_error hr
      exact Or.inl ⟨(Option.some.inj h).symm, hwhy⟩
  · simp at h

/-- A tick loads what is due, up to the limit of the batch. -/
theorem step_tick {sorted : List Notification} (h : step s (.tick sorted) = some s') :
    s.disp = .loop [] ∧ NotificationTable.DueOrder s.now s.store.notifications sorted ∧
      s' = { s with
        disp := .loop (sorted.take NotificationTable.pendingLimit)
        hist := .ticked s.now :: s.hist } := by
  unfold step at h
  dsimp only at h
  split at h
  · next hd =>
    split at h
    · next hdue => exact ⟨hd, hdue, (Option.some.inj h).symm⟩
    · simp at h
  · simp at h

/-- The rollout of a notification is loaded, or it is marked with the error. -/
theorem step_load (h : step s .load = some s') :
    ∃ n rest, s.disp = .loop (n :: rest) ∧
      ((∃ e, s' = { s with disp := .marking n e rest } ∧
          (s.store.rollouts.find? (fun r => r.id == n.rolloutId) = none ∨
            hasNul n.rolloutId ∨
            (Repository.stagesOf s.store n.rolloutId)[n.stageSeq]? = none)) ∨
        ∃ r stage, s.store.rollouts.find? (fun r => r.id == n.rolloutId) = some r ∧
          (Repository.stagesOf s.store n.rolloutId)[n.stageSeq]? = some stage ∧
          s' = { s with disp := .loaded n (Repository.hydrated s.store r) stage rest }) := by
  unfold step at h
  dsimp only at h
  split at h
  · next n rest hd =>
    refine ⟨n, rest, hd, ?_⟩
    generalize hr : (Repository.rollout n.rolloutId).run s.store = res at h
    obtain ⟨r, store⟩ := res
    obtain rfl := Repository.rollout_run_store hr
    have h := (Option.some.inj h).symm
    cases r with
    | error e =>
      refine Or.inl ⟨e.text, h, ?_⟩
      rcases Repository.rollout_run_error hr with hn | hn
      · exact Or.inl hn
      · exact Or.inr (Or.inl hn)
    | ok ro =>
      obtain ⟨r, hf, hid, rfl⟩ := Repository.rollout_run_ok hr
      simp only [loadRow, Repository.hydrated, Slice.items_some, hid] at h
      split at h
      · next hnone => exact Or.inl ⟨_, h, Or.inr (Or.inr hnone)⟩
      · next stage hsome =>
        refine Or.inr ⟨r, stage, hf, hsome, ?_⟩
        rw [h, Repository.hydrated, hid]
  · simp at h

/-- What came of the post is to be marked. -/
theorem step_announce {outcome : Option String} (h : step s (.announce outcome) = some s') :
    ∃ n r stage rest, s.disp = .loaded n r stage rest ∧
      s' = { s with
        disp := .marking n (outcome.getD "") rest
        hist := .announced ⟨n, r, stage, timeSub stage.startAt s.now, s.now, outcome⟩ ::
          s.hist } := by
  unfold step at h
  dsimp only at h
  split at h
  · next n r stage rest hd => exact ⟨n, r, stage, rest, hd, (Option.some.inj h).symm⟩
  · simp at h

/-- The mark is written, or refused for its text. -/
theorem step_mark (h : step s .mark = some s') :
    ∃ n errMsg rest, s.disp = .marking n errMsg rest ∧
      ((hasNul errMsg ∧ s' = { s with disp := .loop rest }) ∨
        s' = { s with
          store := { s.store with
            notifications := s.store.notifications.markSent s.now n.id errMsg }
          disp := .loop rest }) := by
  unfold step at h
  dsimp only at h
  split at h
  · next n errMsg rest hd =>
    refine ⟨n, errMsg, rest, hd, ?_⟩
    rw [Repository.markNotificationSent_run] at h
    split at h
    · next hn => exact Or.inl ⟨hn, (Option.some.inj h).symm⟩
    · exact Or.inr (Option.some.inj h).symm
  · simp at h

/-- Only the dispatcher's own steps move it. -/
theorem step_disp {a : Action} (h : step s a = some s') :
    s'.disp = s.disp ∨ (∃ sorted, a = .tick sorted) ∨ a = .load ∨ (∃ o, a = .announce o) ∨
      a = .mark := by
  cases a with
  | wait d =>
    obtain rfl := Option.some.inj h
    exact Or.inl rfl
  | create ro => rcases step_create h with rfl | ⟨-, -, tasks, rfl⟩ <;> exact Or.inl rfl
  | update id ro => rcases step_update h with rfl | ⟨-, -, rfl⟩ <;> exact Or.inl rfl
  | delete id => rcases step_delete h with rfl | rfl <;> exact Or.inl rfl
  | reread i =>
    obtain ⟨id, created, -, ⟨rfl, -⟩ | ⟨r, -, -, rfl⟩⟩ := step_reread h <;> exact Or.inl rfl
  | clock i =>
    obtain ⟨ro, created, -, rfl⟩ := step_clock h
    exact Or.inl rfl
  | reschedule i =>
    obtain ⟨ro, created, clock, -, ⟨rfl, -⟩ | rfl⟩ := step_reschedule h <;> exact Or.inl rfl
  | tick sorted => exact Or.inr (Or.inl ⟨sorted, rfl⟩)
  | load => exact Or.inr (Or.inr (Or.inl rfl))
  | announce outcome => exact Or.inr (Or.inr (Or.inr (Or.inl ⟨outcome, rfl⟩)))
  | mark => exact Or.inr (Or.inr (Or.inr (Or.inr rfl)))

/-- The steps that touch the queue. -/
theorem step_table {a : Action} (h : step s a = some s') :
    s'.store.notifications = s.store.notifications ∨
      (∃ id, a = .delete id ∧
        s'.store.notifications = s.store.notifications.deleteRollout id) ∨
      (∃ i ro created clock, a = .reschedule i ∧ s.reqs[i]? = some (.clocked ro created clock) ∧
        s'.store.notifications =
          s.store.notifications.reschedule ro.id (scheduleItems clock ro.stages.items)) ∨
      ∃ n e rest, a = .mark ∧ s.disp = .marking n e rest ∧
        s'.store.notifications = s.store.notifications.markSent s.now n.id e := by
  cases a with
  | wait d =>
    obtain rfl := Option.some.inj h
    exact Or.inl rfl
  | create ro => rcases step_create h with rfl | ⟨-, -, tasks, rfl⟩ <;> exact Or.inl rfl
  | update id ro => rcases step_update h with rfl | ⟨-, -, rfl⟩ <;> exact Or.inl rfl
  | delete id =>
    rcases step_delete h with rfl | rfl
    · exact Or.inl rfl
    · exact Or.inr (Or.inl ⟨id, rfl, rfl⟩)
  | reread i =>
    obtain ⟨id, created, -, ⟨rfl, -⟩ | ⟨r, -, -, rfl⟩⟩ := step_reread h <;> exact Or.inl rfl
  | clock i =>
    obtain ⟨ro, created, -, rfl⟩ := step_clock h
    exact Or.inl rfl
  | reschedule i =>
    obtain ⟨ro, created, clock, hi, ⟨rfl, -⟩ | rfl⟩ := step_reschedule h
    · exact Or.inl rfl
    · exact Or.inr (Or.inr (Or.inl ⟨i, ro, created, clock, rfl, hi, rfl⟩))
  | tick sorted =>
    obtain ⟨-, -, rfl⟩ := step_tick h
    exact Or.inl rfl
  | load =>
    obtain ⟨n, rest, -, ⟨e, rfl, -⟩ | ⟨r, stage, -, -, rfl⟩⟩ := step_load h <;> exact Or.inl rfl
  | announce outcome =>
    obtain ⟨n, r, stage, rest, -, rfl⟩ := step_announce h
    exact Or.inl rfl
  | mark =>
    obtain ⟨n, e, rest, hd, ⟨-, rfl⟩ | rfl⟩ := step_mark h
    · exact Or.inl rfl
    · exact Or.inr (Or.inr (Or.inr ⟨n, e, rest, rfl, hd, rfl⟩))

/-- Every step adds at most one event; only an announcement adds a post. -/
theorem step_hist {a : Action} (h : step s a = some s') :
    s'.hist = s.hist ∨ ∃ e, s'.hist = e :: s.hist ∧
      match a with
      | .create ro => e = .committed s.reqs.length ro.id
      | .update id _ => e = .committed s.reqs.length id
      | .reread i => ∃ id, e = .reread i id
      | .clock i => ∃ ro created, s.reqs[i]? = some (.reread ro created) ∧
          e = .clocked i ro.id created s.now
      | .reschedule i => ∃ ro created clock, s.reqs[i]? = some (.clocked ro created clock) ∧
          e = .rescheduled i ro.id created clock ro.stages.items
      | .tick _ => e = .ticked s.now
      | .announce outcome => ∃ n r stage rest, s.disp = .loaded n r stage rest ∧
          e = .announced ⟨n, r, stage, timeSub stage.startAt s.now, s.now, outcome⟩
      | _ => False := by
  cases a with
  | wait d =>
    obtain rfl := Option.some.inj h
    exact Or.inl rfl
  | create ro =>
    rcases step_create h with rfl | ⟨-, -, tasks, rfl⟩
    · exact Or.inl rfl
    · exact Or.inr ⟨_, rfl, rfl⟩
  | update id ro =>
    rcases step_update h with rfl | ⟨-, -, rfl⟩
    · exact Or.inl rfl
    · exact Or.inr ⟨_, rfl, rfl⟩
  | delete id => rcases step_delete h with rfl | rfl <;> exact Or.inl rfl
  | reread i =>
    obtain ⟨id, created, -, ⟨rfl, -⟩ | ⟨r, -, -, rfl⟩⟩ := step_reread h
    · exact Or.inl rfl
    · exact Or.inr ⟨_, rfl, id, rfl⟩
  | clock i =>
    obtain ⟨ro, created, hi, rfl⟩ := step_clock h
    exact Or.inr ⟨_, rfl, ro, created, hi, rfl⟩
  | reschedule i =>
    obtain ⟨ro, created, clock, hi, ⟨rfl, -⟩ | rfl⟩ := step_reschedule h
    · exact Or.inl rfl
    · exact Or.inr ⟨_, rfl, ro, created, clock, hi, rfl⟩
  | tick sorted =>
    obtain ⟨-, -, rfl⟩ := step_tick h
    exact Or.inr ⟨_, rfl, rfl⟩
  | load =>
    obtain ⟨n, rest, -, ⟨e, rfl, -⟩ | ⟨r, stage, -, -, rfl⟩⟩ := step_load h <;> exact Or.inl rfl
  | announce outcome =>
    obtain ⟨n, r, stage, rest, hd, rfl⟩ := step_announce h
    exact Or.inr ⟨_, rfl, n, r, stage, rest, hd, rfl⟩
  | mark =>
    obtain ⟨n, e, rest, -, ⟨-, rfl⟩ | rfl⟩ := step_mark h <;> exact Or.inl rfl

/-- Which action an event tells of. -/
theorem step_event {a : Action} (h : step s a = some s') :
    s'.hist = s.hist ∨ ∃ e, s'.hist = e :: s.hist ∧
      match e with
      | .rescheduled .. => ∃ i, a = .reschedule i
      | .ticked _ => ∃ sorted, a = .tick sorted
      | .announced _ => ∃ o, a = .announce o
      | _ => True := by
  rcases step_hist h with he | ⟨e, he, hwhat⟩
  · exact Or.inl he
  · refine Or.inr ⟨e, he, ?_⟩
    cases a with
    | create ro => subst hwhat; trivial
    | update id ro => subst hwhat; trivial
    | reread i => obtain ⟨id, rfl⟩ := hwhat; trivial
    | clock i => obtain ⟨ro, created, -, rfl⟩ := hwhat; trivial
    | reschedule i => obtain ⟨ro, created, c, -, rfl⟩ := hwhat; exact ⟨i, rfl⟩
    | tick sorted => subst hwhat; exact ⟨sorted, rfl⟩
    | announce o => obtain ⟨n, r, stage, rest, -, rfl⟩ := hwhat; exact ⟨o, rfl⟩
    | wait d => exact hwhat.elim
    | delete id => exact hwhat.elim
    | load => exact hwhat.elim
    | mark => exact hwhat.elim

/-- Only an announcement adds a post. -/
theorem step_posts {a : Action} (h : step s a = some s') (ha : ∀ o, a ≠ .announce o) :
    posts s'.hist = posts s.hist := by
  rcases step_event h with he | ⟨e, he, hwhat⟩
  · rw [he]
  · rw [he]
    cases e with
    | announced p => exact absurd hwhat.choose_spec (ha _)
    | _ => rfl

/-- A tick is recorded when it reads the queue. -/
theorem step_ticked {a : Action} {t : Int} (h : step s a = some s')
    (ht : Event.ticked t ∈ s'.hist) :
    Event.ticked t ∈ s.hist ∨ (t = s.now ∧ ∃ sorted, a = .tick sorted) := by
  rcases step_hist h with he | ⟨e, he, hwhat⟩
  · exact Or.inl (he ▸ ht)
  · rw [he] at ht
    rcases List.mem_cons.mp ht with rfl | ht
    · cases a with
      | tick sorted => exact Or.inr ⟨by simpa using hwhat, sorted, rfl⟩
      | _ => simp at hwhat
    · exact Or.inl ht

/-- A clock reading is recorded when it is taken. -/
theorem step_clocked {a : Action} {i : Nat} {id : String} {created : Bool} {c : Int}
    (h : step s a = some s') (hc : Event.clocked i id created c ∈ s'.hist) :
    Event.clocked i id created c ∈ s.hist ∨
      (c = s.now ∧ a = .clock i ∧ ∃ ro, ro.id = id ∧ Req.clocked ro created c ∈ s'.reqs) := by
  rcases step_hist h with he | ⟨e, he, hwhat⟩
  · exact Or.inl (he ▸ hc)
  · rw [he] at hc
    rcases List.mem_cons.mp hc with rfl | hc
    · cases a with
      | clock j =>
        obtain ⟨ro, created', hj, rfl⟩ := step_clock h
        obtain ⟨hlt, -⟩ := List.getElem?_eq_some_iff.mp hj
        simp only [List.cons.injEq, Event.clocked.injEq, and_true] at he
        obtain ⟨rfl, rfl, rfl, rfl⟩ := he
        exact Or.inr ⟨rfl, rfl, ro, rfl, List.mem_set hlt _⟩
      | _ => simp at hwhat
    · exact Or.inl hc

/-- Time does not go back. -/
theorem step_now {a : Action} (h : step s a = some s') : s.now ≤ s'.now := by
  cases a with
  | wait d =>
    obtain rfl := Option.some.inj h
    exact Int.le_add_of_nonneg_right (Int.natCast_nonneg d)
  | create ro => rcases step_create h with rfl | ⟨-, -, tasks, rfl⟩ <;> exact Int.le_refl _
  | update id ro => rcases step_update h with rfl | ⟨-, -, rfl⟩ <;> exact Int.le_refl _
  | delete id => rcases step_delete h with rfl | rfl <;> exact Int.le_refl _
  | reread i =>
    obtain ⟨id, created, -, ⟨rfl, -⟩ | ⟨r, -, -, rfl⟩⟩ := step_reread h <;> exact Int.le_refl _
  | clock i =>
    obtain ⟨ro, created, -, rfl⟩ := step_clock h
    exact Int.le_refl _
  | reschedule i =>
    obtain ⟨ro, created, clock, -, ⟨rfl, -⟩ | rfl⟩ := step_reschedule h <;> exact Int.le_refl _
  | tick sorted =>
    obtain ⟨-, -, rfl⟩ := step_tick h
    exact Int.le_refl _
  | load =>
    obtain ⟨n, rest, -, ⟨e, rfl, -⟩ | ⟨r, stage, -, -, rfl⟩⟩ := step_load h <;> exact Int.le_refl _
  | announce outcome =>
    obtain ⟨n, r, stage, rest, -, rfl⟩ := step_announce h
    exact Int.le_refl _
  | mark => obtain ⟨n, e, rest, -, ⟨-, rfl⟩ | rfl⟩ := step_mark h <;> exact Int.le_refl _

theorem step_hist_subset {a : Action} (h : step s a = some s') : s.hist ⊆ s'.hist := by
  rcases step_hist h with he | ⟨e, he, -⟩
  · rw [he]
    exact fun _ hx => hx
  · rw [he]
    exact List.subset_cons_self _ _

end Steps

end Notify

end ReleaseRadar
