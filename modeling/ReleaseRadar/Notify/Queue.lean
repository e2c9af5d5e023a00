import ReleaseRadar.Notify.System
import ReleaseRadar.Notify.Teams

/-!
# The dispatch queue

The queue of `BLUEPRINT.md`, chapter 4, under everything that can happen to it:
the requests and the dispatcher of `Notify.system`, and `RescheduleNotifications`
called at any time with any arguments (`QueueAction`). The outcome of a send is
what `AnnounceStage` returns. `log` records ticks, posts and marks, newest first;
no step reads it.

`dispatch_queue_invariant`: attempts are capped, a row with `sent_at` is frozen
until its rollout is deleted, a row is posted at most five times and never after
a success was marked, and `sent_at` is set only on the row that was dispatched,
by its success or its fifth failure.

The proofs go by what a step does to the table, the loop and the log
(`Effect`), and by the invariant `Queue.Inv`, which ties the rows in the table
and in hand to what the log says of their ids.
-/

namespace ReleaseRadar

open Lib

namespace Notify

inductive Entry
  | ticked (time : Int)
  | posted (row : Notification) (outcome : Option String)
  | marked (row : Notification) (errMsg : String)
deriving DecidableEq, Repr

structure Queue where
  sys : Sys
  log : List Entry

/-- A step of the system, `announce` and `mark` apart; a reschedule by anybody; or
one of the dispatcher's: its read of the rollout fails, it announces, it marks. -/
inductive QueueAction
  | party (a : Action)
  | rescheduleNotifications (rolloutID : String) (items : List ScheduledNotification)
  | rolloutFails (err : ErrText)
  | announceStage (send : Send)
  | markNotificationSent

variable (cfg : TeamsConfig)

def queueStep (q : Queue) : QueueAction → Option Queue
  | .party (.announce _) => none
  | .party .mark => none
  | .party (.tick sorted) =>
    (step q.sys (.tick sorted)).map fun s => ⟨s, .ticked q.sys.now :: q.log⟩
  | .party a => (step q.sys a).map fun s => ⟨s, q.log⟩
  | .rescheduleNotifications rolloutID items =>
    some { q with sys := { q.sys with
      store := ((Repository.rescheduleNotifications rolloutID items).run q.sys.store).2 } }
  | .rolloutFails err =>
    match q.sys.disp with
    | .loop (n :: rest) => some { q with sys := { q.sys with disp := .marking n err.text rest } }
    | _ => none
  | .announceStage send =>
    match q.sys.disp with
    | .loaded n _ _ _ =>
      let outcome := cfg.announceStage n.channel send
      (step q.sys (.announce outcome)).map fun s => ⟨s, .posted n outcome :: q.log⟩
    | _ => none
  | .markNotificationSent =>
    match q.sys.disp with
    | .marking n errMsg _ => (step q.sys .mark).map fun s => ⟨s, .marked n errMsg :: q.log⟩
    | _ => none

def queue : Machine Queue QueueAction := ⟨queueStep cfg⟩

/-- The row being marked, and its error text. -/
def Disp.marks : Disp → Option (Notification × String)
  | marking n errMsg _ => some (n, errMsg)
  | _ => none

/-- `MarkNotificationSent` succeeds: Postgres takes the error text. -/
def MarkSucceeds (q : Queue) : QueueAction → Prop
  | .markNotificationSent => ∀ m ∈ q.sys.disp.marks, hasNul m.2 = false
  | _ => True

instance (q : Queue) : (a : QueueAction) → Decidable (MarkSucceeds q a)
  | .markNotificationSent => inferInstanceAs (Decidable (∀ m ∈ q.sys.disp.marks, _))
  | .party _ | .rescheduleNotifications _ _ | .rolloutFails _ | .announceStage _ => isTrue trivial

namespace Queue

/-- Nothing has happened yet. -/
def start (store : Store) (now : Int) : Queue := ⟨Notify.start store now, []⟩

def table (q : Queue) : NotificationTable := q.sys.store.notifications
def disp (q : Queue) : Disp := q.sys.disp

end Queue

/-- How often the row with this id was posted. -/
def postsOf (id : Nat) (log : List Entry) : Nat :=
  log.countP fun e =>
    match e with
    | .posted n _ => n.id = id
    | _ => false

/-- How often it was marked with an error. -/
def failuresOf (id : Nat) (log : List Entry) : Nat :=
  log.countP fun e =>
    match e with
    | .marked n errMsg => n.id = id ∧ errMsg ≠ ""
    | _ => false

/-- How often it was marked without one. -/
def successesOf (id : Nat) (log : List Entry) : Nat :=
  log.countP fun e =>
    match e with
    | .marked n errMsg => n.id = id ∧ errMsg = ""
    | _ => false

/-! ## What a step does -/

/-- What a step can see and change of the queue. -/
structure View where
  table : NotificationTable
  disp : Disp
  log : List Entry

def Queue.view (q : Queue) : View := ⟨q.table, q.disp, q.log⟩

/-- Who reschedules: anybody, or a request at its clock. -/
def Reschedules (s : Sys) (rid : String) (items : List ScheduledNotification) : QueueAction → Prop
  | .rescheduleNotifications id its => rid = id ∧ items = its
  | .party (.reschedule i) => ∃ ro created clock, s.reqs[i]? = some (.clocked ro created clock) ∧
      rid = ro.id ∧ items = scheduleItems clock ro.stages.items
  | _ => False

/-- **What a step does**, taken by `a` from the system `s`. -/
inductive Effect (s : Sys) (a : QueueAction) : View → View → Prop
  | none {v : View} : Effect s a v v
  | delete {t : NotificationTable} {d : Disp} {l : List Entry} {id : String}
      (ha : a = .party (.delete id)) : Effect s a ⟨t, d, l⟩ ⟨t.deleteRollout id, d, l⟩
  | reschedule {t : NotificationTable} {d : Disp} {l : List Entry} {rid : String}
      {items : List ScheduledNotification} (ha : Reschedules s rid items a) :
      Effect s a ⟨t, d, l⟩ ⟨t.reschedule rid items, d, l⟩
  | tick {t : NotificationTable} {l : List Entry} {sorted : List Notification}
      (hdue : NotificationTable.DueOrder s.now t sorted) :
      Effect s a ⟨t, .loop [], l⟩
        ⟨t, .loop (sorted.take NotificationTable.pendingLimit), .ticked s.now :: l⟩
  | skip {t : NotificationTable} {l : List Entry} {n : Notification} {rest : List Notification}
      {e : String} (he : e ≠ "") : Effect s a ⟨t, .loop (n :: rest), l⟩ ⟨t, .marking n e rest, l⟩
  | load {t : NotificationTable} {l : List Entry} {n : Notification} {rest : List Notification}
      {r : Rollout} {stage : RolloutStage} :
      Effect s a ⟨t, .loop (n :: rest), l⟩ ⟨t, .loaded n r stage rest, l⟩
  | announce {t : NotificationTable} {l : List Entry} {n : Notification}
      {rest : List Notification} {r : Rollout} {stage : RolloutStage} {outcome : Option String}
      (ho : outcome ≠ some "") :
      Effect s a ⟨t, .loaded n r stage rest, l⟩
        ⟨t, .marking n (outcome.getD "") rest, .posted n outcome :: l⟩
  | mark {t t' : NotificationTable} {l : List Entry} {n : Notification} {e : String}
      {rest : List Notification} (ha : a = .markNotificationSent)
      (ht : t' = t.markSent s.now n.id e ∨ hasNul e ∧ t' = t) :
      Effect s a ⟨t, .marking n e rest, l⟩ ⟨t', .loop rest, .marked n e :: l⟩

variable {cfg} {q q' : Queue} {a : QueueAction}

/-- An error of the store has a text. -/
theorem loadRow_text (n : Notification) (rest : List Notification) (id : String) (s : Store) :
    (∃ e, e ≠ "" ∧ loadRow n rest ((Repository.rollout id).run s).1 = .marking n e rest) ∨
      ∃ r stage, loadRow n rest ((Repository.rollout id).run s).1 = .loaded n r stage rest := by
  rw [Repository.rollout_run]
  split
  · exact Or.inl ⟨_, by decide, rfl⟩
  · split
    · exact Or.inl ⟨_, by decide, rfl⟩
    · next r hr =>
      simp only [loadRow]
      split
      · exact Or.inl ⟨_, by decide, rfl⟩
      · exact Or.inr ⟨_, _, rfl⟩

/-- The requests' own steps. -/
theorem party_effect {a : Action} {s : Sys} (h : step q.sys a = some s)
    (hrequest : ∀ sorted o, a ≠ .tick sorted ∧ a ≠ .load ∧ a ≠ .announce o ∧ a ≠ .mark) :
    Effect q.sys (.party a) q.view ⟨s.store.notifications, s.disp, q.log⟩ := by
  have hd : s.disp = q.sys.disp := by
    rcases step_disp h with hd | ⟨sorted, rfl⟩ | rfl | ⟨o, rfl⟩ | rfl
    · exact hd
    · exact absurd rfl (hrequest sorted none).1
    · exact absurd rfl (hrequest [] none).2.1
    · exact absurd rfl (hrequest [] o).2.2.1
    · exact absurd rfl (hrequest [] none).2.2.2
  rw [hd]
  rcases step_table h with ht | ⟨id, rfl, ht⟩ | ⟨i, ro, created, clock, rfl, hi, ht⟩ |
    ⟨n, e, rest, rfl, -⟩
  · rw [ht]
    exact .none
  · rw [ht]
    exact .delete rfl
  · rw [ht]
    exact .reschedule ⟨ro, created, clock, hi, rfl, rfl⟩
  · exact absurd rfl (hrequest [] none).2.2.2

/-! What each action has done, when it could be taken. -/

/-- A step of the other parties, and the tick, is logged as a tick or not at all. -/
theorem queueStep_party {a : Action} (h : queueStep cfg q (.party a) = some q') :
    (∀ o, a ≠ .announce o) ∧ a ≠ .mark ∧ ∃ s l, step q.sys a = some s ∧ q' = ⟨s, l⟩ ∧
      ((∃ sorted, a = .tick sorted ∧ l = .ticked q.sys.now :: q.log) ∨
        (∀ sorted, a ≠ .tick sorted) ∧ l = q.log) := by
  cases a with
  | announce o => cases h
  | mark => cases h
  | tick sorted =>
    obtain ⟨s, hs, rfl⟩ := Option.map_eq_some_iff.mp h
    exact ⟨nofun, nofun, s, _, hs, rfl, Or.inl ⟨sorted, rfl, rfl⟩⟩
  | _ =>
    simp only [queueStep, Option.map_eq_some_iff] at h
    obtain ⟨s, hs, rfl⟩ := h
    exact ⟨nofun, nofun, s, _, hs, rfl, Or.inr ⟨nofun, rfl⟩⟩

/-- A reschedule replaces the unsent rows of its rollout, or fails and leaves them. -/
theorem queueStep_rescheduleNotifications {rid : String} {items : List ScheduledNotification}
    (h : queueStep cfg q (.rescheduleNotifications rid items) = some q') :
    q' = q ∨ q' = { q with sys := { q.sys with store := { q.sys.store with
      notifications := q.sys.store.notifications.reschedule rid items } } } := by
  obtain rfl := Option.some.inj h
  generalize hr : (Repository.rescheduleNotifications rid items).run q.sys.store = res
  obtain ⟨r, store⟩ := res
  cases r with
  | error e =>
    obtain ⟨rfl, -⟩ := Repository.rescheduleNotifications_run_error hr
    exact Or.inl rfl
  | ok u =>
    obtain rfl := Repository.rescheduleNotifications_run_ok hr
    exact Or.inr rfl

/-- Without its rollout the notification is marked with the error. -/
theorem queueStep_rolloutFails {err : ErrText} (h : queueStep cfg q (.rolloutFails err) = some q') :
    ∃ n rest, q.sys.disp = .loop (n :: rest) ∧
      q' = { q with sys := { q.sys with disp := .marking n err.text rest } } := by
  simp only [queueStep] at h
  split at h
  · next n rest hd => exact ⟨n, rest, hd, (Option.some.inj h).symm⟩
  · cases h

/-- The post is logged with its outcome. -/
theorem queueStep_announceStage {send : Send}
    (h : queueStep cfg q (.announceStage send) = some q') :
    ∃ n r stage rest s, q.sys.disp = .loaded n r stage rest ∧
      step q.sys (.announce (cfg.announceStage n.channel send)) = some s ∧
      q' = ⟨s, .posted n (cfg.announceStage n.channel send) :: q.log⟩ := by
  simp only [queueStep] at h
  split at h
  · next n r stage rest hd =>
    obtain ⟨s, hs, rfl⟩ := Option.map_eq_some_iff.mp h
    exact ⟨n, r, stage, rest, s, hd, hs, rfl⟩
  · cases h

/-- So is the mark. -/
theorem queueStep_markNotificationSent (h : queueStep cfg q .markNotificationSent = some q') :
    ∃ n e rest s, q.sys.disp = .marking n e rest ∧ step q.sys .mark = some s ∧
      q' = ⟨s, .marked n e :: q.log⟩ := by
  simp only [queueStep] at h
  split at h
  · next n e rest hd =>
    obtain ⟨s, hs, rfl⟩ := Option.map_eq_some_iff.mp h
    exact ⟨n, e, rest, s, hd, hs, rfl⟩
  · cases h

/-- A load leaves the table alone; it ends with a stage, or with an error that has a text. -/
private theorem load_effect {s : Sys} (h : step q.sys .load = some s) :
    Effect q.sys (.party .load) q.view ⟨s.store.notifications, s.disp, q.log⟩ := by
  simp only [step] at h
  split at h
  · next n rest hd =>
    obtain rfl := Option.some.inj h
    have hstore : ((Repository.rollout n.rolloutId).run q.sys.store).2 = q.sys.store :=
      Repository.rollout_run_store
        (Prod.mk.eta (p := (Repository.rollout n.rolloutId).run q.sys.store)).symm
    simp only [Queue.view, Queue.table, Queue.disp, hd, hstore]
    rcases loadRow_text n rest n.rolloutId q.sys.store with ⟨e, he, hl⟩ | ⟨r, stage, hl⟩
    · rw [hl]
      exact .skip he
    · rw [hl]
      exact .load
  · cases h

/-- Whatever happens, the table, the dispatcher and the log change in one of these ways. -/
theorem queueStep_effect (h : queueStep cfg q a = some q') :
    Effect q.sys a q.view q'.view := by
  cases a with
  | party a =>
    obtain ⟨hannounce, hmark, s', l, hs, rfl, ⟨sorted, rfl, rfl⟩ | ⟨htick, rfl⟩⟩ :=
      queueStep_party h
    · obtain ⟨hd, hdue, rfl⟩ := step_tick hs
      simp only [Queue.view, Queue.table, Queue.disp, hd]
      exact .tick hdue
    · by_cases hload : a = .load
      · subst hload
        exact load_effect hs
      · exact party_effect hs fun sorted o => ⟨htick sorted, hload, hannounce o, hmark⟩
  | rescheduleNotifications rid items =>
    rcases queueStep_rescheduleNotifications h with rfl | rfl
    · exact .none
    · exact .reschedule ⟨rfl, rfl⟩
  | rolloutFails err =>
    obtain ⟨n, rest, hd, rfl⟩ := queueStep_rolloutFails h
    simp only [Queue.view, Queue.table, Queue.disp, hd]
    exact .skip err.nonempty
  | announceStage send =>
    obtain ⟨n, r, stage, rest, s', hd, hs, rfl⟩ := queueStep_announceStage h
    obtain ⟨n', r', stage', rest', hd', rfl⟩ := step_announce hs
    obtain ⟨rfl, rfl, rfl, rfl⟩ := Disp.loaded.inj (hd.symm.trans hd')
    simp only [Queue.view, Queue.table, Queue.disp, hd]
    exact .announce (cfg.announceStage_text n.channel send)
  | markNotificationSent =>
    obtain ⟨n, e, rest, s', hd, hs, rfl⟩ := queueStep_markNotificationSent h
    obtain ⟨n', e', rest', hd', hs'⟩ := step_mark hs
    obtain ⟨rfl, rfl, rfl⟩ := Disp.marking.inj (hd.symm.trans hd')
    simp only [Queue.view, Queue.table, Queue.disp, hd]
    rcases hs' with ⟨hn, rfl⟩ | rfl
    · exact .mark rfl (Or.inr ⟨hn, rfl⟩)
    · exact .mark rfl (Or.inl rfl)

/-! ## The log -/

section Log

variable {id : Nat} {n : Notification} {e : String} {o : Option String} {time : Int}
  {l : List Entry}

/-- A tick is no post. -/
@[simp] theorem postsOf_ticked : postsOf id (.ticked time :: l) = postsOf id l := by
  simp [postsOf]

/-- A post counts for its notification. -/
@[simp] theorem postsOf_posted :
    postsOf id (.posted n o :: l) = postsOf id l + if n.id = id then 1 else 0 := by
  simp [postsOf, List.countP_cons]

/-- A mark is no post. -/
@[simp] theorem postsOf_marked : postsOf id (.marked n e :: l) = postsOf id l := by
  simp [postsOf]

@[simp] theorem failuresOf_ticked : failuresOf id (.ticked time :: l) = failuresOf id l := by
  simp [failuresOf]

@[simp] theorem failuresOf_posted : failuresOf id (.posted n o :: l) = failuresOf id l := by
  simp [failuresOf]

/-- A mark with an error is a failure. -/
@[simp] theorem failuresOf_marked :
    failuresOf id (.marked n e :: l) =
      failuresOf id l + if n.id = id ∧ e ≠ "" then 1 else 0 := by
  simp [failuresOf, List.countP_cons]

@[simp] theorem successesOf_ticked : successesOf id (.ticked time :: l) = successesOf id l := by
  simp [successesOf]

@[simp] theorem successesOf_posted : successesOf id (.posted n o :: l) = successesOf id l := by
  simp [successesOf]

/-- A mark without one is a success. -/
@[simp] theorem successesOf_marked :
    successesOf id (.marked n e :: l) =
      successesOf id l + if n.id = id ∧ e = "" then 1 else 0 := by
  simp [successesOf, List.countP_cons]

/-- A success in the log counts. -/
theorem successesOf_append_pos (newer : List Entry) (m : Notification) (older : List Entry) :
    0 < successesOf m.id (newer ++ .marked m "" :: older) := by
  rw [successesOf, List.countP_append, List.countP_cons]
  simp only [true_and, decide_true, if_true]
  omega

end Log

/-! ## The invariant -/

/-- The loop has announced the row with this id and not yet marked it. -/
def Disp.Marks (d : Disp) (id : Nat) : Prop := ∃ m ∈ d.marks, m.1.id = id

/-- A row that has not been settled: what the log says of its id. -/
structure Open (log : List Entry) (id : Nat) : Prop where
  failures : failuresOf id log ≤ 4
  successes : successesOf id log = 0

/-- The rows in the table and in hand are what the log says of their ids. -/
structure View.Inv (v : View) : Prop where
  queued : ∀ n ∈ v.table.rows, n.unsent → Open v.log n.id ∧ n.attempts = failuresOf n.id v.log
  sent : ∀ n ∈ v.table.rows, ¬n.unsent → n.attempts ≤ 5
  hand : ∀ n ∈ v.disp.hand, Open v.log n.id ∧ n.id < v.table.nextId
  nodup : (v.disp.hand.map (·.id)).Nodup
  row : ∀ n ∈ v.disp.hand, ∀ m ∈ v.table.rows, m.id = n.id → m.unsent ∧ m.key = n.key
  fresh : ∀ id, v.table.nextId ≤ id → failuresOf id v.log = 0 ∧ successesOf id v.log = 0
  marks : ∀ id, failuresOf id v.log + successesOf id v.log ≤ 5
  posts : ∀ id, ¬v.disp.Marks id → postsOf id v.log ≤ failuresOf id v.log + successesOf id v.log
  posting : ∀ id, postsOf id v.log ≤ failuresOf id v.log + successesOf id v.log + 1
  out : ∀ m ∈ v.disp.marks, m.2 = "" → v.log.head? = some (.posted m.1 none)
  after : ∀ newer m older, v.log = newer ++ .marked m "" :: older → postsOf m.id newer = 0

/-- It holds of a start without notifications. -/
theorem inv_start {store : Store} {now : Int} (h : store.notifications.rows = []) :
    (Queue.start store now).view.Inv := by
  have hrows : (Queue.start store now).view.table.rows = [] := h
  constructor
  · simp [hrows]
  · simp [hrows]
  · simp [Queue.view, Queue.start, start, Queue.disp, Disp.hand]
  · simp [Queue.view, Queue.start, start, Queue.disp, Disp.hand]
  · simp [hrows]
  · intro id _
    exact ⟨rfl, rfl⟩
  · intro id
    exact Nat.zero_le _
  · intro id _
    exact Nat.zero_le _
  · intro id
    exact Nat.zero_le _
  · simp [Queue.view, Queue.start, start, Queue.disp, Disp.marks]
  · intro newer m older h
    simp [Queue.view, Queue.start] at h

/-- Statements on the table that settle no row: rows go, and rows come, unsent and
untried, under ids never given out. -/
theorem View.Inv.of_table {t t' : NotificationTable} {d : Disp} {l : List Entry}
    (hI : View.Inv ⟨t, d, l⟩) (hnext : t.nextId ≤ t'.nextId)
    (hrows : ∀ n ∈ t'.rows, n ∈ t.rows ∨ (n.unsent ∧ n.attempts = 0 ∧ t.nextId ≤ n.id)) :
    View.Inv ⟨t', d, l⟩ where
  queued n hn hu := by
    rcases hrows n hn with hold | ⟨-, hatt, hid⟩
    · exact hI.queued n hold hu
    · obtain ⟨hf, hs⟩ : failuresOf n.id l = 0 ∧ successesOf n.id l = 0 := hI.fresh n.id hid
      exact ⟨⟨hf ▸ Nat.zero_le 4, hs⟩, hatt.trans hf.symm⟩
  sent n hn hu := by
    rcases hrows n hn with hold | ⟨hun, -⟩
    · exact hI.sent n hold hu
    · exact absurd hun hu
  hand n hn := ⟨(hI.hand n hn).1, Nat.lt_of_lt_of_le (hI.hand n hn).2 hnext⟩
  nodup := hI.nodup
  row n hn m hm hid := by
    rcases hrows m hm with hold | ⟨-, -, hfresh⟩
    · exact hI.row n hn m hold hid
    · have hlt : n.id < t.nextId := (hI.hand n hn).2
      omega
  fresh id hid := hI.fresh id (Nat.le_trans hnext hid)
  marks := hI.marks
  posts := hI.posts
  posting := hI.posting
  out := hI.out
  after := hI.after

/-- A deleted rollout takes its rows along. -/
theorem View.Inv.delete {t : NotificationTable} {d : Disp} {l : List Entry} {id : String}
    (hI : View.Inv ⟨t, d, l⟩) : View.Inv ⟨t.deleteRollout id, d, l⟩ :=
  hI.of_table (Nat.le_refl _) fun _ hn =>
    Or.inl (NotificationTable.mem_deleteRollout.mp hn).1

/-- A reschedule drops unsent rows and adds fresh ones. -/
theorem View.Inv.reschedule {t : NotificationTable} {d : Disp} {l : List Entry} {rid : String}
    {items : List ScheduledNotification} (hI : View.Inv ⟨t, d, l⟩) :
    View.Inv ⟨t.reschedule rid items, d, l⟩ := by
  refine hI.of_table (NotificationTable.evolves_reschedule rid items t).nextId ?_
  intro n hn
  rcases NotificationTable.mem_reschedule hn with ⟨hold, -⟩ | hf
  · exact Or.inl hold
  · exact Or.inr ⟨by simp [Notification.unsent, hf.sentAt], hf.attempts, hf.id⟩

/-- A tick takes up unsent rows, each once. -/
theorem View.Inv.tick {t : NotificationTable} {l : List Entry} {now : Int}
    {sorted : List Notification} (hI : View.Inv ⟨t, .loop [], l⟩)
    (hdue : NotificationTable.DueOrder now t sorted) (k : Nat) :
    View.Inv ⟨t, .loop (sorted.take k), .ticked now :: l⟩ := by
  have hmem : ∀ n ∈ sorted.take k, n ∈ t.rows ∧ n.unsent := by
    intro n hn
    obtain ⟨h₁, h₂, -⟩ := NotificationTable.mem_due.mp (hdue.1.mem_iff.mp (List.mem_of_mem_take hn))
    exact ⟨h₁, h₂⟩
  have hopen : ∀ id, Open l id → Open (.ticked now :: l) id := by
    intro id h
    exact ⟨by simpa using h.failures, by simpa using h.successes⟩
  constructor
  · intro n hn hu
    obtain ⟨ho, ha⟩ := hI.queued n hn hu
    exact ⟨hopen _ ho, by simpa using ha⟩
  · exact hI.sent
  · intro n hn
    obtain ⟨hr, hu⟩ := hmem n hn
    exact ⟨hopen _ (hI.queued n hr hu).1, t.ids_lt n hr⟩
  · have hd : (t.due now).Sublist t.rows := List.filter_sublist
    have hsorted : (sorted.map (·.id)).Nodup :=
      (hdue.1.map _).nodup_iff.mpr (t.ids_nodup.sublist (hd.map _))
    exact hsorted.sublist ((List.take_sublist k sorted).map _)
  · intro n hn m hm hid
    obtain ⟨hr, hu⟩ := hmem n hn
    obtain rfl := NotificationTable.eq_of_id hm hr hid
    exact ⟨hu, rfl⟩
  · intro id hid
    simpa using hI.fresh id hid
  · intro id
    simpa using hI.marks id
  · intro id _
    simpa using hI.posts id (by simp [Disp.Marks, Disp.marks])
  · intro id
    simpa using hI.posting id
  · simp [Disp.marks]
  · intro newer m older h
    cases newer with
    | nil => simp at h
    | cons x newer =>
      obtain ⟨rfl, hl⟩ := List.cons.inj h
      rw [postsOf_ticked]
      exact hI.after newer m older hl

/-- The loop moves on to a row it has in hand already. -/
theorem View.Inv.of_disp {t : NotificationTable} {d d' : Disp} {l : List Entry}
    (hI : View.Inv ⟨t, d, l⟩) (hhand : d'.hand = d.hand) (hno : ∀ id, ¬d.Marks id)
    (hout : ∀ m ∈ d'.marks, m.2 ≠ "") : View.Inv ⟨t, d', l⟩ where
  queued := hI.queued
  sent := hI.sent
  hand n hn := hI.hand n (by simpa [hhand] using hn)
  nodup := by simpa [hhand] using hI.nodup
  row n hn := hI.row n (by simpa [hhand] using hn)
  fresh := hI.fresh
  marks := hI.marks
  posts id _ := hI.posts id (hno id)
  posting := hI.posting
  out m hm he := absurd he (hout m hm)
  after := hI.after

/-- The post leaves the row to be marked with what came of it. -/
theorem View.Inv.announce {t : NotificationTable} {l : List Entry} {n : Notification}
    {rest : List Notification} {r : Rollout} {stage : RolloutStage} {outcome : Option String}
    (hI : View.Inv ⟨t, .loaded n r stage rest, l⟩) (ho : outcome ≠ some "") :
    View.Inv ⟨t, .marking n (outcome.getD "") rest, .posted n outcome :: l⟩ := by
  have hopen : ∀ id, Open l id → Open (.posted n outcome :: l) id := by
    intro id h
    exact ⟨by simpa using h.failures, by simpa using h.successes⟩
  have hposts : ∀ id, postsOf id l ≤ failuresOf id l + successesOf id l := by
    intro id
    exact hI.posts id (by simp [Disp.Marks, Disp.marks])
  have hn : n ∈ (Disp.loaded n r stage rest).hand := List.mem_cons_self ..
  constructor
  · intro m hm hu
    obtain ⟨h₁, h₂⟩ := hI.queued m hm hu
    exact ⟨hopen _ h₁, by simpa using h₂⟩
  · exact hI.sent
  · intro m hm
    obtain ⟨h₁, h₂⟩ := hI.hand m hm
    exact ⟨hopen _ h₁, h₂⟩
  · exact hI.nodup
  · exact hI.row
  · intro id hid
    simpa using hI.fresh id hid
  · intro id
    simpa using hI.marks id
  · intro id hid
    have hne : n.id ≠ id := by
      intro he
      exact hid ⟨(n, outcome.getD ""), rfl, he⟩
    simpa [hne] using hposts id
  · intro id
    have := hposts id
    simp only [postsOf_posted, failuresOf_posted, successesOf_posted]
    split <;> omega
  · intro m hm he
    obtain rfl := Option.some.inj hm
    cases outcome with
    | none => rfl
    | some e => exact absurd (congrArg some he) ho
  · intro newer m older h
    cases newer with
    | nil => simp at h
    | cons x newer =>
      obtain ⟨rfl, hl⟩ := List.cons.inj h
      rw [postsOf_posted, hI.after newer m older hl]
      -- the row in hand has no success, so it is not the one marked here
      have hs : successesOf n.id l = 0 := (hI.hand n hn).1.successes
      rw [if_neg]
      intro he
      have hpos := successesOf_append_pos newer m older
      rw [← he, ← show l = newer ++ .marked m "" :: older from hl, hs] at hpos
      exact absurd hpos (Nat.lt_irrefl 0)

/-- Marking a row in hand settles it, or counts a failure of its. -/
theorem View.Inv.mark {t : NotificationTable} {l : List Entry} {n : Notification} {e : String}
    {rest : List Notification} {now : Int} (hI : View.Inv ⟨t, .marking n e rest, l⟩) :
    View.Inv ⟨t.markSent now n.id e, .loop rest, .marked n e :: l⟩ := by
  obtain ⟨hopen, hlt⟩ : Open l n.id ∧ n.id < t.nextId := hI.hand n (List.mem_cons_self ..)
  have hfive : failuresOf n.id l ≤ 4 ∧ successesOf n.id l = 0 := ⟨hopen.failures, hopen.successes⟩
  have hrow : ∀ m ∈ t.rows, m.id = n.id → m.unsent ∧ m.key = n.key :=
    hI.row n (List.mem_cons_self ..)
  have hother : ∀ id, n.id ≠ id → failuresOf id (.marked n e :: l) = failuresOf id l ∧
      successesOf id (.marked n e :: l) = successesOf id l := by
    intro id hne
    simp [hne]
  have hsame : failuresOf n.id (.marked n e :: l) + successesOf n.id (.marked n e :: l) =
      failuresOf n.id l + successesOf n.id l + 1 := by
    -- either way one more mark, as a success or as a failure
    by_cases he : e = ""
    · simp [he, Nat.add_assoc]
    · simp [he, Nat.add_right_comm]
  have hkeep : ∀ id, n.id ≠ id → Open l id → Open (.marked n e :: l) id := by
    intro id hne h
    exact ⟨(hother id hne).1 ▸ h.failures, (hother id hne).2 ▸ h.successes⟩
  have hrest : ∀ m ∈ rest, n.id ≠ m.id := by
    intro m hm he
    -- the rows in hand are different rows
    have hnd := hI.nodup
    rw [show (Disp.marking n e rest).hand = n :: rest from rfl, List.map_cons,
      List.nodup_cons] at hnd
    exact hnd.1 (List.mem_map.mpr ⟨m, hm, he.symm⟩)
  constructor
  · intro m hm hu
    obtain ⟨m₀, hm₀, rfl⟩ := NotificationTable.mem_markSent.mp hm
    by_cases hid : m₀.id = n.id
    · -- unsent still, so it failed, and not for the fifth time
      -- the row marked: at most four failures before this one
      obtain ⟨hu₀, -⟩ := hrow m₀ hm₀ hid
      obtain ⟨h₀, hatt⟩ := hI.queued m₀ hm₀ hu₀
      by_cases he : e = ""
      · subst he
        exact absurd hu (NotificationTable.markRow_sent hid)
      · obtain ⟨hcount, hcap⟩ := NotificationTable.markRow_failed now hid hu₀ he
        have hlt : m₀.attempts + 1 < 5 := hcap.mp hu
        have hf : failuresOf n.id (.marked n e :: l) = m₀.attempts + 1 := by
          rw [hatt, hid]
          simp [he]
        have hs : successesOf n.id (.marked n e :: l) = 0 := by
          simp [he, hfive.2]
        rw [NotificationTable.markRow_id, hid, hcount]
        exact ⟨⟨by rw [hf]; omega, hs⟩, hf.symm⟩
    · rw [NotificationTable.markRow_of_ne hid] at hu ⊢
      obtain ⟨h₀, hatt⟩ := hI.queued m₀ hm₀ hu
      exact ⟨hkeep _ (Ne.symm hid) h₀, hatt.trans (hother _ (Ne.symm hid)).1.symm⟩
  · intro m hm hu
    obtain ⟨m₀, hm₀, rfl⟩ := NotificationTable.mem_markSent.mp hm
    by_cases hid : m₀.id = n.id
    · obtain ⟨hu₀, -⟩ := hrow m₀ hm₀ hid
      obtain ⟨h₀, hatt⟩ := hI.queued m₀ hm₀ hu₀
      have hle : m₀.attempts ≤ 4 := hatt ▸ h₀.failures
      by_cases he : e = ""
      · subst he
        rw [NotificationTable.markRow_succeeded]
        omega
      · rw [(NotificationTable.markRow_failed _ hid hu₀ he).1]
        omega
    · rw [NotificationTable.markRow_of_ne hid] at hu ⊢
      exact hI.sent m₀ hm₀ hu
  · intro m hm
    obtain ⟨h₁, h₂⟩ := hI.hand m (List.mem_cons_of_mem _ hm)
    exact ⟨hkeep _ (hrest m hm) h₁, h₂⟩
  · have hnd := hI.nodup
    exact (List.nodup_cons.mp hnd).2
  · intro m hm m' hm' hid
    obtain ⟨m₀, hm₀, rfl⟩ := NotificationTable.mem_markSent.mp hm'
    rw [NotificationTable.markRow_id] at hid
    -- the marked row is no longer in hand
    rw [NotificationTable.markRow_of_ne (fun he => hrest m hm (he.symm.trans hid))]
    exact hI.row m (List.mem_cons_of_mem _ hm) m₀ hm₀ hid
  · intro id hid
    have hne : n.id ≠ id := by
      intro he
      have hid' : t.nextId ≤ id := hid
      omega
    have hf := hI.fresh id hid
    exact ⟨(hother id hne).1.trans hf.1, (hother id hne).2.trans hf.2⟩
  · intro id
    by_cases hne : n.id = id
    · subst hne
      show failuresOf n.id (.marked n e :: l) + successesOf n.id (.marked n e :: l) ≤ 5
      omega
    · have := hI.marks id
      rw [(hother id hne).1, (hother id hne).2]
      exact this
  · intro id _
    show postsOf id (.marked n e :: l) ≤ _
    rw [postsOf_marked]
    by_cases hne : n.id = id
    · subst hne
      -- the post that was one ahead of the marks is now counted
      have hp := hI.posting n.id
      rw [hsame]
      exact hp
    · rw [(hother id hne).1, (hother id hne).2]
      refine hI.posts id ?_
      intro hm
      obtain ⟨m, hm, hid⟩ := hm
      obtain rfl := Option.some.inj hm
      exact hne hid
  · intro id
    show postsOf id (.marked n e :: l) ≤ _
    have hp := hI.posting id
    rw [postsOf_marked]
    refine Nat.le_trans hp (Nat.succ_le_succ ?_)
    by_cases hne : n.id = id
    · subst hne
      rw [hsame]
      exact Nat.le_succ _
    · rw [(hother id hne).1, (hother id hne).2]
  · simp [Disp.marks]
  · intro newer m older h
    cases newer with
    | nil => rfl
    | cons x newer =>
      obtain ⟨rfl, hl⟩ := List.cons.inj h
      rw [postsOf_marked]
      exact hI.after newer m older hl

/-- No step breaks it, as long as the texts of the marks are texts Postgres takes. -/
theorem inv_effect {s : Sys} {v v' : View} (hE : Effect s a v v')
    (hok : a = .markNotificationSent → ∀ m ∈ v.disp.marks, hasNul m.2 = false) (hI : v.Inv) :
    v'.Inv := by
  cases hE with
  | none => exact hI
  | delete ha => exact hI.delete
  | reschedule ha => exact hI.reschedule
  | tick hdue => exact hI.tick hdue _
  | skip he =>
    refine hI.of_disp rfl (by simp [Disp.Marks, Disp.marks]) ?_
    intro m hm
    obtain rfl := Option.some.inj hm
    exact he
  | load => exact hI.of_disp rfl (by simp [Disp.Marks, Disp.marks]) (by simp [Disp.marks])
  | announce ho => exact hI.announce ho
  | mark ha ht =>
    rcases ht with rfl | ⟨hnul, -⟩
    · exact hI.mark
    · exact absurd hnul (by simp [hok ha _ rfl])

/-- So it holds after every run. -/
theorem inv_run {store : Store} {now : Int} {as : List QueueAction}
    (hempty : store.notifications.rows = [])
    (hok : (queue cfg).Along MarkSucceeds (.start store now) as)
    (he : (queue cfg).exec (.start store now) as = some q) : q.view.Inv := by
  refine (queue cfg).exec_invariant_along (I := fun q => q.view.Inv) ?_ (inv_start hempty) hok he
  intro q a q' hI hG hs
  refine inv_effect (queueStep_effect hs) ?_ hI
  intro ha
  subst ha
  exact hG

/-! ## After `sent_at` is set -/

/-- No row with this id will be dispatched again. -/
structure Settled (id : Nat) (v : View) : Prop where
  known : id < v.table.nextId
  hand : ∀ m ∈ v.disp.hand, m.id ≠ id
  rows : ∀ m ∈ v.table.rows, m.id = id → ¬m.unsent

/-- A row that is marked is no longer in the hands of the dispatcher. -/
theorem View.Inv.settled {v : View} (hI : v.Inv) {n : Notification} (hn : n ∈ v.table.rows)
    (hs : ¬n.unsent) : Settled n.id v where
  known := v.table.ids_lt n hn
  hand m hm he := hs (hI.row m hm n hn he.symm).1
  rows m hm he := by
    rw [NotificationTable.eq_of_id hm hn he]
    exact hs

/-- What keeps marked rows marked and hands nothing out again keeps a notification settled. -/
theorem Settled.of_evolves {id : Nat} {t t' : NotificationTable} {d d' : Disp}
    {l l' : List Entry} (h : Settled id ⟨t, d, l⟩) (ht : t.nextId ≤ t'.nextId)
    (hrows : ∀ m ∈ t'.rows, m.id = id → ¬m.unsent)
    (hhand : ∀ m ∈ d'.hand, m ∈ d.hand) : Settled id ⟨t', d', l'⟩ where
  known := Nat.lt_of_lt_of_le h.known ht
  hand m hm := h.hand m (hhand m hm)
  rows := hrows

/-- A settled notification is never posted again. -/
theorem settled_effect {s : Sys} {v v' : View} {id : Nat} (hE : Effect s a v v')
    (h : Settled id v) : Settled id v' ∧ postsOf id v'.log = postsOf id v.log := by
  cases hE with
  | none => exact ⟨h, rfl⟩
  | delete ha =>
    refine ⟨h.of_evolves (Nat.le_refl _) ?_ fun _ hm => hm, rfl⟩
    intro m hm
    exact h.rows m (NotificationTable.mem_deleteRollout.mp hm).1
  | @reschedule t d l rid items ha =>
    refine ⟨h.of_evolves (NotificationTable.evolves_reschedule rid items t).nextId ?_
      fun _ hm => hm, rfl⟩
    intro m hm hid
    rcases NotificationTable.mem_reschedule hm with ⟨hold, -⟩ | hf
    · exact h.rows m hold hid
    · have hge : t.nextId ≤ m.id := hf.id
      have hlt : id < t.nextId := h.known
      omega
  | tick hdue =>
    refine ⟨⟨h.known, ?_, h.rows⟩, postsOf_ticked⟩
    intro m hm hid
    obtain ⟨hr, hu, -⟩ :=
      NotificationTable.mem_due.mp (hdue.1.mem_iff.mp (List.mem_of_mem_take hm))
    exact h.rows m hr hid hu
  | skip he => exact ⟨h.of_evolves (Nat.le_refl _) h.rows fun _ hm => hm, rfl⟩
  | load => exact ⟨h.of_evolves (Nat.le_refl _) h.rows fun _ hm => hm, rfl⟩
  | announce ho =>
    refine ⟨h.of_evolves (Nat.le_refl _) h.rows fun _ hm => hm, ?_⟩
    rw [postsOf_posted, if_neg (h.hand _ (List.mem_cons_self ..))]
    rfl
  | @mark t t' l n e rest ha ht =>
    refine ⟨?_, postsOf_marked⟩
    rcases ht with rfl | ⟨-, rfl⟩
    · refine h.of_evolves (Nat.le_refl _) ?_ fun _ hm => List.mem_cons_of_mem _ hm
      intro m hm hid
      obtain ⟨m₀, hm₀, rfl⟩ := NotificationTable.mem_markSent.mp hm
      rw [NotificationTable.markRow_id] at hid
      rw [NotificationTable.markRow_of_sent (h.rows m₀ hm₀ hid)]
      exact h.rows m₀ hm₀ hid
    · exact h.of_evolves (Nat.le_refl _) h.rows fun _ hm => List.mem_cons_of_mem _ hm

/-- Not in any run. -/
theorem settled_run {id : Nat} {as : List QueueAction} (h : Settled id q.view)
    (he : (queue cfg).exec q as = some q') :
    Settled id q'.view ∧ postsOf id q'.log = postsOf id q.log := by
  refine (queue cfg).exec_invariant
    (I := fun p => Settled id p.view ∧ postsOf id p.log = postsOf id q.log) ?_ ⟨h, rfl⟩ he
  intro p a p' hp hs
  obtain ⟨h₁, h₂⟩ := settled_effect (queueStep_effect hs) hp.1
  exact ⟨h₁, h₂.trans hp.2⟩

/-- A row with `sent_at` stays as it is. -/
theorem sent_effect {s : Sys} {v v' : View} {n : Notification} (hE : Effect s a v v')
    (hn : n ∈ v.table.rows) (hs : ¬n.unsent) :
    n ∈ v'.table.rows ∨ a = .party (.delete n.rolloutId) := by
  cases hE with
  | @delete t d l id ha =>
    by_cases hr : n.rolloutId = id
    · exact Or.inr (hr ▸ ha)
    · exact Or.inl (NotificationTable.mem_deleteRollout.mpr ⟨hn, hr⟩)
  | reschedule ha => exact Or.inl (NotificationTable.reschedule_keeps hn fun hc => hs hc.2)
  | mark ha ht =>
    rcases ht with rfl | ⟨-, rfl⟩
    · exact Or.inl (NotificationTable.mem_markSent.mpr
        ⟨n, hn, NotificationTable.markRow_of_sent hs⟩)
    · exact Or.inl hn
  | none => exact Or.inl hn
  | tick hdue => exact Or.inl hn
  | skip he => exact Or.inl hn
  | load => exact Or.inl hn
  | announce ho => exact Or.inl hn

/-- A row once marked stays as it is, unless its rollout is deleted. -/
theorem sent_run {n : Notification} {as : List QueueAction} (hs : ¬n.unsent)
    (hn : n ∈ q.table.rows) (he : (queue cfg).exec q as = some q') :
    n ∈ q'.table.rows ∨ QueueAction.party (.delete n.rolloutId) ∈ as := by
  induction as generalizing q with
  | nil =>
    obtain rfl := Option.some.inj he
    exact Or.inl hn
  | cons a as ih =>
    obtain ⟨p, hp, he⟩ := (queue cfg).exec_cons_some he
    rcases sent_effect (queueStep_effect hp) hn hs with h | rfl
    · exact (ih h he).imp_right (List.mem_cons_of_mem _)
    · exact Or.inr (List.mem_cons_self ..)

/-- The step `a` marks the very row the loop dispatched, which has been posted, or
fails for the fifth time. -/
def Settles (s : Sys) (a : QueueAction) (v : View) (n : Notification) : Prop :=
  a = .markNotificationSent ∧ ∃ m errMsg, (m, errMsg) ∈ v.disp.marks ∧ n.id = m.id ∧
    (∃ n₀ ∈ v.table.rows, n₀.unsent ∧ n₀.key = m.key ∧
      n = NotificationTable.markRow s.now m.id errMsg n₀) ∧
    ((errMsg = "" ∧ v.log.head? = some (.posted m none)) ∨
      (errMsg ≠ "" ∧ failuresOf m.id v.log = 4))

/-- A row becomes a marked one by the mark of the dispatcher only. -/
theorem settles_effect {s : Sys} {v v' : View} {n : Notification} (hE : Effect s a v v')
    (hI : v.Inv) (hn : n ∈ v'.table.rows) (hs : ¬n.unsent) :
    n ∈ v.table.rows ∨ Settles s a v n := by
  cases hE with
  | delete ha => exact Or.inl (NotificationTable.mem_deleteRollout.mp hn).1
  | reschedule ha =>
    rcases NotificationTable.mem_reschedule hn with ⟨hold, -⟩ | hf
    · exact Or.inl hold
    · exact absurd (by simp [Notification.unsent, hf.sentAt]) hs
  | @mark t t' l m e rest ha ht =>
    rcases ht with rfl | ⟨-, rfl⟩
    · obtain ⟨n₀, hn₀, rfl⟩ := NotificationTable.mem_markSent.mp hn
      by_cases hid : n₀.id = m.id
      · obtain ⟨hu₀, hkey⟩ := hI.row m (List.mem_cons_self ..) n₀ hn₀ hid
        refine Or.inr ⟨ha, m, e, rfl, (NotificationTable.markRow_id ..).trans hid,
          ⟨n₀, hn₀, hu₀, hkey, rfl⟩, ?_⟩
        by_cases he : e = ""
        · exact Or.inl ⟨he, hI.out (m, e) rfl he⟩
        · refine Or.inr ⟨he, ?_⟩
          -- it failed and is sent, so this was the fifth time
          obtain ⟨ho, hatt⟩ := hI.queued n₀ hn₀ hu₀
          obtain ⟨-, hcap⟩ := NotificationTable.markRow_failed s.now hid hu₀ he
          have hge : ¬n₀.attempts + 1 < 5 := fun hlt => hs (hcap.mpr hlt)
          have hle : n₀.attempts ≤ 4 := hatt ▸ ho.failures
          show failuresOf m.id l = 4
          rw [← hid, ← show n₀.attempts = failuresOf n₀.id l from hatt]
          omega
      · left
        rw [NotificationTable.markRow_of_ne hid]
        exact hn₀
    · exact Or.inl hn
  | none => exact Or.inl hn
  | tick hdue => exact Or.inl hn
  | skip he => exact Or.inl hn
  | load => exact Or.inl hn
  | announce ho => exact Or.inl hn

/-! ## The queue -/

/-- What `BLUEPRINT.md` says of the queue, in one state: the cap on attempts and
posts, no post after a success that was marked, who may set `sent_at` next, and
that a row that has it is frozen in every run from here. -/
structure DispatchQueue (cfg : TeamsConfig) (q : Queue) : Prop where
  attempts : ∀ n ∈ q.table.rows, n.attempts ≤ 5 ∧ (n.unsent → n.attempts ≤ 4)
  posts : ∀ id, postsOf id q.log ≤ 5
  success : ∀ newer m older, q.log = newer ++ .marked m "" :: older → postsOf m.id newer = 0
  sent : ∀ a q', (queue cfg).step q a = some q' → ∀ n ∈ q'.table.rows, ¬n.unsent →
    n ∈ q.table.rows ∨ Settles q.sys a q.view n
  frozen : ∀ as q', (queue cfg).exec q as = some q' → ∀ n ∈ q.table.rows, ¬n.unsent →
    (n ∈ q'.table.rows ∨ QueueAction.party (.delete n.rolloutId) ∈ as) ∧
      (∀ now, ∀ m ∈ q'.table.due now, m.id ≠ n.id) ∧ postsOf n.id q'.log = postsOf n.id q.log

/-- **The dispatch queue**, in every state that any interleaving reaches in which
every mark succeeds. -/
theorem dispatch_queue_invariant {store : Store} {now : Int} {as : List QueueAction}
    (hempty : store.notifications.rows = [])
    (hok : (queue cfg).Along MarkSucceeds (.start store now) as)
    (he : (queue cfg).exec (.start store now) as = some q) : DispatchQueue cfg q := by
  have hI := inv_run hempty hok he
  constructor
  · intro n hn
    by_cases hu : n.unsent
    · obtain ⟨ho, hatt⟩ := hI.queued n hn hu
      have hle : n.attempts ≤ 4 := hatt ▸ ho.failures
      exact ⟨Nat.le_succ_of_le hle, fun _ => hle⟩
    · exact ⟨hI.sent n hn hu, fun h => absurd h hu⟩
  · intro id
    by_cases hm : q.disp.Marks id
    · -- the post being marked is the fifth at most
      obtain ⟨m, hm, rfl⟩ := hm
      have hhand : m.1 ∈ q.disp.hand := by
        cases hd : q.disp with
        | marking n e rest =>
          rw [hd] at hm
          obtain rfl := Option.some.inj hm
          exact List.mem_cons_self ..
        | loop todo => simp [hd, Disp.marks] at hm
        | loaded n r stage rest => simp [hd, Disp.marks] at hm
      obtain ⟨⟨hf, hs⟩, -⟩ := hI.hand m.1 hhand
      have hp := hI.posting m.1.id
      rw [hs] at hp
      exact Nat.le_trans hp (Nat.succ_le_succ hf)
    · exact Nat.le_trans (hI.posts id hm) (hI.marks id)
  · exact hI.after
  · intro a q' hs n hn hsent
    exact settles_effect (queueStep_effect hs) hI hn hsent
  · intro as q' hrun n hn hsent
    obtain ⟨hset, hposts⟩ := settled_run (hI.settled hn hsent) hrun
    refine ⟨sent_run hsent hn hrun, ?_, hposts⟩
    intro now m hm hid
    obtain ⟨hr, hu, -⟩ := NotificationTable.mem_due.mp hm
    exact hset.rows m hr hid hu

/-- Both webhooks are set. -/
def sampleTeams : TeamsConfig := ⟨"np", "prod"⟩

/-- A stage is scheduled, posted when due, and marked. -/
def postedRun : List QueueAction :=
  [.party (.create (sampleRollout "non-prod" (5 * hour))), .party (.reread 0), .party (.clock 0),
    .party (.reschedule 0), .party (.wait 14410000000000),
    .party (.tick [⟨0, "r1", 0, .TMS_NP, 4 * hour, none, none, 0⟩]), .party .load,
    .announceStage (.answered 202 ""), .markNotificationSent]

theorem dispatch_queue_invariant_posted :
    ∃ q, (queue sampleTeams).exec (.start sampleStore 0) postedRun = some q ∧
      (∃ n ∈ q.table.rows, ¬n.unsent) ∧ DispatchQueue sampleTeams q := by
  have hrun : ∃ q, (queue sampleTeams).exec (.start sampleStore 0) postedRun = some q ∧
      ∃ n ∈ q.table.rows, ¬n.unsent := by
    decide +kernel
  obtain ⟨q, hq, hsent⟩ := hrun
  exact ⟨q, hq, hsent, dispatch_queue_invariant rfl (by decide +kernel) hq⟩

end Notify

end ReleaseRadar
