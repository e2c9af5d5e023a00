import Mathlib.Logic.Function.Basic
import ReleaseRadar.Lib.Machine
import ReleaseRadar.Lib.ReadCommitted
import ReleaseRadar.Store.Notifications

/-!
# Two reschedules at once

Two `RescheduleNotifications` transactions on one rollout, interleaved statement by
statement under READ COMMITTED. Each deletes the rollout's unsent rows and inserts
its items; nothing locks the rollout.

* `alone_reschedules` — a transaction that runs alone does
  `NotificationTable.reschedule`, row for row;
* `unsent_after_both` — what is left after both: the items of the last to commit,
  and those of the other unless the last one's `DELETE` started after the other's
  commit, each unless a sent row had its key;
* `replaced_iff` — hence exactly when the queue is the item set of the last to
  commit. Two saves at once leave the union of both (`both_schedules_left`).
-/

namespace ReleaseRadar

open Lib ReadCommitted

namespace Reschedule

/-- The two calls. -/
inductive Call
  | a
  | b
deriving DecidableEq, Repr

def Call.other : Call → Call
  | a => b
  | b => a

/-- Where a call is. `snap` is what had committed when its `DELETE` started. -/
inductive Phase
  | idle
  | deleting (snap : List Call)
  | inserting (snap : List Call) (todo : List ScheduledNotification)
  | done (snap : List Call)
deriving DecidableEq, Repr

/-- What had committed when the call's `DELETE` started. -/
def Phase.snap : Phase → List Call
  | idle => []
  | deleting snap | inserting snap _ | done snap => snap

structure Sess where
  heap : Heap Call Notification
  nextId : Nat
  phase : Call → Phase

inductive Action
  | deleteBegin (c : Call)
  | deleteEnd (c : Call)
  | insert (c : Call)
  | commit (c : Call)
deriving DecidableEq, Repr

variable (rid : String) (items : Call → List ScheduledNotification)

/-- `rollout_id=$1 AND sent_at IS NULL`. -/
def unsentOf (n : Notification) : Bool := n.rolloutId == rid && n.unsent

def step (s : Sess) : Action → Option Sess
  | .deleteBegin c =>
    match s.phase c with
    | .idle => some { s with phase := Function.update s.phase c (.deleting s.heap.committed) }
    | _ => none
  | .deleteEnd c =>
    match s.phase c with
    | .deleting snap =>
      (s.heap.delete c snap (unsentOf rid)).map fun heap =>
        { s with heap := heap, phase := Function.update s.phase c (.inserting snap (items c)) }
    | _ => none
  | .insert c =>
    match s.phase c with
    | .inserting snap (it :: todo) =>
      (s.heap.insert c Notification.key (NotificationTable.newRow s.nextId rid it)).map fun heap =>
        ⟨heap, s.nextId + 1, Function.update s.phase c (.inserting snap todo)⟩
    | _ => none
  | .commit c =>
    match s.phase c with
    | .inserting snap [] =>
      some { s with heap := s.heap.commit c, phase := Function.update s.phase c (.done snap) }
    | _ => none

/-- The two calls over one table. -/
def calls : Machine Sess Action := ⟨step rid items⟩

/-- The steps of one call from its start to its commit. -/
def wholeCall (c : Call) : List Action :=
  .deleteBegin c :: .deleteEnd c :: ((items c).map (fun _ => .insert c) ++ [.commit c])

/-- Both calls are still to come. -/
def before (t : NotificationTable) : Sess := ⟨Heap.ofRows t.rows, t.nextId, fun _ => .idle⟩

/-- The rollout's queue, as a reader sees it. -/
def Unsent (s : Sess) (it : ScheduledNotification) : Prop :=
  ∃ n ∈ s.heap.rows, n.rolloutId = rid ∧ n.unsent ∧ n.item = it

/-- The queue is the item set of call `c`. -/
def Replaced (s : Sess) (c : Call) : Prop :=
  ∀ it, Unsent rid s it ↔ ∃ it' ∈ items c, it = it'.stored

/-- A sent row of the rollout has the item's key. -/
def SentBefore (t : NotificationTable) (it : ScheduledNotification) : Prop :=
  ∃ n ∈ t.rows, n.key = (rid, it) ∧ ¬n.unsent

/-! ## The invariant -/

/-- The call's `DELETE` is over. -/
def Phase.cleared : Phase → Prop
  | idle | deleting _ => False
  | inserting _ _ | done _ => True

/-- The items the call has yet to insert. -/
def Phase.todo : Phase → List ScheduledNotification
  | inserting _ todo => todo
  | idle | deleting _ | done _ => []

/-- A version a call inserted: an unsent row of the rollout for one of its items, under
a key no sent row had. -/
structure Inserted (t : NotificationTable) (phase : Call → Phase) (c : Call)
    (n : Notification) : Prop where
  cleared : (phase c).cleared
  rolloutId : n.rolloutId = rid
  unsent : n.unsent
  item : ∃ it ∈ items c, n.item = it.stored
  free : ∀ m ∈ t.rows, ¬m.unsent → m.key ≠ n.key

/-- How a call has dealt with an item: it inserted a row, or a sent row or one of the
other call, which its `DELETE` had not seen, was in the way. -/
def Dealt (t : NotificationTable) (heap : Heap Call Notification)
    (phase : Call → Phase) (c : Call) (it : ScheduledNotification) : Prop :=
  SentBefore rid t it.stored ∨
    (∃ v ∈ heap.versions, v.xmin = some c ∧ v.row.key = (rid, it.stored)) ∨
    (c.other ∉ (phase c).snap ∧ c.other ∈ heap.committed ∧
      ∃ v ∈ heap.versions, v.xmin = some c.other ∧ v.row.key = (rid, it.stored))

structure Inv (t : NotificationTable) (heap : Heap Call Notification) (phase : Call → Phase) :
    Prop where
  nodup : heap.committed.Nodup
  committed : ∀ c, c ∈ heap.committed ↔ ∃ snap, phase c = .done snap
  snaps : ∀ c, ∀ u ∈ (phase c).snap,
    u = c.other ∧ (heap.committed = [u] ∨ heap.committed = [c, u])
  kept : ∀ n ∈ t.rows, ∃ v ∈ heap.versions, v.xmin = none ∧ v.row = n
  created : ∀ v ∈ heap.versions,
    (v.xmin = none ∧ v.row ∈ t.rows) ∨ ∃ c, v.xmin = some c ∧ Inserted rid items t phase c v.row
  deleted : ∀ v ∈ heap.versions, ∀ c, v.xmax = some c →
    (phase c).cleared ∧ unsentOf rid v.row ∧ ∀ u ∈ v.xmin, u ∈ (phase c).snap
  clear : ∀ c, (phase c).cleared → ∀ v ∈ heap.versions, unsentOf rid v.row →
    (∀ u ∈ v.xmin, u ∈ (phase c).snap) → v.xmax ≠ none
  todo : ∀ c, ∀ it ∈ (phase c).todo, it ∈ items c
  dealt : ∀ c, (phase c).cleared → ∀ it ∈ items c, it ∈ (phase c).todo ∨ Dealt rid t heap phase c it

/-- The other call is another one. -/
theorem Call.other_ne (c : Call) : c.other ≠ c := by
  cases c <;> exact nofun

theorem Call.other_inj {c u : Call} (h : u.other = c.other) : u = c := by
  cases u <;> cases c <;> first | rfl | cases h

/-- There are two calls. -/
theorem Call.eq_or_eq_other (c u : Call) : u = c ∨ u = c.other := by
  cases c <;> cases u <;> simp [Call.other]

variable {rid items} {t : NotificationTable} {heap heap' : Heap Call Notification}
  {phase : Call → Phase}

/-- It holds before either has begun. -/
theorem inv_before (t : NotificationTable) : Inv rid items t (before t).heap (before t).phase where
  nodup := List.nodup_nil
  committed c := by simp [before, Heap.ofRows]
  snaps _ _ hu := absurd hu List.not_mem_nil
  kept n hn := ⟨⟨n, none, none⟩, List.mem_map.mpr ⟨n, hn, rfl⟩, rfl, rfl⟩
  created v hv := by
    obtain ⟨n, hn, rfl⟩ := List.mem_map.mp hv
    exact Or.inl ⟨rfl, hn⟩
  deleted v hv c hc := by
    obtain ⟨n, -, rfl⟩ := List.mem_map.mp hv
    cases hc
  clear _ hc := hc.elim
  todo _ _ hit := absurd hit List.not_mem_nil
  dealt _ hc := hc.elim

/-- A call that is not over has not committed. -/
theorem Inv.not_committed (hI : Inv rid items t heap phase) {c : Call}
    (h : ∀ snap, phase c ≠ .done snap) :
    c ∉ heap.committed := by
  intro hc
  obtain ⟨snap, hs⟩ := (hI.committed c).mp hc
  exact h snap hs

/-- A call whose `DELETE` is not over has inserted nothing. -/
theorem Inv.xmin_ne (hI : Inv rid items t heap phase) {c : Call} (h : ¬(phase c).cleared)
    {v : Version Call Notification} (hv : v ∈ heap.versions) : v.xmin ≠ some c := by
  intro hc
  rcases hI.created v hv with ⟨hn, -⟩ | ⟨u, hu, hins⟩
  · rw [hc] at hn
    cases hn
  · obtain rfl : u = c := Option.some.inj (hu.symm.trans hc)
    exact h hins.cleared

/-- Only the other call can have committed before this one. -/
theorem Inv.committed_other (hI : Inv rid items t heap phase) {c : Call}
    (hnot : c ∉ heap.committed) {w : Call} (hw : w ∈ heap.committed) :
    w = c.other ∧ heap.committed = [w] := by
  have hother : ∀ x ∈ heap.committed, x = c.other := by
    intro x hx
    rcases c.eq_or_eq_other x with rfl | h
    · exact absurd hx hnot
    · exact h
  refine ⟨hother w hw, ?_⟩
  have hlen := hI.nodup
  match hcm : heap.committed with
  | [] => rw [hcm] at hw; cases hw
  | [x] => rw [hcm] at hw; rw [List.mem_singleton.mp hw]
  | x :: y :: l =>
    rw [hcm] at hlen hother
    have hx := hother x (List.mem_cons_self ..)
    have hy := hother y (List.mem_cons_of_mem _ (List.mem_cons_self ..))
    rw [hx, hy] at hlen
    simp at hlen

section Phases

variable {phase' : Call → Phase} {c : Call}

/-- A row stays one its call has inserted. -/
theorem Inserted.of_cleared {n : Notification} (h : Inserted rid items t phase c n)
    (hcl : (phase' c).cleared) : Inserted rid items t phase' c n :=
  ⟨hcl, h.rolloutId, h.unsent, h.item, h.free⟩

/-- Of the phases only the call's own snapshot says how it has dealt with an item. -/
theorem Dealt.of_snap {it : ScheduledNotification} (h : Dealt rid t heap phase c it)
    (hs : (phase' c).snap = (phase c).snap) : Dealt rid t heap phase' c it := by
  unfold Dealt at h ⊢
  rwa [hs]

end Phases

/-- The DELETE takes its snapshot. -/
private theorem inv_deleteBegin (hI : Inv rid items t heap phase) {c : Call}
    (hc : phase c = .idle) :
    Inv rid items t heap (Function.update phase c (.deleting heap.committed)) := by
  have hnot : c ∉ heap.committed := hI.not_committed (by rw [hc]; exact nofun)
  have hcl : ¬(phase c).cleared := by rw [hc]; exact fun h => h
  have hne : ∀ u, (phase u).cleared → u ≠ c := by
    intro u hu he
    exact hcl (he ▸ hu)
  -- the call that begins has cleared nothing yet
  have hph : ∀ u, (Function.update phase c (.deleting heap.committed) u).cleared →
      u ≠ c ∧ (phase u).cleared := by
    intro u hu
    by_cases he : u = c
    · rw [he, Function.update_self] at hu
      exact hu.elim
    · rw [Function.update_of_ne he] at hu
      exact ⟨he, hu⟩
  refine ⟨hI.nodup, fun u => ?_, fun u w hw => ?_, hI.kept, fun v hv => ?_, fun v hv u hu => ?_,
    fun u hu v hv hp hmin => ?_, fun u it hit => ?_, fun u hu it hit => ?_⟩
  · by_cases he : u = c
    · subst he
      simp [hnot]
    · rw [hI.committed u]
      simp [Function.update_of_ne he]
  · by_cases he : u = c
    · subst he
      rw [Function.update_self] at hw
      -- its snapshot is what is committed now
      obtain ⟨hother, hcm⟩ := hI.committed_other hnot hw
      exact ⟨hother, Or.inl hcm⟩
    · rw [Function.update_of_ne he] at hw
      exact hI.snaps u w hw
  · rcases hI.created v hv with h | ⟨u, hu, hins⟩
    · exact Or.inl h
    · refine Or.inr ⟨u, hu, hins.of_cleared ?_⟩
      rw [Function.update_of_ne (hne u hins.cleared)]
      exact hins.cleared
  · obtain ⟨h₁, h₂, h₃⟩ := hI.deleted v hv u hu
    rw [Function.update_of_ne (hne u h₁)]
    exact ⟨h₁, h₂, h₃⟩
  · obtain ⟨he, hu'⟩ := hph u hu
    rw [Function.update_of_ne he] at hmin
    exact hI.clear u hu' v hv hp hmin
  · by_cases he : u = c
    · subst he
      simp [Phase.todo] at hit
    · rw [Function.update_of_ne he] at hit
      exact hI.todo u it hit
  · obtain ⟨he, hu'⟩ := hph u hu
    rcases hI.dealt u hu' it hit with h | h
    · exact Or.inl (by rw [Function.update_of_ne he]; exact h)
    · exact Or.inr (h.of_snap (by rw [Function.update_of_ne he]))

/-- A call keeps its snapshot once it has one. -/
private theorem snap_update {c : Call} (ph : Phase) (h : ph.snap = (phase c).snap) (u : Call) :
    (Function.update phase c ph u).snap = (phase u).snap := by
  by_cases he : u = c
  · rw [he, Function.update_self, h]
  · rw [Function.update_of_ne he]

/-- Who has deleted has deleted. -/
private theorem cleared_update {c : Call} (ph : Phase) (h : (phase c).cleared) (hph : ph.cleared)
    (u : Call) : (Function.update phase c ph u).cleared ↔ (phase u).cleared := by
  by_cases he : u = c
  · rw [he, Function.update_self]
    exact ⟨fun _ => h, fun _ => hph⟩
  · rw [Function.update_of_ne he]

/-- The DELETE marks what its snapshot shows. -/
private theorem inv_deleteEnd (hI : Inv rid items t heap phase) {c : Call} {snap : List Call}
    (hc : phase c = .deleting snap)
    (hd : heap.delete c snap (unsentOf rid) = some heap') :
    Inv rid items t heap' (Function.update phase c (.inserting snap (items c))) := by
  obtain rfl := Heap.delete_some hd
  have hcl : ¬(phase c).cleared := by rw [hc]; exact fun h => h
  have hsnap := snap_update (.inserting snap (items c)) (by rw [hc]; rfl : _ = (phase c).snap)
  have hcs : (phase c).snap = snap := by rw [hc]; rfl
  have hof : ∀ u, u ≠ c → Function.update phase c (.inserting snap (items c)) u = phase u :=
    fun u he => Function.update_of_ne he ..
  have hne : ∀ u, (phase u).cleared → u ≠ c := by
    intro u hu he
    exact hcl (he ▸ hu)
  have hmem : ∀ v' ∈ heap.versions.map (Heap.deleteVersion c snap (unsentOf rid)),
      ∃ v ∈ heap.versions, Heap.deleteVersion c snap (unsentOf rid) v = v' :=
    fun v' hv' => List.mem_map.mp hv'
  refine ⟨hI.nodup, fun u => ?_, fun u w hw => ?_, fun n hn => ?_, fun v' hv' => ?_,
    fun v' hv' u hu => ?_, fun u hu v' hv' hp hmin => ?_, fun u it hit => ?_,
    fun u hu it hit => ?_⟩
  · by_cases he : u = c
    · subst he
      have hnot := hI.not_committed (c := u) (by rw [hc]; exact nofun)
      simp [hnot]
    · rw [hof u he]
      exact hI.committed u
  · rw [hsnap] at hw
    exact hI.snaps u w hw
  · obtain ⟨v, hv, hmin, hrow⟩ := hI.kept n hn
    exact ⟨_, List.mem_map.mpr ⟨v, hv, rfl⟩, by simpa using hmin, by simpa using hrow⟩
  · obtain ⟨v, hv, rfl⟩ := hmem v' hv'
    rw [Heap.deleteVersion_xmin, Heap.deleteVersion_row]
    rcases hI.created v hv with h | ⟨u, hu, hins⟩
    · exact Or.inl h
    · refine Or.inr ⟨u, hu, hins.of_cleared ?_⟩
      rw [hof u (hne u hins.cleared)]
      exact hins.cleared
  · obtain ⟨v, hv, rfl⟩ := hmem v' hv'
    rw [Heap.deleteVersion_row, Heap.deleteVersion_xmin, hsnap]
    rcases Heap.xmax_deleteVersion hu with hold | ⟨rfl, hvis, hp⟩
    · obtain ⟨h₁, h₂, h₃⟩ := hI.deleted v hv u hold
      exact ⟨by rw [hof u (hne u h₁)]; exact h₁, h₂, h₃⟩
    · refine ⟨by rw [Function.update_self]; trivial, hp, fun w hw => ?_⟩
      rcases List.mem_cons.mp (hvis.1 w hw) with rfl | hw'
      · exact absurd hw (hI.xmin_ne hcl hv)
      · rw [hcs]
        exact hw'
  · obtain ⟨v, hv, rfl⟩ := hmem v' hv'
    rw [Heap.deleteVersion_row] at hp
    rw [Heap.deleteVersion_xmin, hsnap] at hmin
    by_cases he : u = c
    · subst he
      rw [hcs] at hmin
      exact Heap.deleteVersion_deleted (fun w hw => List.mem_cons_of_mem _ (hmin w hw)) hp
    · rw [hof u he] at hu
      have hold := hI.clear u hu v hv hp hmin
      rw [Heap.deleteVersion_of_deleted hold]
      exact hold
  · by_cases he : u = c
    · subst he
      simpa [Phase.todo] using hit
    · rw [hof u he] at hit
      exact hI.todo u it hit
  · by_cases he : u = c
    · subst he
      exact Or.inl (by rw [Function.update_self]; exact hit)
    · rw [hof u he] at hu ⊢
      refine (hI.dealt u hu it hit).imp_right fun h => Dealt.of_snap ?_ (by rw [hof u he])
      refine h.imp_right (Or.imp (fun ⟨v, hv, hm, hk⟩ => ?_) fun ⟨h₁, h₂, v, hv, hm, hk⟩ => ?_)
      · exact ⟨_, List.mem_map.mpr ⟨v, hv, rfl⟩, by simpa using hm, by simpa using hk⟩
      · exact ⟨h₁, h₂, _, List.mem_map.mpr ⟨v, hv, rfl⟩, by simpa using hm, by simpa using hk⟩

/-- What a live version with an item's key means: the item is dealt with. -/
private theorem dealt_of_live (hI : Inv rid items t heap phase) {c : Call} (hcl : (phase c).cleared)
    {it : ScheduledNotification} {v : Version Call Notification} (hv : v ∈ heap.versions)
    (hk : v.row.key = (rid, it.stored)) (hlive : v.live (c :: heap.committed)) :
    Dealt rid t heap phase c it := by
  rcases hI.created v hv with ⟨hmin, hrow⟩ | ⟨u, hmin, hins⟩
  · -- a row from before: it is sent, the `DELETE` having deleted the unsent ones
    refine Or.inl ⟨v.row, hrow, hk, fun hun => ?_⟩
    have hp : unsentOf rid v.row := by
      simp [unsentOf, hun, show v.row.rolloutId = rid from congrArg Prod.fst hk]
    refine hI.clear c hcl v hv hp (fun u hu => ?_) hlive.2
    rw [hmin] at hu
    cases hu
  · rcases c.eq_or_eq_other u with rfl | rfl
    · exact Or.inr (Or.inl ⟨v, hv, hmin, hk⟩)
    · refine Or.inr (Or.inr ⟨fun hs => ?_, ?_, v, hv, hmin, hk⟩)
      · have hp : unsentOf rid v.row := by simp [unsentOf, hins.unsent, hins.rolloutId]
        refine hI.clear c hcl v hv hp (fun w hw => ?_) hlive.2
        obtain rfl : c.other = w := Option.some.inj (hmin.symm.trans hw)
        exact hs
      · rcases List.mem_cons.mp (hlive.1 c.other hmin) with he | hmem
        · exact absurd he c.other_ne
        · exact hmem

/-- An INSERT adds a row or leaves it to its like. -/
private theorem inv_insert (hI : Inv rid items t heap phase) {c : Call} {snap : List Call}
    {it : ScheduledNotification} {todo : List ScheduledNotification} {id : Nat}
    (hc : phase c = .inserting snap (it :: todo))
    (hi : heap.insert c Notification.key (NotificationTable.newRow id rid it) = some heap') :
    Inv rid items t heap' (Function.update phase c (.inserting snap todo)) := by
  have hcl : (phase c).cleared := by rw [hc]; trivial
  have hsnap := snap_update (.inserting snap todo) (by rw [hc]; rfl : _ = (phase c).snap)
  have hcleared := cleared_update (.inserting snap todo) hcl trivial
  have hof : ∀ u, u ≠ c → Function.update phase c (.inserting snap todo) u = phase u :=
    fun u he => Function.update_of_ne he ..
  have hnot := hI.not_committed (c := c) (by rw [hc]; exact nofun)
  have hcommitted : ∀ u, u ∈ heap.committed ↔
      ∃ sn, Function.update phase c (.inserting snap todo) u = .done sn := by
    intro u
    by_cases he : u = c
    · subst he
      simp [hnot]
    · rw [hof u he]
      exact hI.committed u
  have htodo : ∀ u, ∀ x ∈ (Function.update phase c (.inserting snap todo) u).todo,
      x ∈ items u := by
    intro u x hx
    by_cases he : u = c
    · subst he
      rw [Function.update_self] at hx
      exact hI.todo u x (by rw [hc]; exact List.mem_cons_of_mem _ hx)
    · rw [hof u he] at hx
      exact hI.todo u x hx
  rcases Heap.insert_some hi with ⟨rfl, v, hv, hk, hlive⟩ | ⟨rfl, hdead⟩
  · -- the key is taken
    refine ⟨hI.nodup, hcommitted, fun u w hw => hI.snaps u w (by rw [← hsnap]; exact hw), hI.kept,
      fun v' hv' => (hI.created v' hv').imp_right fun ⟨u, hu, h⟩ =>
        ⟨u, hu, h.of_cleared ((hcleared u).mpr h.cleared)⟩,
      fun v' hv' u hu => ?_, fun u hu v' hv' hp hmin => ?_, htodo, fun u hu x hx => ?_⟩
    · obtain ⟨h₁, h₂, h₃⟩ := hI.deleted v' hv' u hu
      exact ⟨(hcleared u).mpr h₁, h₂, fun w hw => by rw [hsnap]; exact h₃ w hw⟩
    · exact hI.clear u ((hcleared u).mp hu) v' hv' hp fun w hw => by rw [← hsnap]; exact hmin w hw
    · have hold : x ∈ (phase u).todo ∨ Dealt rid t heap' phase u x :=
        hI.dealt u ((hcleared u).mp hu) x hx
      rcases hold with h | h
      · by_cases he : u = c
        · subst he
          rw [hc] at h
          -- the item is dealt with: a row with its key is there
          rcases List.mem_cons.mp h with rfl | h
          · exact Or.inr ((dealt_of_live hI hcl hv hk hlive).of_snap (hsnap u))
          · exact Or.inl (by rw [Function.update_self]; exact h)
        · exact Or.inl (by rw [hof u he]; exact h)
      · exact Or.inr (h.of_snap (hsnap u))
  · -- a new version
    have hmem : ∀ {P : Version Call Notification → Prop}, (∃ v ∈ heap.versions, P v) →
        ∃ v ∈ heap.versions ++ [⟨NotificationTable.newRow id rid it, some c, none⟩], P v :=
      fun ⟨v, hv, h⟩ => ⟨v, List.mem_append_left _ hv, h⟩
    have hit : it ∈ items c := hI.todo c it (by rw [hc]; exact List.mem_cons_self ..)
    refine ⟨hI.nodup, hcommitted, fun u w hw => hI.snaps u w (by rw [← hsnap]; exact hw),
      fun n hn => hmem (hI.kept n hn), fun v hv => ?_, fun v hv u hu => ?_,
      fun u hu v hv hp hmin => ?_, htodo, fun u hu x hx => ?_⟩
    · rcases List.mem_append.mp hv with hv | hv
      · exact (hI.created v hv).imp_right fun ⟨u, hu, h⟩ =>
          ⟨u, hu, h.of_cleared ((hcleared u).mpr h.cleared)⟩
      · obtain rfl := List.mem_singleton.mp hv
        refine Or.inr ⟨c, rfl, (hcleared c).mpr hcl, rfl, rfl, ⟨it, hit, rfl⟩, ?_⟩
        -- a row that was there before and is sent would still have the key
        intro m hm hs hkey
        obtain ⟨w, hw, -, rfl⟩ := hI.kept m hm
        obtain ⟨u, hu, -⟩ := hdead w hw hkey
        have hp := (hI.deleted w hw u hu).2.1
        simp only [unsentOf, Bool.and_eq_true] at hp
        exact hs hp.2
    · rcases List.mem_append.mp hv with hv | hv
      · obtain ⟨h₁, h₂, h₃⟩ := hI.deleted v hv u hu
        exact ⟨(hcleared u).mpr h₁, h₂, fun w hw => by rw [hsnap]; exact h₃ w hw⟩
      · obtain rfl := List.mem_singleton.mp hv
        cases hu
    · rcases List.mem_append.mp hv with hv | hv
      · exact hI.clear u ((hcleared u).mp hu) v hv hp fun w hw => by rw [← hsnap]; exact hmin w hw
      · -- no snapshot has a call that is still inserting
        obtain rfl := List.mem_singleton.mp hv
        have hs := hmin c rfl
        rw [hsnap] at hs
        obtain ⟨-, hcm⟩ := hI.snaps u c hs
        rcases hcm with hcm | hcm <;>
        · rw [hcm] at hnot
          simp at hnot
    · have hold : x ∈ (phase u).todo ∨ Dealt rid t heap phase u x :=
        hI.dealt u ((hcleared u).mp hu) x hx
      rcases hold with h | h
      · by_cases he : u = c
        · subst he
          rw [hc] at h
          -- the item is dealt with by the row that is new
          rcases List.mem_cons.mp h with rfl | h
          · exact Or.inr (Or.inr (Or.inl ⟨_, List.mem_append_right _ (List.mem_singleton.mpr rfl),
              rfl, rfl⟩))
          · exact Or.inl (by rw [Function.update_self]; exact h)
        · exact Or.inl (by rw [hof u he]; exact h)
      · refine Or.inr (Dealt.of_snap ?_ (hsnap u))
        exact h.imp_right (Or.imp hmem fun ⟨h₁, h₂, h₃⟩ => ⟨h₁, h₂, hmem h₃⟩)

/-- A commit makes the rows of its call visible. -/
private theorem inv_commit (hI : Inv rid items t heap phase) {c : Call} {snap : List Call}
    (hc : phase c = .inserting snap []) :
    Inv rid items t (heap.commit c) (Function.update phase c (.done snap)) := by
  have hcl : (phase c).cleared := by rw [hc]; trivial
  have hsnap := snap_update (.done snap) (by rw [hc]; rfl : _ = (phase c).snap)
  have hcleared := cleared_update (.done snap) hcl trivial
  have hof : ∀ u, u ≠ c → Function.update phase c (.done snap) u = phase u :=
    fun u he => Function.update_of_ne he ..
  have hnot := hI.not_committed (c := c) (by rw [hc]; exact nofun)
  have htodo : ∀ u, (Function.update phase c (.done snap) u).todo = (phase u).todo := by
    intro u
    by_cases he : u = c
    · rw [he, Function.update_self, hc]
      rfl
    · rw [hof u he]
  refine ⟨List.nodup_cons.mpr ⟨hnot, hI.nodup⟩, fun u => ?_, fun u w hw => ?_, hI.kept,
    fun v hv => ?_, fun v hv u hu => ?_, fun u hu v hv hp hmin => ?_,
    fun u it hit => hI.todo u it (by rw [← htodo]; exact hit), fun u hu x hx => ?_⟩
  · by_cases he : u = c
    · subst he
      simp [Heap.commit]
    · have hiff := hI.committed u
      simp [Heap.commit, he, hiff]
  · rw [hsnap] at hw
    obtain ⟨hother, hcm⟩ := hI.snaps u w hw
    have hmem : w ∈ heap.committed := by
      rcases hcm with h | h <;> simp [h]
    obtain ⟨hwc, hone⟩ := hI.committed_other hnot hmem
    -- the call that saw `w` committed is the one that commits now
    have huc : u = c := Call.other_inj (hother.symm.trans hwc)
    refine ⟨hother, Or.inr ?_⟩
    rw [huc]
    show c :: heap.committed = [c, w]
    rw [hone]
  · exact (hI.created v hv).imp_right fun ⟨u, hu, h⟩ =>
      ⟨u, hu, h.of_cleared ((hcleared u).mpr h.cleared)⟩
  · obtain ⟨h₁, h₂, h₃⟩ := hI.deleted v hv u hu
    exact ⟨(hcleared u).mpr h₁, h₂, fun w hw => by rw [hsnap]; exact h₃ w hw⟩
  · exact hI.clear u ((hcleared u).mp hu) v hv hp fun w hw => by rw [← hsnap]; exact hmin w hw
  · have hold : x ∈ (phase u).todo ∨ Dealt rid t heap phase u x :=
      hI.dealt u ((hcleared u).mp hu) x hx
    rcases hold with h | h
    · exact Or.inl (by rw [htodo]; exact h)
    · refine Or.inr (Dealt.of_snap ?_ (hsnap u))
      exact h.imp_right (Or.imp_right fun ⟨h₁, h₂, h₃⟩ => ⟨h₁, List.mem_cons_of_mem _ h₂, h₃⟩)

/-- **Every step of either call keeps the invariant.** -/
theorem inv_step {s s' : Sess} {a : Action} (hI : Inv rid items t s.heap s.phase)
    (h : step rid items s a = some s') : Inv rid items t s'.heap s'.phase := by
  cases a with
  | deleteBegin c =>
    simp only [step] at h
    split at h
    · next hc =>
      obtain rfl := Option.some.inj h
      exact inv_deleteBegin hI hc
    · cases h
  | deleteEnd c =>
    simp only [step] at h
    split at h
    · next snap hc =>
      obtain ⟨heap, hd, rfl⟩ := Option.map_eq_some_iff.mp h
      exact inv_deleteEnd hI hc hd
    · cases h
  | insert c =>
    simp only [step] at h
    split at h
    · next snap it todo hc =>
      obtain ⟨heap, hi, rfl⟩ := Option.map_eq_some_iff.mp h
      exact inv_insert hI hc hi
    · cases h
  | commit c =>
    simp only [step] at h
    split at h
    · next snap hc =>
      obtain rfl := Option.some.inj h
      exact inv_commit hI hc
    · cases h

/-! ## What both calls leave -/

/-- Once both calls are over, a reader sees what was not deleted. -/
theorem mem_rows_of_done {c : Call} (hdone : heap.committed = [c, c.other]) {n : Notification} :
    n ∈ heap.rows ↔ ∃ v ∈ heap.versions, v.xmax = none ∧ v.row = n := by
  have hall : ∀ u, u ∈ heap.committed := by
    intro u
    rw [hdone]
    rcases c.eq_or_eq_other u with rfl | rfl <;> simp
  rw [Heap.mem_rows]
  constructor
  · intro h
    obtain ⟨v, hv, hvis, hrow⟩ := h
    refine ⟨v, hv, ?_, hrow⟩
    by_contra hne
    obtain ⟨u, hu⟩ := Option.ne_none_iff_exists'.mp hne
    exact hvis.2 u hu (hall u)
  · intro h
    obtain ⟨v, hv, hnone, hrow⟩ := h
    refine ⟨v, hv, ⟨fun u _ => hall u, fun u hu => ?_⟩, hrow⟩
    rw [hnone] at hu
    cases hu

/-- The later call's rows stay: the other did not see them. -/
private theorem live_of_unseen (hI : Inv rid items t heap phase) {c u : Call}
    (hdone : heap.committed = [c, c.other]) (hu : u ∉ (phase c).snap)
    {v : Version Call Notification} (hv : v ∈ heap.versions) (hmin : v.xmin = some u) :
    v.xmax = none := by
  by_contra hne
  obtain ⟨w, hw⟩ := Option.ne_none_iff_exists'.mp hne
  have hseen := (hI.deleted v hv w hw).2.2 u hmin
  rcases c.eq_or_eq_other w with rfl | rfl
  · exact hu hseen
  · -- the earlier call's snapshot is empty
    obtain ⟨-, hcm⟩ := hI.snaps c.other u hseen
    have hne' := c.other_ne
    rcases hcm with h | h
    · rw [hdone] at h
      simp at h
    · rw [hdone] at h
      simp only [List.cons.injEq] at h
      exact hne' h.1.symm

/-- **The queue after both calls**: the items of the later one, and those of the other
unless the later one's `DELETE` saw them, each unless a sent row had its key. -/
theorem unsent_after_both (hI : Inv rid items t heap phase) {c : Call}
    (hdone : heap.committed = [c, c.other]) (it : ScheduledNotification) :
    (∃ n ∈ heap.rows, n.rolloutId = rid ∧ n.unsent ∧ n.item = it) ↔
      ¬SentBefore rid t it ∧ ((∃ it' ∈ items c, it = it'.stored) ∨
        (c.other ∉ (phase c).snap ∧ ∃ it' ∈ items c.other, it = it'.stored)) := by
  have hcommitted : ∀ u, ∃ snap, phase u = .done snap := by
    intro u
    refine (hI.committed u).mp ?_
    rw [hdone]
    rcases c.eq_or_eq_other u with rfl | rfl <;> simp
  have hcl : ∀ u, (phase u).cleared := by
    intro u
    obtain ⟨snap, hs⟩ := hcommitted u
    rw [hs]
    trivial
  have hno : ∀ u, (phase u).todo = [] := by
    intro u
    obtain ⟨snap, hs⟩ := hcommitted u
    rw [hs]
    rfl
  have hself : c ∉ (phase c).snap := fun hs => c.other_ne (hI.snaps c c hs).1.symm
  constructor
  · intro h
    obtain ⟨n, hn, hr, hun, rfl⟩ := h
    obtain ⟨v, hv, hnone, rfl⟩ := (mem_rows_of_done hdone).mp hn
    have hp : unsentOf rid v.row := by simp [unsentOf, hr, hun]
    rcases hI.created v hv with ⟨hmin, -⟩ | ⟨u, hmin, hins⟩
    · exfalso
      refine hI.clear c (hcl c) v hv hp (fun w hw => ?_) hnone
      rw [hmin] at hw
      cases hw
    · refine ⟨fun hs => ?_, ?_⟩
      · obtain ⟨m, hm, hk, hsent⟩ := hs
        refine hins.free m hm hsent (hk.trans ?_)
        rw [Notification.key, hr]
      · rcases c.eq_or_eq_other u with rfl | rfl
        · exact Or.inl hins.item
        · refine Or.inr ⟨fun hs => ?_, hins.item⟩
          refine hI.clear c (hcl c) v hv hp (fun w hw => ?_) hnone
          obtain rfl : c.other = w := Option.some.inj (hmin.symm.trans hw)
          exact hs
  · intro h
    obtain ⟨hfree, hcase⟩ := h
    -- the row that dealt with the item is still there
    have hrow : ∀ u ∉ (phase c).snap, ∀ v ∈ heap.versions, v.xmin = some u →
        v.row.key = (rid, it) → ∃ n ∈ heap.rows, n.rolloutId = rid ∧ n.unsent ∧ n.item = it := by
      intro u hu v hv hmin hk
      have hlive := live_of_unseen hI hdone hu hv hmin
      refine ⟨v.row, (mem_rows_of_done hdone).mpr ⟨v, hv, hlive, rfl⟩, congrArg Prod.fst hk, ?_,
        congrArg Prod.snd hk⟩
      rcases hI.created v hv with ⟨hmin', -⟩ | ⟨w, -, hins⟩
      · rw [hmin] at hmin'
        cases hmin'
      · exact hins.unsent
    rcases hcase with ⟨it', hit', rfl⟩ | ⟨hunseen, it', hit', rfl⟩
    · rcases hI.dealt c (hcl c) it' hit' with htodo | hs | ⟨v, hv, hmin, hk⟩ |
        ⟨hunseen, -, v, hv, hmin, hk⟩
      · rw [hno c] at htodo
        cases htodo
      · exact absurd hs hfree
      · exact hrow c hself v hv hmin hk
      · exact hrow c.other hunseen v hv hmin hk
    · rcases hI.dealt c.other (hcl c.other) it' hit' with htodo | hs | ⟨v, hv, hmin, hk⟩ |
        ⟨-, -, v, hv, hmin, hk⟩
      · rw [hno c.other] at htodo
        cases htodo
      · exact absurd hs hfree
      · exact hrow c.other hunseen v hv hmin hk
      · rw [show c.other.other = c by cases c <;> rfl] at hmin
        exact hrow c hself v hv hmin hk

/-- **When a reschedule replaces the queue.** In every interleaving of two calls, from
every table, after both have committed, `c` last: the queue is the item set of `c` if
and only if no sent row has the key of one of its items, and either its `DELETE`
started after the other call's commit or every item of the other call is one of `c`'s
or has a sent row. -/
theorem replaced_iff {s : Sess} {as : List Action} {c : Call}
    (hrun : (calls rid items).exec (before t) as = some s)
    (hdone : s.heap.committed = [c, c.other]) :
    Replaced rid items s c ↔
      (∀ it ∈ items c, ¬SentBefore rid t it.stored) ∧
        (c.other ∈ (s.phase c).snap ∨ ∀ it ∈ items c.other,
          SentBefore rid t it.stored ∨ ∃ it' ∈ items c, it.stored = it'.stored) := by
  have hI : Inv rid items t s.heap s.phase :=
    (calls rid items).exec_invariant (I := fun s => Inv rid items t s.heap s.phase)
      (fun _ _ _ hI h => inv_step hI h) (inv_before t) hrun
  have hleft := unsent_after_both hI hdone
  constructor
  · intro hR
    refine ⟨fun it hit => ?_, ?_⟩
    · exact ((hleft it.stored).mp ((hR it.stored).mpr ⟨it, hit, rfl⟩)).1
    · by_cases hseen : c.other ∈ (s.phase c).snap
      · exact Or.inl hseen
      · refine Or.inr fun it hit => ?_
        by_cases hs : SentBefore rid t it.stored
        · exact Or.inl hs
        · exact Or.inr ((hR it.stored).mp ((hleft it.stored).mpr
            ⟨hs, Or.inr ⟨hseen, it, hit, rfl⟩⟩))
  · intro h it
    obtain ⟨hfree, hother⟩ := h
    rw [show Unsent rid s it ↔ _ from hleft it]
    constructor
    · intro hu
      obtain ⟨hs, hit | ⟨hunseen, it', hit', rfl⟩⟩ := hu
      · exact hit
      · rcases hother with hseen | hsub
        · exact absurd hseen hunseen
        · exact (hsub it' hit').resolve_left hs
    · intro hit
      obtain ⟨it', hit', rfl⟩ := hit
      exact ⟨hfree it' hit', Or.inl ⟨it', hit', rfl⟩⟩

/-- A queue with one unsent row, which both calls replace by an item of their own. -/
private def sampleTable : NotificationTable where
  rows := [⟨0, "r", 0, .TMS_NP, 100000, none, none, 0⟩]
  nextId := 1
  ids_lt := by decide
  ids_nodup := by decide
  keys_nodup := by decide

private def sampleItems : Call → List ScheduledNotification
  | .a => [⟨0, .TMS_NP, 200000⟩]
  | .b => [⟨0, .TMS_NP, 300000⟩]

private def oneAfterTheOther : List Action :=
  wholeCall sampleItems .a ++ wholeCall sampleItems .b

private def atOnce : List Action :=
  [.deleteBegin .a, .deleteBegin .b, .deleteEnd .a, .insert .a, .commit .a, .deleteEnd .b,
    .insert .b, .commit .b]

/-- One call after the other replaces the queue. -/
theorem replaced_iff_serial :
    ∃ s, (calls "r" sampleItems).exec (before sampleTable) oneAfterTheOther = some s ∧
      Replaced "r" sampleItems s .b := by
  have hrun : ∃ s, (calls "r" sampleItems).exec (before sampleTable) oneAfterTheOther = some s ∧
      s.heap.committed = [.b, Call.b.other] ∧ Call.a ∈ (s.phase .b).snap := by
    decide
  obtain ⟨s, hs, hdone, hseen⟩ := hrun
  refine ⟨s, hs, (replaced_iff hs hdone).mpr ⟨?_, Or.inl hseen⟩⟩
  intro it _ hsent
  -- no row of the table is sent
  obtain ⟨n, hn, -, hun⟩ := hsent
  obtain rfl := List.mem_singleton.mp hn
  exact hun rfl

/-- **Two calls at once leave both item sets**: each `DELETE` has only the old rows in
its snapshot. -/
theorem both_schedules_left :
    ∃ s, (calls "r" sampleItems).exec (before sampleTable) atOnce = some s ∧
      s.heap.committed = [.b, .a] ∧ ∀ c, ¬Replaced "r" sampleItems s c := by
  have hrun : ∃ s, (calls "r" sampleItems).exec (before sampleTable) atOnce = some s ∧
      s.heap.committed = [.b, .a] ∧
      s.heap.rows.map (·.item) = [⟨0, .TMS_NP, 200000⟩, ⟨0, .TMS_NP, 300000⟩] ∧
      ∀ n ∈ s.heap.rows, n.rolloutId = "r" ∧ n.unsent := by
    decide
  obtain ⟨s, hs, hdone, hitems, hall⟩ := hrun
  have hunsent : ∀ it ∈ s.heap.rows.map (·.item), Unsent "r" s it := by
    intro it hit
    obtain ⟨n, hn, rfl⟩ := List.mem_map.mp hit
    exact ⟨n, hn, (hall n hn).1, (hall n hn).2, rfl⟩
  refine ⟨s, hs, hdone, fun c hR => ?_⟩
  rw [hitems] at hunsent
  cases c with
  | a =>
    obtain ⟨it, hit, heq⟩ := (hR ⟨0, .TMS_NP, 300000⟩).mp (hunsent _ (by simp))
    obtain rfl := List.mem_singleton.mp hit
    revert heq
    decide
  | b =>
    obtain ⟨it, hit, heq⟩ := (hR ⟨0, .TMS_NP, 200000⟩).mp (hunsent _ (by simp))
    obtain rfl := List.mem_singleton.mp hit
    revert heq
    decide

/-! ## A call that runs alone -/

/-- Only call `c` has touched the heap, and it sees the rows of `tab`. -/
structure Alone (c : Call) (s : Sess) (tab : NotificationTable) : Prop where
  committed : s.heap.committed = []
  mine : ∀ v ∈ s.heap.versions, (∀ u ∈ v.xmin, u = c) ∧ ∀ u ∈ v.xmax, u = c
  rows : (s.heap.versions.filter fun v => v.visible [c]).map (·.row) = tab.rows
  nextId : s.nextId = tab.nextId

/-- To a call that runs alone, a version it does not see is gone. -/
private theorem visible_iff_live {c : Call} {v : Version Call Notification}
    (hmin : ∀ u ∈ v.xmin, u = c) (hmax : ∀ u ∈ v.xmax, u = c) :
    (v.visible [c] ↔ v.live [c]) ∧ (¬v.visible [c] ↔ v.dead [c]) := by
  have hseen : ∀ u ∈ v.xmin, u ∈ [c] := fun u hu => List.mem_singleton.mpr (hmin u hu)
  cases hx : v.xmax with
  | none =>
    have hvis : v.visible [c] := ⟨hseen, by rw [hx]; exact nofun⟩
    have hdead : ¬v.dead [c] := by
      intro h
      obtain ⟨u, hu, -⟩ := h
      rw [hx] at hu
      cases hu
    exact ⟨⟨fun _ => ⟨hseen, hx⟩, fun _ => hvis⟩, ⟨fun h => absurd hvis h, fun h => absurd h hdead⟩⟩
  | some u =>
    have hu : u ∈ [c] := List.mem_singleton.mpr (hmax u hx)
    have hvis : ¬v.visible [c] := fun h => h.2 u hx hu
    have hlive : ¬v.live [c] := by
      intro h
      have hnone := h.2
      rw [hx] at hnone
      cases hnone
    exact ⟨⟨fun h => absurd h hvis, fun h => absurd h hlive⟩, ⟨fun _ => ⟨u, hx, hu⟩, fun _ => hvis⟩⟩

/-- A call that runs alone inserts as `NotificationTable.insert` does. -/
theorem alone_insert (rid : String) (items : Call → List ScheduledNotification) {s : Sess}
    {c : Call} {tab : NotificationTable} {snap : List Call} {it : ScheduledNotification}
    {todo : List ScheduledNotification} (hA : Alone c s tab)
    (hc : s.phase c = .inserting snap (it :: todo)) :
    ∃ s', (calls rid items).step s (.insert c) = some s' ∧ s'.phase c = .inserting snap todo ∧
      Alone c s' (tab.insert rid it) := by
  have hseen : ∀ v ∈ s.heap.versions, (v.visible [c] ↔ v.live [c]) ∧
    (¬v.visible [c] ↔ v.dead [c]) :=
    fun v hv => visible_iff_live (hA.mine v hv).1 (hA.mine v hv).2
  have hmem : ∀ n, n ∈ tab.rows ↔ ∃ v ∈ s.heap.versions, v.visible [c] ∧ v.row = n := by
    intro n
    rw [← hA.rows]
    simp [and_assoc]
  have hnew : NotificationTable.newRow s.nextId rid it = NotificationTable.newRow tab.nextId
    rid it := by
    rw [hA.nextId]
  by_cases hk : (rid, it.stored) ∈ tab.rows.map (·.key)
  · -- the key is taken
    obtain ⟨n, hn, hkey⟩ := List.mem_map.mp hk
    obtain ⟨v, hv, hvis, rfl⟩ := (hmem n).mp hn
    have hlive : ∃ v ∈ s.heap.versions, v.row.key = (NotificationTable.newRow s.nextId rid it).key ∧
        v.live (c :: s.heap.committed) := by
      rw [hA.committed]
      exact ⟨v, hv, hkey, (hseen v hv).1.mp hvis⟩
    refine ⟨⟨s.heap, s.nextId + 1, Function.update s.phase c (.inserting snap todo)⟩, ?_,
      Function.update_self .., ⟨hA.committed, hA.mine, ?_, ?_⟩⟩
    · simp only [calls, step, hc, Heap.insert, if_pos hlive, Option.map_some]
    · rw [NotificationTable.insert, dif_pos hk]
      exact hA.rows
    · rw [NotificationTable.insert_nextId]
      exact congrArg (· + 1) hA.nextId
  · -- the key is free
    have hfree : ∀ v ∈ s.heap.versions,
        v.row.key = (NotificationTable.newRow s.nextId rid it).key →
          v.dead (c :: s.heap.committed) := by
      intro v hv hkey
      rw [hA.committed]
      refine (hseen v hv).2.mp fun hvis => hk ?_
      exact List.mem_map.mpr ⟨v.row, (hmem v.row).mpr ⟨v, hv, hvis, rfl⟩, hkey⟩
    have hnolive : ¬∃ v ∈ s.heap.versions,
        v.row.key = (NotificationTable.newRow s.nextId rid it).key ∧
          v.live (c :: s.heap.committed) := by
      intro h
      obtain ⟨v, hv, hkey, hlive⟩ := h
      obtain ⟨u, hu, -⟩ := hfree v hv hkey
      rw [hlive.2] at hu
      cases hu
    have hnodoubt : ¬∃ v ∈ s.heap.versions,
        v.row.key = (NotificationTable.newRow s.nextId rid it).key ∧
          ¬v.dead (c :: s.heap.committed) := by
      intro h
      obtain ⟨v, hv, hkey, hd⟩ := h
      exact hd (hfree v hv hkey)
    refine ⟨⟨{ s.heap with versions := s.heap.versions ++
        [⟨NotificationTable.newRow s.nextId rid it, some c, none⟩] }, s.nextId + 1,
        Function.update s.phase c (.inserting snap todo)⟩, ?_, Function.update_self ..,
        ⟨hA.committed, fun v hv => ?_, ?_, ?_⟩⟩
    · simp only [calls, step, hc, Heap.insert, if_neg hnolive, if_neg hnodoubt, Option.map_some]
    · rcases List.mem_append.mp hv with hv | hv
      · exact hA.mine v hv
      · obtain rfl := List.mem_singleton.mp hv
        exact ⟨fun u hu => (Option.some.inj hu).symm, fun u hu => by cases hu⟩
    · rw [NotificationTable.insert, dif_neg hk, List.filter_append, List.map_append, hA.rows, hnew]
      simp [Version.visible]
    · rw [NotificationTable.insert_nextId]
      exact congrArg (· + 1) hA.nextId

/-- Alone, a call inserts all its items. -/
private theorem alone_inserts (rid : String) (items : Call → List ScheduledNotification)
    {c : Call} {snap : List Call} :
    ∀ (todo : List ScheduledNotification) {s : Sess} {tab : NotificationTable}, Alone c s tab →
      s.phase c = .inserting snap todo →
      ∃ s', (calls rid items).exec s (todo.map fun _ => .insert c) = some s' ∧
        s'.phase c = .inserting snap [] ∧
          Alone c s' (todo.foldl (NotificationTable.insert rid) tab) := by
  intro todo
  induction todo with
  | nil => intro s tab hA hc; exact ⟨s, rfl, hc, hA⟩
  | cons it todo ih =>
    intro s tab hA hc
    obtain ⟨s₁, hs₁, hc₁, hA₁⟩ := alone_insert rid items hA hc
    obtain ⟨s₂, hs₂, hc₂, hA₂⟩ := ih hA₁ hc₁
    refine ⟨s₂, ?_, hc₂, hA₂⟩
    rw [List.map_cons, (calls rid items).exec_cons hs₁]
    exact hs₂

/-- Where a call that runs alone stands after its `DELETE`. -/
private def afterDelete (rid : String) (items : Call → List ScheduledNotification)
    (t : NotificationTable) (c : Call) : Sess :=
  ⟨⟨(Heap.ofRows t.rows).versions.map (Heap.deleteVersion c [] (unsentOf rid)), []⟩, t.nextId,
    Function.update (fun _ => .idle) c (.inserting [] (items c))⟩

/-- Alone, its DELETE leaves what it does serially. -/
private theorem alone_afterDelete (rid : String) (items : Call → List ScheduledNotification)
    (t : NotificationTable) (c : Call) :
    Alone c (afterDelete rid items t c) (t.deleteUnsent rid) where
  committed := rfl
  mine v hv := by
    obtain ⟨w, hw, rfl⟩ := List.mem_map.mp hv
    obtain ⟨n, -, rfl⟩ := List.mem_map.mp hw
    rw [Heap.deleteVersion_xmin]
    refine ⟨nofun, fun u hu => ?_⟩
    exact (Heap.xmax_deleteVersion hu).elim nofun fun h => h.1
  rows := by
    show ((((t.rows.map fun n => (⟨n, none, none⟩ : Version Call Notification)).map
      (Heap.deleteVersion c [] (unsentOf rid))).filter fun v => v.visible [c]).map (·.row)) =
      t.rows.filter fun n => !(n.rolloutId == rid && n.unsent)
    induction t.rows with
    | nil => rfl
    | cons n rows ih =>
      simp only [List.map_cons, List.filter_cons]
      by_cases hn : unsentOf rid n
      · -- the row goes
        have hgone : ¬(Heap.deleteVersion c [] (unsentOf rid) ⟨n, none, none⟩).visible [c] := by
          simp [Heap.deleteVersion, Version.visible, hn]
        have hn' : (!(n.rolloutId == rid && n.unsent)) = false := by
          rw [show (n.rolloutId == rid && n.unsent) = true from hn]
          rfl
        rw [if_neg (by simpa using hgone), hn', ih]
        rfl
      · have hstays : (Heap.deleteVersion c [] (unsentOf rid) ⟨n, none, none⟩) =
          ⟨n, none, none⟩ := by
          simp [Heap.deleteVersion, hn]
        have hn' : (!(n.rolloutId == rid && n.unsent)) = true := by
          rw [show (n.rolloutId == rid && n.unsent) = false from Bool.eq_false_iff.mpr hn]
          rfl
        rw [hstays, if_pos (by simp [Version.visible]), hn', List.map_cons, ih]
        rfl
  nextId := rfl

/-- **A call that runs alone is `NotificationTable.reschedule`**, row for row. -/
theorem alone_reschedules (rid : String) (items : Call → List ScheduledNotification)
    (t : NotificationTable) (c : Call) :
    ∃ s, (calls rid items).exec (before t) (wholeCall items c) = some s ∧
      s.heap.rows = (t.reschedule rid (items c)).rows := by
  have hbegin : (calls rid items).step (before t) (.deleteBegin c) =
      some ⟨Heap.ofRows t.rows, t.nextId, Function.update (fun _ => .idle) c (.deleting [])⟩ := rfl
  have hend : (calls rid items).step
      ⟨Heap.ofRows t.rows, t.nextId, Function.update (fun _ => .idle) c (.deleting [])⟩
      (.deleteEnd c) = some (afterDelete rid items t c) := by
    have hundeleted : ∀ v ∈ (Heap.ofRows t.rows : Heap Call Notification).versions,
        v.xmax = none := by
      intro v hv
      obtain ⟨n, -, rfl⟩ := List.mem_map.mp hv
      rfl
    simp only [calls, step, Function.update_self, Heap.delete_of_undeleted hundeleted,
      Option.map_some,
      Function.update_idem]
    rfl
  have hphase : (afterDelete rid items t c).phase c = .inserting [] (items c) := by
    simp [afterDelete]
  obtain ⟨s, hs, hc, hA⟩ := alone_inserts rid items (items c)
    (alone_afterDelete rid items t c) hphase
  have hcommit : (calls rid items).step s (.commit c) =
      some { s with heap := s.heap.commit c, phase := Function.update s.phase c (.done []) } := by
    simp only [calls, step, hc]
  refine ⟨{ s with heap := s.heap.commit c, phase := Function.update s.phase c (.done []) }, ?_, ?_⟩
  · rw [wholeCall, (calls rid items).exec_cons hbegin, (calls rid items).exec_cons hend,
      Machine.exec_append, hs, Option.bind_some, (calls rid items).exec_cons hcommit,
        Machine.exec_nil]
  · show (s.heap.versions.filter fun v => v.visible (c :: s.heap.committed)).map (·.row) = _
    rw [hA.committed]
    exact hA.rows

end Reschedule

end ReleaseRadar
