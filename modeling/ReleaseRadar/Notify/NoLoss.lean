import ReleaseRadar.Notify.Plan

/-!
# No announcement is lost by an edit, and when one is

`RescheduleNotifications` deletes every unsent row of the rollout and re-inserts
only windows after the clock reading of the request. A row that has fallen due
but has not been read by a tick is deleted and not replaced: the announcement is
lost (`announcement_lost_by_edit`).

That is the only way to lose one. `no_announcement_lost`: in every run in which
no reschedule of the rollout meets such a row (`Unhurried`), each window that was
in the future when the rollout was created has been announced once a tick that
read the queue at or after its fire time is done.

The invariant (`NoLossInv`) follows each such window from the create on: its
request is about to schedule it, or an unsent row or the dispatcher's hand has
it, or it is out.
-/

namespace ReleaseRadar

open Lib Repository

namespace Notify

variable {rid : String} {plan : List (String × Int)} {s s' : Sys} {a : Action}

/-- Stage `k`'s announcement for `f` went out, rendered from a stage of the plan. -/
def Announced (rid : String) (plan : List (String × Int)) (k : Nat) (f : Int)
    (hist : List Event) : Prop :=
  ∃ p ∈ posts hist, p.row.rolloutId = rid ∧ p.row.stageSeq = k ∧ p.row.fireAt = f ∧
    p.rollout.id = rid ∧ plan[k]? = some (p.stage.env, p.stage.startAt)

instance (rid : String) (plan : List (String × Int)) (k : Nat) (f : Int) (hist : List Event) :
    Decidable (Announced rid plan k f hist) :=
  inferInstanceAs (Decidable (∃ p ∈ posts hist, _))

/-- The create of `rid` read the clock as `c` when it computed its schedule. -/
def CreatedAt (rid : String) (c : Int) (s : Sys) : Prop :=
  ∃ i, Event.clocked i rid true c ∈ s.hist

/-- Every window that was in the future when the rollout was created, and whose
fire time a finished tick has reached, has been announced. -/
def NothingLost (rid : String) (plan : List (String × Int)) (s : Sys) : Prop :=
  ∀ k f c t, Window plan k f → CreatedAt rid c s → c < f → Event.ticked t ∈ s.hist → f ≤ t →
    s.disp = .loop [] → Announced rid plan k f s.hist

/-- At most `LIMIT 100` rows are due when a tick reads the queue. -/
def WithinLimit (s : Sys) : Action → Prop
  | .tick _ => (s.store.notifications.due s.now).length ≤ NotificationTable.pendingLimit
  | _ => True

/-- A create with clock `c` is about to write a window that is due already, and that
is neither announced nor queued. -/
def Overtaken (rid : String) (plan : List (String × Int)) (s : Sys) (c : Int) : Prop :=
  ∃ k ∈ List.range plan.length, ∃ st ∈ plan[k]?, ∃ adv ∈ advancesFor st.1,
    c < st.2 - adv ∧ st.2 - adv ≤ s.now ∧ ¬Announced rid plan k (st.2 - adv) s.hist ∧
    ∀ n ∈ s.store.notifications.rows,
      ¬(n.rolloutId = rid ∧ n.unsent ∧ n.stageSeq = k ∧ n.fireAt = st.2 - adv)

/-- The row is a window of the plan that is due at `c`, and neither has the running
tick read it nor has it been announced. -/
def Missed (rid : String) (plan : List (String × Int)) (s : Sys) (c : Int) (n : Notification) :
    Prop :=
  n.rolloutId = rid ∧ n.unsent ∧ n.fireAt ≤ c ∧ Window plan n.stageSeq n.fireAt ∧
    (∀ m ∈ s.disp.hand, m.key ≠ n.key) ∧ ¬Announced rid plan n.stageSeq n.fireAt s.hist

/-- The steps that lose nothing: no reschedule of `rid` meets a row that is due at
its clock and that no tick has read yet, and no tick overtakes a create between
its clock reading and its reschedule, past one of its windows. -/
def Unhurried (rid : String) (plan : List (String × Int)) (s : Sys) : Action → Prop
  | .reschedule i => ∀ q ∈ s.reqs[i]?,
      q.AtClock rid fun c => ∀ n ∈ s.store.notifications.rows, ¬Missed rid plan s c n
  | .tick _ => ∀ q ∈ s.reqs, q.AtCreateClock rid fun c => ¬Overtaken rid plan s c
  | _ => True

instance (s : Sys) : (a : Action) → Decidable (WithinLimit s a)
  | .tick _ => Nat.decLe _ _
  | .wait _ | .create _ | .update _ _ | .delete _ | .reread _ | .clock _ | .reschedule _ | .load
  | .announce _ | .mark => isTrue trivial

instance (rid : String) (plan : List (String × Int)) (s : Sys) (c : Int) :
    Decidable (Overtaken rid plan s c) :=
  inferInstanceAs (Decidable (∃ k ∈ List.range plan.length, _))

instance (rid : String) (plan : List (String × Int)) (s : Sys) (c : Int) (n : Notification) :
    Decidable (Missed rid plan s c n) :=
  inferInstanceAs (Decidable (_ ∧ _))

instance (rid : String) (plan : List (String × Int)) (s : Sys) :
    (a : Action) → Decidable (Unhurried rid plan s a)
  | .reschedule i => inferInstanceAs (Decidable (∀ q ∈ s.reqs[i]?, _))
  | .tick _ => inferInstanceAs (Decidable (∀ q ∈ s.reqs, _))
  | .wait _ | .create _ | .update _ _ | .delete _ | .reread _ | .clock _ | .load | .announce _
  | .mark => isTrue trivial

/-! ## A window on its way -/

theorem announced_mono {k : Nat} {f : Int} (h : step s a = some s')
    (ha : Announced rid plan k f s.hist) : Announced rid plan k f s'.hist := by
  have hsub : posts s.hist ⊆ posts s'.hist := by
    unfold posts
    exact List.filterMap_subset _ (step_hist_subset h)
  obtain ⟨p, hp, hw⟩ := ha
  exact ⟨p, hsub hp, hw⟩

/-- The running tick has the window, or it is out. -/
def Read (rid : String) (plan : List (String × Int)) (k : Nat) (f : Int) (s : Sys) : Prop :=
  Announced rid plan k f s.hist ∨ ∃ m ∈ s.disp.toAnnounce, m.key = windowKey rid plan k f

/-- The queue has the window, or the running tick has it, or it is out. -/
def Queued (rid : String) (plan : List (String × Int)) (k : Nat) (f : Int) (s : Sys) : Prop :=
  Read rid plan k f s ∨
    ∃ n ∈ s.store.notifications.rows, n.unsent ∧ n.key = windowKey rid plan k f

/-- The create of `rid` with clock `c` has yet to write its rows. -/
def Pending (rid : String) (c : Int) (s : Sys) : Prop :=
  ∃ ro, Req.clocked ro true c ∈ s.reqs ∧ ro.id = rid

/-- The invariant: every window of interest is on its way. -/
structure NoLossInv (rid : String) (plan : List (String × Int)) (s : Sys) : Prop where
  planned : PlanInv rid plan s
  hand : HandInv s
  sent : ∀ n ∈ s.store.notifications.rows, n.rolloutId = rid → ¬n.unsent →
    Announced rid plan n.stageSeq n.fireAt s.hist
  marking : ∀ n e rest, s.disp = .marking n e rest → n.rolloutId = rid →
    Announced rid plan n.stageSeq n.fireAt s.hist
  ticks : ∀ t, Event.ticked t ∈ s.hist → t ≤ s.now
  queued : ∀ k f c, Window plan k f → CreatedAt rid c s → c < f →
    Pending rid c s ∨ Queued rid plan k f s
  read : ∀ k f c t, Window plan k f → CreatedAt rid c s → c < f → Event.ticked t ∈ s.hist →
    f ≤ t → Read rid plan k f s

/-- What the dispatcher has in hand of `rid` it keeps until it is out. -/
theorem read_step {k : Nat} {f : Int} (hI : PlanInv rid plan s) (hk : Keeps rid plan a)
    (h : step s a = some s') (hr : Read rid plan k f s) : Read rid plan k f s' := by
  rcases hr with ha | ⟨m, hm, hkey⟩
  · exact Or.inl (announced_mono h ha)
  rcases step_disp h with hd | ⟨sorted, rfl⟩ | rfl | ⟨o, rfl⟩ | rfl
  · exact Or.inr ⟨m, by rwa [hd], hkey⟩
  · obtain ⟨hd, -, -⟩ := step_tick h
    rw [hd] at hm
    cases hm
  · obtain ⟨n, rest, hd, ⟨e, rfl, hwhy⟩ | ⟨r, stage, -, -, rfl⟩⟩ := step_load h
    · rw [hd] at hm
      rcases List.mem_cons.mp hm with rfl | hm
      · exact absurd hwhy (planInv_load hI hd (of_windowKey hkey).1)
      · exact Or.inr ⟨m, hm, hkey⟩
    · rw [hd] at hm
      exact Or.inr ⟨m, hm, hkey⟩
  · obtain ⟨n, r, stage, rest, hd, rfl⟩ := step_announce h
    rw [hd] at hm
    rcases List.mem_cons.mp hm with rfl | hm
    · obtain ⟨hrid, hseq, hfire⟩ := of_windowKey hkey
      obtain ⟨hro, hst⟩ := hI.loaded _ _ _ _ hd hrid
      obtain rfl : o = none := hk
      exact Or.inl ⟨_, List.mem_cons_self .., hrid, hseq, hfire, hro, hseq ▸ hst⟩
    · exact Or.inr ⟨m, hm, hkey⟩
  · obtain ⟨n, e, rest, hd, ⟨-, rfl⟩ | rfl⟩ := step_mark h
    · rw [hd] at hm
      exact Or.inr ⟨m, hm, hkey⟩
    · rw [hd] at hm
      exact Or.inr ⟨m, hm, hkey⟩

/-- A reschedule of `rid` queues each window that is in the future at its clock. -/
theorem queued_of_reschedule {k : Nat} {f c : Int} {ro : Rollout} {created : Bool}
    (hI : NoLossInv rid plan s) (hq : Req.clocked ro created c ∈ s.reqs) (hro : ro.id = rid)
    (hw : Window plan k f) (hc : c < f) {reqs : List Req} {hist : List Event}
    (hhist : s.hist ⊆ hist) :
    Queued rid plan k f { s with
      store := { s.store with
        notifications := s.store.notifications.reschedule ro.id
          (scheduleItems c ro.stages.items) }
      reqs := reqs
      hist := hist } := by
  have hpres := hI.planned.present (hI.planned.present_of_req hq (congrArg some hro))
  have hmem := windowItem_mem (hI.planned.reqs _ hq hro) hw hc
  rcases NotificationTable.reschedule_covers_unsent hmem s.store.notifications with
    ⟨n, hn, hkey, hun⟩ | ⟨n, hn, hkey, hsent⟩
  · rw [windowItem_stored hpres.2.1 hw] at hkey
    exact Or.inr ⟨n, hro ▸ hn, hun, hkey⟩
  · rw [windowItem_stored hpres.2.1 hw] at hkey
    obtain ⟨hrid, rfl, rfl⟩ := of_windowKey hkey
    obtain ⟨p, hp, hwin⟩ := hI.sent n hn hrid hsent
    exact Or.inl (Or.inl ⟨p, List.filterMap_subset _ hhist hp, hwin⟩)

/-- **A queued window stays queued until it is out.** -/
theorem queued_step {k : Nat} {f : Int} (hI : NoLossInv rid plan s) (hk : Keeps rid plan a)
    (hu : Unhurried rid plan s a) (h : step s a = some s') (hw : Window plan k f)
    (hq : Queued rid plan k f s) : Queued rid plan k f s' := by
  rcases hq with hr | ⟨n, hn, hun, hkey⟩
  · exact Or.inl (read_step hI.planned hk h hr)
  obtain ⟨hrid, hseq, hfire⟩ := of_windowKey hkey
  rcases step_table h with ht | ⟨id, rfl, ht⟩ | ⟨i, ro, created, c, rfl, hi, -⟩ |
    ⟨n₀, e, rest, rfl, hd, ht⟩
  · exact Or.inr ⟨n, by rwa [ht], hun, hkey⟩
  · refine Or.inr ⟨n, ?_, hun, hkey⟩
    rw [ht, NotificationTable.mem_deleteRollout, hrid]
    exact ⟨hn, Ne.symm hk⟩
  · have hmem := List.mem_of_getElem? hi
    obtain ⟨ro', created', c', hi', ⟨rfl, -⟩ | rfl⟩ := step_reschedule h
    · exact Or.inr ⟨n, hn, hun, hkey⟩
    obtain ⟨rfl, rfl, rfl⟩ : ro = ro' ∧ created = created' ∧ c = c' := by
      simpa [hi] using hi'
    by_cases hro : ro.id = rid
    · by_cases hc : c < f
      · exact queued_of_reschedule hI hmem hro hw hc (List.subset_cons_self _ _)
      · -- the row is deleted for good: it is in hand, or it is out
        have hread : Read rid plan k f s := by
          have hsafe : ¬Missed rid plan s c n := hu _ hi hro n hn
          by_contra hnot
          refine hsafe ⟨hrid, hun, by omega, by rwa [hseq, hfire], fun m hm hm' => ?_, fun ha => ?_⟩
          · rw [hkey] at hm'
            obtain ⟨hrid', hseq', hfire'⟩ := of_windowKey hm'
            rcases Disp.hand_cases hm with hm | ⟨e, rest, hd⟩
            · exact hnot (Or.inr ⟨m, hm, hm'⟩)
            · have := hI.marking m e rest hd hrid'
              rw [hseq', hfire'] at this
              exact hnot (Or.inl this)
          · rw [hseq, hfire] at ha
            exact hnot (Or.inl ha)
        exact Or.inl (read_step hI.planned hk h hread)
    · exact Or.inr ⟨n, NotificationTable.reschedule_keeps hn fun hc => hro (hc.1.symm.trans hrid),
        hun, hkey⟩
  · have hmem : n₀ ∈ s.disp.hand := by rw [hd]; exact List.mem_cons_self ..
    by_cases hid : n.id = n₀.id
    · have hkey₀ := (hI.hand.row n₀ hmem n hn hid).symm.trans hkey
      obtain ⟨hrid₀, hseq₀, hfire₀⟩ := of_windowKey hkey₀
      have := hI.marking n₀ e rest hd hrid₀
      rw [hseq₀, hfire₀] at this
      exact Or.inl (Or.inl (announced_mono h this))
    · refine Or.inr ⟨n, ?_, hun, hkey⟩
      rw [ht, NotificationTable.mem_markSent]
      exact ⟨n, hn, NotificationTable.markRow_of_ne hid⟩

/-- A pending create stays pending until it has queued its windows. -/
theorem pending_step {k : Nat} {f c : Int} (hI : NoLossInv rid plan s) (h : step s a = some s')
    (hw : Window plan k f) (hc : c < f) (hp : Pending rid c s) :
    Pending rid c s' ∨ Queued rid plan k f s' := by
  obtain ⟨ro, hq, hro⟩ := hp
  have hkeep : ∀ {i : Nat} {q x : Req}, s.reqs[i]? = some q → q ≠ .clocked ro true c →
      Pending rid c { s' with reqs := s.reqs.set i x } := by
    intro i q x hi hne
    obtain ⟨j, hj⟩ := List.mem_iff_getElem?.mp hq
    have hij : i ≠ j := by
      rintro rfl
      exact hne (Option.some.inj (hi.symm.trans hj))
    exact ⟨ro, List.mem_iff_getElem?.mpr ⟨j, by rwa [List.getElem?_set_ne hij]⟩, hro⟩
  cases a with
  | wait d =>
    obtain rfl := Option.some.inj h
    exact Or.inl ⟨ro, hq, hro⟩
  | create ro' =>
    rcases step_create h with rfl | ⟨-, -, tasks, rfl⟩ <;>
      exact Or.inl ⟨ro, List.mem_append_left _ hq, hro⟩
  | update id ro' =>
    rcases step_update h with rfl | ⟨-, -, rfl⟩ <;>
      exact Or.inl ⟨ro, List.mem_append_left _ hq, hro⟩
  | delete id => rcases step_delete h with rfl | rfl <;> exact Or.inl ⟨ro, hq, hro⟩
  | reread i =>
    obtain ⟨id, created, hi, ⟨rfl, -⟩ | ⟨r, -, -, rfl⟩⟩ := step_reread h <;>
      exact Or.inl (hkeep hi nofun)
  | clock i =>
    obtain ⟨ro', created, hi, rfl⟩ := step_clock h
    exact Or.inl (hkeep hi nofun)
  | reschedule i =>
    obtain ⟨ro', created, c', hi, hs'⟩ := step_reschedule h
    by_cases he : Req.clocked ro' created c' = .clocked ro true c
    · simp only [Req.clocked.injEq] at he
      obtain ⟨rfl, rfl, rfl⟩ := he
      rcases hs' with ⟨rfl, hwhy⟩ | rfl
      · have hhas := hI.planned.present_of_req hq (congrArg some hro)
        rw [hro, hhas, (hI.planned.present hhas).1] at hwhy
        simp at hwhy
      · exact Or.inr (queued_of_reschedule hI hq hro hw hc (List.subset_cons_self _ _))
    · rcases hs' with ⟨rfl, -⟩ | rfl <;> exact Or.inl (hkeep hi he)
  | tick sorted =>
    obtain ⟨-, -, rfl⟩ := step_tick h
    exact Or.inl ⟨ro, hq, hro⟩
  | load =>
    obtain ⟨n, rest, -, ⟨e, rfl, -⟩ | ⟨r, stage, -, -, rfl⟩⟩ := step_load h <;>
      exact Or.inl ⟨ro, hq, hro⟩
  | announce outcome =>
    obtain ⟨n, r, stage, rest, -, rfl⟩ := step_announce h
    exact Or.inl ⟨ro, hq, hro⟩
  | mark =>
    obtain ⟨n, e, rest, -, ⟨-, rfl⟩ | rfl⟩ := step_mark h <;> exact Or.inl ⟨ro, hq, hro⟩

/-! ## The invariant -/

theorem noLossInv_start {store : Store} (h : Absent rid store) (now : Int) :
    NoLossInv rid plan (start store now) where
  planned := planInv_start h now
  hand := handInv_start store now
  sent n hn hr := absurd hr (h.notifications n hn)
  marking _ _ _ hd := Disp.noConfusion hd
  ticks _ ht := absurd ht List.not_mem_nil
  queued _ _ _ _ hc := absurd hc.choose_spec List.not_mem_nil
  read _ _ _ _ _ _ _ ht := absurd ht List.not_mem_nil

private theorem sent_step (hI : NoLossInv rid plan s) (h : step s a = some s')
    {n : Notification} (hn : n ∈ s'.store.notifications.rows) (hr : n.rolloutId = rid)
    (hsent : ¬n.unsent) : Announced rid plan n.stageSeq n.fireAt s'.hist := by
  refine announced_mono h ?_
  rcases step_table h with ht | ⟨id, -, ht⟩ | ⟨i, ro, created, c, -, -, ht⟩ |
    ⟨n₀, e, rest, -, hd, ht⟩
  · exact hI.sent n (ht ▸ hn) hr hsent
  · rw [ht] at hn
    exact hI.sent n (NotificationTable.mem_deleteRollout.mp hn).1 hr hsent
  · rw [ht] at hn
    rcases NotificationTable.mem_reschedule hn with ⟨hn', -⟩ | hf
    · exact hI.sent n hn' hr hsent
    · exact absurd (by simp [Notification.unsent, hf.sentAt]) hsent
  · rw [ht] at hn
    obtain ⟨m, hm, rfl⟩ := NotificationTable.mem_markSent.mp hn
    have hkey := NotificationTable.markRow_key s.now n₀.id e m
    have hitem : m.item = (NotificationTable.markRow s.now n₀.id e m).item :=
      (congrArg Prod.snd hkey).symm
    have hrid : m.rolloutId = rid := (congrArg Prod.fst hkey).symm.trans hr
    have hann : Announced rid plan m.stageSeq m.fireAt s.hist := by
      by_cases hid : m.id = n₀.id
      · have hmem : n₀ ∈ s.disp.hand := by rw [hd]; exact List.mem_cons_self ..
        have hkey₀ := hI.hand.row n₀ hmem m hm hid
        have := hI.marking n₀ e rest hd ((congrArg Prod.fst hkey₀).symm.trans hrid)
        have hitem₀ : n₀.item = m.item := (congrArg Prod.snd hkey₀).symm
        rwa [show n₀.stageSeq = m.stageSeq from congrArg (·.stageSeq) hitem₀,
          show n₀.fireAt = m.fireAt from congrArg (·.fireAt) hitem₀] at this
      · rw [NotificationTable.markRow_of_ne hid] at hsent
        exact hI.sent m hm hrid hsent
    rwa [show m.stageSeq = _ from congrArg (·.stageSeq) hitem,
      show m.fireAt = _ from congrArg (·.fireAt) hitem] at hann

private theorem marking_step (hI : NoLossInv rid plan s) (hk : Keeps rid plan a)
    (h : step s a = some s') {n : Notification} {e : String} {rest : List Notification}
    (hd' : s'.disp = .marking n e rest) (hr : n.rolloutId = rid) :
    Announced rid plan n.stageSeq n.fireAt s'.hist := by
  rcases step_disp h with hd | ⟨sorted, rfl⟩ | rfl | ⟨o, rfl⟩ | rfl
  · exact announced_mono h (hI.marking n e rest (hd ▸ hd') hr)
  · obtain ⟨-, -, rfl⟩ := step_tick h
    exact Disp.noConfusion hd'
  · obtain ⟨n', rest', hd, ⟨e', rfl, hwhy⟩ | ⟨r, stage, -, -, rfl⟩⟩ := step_load h
    · obtain ⟨rfl, -, -⟩ : n' = n ∧ _ ∧ _ := by simpa using hd'
      exact absurd hwhy (planInv_load hI.planned hd hr)
    · exact Disp.noConfusion hd'
  · obtain ⟨n', r, stage, rest', hd, rfl⟩ := step_announce h
    obtain ⟨rfl, -, -⟩ : n' = n ∧ _ ∧ _ := by simpa using hd'
    obtain ⟨hro, hst⟩ := hI.planned.loaded _ _ _ _ hd hr
    obtain rfl : o = none := hk
    exact ⟨_, List.mem_cons_self .., hr, rfl, rfl, hro, hst⟩
  · obtain ⟨n', e', rest', hd, ⟨-, rfl⟩ | rfl⟩ := step_mark h <;> exact Disp.noConfusion hd'

/-- A tick that reads the whole queue reads every window that is due. -/
private theorem read_of_tick {k : Nat} {f : Int} {sorted : List Notification}
    (hdue : NotificationTable.DueOrder s.now s.store.notifications sorted)
    (hlim : (s.store.notifications.due s.now).length ≤ NotificationTable.pendingLimit)
    (hwhole : pgTimestamp f = f) (hf : f ≤ s.now) {n : Notification}
    (hn : n ∈ s.store.notifications.rows) (hun : n.unsent) (hkey : n.key = windowKey rid plan k f) :
    n ∈ sorted.take NotificationTable.pendingLimit := by
  rw [List.take_of_length_le (by rw [hdue.1.length_eq]; exact hlim), hdue.1.mem_iff]
  refine NotificationTable.mem_due.mpr ⟨hn, hun, ?_⟩
  rw [(of_windowKey hkey).2.2, ← hwhole]
  exact pgTimestamp_mono hf

/-- A finished or running tick that reached a window's fire time has read it. -/
private theorem read_of_ticked {k : Nat} {f c : Int} {sorted : List Notification}
    (hI : NoLossInv rid plan s) (hl : WithinLimit s (.tick sorted))
    (hu : Unhurried rid plan s (.tick sorted)) (h : step s (.tick sorted) = some s')
    (hw : Window plan k f) (hc : CreatedAt rid c s) (hlt : c < f) (hf : f ≤ s.now) :
    Read rid plan k f s' := by
  obtain ⟨hd, hdue, rfl⟩ := step_tick h
  have hqueued : Queued rid plan k f s := by
    rcases hI.queued k f c hw hc hlt with ⟨ro, hq, hro⟩ | hq
    · have hnot : ¬Overtaken rid plan s c := hu _ hq hro
      obtain ⟨st, hst, adv, hadv, rfl⟩ := hw
      have hst' : plan[k]? = some st := hst
      by_contra hno
      refine hnot ⟨k, List.mem_range.mpr (List.getElem?_eq_some_iff.mp hst').1, st, hst, adv, hadv,
        hlt, hf, fun ha => hno (Or.inl (Or.inl ha)), ?_⟩
      rintro n hn ⟨hr, hun, rfl, hfire⟩
      refine hno (Or.inr ⟨n, hn, hun, ?_⟩)
      rw [key_of_legit (hI.planned.rows n hn hr) hr, hfire]
    · exact hq
  rcases hqueued with (ha | ⟨m, hm, -⟩) | ⟨n, hn, hun, hkey⟩
  · exact Or.inl (announced_mono h ha)
  · rw [hd] at hm
    cases hm
  · have hrid := (of_windowKey hkey).1
    have hhas : s.store.hasRollout rid = true := by
      by_contra hno
      exact (hI.planned.absent (by simpa using hno)).1.notifications n hn hrid
    have hwhole := window_whole (hI.planned.present hhas).2.1 hw
    exact Or.inr ⟨n, read_of_tick hdue hl hwhole hf hn hun hkey, hkey⟩

/-- **Every step keeps every window on its way.** -/
theorem noLossInv_step (hI : NoLossInv rid plan s) (hk : Keeps rid plan a) (hl : WithinLimit s a)
    (hu : Unhurried rid plan s a) (h : step s a = some s') : NoLossInv rid plan s' := by
  refine ⟨planInv_step hI.planned hk h, handInv_step hI.hand h,
    fun n hn hr hs => sent_step hI h hn hr hs, fun n e rest hd hr => marking_step hI hk h hd hr,
    fun t ht => ?_, fun k f c hw hc hlt => ?_, fun k f c t hw hc hlt ht hft => ?_⟩
  · rcases step_ticked h ht with ht | ⟨rfl, -⟩
    · exact Int.le_trans (hI.ticks t ht) (step_now h)
    · exact step_now h
  · obtain ⟨i, hc⟩ := hc
    rcases step_clocked h hc with hc | ⟨-, -, ro, hro, hq⟩
    · rcases hI.queued k f c hw ⟨i, hc⟩ hlt with hp | hq
      · exact pending_step hI h hw hlt hp
      · exact Or.inr (queued_step hI hk hu h hw hq)
    · exact Or.inl ⟨ro, hq, hro⟩
  · obtain ⟨i, hc⟩ := hc
    rcases step_clocked h hc with hc | ⟨rfl, rfl, -⟩
    · rcases step_ticked h ht with ht | ⟨rfl, sorted, rfl⟩
      · exact read_step hI.planned hk h (hI.read k f c t hw ⟨i, hc⟩ hlt ht hft)
      · exact read_of_ticked hI hl hu h hw ⟨i, hc⟩ hlt hft
    · rcases step_ticked h ht with ht | ⟨-, sorted, ha⟩
      · have := hI.ticks t ht
        omega
      · cases ha

/-- The steps of the runs considered: the plan is kept, and a tick reads the whole
queue. -/
def Undisturbed (rid : String) (plan : List (String × Int)) (s : Sys) (a : Action) : Prop :=
  Keeps rid plan a ∧ WithinLimit s a

instance (rid : String) (plan : List (String × Int)) (s : Sys) (a : Action) :
    Decidable (Undisturbed rid plan s a) :=
  inferInstanceAs (Decidable (_ ∧ _))

/-- **No announcement is lost by an edit that meets no row waiting for its tick.**
From any state of the database without the rollout, in every run of requests and
ticks, however they interleave. -/
theorem no_announcement_lost {store : Store} {now : Int} {as : List Action}
    (habs : Absent rid store)
    (hrun : system.exec (start store now) as = some s)
    (hkeep : system.Along (Undisturbed rid plan) (start store now) as)
    (hsafe : system.Along (Unhurried rid plan) (start store now) as) : NothingLost rid plan s := by
  have hI : NoLossInv rid plan s :=
    system.exec_invariant_along
      (fun s a s' hI hG h => noLossInv_step hI hG.1.1 hG.1.2 hG.2 h)
      (noLossInv_start habs now) (system.along_and hkeep hsafe) hrun
  intro k f c t hw hc hlt ht hft hd
  rcases hI.read k f c t hw hc hlt ht hft with ha | ⟨m, hm, -⟩
  · exact ha
  · rw [hd] at hm
    cases hm

/-- A production stage eight days out; its first window fires after one day. -/
def lossRollout : Rollout := sampleRollout "prod1" (8 * 24 * hour)

def lossPlan : List (String × Int) := [("prod1", 8 * 24 * hour)]

/-- The create, and the wait until ten seconds after the first window. -/
def createAndWait : List Action :=
  [.create lossRollout, .reread 0, .clock 0, .reschedule 0, .wait 86410000000000]

/-- The save of an unchanged rollout. -/
def saveAgain (i : Nat) : List Action :=
  [.update "r1" lossRollout, .reread i, .clock i, .reschedule i]

/-- A tick that sends the row of the first window. -/
def tickFirst : List Action :=
  [.tick [⟨0, "r1", 0, .TMS_PROD, 24 * hour, none, none, 0⟩], .load, .announce none, .mark]

/-- The guarantee is not vacuous: tick, save, tick. -/
theorem no_announcement_lost_tick_then_save :
    ∃ s, system.exec (start sampleStore 0)
        (createAndWait ++ tickFirst ++ saveAgain 1 ++ [.tick []]) = some s ∧
      NothingLost "r1" lossPlan s := by
  have hrun : ∃ s, system.exec (start sampleStore 0)
      (createAndWait ++ tickFirst ++ saveAgain 1 ++ [.tick []]) = some s ∧ True := by decide +kernel
  obtain ⟨s, hs, -⟩ := hrun
  exact ⟨s, hs, no_announcement_lost sampleStore_absent hs (by decide +kernel) (by decide +kernel)⟩

/-- **Saving between the fire time and the tick loses the announcement.** -/
theorem announcement_lost_by_edit :
    ∃ s, system.exec (start sampleStore 0) (createAndWait ++ saveAgain 1 ++ [.tick []]) = some s ∧
      system.Along (Undisturbed "r1" lossPlan) (start sampleStore 0)
        (createAndWait ++ saveAgain 1 ++ [.tick []]) ∧
      ¬NothingLost "r1" lossPlan s := by
  have hrun : ∃ s, system.exec (start sampleStore 0) (createAndWait ++ saveAgain 1 ++ [.tick []])
      = some s ∧ (Event.clocked 0 "r1" true 0 ∈ s.hist ∧ Event.ticked 86410000000000 ∈ s.hist ∧
        s.disp = .loop [] ∧ ¬Announced "r1" lossPlan 0 (24 * hour) s.hist) := by decide +kernel
  obtain ⟨s, hs, hc, ht, hd, hno⟩ := hrun
  exact ⟨s, hs, by decide +kernel, fun h =>
    hno (h 0 (24 * hour) 0 _ (by decide) ⟨0, hc⟩ (by decide) ht (by decide) hd)⟩

end Notify

end ReleaseRadar
