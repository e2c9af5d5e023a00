import ReleaseRadar.Api.Atomicity

/-!
# What a reschedule leaves in the queue

`scheduleNotifications` replaces the unsent rows of its rollout. The insert says
`ON CONFLICT DO NOTHING`, so a row that is there already under the same key swallows the
new one; the rows that stay are the sent ones, and were a sent row to have the fire time
of a new one, its stage would go without.

It cannot: what is inserted fires after the clock reading, and what has been sent fired
before it. So every insert adds its row, in the order of the stages (`rows_insertAll`),
and everything the schedule should say of a stage can be read off `scheduleItems`.
-/

namespace ReleaseRadar.Api

open Lib Repository

/-- The times at which the stage is announced when scheduled at `now`: its windows after
`now`, or else a second later. -/
def AnnouncedAt (now : Int) (st : RolloutStage) (fireAt : Int) : Prop :=
  (IsWindow st.env st.startAt fireAt ∧ now < fireAt) ∨
    (AllPast now st.env st.startAt ∧ fireAt = now + second)

/-- The queue covers every stage of a rollout and nothing else was touched. -/
structure Covers (now : Int) (ro : Rollout) (old new : NotificationTable) : Prop where
  /-- Every insert added its row. -/
  added : ∃ rows, new.rows = (old.deleteUnsent ro.id).rows ++ rows ∧
    rows.map (·.key) = (scheduleItems now ro.stages.items).map fun it => (ro.id, it)
  /-- The unsent rows, stage by stage. -/
  unsent : ∀ k channel fireAt, new.Queues ro.id ⟨k, channel, fireAt⟩ ↔
    ∃ st ∈ ro.stages.items[k]?, channel = channelFor st.env ∧ AnnouncedAt now st fireAt
  /-- Every stage has one. -/
  stage : ∀ k < ro.stages.items.length, ∃ channel fireAt, new.Queues ro.id ⟨k, channel, fireAt⟩
  /-- None of them is due. -/
  later : ∀ n ∈ new.rows, n.rolloutId = ro.id → n.unsent → now < n.fireAt
  /-- Sent rows and the rows of other rollouts are the ones there were. -/
  rest : ∀ n, ¬(n.rolloutId = ro.id ∧ n.unsent) → (n ∈ new.rows ↔ n ∈ old.rows)

section Coverage

variable {now : Int} {ro : Rollout} {t : NotificationTable}

/-- What the items say of one stage. -/
theorem mem_scheduleItems_iff {it : ScheduledNotification} :
    it ∈ scheduleItems now ro.stages.items ↔
      ∃ st ∈ ro.stages.items[it.stageSeq]?, it.channel = channelFor st.env ∧
        AnnouncedAt now st it.fireAt := by
  rw [mem_scheduleItems]
  constructor
  · rintro ⟨env, startAt, hst, hit⟩
    rw [planOf, List.getElem?_map, Option.map_eq_some_iff] at hst
    obtain ⟨st, hst, he⟩ := hst
    cases he
    obtain ⟨-, hchannel, hfire⟩ := mem_stageItems.mp hit
    exact ⟨st, hst, hchannel, hfire.imp id And.symm⟩
  · rintro ⟨st, hst, hchannel, hfire⟩
    have hst : ro.stages.items[it.stageSeq]? = some st := hst
    refine ⟨st.env, st.startAt, ?_, mem_stageItems.mpr ⟨rfl, hchannel, hfire.imp id And.symm⟩⟩
    rw [planOf, List.getElem?_map, hst]
    rfl

/-- **A reschedule covers every stage**, when no sent row fires after the clock. -/
theorem covers_reschedule (hnow : pgTimestamp now = now) (hwhole : Notify.Whole ro.stages.items)
    (hsent : ∀ n ∈ t.rows, n.rolloutId = ro.id → ¬n.unsent → n.fireAt ≤ now) :
    Covers now ro t (t.reschedule ro.id (scheduleItems now ro.stages.items)) := by
  have hstored : ∀ it ∈ scheduleItems now ro.stages.items, it.stored = it :=
    fun _ => Notify.stored_of_mem_scheduleItems hnow hwhole
  have hitems : (scheduleItems now ro.stages.items).map (·.stored) =
      scheduleItems now ro.stages.items :=
    (List.map_congr_left hstored).trans (List.map_id _)
  -- a sent row fired before any of the items does
  have hfree : ∀ n ∈ t.rows, n.rolloutId = ro.id → ¬n.unsent →
      ∀ it ∈ scheduleItems now ro.stages.items, n.item ≠ it.stored :=
    fun n hn hr hu => Notify.sent_not_item hwhole (hsent n hn hr hu)
  have hqueue : ∀ it, (t.reschedule ro.id (scheduleItems now ro.stages.items)).Queues ro.id it ↔
      it ∈ scheduleItems now ro.stages.items := by
    intro it
    rw [NotificationTable.queues_reschedule hfree]
    constructor
    · rintro ⟨it', hit', rfl⟩
      rw [hstored it' hit']
      exact hit'
    · intro hit
      exact ⟨it, hit, (hstored it hit).symm⟩
  constructor
  · refine ⟨_, NotificationTable.rows_insertAll ?_ ?_, ?_⟩
    · rw [hitems]
      exact scheduleItems_nodup now _
    · intro n hn hr it hit
      obtain ⟨hold, hkept⟩ := NotificationTable.mem_deleteUnsent.mp hn
      exact hfree n hold hr (fun hu => hkept ⟨hr, hu⟩) it hit
    · rw [List.map_map]
      conv_rhs => rw [← hitems, List.map_map]
      generalize (t.deleteUnsent ro.id).nextId = k
      generalize scheduleItems now ro.stages.items = items
      induction items generalizing k with
      | nil => rfl
      | cons it items ih =>
        rw [List.zipIdx_cons, List.map_cons, List.map_cons, ih (k + 1)]
        rfl
  · intro k channel fireAt
    rw [hqueue]
    exact mem_scheduleItems_iff
  · intro k hk
    obtain ⟨it, hit⟩ := stageItems_nonempty now k ro.stages.items[k].env ro.stages.items[k].startAt
    obtain ⟨hseq, hchannel, hfire⟩ := mem_stageItems.mp hit
    refine ⟨it.channel, it.fireAt, (hqueue _).mpr (mem_scheduleItems_iff.mpr ?_)⟩
    exact ⟨ro.stages.items[k], List.getElem?_eq_getElem hk, hchannel, hfire.imp id And.symm⟩
  · intro n hn hr hu
    exact lt_of_mem_scheduleItems ((hqueue n.item).mp ⟨n, hn, hr, hu, rfl⟩)
  · intro n hother
    constructor
    · intro hn
      rcases NotificationTable.mem_reschedule hn with ⟨hold, -⟩ | hf
      · exact hold
      · refine absurd ⟨hf.rolloutId, ?_⟩ hother
        rw [Notification.unsent, hf.sentAt]
        rfl
    · intro hn
      exact NotificationTable.reschedule_keeps hn hother

end Coverage

/-- **Scheduling covers every stage and touches nothing else**: whatever the stages and
the rows there are, when `scheduleNotifications` gets its transaction through. -/
theorem scheduleNotifications_covers {env : Env} {ro : Rollout} {F : Faults Err}
    {c c' : Conn Store} (hclock : pgTimestamp env.clock = env.clock)
    (hwhole : ∀ st ∈ ro.stages.items, pgTimestamp st.startAt = st.startAt)
    (hsent : ∀ n ∈ c.store.notifications.rows, n.sentAt ≠ none → n.fireAt ≤ env.clock)
    (hok : rescheduleNotifications ro.id (scheduleItems env.clock ro.stages.items) F c =
      (.ok (), c')) :
    scheduleNotifications env ro F c = (.ok (), c') ∧
      Covers env.clock ro c.store.notifications c'.store.notifications ∧
      c'.store = { c.store with notifications := c'.store.notifications } := by
  have hstore := rescheduleNotifications_ok hok
  refine ⟨?_, ?_, ?_⟩
  · simp only [scheduleNotifications, Db.attempt, Db.bind_def, hok, Db.pure_def]
  · rw [hstore]
    refine covers_reschedule hclock hwhole fun n hn _ hu => hsent n hn fun he => hu ?_
    rw [Notification.unsent, he]
    rfl
  · rw [hstore]

/-- Five hours after it was created, the first of these two stages has been announced an
hour before its start. -/
private def oneSent : Store :=
  { Store.empty with
    rollouts := [⟨"r1", "p1", "t1", "Title", "", "", "", 0, 0, none⟩]
    notifications := ([⟨0, .TMS_NP, 4 * hour⟩, ⟨1, .TMS_PROD, 24 * hour⟩].foldl
      (NotificationTable.insert "r1") NotificationTable.empty).markSent (4 * hour) 0 "" }

private def twoStages : Rollout :=
  ⟨"r1", "p1", "t1", "Title", "", "", "", some [⟨"non-prod", 5 * hour, hour, "done"⟩,
    ⟨"prod1", 48 * hour, hour, "scheduled"⟩], none, none, 0, 0, ""⟩

/-- Rescheduling it covers both stages and keeps the sent row. -/
theorem scheduleNotifications_covers_oneSent :
    ∃ c', scheduleNotifications ⟨0, 5 * hour, "", Char.toUpper, Char.toLower, fun _ => 0⟩ twoStages
      Db.noFaults ⟨oneSent, 0⟩ =
        (.ok (), c') ∧
      Covers (5 * hour) twoStages oneSent.notifications c'.store.notifications := by
  obtain ⟨u, c', hok, -⟩ := total_rescheduleNotifications
    (show hasNul twoStages.id = false by decide)
    (scheduleItems (5 * hour) twoStages.stages.items) Db.noFaults ⟨oneSent, 0⟩ (fun _ _ => rfl)
    (by decide)
  let env : Env := ⟨0, 5 * hour, "", Char.toUpper, Char.toLower, fun _ => 0⟩
  have hclock : pgTimestamp env.clock = env.clock := by decide
  have h := scheduleNotifications_covers hclock (by decide) (by decide) hok
  exact ⟨c', h.1, h.2.1⟩

end ReleaseRadar.Api
