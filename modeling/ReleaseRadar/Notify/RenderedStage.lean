import ReleaseRadar.Notify.Plan

/-!
# The stage an announcement renders

A row of the queue stores the index of its stage and a channel. `dispatch` reads
the stage at that index when it gets to the row, by when an edit may have put
another stage there: a production stage is then announced on the non-production
channel (`wrong_channel_posted`).

`announcements_match`: in every run in which each load finds at the row's index
the env and start that the stage had in the list the row was computed from
(`Current`), every announcement goes to the channel of the env it shows, and not
before a time computed for that stage.

A row's list is the one of the last reschedule before the tick that read the row
(`Enqueued`): a reschedule deletes every unsent row of its rollout.
-/

namespace ReleaseRadar

open Lib Repository

namespace Notify

variable {s s' : Sys} {a : Action}

/-- The history up to the last tick. -/
def beforeTick (hist : List Event) : List Event :=
  hist.dropWhile fun e =>
    match e with
    | .ticked _ => false
    | _ => true

/-- The announcement is on the channel of the env it shows, and not before a time
that a reschedule had computed for that stage. -/
def MatchesStage (p : Post) (hist : List Event) : Prop :=
  p.row.channel = channelFor p.stage.env ∧
    ∃ i created c stages, Event.rescheduled i p.row.rolloutId created c stages ∈ hist ∧
      (planOf stages)[p.row.stageSeq]? = some (p.stage.env, p.stage.startAt) ∧
      ∃ it ∈ stageItems c p.row.stageSeq p.stage.env p.stage.startAt, it.stored.fireAt ≤ p.time

/-- Every announcement that went out matches the stage it shows. -/
def AnnouncementsMatch (hist : List Event) : Prop :=
  ∀ newer p older, hist = newer ++ .announced p :: older → p.outcome = none → MatchesStage p older

/-- What the load of a row finds at its index is what the row was computed from. -/
def Current (s : Sys) : Action → Prop
  | .load =>
    ∀ n ∈ s.disp.hand.head?, ∀ stage ∈ (stagesOf s.store n.rolloutId)[n.stageSeq]?,
      ∃ l ∈ lastReschedule n.rolloutId (beforeTick s.hist),
        (planOf l.2)[n.stageSeq]? = some (stage.env, stage.startAt)
  | _ => True

instance (s : Sys) : (a : Action) → Decidable (Current s a)
  | .load => inferInstanceAs (Decidable (∀ n ∈ s.disp.hand.head?, _))
  | .wait _ | .create _ | .update _ _ | .delete _ | .reread _ | .clock _ | .reschedule _ | .tick _
  | .announce _ | .mark => isTrue trivial

/-! ## Where the rows come from -/

/-- The row is one of those the last reschedule of its rollout computed. -/
def Enqueued (hist : List Event) (n : Notification) : Prop :=
  ∀ l ∈ lastReschedule n.rolloutId hist, ∃ it ∈ scheduleItems l.1 l.2, n.item = it.stored

theorem Enqueued.of_key {hist : List Event} {m n : Notification} (h : Enqueued hist m)
    (hk : m.key = n.key) : Enqueued hist n := by
  unfold Enqueued at h ⊢
  rwa [show n.rolloutId = m.rolloutId from (congrArg Prod.fst hk).symm,
    show n.item = m.item from (congrArg Prod.snd hk).symm]

/-- A reschedule that happened is in the history. -/
theorem mem_of_lastReschedule {rid : String} {hist : List Event} {c : Int}
    {stages : List RolloutStage} (h : lastReschedule rid hist = some (c, stages)) :
    ∃ i created, Event.rescheduled i rid created c stages ∈ hist := by
  obtain ⟨e, he, hsome⟩ := List.exists_of_findSome?_eq_some h
  cases e with
  | rescheduled i id created c' stages' =>
    simp only [Option.ite_none_right_eq_some, Option.some.injEq, Prod.mk.injEq] at hsome
    obtain ⟨rfl, rfl, rfl⟩ := hsome
    exact ⟨i, created, he⟩
  | _ => simp at hsome

/-- What the loaded stage owes to the row that called for it. -/
def LoadedRight (n : Notification) (stage : RolloutStage) (hist : List Event) : Prop :=
  ∃ i created c stages, Event.rescheduled i n.rolloutId created c stages ∈ hist ∧
    (planOf stages)[n.stageSeq]? = some (stage.env, stage.startAt) ∧
    ∃ it ∈ stageItems c n.stageSeq stage.env stage.startAt, n.item = it.stored

structure MatchInv (s : Sys) : Prop where
  hand : HandInv s
  past : SentPast s
  queued : ∀ n ∈ s.store.notifications.rows, n.unsent → Enqueued s.hist n
  held : ∀ n ∈ s.disp.hand, Enqueued (beforeTick s.hist) n
  loaded : ∀ n r stage rest, s.disp = .loaded n r stage rest → LoadedRight n stage s.hist
  posts : AnnouncementsMatch s.hist

/-! ## One step -/

/-- Only a reschedule changes which one was last. -/
theorem lastReschedule_step {rid : String} (h : step s a = some s') (ha : ∀ i, a ≠ .reschedule i) :
    lastReschedule rid s'.hist = lastReschedule rid s.hist := by
  rcases step_event h with he | ⟨e, he, hwhat⟩
  · rw [he]
  · rw [he]
    cases e with
    | rescheduled => exact absurd hwhat.choose_spec (ha _)
    | _ => rfl

/-- Only a tick moves the last tick. -/
theorem beforeTick_step (h : step s a = some s') (ha : ∀ sorted, a ≠ .tick sorted) :
    beforeTick s'.hist = beforeTick s.hist := by
  rcases step_event h with he | ⟨e, he, hwhat⟩
  · rw [he]
  · rw [he]
    cases e with
    | ticked time => exact absurd hwhat.choose_spec (ha _)
    | _ => rfl

private theorem queued_match (hI : MatchInv s) (h : step s a = some s') {n : Notification}
    (hn : n ∈ s'.store.notifications.rows) (hu : n.unsent) : Enqueued s'.hist n := by
  -- a row that stays, under the same last reschedule
  have hstay : ∀ m ∈ s.store.notifications.rows, m.unsent →
      lastReschedule m.rolloutId s'.hist = lastReschedule m.rolloutId s.hist →
      Enqueued s'.hist m := by
    intro m hm hum he
    unfold Enqueued
    rw [he]
    exact hI.queued m hm hum
  rcases step_table h with ht | ⟨id, rfl, ht⟩ | ⟨i, ro, created, c, rfl, hi, ht⟩ |
    ⟨n₀, e, rest, rfl, hd, ht⟩
  · rw [ht] at hn
    by_cases ha : ∃ i, a = .reschedule i
    · obtain ⟨i, rfl⟩ := ha
      obtain ⟨ro, created, c, -, ⟨rfl, -⟩ | rfl⟩ := step_reschedule h
      · exact hI.queued n hn hu
      · -- the queue did not change, so it is the one just computed
        intro l hl
        by_cases hro : ro.id = n.rolloutId
        · have hl' : l = (c, ro.stages.items) := by simpa [lastReschedule, hro] using hl.symm
          rw [← ht] at hn
          rcases NotificationTable.mem_reschedule hn with ⟨-, hne⟩ | hf
          · exact absurd ⟨hro.symm, hu⟩ hne
          · rw [hl']
            exact hf.item
        · refine hI.queued n hn hu l ?_
          simpa [lastReschedule, hro] using hl
    · exact hstay n hn hu (lastReschedule_step h fun i he => ha ⟨i, he⟩)
  · rw [ht] at hn
    exact hstay n (NotificationTable.mem_deleteRollout.mp hn).1 hu (lastReschedule_step h nofun)
  · obtain ⟨ro', created', c', hi', ⟨rfl, -⟩ | rfl⟩ := step_reschedule h
    · exact hI.queued n hn hu
    intro l hl
    by_cases hro : ro'.id = n.rolloutId
    · have hl' : l = (c', ro'.stages.items) := by simpa [lastReschedule, hro] using hl.symm
      rcases NotificationTable.mem_reschedule hn with ⟨-, hne⟩ | hf
      · exact absurd ⟨hro.symm, hu⟩ hne
      · rw [hl']
        exact hf.item
    · have hn' : n ∈ s.store.notifications.rows := by
        rcases NotificationTable.mem_reschedule hn with ⟨hn', -⟩ | hf
        · exact hn'
        · exact absurd hf.rolloutId.symm hro
      refine hI.queued n hn' hu l ?_
      simpa [lastReschedule, hro] using hl
  · rw [ht] at hn
    obtain ⟨m, hm, rfl⟩ := NotificationTable.mem_markSent.mp hn
    have hum : m.unsent := by
      by_contra hs
      rw [NotificationTable.markRow_of_sent hs] at hu
      exact hs hu
    exact (hstay m hm hum (lastReschedule_step h nofun)).of_key
      (NotificationTable.markRow_key ..).symm

private theorem held_match (hI : MatchInv s) (h : step s a = some s') {n : Notification}
    (hn : n ∈ s'.disp.hand) : Enqueued (beforeTick s'.hist) n := by
  by_cases ha : ∃ sorted, a = .tick sorted
  · obtain ⟨sorted, rfl⟩ := ha
    obtain ⟨-, hdue, rfl⟩ := step_tick h
    obtain ⟨hrow, hu, -⟩ := mem_of_dueOrder hdue hn
    exact hI.queued n hrow hu
  · rw [beforeTick_step h fun sorted he => ha ⟨sorted, he⟩]
    rcases step_hand h with hh | ⟨sorted, he, -⟩ | ⟨m, hh⟩
    · exact hI.held n (hh ▸ hn)
    · exact absurd ⟨sorted, he⟩ ha
    · exact hI.held n (by rw [hh]; exact List.mem_cons_of_mem _ hn)

theorem LoadedRight.mono {n : Notification} {stage : RolloutStage} {hist hist' : List Event}
    (h : LoadedRight n stage hist) (hsub : hist ⊆ hist') : LoadedRight n stage hist' := by
  obtain ⟨i, created, c, stages, he, hrest⟩ := h
  exact ⟨i, created, c, stages, hsub he, hrest⟩

/-- A load that finds the stage as it was schedules what it announces. -/
private theorem loaded_match (hI : MatchInv s) (hc : Current s a) (h : step s a = some s')
    {n : Notification} {r : Rollout} {stage : RolloutStage} {rest : List Notification}
    (hd' : s'.disp = .loaded n r stage rest) : LoadedRight n stage s'.hist := by
  rcases step_disp h with hd | ⟨sorted, rfl⟩ | rfl | ⟨o, rfl⟩ | rfl
  · exact (hI.loaded n r stage rest (hd ▸ hd')).mono (step_hist_subset h)
  · obtain ⟨-, -, rfl⟩ := step_tick h
    exact Disp.noConfusion hd'
  · obtain ⟨n', rest', hd, ⟨e, rfl, -⟩ | ⟨r', stage', -, hst, rfl⟩⟩ := step_load h
    · exact Disp.noConfusion hd'
    · obtain ⟨rfl, -, rfl, -⟩ : n' = n ∧ _ ∧ stage' = stage ∧ _ := by simpa using hd'
      have hhead : n' ∈ s.disp.hand.head? := by rw [hd]; rfl
      have hmem : n' ∈ s.disp.hand := List.mem_of_mem_head? hhead
      obtain ⟨l, hl, hplan⟩ := hc n' hhead stage' hst
      obtain ⟨it, hit, hitem⟩ := hI.held n' hmem l hl
      obtain ⟨i, created, he⟩ := mem_of_lastReschedule hl
      obtain ⟨env, startAt, hst', hit'⟩ := mem_scheduleItems.mp hit
      have hseq : n'.stageSeq = it.stageSeq := congrArg (·.stageSeq) hitem
      rw [← hseq, hplan] at hst'
      simp only [Option.some.injEq, Prod.mk.injEq] at hst'
      rw [← hseq, ← hst'.1, ← hst'.2] at hit'
      exact ⟨i, created, l.1, l.2, (List.dropWhile_sublist _).subset he, hplan, it, hit', hitem⟩
  · obtain ⟨n', r', stage', rest', hd, rfl⟩ := step_announce h
    exact Disp.noConfusion hd'
  · obtain ⟨n', e', rest', hd, ⟨-, rfl⟩ | rfl⟩ := step_mark h <;> exact Disp.noConfusion hd'

theorem announcementsMatch_cons {e : Event} {hist : List Event} (h : AnnouncementsMatch hist)
    (he : ∀ p, e = .announced p → p.outcome = none → MatchesStage p hist) :
    AnnouncementsMatch (e :: hist) := by
  intro newer p older heq ho
  cases newer with
  | nil =>
    simp only [List.nil_append, List.cons.injEq] at heq
    rw [← heq.2]
    exact he p heq.1 ho
  | cons x newer =>
    simp only [List.cons_append, List.cons.injEq] at heq
    exact h newer p older heq.2 ho

private theorem posts_match (hI : MatchInv s) (h : step s a = some s') :
    AnnouncementsMatch s'.hist := by
  rcases step_hist h with he | ⟨e, he, hwhat⟩
  · rw [he]
    exact hI.posts
  · rw [he]
    refine announcementsMatch_cons hI.posts fun p hp _ => ?_
    subst hp
    cases a with
    | announce o =>
      obtain ⟨n, r, stage, rest, hd, hp⟩ := hwhat
      obtain rfl := Event.announced.inj hp
      obtain ⟨i, created, c, stages, hev, hplan, it, hit, hitem⟩ := hI.loaded n r stage rest hd
      have hmem : n ∈ s.disp.hand := by rw [hd]; exact List.mem_cons_self ..
      have hchannel : n.channel = it.channel := congrArg (·.channel) hitem
      have hfire : n.fireAt = it.stored.fireAt := congrArg (·.fireAt) hitem
      refine ⟨hchannel.trans (mem_stageItems.mp hit).2.1, i, created, c, stages, hev, hplan, it,
        hit, ?_⟩
      rw [← hfire]
      exact hI.past.hand n hmem
    | _ => simp at hwhat

theorem matchInv_step (hI : MatchInv s) (hc : Current s a) (h : step s a = some s') :
    MatchInv s' where
  hand := handInv_step hI.hand h
  past := sentPast_step hI.past hI.hand h
  queued _ hn hu := queued_match hI h hn hu
  held _ hn := held_match hI h hn
  loaded _ _ _ _ hd := loaded_match hI hc h hd
  posts := posts_match hI h

theorem matchInv_start {store : Store} {now : Int} (h : SentPast (start store now)) :
    MatchInv (start store now) where
  hand := handInv_start store now
  past := h
  queued _ _ _ _ hl := absurd hl (by simp [lastReschedule, start])
  held _ hn := absurd hn List.not_mem_nil
  loaded _ _ _ _ hd := Disp.noConfusion hd
  posts newer _ _ he := absurd he (by simp [start])

/-- **Announcements match the stage they show** in every run, of any requests and any
dispatcher steps, in which each load finds the stage its row was computed from. -/
theorem announcements_match {store : Store} {now : Int} {as : List Action}
    (hsent : SentPast (start store now))
    (hrun : system.exec (start store now) as = some s)
    (hcurrent : system.Along Current (start store now) as) : AnnouncementsMatch s.hist :=
  (system.exec_invariant_along (fun _ _ _ hI hc h => matchInv_step hI hc h)
    (matchInv_start hsent) hcurrent hrun).posts

/-! ## An announcement on the wrong channel -/

/-- A non-production stage five hours out, up to its announcement time. -/
def untilDue : List Action :=
  [.create (sampleRollout "non-prod" (5 * hour)), .reread 0, .clock 0, .reschedule 0,
    .wait 14410000000000]

/-- The tick that sends its row. -/
def announceDue : List Action :=
  [.tick [⟨0, "r1", 0, .TMS_NP, 4 * hour, none, none, 0⟩], .load, .announce none, .mark]

/-- The guarantee is not vacuous: the stage is announced as it was created. -/
theorem announcements_match_undisturbed :
    ∃ s, system.exec (start sampleStore 0) (untilDue ++ announceDue) = some s ∧
      AnnouncementsMatch s.hist := by
  have hrun : ∃ s, system.exec (start sampleStore 0) (untilDue ++ announceDue) = some s ∧ True := by
    decide +kernel
  obtain ⟨s, hs, -⟩ := hrun
  exact ⟨s, hs, announcements_match ⟨by decide, by decide⟩ hs (by decide +kernel)⟩

/-- **A production stage on the non-production channel**: the edit that made it one has
committed the stages and not yet rescheduled when the tick comes. -/
theorem wrong_channel_posted :
    ∃ s, system.exec (start sampleStore 0)
        (untilDue ++ .update "r1" (sampleRollout "prod1" (5 * hour)) :: announceDue) = some s ∧
      (∃ p ∈ posts s.hist, p.row.channel = .TMS_NP ∧ p.stage.env = "prod1") ∧
      ¬AnnouncementsMatch s.hist := by
  have hrun : ∃ s, system.exec (start sampleStore 0)
      (untilDue ++ .update "r1" (sampleRollout "prod1" (5 * hour)) :: announceDue) = some s ∧
      ((∃ p ∈ posts s.hist, p.row.channel = .TMS_NP ∧ p.stage.env = "prod1") ∧
        ∃ p ∈ posts s.hist, p.outcome = none ∧ p.row.channel ≠ channelFor p.stage.env ∧
          Event.announced p ∈ s.hist) := by decide +kernel
  obtain ⟨s, hs, hposted, p, -, ho, hne, hmem⟩ := hrun
  refine ⟨s, hs, hposted, fun h => ?_⟩
  obtain ⟨newer, older, he⟩ := List.append_of_mem hmem
  exact hne (h newer p older he ho).1

end Notify

end ReleaseRadar
