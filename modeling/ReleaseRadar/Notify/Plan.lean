import ReleaseRadar.Notify.System

/-!
# What every run keeps

Two invariants of the system, on which the results about lost and duplicated
announcements rest:

* `HandInv` — the rows a tick holds are distinct, and a table row with the id of
  one of them still has its key, although edits delete and re-insert rows under
  the tick (`handInv_step`);
* `PlanInv` — while every write of a rollout stores the same envs and starts, the
  plan in the database, in the requests under way, in the queue and in the
  dispatcher's hand is that one (`planInv_step`). In such a run the dispatcher
  never fails to find the stage of a row.
-/

namespace ReleaseRadar

open Lib Repository

namespace Notify

/-! ## The runs considered -/

/-- No trace of a rollout: neither its row nor a row that refers to it. -/
structure Absent (rid : String) (store : Store) : Prop where
  row : store.hasRollout rid = false
  stages : ∀ r ∈ store.rolloutStages, r.rolloutId ≠ rid
  notifications : ∀ n ∈ store.notifications.rows, n.rolloutId ≠ rid

theorem sampleStore_absent : Absent "r1" sampleStore :=
  ⟨by decide, by decide, by decide⟩

/-- Every write of `rid` stores the envs and starts of `plan`, nobody deletes it,
and every send succeeds. -/
def Keeps (rid : String) (plan : List (String × Int)) : Action → Prop
  | .create ro => ro.id = rid → planOf (ro.stages.items.map storedStage) = plan
  | .update id ro => id = rid → planOf (ro.stages.items.map storedStage) = plan
  | .delete id => id ≠ rid
  | .announce outcome => outcome = none
  | _ => True

instance (rid : String) (plan : List (String × Int)) : (a : Action) → Decidable (Keeps rid plan a)
  | .create ro => inferInstanceAs (Decidable (ro.id = rid → _))
  | .update id _ => inferInstanceAs (Decidable (id = rid → _))
  | .delete id => inferInstanceAs (Decidable (id ≠ rid))
  | .announce outcome => inferInstanceAs (Decidable (outcome = none))
  | .wait _ | .reread _ | .clock _ | .reschedule _ | .tick _ | .load | .mark => isTrue trivial

/-- Stage `k` of the plan has an advance window that fires at `f`. -/
def Window (plan : List (String × Int)) (k : Nat) (f : Int) : Prop :=
  ∃ st ∈ plan[k]?, IsWindow st.1 st.2 f

instance (plan : List (String × Int)) (k : Nat) (f : Int) : Decidable (Window plan k f) :=
  inferInstanceAs (Decidable (∃ st ∈ plan[k]?, IsWindow st.1 st.2 f))

/-- The row of stage `k`'s window at `f`. -/
def windowItem (plan : List (String × Int)) (k : Nat) (f : Int) : ScheduledNotification :=
  ⟨k, channelFor ((plan[k]?.map Prod.fst).getD ""), f⟩

/-- The row is for a stage of the plan, on that env's channel, and fires at one of
its windows or after all of them. -/
def Legit (plan : List (String × Int)) (n : Notification) : Prop :=
  ∃ st ∈ plan[n.stageSeq]?, n.channel = channelFor st.1 ∧
    (IsWindow st.1 st.2 n.fireAt ∨ ∀ f, IsWindow st.1 st.2 f → f < n.fireAt)

/-- Which rollout a request is about. -/
def Req.about : Req → Option String
  | .committed id _ => some id
  | .reread ro _ => some ro.id
  | .clocked ro _ _ => some ro.id
  | .done => none

/-- `P` holds of the clock reading of a request that is about to reschedule `rid`. -/
def Req.AtClock (rid : String) (P : Int → Prop) : Req → Prop
  | .clocked ro _ c => ro.id = rid → P c
  | _ => True

/-- `P` holds of the clock reading of a create that is about to schedule `rid`. -/
def Req.AtCreateClock (rid : String) (P : Int → Prop) : Req → Prop
  | .clocked ro true c => ro.id = rid → P c
  | _ => True

instance (rid : String) (P : Int → Prop) [DecidablePred P] : (q : Req) → Decidable (q.AtClock rid P)
  | .clocked ro _ c => inferInstanceAs (Decidable (ro.id = rid → P c))
  | .committed _ _ | .reread _ _ | .done => isTrue trivial

instance (rid : String) (P : Int → Prop) [DecidablePred P] :
    (q : Req) → Decidable (q.AtCreateClock rid P)
  | .clocked ro true c => inferInstanceAs (Decidable (ro.id = rid → P c))
  | .clocked _ false _ | .committed _ _ | .reread _ _ | .done => isTrue trivial

/-- What a request carries of `rid` has the plan. -/
def Req.Carries (rid : String) (plan : List (String × Int)) : Req → Prop
  | .reread ro _ => ro.id = rid → planOf ro.stages.items = plan
  | .clocked ro _ _ => ro.id = rid → planOf ro.stages.items = plan
  | _ => True

/-! ## Windows and their rows -/

section Windows

variable {rid : String} {plan : List (String × Int)}

/-- The queue key of stage `k`'s window at `f`. -/
def windowKey (rid : String) (plan : List (String × Int)) (k : Nat) (f : Int) :
    String × ScheduledNotification :=
  (rid, windowItem plan k f)

/-- A legitimate row is known by its stage and its time. -/
theorem key_of_legit {n : Notification} (hl : Legit plan n) (hr : n.rolloutId = rid) :
    n.key = windowKey rid plan n.stageSeq n.fireAt := by
  obtain ⟨st, hst, hc, -⟩ := hl
  have hst' : plan[n.stageSeq]? = some st := hst
  simp [Notification.key, Notification.item, windowKey, windowItem, hr, hst', hc]

/-- The key of a window names the rollout, the stage and the time. -/
theorem of_windowKey {n : Notification} {k : Nat} {f : Int} (h : n.key = windowKey rid plan k f) :
    n.rolloutId = rid ∧ n.stageSeq = k ∧ n.fireAt = f := by
  simp only [Notification.key, Notification.item, windowKey, windowItem, Prod.mk.injEq,
    ScheduledNotification.mk.injEq] at h
  exact ⟨h.1, h.2.1, h.2.2.2⟩

/-- A window that is still in the future is one of the rows computed. -/
theorem windowItem_mem {k : Nat} {f c : Int} {stages : List RolloutStage}
    (hplan : planOf stages = plan) (hw : Window plan k f) (hc : c < f) :
    windowItem plan k f ∈ scheduleItems c stages := by
  obtain ⟨st, hst, hwin⟩ := hw
  have hst' : plan[k]? = some st := hst
  refine mem_scheduleItems.mpr ⟨st.1, st.2, by rw [hplan]; exact hst', mem_stageItems.mpr ?_⟩
  exact ⟨rfl, by simp [windowItem, hst'], Or.inl ⟨hwin, hc⟩⟩

/-- The row of a window is stored as it is where the starts are whole microseconds. -/
theorem windowItem_stored {k : Nat} {f : Int} (hwhole : ∀ st ∈ plan, pgTimestamp st.2 = st.2)
    (hw : Window plan k f) : (windowItem plan k f).stored = windowItem plan k f := by
  obtain ⟨st, hst, hwin⟩ := hw
  have := hwin.stored (hwhole st (List.mem_of_getElem? hst))
  simp [ScheduledNotification.stored, windowItem, this]

/-- So are the times of its windows. -/
theorem window_whole {k : Nat} {f : Int} (hwhole : ∀ st ∈ plan, pgTimestamp st.2 = st.2)
    (hw : Window plan k f) : pgTimestamp f = f := by
  obtain ⟨st, hst, hwin⟩ := hw
  exact hwin.stored (hwhole st (List.mem_of_getElem? hst))

end Windows

/-! ## The rows in hand -/

section Hand

variable {s s' : Sys} {a : Action}

/-- A step changes the table in one of the ways its operations do. -/
theorem step_evolves (h : step s a = some s') :
    NotificationTable.Evolves s.store.notifications s'.store.notifications := by
  rcases step_table h with ht | ⟨id, -, ht⟩ | ⟨i, ro, created, clock, -, -, ht⟩ | ⟨n, e,
    rest, -, -, ht⟩
  · rw [ht]
    exact NotificationTable.evolves_refl _
  · rw [ht]
    exact NotificationTable.evolves_keep _ _
  · rw [ht]
    exact NotificationTable.evolves_reschedule _ _ _
  · rw [ht]
    exact NotificationTable.evolves_markSent _ _ _ _

/-- What a step does to the rows in hand: nothing, a tick fills it, or the first
row is done with. -/
theorem step_hand (h : step s a = some s') :
    s'.disp.hand = s.disp.hand ∨
      (∃ sorted, a = .tick sorted ∧ s.disp = .loop [] ∧
        NotificationTable.DueOrder s.now s.store.notifications sorted ∧
        s'.store = s.store ∧ s'.disp = .loop (sorted.take NotificationTable.pendingLimit)) ∨
      ∃ n, s.disp.hand = n :: s'.disp.hand := by
  rcases step_disp h with hd | ⟨sorted, rfl⟩ | rfl | ⟨o, rfl⟩ | rfl
  · exact Or.inl (by rw [hd])
  · obtain ⟨hd, hdue, rfl⟩ := step_tick h
    exact Or.inr (Or.inl ⟨sorted, rfl, hd, hdue, rfl, rfl⟩)
  · obtain ⟨n, rest, hd, ⟨e, rfl, -⟩ | ⟨r, stage, -, -, rfl⟩⟩ := step_load h
    · exact Or.inl (by rw [hd]; rfl)
    · exact Or.inl (by rw [hd]; rfl)
  · obtain ⟨n, r, stage, rest, hd, rfl⟩ := step_announce h
    exact Or.inl (by rw [hd]; rfl)
  · obtain ⟨n, e, rest, hd, ⟨-, rfl⟩ | rfl⟩ := step_mark h
    · exact Or.inr (Or.inr ⟨n, by rw [hd]; rfl⟩)
    · exact Or.inr (Or.inr ⟨n, by rw [hd]; rfl⟩)

/-- The rows a tick read are rows of the table that are due. -/
theorem mem_of_dueOrder {sorted : List Notification} {n : Notification}
    (hdue : NotificationTable.DueOrder s.now s.store.notifications sorted)
    (hn : n ∈ sorted.take NotificationTable.pendingLimit) :
    n ∈ s.store.notifications.rows ∧ n.unsent ∧ n.fireAt ≤ pgTimestamp s.now :=
  NotificationTable.mem_due.mp (hdue.1.mem_iff.mp (List.mem_of_mem_take hn))

/-- The rows a tick holds, against the table under it. -/
structure HandInv (s : Sys) : Prop where
  lt : ∀ n ∈ s.disp.hand, n.id < s.store.notifications.nextId
  ids : (s.disp.hand.map (·.id)).Nodup
  keys : (s.disp.hand.map (·.key)).Nodup
  row : ∀ n ∈ s.disp.hand, ∀ m ∈ s.store.notifications.rows, m.id = n.id → m.key = n.key

/-- The dispatcher starts with empty hands. -/
theorem handInv_start (store : Store) (now : Int) : HandInv (start store now) :=
  ⟨nofun, List.nodup_nil, List.nodup_nil, nofun⟩

/-- A tick takes unsent rows that are due. -/
private theorem handInv_tick {sorted : List Notification} (h : s'.store = s.store)
    (hdue : NotificationTable.DueOrder s.now s.store.notifications sorted)
    (hd : s'.disp = .loop (sorted.take NotificationTable.pendingLimit)) : HandInv s' := by
  have hhand : s'.disp.hand = sorted.take NotificationTable.pendingLimit := by rw [hd]; rfl
  have hnodup : ∀ {β : Type} (f : Notification → β), (s.store.notifications.rows.map f).Nodup →
      (s'.disp.hand.map f).Nodup := by
    intro β f hf
    rw [hhand]
    have h₁ : ((s.store.notifications.due s.now).map f).Nodup :=
      hf.sublist (List.filter_sublist.map _)
    exact ((hdue.1.map f).nodup_iff.mpr h₁).sublist ((List.take_sublist _ _).map _)
  have hmem : ∀ n ∈ s'.disp.hand, n ∈ s.store.notifications.rows := by
    intro n hn
    rw [hhand] at hn
    exact (mem_of_dueOrder hdue hn).1
  refine ⟨?_, hnodup _ s.store.notifications.ids_nodup,
    hnodup _ s.store.notifications.keys_nodup, ?_⟩
  · intro n hn
    rw [h]
    exact s.store.notifications.ids_lt n (hmem n hn)
  · intro n hn m hm he
    rw [h] at hm
    rw [NotificationTable.eq_of_id hm (hmem n hn) he]

/-- Rows that were in hand before stay distinct from whatever the table gained. -/
private theorem handInv_evolves (hI : HandInv s) (hsub : s'.disp.hand.Sublist s.disp.hand)
    (he : NotificationTable.Evolves s.store.notifications s'.store.notifications) :
    HandInv s' := by
  refine ⟨?_, hI.ids.sublist (hsub.map _), hI.keys.sublist (hsub.map _), ?_⟩
  · intro n hn
    exact Nat.lt_of_lt_of_le (hI.lt n (hsub.subset hn)) he.nextId
  · intro n hn m hm hid
    rcases he.row m hm with ⟨m₀, hm₀, hid₀, hkey₀⟩ | hnew
    · rw [← hkey₀]
      exact hI.row n (hsub.subset hn) m₀ hm₀ (hid₀.trans hid)
    · have := hI.lt n (hsub.subset hn)
      omega

/-- **Every step keeps the hand's rows apart.** -/
theorem handInv_step (hI : HandInv s) (h : step s a = some s') : HandInv s' := by
  have he := step_evolves h
  rcases step_hand h with hh | ⟨sorted, -, -, hdue, hs, hd⟩ | ⟨n, hh⟩
  · exact handInv_evolves hI (by rw [hh]) he
  · exact handInv_tick hs hdue hd
  · exact handInv_evolves hI (by rw [hh]; exact List.sublist_cons_self _ _) he

/-- A row in hand has yet to be announced, or is about to be marked. -/
theorem Disp.hand_cases {d : Disp} {m : Notification} (h : m ∈ d.hand) :
    m ∈ d.toAnnounce ∨ ∃ e rest, d = .marking m e rest := by
  cases d with
  | loop todo => exact Or.inl h
  | loaded n r stage rest => exact Or.inl h
  | marking n e rest =>
    rcases List.mem_cons.mp h with rfl | h
    · exact Or.inr ⟨e, rest, rfl⟩
    · exact Or.inl h

/-- Two rows in hand with one key are one row. -/
theorem HandInv.eq_of_key (hI : HandInv s) {m n : Notification} (hm : m ∈ s.disp.hand)
    (hn : n ∈ s.disp.hand) (hk : m.key = n.key) : m = n :=
  List.inj_on_of_nodup_map hI.keys hm hn hk

end Hand

/-! ## Sent rows -/

section Sent

variable {s s' : Sys} {a : Action}

/-- No row is sent before its time: what is sent or in hand has fallen due. -/
structure SentPast (s : Sys) : Prop where
  rows : ∀ n ∈ s.store.notifications.rows, ¬n.unsent → n.fireAt ≤ s.now
  hand : ∀ n ∈ s.disp.hand, n.fireAt ≤ s.now

/-- The dispatcher reads only rows that have fallen due. -/
theorem hand_due_step (hI : ∀ n ∈ s.disp.hand, n.fireAt ≤ s.now) (h : step s a = some s') :
    ∀ n ∈ s'.disp.hand, n.fireAt ≤ s'.now := by
  intro n hn
  have hnow := step_now h
  rcases step_hand h with hh | ⟨sorted, -, -, hdue, -, hd⟩ | ⟨m, hh⟩
  · rw [hh] at hn
    exact Int.le_trans (hI n hn) hnow
  · rw [hd] at hn
    have hdue' := (mem_of_dueOrder hdue hn).2.2
    have := pgTimestamp_le s.now
    omega
  · exact Int.le_trans (hI n (by rw [hh]; exact List.mem_cons_of_mem _ hn)) hnow

/-- **Every step of the system keeps to the clock.** -/
theorem sentPast_step (hI : SentPast s) (hH : HandInv s) (h : step s a = some s') :
    SentPast s' := by
  have hnow := step_now h
  refine ⟨fun n hn hs => ?_, fun n hn => ?_⟩
  · rcases step_table h with ht | ⟨id, -, ht⟩ | ⟨i, ro, created, c, -, -, ht⟩ |
      ⟨n₀, e, rest, -, hd, ht⟩
    · rw [ht] at hn
      exact Int.le_trans (hI.rows n hn hs) hnow
    · rw [ht] at hn
      exact Int.le_trans (hI.rows n (NotificationTable.mem_deleteRollout.mp hn).1 hs) hnow
    · rw [ht] at hn
      rcases NotificationTable.mem_reschedule hn with ⟨hn', -⟩ | hf
      · exact Int.le_trans (hI.rows n hn' hs) hnow
      · exact absurd (by simp [Notification.unsent, hf.sentAt]) hs
    · rw [ht] at hn
      obtain ⟨m, hm, rfl⟩ := NotificationTable.mem_markSent.mp hn
      have hfire : (NotificationTable.markRow s.now n₀.id e m).fireAt = m.fireAt :=
        congrArg (·.2.fireAt) (NotificationTable.markRow_key s.now n₀.id e m)
      rw [hfire]
      by_cases hid : m.id = n₀.id
      · -- the row just marked was in hand
        have hmem : n₀ ∈ s.disp.hand := by rw [hd]; exact List.mem_cons_self ..
        have hk : m.fireAt = n₀.fireAt := congrArg (·.2.fireAt) (hH.row n₀ hmem m hm hid)
        rw [hk]
        exact Int.le_trans (hI.hand n₀ hmem) hnow
      · rw [NotificationTable.markRow_of_ne hid] at hs
        exact Int.le_trans (hI.rows m hm hs) hnow
  · exact hand_due_step hI.hand h n hn

end Sent

/-! ## The plan -/

section PlanInv

variable {rid : String} {plan : List (String × Int)} {s s' : Sys} {a : Action}

/-- Whoever knows anything about `rid` knows the plan. -/
structure PlanInv (rid : String) (plan : List (String × Int)) (s : Sys) : Prop where
  absent : s.store.hasRollout rid = false →
    Absent rid s.store ∧ (∀ q ∈ s.reqs, q.about ≠ some rid) ∧ ∀ n ∈ s.disp.hand, n.rolloutId ≠ rid
  present : s.store.hasRollout rid = true →
    hasNul rid = false ∧ (∀ st ∈ plan, pgTimestamp st.2 = st.2) ∧
      planOf (stagesOf s.store rid) = plan
  reqs : ∀ q ∈ s.reqs, q.Carries rid plan
  rows : ∀ n ∈ s.store.notifications.rows, n.rolloutId = rid → Legit plan n
  hand : ∀ n ∈ s.disp.hand, n.rolloutId = rid → Legit plan n
  loaded : ∀ n r stage rest, s.disp = .loaded n r stage rest → n.rolloutId = rid →
    r.id = rid ∧ plan[n.stageSeq]? = some (stage.env, stage.startAt)
  marking : ∀ n e rest, s.disp = .marking n e rest → n.rolloutId = rid → e = ""

/-- It holds as long as the rollout is not there. -/
theorem planInv_start {store : Store} (h : Absent rid store) (now : Int) :
    PlanInv rid plan (start store now) where
  absent _ := ⟨h, fun _ hq => absurd hq List.not_mem_nil, fun _ hn => absurd hn List.not_mem_nil⟩
  present hp := absurd (h.row.symm.trans hp) Bool.false_ne_true
  reqs _ hq := absurd hq List.not_mem_nil
  rows n hn he := absurd he (h.notifications n hn)
  hand _ hn := absurd hn List.not_mem_nil
  loaded _ _ _ _ hd := Disp.noConfusion hd
  marking _ _ _ hd := Disp.noConfusion hd

/-- A stored plan is at database resolution. -/
private theorem whole_of_stored {sts : List RolloutStage}
    (h : planOf (sts.map storedStage) = plan) : ∀ st ∈ plan, pgTimestamp st.2 = st.2 := by
  intro st hst
  rw [← h, planOf, List.map_map] at hst
  obtain ⟨x, -, rfl⟩ := List.mem_map.mp hst
  exact pgTimestamp_idem _

/-- What a fresh row is for: a window that is in the future at the clock, or the
catch-up of a stage whose windows are all past. -/
theorem fresh_cases {c : Int} {stages : List RolloutStage} {t : NotificationTable}
    {n : Notification} (hplan : planOf stages = plan)
    (hwhole : ∀ st ∈ plan, pgTimestamp st.2 = st.2)
    (hf : NotificationTable.Fresh rid (scheduleItems c stages) t n) :
    ∃ st ∈ plan[n.stageSeq]?, n.channel = channelFor st.1 ∧
      ((IsWindow st.1 st.2 n.fireAt ∧ c < n.fireAt) ∨
        (¬Window plan n.stageSeq n.fireAt ∧ AllPast c st.1 st.2 ∧
          n.fireAt = pgTimestamp (c + second))) := by
  obtain ⟨it, hit, he⟩ := hf.item
  obtain ⟨env, startAt, hst, hit'⟩ := mem_scheduleItems.mp hit
  obtain ⟨hseq, hchannel, hfire⟩ := mem_stageItems.mp hit'
  have hn : n.stageSeq = it.stageSeq ∧ n.channel = it.channel ∧
    n.fireAt = pgTimestamp it.fireAt := by
    simpa [Notification.item, ScheduledNotification.stored] using he
  rw [hplan] at hst
  refine ⟨(env, startAt), by rw [hn.1]; exact hst, hn.2.1.trans hchannel, ?_⟩
  rcases hfire with ⟨hw, hlt⟩ | ⟨hcatch, hpast⟩
  · have hst' : pgTimestamp it.fireAt = it.fireAt := hw.stored (hwhole _ (List.mem_of_getElem? hst))
    rw [hn.2.2, hst']
    exact Or.inl ⟨hw, hlt⟩
  · refine Or.inr ⟨?_, hpast, by rw [hn.2.2, hcatch]⟩
    rintro ⟨st, hst₂, hw⟩
    have hst₂' : plan[n.stageSeq]? = some st := hst₂
    rw [hn.1, hst] at hst₂'
    obtain rfl := Option.some.inj hst₂'
    rw [hn.2.2, hcatch] at hw
    have := hpast.lt_catchUp hw
    omega

/-- A row the schedule of a plan enqueued is for one of its stages. -/
theorem legit_of_fresh {c : Int} {stages : List RolloutStage} {t : NotificationTable}
    {n : Notification} (hplan : planOf stages = plan)
    (hwhole : ∀ st ∈ plan, pgTimestamp st.2 = st.2)
    (hf : NotificationTable.Fresh rid (scheduleItems c stages) t n) : Legit plan n := by
  obtain ⟨st, hst, hchannel, hcase⟩ := fresh_cases hplan hwhole hf
  refine ⟨st, hst, hchannel, ?_⟩
  rcases hcase with ⟨hw, -⟩ | ⟨-, hpast, hfire⟩
  · exact Or.inl hw
  · rw [hfire]
    exact Or.inr fun f hf => hpast.lt_catchUp hf

/-- Only the key of a row matters. -/
theorem Legit.of_key {m n : Notification} (h : Legit plan m) (hk : m.key = n.key) :
    Legit plan n := by
  have hk' : m.stageSeq = n.stageSeq ∧ m.channel = n.channel ∧ m.fireAt = n.fireAt := by
    simpa [Notification.key, Notification.item] using congrArg Prod.snd hk
  unfold Legit at h ⊢
  rwa [hk'.1, hk'.2.1, hk'.2.2] at h

/-- What holds of all holds after one is replaced by another of its kind. -/
theorem forall_set {α : Type} {p : α → Prop} {l : List α} {i : Nat} {x : α}
    (h : ∀ q ∈ l, p q) (hx : p x) : ∀ q ∈ l.set i x, p q := by
  intro q hq
  rcases List.mem_or_eq_of_mem_set hq with hq | rfl
  · exact h q hq
  · exact hx

/-- Or after one is added. -/
theorem forall_append {α : Type} {p : α → Prop} {l : List α} {x : α}
    (h : ∀ q ∈ l, p q) (hx : p x) : ∀ q ∈ l ++ [x], p q :=
  List.forall_mem_append.mpr ⟨h, List.forall_mem_singleton.mpr hx⟩

/-- A request about `rid` or a row of it in hand shows that the rollout is there. -/
theorem PlanInv.present_of_req (hI : PlanInv rid plan s) {q : Req} (hq : q ∈ s.reqs)
    (ha : q.about = some rid) : s.store.hasRollout rid = true := by
  by_contra hp
  exact (hI.absent (by simpa using hp)).2.1 q hq ha

/-- A notification in hand has its rollout. -/
theorem PlanInv.present_of_hand (hI : PlanInv rid plan s) {n : Notification}
    (hn : n ∈ s.disp.hand) (hr : n.rolloutId = rid) : s.store.hasRollout rid = true := by
  by_contra hp
  exact (hI.absent (by simpa using hp)).2.2 n hn hr

/-- A create leaves the plan to its reschedule. -/
private theorem planInv_create (hI : PlanInv rid plan s) {ro : Rollout} {tasks : List String}
    (hk : Keeps rid plan (.create ro)) (hnew : s.store.hasRollout ro.id = false)
    (hnul : hasNul ro.id = false) {hist : List Event} :
    PlanInv rid plan { s with
      store := applyCreate s.now ro tasks s.store
      reqs := s.reqs ++ [.committed ro.id true]
      hist := hist } := by
  by_cases hid : ro.id = rid
  · subst hid
    refine ⟨fun hp => ?_, fun _ => ⟨hnul, whole_of_stored (hk rfl), ?_⟩,
      forall_append hI.reqs trivial, hI.rows, hI.hand, hI.loaded, hI.marking⟩
    · simp at hp
    · rw [stagesOf_applyCreate _ _ _ (hI.absent hnew).1.stages]
      exact hk rfl
  · have hsame : (applyCreate s.now ro tasks s.store).hasRollout rid = s.store.hasRollout rid := by
      simp [hid]
    refine ⟨fun hp => ?_, fun hp => ?_, forall_append hI.reqs trivial, hI.rows, hI.hand,
      hI.loaded, hI.marking⟩
    · rw [hsame] at hp
      obtain ⟨habs, hreqs, hhand⟩ := hI.absent hp
      refine ⟨⟨hsame.trans hp, ?_, habs.notifications⟩,
        forall_append hreqs fun he => hid (Option.some.inj he), hhand⟩
      intro r hr
      rcases List.mem_append.mp hr with hr | hr
      · exact habs.stages r hr
      · rw [stageRowsFor_rolloutId r hr]
        exact hid
    · rw [hsame] at hp
      rw [stagesOf_applyCreate_ne _ _ _ (Ne.symm hid)]
      exact hI.present hp

/-- An update does too. -/
private theorem planInv_update (hI : PlanInv rid plan s) {id : String} {ro : Rollout}
    (hk : Keeps rid plan (.update id ro)) (hold : s.store.hasRollout id = true)
    {hist : List Event} :
    PlanInv rid plan { s with
      store := applyUpdate s.now { ro with id := id } s.store
      reqs := s.reqs ++ [.committed id false]
      hist := hist } := by
  by_cases hid : id = rid
  · subst hid
    refine ⟨fun hp => ?_, fun _ => ⟨(hI.present hold).1, whole_of_stored (hk rfl), ?_⟩,
      forall_append hI.reqs trivial, hI.rows, hI.hand, hI.loaded, hI.marking⟩
    · simp [hold] at hp
    · exact (congrArg planOf (stagesOf_applyUpdate _ _ _)).trans (hk rfl)
  · refine ⟨fun hp => ?_, fun hp => ?_, forall_append hI.reqs trivial, hI.rows, hI.hand,
      hI.loaded, hI.marking⟩
    · rw [hasRollout_applyUpdate] at hp
      obtain ⟨habs, hreqs, hhand⟩ := hI.absent hp
      refine ⟨⟨by simpa using hp, ?_, habs.notifications⟩,
        forall_append hreqs fun he => hid (Option.some.inj he), hhand⟩
      intro r hr
      rcases List.mem_append.mp hr with hr | hr
      · exact habs.stages r (List.mem_filter.mp hr).1
      · rw [stageRowsFor_rolloutId r hr]
        exact hid
    · rw [hasRollout_applyUpdate] at hp
      rw [stagesOf_applyUpdate_ne _ _ (Ne.symm hid)]
      exact hI.present hp

/-- A delete of another rollout leaves it alone. -/
private theorem planInv_delete (hI : PlanInv rid plan s) {id : String} (hid : id ≠ rid) :
    PlanInv rid plan { s with store := applyDelete id s.store } := by
  have hsame := hasRollout_applyDelete_ne s.store (Ne.symm hid)
  refine ⟨fun hp => ?_, fun hp => ?_, hI.reqs, fun n hn => ?_, hI.hand, hI.loaded, hI.marking⟩
  · rw [hsame] at hp
    obtain ⟨habs, hreqs, hhand⟩ := hI.absent hp
    exact ⟨⟨hsame.trans hp, fun r hr => habs.stages r (List.mem_filter.mp hr).1,
      fun n hn => habs.notifications n (NotificationTable.mem_deleteRollout.mp hn).1⟩, hreqs, hhand⟩
  · rw [hsame] at hp
    rw [stagesOf_applyDelete_ne _ (Ne.symm hid)]
    exact hI.present hp
  · exact hI.rows n (NotificationTable.mem_deleteRollout.mp hn).1

/-- The re-read sees the stages of the plan. -/
private theorem planInv_reread (hI : PlanInv rid plan s) {i : Nat} {id : String} {created : Bool}
    {r : RolloutRow} (hf : s.store.rollouts.find? (fun r => r.id == id) = some r) (hid : r.id = id)
    {hist : List Event} :
    PlanInv rid plan { s with
      reqs := s.reqs.set i (.reread (hydrated s.store r) created)
      hist := hist } := by
  have hhas : s.store.hasRollout id = true := by rw [hasRollout_eq_find, hf]; rfl
  refine ⟨fun hp => ?_, hI.present, forall_set hI.reqs ?_, hI.rows, hI.hand, hI.loaded, hI.marking⟩
  · obtain ⟨habs, hreqs, hhand⟩ := hI.absent hp
    refine ⟨habs, forall_set hreqs fun he => ?_, hhand⟩
    obtain rfl : r.id = rid := Option.some.inj he
    rw [hid] at hp
    exact Bool.false_ne_true (hp.symm.trans hhas)
  · intro he
    obtain rfl : r.id = rid := he
    rw [← hid] at hhas
    exact (hI.present hhas).2.2

/-- The reschedule writes the rows of the plan. -/
private theorem planInv_reschedule (hI : PlanInv rid plan s) {i : Nat} {ro : Rollout}
    {created : Bool} {clock : Int} (hi : s.reqs[i]? = some (.clocked ro created clock))
    {hist : List Event} :
    PlanInv rid plan { s with
      store := { s.store with
        notifications := s.store.notifications.reschedule ro.id
          (scheduleItems clock ro.stages.items) }
      reqs := s.reqs.set i .done
      hist := hist } := by
  have hmem := List.mem_of_getElem? hi
  refine ⟨fun hp => ?_, hI.present, forall_set hI.reqs trivial, fun n hn hr => ?_, hI.hand,
    hI.loaded, hI.marking⟩
  · obtain ⟨habs, hreqs, hhand⟩ := hI.absent hp
    refine ⟨⟨hp, habs.stages, fun n hn => ?_⟩, forall_set hreqs nofun, hhand⟩
    rcases NotificationTable.mem_reschedule hn with ⟨hn', -⟩ | hf
    · exact habs.notifications n hn'
    · rw [hf.rolloutId]
      exact fun he => hreqs _ hmem (congrArg some he)
  · rcases NotificationTable.mem_reschedule hn with ⟨hn', -⟩ | hf
    · exact hI.rows n hn' hr
    · have hro : ro.id = rid := hf.rolloutId.symm.trans hr
      have hpres := hI.present (hI.present_of_req hmem (congrArg some hro))
      exact legit_of_fresh (hI.reqs _ hmem hro) hpres.2.1 hf

/-- The dispatcher finds the stage of a row of `rid`. -/
theorem planInv_load (hI : PlanInv rid plan s) {n : Notification} {rest : List Notification}
    (hd : s.disp = .loop (n :: rest)) (hr : n.rolloutId = rid) :
    ¬(s.store.rollouts.find? (fun r => r.id == n.rolloutId) = none ∨ hasNul n.rolloutId ∨
      (stagesOf s.store n.rolloutId)[n.stageSeq]? = none) := by
  subst hr
  have hmem : n ∈ s.disp.hand := by rw [hd]; exact List.mem_cons_self ..
  have hhas := hI.present_of_hand hmem rfl
  obtain ⟨hnul, -, hplan⟩ := hI.present hhas
  obtain ⟨st, hst, -⟩ := hI.hand n hmem rfl
  rintro (hf | hn | hnone)
  · rw [hasRollout_eq_find, hf] at hhas
    exact Bool.false_ne_true hhas
  · exact Bool.false_ne_true (hnul.symm.trans hn)
  · rw [← hplan, planOf, List.getElem?_map, hnone] at hst
    cases hst

/-- Calls begin or go on, and know no more than before. -/
private theorem planInv_calls (hI : PlanInv rid plan s) {reqs : List Req} {hist : List Event}
    (habout : (∀ q ∈ s.reqs, q.about ≠ some rid) → ∀ q ∈ reqs, q.about ≠ some rid)
    (hcarries : ∀ q ∈ reqs, q.Carries rid plan) :
    PlanInv rid plan { s with reqs := reqs, hist := hist } where
  absent hp := ⟨(hI.absent hp).1, habout (hI.absent hp).2.1, (hI.absent hp).2.2⟩
  present := hI.present
  reqs := hcarries
  rows := hI.rows
  hand := hI.hand
  loaded := hI.loaded
  marking := hI.marking

/-- The dispatcher goes on with rows it has in hand. -/
private theorem planInv_dispatch (hI : PlanInv rid plan s) {disp : Disp} {hist : List Event}
    (hhand : ∀ n ∈ disp.hand, n ∈ s.disp.hand)
    (hloaded : ∀ n r stage rest, disp = .loaded n r stage rest → n.rolloutId = rid →
      r.id = rid ∧ plan[n.stageSeq]? = some (stage.env, stage.startAt))
    (hmarking : ∀ n e rest, disp = .marking n e rest → n.rolloutId = rid → e = "") :
    PlanInv rid plan { s with disp := disp, hist := hist } where
  absent hp := ⟨(hI.absent hp).1, (hI.absent hp).2.1,
    fun n hn => (hI.absent hp).2.2 n (hhand n hn)⟩
  present := hI.present
  reqs := hI.reqs
  rows := hI.rows
  hand n hn := hI.hand n (hhand n hn)
  loaded := hloaded
  marking := hmarking

/-- A row is marked: it keeps its rollout and what it is for. -/
private theorem planInv_marked (hI : PlanInv rid plan s) {id : Nat} {e : String} :
    PlanInv rid plan { s with
      store := { s.store with notifications := s.store.notifications.markSent s.now id e } } where
  absent hp := by
    refine ⟨⟨(hI.absent hp).1.row, (hI.absent hp).1.stages, fun m hm hr => ?_⟩, (hI.absent hp).2⟩
    obtain ⟨m₀, hm₀, rfl⟩ := NotificationTable.mem_markSent.mp hm
    have hkey := congrArg Prod.fst (NotificationTable.markRow_key s.now id e m₀)
    exact (hI.absent hp).1.notifications m₀ hm₀ (hkey.symm.trans hr)
  present := hI.present
  reqs := hI.reqs
  rows m hm hr := by
    obtain ⟨m₀, hm₀, rfl⟩ := NotificationTable.mem_markSent.mp hm
    have hkey := NotificationTable.markRow_key s.now id e m₀
    exact (hI.rows m₀ hm₀ ((congrArg Prod.fst hkey).symm.trans hr)).of_key hkey.symm
  hand := hI.hand
  loaded := hI.loaded
  marking := hI.marking

/-- **Every step keeps to the plan.** -/
theorem planInv_step (hI : PlanInv rid plan s) (hk : Keeps rid plan a) (h : step s a = some s') :
    PlanInv rid plan s' := by
  cases a with
  | wait d =>
    obtain rfl := Option.some.inj h
    exact ⟨hI.absent, hI.present, hI.reqs, hI.rows, hI.hand, hI.loaded, hI.marking⟩
  | create ro =>
    rcases step_create h with rfl | ⟨hnew, hnul, tasks, rfl⟩
    · exact planInv_calls hI (fun h => forall_append h nofun) (forall_append hI.reqs trivial)
    · exact planInv_create hI hk hnew hnul
  | update id ro =>
    rcases step_update h with rfl | ⟨hold, -, rfl⟩
    · exact planInv_calls hI (fun h => forall_append h nofun) (forall_append hI.reqs trivial)
    · exact planInv_update hI hk hold
  | delete id =>
    rcases step_delete h with rfl | rfl
    · exact hI
    · exact planInv_delete hI hk
  | reread i =>
    obtain ⟨id, created, hi, ⟨rfl, -⟩ | ⟨r, hf, hid, rfl⟩⟩ := step_reread h
    · exact planInv_calls hI (fun h => forall_set h nofun) (forall_set hI.reqs trivial)
    · exact planInv_reread hI hf hid
  | clock i =>
    obtain ⟨ro, created, hi, rfl⟩ := step_clock h
    -- the time it has taken is all that is new
    have hmem := List.mem_of_getElem? hi
    refine planInv_calls hI (fun habout => forall_set habout ?_) (forall_set hI.reqs ?_)
    · exact habout (.reread ro created) hmem
    · exact hI.reqs (.reread ro created) hmem
  | reschedule i =>
    obtain ⟨ro, created, clock, hi, ⟨rfl, -⟩ | rfl⟩ := step_reschedule h
    · exact planInv_calls hI (fun h => forall_set h nofun) (forall_set hI.reqs trivial)
    · exact planInv_reschedule hI hi
  | tick sorted =>
    obtain ⟨hd, hdue, rfl⟩ := step_tick h
    refine ⟨fun hp => ⟨(hI.absent hp).1, (hI.absent hp).2.1, fun n hn => ?_⟩, hI.present, hI.reqs,
      hI.rows, fun n hn => ?_, fun _ _ _ _ hd => Disp.noConfusion hd,
      fun _ _ _ hd => Disp.noConfusion hd⟩
    · exact (hI.absent hp).1.notifications n (mem_of_dueOrder hdue hn).1
    · exact hI.rows n (mem_of_dueOrder hdue hn).1
  | load =>
    obtain ⟨n, rest, hd, ⟨e, rfl, hwhy⟩ | ⟨r, stage, hf, hst, rfl⟩⟩ := step_load h
    · have hhand : ∀ m ∈ n :: rest, m ∈ s.disp.hand := by rw [hd]; exact fun _ hm => hm
      refine planInv_dispatch hI hhand (fun _ _ _ _ hd => Disp.noConfusion hd) ?_
      rintro _ _ _ ⟨⟩ hr
      exact absurd hwhy (planInv_load hI hd hr)
    · have hhand : ∀ m ∈ n :: rest, m ∈ s.disp.hand := by rw [hd]; exact fun _ hm => hm
      refine planInv_dispatch hI hhand ?_ fun _ _ _ hd => Disp.noConfusion hd
      rintro _ _ _ _ ⟨⟩ hr
      have hmem := hhand n (List.mem_cons_self ..)
      obtain ⟨-, -, hplan⟩ := hI.present (hI.present_of_hand hmem hr)
      have hid : r.id = n.rolloutId := by simpa using List.find?_some hf
      refine ⟨hid.trans hr, ?_⟩
      rw [hr] at hst
      rw [← hplan, planOf, List.getElem?_map, hst]
      rfl
  | announce outcome =>
    obtain ⟨n, r, stage, rest, hd, rfl⟩ := step_announce h
    have hhand : ∀ m ∈ n :: rest, m ∈ s.disp.hand := by rw [hd]; exact fun _ hm => hm
    refine planInv_dispatch hI hhand (fun _ _ _ _ hd => Disp.noConfusion hd) ?_
    rintro _ _ _ ⟨⟩ -
    rw [show outcome = none from hk]
    rfl
  | mark =>
    obtain ⟨n, e, rest, hd, hs'⟩ := step_mark h
    have hhand : ∀ m ∈ rest, m ∈ s.disp.hand := by
      intro m hm
      rw [hd]
      exact List.mem_cons_of_mem _ hm
    rcases hs' with ⟨-, rfl⟩ | rfl
    · exact planInv_dispatch hI hhand (fun _ _ _ _ hd => Disp.noConfusion hd)
        fun _ _ _ hd => Disp.noConfusion hd
    · exact planInv_dispatch (planInv_marked hI) hhand (fun _ _ _ _ hd => Disp.noConfusion hd)
        fun _ _ _ hd => Disp.noConfusion hd

end PlanInv

end Notify

end ReleaseRadar
