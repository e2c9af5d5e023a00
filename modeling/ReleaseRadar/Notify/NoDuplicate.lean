import ReleaseRadar.Notify.Plan

/-!
# No announcement is duplicated by an edit, and when one is

Two gaps let an edit repeat an announcement: a reschedule that runs while a tick
holds a row deletes the row and inserts another with the same key under a new id,
so that both are sent; and once every window of a stage is past, each edit
enqueues another catch-up (`catchUp_repeated_by_edit`), although the stage has
been announced.

`no_announcement_repeated`: in every run without a reschedule of these two kinds
(`Repeats`), each window is announced at most once and the catch-up at most once
and never after a window.

The invariant (`Once`) says of every row that is still to be announced that
announcing it repeats nothing (`New`), and that a catch-up is the only row of its
stage.
-/

namespace ReleaseRadar

open Lib Repository

namespace Notify

variable {rid : String} {plan : List (String × Int)} {s s' : Sys} {a : Action}

/-- The posts about stage `k` of a rollout, newest first. -/
def stagePosts (rid : String) (k : Nat) (hist : List Event) : List Post :=
  (posts hist).filter fun p => p.row.rolloutId = rid ∧ p.row.stageSeq = k

/-- Each window of a stage is announced at most once; a catch-up, which fires at
none of them, at most once and never after a window. -/
structure NothingRepeated (rid : String) (plan : List (String × Int)) (s : Sys) : Prop where
  window : ∀ k f, Window plan k f →
    (stagePosts rid k s.hist).countP (fun p => p.row.fireAt = f) ≤ 1
  catchUp : ∀ k, (stagePosts rid k s.hist).countP (fun p => ¬Window plan k p.row.fireAt) ≤ 1
  order : ∀ k newer p older, stagePosts rid k s.hist = newer ++ p :: older →
    ¬Window plan k p.row.fireAt → ∀ q ∈ older, ¬Window plan k q.row.fireAt

/-- Rescheduling stage `k` for its window at `f` repeats it: the running tick has the
window in hand, or it is out and no sent row tells so. -/
def RepeatsWindow (rid : String) (plan : List (String × Int)) (s : Sys) (k : Nat) (f : Int) :
    Prop :=
  (∃ m ∈ s.disp.hand, m.key = windowKey rid plan k f) ∨
    ((∃ p ∈ stagePosts rid k s.hist, p.row.fireAt = f) ∧
      ∀ n ∈ s.store.notifications.rows, n.unsent ∨ n.key ≠ windowKey rid plan k f)

/-- A catch-up for stage `k` repeats it: the running tick has a row of the stage in
hand, or the stage has been announced. -/
def RepeatsStage (rid : String) (s : Sys) (k : Nat) : Prop :=
  (∃ m ∈ s.disp.hand, m.rolloutId = rid ∧ m.stageSeq = k) ∨ stagePosts rid k s.hist ≠ []

/-- A reschedule at clock `c` repeats an announcement. -/
def Repeats (rid : String) (plan : List (String × Int)) (s : Sys) (c : Int) : Prop :=
  ∃ k ∈ List.range plan.length, ∃ st ∈ plan[k]?,
    (∃ adv ∈ advancesFor st.1, c < st.2 - adv ∧ RepeatsWindow rid plan s k (st.2 - adv)) ∨
    ((∀ adv ∈ advancesFor st.1, st.2 - adv ≤ c) ∧ RepeatsStage rid s k)

/-- The steps that repeat nothing. -/
def Unrepeating (rid : String) (plan : List (String × Int)) (s : Sys) : Action → Prop
  | .reschedule i => ∀ q ∈ s.reqs[i]?, q.AtClock rid fun c => ¬Repeats rid plan s c
  | _ => True

instance (rid : String) (plan : List (String × Int)) (s : Sys) (k : Nat) (f : Int) :
    Decidable (RepeatsWindow rid plan s k f) :=
  inferInstanceAs (Decidable (_ ∨ _))

instance (rid : String) (s : Sys) (k : Nat) : Decidable (RepeatsStage rid s k) :=
  inferInstanceAs (Decidable (_ ∨ _))

instance (rid : String) (plan : List (String × Int)) (s : Sys) (c : Int) :
    Decidable (Repeats rid plan s c) :=
  inferInstanceAs (Decidable (∃ k ∈ List.range plan.length, _))

instance (rid : String) (plan : List (String × Int)) (s : Sys) :
    (a : Action) → Decidable (Unrepeating rid plan s a)
  | .reschedule i => inferInstanceAs (Decidable (∀ q ∈ s.reqs[i]?, _))
  | .wait _ | .create _ | .update _ _ | .delete _ | .reread _ | .clock _ | .tick _ | .load
  | .announce _ | .mark => isTrue trivial

/-! ## The invariant -/

/-- Announcing the row repeats nothing that is out. -/
def New (rid : String) (plan : List (String × Int)) (hist : List Event) (n : Notification) : Prop :=
  ∀ p ∈ stagePosts rid n.stageSeq hist,
    Window plan n.stageSeq n.fireAt ∧ p.row.fireAt ≠ n.fireAt

/-- Nothing is out twice, and nothing in the queue or in hand would repeat it. -/
structure Once (rid : String) (plan : List (String × Int)) (t : NotificationTable) (d : Disp)
    (hist : List Event) : Prop where
  out : ∀ k, (stagePosts rid k hist).Pairwise fun newer older =>
    Window plan k newer.row.fireAt ∧ older.row.fireAt ≠ newer.row.fireAt
  ahead : ∀ n ∈ d.toAnnounce, n.rolloutId = rid → New rid plan hist n
  queued : ∀ m ∈ t.rows, m.rolloutId = rid → m.unsent →
    (∃ n e rest, d = .marking n e rest ∧ n.id = m.id) ∨ New rid plan hist m
  same : ∀ n ∈ d.hand, n.rolloutId = rid → ∀ m ∈ t.rows, m.unsent → m.key = n.key → m.id = n.id
  aloneQueued : ∀ m ∈ t.rows, ∀ n ∈ t.rows, m.rolloutId = rid → n.rolloutId = rid → m.unsent →
    n.unsent → m.stageSeq = n.stageSeq → ¬Window plan m.stageSeq m.fireAt → n = m
  aloneAhead : ∀ m ∈ t.rows, ∀ n ∈ d.hand, m.rolloutId = rid → n.rolloutId = rid → m.unsent →
    m.stageSeq = n.stageSeq → ¬Window plan m.stageSeq m.fireAt → n.id = m.id
  aloneHand : ∀ m ∈ d.hand, ∀ n ∈ d.hand, m.rolloutId = rid → n.rolloutId = rid →
    m.stageSeq = n.stageSeq → ¬Window plan m.stageSeq m.fireAt → n = m

theorem once_start {store : Store} (h : Absent rid store) :
    Once rid plan store.notifications (.loop []) [] where
  out _ := List.Pairwise.nil
  ahead _ hn := absurd hn List.not_mem_nil
  queued m hm hr := absurd hr (h.notifications m hm)
  same _ hn := absurd hn List.not_mem_nil
  aloneQueued m hm _ _ hr := absurd hr (h.notifications m hm)
  aloneAhead _ _ _ hn := absurd hn List.not_mem_nil
  aloneHand _ hm := absurd hm List.not_mem_nil

/-- Losing rows of the queue changes nothing, nor does another rollout's business. -/
theorem Once.of_rows {t t' : NotificationTable} {d : Disp} {hist hist' : List Event}
    (hO : Once rid plan t d hist)
    (hrows : ∀ m ∈ t'.rows, m.rolloutId = rid → m.unsent → m ∈ t.rows)
    (hhist : posts hist' = posts hist) : Once rid plan t' d hist' := by
  have hsp : ∀ k, stagePosts rid k hist' = stagePosts rid k hist := by
    intro k
    rw [stagePosts, hhist, stagePosts]
  have hnew : ∀ n, New rid plan hist n → New rid plan hist' n := by
    intro n h p hp
    rw [hsp] at hp
    exact h p hp
  refine ⟨fun k => by rw [hsp]; exact hO.out k, fun n hn hr => hnew n (hO.ahead n hn hr),
    fun m hm hr hu => ?_, fun n hn hr m hm hu hk => ?_, fun m hm n hn hr hr' hu hu' => ?_,
    fun m hm n hn hr hr' hu => ?_, hO.aloneHand⟩
  · exact (hO.queued m (hrows m hm hr hu) hr hu).imp_right (hnew m)
  · exact hO.same n hn hr m (hrows m hm ((congrArg Prod.fst hk).trans hr) hu) hu hk
  · exact hO.aloneQueued m (hrows m hm hr hu) n (hrows n hn hr' hu') hr hr' hu hu'
  · exact hO.aloneAhead m (hrows m hm hr hu) n hn hr hr' hu

/-! ## The dispatcher's steps -/

/-- A tick takes up rows of the queue. -/
theorem once_tick {t : NotificationTable} {hist : List Event} {now : Int}
    {sorted : List Notification} (hO : Once rid plan t (.loop []) hist)
    (hdue : NotificationTable.DueOrder now t sorted) :
    Once rid plan t (.loop (sorted.take NotificationTable.pendingLimit)) hist := by
  have hmem : ∀ n ∈ sorted.take NotificationTable.pendingLimit, n ∈ t.rows ∧ n.unsent := by
    intro n hn
    obtain ⟨h₁, h₂, -⟩ := NotificationTable.mem_due.mp (hdue.1.mem_iff.mp (List.mem_of_mem_take hn))
    exact ⟨h₁, h₂⟩
  have hqueued : ∀ m ∈ t.rows, m.rolloutId = rid → m.unsent → New rid plan hist m := by
    intro m hm hr hu
    rcases hO.queued m hm hr hu with ⟨n, e, rest, hd, -⟩ | h
    · exact Disp.noConfusion hd
    · exact h
  refine ⟨hO.out, fun n hn hr => hqueued n (hmem n hn).1 hr (hmem n hn).2,
    fun m hm hr hu => Or.inr (hqueued m hm hr hu), fun n hn hr m hm hu hk => ?_, hO.aloneQueued,
    fun m hm n hn hr hr' hu hs hw => ?_, fun m hm n hn hr hr' hs hw => ?_⟩
  · rw [NotificationTable.eq_of_key hm (hmem n hn).1 hk]
  · rw [hO.aloneQueued m hm n (hmem n hn).1 hr hr' hu (hmem n hn).2 hs hw]
  · exact hO.aloneQueued m (hmem m hm).1 n (hmem n hn).1 hr hr' (hmem m hm).2 (hmem n hn).2 hs hw

/-- A row whose stage cannot be loaded is put aside. -/
theorem once_skip {t : NotificationTable} {hist : List Event} {n : Notification} {e : String}
    {rest : List Notification} (hO : Once rid plan t (.loop (n :: rest)) hist) :
    Once rid plan t (.marking n e rest) hist where
  out := hO.out
  ahead m hm := hO.ahead m (List.mem_cons_of_mem _ hm)
  queued m hm hr hu := by
    rcases hO.queued m hm hr hu with ⟨n, e, rest, hd, -⟩ | h
    · exact Disp.noConfusion hd
    · exact Or.inr h
  same := hO.same
  aloneQueued := hO.aloneQueued
  aloneAhead := hO.aloneAhead
  aloneHand := hO.aloneHand

theorem once_load {t : NotificationTable} {hist : List Event} {n : Notification} {r : Rollout}
    {stage : RolloutStage} {rest : List Notification}
    (hO : Once rid plan t (.loop (n :: rest)) hist) :
    Once rid plan t (.loaded n r stage rest) hist where
  out := hO.out
  ahead := hO.ahead
  queued m hm hr hu := by
    rcases hO.queued m hm hr hu with ⟨n, e, rest, hd, -⟩ | h
    · exact Disp.noConfusion hd
    · exact Or.inr h
  same := hO.same
  aloneQueued := hO.aloneQueued
  aloneAhead := hO.aloneAhead
  aloneHand := hO.aloneHand

theorem stagePosts_cons {k : Nat} {hist : List Event} {p : Post} (ho : p.outcome = none) :
    stagePosts rid k (.announced p :: hist) =
      if p.row.rolloutId = rid ∧ p.row.stageSeq = k then p :: stagePosts rid k hist
      else stagePosts rid k hist := by
  simp only [stagePosts, posts, List.filterMap_cons, ho, Option.isNone_none, if_true,
    List.filter_cons, decide_eq_true_eq]

/-- Announcing a row makes every other row of its stage still worth announcing. -/
theorem new_announce {hist : List Event} {n m : Notification} {p : Post} (ho : p.outcome = none)
    (hrow : p.row = n) (hnew : New rid plan hist m)
    (hother : n.rolloutId = rid → n.stageSeq = m.stageSeq →
      Window plan m.stageSeq m.fireAt ∧ n.fireAt ≠ m.fireAt) :
    New rid plan (.announced p :: hist) m := by
  intro q hq
  rw [stagePosts_cons ho, hrow] at hq
  split at hq
  · next hc =>
    rcases List.mem_cons.mp hq with rfl | hq
    · rw [hrow]
      exact hother hc.1 hc.2
    · exact hnew q hq
  · exact hnew q hq

/-- Two rows of a rollout that differ announce different things, or are alone. -/
private theorem ne_of_other {m n : Notification} (hm : Legit plan m) (hn : Legit plan n)
    (hr : m.rolloutId = rid) (hr' : n.rolloutId = rid) (hs : n.stageSeq = m.stageSeq)
    (hf : n.fireAt = m.fireAt) : m.key = n.key := by
  rw [key_of_legit hm hr, key_of_legit hn hr', hs, hf]

/-- The rows behind the first one are still in hand. -/
private theorem rest_subset_hand {d : Disp} {n : Notification} {rest : List Notification}
    (hd : d.hand = n :: rest) : ∀ m ∈ rest, m ∈ d.hand := by
  intro m hm
  rw [hd]
  exact List.mem_cons_of_mem n hm

theorem once_announce (hO : Once rid plan s.store.notifications s.disp s.hist)
    (hP : PlanInv rid plan s) (hH : HandInv s) {n : Notification} {r : Rollout}
    {stage : RolloutStage} {rest : List Notification} (hd : s.disp = .loaded n r stage rest)
    {p : Post} (ho : p.outcome = none) (hrow : p.row = n) {e : String} :
    Once rid plan s.store.notifications (.marking n e rest) (.announced p :: s.hist) := by
  have hn : n ∈ s.disp.hand := by rw [hd]; exact List.mem_cons_self ..
  have hrest : ∀ m ∈ rest, m ∈ s.disp.hand := rest_subset_hand (by rw [hd]; rfl)
  have hids := hH.ids
  have hkeys := hH.keys
  rw [hd] at hids hkeys
  refine ⟨fun k => ?_, fun m hm hr => ?_, fun m hm hr hu => ?_, ?_, hO.aloneQueued, ?_, ?_⟩
  · rw [stagePosts_cons ho, hrow]
    split
    · next hc =>
      obtain ⟨hr, rfl⟩ := hc
      refine List.pairwise_cons.mpr ⟨fun q hq => ?_, hO.out _⟩
      rw [hrow]
      exact hO.ahead n (by rw [hd]; exact List.mem_cons_self ..) hr q hq
    · exact hO.out k
  · -- the rows still in hand
    have hne : n.id ≠ m.id := by
      intro he
      exact (List.nodup_cons.mp hids).1 (List.mem_map.mpr ⟨m, hm, he.symm⟩)
    refine new_announce ho hrow (hO.ahead m (by rw [hd]; exact List.mem_cons_of_mem _ hm) hr)
      fun hr' hs => ⟨?_, fun hf => ?_⟩
    · by_contra hw
      exact hne (congrArg (·.id) (hO.aloneHand m (hrest m hm) n hn hr hr' hs.symm hw))
    · have hk := ne_of_other (hP.hand m (hrest m hm) hr) (hP.hand n hn hr') hr hr' hs hf
      exact (List.nodup_cons.mp hkeys).1 (List.mem_map.mpr ⟨m, hm, hk⟩)
  · -- the rows in the queue
    by_cases hid : n.id = m.id
    · exact Or.inl ⟨n, e, rest, rfl, hid⟩
    · have hnew : New rid plan s.hist m := by
        rcases hO.queued m hm hr hu with ⟨n', e', rest', hd', -⟩ | h
        · rw [hd] at hd'
          exact Disp.noConfusion hd'
        · exact h
      refine Or.inr (new_announce ho hrow hnew fun hr' hs => ⟨?_, fun hf => ?_⟩)
      · by_contra hw
        exact hid (hO.aloneAhead m hm n hn hr hr' hu hs.symm hw)
      · have hk := ne_of_other (hP.rows m hm hr) (hP.hand n hn hr') hr hr' hs hf
        exact hid (hO.same n hn hr' m hm hu hk).symm
  · intro m hm
    rw [hd] at hO
    exact hO.same m hm
  · intro m hm n' hn'
    rw [hd] at hO
    exact hO.aloneAhead m hm n' hn'
  · intro m hm n' hn'
    rw [hd] at hO
    exact hO.aloneHand m hm n' hn'

theorem once_mark (hO : Once rid plan s.store.notifications s.disp s.hist)
    (hP : PlanInv rid plan s) (hH : HandInv s) {n : Notification} {e : String}
    {rest : List Notification} (hd : s.disp = .marking n e rest) {t : NotificationTable}
    (ht : (hasNul e ∧ t = s.store.notifications) ∨
      t = s.store.notifications.markSent s.now n.id e) :
    Once rid plan t (.loop rest) s.hist := by
  have hn : n ∈ s.disp.hand := by rw [hd]; exact List.mem_cons_self ..
  have hrest : ∀ m ∈ rest, m ∈ s.disp.hand := rest_subset_hand (by rw [hd]; rfl)
  -- a row of the rollout that is still unsent was not the one marked
  have hrows : ∀ m ∈ t.rows, m.rolloutId = rid → m.unsent →
      m ∈ s.store.notifications.rows ∧ m.id ≠ n.id := by
    have hempty : ∀ m ∈ s.store.notifications.rows, m.rolloutId = rid → m.id = n.id → e = "" := by
      intro m hm hr hid
      have hk := hH.row n hn m hm hid
      exact hP.marking n e rest hd ((congrArg Prod.fst hk).symm.trans hr)
    intro m hm hr hu
    rcases ht with ⟨hnul, rfl⟩ | rfl
    · refine ⟨hm, fun hid => ?_⟩
      rw [hempty m hm hr hid] at hnul
      exact absurd hnul (by decide)
    · obtain ⟨m₀, hm₀, rfl⟩ := NotificationTable.mem_markSent.mp hm
      have hr₀ : m₀.rolloutId = rid :=
        (congrArg Prod.fst (NotificationTable.markRow_key s.now n.id e m₀)).symm.trans hr
      by_cases hid : m₀.id = n.id
      · rw [hempty m₀ hm₀ hr₀ hid] at hu
        exact absurd hu (NotificationTable.markRow_sent hid)
      · rw [NotificationTable.markRow_of_ne hid]
        exact ⟨hm₀, hid⟩
  have hO' := hO.of_rows (fun m hm hr hu => (hrows m hm hr hu).1) rfl
  refine ⟨hO.out, fun m hm hr => ?_, fun m hm hr hu => Or.inr ?_, fun m hm =>
    hO'.same m (hrest m hm),
    hO'.aloneQueued, fun m hm n' hn' => hO'.aloneAhead m hm n' (hrest n' hn'),
    fun m hm n' hn' => hO'.aloneHand m (hrest m hm) n' (hrest n' hn')⟩
  · exact hO.ahead m (by rw [hd]; exact hm) hr
  · obtain ⟨hm', hne⟩ := hrows m hm hr hu
    rcases hO.queued m hm' hr hu with ⟨n', e', rest', hd', hid⟩ | h
    · rw [hd] at hd'
      simp only [Disp.marking.injEq] at hd'
      rw [hd'.1] at hne
      exact absurd hid.symm hne
    · exact h

/-! ## The reschedule -/

/-- A reschedule that repeats nothing puts nothing in the queue that would. -/
theorem once_reschedule (hO : Once rid plan s.store.notifications s.disp s.hist)
    (hP : PlanInv rid plan s) {ro : Rollout} {created : Bool} {c : Int}
    (hq : Req.clocked ro created c ∈ s.reqs) (hno : ro.id = rid → ¬Repeats rid plan s c) :
    Once rid plan (s.store.notifications.reschedule ro.id (scheduleItems c ro.stages.items)) s.disp
      s.hist := by
  by_cases hro : ro.id = rid
  · have hplan := hP.reqs _ hq hro
    have hwhole := (hP.present (hP.present_of_req hq (congrArg some hro))).2.1
    -- the unsent rows of the rollout are the fresh ones
    have hfresh : ∀ m ∈ (s.store.notifications.reschedule ro.id
        (scheduleItems c ro.stages.items)).rows, m.rolloutId = rid → m.unsent →
        NotificationTable.Fresh rid (scheduleItems c ro.stages.items)
          (s.store.notifications.deleteUnsent rid) m := by
      intro m hm hr hu
      rcases NotificationTable.mem_reschedule hm with ⟨-, hne⟩ | hf
      · exact absurd ⟨hr.trans hro.symm, hu⟩ hne
      · exact hro ▸ hf
    -- what the side condition says of a fresh row
    have hclear : ∀ m ∈ (s.store.notifications.reschedule ro.id
        (scheduleItems c ro.stages.items)).rows, m.rolloutId = rid → m.unsent →
        (Window plan m.stageSeq m.fireAt ∧ c < m.fireAt ∧
          ¬RepeatsWindow rid plan s m.stageSeq m.fireAt) ∨
        (¬Window plan m.stageSeq m.fireAt ∧ ¬RepeatsStage rid s m.stageSeq ∧
          (∀ f, Window plan m.stageSeq f → f ≤ c) ∧ m.fireAt = pgTimestamp (c + second)) := by
      intro m hm hr hu
      obtain ⟨st, hst, -, hcase⟩ := fresh_cases hplan hwhole (hfresh m hm hr hu)
      have hst' : plan[m.stageSeq]? = some st := hst
      have hk : m.stageSeq ∈ List.range plan.length :=
        List.mem_range.mpr (List.getElem?_eq_some_iff.mp hst').1
      rcases hcase with ⟨hw, hlt⟩ | ⟨hw, hpast, hfire⟩
      · obtain ⟨adv, hadv, hfire⟩ := id hw
        refine Or.inl ⟨⟨st, hst, hw⟩, hlt, fun hrep => ?_⟩
        exact hno hro ⟨_, hk, st, hst, Or.inl ⟨adv, hadv, hfire ▸ hlt, hfire ▸ hrep⟩⟩
      · refine Or.inr ⟨hw, fun hrep => ?_, ?_, hfire⟩
        · exact hno hro ⟨_, hk, st, hst, Or.inr ⟨fun adv hadv => hpast _ ⟨adv, hadv, rfl⟩, hrep⟩⟩
        · rintro f ⟨st₂, hst₂, hw₂⟩
          have hst₂' : plan[m.stageSeq]? = some st₂ := hst₂
          rw [hst'] at hst₂'
          obtain rfl := Option.some.inj hst₂'
          exact hpast f hw₂
    refine ⟨hO.out, hO.ahead, fun m hm hr hu => Or.inr fun p hp => ?_,
      fun n hn hr m hm hu hk => ?_, fun m hm n hn hr hr' hu hu' hs hw => ?_,
      fun m hm n hn hr hr' hu hs hw => ?_, hO.aloneHand⟩
    · rcases hclear m hm hr hu with ⟨hw, -, hrep⟩ | ⟨-, hrep, -⟩
      · refine ⟨hw, fun hf => hrep (Or.inr ⟨⟨p, hp, hf⟩, fun n hn => ?_⟩)⟩
        by_cases hun : n.unsent
        · exact Or.inl hun
        · refine Or.inr fun hkey => ?_
          have hF := hfresh m hm hr hu
          have hl := legit_of_fresh hplan hwhole hF
          refine hF.key n (NotificationTable.mem_deleteUnsent.mpr ⟨hn, fun h => hun h.2⟩) ?_
          rw [hkey, key_of_legit hl hr]
      · have hne : stagePosts rid m.stageSeq s.hist = [] := by
          by_contra h
          exact hrep (Or.inr h)
        rw [hne] at hp
        cases hp
    · exfalso
      have hr' : m.rolloutId = rid := (congrArg Prod.fst hk).trans hr
      have hl := legit_of_fresh hplan hwhole (hfresh m hm hr' hu)
      rcases hclear m hm hr' hu with ⟨-, -, hrep⟩ | ⟨-, hrep, -⟩
      · exact hrep (Or.inl ⟨n, hn, hk.symm.trans (key_of_legit hl hr')⟩)
      · exact hrep (Or.inl ⟨n, hn, hr, (congrArg (·.2.stageSeq) hk).symm⟩)
    · rcases hclear m hm hr hu with ⟨hw', -⟩ | ⟨-, -, hpast, hfire⟩
      · exact absurd hw' hw
      rcases hclear n hn hr' hu' with ⟨hw', hlt, -⟩ | ⟨-, -, -, hfire'⟩
      · rw [← hs] at hw'
        have := hpast _ hw'
        omega
      · have hl := legit_of_fresh hplan hwhole (hfresh m hm hr hu)
        have hl' := legit_of_fresh hplan hwhole (hfresh n hn hr' hu')
        exact NotificationTable.eq_of_key hn hm
          (ne_of_other hl' hl hr' hr hs (hfire.trans hfire'.symm))
    · rcases hclear m hm hr hu with ⟨hw', -⟩ | ⟨-, hrep, -⟩
      · exact absurd hw' hw
      · exact absurd (Or.inl ⟨n, hn, hr', hs.symm⟩) hrep
  · refine hO.of_rows (fun m hm hr hu => ?_) rfl
    rcases NotificationTable.mem_reschedule hm with ⟨hm', -⟩ | hf
    · exact hm'
    · exact absurd (hf.rolloutId.symm.trans hr) hro

/-! ## Runs -/

structure NoDupInv (rid : String) (plan : List (String × Int)) (s : Sys) : Prop where
  planned : PlanInv rid plan s
  hand : HandInv s
  once : Once rid plan s.store.notifications s.disp s.hist

/-- **Every step repeats nothing.** -/
theorem noDupInv_step (hI : NoDupInv rid plan s) (hk : Keeps rid plan a)
    (hu : Unrepeating rid plan s a) (h : step s a = some s') : NoDupInv rid plan s' := by
  refine ⟨planInv_step hI.planned hk h, handInv_step hI.hand h, ?_⟩
  have hO := hI.once
  rcases step_disp h with hd | ⟨sorted, rfl⟩ | rfl | ⟨o, rfl⟩ | rfl
  · rw [hd]
    have hposts : posts s'.hist = posts s.hist := by
      refine step_posts h fun o ha => ?_
      subst ha
      obtain ⟨n, r, stage, rest, hd', rfl⟩ := step_announce h
      rw [hd'] at hd
      exact Disp.noConfusion hd
    rcases step_table h with ht | ⟨id, -, ht⟩ | ⟨i, ro, created, c, rfl, hi, ht⟩ |
      ⟨n, e, rest, rfl, hd', -⟩
    · exact hO.of_rows (fun m hm _ _ => ht ▸ hm) hposts
    · refine hO.of_rows (fun m hm _ _ => ?_) hposts
      rw [ht] at hm
      exact (NotificationTable.mem_deleteRollout.mp hm).1
    · have hresch := once_reschedule hO hI.planned (List.mem_of_getElem? hi) (hu _ hi)
      rw [ht]
      exact hresch.of_rows (fun m hm _ _ => hm) hposts
    · obtain ⟨n', e', rest', hd₂, ⟨-, rfl⟩ | rfl⟩ := step_mark h <;>
      · rw [hd'] at hd
        exact Disp.noConfusion hd
  · obtain ⟨hd, hdue, rfl⟩ := step_tick h
    rw [hd] at hO
    exact (once_tick hO hdue).of_rows (fun m hm _ _ => hm) rfl
  · obtain ⟨n, rest, hd, ⟨e, rfl, -⟩ | ⟨r, stage, -, -, rfl⟩⟩ := step_load h
    · rw [hd] at hO
      exact once_skip hO
    · rw [hd] at hO
      exact once_load hO
  · obtain ⟨n, r, stage, rest, hd, rfl⟩ := step_announce h
    obtain rfl : o = none := hk
    exact once_announce hO hI.planned hI.hand hd rfl rfl
  · obtain ⟨n, e, rest, hd, hs'⟩ := step_mark h
    have ht : (hasNul e ∧ s'.store.notifications = s.store.notifications) ∨
        s'.store.notifications = s.store.notifications.markSent s.now n.id e := by
      rcases hs' with ⟨hn, rfl⟩ | rfl
      · exact Or.inl ⟨hn, rfl⟩
      · exact Or.inr rfl
    have hmark := once_mark hO hI.planned hI.hand hd ht
    rcases hs' with ⟨-, rfl⟩ | rfl <;> exact hmark

/-- Of posts that rule each other out there is at most one. -/
theorem countP_le_one {P : Post → Prop} [DecidablePred P] {ps : List Post}
    (h : ps.Pairwise fun p q => P p → ¬P q) : ps.countP (fun p => P p) ≤ 1 := by
  induction ps with
  | nil => simp
  | cons p older ih =>
    obtain ⟨hp, holder⟩ := List.pairwise_cons.mp h
    rw [List.countP_cons]
    by_cases hP : P p
    · have hzero : older.countP (fun q => decide (P q)) = 0 := by
        rw [List.countP_eq_zero]
        intro q hq
        simpa using hp q hq hP
      simp [hzero, hP]
    · simpa [hP] using ih holder

/-- What `Once` says of the posts, counted. -/
theorem nothingRepeated_of_once (hO : Once rid plan s.store.notifications s.disp s.hist) :
    NothingRepeated rid plan s := by
  refine ⟨fun k f _ => ?_, fun k => ?_, fun k newer p older he hw q hq => ?_⟩
  · refine countP_le_one ((hO.out k).imp fun {p q} hpq hp hq => ?_)
    exact hpq.2 (hq.trans hp.symm)
  · refine countP_le_one ((hO.out k).imp fun {p q} hpq hp _ => ?_)
    exact hp hpq.1
  · have := hO.out k
    rw [he, List.pairwise_append] at this
    exact absurd ((List.pairwise_cons.mp this.2.1).1 q hq).1 hw

/-- **No announcement is repeated by an edit that meets none of the two gaps.** -/
theorem no_announcement_repeated {store : Store} {now : Int} {as : List Action}
    (habs : Absent rid store)
    (hrun : system.exec (start store now) as = some s)
    (hkeep : system.Along (fun _ a => Keeps rid plan a) (start store now) as)
    (hsafe : system.Along (Unrepeating rid plan) (start store now) as) :
    NothingRepeated rid plan s := by
  have hI : NoDupInv rid plan s :=
    system.exec_invariant_along
      (fun s a s' hI hG h => noDupInv_step hI hG.1 hG.2 h)
      ⟨planInv_start habs now, handInv_start store now, once_start habs⟩
      (system.along_and hkeep hsafe) hrun
  exact nothingRepeated_of_once hI.once

/-- A stage half an hour out: its only window is past, so it gets a catch-up. -/
def lateRollout : Rollout := sampleRollout "non-prod" (hour / 2)

def latePlan : List (String × Int) := [("non-prod", hour / 2)]

/-- Request `i` writes the rollout, and `id` is the catch-up it enqueues at `c`; two
seconds later a tick sends it. -/
def announceCatchUp (write : Action) (i : Nat) (c : Int) : List Action :=
  [write, .reread i, .clock i, .reschedule i, .wait 2000000000,
    .tick [⟨i, "r1", 0, .TMS_NP, c + second, none, none, 0⟩], .load, .announce none, .mark]

/-- The guarantee is not vacuous: a create, and its catch-up. -/
theorem no_announcement_repeated_catchUp :
    ∃ s, system.exec (start sampleStore 0) (announceCatchUp (.create lateRollout) 0 0) = some s ∧
      NothingRepeated "r1" latePlan s := by
  have hrun : ∃ s, system.exec (start sampleStore 0)
      (announceCatchUp (.create lateRollout) 0 0) = some s ∧ True := by decide +kernel
  obtain ⟨s, hs, -⟩ := hrun
  exact ⟨s, hs, no_announcement_repeated sampleStore_absent hs (by decide +kernel)
    (by decide +kernel)⟩

/-- **Saving an announced rollout once more announces it once more.** -/
theorem catchUp_repeated_by_edit :
    ∃ s, system.exec (start sampleStore 0)
        (announceCatchUp (.create lateRollout) 0 0 ++
          announceCatchUp (.update "r1" lateRollout) 1 (2 * second)) = some s ∧
      system.Along (fun _ a => Keeps "r1" latePlan a) (start sampleStore 0)
        (announceCatchUp (.create lateRollout) 0 0 ++
          announceCatchUp (.update "r1" lateRollout) 1 (2 * second)) ∧
      ¬NothingRepeated "r1" latePlan s := by
  have hrun : ∃ s, system.exec (start sampleStore 0)
      (announceCatchUp (.create lateRollout) 0 0 ++
        announceCatchUp (.update "r1" lateRollout) 1 (2 * second)) = some s ∧
      (stagePosts "r1" 0 s.hist).countP (fun p => ¬Window latePlan 0 p.row.fireAt) = 2 := by
    decide +kernel
  obtain ⟨s, hs, htwo⟩ := hrun
  refine ⟨s, hs, by decide +kernel, fun h => ?_⟩
  have := h.catchUp 0
  omega

end Notify

end ReleaseRadar
