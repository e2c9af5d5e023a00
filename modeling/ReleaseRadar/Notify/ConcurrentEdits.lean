import ReleaseRadar.Notify.Plan

/-!
# Concurrent edits of one rollout

`updateRollout` commits the stage list, reads the rollout back and replaces the
rollout's queue, in three transactions. The queue that stays is the one of the
request that reschedules last, and that request wrote the schedule of the list it
had read back (`queue_of_last`), which another request may have overwritten in
between (`stale_schedule_left`).

`right_schedule_iff`: the queue is the one the stored stage list calls for if and
only if the last reschedule was computed from a list that calls for the same
announcements at its clock.
-/

namespace ReleaseRadar

open Lib Repository

namespace Notify

variable {rid : String} {s s' : Sys} {a : Action}

/-- The steps of `updateRollout` requests, and time. -/
def Editing : Action → Prop
  | .wait _ | .update _ _ | .reread _ | .clock _ | .reschedule _ => True
  | _ => False

instance : (a : Action) → Decidable (Editing a)
  | .wait _ | .update _ _ | .reread _ | .clock _ | .reschedule _ => isTrue trivial
  | .create _ | .delete _ | .tick _ | .load | .announce _ | .mark => isFalse nofun

/-- Two stage lists call for the same announcements at clock `c`: as many stages, and
stage by stage the same channel and the same times. -/
def CallAlike (c : Int) (A B : List (String × Int)) : Prop :=
  A.length = B.length ∧ ∀ k : Nat, ∀ a ∈ A[k]?, ∀ b ∈ B[k]?,
    channelFor a.1 = channelFor b.1 ∧ ∀ f, FiresAt c a f ↔ FiresAt c b f

/-- The rollout's queue is the one its stored stage list calls for at clock `c`. -/
def RightSchedule (rid : String) (c : Int) (s : Sys) : Prop :=
  ∀ it, s.store.notifications.Queues rid it ↔
    ∃ it' ∈ scheduleItems c (stagesOf s.store rid), it = it'.stored

/-- **Two lists give the same queue just when they call for the same announcements.** -/
theorem same_schedule_iff {c : Int} {A B : List RolloutStage} (hA : Whole A) (hB : Whole B) :
    (∀ it : ScheduledNotification, (∃ it' ∈ scheduleItems c A, it = it'.stored) ↔
      ∃ it' ∈ scheduleItems c B, it = it'.stored) ↔ CallAlike c (planOf A) (planOf B) := by
  simp only [stored_mem_scheduleItems hA, stored_mem_scheduleItems hB]
  constructor
  · intro h
    -- a stage of one list has an item, so the other list has a stage there
    have hlt : ∀ {P Q : List (String × Int)}, (∀ it : ScheduledNotification,
        (∃ st ∈ P[it.stageSeq]?, it.channel = channelFor st.1 ∧ FiresAt c st it.fireAt) →
        ∃ st ∈ Q[it.stageSeq]?, it.channel = channelFor st.1 ∧ FiresAt c st it.fireAt) →
        P.length ≤ Q.length := by
      intro P Q hPQ
      by_contra hlen
      have hk : Q.length < P.length := by omega
      obtain ⟨f, hf⟩ := exists_firesAt c P[Q.length]
      obtain ⟨st, hst, -⟩ := hPQ ⟨Q.length, channelFor P[Q.length].1, f⟩
        ⟨P[Q.length], List.getElem?_eq_getElem hk, rfl, hf⟩
      have hst' : Q[Q.length]? = some st := hst
      rw [List.getElem?_eq_none (Nat.le_refl _)] at hst'
      cases hst'
    refine ⟨Nat.le_antisymm (hlt fun it => (h it).mp) (hlt fun it => (h it).mpr), ?_⟩
    intro k a ha b hb
    have ha' : (planOf A)[k]? = some a := ha
    have hb' : (planOf B)[k]? = some b := hb
    have hchannel : channelFor a.1 = channelFor b.1 := by
      obtain ⟨f, hf⟩ := exists_firesAt c a
      obtain ⟨st, hst, hc, -⟩ := (h ⟨k, channelFor a.1, f⟩).mp ⟨a, ha, rfl, hf⟩
      obtain rfl : b = st := Option.some.inj (hb'.symm.trans hst)
      exact hc
    refine ⟨hchannel, fun f => ⟨fun hf => ?_, fun hf => ?_⟩⟩
    · obtain ⟨st, hst, -, hf'⟩ := (h ⟨k, channelFor a.1, f⟩).mp ⟨a, ha, rfl, hf⟩
      obtain rfl : b = st := Option.some.inj (hb'.symm.trans hst)
      exact hf'
    · obtain ⟨st, hst, -, hf'⟩ := (h ⟨k, channelFor b.1, f⟩).mpr ⟨b, hb, rfl, hf⟩
      obtain rfl : a = st := Option.some.inj (ha'.symm.trans hst)
      exact hf'
  · intro h it
    obtain ⟨hlen, hcall⟩ := h
    constructor
    · intro hit
      obtain ⟨a, ha, hc, hf⟩ := hit
      have hk : it.stageSeq < (planOf B).length := by
        rw [← hlen]
        exact (List.getElem?_eq_some_iff.mp ha).1
      obtain ⟨hch, hfires⟩ := hcall it.stageSeq a ha _ (List.getElem?_eq_getElem hk)
      exact ⟨_, List.getElem?_eq_getElem hk, hc.trans hch, (hfires _).mp hf⟩
    · intro hit
      obtain ⟨b, hb, hc, hf⟩ := hit
      have hk : it.stageSeq < (planOf A).length := by
        rw [hlen]
        exact (List.getElem?_eq_some_iff.mp hb).1
      obtain ⟨hch, hfires⟩ := hcall it.stageSeq _ (List.getElem?_eq_getElem hk) b hb
      exact ⟨_, List.getElem?_eq_getElem hk, hc.trans hch.symm, (hfires _).mpr hf⟩

/-! ## The invariant -/

/-- An update of `rid` has committed. -/
def Touched (rid : String) (hist : List Event) : Prop := ∃ i, Event.committed i rid ∈ hist

theorem Touched.cons {hist : List Event} (h : Touched rid hist) (e : Event) :
    Touched rid (e :: hist) := by
  obtain ⟨i, hi⟩ := h
  exact ⟨i, List.mem_cons_of_mem _ hi⟩

/-- An event that is no commit of the rollout is not the one. -/
theorem Touched.tail {hist : List Event} {e : Event} (h : Touched rid (e :: hist))
    (he : ∀ i, Event.committed i rid ≠ e) : Touched rid hist := by
  obtain ⟨i, hi⟩ := h
  exact ⟨i, (List.mem_cons.mp hi).resolve_left (he i)⟩

/-- What a request about `rid` has read comes from a committed update, and its clock
reading is not from before `now₀`. -/
def Req.Sound (rid : String) (now₀ : Int) (hist : List Event) : Req → Prop
  | .committed id _ => id = rid → Touched rid hist
  | .reread ro _ => ro.id = rid → Touched rid hist ∧ Whole ro.stages.items
  | .clocked ro _ c => (ro.id = rid → Touched rid hist ∧ Whole ro.stages.items) ∧ now₀ ≤ c
  | .done => True

/-- Runs of edits from the instant `now₀` on: the queue is the last reschedule's. -/
structure EditInv (rid : String) (now₀ : Int) (s : Sys) : Prop where
  now : now₀ ≤ s.now
  sent : ∀ n ∈ s.store.notifications.rows, n.rolloutId = rid → ¬n.unsent → n.fireAt ≤ now₀
  stored : Touched rid s.hist → Whole (stagesOf s.store rid)
  reqs : ∀ q ∈ s.reqs, q.Sound rid now₀ s.hist
  last : ∀ c stages, lastReschedule rid s.hist = some (c, stages) →
    Touched rid s.hist ∧ Whole stages ∧
    ∀ it, s.store.notifications.Queues rid it ↔ ∃ it' ∈ scheduleItems c stages, it = it'.stored

/-- It holds where nothing unsent is to come. -/
theorem editInv_start {store : Store} {now : Int} (h : SentPast (start store now)) :
    EditInv rid now (start store now) where
  now := Int.le_refl _
  sent n hn _ hs := h.rows n hn hs
  stored ht := absurd ht.choose_spec List.not_mem_nil
  reqs _ hq := absurd hq List.not_mem_nil
  last _ _ hl := absurd hl (by simp [lastReschedule, start])

/-- A stored list is at database resolution. -/
theorem whole_stored (sts : List RolloutStage) : Whole (sts.map storedStage) := storedStage_whole

theorem Req.Sound.mono {now₀ : Int} {hist hist' : List Event} {q : Req}
    (h : q.Sound rid now₀ hist) (hsub : hist ⊆ hist') : q.Sound rid now₀ hist' := by
  have ht : Touched rid hist → Touched rid hist' := fun ⟨i, hi⟩ => ⟨i, hsub hi⟩
  cases q with
  | committed id created => exact fun he => ht (h he)
  | reread ro created => exact fun he => ⟨ht (h he).1, (h he).2⟩
  | clocked ro created c => exact ⟨fun he => ⟨ht (h.1 he).1, (h.1 he).2⟩, h.2⟩
  | done => trivial

/-- An event that is neither a reschedule nor a commit of the rollout does not count. -/
private theorem editInv_push {now₀ : Int} (hI : EditInv rid now₀ s) {reqs : List Req} {e : Event}
    (hreqs : ∀ q ∈ reqs, q.Sound rid now₀ (e :: s.hist))
    (hlast : lastReschedule rid (e :: s.hist) = lastReschedule rid s.hist)
    (he : ∀ i, Event.committed i rid ≠ e) :
    EditInv rid now₀ { s with reqs := reqs, hist := e :: s.hist } := by
  refine ⟨hI.now, hI.sent, fun ht => hI.stored (ht.tail he), hreqs, fun c stages hl => ?_⟩
  rw [hlast] at hl
  obtain ⟨ht, hrest⟩ := hI.last c stages hl
  exact ⟨ht.cons e, hrest⟩

/-- An update leaves the table to its reschedule. -/
private theorem editInv_update {now₀ : Int} (hI : EditInv rid now₀ s) (id : String) (ro : Rollout) :
    EditInv rid now₀ { s with
      store := applyUpdate s.now { ro with id := id } s.store
      reqs := s.reqs ++ [.committed id false]
      hist := .committed s.reqs.length id :: s.hist } := by
  have hsub : s.hist ⊆ .committed s.reqs.length id :: s.hist := List.subset_cons_self _ _
  refine ⟨hI.now, hI.sent, fun ht => ?_,
    forall_append (fun q hq => (hI.reqs q hq).mono hsub) fun he => ?_, fun c stages hl => ?_⟩
  · by_cases hid : id = rid
    · subst hid
      have h := stagesOf_applyUpdate s.now { ro with id := id } s.store
      rw [show stagesOf (applyUpdate s.now { ro with id := id } s.store) id = _ from h]
      exact whole_stored _
    · rw [stagesOf_applyUpdate_ne _ _ (Ne.symm hid)]
      exact hI.stored (ht.tail fun i he => hid (by cases he; rfl))
  · exact ⟨s.reqs.length, by rw [← he]; exact List.mem_cons_self ..⟩
  · obtain ⟨ht, hrest⟩ := hI.last c stages hl
    exact ⟨ht.cons _, hrest⟩

/-- The reschedule writes what its request has read. -/
private theorem editInv_reschedule {now₀ : Int} (hI : EditInv rid now₀ s) {i : Nat} {ro : Rollout}
    {created : Bool} {c : Int} (hi : s.reqs[i]? = some (.clocked ro created c)) :
    EditInv rid now₀ { s with
      store := { s.store with
        notifications := s.store.notifications.reschedule ro.id
          (scheduleItems c ro.stages.items) }
      reqs := s.reqs.set i .done
      hist := .rescheduled i ro.id created c ro.stages.items :: s.hist } := by
  have hsub : s.hist ⊆ .rescheduled i ro.id created c ro.stages.items :: s.hist :=
    List.subset_cons_self _ _
  have hq := hI.reqs _ (List.mem_of_getElem? hi)
  refine ⟨hI.now, fun n hn hr hs => ?_, fun ht => hI.stored (ht.tail (by nofun)),
    forall_set (fun q hq => (hI.reqs q hq).mono hsub) trivial, fun c' stages hl => ?_⟩
  · rcases NotificationTable.mem_reschedule hn with ⟨hn', -⟩ | hf
    · exact hI.sent n hn' hr hs
    · exact absurd (by simp [Notification.unsent, hf.sentAt]) hs
  · by_cases hro : ro.id = rid
    · subst hro
      obtain ⟨rfl, rfl⟩ : c = c' ∧ ro.stages.items = stages := by
        simpa [lastReschedule] using hl
      obtain ⟨⟨ht, hw⟩, hc⟩ := hq.1 rfl, hq.2
      refine ⟨ht.cons _, hw, NotificationTable.queues_reschedule ?_⟩
      intro n hn hr hs
      exact sent_not_item hw (Int.le_trans (hI.sent n hn hr hs) hc)
    · have hl' : lastReschedule rid s.hist = some (c', stages) := by
        simpa [lastReschedule, hro] using hl
      obtain ⟨ht, hw, hqueue⟩ := hI.last c' stages hl'
      refine ⟨ht.cons _, hw, fun it => ?_⟩
      rw [← hqueue it]
      exact NotificationTable.queues_reschedule_ne (Ne.symm hro)

/-- Every step of the editors keeps it. -/
theorem editInv_step {now₀ : Int} (hI : EditInv rid now₀ s) (ha : Editing a)
    (h : step s a = some s') : EditInv rid now₀ s' := by
  -- a request that ends changes nothing that matters
  have hdone : ∀ i, EditInv rid now₀ { s with reqs := s.reqs.set i .done } := fun i =>
    ⟨hI.now, hI.sent, hI.stored, forall_set hI.reqs trivial, hI.last⟩
  have hmono : ∀ e : Event, ∀ q ∈ s.reqs, q.Sound rid now₀ (e :: s.hist) := fun e q hq =>
    (hI.reqs q hq).mono (List.subset_cons_self _ _)
  cases a with
  | wait d =>
    have hnow := Int.le_trans hI.now (step_now h)
    obtain rfl := Option.some.inj h
    exact ⟨hnow, hI.sent, hI.stored, hI.reqs, hI.last⟩
  | update id ro =>
    rcases step_update h with rfl | ⟨-, -, rfl⟩
    · exact ⟨hI.now, hI.sent, hI.stored, forall_append hI.reqs trivial, hI.last⟩
    · exact editInv_update hI id ro
  | reread i =>
    obtain ⟨id, created, hi, ⟨rfl, -⟩ | ⟨r, -, hid, rfl⟩⟩ := step_reread h
    · exact hdone i
    · refine editInv_push hI (forall_set (hmono _) fun he => ?_) rfl (by nofun)
      have he' : r.id = rid := he
      have ht : Touched rid s.hist := hI.reqs _ (List.mem_of_getElem? hi) (hid.symm.trans he')
      refine ⟨ht.cons _, ?_⟩
      show Whole (stagesOf s.store r.id)
      rw [he']
      exact hI.stored ht
  | clock i =>
    obtain ⟨ro, created, hi, rfl⟩ := step_clock h
    refine editInv_push hI (forall_set (hmono _) ⟨fun he => ?_, hI.now⟩) rfl (by nofun)
    have hq := hmono (.clocked i ro.id created s.now) _ (List.mem_of_getElem? hi)
    exact hq he
  | reschedule i =>
    obtain ⟨ro, created, clock, hi, ⟨rfl, -⟩ | rfl⟩ := step_reschedule h
    · exact hdone i
    · exact editInv_reschedule hI hi
  | create ro => exact ha.elim
  | delete id => exact ha.elim
  | tick sorted => exact ha.elim
  | load => exact ha.elim
  | announce outcome => exact ha.elim
  | mark => exact ha.elim

/-! ## Every committed edit reschedules -/

/-- A committed update is still under way, or the rollout has been rescheduled. -/
structure AnsweredInv (rid : String) (s : Sys) : Prop where
  present : Touched rid s.hist → s.store.hasRollout rid = true ∧ hasNul rid = false
  answered : ∀ i, Event.committed i rid ∈ s.hist →
    (∃ q, s.reqs[i]? = some q ∧ q.about = some rid) ∨ lastReschedule rid s.hist ≠ none

theorem lastReschedule_cons {e : Event} {hist : List Event} (h : lastReschedule rid hist ≠ none) :
    lastReschedule rid (e :: hist) ≠ none := by
  simp only [lastReschedule, List.findSome?_cons] at h ⊢
  split
  · exact Option.some_ne_none _
  · exact h

/-- Replacing a slot by a request about the same rollout keeps every slot's. -/
private theorem slot_set {α : Type} {P : α → Prop} {l : List α} {i j : Nat} {x y : α}
    (hj : ∃ q, l[j]? = some q ∧ P q) (hi : l[i]? = some x) (hxy : P x → P y) :
    ∃ q, (l.set i y)[j]? = some q ∧ P q := by
  obtain ⟨q, hq, hP⟩ := hj
  by_cases hij : i = j
  · subst hij
    obtain rfl : x = q := Option.some.inj (hi.symm.trans hq)
    refine ⟨y, ?_, hxy hP⟩
    rw [List.getElem?_set_self (List.getElem?_eq_some_iff.mp hi).1]
  · exact ⟨q, by rw [List.getElem?_set_ne hij]; exact hq, hP⟩

private theorem slot_append {α : Type} {P : α → Prop} {l : List α} {j : Nat} {x : α}
    (hj : ∃ q, l[j]? = some q ∧ P q) : ∃ q, (l ++ [x])[j]? = some q ∧ P q := by
  obtain ⟨q, hq, hP⟩ := hj
  refine ⟨q, ?_, hP⟩
  rw [List.getElem?_append_left (List.getElem?_eq_some_iff.mp hq).1]
  exact hq

/-- Nothing is answered at the start. -/
theorem answeredInv_start (store : Store) (now : Int) : AnsweredInv rid (start store now) where
  present ht := absurd ht.choose_spec List.not_mem_nil
  answered _ hc := absurd hc List.not_mem_nil

/-- What is answered has rescheduled. -/
theorem answeredInv_step (hI : AnsweredInv rid s) (ha : Editing a) (h : step s a = some s') :
    AnsweredInv rid s' := by
  cases a with
  | wait d =>
    obtain rfl := Option.some.inj h
    exact ⟨hI.present, hI.answered⟩
  | update id ro =>
    rcases step_update h with rfl | ⟨hhas, hnul, rfl⟩
    · exact ⟨hI.present, fun i hc => (hI.answered i hc).imp_left slot_append⟩
    · refine ⟨fun ht => ?_, fun i hc => ?_⟩
      · rw [hasRollout_applyUpdate]
        obtain ⟨i, hi⟩ := ht
        rcases List.mem_cons.mp hi with he | hi
        · cases he
          exact ⟨hhas, hnul⟩
        · exact hI.present ⟨i, hi⟩
      · rcases List.mem_cons.mp hc with he | hc
        · cases he
          exact Or.inl ⟨_, List.getElem?_concat_length, rfl⟩
        · exact (hI.answered i hc).imp slot_append lastReschedule_cons
  | reread i =>
    obtain ⟨id, created, hi, ⟨rfl, hwhy⟩ | ⟨r, -, hid, rfl⟩⟩ := step_reread h
    · refine ⟨hI.present, fun j hc => (hI.answered j hc).imp_left fun hj => ?_⟩
      obtain ⟨hhas, hnul⟩ := hI.present ⟨j, hc⟩
      refine slot_set hj hi fun he => ?_
      -- the rollout of a committed update is there to be read back
      obtain rfl : id = rid := Option.some.inj he
      rw [hhas, hnul] at hwhy
      simp at hwhy
    · refine ⟨fun ht => hI.present ?_, fun j hc => ?_⟩
      · obtain ⟨j, hj⟩ := ht
        exact ⟨j, by simpa using hj⟩
      · refine (hI.answered j (by simpa using hc)).imp (fun hj => ?_) lastReschedule_cons
        refine slot_set hj hi fun he => ?_
        rw [← Option.some.inj he, ← hid]
        rfl
  | clock i =>
    obtain ⟨ro, created, hi, rfl⟩ := step_clock h
    refine ⟨fun ht => hI.present ?_, fun j hc => ?_⟩
    · obtain ⟨j, hj⟩ := ht
      exact ⟨j, by simpa using hj⟩
    · exact (hI.answered j (by simpa using hc)).imp (fun hj => slot_set hj hi fun he => he)
        lastReschedule_cons
  | reschedule i =>
    obtain ⟨ro, created, clock, hi, ⟨rfl, hwhy⟩ | rfl⟩ := step_reschedule h
    · refine ⟨hI.present, fun j hc => (hI.answered j hc).imp_left fun hj => ?_⟩
      obtain ⟨hhas, hnul⟩ := hI.present ⟨j, hc⟩
      refine slot_set hj hi fun he => ?_
      rw [Option.some.inj he, hhas, hnul] at hwhy
      simp at hwhy
    · refine ⟨fun ht => hI.present ?_, fun j hc => ?_⟩
      · obtain ⟨j, hj⟩ := ht
        exact ⟨j, by simpa using hj⟩
      · by_cases hro : ro.id = rid
        · exact Or.inr (by simp [lastReschedule, hro])
        · refine (hI.answered j (by simpa using hc)).imp (fun hj => ?_) lastReschedule_cons
          exact slot_set hj hi fun he => absurd (Option.some.inj he) hro
  | create ro => exact ha.elim
  | delete id => exact ha.elim
  | tick sorted => exact ha.elim
  | load => exact ha.elim
  | announce outcome => exact ha.elim
  | mark => exact ha.elim

/-! ## The queue after concurrent edits -/

/-- **When all requests have completed, the queue is the one of the request that
rescheduled last.** -/
theorem queue_of_last {now₀ c : Int} {stages : List RolloutStage} (hI : EditInv rid now₀ s)
    (hlast : lastReschedule rid s.hist = some (c, stages)) :
    RightSchedule rid c s ↔ CallAlike c (planOf stages) (planOf (stagesOf s.store rid)) := by
  obtain ⟨ht, hw, hqueue⟩ := hI.last c stages hlast
  rw [← same_schedule_iff hw (hI.stored ht)]
  unfold RightSchedule
  constructor
  · intro h it
    rw [← hqueue it]
    exact h it
  · intro h it
    rw [hqueue it]
    exact h it

/-- **Concurrent edits leave the right schedule if and only if the last reschedule was
computed from a list that calls for the same announcements as the stored one.** The
run starts in any state in which no row was sent before its time; updates that fail
and updates of other rollouts may be among the requests. -/
theorem right_schedule_iff {store : Store} {now : Int} {as : List Action}
    (hsent : SentPast (start store now))
    (hrun : system.exec (start store now) as = some s)
    (hedit : system.Along (fun _ a => Editing a) (start store now) as)
    (hdone : ∀ q ∈ s.reqs, q = .done) (htouched : Touched rid s.hist) :
    ∃ c stages, lastReschedule rid s.hist = some (c, stages) ∧
      (RightSchedule rid c s ↔ CallAlike c (planOf stages) (planOf (stagesOf s.store rid))) := by
  have hI : EditInv rid now s :=
    system.exec_invariant_along (fun s a s' hI ha h => editInv_step hI ha h)
      (editInv_start hsent) hedit hrun
  have hA : AnsweredInv rid s :=
    system.exec_invariant_along (fun s a s' hI ha h => answeredInv_step hI ha h)
      (answeredInv_start store now) hedit hrun
  obtain ⟨i, hi⟩ := htouched
  rcases hA.answered i hi with ⟨q, hq, habout⟩ | hne
  · rw [hdone q (List.mem_of_getElem? hq)] at habout
    cases habout
  · obtain ⟨⟨c, stages⟩, hlast⟩ := Option.ne_none_iff_exists'.mp hne
    exact ⟨c, stages, hlast, queue_of_last hI hlast⟩

/-! ## A stale schedule -/

/-- The sample rollout is stored, with one stage in `env`. -/
def editedStore (env : String) (startAt : Int) : Store :=
  applyCreate 0 (sampleRollout env startAt) [] sampleStore

/-- Two edits: the first reads its list back before the second commits, and
reschedules after it. -/
def crossedEdits (first second : Int) : List Action :=
  [.update "r1" (sampleRollout "non-prod" first), .reread 0,
    .update "r1" (sampleRollout "non-prod" second), .reread 1, .clock 1, .reschedule 1,
    .clock 0, .reschedule 0]

/-- The guarantee is not vacuous: both edits store the same start. -/
theorem right_schedule_iff_same :
    ∃ s, system.exec (start (editedStore "non-prod" 0) 0) (crossedEdits (5 * hour) (5 * hour))
        = some s ∧
      ∃ c stages, lastReschedule "r1" s.hist = some (c, stages) ∧
        (RightSchedule "r1" c s ↔
          CallAlike c (planOf stages) (planOf (stagesOf s.store "r1"))) := by
  have hrun : ∃ s, system.exec (start (editedStore "non-prod" 0) 0)
      (crossedEdits (5 * hour) (5 * hour)) = some s ∧
      ((∀ q ∈ s.reqs, q = .done) ∧ Event.committed 0 "r1" ∈ s.hist) := by decide +kernel
  obtain ⟨s, hs, hdone, hc⟩ := hrun
  exact ⟨s, hs, right_schedule_iff ⟨by decide, by decide⟩ hs (by decide +kernel)
    hdone ⟨0, hc⟩⟩

/-- **The announcement of an overwritten start stays in the queue.** Both edits have
completed, the second one's start is stored, and the queue has the first one's. -/
theorem stale_schedule_left :
    ∃ s, system.exec (start (editedStore "non-prod" 0) 0) (crossedEdits (5 * hour) (9 * hour))
        = some s ∧
      system.Along (fun _ a => Editing a) (start (editedStore "non-prod" 0) 0)
        (crossedEdits (5 * hour) (9 * hour)) ∧
      (∀ q ∈ s.reqs, q = .done) ∧
      s.store.notifications.Queues "r1" ⟨0, .TMS_NP, 4 * hour⟩ ∧
      planOf (stagesOf s.store "r1") = [("non-prod", 9 * hour)] ∧
      ∀ c, ¬RightSchedule "r1" c s := by
  have hrun : ∃ s, system.exec (start (editedStore "non-prod" 0) 0)
      (crossedEdits (5 * hour) (9 * hour)) = some s ∧
      ((∀ q ∈ s.reqs, q = .done) ∧
        (∃ n ∈ s.store.notifications.rows, n.rolloutId = "r1" ∧ n.unsent ∧
          n.item = ⟨0, .TMS_NP, 4 * hour⟩) ∧
        planOf (stagesOf s.store "r1") = [("non-prod", 9 * hour)] ∧
        ∀ st ∈ stagesOf s.store "r1", pgTimestamp st.startAt = st.startAt) := by decide +kernel
  obtain ⟨s, hs, hdone, hq, hplan, hw⟩ := hrun
  refine ⟨s, hs, by decide +kernel, hdone, hq, hplan, fun c hright => ?_⟩
  -- the stored start announces at 8 h, or after it
  obtain ⟨st, hst, -, hfire⟩ := (stored_mem_scheduleItems hw).mp ((hright _).mp hq)
  have hst' : (planOf (stagesOf s.store "r1"))[0]? = some st := hst
  rw [hplan] at hst'
  obtain rfl := Option.some.inj hst'
  have hwin : IsWindow "non-prod" (9 * hour) (8 * hour) := by decide
  rcases hfire with ⟨hw, -⟩ | ⟨hpast, hf⟩
  · exact absurd hw (by decide)
  · have hlate := hpast _ hwin
    have hfloor := lt_pgTimestamp (c + second)
    simp only [hour, second] at hlate hfloor hf
    omega

end Notify

end ReleaseRadar
