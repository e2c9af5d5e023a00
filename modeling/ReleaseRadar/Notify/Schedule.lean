import Mathlib.Data.List.Sigma
import ReleaseRadar.Store.Notifications

/-!
# Which announcements a stage list calls for

The computation in `scheduleNotifications` (`backend/internal/api/handlers.go`):
each stage gets one row per advance window of its env that is still in the
future, and a single catch-up row one second from now when none is.

`mem_stageItems` characterises the rows of one stage; everything the
notification proofs need of the schedule is derived from it. A stage is
represented by the two columns the schedule depends on, its env and its start
(`planOf`). `stored_mem_scheduleItems` is the schedule as it stands in the queue.
-/

namespace ReleaseRadar

open NotificationTable

/-- The channel of an env and its advance windows. -/
def announcePolicy (env : String) : Channel × List Int :=
  match env with
  | "non-prod" => (.TMS_NP, [hour])
  | "prod1" => (.TMS_PROD, [7 * 24 * hour, 24 * hour, hour])
  | "prod2" => (.TMS_PROD, [14 * 24 * hour, 7 * 24 * hour, hour])
  | _ => (.TMS_PROD, [hour])

def channelFor (env : String) : Channel := (announcePolicy env).1
def advancesFor (env : String) : List Int := (announcePolicy env).2

/-- The rows for the stage at index `i`. -/
def stageItems (now : Int) (i : Nat) (env : String) (startAt : Int) :
    List ScheduledNotification :=
  let fireTimes := (advancesFor env).map fun adv => startAt - adv
  let scheduled := fireTimes.filter fun fireAt => decide (now < fireAt)
  if scheduled.isEmpty then [⟨i, channelFor env, now + second⟩]
  else scheduled.map fun fireAt => ⟨i, channelFor env, fireAt⟩

/-- The rows `scheduleNotifications` computes from a rollout's stages. -/
def scheduleItems (now : Int) (stages : List RolloutStage) : List ScheduledNotification :=
  stages.zipIdx.flatMap fun st => stageItems now st.2 st.1.env st.1.startAt

/-- Env and start of each stage: what the schedule depends on. -/
def planOf (stages : List RolloutStage) : List (String × Int) :=
  stages.map fun st => (st.env, st.startAt)

/-- `fireAt` is the fire time of one of the stage's advance windows. -/
def IsWindow (env : String) (startAt fireAt : Int) : Prop :=
  ∃ adv ∈ advancesFor env, fireAt = startAt - adv

instance (env : String) (startAt fireAt : Int) : Decidable (IsWindow env startAt fireAt) :=
  inferInstanceAs (Decidable (∃ adv ∈ advancesFor env, fireAt = startAt - adv))

/-- Every window of the stage is past at `now`. -/
def AllPast (now : Int) (env : String) (startAt : Int) : Prop :=
  ∀ fireAt, IsWindow env startAt fireAt → fireAt ≤ now

/-- **The rows of one stage**: the windows after `now`, or the catch-up. -/
theorem mem_stageItems {now : Int} {i : Nat} {env : String} {startAt : Int}
    {it : ScheduledNotification} :
    it ∈ stageItems now i env startAt ↔
      it.stageSeq = i ∧ it.channel = channelFor env ∧
        ((IsWindow env startAt it.fireAt ∧ now < it.fireAt) ∨
          (it.fireAt = now + second ∧ AllPast now env startAt)) := by
  have hmem : ∀ f, f ∈ ((advancesFor env).map fun adv => startAt - adv).filter
      (fun fireAt => decide (now < fireAt)) ↔ IsWindow env startAt f ∧ now < f := by
    intro f
    simp only [List.mem_filter, List.mem_map, decide_eq_true_eq, IsWindow]
    constructor
    · rintro ⟨⟨adv, ha, rfl⟩, hf⟩
      exact ⟨⟨adv, ha, rfl⟩, hf⟩
    · rintro ⟨⟨adv, ha, rfl⟩, hf⟩
      exact ⟨⟨adv, ha, rfl⟩, hf⟩
  obtain ⟨seq, channel, fireAt⟩ := it
  simp only [stageItems]
  split
  · next he =>
    have hpast : AllPast now env startAt := by
      intro f hf
      by_contra hlt
      have := (hmem f).mpr ⟨hf, by omega⟩
      rw [List.isEmpty_iff.mp he] at this
      cases this
    simp only [List.mem_singleton, ScheduledNotification.mk.injEq]
    constructor
    · rintro ⟨rfl, rfl, rfl⟩
      exact ⟨rfl, rfl, Or.inr ⟨rfl, hpast⟩⟩
    · rintro ⟨rfl, rfl, ⟨hw, hlt⟩ | ⟨rfl, -⟩⟩
      · have := hpast fireAt hw
        omega
      · exact ⟨rfl, rfl, rfl⟩
  · next he =>
    simp only [List.mem_map, hmem, ScheduledNotification.mk.injEq]
    constructor
    · rintro ⟨f, hf, rfl, rfl, rfl⟩
      exact ⟨rfl, rfl, Or.inl hf⟩
    · rintro ⟨rfl, rfl, hf | ⟨rfl, hpast⟩⟩
      · exact ⟨fireAt, hf, rfl, rfl, rfl⟩
      · exfalso
        apply he
        rw [List.isEmpty_iff, List.eq_nil_iff_forall_not_mem]
        intro f hf
        obtain ⟨hw, hlt⟩ := (hmem f).mp hf
        have := hpast f hw
        omega

theorem mem_scheduleItems {now : Int} {stages : List RolloutStage} {it : ScheduledNotification} :
    it ∈ scheduleItems now stages ↔
      ∃ env startAt, (planOf stages)[it.stageSeq]? = some (env, startAt) ∧
        it ∈ stageItems now it.stageSeq env startAt := by
  unfold scheduleItems planOf
  simp only [List.mem_flatMap, List.getElem?_map, Option.map_eq_some_iff, Prod.mk.injEq]
  constructor
  · rintro ⟨⟨st, i⟩, hst, hit⟩
    have hi := (mem_stageItems.mp hit).1
    rw [List.mem_zipIdx_iff_getElem?] at hst
    exact ⟨st.env, st.startAt, ⟨st, by rw [hi]; exact hst, rfl, rfl⟩, by rw [hi]; exact hit⟩
  · rintro ⟨env, startAt, ⟨st, hst, rfl, rfl⟩, hit⟩
    exact ⟨(st, it.stageSeq), List.mem_zipIdx_iff_getElem?.mpr hst, hit⟩

/-- Every row fires after the clock reading it was computed at. -/
theorem lt_of_mem_scheduleItems {now : Int} {stages : List RolloutStage}
    {it : ScheduledNotification} (h : it ∈ scheduleItems now stages) : now < it.fireAt := by
  obtain ⟨env, startAt, -, hit⟩ := mem_scheduleItems.mp h
  rcases (mem_stageItems.mp hit).2.2 with ⟨-, hlt⟩ | ⟨hf, -⟩
  · exact hlt
  · rw [hf]
    unfold second
    omega

/-- Every stage gets a row. -/
theorem stageItems_nonempty (now : Int) (i : Nat) (env : String) (startAt : Int) :
    ∃ it, it ∈ stageItems now i env startAt := by
  by_cases h : ∃ f, IsWindow env startAt f ∧ now < f
  · obtain ⟨f, hf⟩ := h
    exact ⟨⟨i, channelFor env, f⟩, mem_stageItems.mpr ⟨rfl, rfl, Or.inl hf⟩⟩
  · refine ⟨⟨i, channelFor env, now + second⟩, mem_stageItems.mpr ⟨rfl, rfl, Or.inr ⟨rfl, ?_⟩⟩⟩
    intro f hf
    by_contra hlt
    exact h ⟨f, hf, by omega⟩

/-! ## Database resolution -/

theorem advancesFor_whole {env : String} {adv : Int} (h : adv ∈ advancesFor env) :
    adv % 1000 = 0 := by
  unfold advancesFor announcePolicy at h
  have : (hour : Int) % 1000 = 0 := by decide
  split at h <;> simp only [List.mem_cons, List.not_mem_nil, or_false] at h <;> omega

/-- A window of a stored start is stored as it is. -/
theorem IsWindow.stored {env : String} {startAt fireAt : Int} (h : IsWindow env startAt fireAt)
    (hs : pgTimestamp startAt = startAt) : pgTimestamp fireAt = fireAt := by
  obtain ⟨adv, ha, rfl⟩ := h
  have := advancesFor_whole ha
  unfold pgTimestamp at hs ⊢
  omega

/-- A stored catch-up row still fires after every window of its stage. -/
theorem AllPast.lt_catchUp {now : Int} {env : String} {startAt : Int}
    (h : AllPast now env startAt) {fireAt : Int} (hf : IsWindow env startAt fireAt) :
    fireAt < pgTimestamp (now + second) := by
  have h₁ := h fireAt hf
  have h₂ := lt_pgTimestamp (now + second)
  unfold second at h₂ ⊢
  omega

/-! ## One row for each -/

theorem advancesFor_nodup (env : String) : (advancesFor env).Nodup := by
  unfold advancesFor announcePolicy
  split <;> decide

theorem stageItems_nodup (now : Int) (i : Nat) (env : String) (startAt : Int) :
    (stageItems now i env startAt).Nodup := by
  simp only [stageItems]
  split
  · exact List.nodup_singleton _
  · apply List.Nodup.map (fun f g h => (ScheduledNotification.mk.inj h).2.2)
    apply List.Nodup.filter
    exact (advancesFor_nodup env).map fun adv adv' h => by omega

/-- No row is computed twice. -/
theorem scheduleItems_nodup (now : Int) (stages : List RolloutStage) :
    (scheduleItems now stages).Nodup := by
  refine List.nodup_flatMap.mpr ⟨fun st _ => stageItems_nodup .., ?_⟩
  have hindex : stages.zipIdx.Pairwise fun a b => a.2 ≠ b.2 :=
    List.pairwise_map.mp (List.nodup_zipIdx_map_snd stages)
  refine hindex.imp fun {a b} hne => ?_
  intro it ha hb
  exact hne ((mem_stageItems.mp ha).1.symm.trans (mem_stageItems.mp hb).1)

namespace Notify

/-- A stage announces at `f` when scheduled at clock `c`. -/
def FiresAt (c : Int) (st : String × Int) (f : Int) : Prop :=
  (IsWindow st.1 st.2 f ∧ c < f) ∨ (AllPast c st.1 st.2 ∧ f = pgTimestamp (c + second))

/-- Every start is at database resolution. -/
def Whole (stages : List RolloutStage) : Prop := ∀ st ∈ stages, pgTimestamp st.startAt = st.startAt

/-- What a stored list calls for, as it is stored. -/
theorem stored_mem_scheduleItems {c : Int} {stages : List RolloutStage} (hw : Whole stages)
    {it : ScheduledNotification} :
    (∃ it' ∈ scheduleItems c stages, it = it'.stored) ↔
      ∃ st ∈ (planOf stages)[it.stageSeq]?, it.channel = channelFor st.1 ∧
        FiresAt c st it.fireAt := by
  have hwhole : ∀ {k : Nat} {st : String × Int} {f : Int}, (planOf stages)[k]? = some st →
      IsWindow st.1 st.2 f → pgTimestamp f = f := by
    intro k st f hst hf
    rw [planOf, List.getElem?_map, Option.map_eq_some_iff] at hst
    obtain ⟨x, hx, rfl⟩ := hst
    exact hf.stored (hw x (List.mem_of_getElem? hx))
  constructor
  · intro h
    obtain ⟨it', hit', rfl⟩ := h
    obtain ⟨env, startAt, hst, hit⟩ := mem_scheduleItems.mp hit'
    obtain ⟨-, hchannel, hfire⟩ := mem_stageItems.mp hit
    refine ⟨(env, startAt), hst, hchannel, ?_⟩
    rcases hfire with ⟨hf, hlt⟩ | ⟨hf, hpast⟩
    · have hsame : it'.stored.fireAt = it'.fireAt := hwhole hst hf
      rw [hsame]
      exact Or.inl ⟨hf, hlt⟩
    · exact Or.inr ⟨hpast, congrArg pgTimestamp hf⟩
  · intro h
    obtain ⟨st, hst, hchannel, hfire⟩ := h
    have hst' : (planOf stages)[it.stageSeq]? = some st := hst
    rcases hfire with ⟨hf, hlt⟩ | ⟨hpast, hf⟩
    · refine ⟨it, mem_scheduleItems.mpr ⟨st.1, st.2, hst', ?_⟩, ?_⟩
      · exact mem_stageItems.mpr ⟨rfl, hchannel, Or.inl ⟨hf, hlt⟩⟩
      · rw [ScheduledNotification.stored, hwhole hst' hf]
    · refine ⟨⟨it.stageSeq, it.channel, c + second⟩,
        mem_scheduleItems.mpr ⟨st.1, st.2, hst', ?_⟩, ?_⟩
      · exact mem_stageItems.mpr ⟨rfl, hchannel, Or.inr ⟨rfl, hpast⟩⟩
      · rw [ScheduledNotification.stored, ← hf]

/-- With a whole clock reading, the rows of a stored list are stored as they are. -/
theorem stored_of_mem_scheduleItems {c : Int} {stages : List RolloutStage} (hc : pgTimestamp c = c)
    (hw : Whole stages) {it : ScheduledNotification} (h : it ∈ scheduleItems c stages) :
    it.stored = it := by
  obtain ⟨env, startAt, hst, hit⟩ := mem_scheduleItems.mp h
  have hfire : pgTimestamp it.fireAt = it.fireAt := by
    rcases (mem_stageItems.mp hit).2.2 with ⟨hf, -⟩ | ⟨hf, -⟩
    · rw [planOf, List.getElem?_map, Option.map_eq_some_iff] at hst
      obtain ⟨st, hst, he⟩ := hst
      cases he
      exact hf.stored (hw st (List.mem_of_getElem? hst))
    · rw [hf]
      unfold pgTimestamp second at *
      omega
  rw [ScheduledNotification.stored, hfire]

/-- A stage announces at some time, whatever the clock. -/
theorem exists_firesAt (c : Int) (st : String × Int) : ∃ f, FiresAt c st f := by
  by_cases h : ∃ f, IsWindow st.1 st.2 f ∧ c < f
  · obtain ⟨f, hf⟩ := h
    exact ⟨f, Or.inl hf⟩
  · refine ⟨_, Or.inr ⟨fun f hf => ?_, rfl⟩⟩
    by_contra hlt
    exact h ⟨f, hf, by omega⟩

/-- No sent row is in the way of a schedule computed after it was sent. -/
theorem sent_not_item {c : Int} {stages : List RolloutStage} (hw : Whole stages)
    {n : Notification} (hn : n.fireAt ≤ c) :
    ∀ it ∈ scheduleItems c stages, n.item ≠ it.stored := by
  intro it hit he
  obtain ⟨st, -, -, hfire⟩ := (stored_mem_scheduleItems hw).mp ⟨it, hit, rfl⟩
  have hf : n.fireAt = it.stored.fireAt := congrArg (·.fireAt) he
  rcases hfire with ⟨-, hlt⟩ | ⟨-, hlt⟩
  · omega
  · have := lt_pgTimestamp (c + second)
    unfold second at this hlt
    omega

end Notify

end ReleaseRadar
