import Mathlib.Algebra.Order.Field.Rat
import Mathlib.Tactic.Linarith
import Mathlib.Tactic.Ring
import ReleaseRadar.Calendar.Ics
import ReleaseRadar.Frontend.Stage

/-!
# The lock banner and the published calendar

The detail page warns of the locks that meet a stage of the rollout (`blockingLocks` of
`rollout-detail.component.ts`); the calendar publishes an event for every stage. Both take a
stage for `[start, start + duration)`, but `WriteICS` gives a stage without a positive duration
an hour, and the page asks of such a stage that it lies inside the lock: at the very start of
the lock, or up to an hour before it, a published event has no banner.

`banner_matches_calendar_iff` says when the two agree.
-/

namespace ReleaseRadar.Frontend

/-! ## The component -/

/-- `getTime()`, of an instant that is not cut to whole milliseconds. -/
def getTime (t : Int) : ℚ := t / 1000000

/-- The lock names the rollout's product, or all of them. -/
def matchesProduct (r : Rollout) (l : Lock) : Bool :=
  l.products.items.contains "all" || l.products.items.contains r.productId

/-- The execution window of a stage overlaps the lock's. -/
def conflicts (l : Lock) (st : RolloutStage) : Bool :=
  let ls := getTime l.startAt
  let le := getTime l.endAt
  let start := getTime st.startAt
  -- without a duration it is the start itself
  let end_ := start + nsToHours st.duration * 3600000
  start < le && end_ > ls

def blockingLocks (r : Rollout) (allLocks : List Lock) : List Lock :=
  allLocks.filter fun l => matchesProduct r l && r.stages.items.any (conflicts l)

/-! ## The calendar -/

/-- The lock and the event of the stage have an instant in common. -/
def MeetsEvent (l : Lock) (st : RolloutStage) : Prop :=
  ∃ t, (l.startAt ≤ t ∧ t < l.endAt) ∧ st.startAt ≤ t ∧ t < Calendar.endOf st

/-- The lock is one of the rollout's, and meets one of its events. -/
def Published (r : Rollout) (l : Lock) : Prop :=
  matchesProduct r l = true ∧ ∃ st ∈ r.stages.items, MeetsEvent l st

/-- The lock and the window of the stage meet, the window being as long as the duration says. -/
def MeetsWindow (l : Lock) (st : RolloutStage) : Prop :=
  st.startAt < l.endAt ∧ l.startAt < st.startAt + st.duration

instance (l : Lock) (st : RolloutStage) : Decidable (MeetsWindow l st) :=
  inferInstanceAs (Decidable (_ ∧ _))

/-- The hour that a stage without a positive duration is given meets the lock. -/
def MeetsHour (l : Lock) (st : RolloutStage) : Prop :=
  st.duration ≤ 0 ∧ st.startAt < l.endAt ∧ l.startAt < st.startAt + hour

instance (l : Lock) (st : RolloutStage) : Decidable (MeetsHour l st) :=
  inferInstanceAs (Decidable (_ ∧ _ ∧ _))

/-! ## One stage -/

/-- In whole nanoseconds. -/
theorem conflicts_iff (l : Lock) (st : RolloutStage) : conflicts l st = true ↔
    MeetsWindow l st := by
  have hend : getTime st.startAt + nsToHours st.duration * 3600000 =
      getTime (st.startAt + st.duration) := by
    unfold getTime nsToHours NS_PER_HOUR
    push_cast
    ring
  have hlt : ∀ s t : Int, getTime s < getTime t ↔ s < t := by
    intro s t
    unfold getTime
    rw [div_lt_div_iff_of_pos_right (by norm_num), Int.cast_lt]
  unfold conflicts MeetsWindow
  dsimp only
  rw [hend, Bool.and_eq_true, decide_eq_true_iff, decide_eq_true_iff, gt_iff_lt, hlt, hlt]

/-- Two intervals that are not empty have an instant in common when each begins before the
other ends. -/
theorem meetsEvent_iff {l : Lock} (hl : l.startAt < l.endAt) (st : RolloutStage) :
    MeetsEvent l st ↔ 0 < st.duration ∧ MeetsWindow l st ∨ MeetsHour l st := by
  have hmeet : MeetsEvent l st ↔ st.startAt < l.endAt ∧ l.startAt < Calendar.endOf st := by
    have hevent : st.startAt < Calendar.endOf st := by
      unfold Calendar.endOf hour second
      dsimp only
      split <;> omega
    constructor
    · rintro ⟨t, ht, hst⟩
      omega
    · rintro ⟨h₁, h₂⟩
      exact ⟨max l.startAt st.startAt, by omega, by omega⟩
  have hend : Calendar.endOf st =
      if 0 < st.duration then st.startAt + st.duration else st.startAt + hour := by
    unfold Calendar.endOf
    dsimp only
    split
    · rw [if_neg (by omega)]
    · rw [if_pos (by omega)]
  rw [hmeet, hend]
  unfold MeetsWindow MeetsHour
  split <;> omega

/-- A stage of no length whose window meets the lock has an event that does. -/
theorem meetsEvent_of_meetsWindow {l : Lock} (hl : l.startAt < l.endAt) {st : RolloutStage}
    (h : MeetsWindow l st) : MeetsEvent l st := by
  rw [meetsEvent_iff hl]
  unfold MeetsWindow MeetsHour hour second at *
  omega

/-! ## The banner -/

theorem mem_blockingLocks {r : Rollout} {locks : List Lock} {l : Lock} : l ∈ blockingLocks r locks ↔
    l ∈ locks ∧ matchesProduct r l = true ∧ ∃ st ∈ r.stages.items, MeetsWindow l st := by
  unfold blockingLocks
  rw [List.mem_filter, Bool.and_eq_true, List.any_eq_true]
  simp only [conflicts_iff]

/-- Every lock of the banner meets an event: it is the other direction that can fail. -/
theorem published_of_mem_blockingLocks {r : Rollout} {locks : List Lock} {l : Lock}
    (hl : l.startAt < l.endAt) (h : l ∈ blockingLocks r locks) : Published r l := by
  obtain ⟨-, hproduct, st, hst, hwindow⟩ := mem_blockingLocks.mp h
  exact ⟨hproduct, st, hst, meetsEvent_of_meetsWindow hl hwindow⟩

/-- **The banner names the locks that meet an event of the rollout** exactly when a lock that
meets the hour of a degenerate stage meets the window of some stage too. -/
theorem banner_matches_calendar_iff (r : Rollout) {locks : List Lock}
    (hlocks : ∀ l ∈ locks, l.startAt < l.endAt) :
    (∀ l ∈ locks, l ∈ blockingLocks r locks ↔ Published r l) ↔
      ∀ l ∈ locks, matchesProduct r l = true → (∃ st ∈ r.stages.items, MeetsHour l st) →
        ∃ st ∈ r.stages.items, MeetsWindow l st := by
  refine forall_congr' fun l => forall_congr' fun hl => ?_
  have hlock := hlocks l hl
  constructor
  · rintro h hproduct ⟨st, hst, hhour⟩
    have hevent : MeetsEvent l st := (meetsEvent_iff hlock st).mpr (Or.inr hhour)
    obtain ⟨-, -, hwindow⟩ := mem_blockingLocks.mp (h.mpr ⟨hproduct, st, hst, hevent⟩)
    exact hwindow
  · intro h
    refine ⟨published_of_mem_blockingLocks hlock, ?_⟩
    rintro ⟨hproduct, st, hst, hevent⟩
    refine mem_blockingLocks.mpr ⟨hl, hproduct, ?_⟩
    rcases (meetsEvent_iff hlock st).mp hevent with ⟨-, hwindow⟩ | hhour
    · exact ⟨st, hst, hwindow⟩
    · exact h hproduct ⟨st, hst, hhour⟩

/-! ## A slot without a banner -/

private def stageOf (startAt duration : Int) : Rollout :=
  { id := "r1", productId := "p1", typeId := "t1", title := "Rollout", descExt := "", descInt := ""
    risks := "", stages := some [⟨"prod1", startAt, duration, "scheduled"⟩], pair := none
    tasks := none, createdAt := 0, updatedAt := 0, createdBy := "" }

private def lockOf (startAt endAt : Int) : Lock :=
  { id := "l1", title := "Freeze", description := "", contact := "", startAt := startAt
    endAt := endAt
    products := some ["all"], kind := "manual", createdBy := "", createdAt := 0 }

/-- A stage that runs into the lock has its banner. -/
theorem banner_matches_calendar_iff_running :
    lockOf hour (2 * hour) ∈ blockingLocks (stageOf 0 (2 * hour)) [lockOf hour (2 * hour)] :=
  have hiff := (banner_matches_calendar_iff (stageOf 0 (2 * hour))
    (show ∀ l ∈ [lockOf hour (2 * hour)], l.startAt < l.endAt by decide)).mpr (by decide)
  (hiff _ List.mem_cons_self).mpr ⟨rfl, _, List.mem_cons_self, hour, by decide, by decide⟩

/-- **A stage of no length at the start of a lock** is published for an hour of it, without a
banner. -/
theorem published_without_banner : ∃ l ∈ [lockOf 0 hour],
    Published (stageOf 0 0) l ∧ l ∉ blockingLocks (stageOf 0 0) [lockOf 0 hour] := by
  refine ⟨_, List.mem_cons_self, ⟨rfl, _, List.mem_cons_self, 0, by decide, by decide⟩, fun h => ?_⟩
  obtain ⟨-, -, st, hst, hwindow⟩ := mem_blockingLocks.mp h
  obtain rfl := List.mem_singleton.mp hst
  exact absurd hwindow (by decide)

end ReleaseRadar.Frontend
