import ReleaseRadar.Frontend.Cascade

/-!
# The timeline

`timeline-view.component.ts` lays out days in columns and puts stages and locks on them. The
columns are `addDays(start, i)`: local days, counted from an anchor that has the time of day of
the page's `today`. A stage and a lock are placed by the whole days that have passed since the
anchor. So the day of a column changes at midnight, but the column of an instant changes at the
time of day at which the page was opened: what is earlier than that is drawn a day too far to
the left (`drawn_a_day_early`).

`drawnOnDay_iff` says when everything is on its day, in a zone without clock changes. `none` is
the date that is none, and the number that is none; where a column has no date `dateKey` throws,
and no column is drawn. Texts and looks of the columns are left out.
-/

namespace ReleaseRadar.Frontend

open Lib JsDate

def DAY_W : Int := 56

/-! ## The component -/

/-- What places a stage; `offset` is only in mock data. -/
structure TimelineStage where
  offset : Option Int
  startAt : Option (Option TimeValue)
deriving DecidableEq

structure TimelineLock where
  startAt : Option (Option TimeValue)
  endAt : Option (Option TimeValue)
  startOffset : Option Int
  endOffset : Option Int
deriving DecidableEq

/-- The state of the page: a list of stages for each rollout. -/
structure Timeline where
  offset : Int
  days : Nat
  today : TimeValue
  rollouts : List (List TimelineStage)
  locks : List TimelineLock

structure DayColumn where
  i : Nat
  date : TimeValue
  isToday : Bool
  isWeekend : Bool
  isFriday : Bool

structure Placed where
  stage : TimelineStage
  idx : Option Int
deriving DecidableEq

structure LockOverlay where
  lock : TimelineLock
  left : Option Int
  width : Option Int
deriving DecidableEq

/-- `Math.floor((date - start) / 86400000)`. -/
def daysSince (start date : Option TimeValue) : Option Int :=
  match start, date with
  | some s, some d => some ((d.val - s.val) / 86400000)
  | _, _ => none

namespace Timeline

variable (z : Zone) (v : Timeline)

def start : Option TimeValue := z.addDays v.today v.offset

def todayIdx : Option Int := daysSince (v.start z) (some v.today)

/-- One turn of the loop; `dateKey` throws where there is no date. -/
def dayColumn (i : Nat) : Option DayColumn :=
  ((v.start z).bind fun s => z.addDays s i).map fun d =>
    let dow := z.getDay d.val
    { i := i, date := d, isToday := dateKey d.val = dateKey v.today.val
      isWeekend := dow = 0 || dow = 6, isFriday := dow = 5 }

def dayColumns : Option (List DayColumn) := (List.range v.days).mapM (v.dayColumn z)

/-- When a stage is taken to start. -/
def dateOf (st : TimelineStage) : Option TimeValue :=
  match st.offset, st.startAt with
  -- days from today
  | some offset, _ => z.addDays v.today offset
  -- the absolute start of the API
  | none, some startAt => startAt
  | none, none => some v.today

def timelineRows : List (List Placed) :=
  v.rollouts.map fun stages => stages.map fun st => ⟨st, daysSince (v.start z) (v.dateOf z st)⟩

def lockStart (l : TimelineLock) : Option TimeValue :=
  l.startAt.getD (z.addDays v.today (l.startOffset.getD 0))

def lockEnd (l : TimelineLock) : Option TimeValue :=
  l.endAt.getD (z.addDays v.today (l.endOffset.getD 0))

def lockOverlays : List LockOverlay :=
  v.locks.map fun l =>
    let startDelta := daysSince (v.start z) (v.lockStart z l)
    let endDelta := daysSince (v.start z) (v.lockEnd z l)
    ⟨l, startDelta.map (· * DAY_W),
      startDelta.bind fun s => endDelta.map fun e => (e - s + 1) * DAY_W⟩

/-! ## What is asked of it -/

/-- `idx` is the column of the local date of `date`, if there is one and it is shown. -/
def IsColumnOf (idx : Option Int) (date : Option TimeValue) : Prop :=
  ∀ cols t, v.dayColumns z = some cols → date = some t →
    ∀ (i : Nat) c, cols[i]? = some c → z.localDay c.date.val = z.localDay t.val →
      idx = some (i : Int)

/-- Every stage, every lock and today's line are on their day. -/
structure DrawnOnDay : Prop where
  stages : ∀ row ∈ v.timelineRows z, ∀ p ∈ row, v.IsColumnOf z p.idx (v.dateOf z p.stage)
  locks : ∀ o ∈ v.lockOverlays z, v.IsColumnOf z (o.left.map (· / DAY_W)) (v.lockStart z o.lock)
  today : v.IsColumnOf z (v.todayIdx z) (some v.today)

/-- The first and the last column are dates. -/
def Dated : Prop :=
  -8640000000000000 ≤ v.today.val + v.offset * msPerDay ∧
    v.today.val + (v.offset + v.days - 1) * msPerDay ≤ 8640000000000000

instance : Decidable v.Dated := inferInstanceAs (Decidable (_ ∧ _))

/-- If the local date of `t` is shown, `t` is not earlier in the day than the page was opened. -/
def NotEarlier (t : TimeValue) : Prop :=
  v.Dated → z.localDay v.today.val + v.offset ≤ z.localDay t.val →
    z.localDay t.val < z.localDay v.today.val + v.offset + v.days →
    timeWithinDay (z.toLocal v.today.val) ≤ timeWithinDay (z.toLocal t.val)

instance (t : TimeValue) : Decidable (v.NotEarlier z t) :=
  inferInstanceAs (Decidable (_ → _ → _ → _))

/-! ## Columns -/

theorem dayColumns_get {cols : List DayColumn} {i : Nat} {c : DayColumn}
    (hcols : v.dayColumns z = some cols) (hc : cols[i]? = some c) :
    i < v.days ∧ v.dayColumn z i = some c := by
  have hall := mapM_eq_some_iff.mp hcols
  have hlen : v.days = cols.length := by rw [← hall.length_eq, List.length_range]
  obtain ⟨hi, rfl⟩ := List.getElem?_eq_some_iff.mp hc
  have hi' : i < (List.range v.days).length := by rwa [List.length_range, hlen]
  have hcol := hall.get hi' hi
  rw [List.get_eq_getElem, List.getElem_range] at hcol
  exact ⟨by omega, hcol⟩

/-- If no turn throws, each has its column. -/
theorem column_of_lt (h : ∀ i < v.days, ∃ c, v.dayColumn z i = some c) : ∃ cols,
    v.dayColumns z = some cols ∧ ∀ i < v.days, ∃ c, cols[i]? = some c := by
  obtain ⟨cols, hcols⟩ := exists_forall₂ (R := fun i c => v.dayColumn z i = some c)
    (fun i hi => h i (List.mem_range.mp hi))
  refine ⟨cols, mapM_eq_some_iff.mpr hcols, fun i hi => ?_⟩
  have hlen : cols.length = v.days := by rw [← hcols.length_eq, List.length_range]
  exact ⟨cols[i], List.getElem?_eq_getElem (by omega)⟩

section Fixed

variable {offset : Int}

/-- Where the offset is fixed, the columns are whole days from the anchor. -/
theorem date_column {i : Nat} {c : DayColumn} (hc : v.dayColumn (Zone.fixed offset) i = some c) :
    (∃ s, v.start (Zone.fixed offset) = some s ∧ s.val = v.today.val + v.offset * msPerDay) ∧
      c.date.val = v.today.val + (v.offset + i) * msPerDay := by
  obtain ⟨d, hd, rfl⟩ := Option.map_eq_some_iff.mp hc
  obtain ⟨s, hs, hd⟩ := Option.bind_eq_some_iff.mp hd
  have hstart := hs
  rw [start, Zone.addDays_fixed] at hstart
  rw [Zone.addDays_fixed] at hd
  have hstart := timeClip_intCast hstart
  refine ⟨⟨s, hs, hstart⟩, ?_⟩
  rw [timeClip_intCast hd, hstart, Int.add_mul, Int.add_assoc]

/-- The columns are dates if the first and the last are. -/
theorem exists_column (h : v.Dated) {i : Nat} (hi : i < v.days) :
    ∃ c, v.dayColumn (Zone.fixed offset) i = some c := by
  obtain ⟨hlow, hhigh⟩ := h
  have hstart : v.start (Zone.fixed offset) = some ⟨v.today.val + v.offset * msPerDay,
      ⟨hlow, by unfold msPerDay at *; omega⟩⟩ := by
    rw [start, Zone.addDays_fixed, timeClip_int]
    exact dif_pos _
  unfold dayColumn
  rw [hstart, Option.bind_some, Zone.addDays_fixed, timeClip_int,
    dif_pos (by dsimp only; unfold msPerDay at *; omega)]
  exact ⟨_, rfl⟩

theorem dated_of_column {i : Nat} {c c' : DayColumn}
    (hfirst : v.dayColumn (Zone.fixed offset) 0 = some c)
    (hlast : v.dayColumn (Zone.fixed offset) i = some c') (hi : i + 1 = v.days) : v.Dated := by
  obtain ⟨-, hfirst⟩ := v.date_column hfirst
  obtain ⟨-, hlast⟩ := v.date_column hlast
  have h₁ := c.date.property
  have h₂ := c'.date.property
  unfold Dated msPerDay at *
  omega

/-- Where columns are drawn, the first and the last are dates. -/
theorem dated_of_dayColumns {cols : List DayColumn}
    (hcols : v.dayColumns (Zone.fixed offset) = some cols) (hpos : 0 < v.days) : v.Dated := by
  have hlen : cols.length = v.days := by
    rw [← (mapM_eq_some_iff.mp hcols).length_eq, List.length_range]
  have hcol : ∀ i < v.days, ∃ c, v.dayColumn (Zone.fixed offset) i = some c := fun i hi =>
    ⟨cols[i], (v.dayColumns_get _ hcols (List.getElem?_eq_getElem (by omega))).2⟩
  obtain ⟨c, hc⟩ := hcol 0 hpos
  obtain ⟨c', hc'⟩ := hcol (v.days - 1) (by omega)
  exact v.dated_of_column hc hc' (by omega)

/-- The days that have passed are those between the dates, less one that is not over. -/
theorem daysPassed_fixed {s t : TimeValue} (hs : s.val = v.today.val + v.offset * msPerDay) :
    (t.val - s.val) / 86400000 =
      (Zone.fixed offset).localDay t.val - (Zone.fixed offset).localDay v.today.val - v.offset -
        if timeWithinDay ((Zone.fixed offset).toLocal v.today.val) ≤
          timeWithinDay ((Zone.fixed offset).toLocal t.val) then 0 else 1 := by
  rw [hs]
  unfold Zone.localDay Zone.fixed timeWithinDay day msPerDay
  dsimp only
  split <;> omega

theorem localDay_column {i : Nat} {c : DayColumn}
    (hc : v.dayColumn (Zone.fixed offset) i = some c) :
    (Zone.fixed offset).localDay c.date.val =
      (Zone.fixed offset).localDay v.today.val + v.offset + i := by
  rw [Zone.localDay, (v.date_column hc).2]
  unfold Zone.localDay Zone.fixed day msPerDay
  dsimp only
  omega

/-- An instant is in its column unless it is too early in the day. -/
theorem isColumnOf_iff (t : TimeValue) :
    v.IsColumnOf (Zone.fixed offset) (daysSince (v.start (Zone.fixed offset)) (some t)) (some t) ↔
      v.NotEarlier (Zone.fixed offset) t := by
  constructor
  · intro h hdated hlow hhigh
    obtain ⟨i, hi⟩ : ∃ i : Nat, (Zone.fixed offset).localDay t.val =
        (Zone.fixed offset).localDay v.today.val + v.offset + i :=
      ⟨((Zone.fixed offset).localDay t.val - (Zone.fixed offset).localDay v.today.val -
        v.offset).toNat, by omega⟩
    obtain ⟨cols, hcols, hget⟩ := v.column_of_lt (Zone.fixed offset) fun i => v.exists_column hdated
    obtain ⟨c, hc⟩ := hget i (by omega)
    have hcol := (v.dayColumns_get _ hcols hc).2
    obtain ⟨⟨s, hs, hval⟩, -⟩ := v.date_column hcol
    have hidx := h cols t hcols rfl i c hc (by rw [v.localDay_column hcol, hi])
    rw [hs, daysSince, Option.some.injEq, v.daysPassed_fixed hval] at hidx
    split at hidx
    · assumption
    · omega
  · rintro h cols t' hcols ht i c hc hday
    obtain rfl := Option.some.inj ht
    obtain ⟨hlt, hcol⟩ := v.dayColumns_get _ hcols hc
    obtain ⟨⟨s, hs, hval⟩, -⟩ := v.date_column hcol
    have hdated := v.dated_of_dayColumns hcols (by omega)
    rw [v.localDay_column hcol] at hday
    rw [hs, daysSince, v.daysPassed_fixed hval, if_pos (h hdated (by omega) (by omega))]
    exact congrArg some (by omega)

/-- What is counted from today has today's time of day. -/
theorem notEarlier_addDays {n : Int} {t : TimeValue}
    (h : (Zone.fixed offset).addDays v.today n = some t) : v.NotEarlier (Zone.fixed offset) t := by
  intro _ _ _
  rw [Zone.addDays_fixed] at h
  rw [timeClip_intCast h]
  unfold timeWithinDay Zone.fixed msPerDay
  dsimp only
  omega

theorem notEarlier_today : v.NotEarlier (Zone.fixed offset) v.today := fun _ _ _ => Int.le_refl _

/-- What is placed by a date is in its column, if it is a date, unless that is too early. -/
theorem isColumnOf_date_iff (date : Option TimeValue) :
    v.IsColumnOf (Zone.fixed offset) (daysSince (v.start (Zone.fixed offset)) date) date ↔
      ∀ t, date = some t → v.NotEarlier (Zone.fixed offset) t := by
  cases date with
  | none => exact iff_of_true (fun _ _ _ ht => by cases ht) fun _ ht => by cases ht
  | some t =>
    rw [v.isColumnOf_iff]
    simp

end Fixed

/-! ## The page -/

theorem stages_iff (offset : Int) :
    (∀ row ∈ v.timelineRows (Zone.fixed offset), ∀ p ∈ row,
      v.IsColumnOf (Zone.fixed offset) p.idx (v.dateOf (Zone.fixed offset) p.stage)) ↔
      ∀ stages ∈ v.rollouts, ∀ st ∈ stages, ∀ t, v.dateOf (Zone.fixed offset) st = some t →
        v.NotEarlier (Zone.fixed offset) t := by
  unfold timelineRows
  simp only [List.forall_mem_map, isColumnOf_date_iff]

theorem locks_iff (offset : Int) :
    (∀ o ∈ v.lockOverlays (Zone.fixed offset), v.IsColumnOf (Zone.fixed offset)
      (o.left.map (· / DAY_W)) (v.lockStart (Zone.fixed offset) o.lock)) ↔
      ∀ l ∈ v.locks, ∀ t, v.lockStart (Zone.fixed offset) l = some t →
        v.NotEarlier (Zone.fixed offset) t := by
  have hleft : ((fun k => k / DAY_W) ∘ fun k => k * DAY_W) = id :=
    funext fun k => Int.mul_ediv_cancel k (by decide)
  unfold lockOverlays
  simp only [List.forall_mem_map, Option.map_map, hleft, Option.map_id, id_eq, isColumnOf_date_iff]

/-- **The timeline draws things on the right day** exactly when no stage and no lock on a shown
date begins earlier in the day than the page was opened. -/
theorem drawnOnDay_iff (offset : Int) : v.DrawnOnDay (Zone.fixed offset) ↔
    (∀ stages ∈ v.rollouts, ∀ st ∈ stages, ∀ t, st.offset = none → st.startAt = some (some t) →
      v.NotEarlier (Zone.fixed offset) t) ∧
    ∀ l ∈ v.locks, ∀ t, l.startAt = some (some t) → v.NotEarlier (Zone.fixed offset) t := by
  have hstages := v.stages_iff offset
  have hlocks := v.locks_iff offset
  -- what is counted from today is never too early
  have hdate : ∀ st, (∀ t, v.dateOf (Zone.fixed offset) st = some t →
      v.NotEarlier (Zone.fixed offset) t) ↔
      ∀ t, st.offset = none → st.startAt = some (some t) → v.NotEarlier (Zone.fixed offset) t := by
    rintro ⟨_ | o, _ | startAt⟩
    · refine iff_of_true (fun t ht => ?_) (fun _ _ h => by cases h)
      obtain rfl := Option.some.inj ht
      exact v.notEarlier_today
    · simp [dateOf]
    · exact iff_of_true (fun t ht => v.notEarlier_addDays ht) (fun _ h => by cases h)
    · exact iff_of_true (fun t ht => v.notEarlier_addDays ht) (fun _ h => by cases h)
  have hlock : ∀ l, (∀ t, v.lockStart (Zone.fixed offset) l = some t →
      v.NotEarlier (Zone.fixed offset) t) ↔
      ∀ t, l.startAt = some (some t) → v.NotEarlier (Zone.fixed offset) t := by
    rintro ⟨_ | startAt, e, so, eo⟩
    · exact iff_of_true (fun t ht => v.notEarlier_addDays ht) (fun _ h => by cases h)
    · simp [lockStart]
  simp only [hdate] at hstages
  simp only [hlock] at hlocks
  rw [← hstages, ← hlocks]
  constructor
  · rintro ⟨hs, hl, -⟩
    exact ⟨hs, hl⟩
  · rintro ⟨hs, hl⟩
    exact ⟨hs, hl, (v.isColumnOf_iff v.today).mpr v.notEarlier_today⟩

end Timeline

/-- A page opened at `today`, with one stage. -/
private def pageWith (today startAt : TimeValue) : Timeline :=
  { offset := -3, days := 28, today := today
    rollouts := [[⟨none, some (some startAt)⟩]]
    locks := [] }

private def openedAt : TimeValue := ⟨43200000, by decide⟩

private def stageAt : TimeValue := ⟨36000000, by decide⟩

/-- **A stage at ten, on a page opened at noon**: it is today, and stands in yesterday's
column. -/
theorem drawn_a_day_early :
    (pageWith openedAt stageAt).todayIdx (Zone.fixed 0) = some 3 ∧
      (pageWith openedAt stageAt).timelineRows (Zone.fixed 0) =
        [[⟨⟨none, some (some stageAt)⟩, some 2⟩]] ∧
      ¬ (pageWith openedAt stageAt).DrawnOnDay (Zone.fixed 0) := by
  refine ⟨by decide, by decide, fun h => ?_⟩
  have hcond := ((pageWith openedAt stageAt).stages_iff 0).mp h.stages _ List.mem_cons_self _
    List.mem_cons_self stageAt rfl
  exact absurd hcond (by decide)

end ReleaseRadar.Frontend
