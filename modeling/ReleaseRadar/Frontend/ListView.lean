import Mathlib.Data.List.Nodup
import ReleaseRadar.Frontend.Stage
import ReleaseRadar.Lib.Runs

/-!
# The list of stages

`list-view.component.ts` lists the stages of all rollouts in the order of their starts, filters
them, and puts a header before each day. A day is cut by `dateKey`, which is the date in UTC,
but the header and the rows show local dates. So the groups are always the UTC days of the
rows, in order (`partition_groups`, `groups_before`), and they are the local ones only where the
two agree on the stages that are shown (`groupsAreDays_iff`).
-/

namespace ReleaseRadar.Frontend

open Lib JsDate Gregorian

/-! ## The component -/

structure ListStage where
  startAt : TimeValue
  status : String

structure ListRollout where
  id : String
  product : String
  stages : List ListStage

structure Row where
  key : String
  rollout : ListRollout
  stage : ListStage
  date : TimeValue

structure Group where
  key : List Char
  date : TimeValue
  rows : List Row

inductive WindowFilter
  | upcoming
  | all
  | past
deriving DecidableEq

structure ListFilters where
  windowFilter : WindowFilter
  statusFilter : String
  productFilter : String

/-- The rows of one rollout. -/
def rolloutRows (r : ListRollout) : List Row :=
  r.stages.zipIdx.map fun (st, idx) => ⟨r.id ++ "-" ++ toString idx, r, st, st.startAt⟩

/-- The sort is stable. -/
def rows (rollouts : List ListRollout) : List Row :=
  (rollouts.flatMap rolloutRows).mergeSort fun a b => a.date.val ≤ b.date.val

def ListFilters.shows (f : ListFilters) (now : Int) (r : Row) : Bool :=
  -- 'all' is no filter
  if f.statusFilter ≠ "all" ∧ r.stage.status ≠ f.statusFilter then false
  else if f.productFilter ≠ "all" ∧ r.rollout.product ≠ f.productFilter then false
  else
    let future : Bool := now ≤ r.date.val
    if f.windowFilter = .upcoming ∧ !future then false
    else if f.windowFilter = .past ∧ future then false
    else true

def filteredRows (f : ListFilters) (now : Int) (rollouts : List ListRollout) : List Row :=
  (rows rollouts).filter (f.shows now)

/-- One turn of the loop, on `g` and `last`. -/
def groupRow (s : List Group × Option (List Char)) (r : Row) : List Group × Option (List Char) :=
  let k := dateKey r.date.val
  -- another key opens a group, and its header has the date of this row
  let (g, last) := if some k ≠ s.2 then (s.1 ++ [⟨k, r.date, []⟩], some k) else s
  (g.modify (g.length - 1) fun x => { x with rows := x.rows ++ [r] }, last)

def groups (f : ListFilters) (now : Int) (rollouts : List ListRollout) : List Group :=
  ((filteredRows f now rollouts).foldl groupRow ([], none)).1

/-! ## Keys of rows -/

/-- The rows of a rollout are its stages. -/
theorem rolloutRows_keys (r : ListRollout) :
    (rolloutRows r).map (·.key) = (List.range r.stages.length).map fun i =>
      r.id ++ "-" ++ toString i := by
  unfold rolloutRows
  rw [List.map_map, List.range_eq_range', ← List.zipIdx_map_snd, List.map_map]
  rfl

/-- The id of the rollout and the index of the stage can be read from the key. -/
theorem nodup_rows (rollouts : List ListRollout) (h : (rollouts.map (·.id)).Nodup) :
    ((rows rollouts).map (·.key)).Nodup := by
  have hperm := List.mergeSort_perm (rollouts.flatMap rolloutRows) fun a b =>
    a.date.val ≤ b.date.val
  unfold rows
  rw [(hperm.map _).nodup_iff, List.map_flatMap, List.nodup_flatMap]
  simp only [rolloutRows_keys]
  constructor
  · intro r _
    refine List.nodup_range.map_on fun i _ j _ hij => ?_
    exact (Decimal.dashed_inj hij).2
  · rw [List.Nodup, List.pairwise_map] at h
    refine h.imp fun {r r'} hne k hk hk' => hne ?_
    obtain ⟨i, -, rfl⟩ := List.mem_map.mp hk
    obtain ⟨j, -, hj⟩ := List.mem_map.mp hk'
    exact (Decimal.dashed_inj hj).1.symm

/-- All rows are in the order of their times, -/
theorem sorted_rows (rollouts : List ListRollout) :
    (rows rollouts).Pairwise fun a b => a.date.val ≤ b.date.val := by
  have htrans : ∀ a b c : Row, decide (a.date.val ≤ b.date.val) → decide (b.date.val ≤ c.date.val) →
      decide (a.date.val ≤ c.date.val) := by
    intro a b c hab hbc
    rw [decide_eq_true_iff] at hab hbc ⊢
    exact Int.le_trans hab hbc
  have htotal : ∀ a b : Row, decide (a.date.val ≤ b.date.val) ||
    decide (b.date.val ≤ a.date.val) := by
    intro a b
    rw [Bool.or_eq_true, decide_eq_true_iff, decide_eq_true_iff]
    exact Int.le_total a.date.val b.date.val
  have h := List.pairwise_mergeSort htrans htotal (rollouts.flatMap rolloutRows)
  exact h.imp fun hab => of_decide_eq_true hab

/-- the filtered ones too. -/
theorem sorted_filteredRows (f : ListFilters) (now : Int) (rollouts : List ListRollout) :
    (filteredRows f now rollouts).Pairwise fun a b => a.date.val ≤ b.date.val :=
  (sorted_rows rollouts).sublist List.filter_sublist

/-! ## The loop -/

def keyOf (r : Row) : List Char := dateKey r.date.val

/-- What the loop has made of the rows so far. -/
structure Grouped (rs : List Row) (s : List Group × Option (List Char)) : Prop where
  runs : Runs keyOf rs (s.1.map (·.rows))
  keys : ∀ g ∈ s.1, ∀ r ∈ g.rows, keyOf r = g.key
  dates : ∀ g ∈ s.1, g.rows.head?.map (·.date) = some g.date
  last : s.2 = s.1.getLast?.map (·.key)

theorem Grouped.nil : Grouped [] ([], none) :=
  ⟨.nil, fun _ h => absurd h List.not_mem_nil, fun _ h => absurd h List.not_mem_nil, rfl⟩

theorem modify_concat {α : Type} (xs : List α) (x : α) (f : α → α) :
    (xs ++ [x]).modify ((xs ++ [x]).length - 1) f = xs ++ [f x] := by
  rw [List.length_append, List.length_singleton, Nat.add_sub_cancel]
  induction xs with
  | nil => rfl
  | cons y ys ih =>
    rw [List.cons_append, List.length_cons, List.modify_succ_cons, ih]
    rfl

/-- The row goes to the last group. -/
theorem groupRow_last {gs : List Group} {g : Group} {r : Row} (h : keyOf r = g.key) :
    groupRow (gs ++ [g], some g.key) r = (gs ++ [{ g with rows := g.rows ++ [r] }],
      some g.key) := by
  unfold groupRow
  rw [show dateKey r.date.val = g.key from h]
  dsimp only
  rw [if_neg (fun hne => hne rfl)]
  dsimp only
  rw [modify_concat]

/-- The row opens a group. -/
theorem groupRow_new {gs : List Group} {last : Option (List Char)} {r : Row}
    (h : last ≠ some (keyOf r)) :
    groupRow (gs, last) r = (gs ++ [⟨keyOf r, r.date, [r]⟩], some (keyOf r)) := by
  unfold groupRow
  dsimp only
  rw [if_pos (fun he => h he.symm)]
  dsimp only
  rw [modify_concat]
  rfl

/-- One turn. -/
theorem Grouped.groupRow {rs : List Row} {s : List Group × Option (List Char)}
    (h : Grouped rs s) (r : Row) :
    Grouped (rs ++ [r]) (groupRow s r) := by
  obtain ⟨gs, last⟩ := s
  obtain ⟨hruns, hkeys, hdates, hlast⟩ := h
  dsimp only at hruns hkeys hdates hlast
  subst hlast
  by_cases hr : gs.getLast?.map (·.key) = some (keyOf r)
  · obtain ⟨g, hg, hkey⟩ := Option.map_eq_some_iff.mp hr
    obtain ⟨gs, rfl⟩ := List.getLast?_eq_some_iff.mp hg
    have hmem : g ∈ gs ++ [g] := by simp
    rw [hg, Option.map_some, groupRow_last hkey.symm]
    constructor
    · rw [List.map_append] at hruns ⊢
      exact hruns.extend fun b hb => (hkeys g hmem b hb).trans hkey
    · intro x hx b hb
      rcases List.mem_append.mp hx with hx | hx
      · exact hkeys x (List.mem_append_left _ hx) b hb
      · obtain rfl := List.mem_singleton.mp hx
        rcases List.mem_append.mp hb with hb | hb
        · exact hkeys g hmem b hb
        · rw [List.mem_singleton.mp hb]
          exact hkey.symm
    · intro x hx
      rcases List.mem_append.mp hx with hx | hx
      · exact hdates x (List.mem_append_left _ hx)
      · obtain rfl := List.mem_singleton.mp hx
        -- the group had a first row
        have hdate := hdates g hmem
        dsimp only
        cases hrows : g.rows with
        | nil => rw [hrows] at hdate; cases hdate
        | cons q qs => rw [hrows] at hdate; exact hdate
    · rw [List.getLast?_concat]
      rfl
  · rw [groupRow_new hr]
    constructor
    · rw [List.map_append]
      refine hruns.push fun x hx b hb hb' => hr ?_
      rw [List.getLast?_map] at hx
      obtain ⟨g, hg, rfl⟩ := Option.map_eq_some_iff.mp hx
      rw [hg, Option.map_some, ← hkeys g (List.mem_of_getLast? hg) b hb, hb']
    · intro x hx b hb
      rcases List.mem_append.mp hx with hx | hx
      · exact hkeys x hx b hb
      · obtain rfl := List.mem_singleton.mp hx
        rw [List.mem_singleton.mp hb]
    · intro x hx
      rcases List.mem_append.mp hx with hx | hx
      · exact hdates x hx
      · obtain rfl := List.mem_singleton.mp hx
        rfl
    · rw [List.getLast?_concat]
      rfl

/-- The whole loop. -/
theorem Grouped.foldl {rs : List Row} {s : List Group × Option (List Char)} (h : Grouped rs s) :
    ∀ rest, Grouped (rs ++ rest) (rest.foldl Frontend.groupRow s) := by
  intro rest
  induction rest generalizing rs s with
  | nil =>
    rw [List.append_nil]
    exact h
  | cons r rest ih =>
    have hnext := ih (h.groupRow r)
    rw [List.append_assoc] at hnext
    exact hnext

/-- No group is empty. -/
theorem Grouped.exists_row {rs : List Row} {s : List Group × Option (List Char)} (h : Grouped rs s)
    {g : Group} (hg : g ∈ s.1) : ∃ r, r ∈ g.rows :=
  List.exists_mem_of_ne_nil g.rows (h.runs.ne_nil _ (List.mem_map_of_mem hg))

/-- The groups are what the loop makes of the filtered rows. -/
theorem groups_grouped (f : ListFilters) (now : Int) (rollouts : List ListRollout) :
    ∃ last, Grouped (filteredRows f now rollouts) (groups f now rollouts, last) :=
  ⟨_, Grouped.nil.foldl (filteredRows f now rollouts)⟩

/-! ## UTC days -/

/-- The key is the date in UTC. -/
theorem dateKey_eq_iff (s t : TimeValue) :
    dateKey s.val = dateKey t.val ↔ SameText (date (day s.val)) (date (day t.val)) := by
  unfold dateKey
  rw [take_toISOString, take_toISOString]
  exact dayText_eq_iff (valid_date _) (valid_date _) (year_timeValue s) (year_timeValue t)

/-- The dates of an interval of times are an interval. -/
theorem intervalKey_dateKey : IntervalKey fun t : TimeValue => dateKey t.val := by
  intro x y z hxy hyz h
  dsimp only at h ⊢
  rw [dateKey_eq_iff] at h ⊢
  exact sameText_convex (day_mono hxy) (day_mono hyz) h

/-- The keys are those of different days, one after the other. -/
theorem groups_before (f : ListFilters) (now : Int) (rollouts : List ListRollout) :
    (groups f now rollouts).Pairwise fun g g' => g.key ≠ g'.key ∧
      ∀ s t : TimeValue, dateKey s.val = g.key → dateKey t.val = g'.key → s.val < t.val := by
  obtain ⟨last, hgrouped⟩ := groups_grouped f now rollouts
  have hpair := hgrouped.runs.before intervalKey_dateKey (sorted_filteredRows f now rollouts)
  rw [List.pairwise_map] at hpair
  refine hpair.imp_of_mem fun {g g'} hg hg' h => ?_
  obtain ⟨r, hr⟩ := hgrouped.exists_row hg
  obtain ⟨r', hr'⟩ := hgrouped.exists_row hg'
  have hkey := hgrouped.keys g hg r hr
  have hkey' := hgrouped.keys g' hg' r' hr'
  rw [← hkey, ← hkey']
  exact ⟨(h r hr r' hr').ne, h r hr r' hr'⟩

/-! ## Local days -/

/-- The groups are the local calendar days of the rows that are shown, in order. -/
structure GroupsAreDays (z : Zone) (f : ListFilters) (now : Int)
    (rollouts : List ListRollout) : Prop where
  partition : (groups f now rollouts).flatMap (·.rows) = filteredRows f now rollouts
  nonempty : ∀ g ∈ groups f now rollouts, g.rows ≠ []
  increasing : (groups f now rollouts).Pairwise fun g g' => g.key ≠ g'.key ∧
    ∀ s t : TimeValue, dateKey s.val = g.key → dateKey t.val = g'.key → s.val < t.val
  rowKeys : (rollouts.map (·.id)).Nodup → ((rows rollouts).map (·.key)).Nodup
  headers : ∀ g ∈ groups f now rollouts, ∀ r ∈ g.rows, z.localDay r.date.val = z.localDay g.date.val
  apart : (groups f now rollouts).Pairwise fun g g' =>
    ∀ r ∈ g.rows, ∀ r' ∈ g'.rows, z.localDay r.date.val ≠ z.localDay r'.date.val

/-- A stage that the filters let through starts at `t`; its key does not matter. -/
def ShownAt (f : ListFilters) (now : Int) (rollouts : List ListRollout) (t : TimeValue) : Prop :=
  ∃ r ∈ rollouts, ∃ st ∈ r.stages, st.startAt = t ∧ f.shows now ⟨"", r, st, st.startAt⟩ = true

/-- Two of the stages are on one day in UTC just when they are in local time. -/
def UtcDaysAreLocal (z : Zone) (f : ListFilters) (now : Int) (rollouts : List ListRollout) : Prop :=
  ∀ s t : TimeValue, ShownAt f now rollouts s → ShownAt f now rollouts t →
    (SameText (date (day s.val)) (date (day t.val)) ↔ z.localDay s.val = z.localDay t.val)

/-- A time is on the page exactly if a row has it. -/
theorem shownAt_iff {f : ListFilters} {now : Int} {rollouts : List ListRollout} {t : TimeValue} :
    ShownAt f now rollouts t ↔ ∃ r ∈ filteredRows f now rollouts, r.date = t := by
  unfold filteredRows rows
  simp only [List.mem_filter, List.mem_mergeSort, List.mem_flatMap]
  constructor
  · rintro ⟨r, hr, st, hst, rfl, hshows⟩
    obtain ⟨i, hi⟩ := List.mem_iff_getElem?.mp hst
    have hrow : ⟨r.id ++ "-" ++ toString i, r, st, st.startAt⟩ ∈ rolloutRows r :=
      List.mem_map.mpr ⟨(st, i), List.mk_mem_zipIdx_iff_getElem?.mpr hi, rfl⟩
    exact ⟨_, ⟨⟨r, hr, hrow⟩, hshows⟩, rfl⟩
  · rintro ⟨row, ⟨⟨r, hr, hrow⟩, hshows⟩, rfl⟩
    obtain ⟨⟨st, i⟩, hmem, rfl⟩ := List.mem_map.mp hrow
    have hst : st ∈ r.stages := List.mem_of_getElem? (List.mk_mem_zipIdx_iff_getElem?.mp hmem)
    exact ⟨r, hr, st, hst, rfl, hshows⟩

/-- The groups put together are the rows. -/
theorem partition_groups (f : ListFilters) (now : Int) (rollouts : List ListRollout) :
    (groups f now rollouts).flatMap (·.rows) = filteredRows f now rollouts := by
  obtain ⟨last, hgrouped⟩ := groups_grouped f now rollouts
  rw [List.flatMap_def, hgrouped.runs.flatten]

instance (z : Zone) : Std.Symm fun g g' : Group => g.key ≠ g'.key ∧
    ∀ r ∈ g.rows, ∀ r' ∈ g'.rows, z.localDay r.date.val ≠ z.localDay r'.date.val :=
  ⟨fun _ _ h => ⟨h.1.symm, fun r hr r' hr' => (h.2 r' hr' r hr).symm⟩⟩

/-- Two different groups differ in their keys, and in their local days if they are days. -/
theorem utcDaysAreLocal_of_groupsAreDays {z : Zone} {f : ListFilters} {now : Int}
    {rollouts : List ListRollout} (h : GroupsAreDays z f now rollouts) :
    UtcDaysAreLocal z f now rollouts := by
  obtain ⟨last, hgrouped⟩ := groups_grouped f now rollouts
  intro s t hs ht
  obtain ⟨r, hr, rfl⟩ := shownAt_iff.mp hs
  obtain ⟨r', hr', rfl⟩ := shownAt_iff.mp ht
  rw [← partition_groups, List.mem_flatMap] at hr hr'
  obtain ⟨g, hg, hrg⟩ := hr
  obtain ⟨g', hg', hrg'⟩ := hr'
  have hkey : keyOf r = g.key := hgrouped.keys g hg r hrg
  have hkey' : keyOf r' = g'.key := hgrouped.keys g' hg' r' hrg'
  rw [← dateKey_eq_iff]
  show keyOf r = keyOf r' ↔ _
  rw [hkey, hkey']
  by_cases he : g = g'
  · subst he
    exact iff_of_true rfl ((h.headers g hg r hrg).trans (h.headers g hg r' hrg').symm)
  · obtain ⟨hne, hapart⟩ := ((h.increasing.imp And.left).and h.apart).forall hg hg' he
    exact iff_of_false hne (hapart r hrg r' hrg')

theorem groupsAreDays_of_utcDaysAreLocal {z : Zone} {f : ListFilters} {now : Int}
    {rollouts : List ListRollout} (h : UtcDaysAreLocal z f now rollouts) :
    GroupsAreDays z f now rollouts := by
  obtain ⟨last, hgrouped⟩ := groups_grouped f now rollouts
  have hshown : ∀ g ∈ groups f now rollouts, ∀ r ∈ g.rows, ShownAt f now rollouts r.date := by
    intro g hg r hr
    refine shownAt_iff.mpr ⟨r, ?_, rfl⟩
    rw [← partition_groups]
    exact List.mem_flatMap.mpr ⟨g, hg, hr⟩
  refine ⟨partition_groups f now rollouts, fun g hg =>
    hgrouped.runs.ne_nil _ (List.mem_map_of_mem hg),
    groups_before f now rollouts, nodup_rows rollouts, fun g hg r hr => ?_, ?_⟩
  · -- the header has the date of the first row
    obtain ⟨q, hq, hdate⟩ := Option.map_eq_some_iff.mp (hgrouped.dates g hg)
    have hq : q ∈ g.rows := List.mem_of_head? hq
    have hkey : keyOf r = keyOf q := (hgrouped.keys g hg r hr).trans (hgrouped.keys g hg q hq).symm
    rw [← hdate]
    exact (h r.date q.date (hshown g hg r hr) (hshown g hg q hq)).mp ((dateKey_eq_iff _ _).mp hkey)
  · refine (groups_before f now rollouts).imp_of_mem
      fun {g g'} hg hg' hbefore r hr r' hr' hday => ?_
    have hsame := (h r.date r'.date (hshown g hg r hr) (hshown g' hg' r' hr')).mpr hday
    have hkey : keyOf r = keyOf r' := (dateKey_eq_iff _ _).mpr hsame
    rw [show keyOf r = g.key from hgrouped.keys g hg r hr,
      show keyOf r' = g'.key from hgrouped.keys g' hg' r' hr'] at hkey
    exact hbefore.1 hkey

/-- **The list groups are the calendar days** exactly when the days in UTC and the local ones
agree on the stages that are shown. -/
theorem groupsAreDays_iff (z : Zone) (f : ListFilters) (now : Int) (rollouts : List ListRollout) :
    GroupsAreDays z f now rollouts ↔ UtcDaysAreLocal z f now rollouts :=
  ⟨utcDaysAreLocal_of_groupsAreDays, groupsAreDays_of_utcDaysAreLocal⟩

/-! ## Two hours east of Greenwich -/

private def showAll : ListFilters := ⟨.all, "all", "all"⟩

/-- One rollout, with a stage before and a stage after local midnight. -/
private def lateStages : List ListRollout :=
  [⟨"r1", "p1", [⟨⟨77400000, by decide⟩, "scheduled"⟩, ⟨⟨81000000, by decide⟩, "scheduled"⟩]⟩]

/-- **Half past eleven and half past midnight** are under one header. -/
theorem midnight_not_cut : ¬ GroupsAreDays (Zone.fixed 7200000) showAll 0 lateStages := by
  intro h
  have hcond := utcDaysAreLocal_of_groupsAreDays h
  have hbefore : ShownAt showAll 0 lateStages ⟨77400000, by decide⟩ :=
    ⟨_, List.mem_cons_self, _, List.mem_cons_self, rfl, rfl⟩
  have hafter : ShownAt showAll 0 lateStages ⟨81000000, by decide⟩ :=
    ⟨_, List.mem_cons_self, _, List.mem_cons_of_mem _ List.mem_cons_self, rfl, rfl⟩
  have hsame := (hcond _ _ hbefore hafter).mp ⟨by decide, by decide, by decide⟩
  exact absurd hsame (by decide)

end ReleaseRadar.Frontend
