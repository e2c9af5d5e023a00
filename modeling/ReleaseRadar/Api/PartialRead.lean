import Mathlib.Data.List.TakeDrop
import ReleaseRadar.Api.RolloutWrite
import ReleaseRadar.Notify.System
import ReleaseRadar.Store.ReadPaths

/-!
# A rollout read in part

pgx ends an iteration that fails like one that is through: `Next` returns false, and the
error waits in `rows.Err()`. `hydrateAll` asks for it after each of its three loops, so
`Rollouts` is complete or an error. `hydrate` never asks, and each of its lists is whatever
the loop had seen when it ended (`rollout_seen`).

So `Rollout` returns a rollout that is not the stored one exactly when nothing refuses the
read and one of the three iterations ends before its last row (`read_complete_iff`), and so
do its callers: a create whose read-back is cut at the first stage answers 201 with no
stages and enqueues nothing, and the dispatcher gives up a row whose stage is there.
-/

namespace ReleaseRadar.Api

open Lib Repository

/-- The iteration over the rows of call `i` ends before its last row. -/
def CutShort (F : Faults Err) (i rows : Nat) : Prop := ∃ k < rows, ∃ e, F i = some (.cut k e)

/-- One of the three iterations of a read that starts at `c` ends before its last row. -/
def Truncated (F : Faults Err) (c : Conn Store) (id : String) : Prop :=
  CutShort F (c.calls + 1) (stageRows c.store id).length ∨
    CutShort F (c.calls + 2) (pairRows c.store id).length ∨
    CutShort F (c.calls + 3) (taskRows c.store id).length

/-- The read of `id` that starts at `c` is refused: by the id, for want of the rollout, or
by one of its calls. -/
def ReadRefused (F : Faults Err) (c : Conn Store) (id : String) : Prop :=
  hasNul id = true ∨ c.store.hasRollout id = false ∨ (F c.calls).isSome ∨
    ∃ i < 3, ∃ e, F (c.calls + 1 + i) = some (.fail e)

/-- An error, or the rollout with all its stages, pair and tasks. -/
def ErrorOrComplete (s : Store) (id : String) : Except Err Rollout → Prop
  | .error _ => True
  | .ok ro => ro.stages = some (stagesOf s id) ∧
      ro.pair = some ((pairRows s id).map (·.actorId)) ∧ ro.tasks = some (tasksOf s id)

/-! ## What a loop has seen -/

/-- How many of `total` rows the iteration of call `i` yields. -/
def seenOf (F : Faults Err) (i total : Nat) : Nat :=
  match F i with
  | some (.cut k _) => k
  | _ => total

theorem take_seenOf {α : Type} {F : Faults Err} {i : Nat} {rows : List α} :
    rows.take (seenOf F i rows.length) = rows ↔ ¬CutShort F i rows.length := by
  rw [List.take_eq_self_iff]
  unfold seenOf CutShort
  constructor
  · rintro hle ⟨k, hk, e, hF⟩
    rw [hF] at hle
    exact absurd hk (Nat.not_lt.mpr hle)
  · intro hcut
    split
    · next k e hF =>
      by_contra hlt
      exact hcut ⟨k, Nat.lt_of_not_le hlt, e, hF⟩
    · exact Nat.le_refl _

/-- A query that is not refused yields the rows it saw. -/
theorem select_seenOf {ρ : Type} {params : List String} (f : Store → List ρ) {F : Faults Err}
    {c : Conn Store} (hp : params.any hasNul = false) (hF : ∀ e, F c.calls ≠ some (.fail e)) :
    ∃ err, select params f F c =
      (.ok ⟨(f c.store).take (seenOf F c.calls (f c.store).length), err⟩,
        ⟨c.store, c.calls + 1⟩) := by
  unfold select Db.query seenOf
  rw [hp]
  cases hc : F c.calls with
  | none => exact ⟨none, by simp⟩
  | some x =>
    cases x with
    | fail e => exact absurd hc (hF e)
    | cut k e => exact ⟨some e, by simp⟩

section Read

variable {F : Faults Err} {c : Conn Store} {id : String}

/-- **What `Rollout` returns** when nothing refuses it: of each list, as much as its loop
has seen. -/
theorem rollout_seen (h : ¬ReadRefused F c id) :
    ∃ r c', rollout id F c = (.ok { scanRollout r with
      stages := some ((stagesOf c.store id).take
        (seenOf F (c.calls + 1) (stagesOf c.store id).length))
      pair := some (((pairRows c.store id).map (·.actorId)).take
        (seenOf F (c.calls + 2) ((pairRows c.store id).map (·.actorId)).length))
      tasks := some ((tasksOf c.store id).take
        (seenOf F (c.calls + 3) (tasksOf c.store id).length)) }, c') := by
  simp only [ReadRefused, not_or, not_exists, not_and, Bool.not_eq_true] at h
  obtain ⟨hnul, hhas, hrow, hcalls⟩ := h
  have hp : [id].any hasNul = false := by simp [hnul]
  rw [hasRollout_eq_find, Bool.not_eq_false] at hhas
  obtain ⟨r, hr⟩ := Option.isSome_iff_exists.mp hhas
  have hid : r.id = id := by simpa using List.find?_some hr
  have hF : F c.calls = none := by
    rw [← Option.not_isSome_iff_eq_none, Bool.not_eq_true]
    exact hrow
  have hsame : (scanRollout r).id = id := hid
  obtain ⟨e₁, h₁⟩ := select_seenOf (fun s => (stageRows s id).map scanStage) hp
    (c := ⟨c.store, c.calls + 1⟩) (hcalls 0 (by omega))
  obtain ⟨e₂, h₂⟩ := select_seenOf (fun s => (pairRows s id).map (·.actorId)) hp
    (c := ⟨c.store, c.calls + 1 + 1⟩) (hcalls 1 (by omega))
  obtain ⟨e₃, h₃⟩ := select_seenOf (fun s => (taskRows s id).map scanTask) hp
    (c := ⟨c.store, c.calls + 1 + 1 + 1⟩) (hcalls 2 (by omega))
  refine ⟨r, ⟨c.store, c.calls + 4⟩, ?_⟩
  have hrow' : rollout id F c = hydrate (scanRollout r) F ⟨c.store, c.calls + 1⟩ := by
    simp [rollout, Db.bind_def, stmt, Db.call, hF, hnul, hr]
  rw [hrow']
  unfold hydrate
  simp only [Db.bind_def, hsame, h₁, h₂, h₃]
  rfl

theorem rollout_refused (h : ReadRefused F c id) : ∃ e c', rollout id F c = (.error e, c') := by
  cases hr : rollout id F c with
  | mk res c' =>
    cases res with
    | error e => exact ⟨e, c', rfl⟩
    | ok ro =>
      exfalso
      obtain ⟨ro₁, c₁, hrow, hh⟩ := Db.bind_ok hr
      obtain ⟨st, c₂, h₂, hh⟩ := Db.bind_ok hh
      obtain ⟨pr, c₃, h₃, hh⟩ := Db.bind_ok hh
      obtain ⟨ts, c₄, h₄, -⟩ := Db.bind_ok hh
      have n₁ := stmt_calls hrow
      have n₂ := select_calls h₂
      have n₃ := select_calls h₃
      -- a query that went through was not refused
      have hquery : ∀ {ρ : Type} {params : List String} {f : Store → List ρ} {d d' : Conn Store}
          {rows : Rows ρ Err} (e : Err), select params f F d = (.ok rows, d') →
          F d.calls ≠ some (.fail e) := by
        intro ρ params f d d' rows e hq hF
        obtain ⟨all, -, ⟨hnone, -⟩ | ⟨k, e', hcut, -⟩⟩ := Db.query_seen hq
        · rw [hnone] at hF
          cases hF
        · rw [hcut] at hF
          cases hF
      rcases h with hnul | hhas | hfail | ⟨i, hi, e, hfail⟩
      · have := stmt_ok_params hrow
        simp [hnul] at this
      · obtain ⟨-, r, hfind, -⟩ := rollout_ok hr
        rw [hasRollout_eq_find, hfind] at hhas
        cases hhas
      · rw [Db.call_ok_faults hrow] at hfail
        cases hfail
      · rcases (by omega : i = 0 ∨ i = 1 ∨ i = 2) with rfl | rfl | rfl
        · exact hquery e h₂ (by rw [n₁]; exact hfail)
        · exact hquery e h₃ (by rw [n₂, n₁]; exact hfail)
        · exact hquery e h₄ (by rw [n₃, n₂, n₁]; exact hfail)

/-- **A read is an error or complete exactly when it is refused or none of its iterations
ends early.** -/
theorem read_complete_iff :
    ErrorOrComplete c.store id (rollout id F c).1 ↔ ReadRefused F c id ∨ ¬Truncated F c id := by
  by_cases h : ReadRefused F c id
  · obtain ⟨e, c', hr⟩ := rollout_refused h
    rw [hr]
    exact iff_of_true trivial (Or.inl h)
  · obtain ⟨r, c', hr⟩ := rollout_seen h
    rw [hr]
    simp only [ErrorOrComplete, Option.some.injEq, take_seenOf, h, false_or, Truncated, not_or]
    simp only [stagesOf, tasksOf, List.length_map]

end Read

/-! ## Everyone who reads -/

/-- What the dispatcher takes for the stage of a row. -/
theorem stage_of_complete {s : Store} {id : String} {ro : Rollout}
    (h : ErrorOrComplete s id (.ok ro)) :
    ro.stages.items = stagesOf s id := by
  rw [h.1]
  rfl

/-- **A partly read rollout**: `Rollout`, and with it what `CreateRollout` and
`UpdateRollout` return after their commit, is an error or complete exactly when the read is
refused or none of its iterations ends early; `Rollouts` always is; and from a complete one
the scheduler and the dispatcher take the stored stages. -/
theorem partial_read_iff (F : Faults Err) (c : Conn Store) :
    (∀ id, ErrorOrComplete c.store id (rollout id F c).1 ↔
      ReadRefused F c id ∨ ¬Truncated F c id) ∧
    (∀ now ro c₁, createRolloutCommit now ro F c = (.ok (), c₁) →
      (ErrorOrComplete c₁.store ro.id (Repository.createRollout now ro F c).1 ↔
        ReadRefused F c₁ ro.id ∨ ¬Truncated F c₁ ro.id)) ∧
    (∀ now ro c₁, updateRolloutTx now ro F c = (.ok (), c₁) →
      (ErrorOrComplete c₁.store ro.id (Repository.updateRollout now ro F c).1 ↔
        ReadRefused F c₁ ro.id ∨ ¬Truncated F c₁ ro.id)) ∧
    (∀ c' rs, RolloutKeys c.store → rollouts F c = (.ok rs, c') →
      ∀ ro ∈ rs, ErrorOrComplete c.store ro.id (.ok ro)) ∧
    ∀ c' id ro, rollout id F c = (.ok ro, c') → ¬Truncated F c id →
      (∀ clock, scheduleItems clock ro.stages.items = scheduleItems clock (stagesOf c.store id)) ∧
      ∀ n rest, Notify.loadRow n rest (.ok ro) = .marking n "stage out of range" rest →
        (stagesOf c.store id).length ≤ n.stageSeq := by
  refine ⟨fun id => read_complete_iff, ?_, ?_, ?_, ?_⟩
  · intro now ro c₁ hcommit
    rw [Repository.createRollout, Db.bind_def, hcommit]
    exact read_complete_iff
  · intro now ro c₁ hcommit
    rw [Repository.updateRollout, Db.bind_def, hcommit]
    exact read_complete_iff
  · intro c' rs hk hrun ro hro
    obtain ⟨-, rfl⟩ := rollouts_ok hk.ids hrun
    obtain ⟨r, -, rfl⟩ := List.mem_map.mp hro
    exact ⟨rfl, rfl, rfl⟩
  · intro c' id ro hrun htrunc
    have hcomplete := read_complete_iff.mpr (Or.inr htrunc)
    rw [hrun] at hcomplete
    have hstages := stage_of_complete hcomplete
    refine ⟨fun clock => by rw [hstages], fun n rest hload => ?_⟩
    simp only [Notify.loadRow, hstages] at hload
    split at hload
    · next hnone => exact List.getElem?_eq_none_iff.mp hnone
    · cases hload

/-! ## A cut at the first stage -/

private def atMidnightUtc : Env := ⟨0, 0, "01234567", Char.toUpper, Char.toLower, fun _ => 0⟩

private def editor : Session := ⟨"", "", "", roleAdmin, none, 0⟩

/-- The iteration of call `i` ends before its first row. -/
private def cutAt (i : Nat) : Faults Err := fun k =>
  if k = i then some (.cut 0 (.other "connection reset")) else none

/-- A create whose read-back loses its stages: the query for them is the eighth call. -/
def createCut : Reply × Conn Store :=
  serve (createRollout atMidnightUtc editor (some (Notify.sampleRollout "non-prod" (5 * hour))))
    (cutAt 7) ⟨Notify.sampleStore, 0⟩

/-- Reading what that create has stored, without a failure, is complete. -/
theorem partial_read_iff_whole :
    (∃ ro c', rollout "r1" Db.noFaults ⟨createCut.2.store, 0⟩ = (.ok ro, c') ∧
      scheduleItems 0 ro.stages.items = scheduleItems 0 (stagesOf createCut.2.store "r1")) ∧
    ∃ rs c', rollouts Db.noFaults ⟨createCut.2.store, 0⟩ = (.ok rs, c') ∧
      ∀ ro ∈ rs, ErrorOrComplete createCut.2.store ro.id (.ok ro) := by
  have hkeys : RolloutKeys createCut.2.store := ⟨by decide +kernel, by decide +kernel⟩
  have hhas : createCut.2.store.hasRollout "r1" = true := by decide +kernel
  -- what the run has stored does not matter from here on
  generalize createCut.2.store = s at hkeys hhas ⊢
  have hwhole : ¬Truncated Db.noFaults ⟨s, 0⟩ "r1" := by
    rintro (⟨k, -, e, h⟩ | ⟨k, -, e, h⟩ | ⟨k, -, e, h⟩) <;> cases h
  constructor
  · obtain ⟨r, -, hr⟩ := rollout_clean (F := Db.noFaults) (c := ⟨s, 0⟩) (fun _ _ => rfl)
      (show hasNul "r1" = false by decide) hhas
    exact ⟨_, _, hr, ((partial_read_iff _ _).2.2.2.2 _ _ _ hr hwhole).1 0⟩
  · obtain ⟨c', hm, -⟩ := run_eq (rollouts_run hkeys)
    exact ⟨_, c', hm, (partial_read_iff _ ⟨s, 0⟩).2.2.2.1 _ _ hkeys hm⟩

/-- **A rollout with no stages**: the stage is stored, but the create answers 201 with an
empty list and enqueues nothing; and the dispatcher, its read cut in the same place, gives
the row of the stored stage up as out of range. -/
theorem stages_lost_on_read :
    createCut.1.status = 201 ∧ (stagesOf createCut.2.store "r1").length = 1 ∧
      createCut.2.store.notifications.rows = [] ∧
      ∃ ro, (rollout "r1" (cutAt 1) ⟨createCut.2.store, 0⟩).1 = .ok ro ∧ ro.stages = some [] ∧
        ¬ErrorOrComplete createCut.2.store "r1" (.ok ro) ∧
        ∀ n : Notification, Notify.loadRow n [] (.ok ro) = .marking n "stage out of range" [] := by
  have hstored : (stagesOf createCut.2.store "r1").length = 1 := by decide +kernel
  have hread : ∃ ro, (rollout "r1" (cutAt 1) ⟨createCut.2.store, 0⟩).1.toOption = some ro ∧
      ro.stages = some [] := by decide +kernel
  refine ⟨by decide +kernel, hstored, by decide +kernel, ?_⟩
  obtain ⟨ro, hro, hempty⟩ := hread
  cases hres : (rollout "r1" (cutAt 1) ⟨createCut.2.store, 0⟩).1 with
  | error e => rw [hres] at hro; cases hro
  | ok ro' =>
    rw [hres] at hro
    obtain rfl := Option.some.inj hro
    refine ⟨ro', rfl, hempty, fun h => ?_, fun n => ?_⟩
    · have := stage_of_complete h
      rw [hempty] at this
      rw [← this] at hstored
      cases hstored
    · simp only [Notify.loadRow, hempty]
      rfl

end ReleaseRadar.Api
