import Mathlib.Tactic.Linarith
import ReleaseRadar.Frontend.Stage
import ReleaseRadar.Lib.Machine

/-!
# The cascade plan editor

The plan of a rollout type in `master-data-view.component.ts`. Its first entry is the start of
the rollout: `cascadeStages` anchors it at the chosen start when it has no delay, and the page
disables the input of that delay. `removeStage` is offered for every entry and does not rebase
the others, so without its first entry a plan begins with the delay of the next one
(`first_removed`).

`cascade_starts_iff` says which edits a run must leave out for its plans to begin at the start.
-/

namespace ReleaseRadar.Frontend

open Lib JsDate

/-! ## The editor -/

/-- `Partial<CascadeStage>`. -/
structure CascadePatch where
  stage : Option String
  delayHours : Option ℚ

def CascadePatch.apply (patch : CascadePatch) (p : CascadeStage) : CascadeStage :=
  ⟨patch.stage.getD p.stage, patch.delayHours.getD p.delayHours⟩

/-- The plan of `newType`. -/
def newTypePlan : List CascadeStage := [⟨"non-prod", 0⟩]

def addStage (cascadePlan : List CascadeStage) (key : String) : List CascadeStage :=
  -- a week after the last one; an empty plan begins at the start
  let delay := match cascadePlan.getLast? with
    | some last => last.delayHours + 168
    | none => 0
  cascadePlan ++ [⟨key, delay⟩]

def patchStage (cascadePlan : List CascadeStage) (i : Nat) (patch : CascadePatch) :
    List CascadeStage :=
  cascadePlan.mapIdx fun idx p => if idx = i then patch.apply p else p

def removeStage (cascadePlan : List CascadeStage) (i : Nat) : List CascadeStage :=
  (cascadePlan.zipIdx.filter fun e => e.2 ≠ i).map Prod.fst

/-- What the page offers for a plan: a button for each stage that is not in it, and in each row
a select, an input and a button. -/
inductive PlanEdit
  | addStage (key : String)
  | selectStage (i : Nat) (stage : String)
  | inputDelay (i : Nat) (delayHours : ℚ)
  | removeStage (i : Nat)
deriving DecidableEq

def PlanEdit.step (cascadePlan : List CascadeStage) : PlanEdit → Option (List CascadeStage)
  | .addStage key => some (Frontend.addStage cascadePlan key)
  | .selectStage i stage => some (patchStage cascadePlan i ⟨some stage, none⟩)
  -- `[disabled]="i === 0"`
  | .inputDelay i delayHours =>
    if i = 0 then none else some (patchStage cascadePlan i ⟨none, some delayHours⟩)
  | .removeStage i => some (Frontend.removeStage cascadePlan i)

def planEditor : Machine (List CascadeStage) PlanEdit where
  step := PlanEdit.step

/-! ## The first entry -/

/-- The first entry has no delay. -/
def Anchored (cascadePlan : List CascadeStage) : Prop := ∀ p ∈ cascadePlan.head?, p.delayHours = 0

instance (cascadePlan : List CascadeStage) : Decidable (Anchored cascadePlan) :=
  inferInstanceAs (Decidable (∀ p ∈ cascadePlan.head?, _))

/-- The edit does not take the first entry away, or the next one has no delay either. -/
def KeepsAnchor (cascadePlan : List CascadeStage) : PlanEdit → Prop
  | .removeStage 0 => Anchored cascadePlan.tail
  | _ => True

instance (cascadePlan : List CascadeStage) : (e : PlanEdit) → Decidable (KeepsAnchor cascadePlan e)
  | .removeStage 0 => inferInstanceAs (Decidable (Anchored cascadePlan.tail))
  | .removeStage (_ + 1) => isTrue trivial
  | .addStage _ => isTrue trivial
  | .selectStage _ _ => isTrue trivial
  | .inputDelay _ _ => isTrue trivial

theorem anchored_addStage {plan : List CascadeStage} (h : Anchored plan) (key : String) :
    Anchored (addStage plan key) := by
  cases plan with
  | nil =>
    intro p hp
    obtain rfl := Option.some.inj hp
    rfl
  | cons q qs => exact h

theorem head?_patchStage (plan : List CascadeStage) (i : Nat) (patch : CascadePatch) :
    (patchStage plan i patch).head? = plan.head?.map fun p =>
      if 0 = i then patch.apply p else p := by
  cases plan with
  | nil => rfl
  | cons q qs => simp [patchStage]

/-- A patch of another entry, or of the name only. -/
theorem anchored_patchStage {plan : List CascadeStage} (h : Anchored plan) {i : Nat}
    {patch : CascadePatch}
    (hpatch : i = 0 → patch.delayHours = none) : Anchored (patchStage plan i patch) := by
  intro p hp
  rw [head?_patchStage] at hp
  obtain ⟨q, hq, rfl⟩ := Option.map_eq_some_iff.mp hp
  have hdelay := h q hq
  split
  · rename_i hi
    show patch.delayHours.getD q.delayHours = 0
    rw [hpatch hi.symm]
    exact hdelay
  · exact hdelay

/-- Indices are counted from `k` on. -/
theorem removed_from {α : Type} (xs : List α) (i k : Nat) :
    ((xs.zipIdx k).filter fun e => e.2 ≠ k + i).map Prod.fst = xs.eraseIdx i := by
  induction xs generalizing i k with
  | nil => rfl
  | cons x xs ih =>
    rw [List.zipIdx_cons]
    cases i with
    | zero =>
      -- the others have a larger index
      have hrest : (xs.zipIdx (k + 1)).filter (fun e => e.2 ≠ k + 0) = xs.zipIdx (k + 1) := by
        refine List.filter_eq_self.mpr fun e he => ?_
        have := List.le_snd_of_mem_zipIdx he
        simp only [Nat.add_zero, ne_eq, decide_not, Bool.not_eq_true', decide_eq_false_iff_not]
        omega
      rw [List.filter_cons_of_neg (by simp), hrest, List.zipIdx_map_fst]
      rfl
    | succ i =>
      rw [List.filter_cons_of_pos (by simp), List.map_cons, List.eraseIdx_cons_succ, ← ih i (k + 1)]
      simp only [Nat.add_right_comm k 1 i, Nat.add_assoc]

theorem removeStage_eq (plan : List CascadeStage) (i : Nat) :
    removeStage plan i = plan.eraseIdx i := by
  have h := removed_from plan i 0
  rw [Nat.zero_add] at h
  exact h

theorem anchored_removeStage_succ {plan : List CascadeStage} (h : Anchored plan) (i : Nat) :
    Anchored (removeStage plan (i + 1)) := by
  rw [removeStage_eq]
  cases plan with
  | nil => exact h
  | cons q qs => exact h

theorem removeStage_zero (plan : List CascadeStage) : removeStage plan 0 = plan.tail := by
  rw [removeStage_eq, List.eraseIdx_zero]

/-- One edit. -/
theorem step_anchored_iff {plan plan' : List CascadeStage} {e : PlanEdit} (h : Anchored plan)
    (hs : planEditor.step plan e = some plan') : Anchored plan' ↔ KeepsAnchor plan e := by
  cases e with
  | addStage key =>
    obtain rfl := Option.some.inj hs
    exact iff_of_true (anchored_addStage h key) trivial
  | selectStage i stage =>
    obtain rfl := Option.some.inj hs
    exact iff_of_true (anchored_patchStage h fun _ => rfl) trivial
  | inputDelay i delayHours =>
    unfold planEditor PlanEdit.step at hs
    dsimp only at hs
    split at hs
    · cases hs
    · rename_i hi
      obtain rfl := Option.some.inj hs
      exact iff_of_true (anchored_patchStage h fun h0 => absurd h0 hi) trivial
  | removeStage i =>
    obtain rfl := Option.some.inj hs
    cases i with
    | zero =>
      show Anchored (removeStage plan 0) ↔ Anchored plan.tail
      rw [removeStage_zero]
    | succ i => exact iff_of_true (anchored_removeStage_succ h i) trivial

/-- Only the input of the first delay is ever disabled. -/
theorem keepsAnchor_of_disabled {plan : List CascadeStage} {e : PlanEdit}
    (hs : planEditor.step plan e = none) : KeepsAnchor plan e := by
  cases e with
  | inputDelay i delayHours => trivial
  | addStage key => cases hs
  | selectStage i stage => cases hs
  | removeStage i => cases hs

/-! ## The stages -/

/-- The instant is a number of milliseconds that a `Date` can have. -/
def Fits (base : TimeValue) (delayHours : ℚ) : Prop :=
  ∃ t : TimeValue, (t.val : ℚ) = base.val + delayHours * 3600000

/-- One stage for each entry, in order; the first starts at the chosen start, and each as much
later as its delay says. -/
structure FollowsPlan (base : TimeValue) (plan : List CascadeStage) (stages : List PlannedStage) :
    Prop where
  envs : stages.map (·.env) = if plan = [] then ["non-prod"] else plan.map (·.stage)
  first : stages.head?.map (·.startAt) = some (toISOString base.val)
  delays : ∀ (i : Nat) (p : CascadeStage) (s : PlannedStage), plan[i]? = some p →
    stages[i]? = some s →
    ∃ t : Int, (t : ℚ) = base.val + p.delayHours * 3600000 ∧ s.startAt = toISOString t

/-- All the stages, or none. -/
theorem mapM_eq_some_iff {α β : Type} {f : α → Option β} {xs : List α} {ys : List β} :
    xs.mapM f = some ys ↔ List.Forall₂ (fun x y => f x = some y) xs ys := by
  induction xs generalizing ys with
  | nil =>
    rw [List.mapM_nil]
    constructor
    · intro h
      obtain rfl := Option.some.inj h
      exact .nil
    · intro h
      cases h
      rfl
  | cons x xs ih =>
    rw [List.mapM_cons]
    constructor
    · intro h
      obtain ⟨y, hy, h⟩ := Option.bind_eq_some_iff.mp h
      obtain ⟨ys, hys, h⟩ := Option.bind_eq_some_iff.mp h
      obtain rfl := Option.some.inj h
      exact .cons hy (ih.mp hys)
    · intro h
      cases h with
      | cons hy hys =>
        rw [hy, ih.mpr hys]
        rfl

theorem exists_forall₂ {α β : Type} {R : α → β → Prop} {xs : List α}
    (h : ∀ x ∈ xs, ∃ y, R x y) : ∃ ys, List.Forall₂ R xs ys := by
  induction xs with
  | nil => exact ⟨[], .nil⟩
  | cons x xs ih =>
    obtain ⟨y, hy⟩ := h x List.mem_cons_self
    obtain ⟨ys, hys⟩ := ih fun z hz => h z (List.mem_cons_of_mem x hz)
    exact ⟨y :: ys, .cons hy hys⟩

/-- The stage of an entry. -/
def StageOf (base : TimeValue) (durationNs : Int) (p : CascadeStage) (s : PlannedStage) : Prop :=
  ∃ t, timeClip (base.val + p.delayHours * 3600000) = some t ∧
    ⟨p.stage, toISOString t.val, durationNs, "scheduled"⟩ = s

theorem cascadeStages_eq_some_iff {base : TimeValue} {plan : List CascadeStage} {durationHours : ℚ}
    {stages : List PlannedStage} : cascadeStages base plan durationHours = some stages ↔
      List.Forall₂ (StageOf base (hoursToNs durationHours)) (planEntries plan) stages := by
  unfold cascadeStages
  dsimp only
  rw [mapM_eq_some_iff]
  simp only [Option.map_eq_some_iff]
  rfl

theorem exists_stageOf {base : TimeValue} {p : CascadeStage} (h : Fits base p.delayHours)
    (durationNs : Int) : ∃ s, StageOf base durationNs p s := by
  obtain ⟨t, ht⟩ := h
  exact ⟨_, t, by rw [← ht, timeClip_val], rfl⟩

theorem followsPlan_of_fits {base : TimeValue} {plan : List CascadeStage} {durationNs : Int}
    {stages : List PlannedStage} (h : Anchored plan)
    (hfits : ∀ p ∈ planEntries plan, Fits base p.delayHours)
    (hstages : List.Forall₂ (StageOf base durationNs) (planEntries plan) stages) :
    FollowsPlan base plan stages := by
  constructor
  · have henvs : List.Forall₂ (· = ·) (stages.map (·.env)) ((planEntries plan).map (·.stage)) := by
      rw [List.forall₂_map_left_iff, List.forall₂_map_right_iff]
      refine hstages.flip.imp fun s p hp => ?_
      obtain ⟨t, -, rfl⟩ := hp
      rfl
    rw [List.forall₂_eq_eq_eq] at henvs
    cases plan with
    | nil => exact henvs
    | cons q qs => exact henvs
  · -- the first entry has no delay
    obtain ⟨p, ps, hp, hdelay⟩ : ∃ p ps, planEntries plan = p :: ps ∧ p.delayHours = 0 := by
      cases plan with
      | nil => exact ⟨⟨"non-prod", 0⟩, [], rfl, rfl⟩
      | cons q qs => exact ⟨q, qs, rfl, h q rfl⟩
    rw [hp] at hstages
    obtain ⟨s, ss, ⟨t, ht, rfl⟩, -, rfl⟩ := List.forall₂_cons_left_iff.mp hstages
    rw [hdelay, zero_mul, add_zero, timeClip_val] at ht
    obtain rfl := Option.some.inj ht
    rfl
  · intro i p s hp hs
    cases plan with
    | nil => cases hp
    | cons q qs =>
      obtain ⟨hi, rfl⟩ := List.getElem?_eq_some_iff.mp hp
      obtain ⟨hi', rfl⟩ := List.getElem?_eq_some_iff.mp hs
      obtain ⟨t, ht, hstage⟩ := List.Forall₂.get hstages hi hi'
      obtain ⟨u, hu⟩ := hfits _ (List.getElem_mem hi)
      rw [List.get_eq_getElem] at ht hstage
      change timeClip (base.val + (q :: qs)[i].delayHours * 3600000) = some t at ht
      rw [← hu, timeClip_val] at ht
      obtain rfl := Option.some.inj ht
      rw [List.get_eq_getElem] at hstage
      exact ⟨u.val, hu, by rw [← hstage]⟩

/-- The plan is expanded as it says just when every stage has a start. -/
theorem followsPlan_iff {plan : List CascadeStage} (h : Anchored plan) (base : TimeValue)
    (durationHours : ℚ) :
    (∃ stages, cascadeStages base plan durationHours = some stages ∧ FollowsPlan base plan stages) ↔
      ∀ p ∈ plan, Fits base p.delayHours := by
  constructor
  · rintro ⟨stages, hstages, hfollows⟩ p hp
    rw [cascadeStages_eq_some_iff] at hstages
    have hentries : planEntries plan = plan := by
      cases plan with
      | nil => cases hp
      | cons q qs => rfl
    rw [hentries] at hstages
    obtain ⟨i, hi, hget⟩ := List.mem_iff_getElem.mp hp
    have hi' : i < stages.length := hstages.length_eq ▸ hi
    obtain ⟨t, ht, -⟩ := List.Forall₂.get hstages hi hi'
    obtain ⟨n, hn, -⟩ := hfollows.delays i p stages[i] (by rw [List.getElem?_eq_getElem hi, hget])
      (List.getElem?_eq_getElem hi')
    rw [List.get_eq_getElem, hget, ← hn] at ht
    exact ⟨t, by rw [timeClip_intCast ht, hn]⟩
  · intro hfits
    have hentries : ∀ p ∈ planEntries plan, Fits base p.delayHours := by
      intro p hp
      cases plan with
      | nil =>
        obtain rfl := List.mem_singleton.mp hp
        exact ⟨base, by ring⟩
      | cons q qs => exact hfits p hp
    obtain ⟨stages, hstages⟩ := exists_forall₂ fun p hp =>
      exists_stageOf (hentries p hp) (hoursToNs durationHours)
    exact ⟨stages, cascadeStages_eq_some_iff.mpr hstages, followsPlan_of_fits h hentries hstages⟩

/-! ## A run of the editor -/

/-- The first entry has no delay, and the plan is expanded as it says wherever its stages have a
start. -/
def StartsAtBase (plan : List CascadeStage) : Prop :=
  Anchored plan ∧ ∀ (base : TimeValue) (durationHours : ℚ),
    (∃ stages, cascadeStages base plan durationHours = some stages ∧ FollowsPlan base plan stages) ↔
      ∀ p ∈ plan, Fits base p.delayHours

theorem startsAtBase_iff {plan : List CascadeStage} : StartsAtBase plan ↔ Anchored plan :=
  ⟨And.left, fun h => ⟨h, followsPlan_iff h⟩⟩

/-- **The cascade starts when the user says**, in all the plans that a run of edits goes through,
exactly when the run never takes the first entry from before one with a delay. -/
theorem cascade_starts_iff {plan : List CascadeStage} (h : Anchored plan) (edits : List PlanEdit) :
    (∀ es, es <+: edits → ∀ plan', planEditor.exec plan es = some plan' → StartsAtBase plan') ↔
      planEditor.Along KeepsAnchor plan edits := by
  simp only [startsAtBase_iff]
  exact planEditor.exec_prefix_iff_along (fun _ _ _ h hs => step_anchored_iff h hs)
    (fun _ _ hs => keepsAnchor_of_disabled hs) h

/-- A stage is added to a new type, and its delay set. -/
theorem cascade_starts_iff_added : StartsAtBase [⟨"non-prod", 0⟩, ⟨"prod1", 24⟩] :=
  (cascade_starts_iff (show Anchored newTypePlan by decide)
    [.addStage "prod1", .inputDelay 1 24]).mpr (by decide) _ (List.prefix_refl _) _ rfl

/-- **The first entry is removed**: the stage that is left starts a week after the chosen start,
and its input is disabled. -/
theorem first_removed :
    planEditor.exec newTypePlan [.addStage "prod1", .removeStage 0] = some [⟨"prod1", 168⟩] ∧
      ¬ Anchored [⟨"prod1", 168⟩] ∧ planEditor.step [⟨"prod1", 168⟩] (.inputDelay 0 0) = none ∧
      ∃ stages, cascadeStages ⟨0, by decide⟩ [⟨"prod1", 168⟩] 2 = some stages ∧
        stages.map (·.startAt) = [toISOString 604800000] := by
  refine ⟨?_, by decide, rfl, _,
    cascadeStages_eq_some_iff.mpr (.cons ⟨⟨604800000, by decide⟩, ?_, rfl⟩ .nil), rfl⟩
  · decide +kernel
  · have h := timeClip_val ⟨604800000, by decide⟩
    norm_num at h ⊢
    exact h

end ReleaseRadar.Frontend
