import ReleaseRadar.Frontend.Cascade
import ReleaseRadar.Frontend.EditSession
import ReleaseRadar.Frontend.ScheduleRules
import ReleaseRadar.Lib.Double
import ReleaseRadar.Lib.IsoDate

/-!
# The create form

The values that `create-rollout-modal.component.ts` computes from what is in its fields: the
preview of the stages, the advisories, whether the form can be submitted, and what is submitted.
Numbers are doubles here. `none` is a `RangeError`: `toISOString` of a date that is none.

The preview needs a date, and `canSubmit` does not ask for one: it looks at the product, the
type and the title. Nor does it ask for a duration, and no number, zero or less is taken as it
is. So the form is sound exactly where its fields fit (`create_form_iff`): a start that is read,
every delay within the range of dates, and, where it can be submitted, a duration that is
rounded to a nanosecond or more.
-/

namespace ReleaseRadar.Frontend.CreateForm

open Lib JsDate ScheduleRules

/-! ## Numbers -/

/-- `x || 0`. -/
def orZero : Double → Double
  | .nan => .ofInt 0
  | x => x

/-- The `Date` of a number. -/
def newDate : Double → Option TimeValue
  | .finite x => timeClip x.val
  | _ => none

def NS_PER_HOUR : Double := .ofInt 3600000000000

def hoursToNs (hours : Double) : Double := ((orZero hours).mul NS_PER_HOUR).mathRound

/-! ## Stages -/

structure CascadeStage where
  stage : String
  delayHours : Double

structure PlannedStage where
  env : String
  startAt : List Char
  durationNs : Double
  status : String

/-- What the page runs in: its time zone, what `Date.parse` makes of other texts than those of
`parse`, and the clock. -/
structure Browser where
  zone : Zone
  other : List Char → Option TimeValue
  now : TimeValue

def Browser.parse (env : Browser) (text : List Char) : Option TimeValue :=
  JsDate.parse env.zone env.other text

/-- The entries that are expanded. -/
def planEntries (plan : List CascadeStage) : List CascadeStage :=
  if plan.length ≠ 0 then plan else [⟨"non-prod", .ofInt 0⟩]

def cascadeStages (env : Browser) (baseISO : List Char) (plan : List CascadeStage)
    (durationHours : Double) : Option (List PlannedStage) :=
  let base : Double := match env.parse baseISO with
    | some t => .ofInt t.val
    | none => .nan
  let durationNs := hoursToNs durationHours
  (planEntries plan).mapM fun p =>
    (newDate (base.add ((orZero p.delayHours).mul (.ofInt 3600000)))).map fun startAt =>
      ⟨p.stage, toISOString startAt.val, durationNs, "scheduled"⟩

/-- What the advisories take of a stage's description; `none` is `undefined`. -/
structure StageMeta where
  label : Option String
  minAdvanceHours : Option Nat

/-- The names that every object has: `STAGE` finds them, and they describe no stage. -/
def objectPrototype : List String :=
  ["constructor", "__proto__", "hasOwnProperty", "isPrototypeOf", "propertyIsEnumerable",
    "toLocaleString", "toString", "valueOf", "__defineGetter__", "__defineSetter__",
    "__lookupGetter__", "__lookupSetter__"]

def getStage (key : String) : StageMeta :=
  if key = "non-prod" then ⟨some "non-prod", some 1⟩
  else if key = "prod1" then ⟨some "prod1 · Frankfurt", some 168⟩
  else if key = "prod2" then ⟨some "prod2 · Zeus", some 336⟩
  else if objectPrototype.contains key then ⟨none, none⟩
  else ⟨some key, some 24⟩

/-! ## The form -/

structure RolloutType where
  id : String
  cascadePlan : Option (List CascadeStage)

/-- The signals that the computed ones and `submit` read. -/
structure Form where
  types : List RolloutType
  productId : String
  typeId : String
  title : String
  startDate : String
  startTime : String
  durationHours : Double
  descExt : String
  descInt : String
  risks : String
  pairText : String
  submitting : Bool
  error : Option String

def selectedType (form : Form) : Option RolloutType := form.types.find? (·.id == form.typeId)

def baseISO (form : Form) : List Char :=
  form.startDate.toList ++ 'T' :: form.startTime.toList ++ [':', '0', '0']

/-- The plan of the selected type. -/
def selectedPlan (form : Form) : List CascadeStage :=
  ((selectedType form).bind (·.cascadePlan)).getD []

def preview (env : Browser) (form : Form) : Option (List PlannedStage) :=
  cascadeStages env (baseISO form) (selectedPlan form) form.durationHours

def canSubmit (form : Form) : Bool :=
  form.productId ≠ "" && form.typeId ≠ "" && 0 < (trim form.title.toList).length && !form.submitting

/-- What is said about one stage. -/
def stageAdvisories (env : Browser) (s : PlannedStage) : List String :=
  let info := getStage s.env
  let label := info.label.getD "undefined"
  match env.parse s.startAt with
  | some d =>
    let leadHours := nearest (nearest (d.val - env.now.val) / 3600000)
    let lead := match info.minAdvanceHours with
      | some minAdvanceHours =>
        if minAdvanceHours ≠ 0 ∧ leadHours < minAdvanceHours then
          [label ++ ": only " ++ toString (max 0 ⌊leadHours + 1 / 2⌋) ++
            "h lead time — policy asks for ≥ " ++ toString minAdvanceHours ++ "h advance notice."]
        else []
      | none => []
    lead ++ (scheduleWarnings env.zone d).map fun w => label ++ ": " ++ w
  -- every holiday of the year `NaN` has the key of this date, and the last one set stays
  | none =>
    [holidayText "Stephanstag", dayBeforeText "Stephanstag"].map fun w => label ++ ": " ++ w

def scheduleAdvisories (env : Browser) (form : Form) : Option (List String) :=
  (preview env form).map fun stages => stages.flatMap (stageAdvisories env)

/-- The body of the request. -/
structure CreateBody where
  product : String
  typeId : String
  title : String
  descExt : String
  descInt : String
  risks : String
  stages : List PlannedStage
  pair : List String

inductive Submission
  | ignored
  | thrown
  | sent (body : CreateBody)

/-- The form after a submission, and what was sent. -/
def submit (env : Browser) (form : Form) : Form × Submission :=
  if canSubmit form then
    let pair := ((form.pairText.toList.splitOnP (· == ',')).map trim).filter (· ≠ "")
    ({ form with submitting := true, error := none },
      match preview env form with
      | some stages =>
        .sent ⟨form.productId, form.typeId, trim form.title.toList, form.descExt, form.descInt,
          form.risks, stages, pair⟩
      | none => .thrown)
  else (form, .ignored)

/-! ## What fits -/

/-- The start of an entry. -/
def startOf (base : TimeValue) (delayHours : Double) : Option TimeValue :=
  newDate ((Double.ofInt base.val).add ((orZero delayHours).mul (.ofInt 3600000)))

/-- The delay in milliseconds is a number, and the start is no more than half a millisecond
beyond the range of dates: that half is rounded off. -/
def StartFits (base : TimeValue) (delayHours : Double) : Prop :=
  ∃ ms : Double.Value, (orZero delayHours).mul (.ofInt 3600000) = .finite ms ∧
    |(base.val : ℚ) + ms.val| ≤ 8640000000000000 + 1 / 2

/-- The duration is half a nanosecond, but for the last place of a half, or more; and not too
large. -/
def DurationFits : Double → Prop
  | .finite hours => 1 / 2 - 1 / 2 ^ 55 ≤ hours.val * 3600000000000 ∧
      hours.val * 3600000000000 < (2 ^ 53 - 1 / 2) * ulpMax
  | _ => False

structure Fits (env : Browser) (form : Form) : Prop where
  starts : ∃ base, env.parse (baseISO form) = some base ∧
    ∀ p ∈ planEntries (selectedPlan form), StartFits base p.delayHours
  duration : canSubmit form → DurationFits form.durationHours

/-! ## Starts -/

theorem timeClip_isSome {x : ℚ} : (timeClip x).isSome ↔ |x| ≤ 8640000000000000 := by
  unfold timeClip
  rw [abs_le]
  split
  · next h => exact iff_of_true rfl h
  · next h => exact iff_of_false Bool.false_ne_true h

theorem abs_timeValue (t : TimeValue) : |t.val| ≤ 2 ^ 53 := by
  obtain ⟨hlow, hhigh⟩ := t.property
  exact abs_le.mpr ⟨by omega, by omega⟩

/-- A number that is too large is beyond the range of dates. -/
theorem newDate_round (x : ℚ) : newDate (.round x) = timeClip (nearest x) := by
  by_cases hlarge : |x| < (2 ^ 53 - 1 / 2) * ulpMax
  · rw [Double.round_eq_finite hlarge]
    rfl
  · rw [Double.round_eq_inf hlarge]
    refine (Option.not_isSome_iff_eq_none.mp fun hsome => ?_).symm
    have hbig := mt Double.abs_nearest_lt_iff.mp hlarge
    have hsmall := timeClip_isSome.mp hsome
    have hmax := lt_ulpMax
    linarith

theorem timeClip_nearest_isSome {x : ℚ} :
    (timeClip (nearest x)).isSome ↔ |x| ≤ 8640000000000000 + 1 / 2 := by
  have h := abs_nearest_le_iff (k := 8640000000000000) (x := x) (by decide) (by decide) (by decide)
  rw [timeClip_isSome]
  exact_mod_cast h

/-- A whole number is rounded only where it is out of range. -/
theorem timeClip_nearest_intCast (s : Int) : timeClip (nearest s) = timeClip s := by
  by_cases hs : |s| ≤ 2 ^ 53
  · rw [nearest_of_onGrid (onGrid_intCast hs)]
  · have hbig : (2 : ℚ) ^ 53 < |(s : ℚ)| := by exact_mod_cast not_le.mp hs
    have hnear : ¬(timeClip (nearest s)).isSome := by
      rw [timeClip_nearest_isSome]
      linarith
    have hexact : ¬(timeClip (s : ℚ)).isSome := by
      rw [timeClip_isSome]
      linarith
    rw [Option.not_isSome_iff_eq_none.mp hnear, Option.not_isSome_iff_eq_none.mp hexact]

/-- The delay in milliseconds decides. -/
theorem startOf_finite (base : TimeValue) {delayHours : Double} {ms : Double.Value}
    (h : (orZero delayHours).mul (.ofInt 3600000) = .finite ms) :
    startOf base delayHours = timeClip (nearest (base.val + ms.val)) := by
  obtain ⟨b, hb, hbval⟩ := Double.ofInt_eq (abs_timeValue base)
  rw [startOf, h, hb, Double.add, newDate_round, hbval]

theorem startOf_isSome (base : TimeValue) (delayHours : Double) :
    (startOf base delayHours).isSome ↔ StartFits base delayHours := by
  unfold StartFits
  cases hms : (orZero delayHours).mul (.ofInt 3600000) with
  | finite ms =>
    rw [startOf_finite base hms, timeClip_nearest_isSome]
    simp
  | nan =>
    obtain ⟨b, hb, -⟩ := Double.ofInt_eq (abs_timeValue base)
    simp [startOf, hms, hb, Double.add, newDate]
  | inf s =>
    obtain ⟨b, hb, -⟩ := Double.ofInt_eq (abs_timeValue base)
    simp [startOf, hms, hb, Double.add, newDate]

/-- A delay of so many hours leads out of the range of dates, however it is rounded. -/
theorem startOf_large (base : TimeValue) {n : Int} (h : 2 ^ 38 ≤ |n|) :
    startOf base (.ofInt n) = none := by
  refine Option.not_isSome_iff_eq_none.mp fun hsome => ?_
  obtain ⟨ms, hms, hsmall⟩ := (startOf_isSome base _).mp hsome
  obtain ⟨c, hc, hcval⟩ := Double.ofInt_eq (n := 3600000) (by decide)
  have hcpos : (0 : ℚ) < 3600000 := by norm_num
  have hlarge : (2 : ℚ) ^ (38 : Int) ≤ |(n : ℚ)| := by exact_mod_cast h
  have hgrid : OnGrid (2 ^ (38 : Int) * 3600000) := ⟨28125, 45, by norm_num, by norm_num, by decide⟩
  have hproduct : 2 ^ (38 : Int) * 3600000 ≤ |ms.val| := by
    rw [hc] at hms
    rcases Double.round_large (onGrid_zpow (by decide)) hlarge with ⟨s, hs⟩ | ⟨d, hd, hdlarge⟩
    · rw [Double.ofInt, hs, orZero, Double.mul, if_neg (by rw [hcval]; norm_num)] at hms
      · cases hms
      · exact Double.noConfusion
    · rw [Double.ofInt, hd, orZero, Double.mul, hcval] at hms
      · have hdc : 2 ^ (38 : Int) * 3600000 ≤ |d.val * ((3600000 : Int) : ℚ)| := by
          push_cast
          rw [abs_mul, abs_of_pos hcpos]
          exact mul_le_mul_of_nonneg_right hdlarge hcpos.le
        rcases Double.round_large hgrid hdc with ⟨s, hs⟩ | ⟨v, hv, hvlarge⟩
        · rw [hs] at hms
          cases hms
        · rw [hv] at hms
          cases hms
          exact hvlarge
      · exact Double.noConfusion
  have hbase : |(base.val : ℚ)| ≤ 2 ^ 53 := by exact_mod_cast abs_timeValue base
  have htriangle := abs_sub_abs_le_abs_sub ms.val (-(base.val : ℚ))
  rw [sub_neg_eq_add, abs_neg, add_comm] at htriangle
  norm_num at hproduct hbase hsmall
  linarith

/-- For a whole number of hours no digit is lost, and the start is the one of
`Frontend.cascadeStages`. -/
theorem startOf_ofInt (base : TimeValue) (n : Int) :
    startOf base (.ofInt n) = timeClip (base.val + n * 3600000) := by
  have hbase := abs_le.mp (abs_timeValue base)
  rcases lt_or_ge |n| (2 ^ 38) with hn | hn
  · obtain ⟨hlow, hhigh⟩ := abs_lt.mp hn
    obtain ⟨d, hd, hdval⟩ := Double.ofInt_eq (n := n) (abs_le.mpr ⟨by omega, by omega⟩)
    obtain ⟨c, hc, hcval⟩ := Double.ofInt_eq (n := 3600000) (by decide)
    -- 3600000 has seven factors two, and the rest of the product 53 places
    have hgrid : OnGrid ((n * 3600000 : Int) : ℚ) :=
      ⟨n * 28125, 7, by push_cast; ring, abs_le.mpr ⟨by omega, by omega⟩, by decide⟩
    have hsmall : |((n * 3600000 : Int) : ℚ)| < 2 ^ 53 * ulpMax := by
      have hmax := lt_ulpMax
      have hproduct : |n * 3600000| ≤ 2 ^ 60 := abs_le.mpr ⟨by omega, by omega⟩
      have hproduct : |((n * 3600000 : Int) : ℚ)| ≤ 2 ^ 60 := by exact_mod_cast hproduct
      norm_num at hmax hproduct ⊢
      linarith
    obtain ⟨ms, hms, hmsval⟩ := Double.round_of_onGrid hgrid hsmall
    have hproduct : (orZero (.ofInt n)).mul (.ofInt 3600000) = .finite ms := by
      rw [hd, orZero, hc, Double.mul, hdval, hcval, ← hms]
      · push_cast
        rfl
      · exact Double.noConfusion
    have hsum := timeClip_nearest_intCast (base.val + n * 3600000)
    push_cast at hmsval hsum
    rw [startOf_finite base hproduct, hmsval, hsum]
  · rw [startOf_large base hn]
    refine (Option.not_isSome_iff_eq_none.mp fun hsome => ?_).symm
    have hrange : |base.val + n * 3600000| ≤ 8640000000000000 := by
      exact_mod_cast timeClip_isSome.mp hsome
    obtain ⟨hlow, hhigh⟩ := abs_le.mp hrange
    rcases le_abs'.mp hn with h | h <;> omega

/-- So it is the range of dates that the delay has to keep to. -/
theorem startFits_ofInt (base : TimeValue) (n : Int) :
    StartFits base (.ofInt n) ↔ |base.val + n * 3600000| ≤ 8640000000000000 := by
  rw [← startOf_isSome, startOf_ofInt, timeClip_isSome]
  exact_mod_cast Iff.rfl

/-! ## Durations -/

theorem positive_product (hours : Double.Value) :
    ((Double.finite hours).mul NS_PER_HOUR).mathRound.Positive ↔ DurationFits (.finite hours) := by
  obtain ⟨n, hn, hnval⟩ := Double.ofInt_eq (n := 3600000000000) (by decide)
  unfold DurationFits
  rw [NS_PER_HOUR, hn, Double.mul, hnval]
  push_cast
  generalize hours.val * 3600000000000 = ns
  by_cases hlarge : |ns| < (2 ^ 53 - 1 / 2) * ulpMax
  · rw [Double.round_eq_finite hlarge]
    obtain ⟨v, hv, hvval⟩ := Double.mathRound_finite
      ⟨nearest ns, onGrid_nearest ns, Double.abs_nearest_lt_iff.mpr hlarge⟩
    have hhalf : 0 < v.val ↔ 1 / 2 ≤ nearest ns := by
      rw [hvval, Int.cast_pos, Int.floor_pos]
      constructor <;> intro h <;> linarith
    rw [hv, Double.Positive, hhalf, half_le_nearest_iff, and_iff_left (lt_of_abs_lt hlarge)]
  · rw [Double.round_eq_inf hlarge]
    refine iff_of_false (fun h => h) fun ⟨hlow, hhigh⟩ => hlarge ?_
    rwa [abs_of_nonneg (by norm_num at hlow ⊢; linarith)]

theorem hoursToNs_positive (hours : Double) : (hoursToNs hours).Positive ↔ DurationFits hours := by
  cases hours with
  | finite hours => exact positive_product hours
  | inf s =>
    obtain ⟨n, hn, hnval⟩ := Double.ofInt_eq (n := 3600000000000) (by decide)
    have hne : n.val ≠ 0 := by rw [hnval]; norm_num
    show ((Double.inf s).mul NS_PER_HOUR).mathRound.Positive ↔ False
    rw [NS_PER_HOUR, hn, Double.mul, if_neg hne]
    exact Iff.rfl
  | nan =>
    obtain ⟨z, hz, hzval⟩ := Double.ofInt_eq (n := 0) (by decide)
    rw [hoursToNs, orZero, hz, positive_product]
    refine iff_of_false (fun h => ?_) (fun h => h)
    have hlow := h.1
    rw [hzval] at hlow
    norm_num at hlow

/-! ## The form -/

/-- A stage that may be submitted. -/
structure PlannedStage.Valid (s : PlannedStage) : Prop where
  start : ∃ t : TimeValue, s.startAt = toISOString t.val
  duration : s.durationNs.Positive

/-- The form does not break, and submits nothing but rollouts. -/
structure Sound (env : Browser) (form : Form) : Prop where
  preview : (preview env form).isSome
  advisories : (scheduleAdvisories env form).isSome
  submitted : canSubmit form → ∃ body, (submit env form).2 = .sent body ∧
    body.stages ≠ [] ∧ ∀ s ∈ body.stages, s.Valid

theorem planEntries_ne_nil (plan : List CascadeStage) : planEntries plan ≠ [] := by
  unfold planEntries
  split
  · next h => exact fun he => h (by rw [he]; rfl)
  · simp

/-- The stage of an entry. -/
def StageOf (base : TimeValue) (durationNs : Double) (p : CascadeStage) (s : PlannedStage) : Prop :=
  ∃ t, startOf base p.delayHours = some t ∧
    ⟨p.stage, toISOString t.val, durationNs, "scheduled"⟩ = s

theorem cascadeStages_eq_some_iff {env : Browser} {baseISO : List Char} {plan : List CascadeStage}
    {durationHours : Double} {stages : List PlannedStage} :
    cascadeStages env baseISO plan durationHours = some stages ↔
      ∃ base, env.parse baseISO = some base ∧
        List.Forall₂ (StageOf base (hoursToNs durationHours)) (planEntries plan) stages := by
  unfold cascadeStages
  cases hbase : env.parse baseISO with
  | some base =>
    dsimp only
    rw [mapM_eq_some_iff]
    simp only [Option.map_eq_some_iff, Option.some.injEq, exists_eq_left']
    rfl
  | none =>
    -- the first entry has no start
    cases hentries : planEntries plan with
    | nil => exact absurd hentries (planEntries_ne_nil plan)
    | cons p ps =>
      refine iff_of_false (fun h => ?_) (fun ⟨_, h, _⟩ => by cases h)
      dsimp only at h
      rw [List.mapM_cons] at h
      obtain ⟨_, h, -⟩ := Option.bind_eq_some_iff.mp h
      cases h

theorem forall₂_exists {α β : Type} {R : α → β → Prop} {xs : List α} {ys : List β}
    (h : List.Forall₂ R xs ys) : (∀ x ∈ xs, ∃ y ∈ ys, R x y) ∧ ∀ y ∈ ys, ∃ x ∈ xs, R x y := by
  induction h with
  | nil => simp
  | cons hxy _ ih =>
    refine ⟨List.forall_mem_cons.mpr ⟨⟨_, List.mem_cons_self, hxy⟩, fun x hx => ?_⟩,
      List.forall_mem_cons.mpr ⟨⟨_, List.mem_cons_self, hxy⟩, fun y hy => ?_⟩⟩
    · obtain ⟨y, hy, h⟩ := ih.1 x hx
      exact ⟨y, List.mem_cons_of_mem _ hy, h⟩
    · obtain ⟨x, hx, h⟩ := ih.2 y hy
      exact ⟨x, List.mem_cons_of_mem _ hx, h⟩

/-- The preview is there where the start is read and every delay fits. -/
theorem preview_isSome {env : Browser} {form : Form} :
    (preview env form).isSome ↔ ∃ base, env.parse (baseISO form) = some base ∧
      ∀ p ∈ planEntries (selectedPlan form), StartFits base p.delayHours := by
  rw [Option.isSome_iff_exists]
  simp only [preview, cascadeStages_eq_some_iff]
  constructor
  · rintro ⟨stages, base, hbase, hstages⟩
    refine ⟨base, hbase, fun p hp => ?_⟩
    obtain ⟨s, -, t, ht, -⟩ := (forall₂_exists hstages).1 p hp
    exact (startOf_isSome base p.delayHours).mp (Option.isSome_iff_exists.mpr ⟨t, ht⟩)
  · rintro ⟨base, hbase, hfits⟩
    obtain ⟨stages, hstages⟩ := exists_forall₂ (R := StageOf base (hoursToNs form.durationHours))
      fun p hp => by
        obtain ⟨t, ht⟩ := Option.isSome_iff_exists.mp ((startOf_isSome base _).mpr (hfits p hp))
        exact ⟨_, t, ht, rfl⟩
    exact ⟨stages, base, hbase, hstages⟩

/-- What is in the preview: a start each, and all of the chosen duration. -/
theorem preview_stages {env : Browser} {form : Form} {stages : List PlannedStage}
    (h : preview env form = some stages) : stages ≠ [] ∧ ∀ s ∈ stages,
      (∃ t : TimeValue, s.startAt = toISOString t.val) ∧
        s.durationNs = hoursToNs form.durationHours := by
  obtain ⟨base, -, hstages⟩ := cascadeStages_eq_some_iff.mp h
  refine ⟨fun hnil => planEntries_ne_nil (selectedPlan form) ?_, fun s hs => ?_⟩
  · subst hnil
    exact List.forall₂_nil_right_iff.mp hstages
  · obtain ⟨p, -, t, -, rfl⟩ := (forall₂_exists hstages).2 s hs
    exact ⟨⟨t, rfl⟩, rfl⟩

/-- The advisories are about the stages: each start is read back from its text. -/
theorem preview_read_back {env : Browser} {form : Form} {stages : List PlannedStage}
    (h : preview env form = some stages) :
    ∀ s ∈ stages, ∃ t : TimeValue,
      s.startAt = toISOString t.val ∧ env.parse s.startAt = some t := by
  intro s hs
  obtain ⟨⟨t, ht⟩, -⟩ := (preview_stages h).2 s hs
  refine ⟨t, ht, ?_⟩
  rw [ht]
  exact parse_toISOString env.zone env.other t

/-- What the inputs write, up to the year 9999 and to the minute, is read as a local time. -/
theorem baseISO_read (env : Browser) {form : Form} {d : Gregorian.Date} {h m : Nat}
    (hdate : form.startDate.toList = isoDay d)
    (htime : form.startTime.toList = Decimal.zeroPad 2 h ++ ':' :: Decimal.zeroPad 2 m)
    (hd : d.Valid) (hyear : 0 ≤ d.year ∧ d.year ≤ 9999) (hh : h < 24) (hm : m < 60) :
    env.parse (baseISO form) = timeClip
      (env.zone.ofLocal (d.toDay * msPerDay + (h * 3600000 + m * 60000 : Nat))) := by
  rw [baseISO, hdate, htime, Browser.parse]
  exact parse_local env.zone env.other hd hyear hh hm

theorem submit_sent {env : Browser} {form : Form} {stages : List PlannedStage}
    (hcan : canSubmit form) (h : preview env form = some stages) :
    ∃ body, (submit env form).2 = .sent body ∧ body.stages = stages := by
  rw [submit, if_pos hcan, h]
  exact ⟨_, rfl, rfl⟩

theorem sound_iff_fits (env : Browser) (form : Form) : Sound env form ↔ Fits env form := by
  constructor
  · intro h
    refine ⟨preview_isSome.mp h.preview, fun hcan => ?_⟩
    obtain ⟨stages, hpreview⟩ := Option.isSome_iff_exists.mp h.preview
    obtain ⟨hne, hstages⟩ := preview_stages hpreview
    obtain ⟨body, hsent, rfl⟩ := submit_sent hcan hpreview
    obtain ⟨body', hsent', -, hvalid⟩ := h.submitted hcan
    obtain rfl : body = body' := Submission.sent.inj (hsent.symm.trans hsent')
    obtain ⟨s, hs⟩ := List.exists_mem_of_ne_nil _ hne
    rw [← hoursToNs_positive, ← (hstages s hs).2]
    exact (hvalid s hs).duration
  · intro h
    have hsome := preview_isSome.mpr h.starts
    obtain ⟨stages, hpreview⟩ := Option.isSome_iff_exists.mp hsome
    obtain ⟨hne, hstages⟩ := preview_stages hpreview
    refine ⟨hsome, by rw [scheduleAdvisories, hpreview]; rfl, fun hcan => ?_⟩
    obtain ⟨body, hsent, rfl⟩ := submit_sent hcan hpreview
    refine ⟨body, hsent, hne, fun s hs => ⟨(hstages s hs).1, ?_⟩⟩
    rw [(hstages s hs).2, hoursToNs_positive]
    exact h.duration hcan

/-- **When the create form is sound**: exactly when the start is read as a date, every delay
leads to a date, and the duration of what can be submitted is half a nanosecond or more and not
too large. For a whole number of hours the delay fits when the start is in the range of dates. -/
theorem create_form_iff (env : Browser) (form : Form) :
    (Sound env form ↔ Fits env form) ∧ ∀ (base : TimeValue) (n : Int),
      StartFits base (.ofInt n) ↔ |base.val + n * 3600000| ≤ 8640000000000000 :=
  ⟨sound_iff_fits env form, startFits_ofInt⟩

/-- A page in UTC that reads no other text. -/
private def utcPage : Browser := ⟨Zone.fixed 0, fun _ => none, ⟨1772000000000, by decide⟩⟩

/-- Everything is filled in, but the duration. -/
private def noDuration : Form :=
  ⟨[⟨"standard", some []⟩], "app", "standard", "Release", "2026-03-02", "10:00", .ofInt 0, "", "",
    "", "", false, none⟩

/-- The date is cleared: there is no preview. Or the duration is: it is submitted as zero. -/
theorem empty_fields_break_form :
    preview utcPage { noDuration with startDate := "" } = none ∧
      canSubmit noDuration = true ∧ ¬Sound utcPage noDuration := by
  refine ⟨rfl, by decide, fun h => ?_⟩
  obtain ⟨z, hz, hzval⟩ := Double.ofInt_eq (n := 0) (by decide)
  have hduration := ((sound_iff_fits _ _).mp h).duration (by decide)
  rw [show noDuration.durationHours = .ofInt 0 from rfl, hz] at hduration
  have hlow := hduration.1
  rw [hzval] at hlow
  norm_num at hlow

end ReleaseRadar.Frontend.CreateForm
