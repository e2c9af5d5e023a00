import ReleaseRadar.Lib.JsDate

/-!
# Stages

`core/stage.ts`: durations in hours and in nanoseconds, the expansion of a cascade plan into
dated stages, and the key of a day. Numbers are exact. A text that `Date` reads is its time
value.
-/

namespace ReleaseRadar.Frontend

open Lib JsDate

def NS_PER_HOUR : ℚ := 3600000000000

/-- Halves go up. -/
def hoursToNs (hours : ℚ) : Int := ⌊hours * NS_PER_HOUR + 1 / 2⌋

def nsToHours (ns : Int) : ℚ := ns / NS_PER_HOUR

/-- A step of a cascade plan, as the pages hold it. -/
structure CascadeStage where
  stage : String
  delayHours : ℚ
deriving DecidableEq

structure PlannedStage where
  env : String
  startAt : List Char
  durationNs : Int
  status : String
deriving DecidableEq

/-- The entries that are expanded. -/
def planEntries (plan : List CascadeStage) : List CascadeStage :=
  if plan.length ≠ 0 then plan else [⟨"non-prod", 0⟩]

/-- `none` when a start is out of range: `toISOString` throws. -/
def cascadeStages (base : TimeValue) (plan : List CascadeStage) (durationHours : ℚ) :
    Option (List PlannedStage) :=
  let durationNs := hoursToNs durationHours
  (planEntries plan).mapM fun p =>
    (timeClip (base.val + p.delayHours * 3600000)).map fun startAt =>
      ⟨p.stage, toISOString startAt.val, durationNs, "scheduled"⟩

/-- The UTC day. -/
def dateKey (d : Int) : List Char := (toISOString d).take 10

end ReleaseRadar.Frontend
