/-!
# The business entities

`backend/internal/domain/domain.go`, field by field. Two representation
choices run through the whole development:

* an instant and a `time.Duration` are `Int` nanoseconds, the instant counted
  from the Unix epoch. A `TIMESTAMPTZ` column holds whole microseconds, so a
  value that goes through the database is truncated (`pgTimestamp`,
  `pgInterval`);
* a Go slice is `Slice α`, a list that may be `nil`. The two differ only where
  the source lets them: `encoding/json` writes `null` for the one and `[]` for
  the other, and pgx sends `NULL` for the one and `'{}'` for the other.

Values that arrive in a request body and are checked by the database (a stage
status, a tone, a role) are strings, as in the source; closed vocabularies that
only the program writes are inductive types.
-/

namespace ReleaseRadar

def second : Int := 1000000000
def hour : Int := 3600 * second

/-- pgx sends a timestamp as whole microseconds, rounding down. -/
def pgTimestamp (t : Int) : Int := t - t % 1000

/-- pgx sends a duration as whole microseconds, rounding towards zero. -/
def pgInterval (d : Int) : Int := d.tdiv 1000 * 1000

/-- Postgres keeps microseconds, rounded down, -/
theorem pgTimestamp_le (t : Int) : pgTimestamp t ≤ t := by
  unfold pgTimestamp
  omega

/-- by less than one, -/
theorem lt_pgTimestamp (t : Int) : t - 1000 < pgTimestamp t := by
  unfold pgTimestamp
  omega

/-- Storing a stored instant again changes nothing. -/
@[simp] theorem pgTimestamp_idem (t : Int) : pgTimestamp (pgTimestamp t) = pgTimestamp t := by
  unfold pgTimestamp
  omega

/-- and keeps the order. -/
theorem pgTimestamp_mono {s t : Int} (h : s ≤ t) : pgTimestamp s ≤ pgTimestamp t := by
  unfold pgTimestamp
  omega

/-- `t.Sub(u)`: a difference outside `int64` saturates. -/
def timeSub (t u : Int) : Int := max (-9223372036854775808) (min 9223372036854775807 (t - u))

/-- A Go slice: `none` is `nil`. -/
abbrev Slice (α : Type) := Option (List α)

/-- What ranging over a slice visits. -/
def Slice.items {α : Type} (xs : Slice α) : List α := xs.getD []

@[simp] theorem Slice.items_some {α : Type} (xs : List α) : Slice.items (some xs) = xs := rfl

/-- `domain.RoleAdmin`. -/
def roleAdmin : String := "admin"

/-- `domain.RoleReadOnly`. -/
def roleReadOnly : String := "readonly"

/-- The statuses `rollout_stages` admits (`domain.StageStatus`). -/
def stageStatuses : List String := ["scheduled", "active", "blocked", "done", "failed"]

/-- The tones `rollout_types` admits (`domain.Tone`). -/
def tones : List String := ["neutral", "info", "warn", "danger", "ok"]

structure Product where
  id : String
  name : String
  owner : String
  brokers : Slice String
deriving DecidableEq, Repr

/-- One entry in a rollout type's cascade plan. -/
structure CascadeStage where
  stage : String
  delayHours : Int
deriving DecidableEq, Repr

structure RolloutType where
  id : String
  name : String
  short : String
  tone : String
  delayProd1 : Int
  delayProd2 : Int
  cascadePlan : Slice CascadeStage
  announce : String
  rules : Slice String
  tasks : Slice String
deriving DecidableEq, Repr

/-- Concrete dated entry, one per env in the cascade. -/
structure RolloutStage where
  env : String
  startAt : Int
  duration : Int
  status : String
deriving DecidableEq, Repr

/-- Inherited from the rollout type's tasks, plus a completion log entry.
`By` is `by_` here, `by` being a keyword. -/
structure RolloutTask where
  index : Nat
  description : String
  status : String
  reason : String
  by_ : String
  at_ : Option Int
deriving DecidableEq, Repr

structure Rollout where
  id : String
  productId : String
  typeId : String
  title : String
  descExt : String
  descInt : String
  risks : String
  stages : Slice RolloutStage
  pair : Slice String
  tasks : Slice RolloutTask
  createdAt : Int
  updatedAt : Int
  createdBy : String
deriving DecidableEq, Repr

/-- A lock (Sperre) blocks rollouts on a date range for a list of products. -/
structure Lock where
  id : String
  title : String
  description : String
  contact : String
  startAt : Int
  endAt : Int
  products : Slice String
  kind : String
  createdBy : String
  createdAt : Int
deriving DecidableEq, Repr

/-- `auth.Session`, the payload of the session cookie. -/
structure Session where
  id : String
  email : String
  name : String
  role : String
  groups : Slice String
  exp : Int
deriving DecidableEq, Repr

end ReleaseRadar
