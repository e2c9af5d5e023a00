import ReleaseRadar.Api.Handlers

/-!
# The route table

`backend/internal/api/router.go` under `/api`, with the session checks of
`middleware.go`. A request comes with what `SessionStore.Read` made of its cookie and
what `json.Decode` makes of its body at each type a handler decodes into.
-/

namespace ReleaseRadar.Api

open Lib

/-- The routes of `NewRouter` under `/api`, with their path values. -/
inductive Route
  | me
  | listProducts
  | listRollouts
  | getRollout (id : String)
  | listLocks
  | calendar
  | ws
  | listRolloutTypes
  | upsertRolloutType
  | upsertProduct
  | createRollout
  | updateRollout (id : String)
  | deleteRollout (id : String)
  | updateTask (id seq : String)
  | createLock
  | updateLock (id : String)
  | deleteLock (id : String)
deriving DecidableEq, Repr

/-- A wildcard matches one segment, not an empty one. -/
def wildcard (segment : String) (route : Route) : Option Route :=
  if segment = "" then none else some route

/-- The pattern that matches. -/
def resolve (method : String) (path : List String) : Option Route :=
  match method, path with
  | "GET", ["api", "me"] => some .me
  | "GET", ["api", "products"] => some .listProducts
  | "GET", ["api", "rollouts"] => some .listRollouts
  | "GET", ["api", "rollouts", id] => wildcard id (.getRollout id)
  | "GET", ["api", "locks"] => some .listLocks
  | "GET", ["api", "calendar.ics"] => some .calendar
  | "GET", ["api", "ws"] => some .ws
  | "GET", ["api", "rollout-types"] => some .listRolloutTypes
  | "POST", ["api", "rollout-types"] => some .upsertRolloutType
  | "POST", ["api", "products"] => some .upsertProduct
  | "POST", ["api", "rollouts"] => some .createRollout
  | "PATCH", ["api", "rollouts", id] => wildcard id (.updateRollout id)
  | "DELETE", ["api", "rollouts", id] => wildcard id (.deleteRollout id)
  | "PATCH", ["api", "rollouts", id, "tasks", seq] =>
    (wildcard id (.updateTask id seq)).bind (wildcard seq)
  | "POST", ["api", "locks"] => some .createLock
  | "PATCH", ["api", "locks", id] => wildcard id (.updateLock id)
  | "DELETE", ["api", "locks", id] => wildcard id (.deleteLock id)
  | _, _ => none

/-- What decoding the body gives, at each type; of a lock also the offsets of its times. -/
structure Decodings where
  product : Option Product
  rolloutType : Option RolloutType
  rollout : Option Rollout
  task : Option TaskBody
  lock : Option Lock
  lockZones : LockZones

structure Request where
  method : String
  path : List String
  session : Option Session
  body : Decodings
  refused : Option (Nat × String)

/-- `middleware.RequireSession`. -/
def requireSession (session : Option Session) (next : Session → Repo Reply) : Repo Reply :=
  match session with
  | none => pure (httpError 401 "unauthenticated")
  | some sess => next sess

/-- `middleware.RequireAdmin`. -/
def requireAdmin (session : Option Session) (next : Session → Repo Reply) : Repo Reply :=
  match session with
  | none => pure (httpError 401 "unauthenticated")
  | some sess =>
    if sess.role ≠ roleAdmin then pure (httpError 403 "admin role required") else next sess

/-- The handler of a route, in its wrapper. -/
def Route.handler (env : Env) (req : Request) : Route → Repo Reply
  | me => requireSession req.session fun sess => Api.me env sess
  | listProducts => requireSession req.session fun _ => Api.listProducts
  | listRollouts => requireSession req.session fun sess => Api.listRollouts env.zone sess
  | getRollout id => requireSession req.session fun sess => Api.getRollout env.zone sess id
  | listLocks => requireSession req.session fun _ => Api.listLocks env.zone
  | calendar => requireSession req.session fun _ => Api.calendar env
  | ws => requireSession req.session fun _ => Api.ws req.refused
  | listRolloutTypes => requireAdmin req.session fun _ => Api.listRolloutTypes
  | upsertRolloutType =>
    requireAdmin req.session fun _ => Api.upsertRolloutType env req.body.rolloutType
  | upsertProduct => requireAdmin req.session fun _ => Api.upsertProduct env req.body.product
  | createRollout =>
    requireAdmin req.session fun sess => Api.createRollout env sess req.body.rollout
  | updateRollout id => requireAdmin req.session fun _ => Api.updateRollout env id req.body.rollout
  | deleteRollout id => requireAdmin req.session fun _ => Api.deleteRollout id
  | updateTask id seq =>
    requireAdmin req.session fun sess => Api.updateTask env sess id seq req.body.task
  | createLock =>
    requireAdmin req.session fun sess => Api.createLock env sess req.body.lockZones req.body.lock
  | updateLock id =>
    requireAdmin req.session fun _ => Api.updateLock id req.body.lockZones req.body.lock
  | deleteLock id => requireAdmin req.session fun _ => Api.deleteLock id

/-- A `GET` pattern matches `HEAD` too. -/
def patternMethod (method : String) : String := if method = "HEAD" then "GET" else method

/-- No pattern matches: another method might have. -/
def unmatched (path : List String) : Reply :=
  if ["GET", "POST", "PATCH", "DELETE"].any fun method => (resolve method path).isSome then
    httpError 405 "Method Not Allowed"
  else httpError 404 "404 page not found"

def route (env : Env) (req : Request) : Repo Reply :=
  match resolve (patternMethod req.method) req.path with
  | some r => r.handler env req
  | none => pure (unmatched req.path)

/-- The answer to a request; the server drops the body of one to a `HEAD`. -/
def respond (env : Env) (req : Request) (F : Faults Err) (c : Conn Store) : Reply × Conn Store :=
  let res := serve (route env req) F c
  if req.method = "HEAD" then ({ res.1 with body := .empty }, res.2) else res

theorem respond_eq_serve {env : Env} {req : Request} {F : Faults Err} {c : Conn Store}
    (h : req.method ≠ "HEAD") : respond env req F c = serve (route env req) F c := if_neg h

end ReleaseRadar.Api
