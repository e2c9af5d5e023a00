import ReleaseRadar.Api.Router
import ReleaseRadar.Store.ReadMoments

/-!
# The requests the views read with

The five `GET`s of `ApiService` that a view fetches, and their handlers with the queries laid
open: `respond_endpoint` says that the router answers them with these queries. Each query finds
what has been committed by then, so what a request answers is the replay of its queries
(`Endpoint.reading`, `Reading.replay`).
-/

namespace ReleaseRadar

open Lib

namespace Repository

/-! ## The other lists, query by query -/

def productsReading : Reading Store Err (List Product) := do
  let rows ← askRows [] fun s =>
    (orderBy (·.name) s.products).map fun p =>
      ({ id := p.id, name := p.name, owner := p.owner.getD "",
         brokers := some p.brokers } : Product)
  Reading.checked rows

def rolloutTypeTasksReading (typeID : String) : Reading Store Err (List String) := do
  let rows ← askRows [typeID] fun s =>
    (orderBy (·.seq) (s.rolloutTypeTasks.filter fun t => t.typeId == typeID)).map (·.description)
  Reading.checked rows

def rolloutTypesReading : Reading Store Err (List RolloutType) := do
  let rows ← askRows [] fun s => (orderBy (·.name) s.rolloutTypes).map scanRolloutType
  let out ← Reading.mapEach rows.seen fun t => do
    let tasks ← rolloutTypeTasksReading t.id
    pure { t with tasks := some tasks }
  Reading.checked ⟨out, rows.err⟩

def locksReading : Reading Store Err (List Lock) := do
  let rows ← askRows [] fun s => (orderBy (·.startAt) s.locks).map scanLock
  Reading.checked rows

/-- A list of one query. -/
theorem toDb_checkedRows {ρ : Type} (params : List String) (f : Store → List ρ) :
    (askRows params f >>= Reading.checked).toDb = select params f >>= Db.checked := by
  rw [Reading.toDb_bind, askRows, Reading.toDb_query]
  exact congrArg _ (funext Reading.toDb_checked)

theorem toDb_productsReading : productsReading.toDb = products := toDb_checkedRows _ _

theorem toDb_rolloutTypesReading : rolloutTypesReading.toDb = rolloutTypes := by
  unfold rolloutTypesReading rolloutTypes
  rw [Reading.toDb_bind, askRows, Reading.toDb_query]
  refine congrArg _ (funext fun rows => ?_)
  rw [Reading.toDb_bind, Reading.toDb_mapEach]
  refine congrArg₂ _ (congrArg _ (funext fun t => ?_)) (funext fun out => Reading.toDb_checked _)
  rw [Reading.toDb_bind]
  exact congrArg₂ _ (toDb_checkedRows _ _) rfl

theorem toDb_locksReading : locksReading.toDb = locks := toDb_checkedRows _ _

end Repository

namespace Api

open Repository

/-- The `GET`s of `ApiService` that views fetch. -/
inductive Endpoint
  | products
  | rolloutTypes
  | rollouts
  | rollout (id : String)
  | locks
deriving DecidableEq, Repr

namespace Endpoint

def path : Endpoint → List String
  | products => ["api", "products"]
  | rolloutTypes => ["api", "rollout-types"]
  | rollouts => ["api", "rollouts"]
  | rollout id => ["api", "rollouts", id]
  | locks => ["api", "locks"]

/-- The request, with what the server reads from the page's cookie. -/
def request (session : Option Session) (e : Endpoint) : Request :=
  ⟨"GET", e.path, session, ⟨none, none, none, none, none, ⟨0, 0, 0⟩⟩, none⟩

section

variable (zone : Int → Int)

/-- The handler of a request with a session, query by query; `zone` is the server's. -/
def asks (sess : Session) : Endpoint → Reading Store Err Reply
  | products => do
    let products ← productsReading
    pure (writeJSON [] 200 (.arr (products.map Product.toJson)))
  | rolloutTypes =>
    if sess.role ≠ roleAdmin then pure (httpError 403 "admin role required")
    else do
      let types ← rolloutTypesReading
      pure (writeJSON [] 200 (.arr (types.map RolloutType.toJson)))
  | rollouts => do
    let rs ← rolloutsReading
    let rs := if sess.role ≠ roleAdmin then rs.map stripInternal else rs
    pure (writeStored zone 200 (.arr (rs.map Rollout.toJson)))
  | rollout id => do
    let ro ← rolloutReading id
    let ro := if sess.role ≠ roleAdmin then stripInternal ro else ro
    pure (writeStored zone 200 ro.toJson)
  | locks => do
    let ls ← locksReading
    pure (writeStored zone 200 (.arr (ls.map Lock.toJson)))

/-- What the router does with the request, query by query. -/
def reading (session : Option Session) (e : Endpoint) : Reading Store Err Reply :=
  if e = rollout "" then pure (unmatched e.path)
  else
    match session with
    | none => pure (httpError 401 "unauthenticated")
    | some sess => e.asks zone sess

end

/-- The route of the endpoint. -/
def route : Endpoint → Route
  | products => .listProducts
  | rolloutTypes => .listRolloutTypes
  | rollouts => .listRollouts
  | rollout id => .getRollout id
  | locks => .listLocks

theorem resolve_path {e : Endpoint} (h : e ≠ rollout "") :
    resolve (patternMethod "GET") e.path = some e.route := by
  cases e with
  | rollout id =>
    have hid : id ≠ "" := fun he => h (by rw [he])
    show wildcard id (.getRollout id) = _
    rw [wildcard, if_neg hid]
    rfl
  | products => rfl
  | rolloutTypes => rfl
  | rollouts => rfl
  | locks => rfl

/-- A handler that answers with what a reading of the database gives. -/
theorem toDb_answer {α : Type} {m : Reading Store Err α} {p : Repo α} (h : m.toDb = p)
    (answer : α → Reply) :
    (m >>= fun a => (pure (answer a) : Reading Store Err Reply)).toDb =
      p >>= fun a => pure (answer a) := by
  rw [Reading.toDb_bind, h]
  rfl

theorem toDb_asks (env : Env) (sess : Session) (e : Endpoint) :
    (e.asks env.zone sess).toDb = e.route.handler env (e.request (some sess)) := by
  cases e with
  | products => exact toDb_answer toDb_productsReading _
  | rolloutTypes =>
    show (ite _ _ _ : Reading Store Err Reply).toDb = (ite _ _ _ : Repo Reply)
    by_cases hrole : sess.role ≠ roleAdmin
    · rw [if_pos hrole, if_pos hrole]
      rfl
    · rw [if_neg hrole, if_neg hrole]
      exact toDb_answer toDb_rolloutTypesReading _
  | rollouts => exact toDb_answer toDb_rolloutsReading _
  | rollout id => exact toDb_answer (toDb_rolloutReading id) _
  | locks => exact toDb_answer toDb_locksReading _

/-- The queries are those of the router's handler. -/
theorem toDb_reading (env : Env) (session : Option Session) (e : Endpoint) :
    (e.reading env.zone session).toDb = Api.route env (e.request session) := by
  unfold reading Api.route
  by_cases he : e = rollout ""
  · subst he
    rfl
  · rw [if_neg he, show (e.request session).method = "GET" from rfl,
      show (e.request session).path = e.path from rfl, resolve_path he]
    cases session with
    | some sess => exact toDb_asks env sess e
    | none => cases e <;> rfl

end Endpoint

/-- The answer to a request whose handler has returned: an error goes through `writeErr`. -/
def answerOf : Except Err Reply → Reply
  | .ok reply => reply
  | .error e => writeErr e

/-- The answer to an endpoint's request where every query finds `s` and none fails. -/
def Endpoint.answer (zone : Int → Int) (session : Option Session) (s : Store) (e : Endpoint) :
    Reply :=
  answerOf ((e.reading zone session).now s)

/-- The server answers the request with its replayed queries. -/
theorem respond_endpoint (env : Env) (session : Option Session) (s : Store) (e : Endpoint) :
    (respond env (e.request session) (fun _ => none) ⟨s, 0⟩).1 = e.answer env.zone session s := by
  rw [respond_eq_serve (by show "GET" ≠ "HEAD"; decide), Endpoint.answer, ← Reading.toDb_now,
    Endpoint.toDb_reading env, serve]
  split <;> simp only [*, answerOf]

end Api

end ReleaseRadar
