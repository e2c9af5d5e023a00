import ReleaseRadar.Api.Json
import ReleaseRadar.Calendar.Ics
import ReleaseRadar.Notify.Schedule
import ReleaseRadar.Store.Repository

/-!
# The HTTP handlers

`backend/internal/api/handlers.go`. A handler is a program over the database that
ends in a `Reply`: status, body, and what it told the hub. A body arrives decoded,
`none` being a decode error. An error of the store that a handler does not look at
goes to `writeErr` (`serve`); the explicit `errors.Is(err, store.ErrNotFound)`
branches of the source write what `writeErr` writes.
-/

namespace ReleaseRadar.Api

open Lib

/-- The arguments of a `Hub.Broadcast`. -/
structure Broadcast where
  entity : String
  id : String
  action : String
deriving DecidableEq, Repr

inductive Body
  | empty
  | text (s : String)
  | json (v : Json)
  | ics (bytes : List UInt8)

structure Reply where
  status : Nat
  body : Body
  broadcasts : List Broadcast

/-- What a request gets from its surroundings: the start of its write transaction, its
reading of the clock, the eight characters of a fresh UUID, the case mappings of
`unicode`, and the offset of the server's zone at an instant. -/
structure Env where
  dbNow : Int
  clock : Int
  uuid : String
  toUpper : Char → Char
  toLower : Char → Char
  zone : Int → Int

/-- The offsets from UTC that the times of a lock in a body are given in: 0 where the body
has none. -/
structure LockZones where
  startAt : Int
  endAt : Int
  createdAt : Int

/-- In the order the times are written. -/
def LockZones.offsets (z : LockZones) : List Int := [z.startAt, z.endAt, z.createdAt]

/-! ## Helpers -/

/-- `http.Error`. -/
def httpError (status : Nat) (msg : String) : Reply := ⟨status, .text msg, []⟩

/-- What `json.NewEncoder(w).Encode` leaves of a value whose times carry `offsets`: nothing
where it has no text. -/
def encoded (offsets : List Int) (v : Json) : Body :=
  if Json.HasText offsets v then .json v else .empty

theorem encoded_nil (v : Json) : encoded [] v = .json v :=
  if_pos fun _ h => absurd h List.not_mem_nil

/-- The status is sent before `Encode` runs, and its error is dropped. -/
def writeJSON (offsets : List Int) (status : Nat) (v : Json) : Reply :=
  ⟨status, encoded offsets v, []⟩

/-- `writeJSON` of what was read out of the database, every time in the zone of the server. -/
def writeStored (zone : Int → Int) (status : Nat) (v : Json) : Reply :=
  writeJSON (v.instants.map zone) status v

/-- `w.WriteHeader(http.StatusNoContent)`. -/
def noContent : Reply := ⟨204, .empty, []⟩

/-- The handler has told the hub. -/
def Reply.after (r : Reply) (b : Broadcast) : Reply := { r with broadcasts := [b] }

def writeErr : Err → Reply
  | .notFound => httpError 404 "not found"
  | .pg code =>
    if "23".toList.isPrefixOf code.toList then httpError 400 "invalid request"
    else httpError 500 "internal error"
  | .other _ => httpError 500 "internal error"

def badRequestBody : Reply := httpError 400 "invalid request body"

/-- Run a handler: what it did not answer itself, `writeErr` does. -/
def serve (h : Repo Reply) (F : Faults Err) (c : Conn Store) : Reply × Conn Store :=
  match h F c with
  | (.ok reply, c') => (reply, c')
  | (.error e, c') => (writeErr e, c')

/-- Answering does not touch the store. -/
theorem serve_snd (h : Repo Reply) (F : Faults Err) (c : Conn Store) :
    (serve h F c).2 = (h F c).2 := by
  unfold serve
  split <;> simp only [*]

/-- The handler goes on with the decoded body. -/
def decoded {α : Type} (body : Option α) (h : α → Repo Reply) : Repo Reply :=
  match body with
  | none => pure badRequestBody
  | some x => h x

/-- `unicode.IsSpace`. -/
def isSpace (c : Char) : Bool :=
  (9 ≤ c.toNat && c.toNat ≤ 13) || (0x2000 ≤ c.toNat && c.toNat ≤ 0x200A) ||
    [0x20, 0x85, 0xA0, 0x1680, 0x2028, 0x2029, 0x202F, 0x205F, 0x3000].contains c.toNat

/-- `strings.TrimSpace`. -/
def trimSpace (s : String) : String :=
  String.ofList ((s.toList.dropWhile isSpace).reverse.dropWhile isSpace).reverse

/-- `strings.Fields`. -/
def fields (s : String) : List (List Char) :=
  (s.toList.splitOnP isSpace).filter fun word => !word.isEmpty

/-- `strconv.Atoi`. -/
def atoi (s : String) : Option Int :=
  let (negative, digits) :=
    match s.toList with
    | '-' :: cs => (true, cs)
    | '+' :: cs => (false, cs)
    | cs => (false, cs)
  if digits.isEmpty || !digits.all Char.isDigit then none
  else
    let n : Int := digits.foldl (fun n c => n * 10 + (c.toNat - '0'.toNat)) (0 : Nat)
    let n := if negative then -n else n
    if -9223372036854775808 ≤ n ∧ n ≤ 9223372036854775807 then some n else none

/-- `strings.ToLower(strings.ReplaceAll(name, " ", "-"))`. -/
def slug (env : Env) (name : String) : String :=
  String.ofList (name.toList.map fun c => env.toLower (if c = ' ' then '-' else c))

/-- `string(word[0])`: the first octet of the word, read as a code point. -/
def firstOctet : List Char → List Char
  | [] => []
  | c :: _ => ((String.utf8EncodeChar c).head?.map fun b => Char.ofNat b.toNat).toList

/-- `word[:2]` as `strings.ToUpper` reads it: an octet that is not a whole character is
U+FFFD. -/
def firstTwoOctets : List Char → List Char
  | [] => []
  | c :: cs =>
    match c.utf8Size, cs with
    | 1, [] => [c]
    | 1, d :: _ => [c, if d.utf8Size = 1 then d else '\ufffd']
    | 2, _ => [c]
    | _, _ => ['\ufffd', '\ufffd']

def initials (env : Env) (name : String) : String :=
  match fields name with
  | [] => "??"
  | [word] => String.ofList ((firstTwoOctets word).map env.toUpper)
  | word :: words =>
    String.ofList ((firstOctet word ++ firstOctet (words.getLastD [])).map env.toUpper)

/-- Blank the workflow detail of a task. -/
def stripTask (t : RolloutTask) : RolloutTask := { t with description := "•", reason := "" }

/-- `stripInternal`: what a readonly caller sees of a rollout. -/
def stripInternal (r : Rollout) : Rollout :=
  { r with descInt := "", risks := "", tasks := r.tasks.map (List.map stripTask) }

/-- `scheduleNotifications`. Its error is logged and dropped: the rollout was already
persisted. -/
def scheduleNotifications (env : Env) (ro : Rollout) : Repo Unit := do
  let _ ← Db.attempt
    (Repository.rescheduleNotifications ro.id (scheduleItems env.clock ro.stages.items))
  pure ()

/-- `normalizeAndValidateLock`: the lock with its defaults, or the message. -/
def normalizeAndValidateLock (l : Lock) : Except String Lock :=
  let l := { l with title := trimSpace l.title }
  if l.title = "" then .error "title is required"
  else
    let l := { l with kind := if l.kind = "" then "manual" else l.kind }
    if ¬["manual", "holiday", "window"].contains l.kind then
      .error "kind must be one of: manual, holiday, window"
    else if l.endAt ≤ l.startAt then .error "endAt must be after startAt"
    else .ok l

/-! ## Generic -/

/-- The keys of a map are written in order. -/
def me (env : Env) (sess : Session) : Repo Reply :=
  pure (writeJSON [] 200 (.obj [("email", .str sess.email), ("groups", Json.ofStrings sess.groups),
    ("initials", .str (initials env sess.name)), ("name", .str sess.name),
    ("role", .str sess.role)]))

/-! ## Products -/

def listProducts : Repo Reply := do
  let products ← Repository.products
  pure (writeJSON [] 200 (.arr (products.map Product.toJson)))

def upsertProduct [Indexes] (env : Env) (body : Option Product) : Repo Reply :=
  decoded body fun p => do
    let p := { p with id := if p.id = "" then slug env p.name else p.id }
    Repository.upsertProduct p
    pure ((writeJSON [] 200 p.toJson).after ⟨"product", p.id, "update"⟩)

/-! ## Rollout types -/

def listRolloutTypes : Repo Reply := do
  let types ← Repository.rolloutTypes
  pure (writeJSON [] 200 (.arr (types.map RolloutType.toJson)))

def upsertRolloutType [Indexes] (env : Env) (body : Option RolloutType) : Repo Reply :=
  decoded body fun t => do
    let t := { t with id := if t.id = "" then slug env t.name else t.id }
    Repository.upsertRolloutType t
    pure ((writeJSON [] 200 t.toJson).after ⟨"rollout-type", t.id, "update"⟩)

/-! ## Rollouts -/

/-- `zone` is the server's. -/
def listRollouts (zone : Int → Int) (sess : Session) : Repo Reply := do
  let rs ← Repository.rollouts
  let rs := if sess.role ≠ roleAdmin then rs.map stripInternal else rs
  pure (writeStored zone 200 (.arr (rs.map Rollout.toJson)))

def getRollout (zone : Int → Int) (sess : Session) (id : String) : Repo Reply := do
  let ro ← Repository.rollout id
  let ro := if sess.role ≠ roleAdmin then stripInternal ro else ro
  pure (writeStored zone 200 ro.toJson)

/-- The rollout `createRollout` stores: a fresh id where the body has none, and the
caller as its creator. -/
def createInput (env : Env) (sess : Session) (ro : Rollout) : Rollout :=
  { ro with id := if ro.id = "" then "r-" ++ env.uuid else ro.id, createdBy := sess.id }

def createRollout [Indexes] (env : Env) (sess : Session) (body : Option Rollout) : Repo Reply :=
  decoded body fun ro => do
    let out ← Repository.createRollout env.dbNow (createInput env sess ro)
    scheduleNotifications env out
    pure ((writeStored env.zone 201 out.toJson).after ⟨"rollout", out.id, "create"⟩)

def updateRollout [Indexes] (env : Env) (id : String) (body : Option Rollout) : Repo Reply :=
  decoded body fun ro => do
    let out ← Repository.updateRollout env.dbNow { ro with id := id }
    scheduleNotifications env out
    pure ((writeStored env.zone 200 out.toJson).after ⟨"rollout", out.id, "update"⟩)

def deleteRollout (id : String) : Repo Reply := do
  Repository.deleteRollout id
  pure (noContent.after ⟨"rollout", id, "delete"⟩)

/-- The body of `updateTask`. -/
structure TaskBody where
  status : String
  reason : String
deriving DecidableEq, Repr

def updateTask (env : Env) (sess : Session) (id seq : String) (body : Option TaskBody) :
    Repo Reply :=
  match atoi seq with
  | none => pure (httpError 400 "bad seq")
  | some seq =>
    decoded body fun body =>
      if body.status ≠ "" ∧ body.status ≠ "done" ∧ body.status ≠ "failed" then
        pure (httpError 400 "invalid status")
      else do
        Repository.updateRolloutTask env.dbNow id seq body.status body.reason sess.id
        pure (noContent.after ⟨"task", id, "update"⟩)

/-! ## Locks -/

def listLocks (zone : Int → Int) : Repo Reply := do
  let ls ← Repository.locks
  pure (writeStored zone 200 (.arr (ls.map Lock.toJson)))

/-- The lock that is answered is the one of the body, and has its times in the offsets they
came in. -/
def createLock [Indexes] (env : Env) (sess : Session) (zones : LockZones)
    (body : Option Lock) : Repo Reply :=
  decoded body fun l =>
    match normalizeAndValidateLock l with
    | .error msg => pure (httpError 400 msg)
    | .ok l => do
      let l := { l with id := if l.id = "" then "l-" ++ env.uuid else l.id, createdBy := sess.id }
      let out ← Repository.createLock env.dbNow l
      pure ((writeJSON zones.offsets 201 out.toJson).after ⟨"lock", out.id, "create"⟩)

def updateLock (id : String) (zones : LockZones) (body : Option Lock) : Repo Reply :=
  decoded body fun l =>
    match normalizeAndValidateLock l with
    | .error msg => pure (httpError 400 msg)
    | .ok l => do
      let out ← Repository.updateLock { l with id := id }
      pure ((writeJSON zones.offsets 200 out.toJson).after ⟨"lock", out.id, "update"⟩)

def deleteLock (id : String) : Repo Reply := do
  Repository.deleteLock id
  pure (noContent.after ⟨"lock", id, "delete"⟩)

/-! ## The feed and the socket -/

/-- An error of the writer is logged; the client is gone then. -/
def calendar (env : Env) : Repo Reply := do
  let rs ← Repository.rollouts
  pure ⟨200, .ics (Calendar.writeICS env.clock rs), []⟩

/-- `ws`, as far as the store goes: `websocket.Accept` refuses with a status and a
text, or the connection is the hub's from then on. -/
def ws (refused : Option (Nat × String)) : Repo Reply :=
  match refused with
  | some (status, msg) => pure (httpError status msg)
  | none => pure ⟨101, .empty, []⟩

end ReleaseRadar.Api
