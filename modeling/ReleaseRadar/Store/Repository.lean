import ReleaseRadar.Store.Tables

/-!
# The repository

`backend/internal/store/repository.go`, function by function, under the source's
names. A function that writes in a transaction is split at the point where the
transaction ends (`createRolloutCommit`, `updateRolloutTx`): the source reads the
rollout back afterwards, on another connection. `now` is the database's `now()`,
the start of the transaction.
-/

namespace ReleaseRadar

open Lib

namespace Repository

/-! ## Products -/

def products : Repo (List Product) := do
  let rows ← select [] fun s =>
    (orderBy (·.name) s.products).map fun p =>
      ({ id := p.id, name := p.name, owner := p.owner.getD "",
         brokers := some p.brokers } : Product)
  Db.checked rows

/-- A `nil` slice of brokers is sent as `NULL`. -/
def upsertProduct [Indexes] (p : Product) : Repo Unit :=
  stmt ([p.id, p.name, p.owner] ++ p.brokers.items) fun s => do
    constraint p.brokers.isSome notNullViolation
    constraint (s.hasProduct p.id || Indexes.holds [.text p.id]) programLimitExceeded
    let row : ProductRow := ⟨p.id, p.name, some p.owner, p.brokers.items⟩
    if s.hasProduct p.id then
      pure ((), { s with products := s.products.map fun r => if r.id = p.id then row else r })
    else
      pure ((), { s with products := s.products ++ [row] })

/-! ## Rollout types -/

def rolloutTypeTasks (typeID : String) : Repo (List String) := do
  let rows ← select [typeID] fun s =>
    (orderBy (·.seq) (s.rolloutTypeTasks.filter fun t => t.typeId == typeID)).map (·.description)
  Db.checked rows

/-- A scanned row of `rollout_types`, its tasks still to come. -/
def scanRolloutType (t : RolloutTypeRow) : RolloutType where
  id := t.id
  name := t.name
  short := t.short
  tone := t.tone
  delayProd1 := t.delayProd1
  delayProd2 := t.delayProd2
  cascadePlan := t.cascadePlan
  announce := t.announce.getD ""
  rules := some t.rules
  tasks := none

def rolloutTypes : Repo (List RolloutType) := do
  let rows ← select [] fun s =>
    (orderBy (·.name) s.rolloutTypes).map scanRolloutType
  let out ← Db.mapEach rows.seen fun t => do
    let tasks ← rolloutTypeTasks t.id
    pure { t with tasks := some tasks }
  Db.checked ⟨out, rows.err⟩

def rolloutType (id : String) : Repo RolloutType := do
  let t ← stmt [id] fun s =>
    match s.rolloutTypes.find? fun t => t.id == id with
    | none => .error .notFound
    | some t => .ok (scanRolloutType t, s)
  let tasks ← rolloutTypeTasks t.id
  pure { t with tasks := some tasks }

/-- `INSERT INTO rollout_types ... ON CONFLICT (id) DO UPDATE`. A `nil` cascade
plan is marshalled to JSON `null`, `nil` rules are sent as `NULL`. The parameters are read
before a row is checked. -/
def upsertRolloutTypeRow [Indexes] (t : RolloutType) : Repo Unit :=
  stmt ([t.id, t.name, t.short, t.tone, t.announce] ++ t.rules.items) fun s => do
    constraint (!t.cascadePlan.items.any fun c => hasNul c.stage) untranslatableCharacter
    constraint t.rules.isSome notNullViolation
    constraint (tones.contains t.tone) checkViolation
    constraint (s.hasRolloutType t.id || Indexes.holds [.text t.id]) programLimitExceeded
    let row : RolloutTypeRow := ⟨t.id, t.name, t.short, t.tone, pgInterval t.delayProd1,
      pgInterval t.delayProd2, t.cascadePlan, some t.announce, t.rules.items⟩
    if s.hasRolloutType t.id then
      pure ((), { s with rolloutTypes := s.rolloutTypes.map fun r =>
        if r.id = t.id then row else r })
    else
      pure ((), { s with rolloutTypes := s.rolloutTypes ++ [row] })

def upsertRolloutType [Indexes] (t : RolloutType) : Repo Unit :=
  Db.tx do
    upsertRolloutTypeRow t
    stmt [t.id] fun s =>
      .ok ((), { s with rolloutTypeTasks := s.rolloutTypeTasks.filter fun r =>
        !(r.typeId == t.id) })
    Db.forEach t.tasks.items.zipIdx fun d =>
      stmt [t.id, d.1] fun s => do
        constraint (Indexes.holds [.text t.id, .int d.2]) programLimitExceeded
        pure ((), { s with rolloutTypeTasks := s.rolloutTypeTasks ++ [⟨t.id, d.2, d.1⟩] })

/-! ## Reading rollouts -/

/-- A scanned row of `rollouts`, its lists still `nil`. -/
def scanRollout (r : RolloutRow) : Rollout where
  id := r.id
  productId := r.productId
  typeId := r.typeId
  title := r.title
  descExt := r.descExt
  descInt := r.descInt
  risks := r.risks
  stages := none
  pair := none
  tasks := none
  createdAt := r.createdAt
  updatedAt := r.updatedAt
  createdBy := r.createdBy.getD ""

def scanStage (r : StageRow) : RolloutStage := ⟨r.env, r.startAt, r.duration, r.status⟩

def scanTask (r : TaskRow) : RolloutTask :=
  ⟨r.seq, r.description, r.status, r.reason, r.completedBy.getD "", r.completedAt⟩

/-- The rollout's stages in the order of `seq`. -/
def stageRows (s : Store) (id : String) : List StageRow :=
  orderBy (·.seq) (s.rolloutStages.filter fun r => r.rolloutId == id)

/-- The rollout's tasks in the order of `seq`. -/
def taskRows (s : Store) (id : String) : List TaskRow :=
  orderBy (·.seq) (s.rolloutTasks.filter fun r => r.rolloutId == id)

/-- The rollout's pair, unordered in the source. -/
def pairRows (s : Store) (id : String) : List PairRow :=
  s.rolloutActors.filter fun r => r.rolloutId == id

/-- Each of the three lists is what the iteration saw: `rows.Err()` is not asked. -/
def hydrate (ro : Rollout) : Repo Rollout := do
  let stages ← select [ro.id] fun s => (stageRows s ro.id).map scanStage
  let pair ← select [ro.id] fun s => (pairRows s ro.id).map (·.actorId)
  let tasks ← select [ro.id] fun s => (taskRows s ro.id).map scanTask
  pure { ro with stages := some stages.seen, pair := some pair.seen, tasks := some tasks.seen }

/-- `Repository.Rollout`: `return r0, r.hydrate(ctx, &r0)` returns `r0` as the call
left it. -/
def rollout (id : String) : Repo Rollout := do
  let ro ← stmt [id] fun s =>
    match s.rollouts.find? fun r => r.id == id with
    | none => .error .notFound
    | some r => .ok (scanRollout r, s)
  hydrate ro

/-- The map `idx` of `hydrateAll`: where a rollout stands in the slice. -/
def indexOf (rollouts : List Rollout) (id : String) : Option Nat :=
  rollouts.zipIdx.foldl (fun acc r => if r.1.id = id then some r.2 else acc) none

/-- `if i, ok := idx[rid]; ok { rollouts[i]... = append(...) }`. -/
def appendAt (idx : Option Nat) (f : Rollout → Rollout) (rollouts : List Rollout) : List Rollout :=
  match idx with
  | none => rollouts
  | some i => rollouts.modify i f

def appendStage (idx : String → Option Nat) (rollouts : List Rollout) (r : StageRow) :
    List Rollout :=
  appendAt (idx r.rolloutId)
    (fun ro => { ro with stages := some (ro.stages.items ++ [scanStage r]) }) rollouts

def appendPair (idx : String → Option Nat) (rollouts : List Rollout) (r : PairRow) :
    List Rollout :=
  appendAt (idx r.rolloutId)
    (fun ro => { ro with pair := some (ro.pair.items ++ [r.actorId]) }) rollouts

def appendTask (idx : String → Option Nat) (rollouts : List Rollout) (r : TaskRow) :
    List Rollout :=
  appendAt (idx r.rolloutId)
    (fun ro => { ro with tasks := some (ro.tasks.items ++ [scanTask r]) }) rollouts

/-- The loop over a child table, and its `rows.Err()`. -/
def appendRows {ρ : Type} (append : List Rollout → ρ → List Rollout) (rows : Rows ρ Err)
    (rollouts : List Rollout) : Repo (List Rollout) :=
  match rows.err with
  | none => pure (rows.seen.foldl append rollouts)
  | some e => Db.throw e

def hydrateAll (rollouts : List Rollout) : Repo (List Rollout) := do
  let rollouts := rollouts.map fun ro =>
    { ro with stages := some [], pair := some [], tasks := some [] }
  if rollouts.isEmpty then pure rollouts
  else do
    let ids := rollouts.map (·.id)
    let idx := indexOf rollouts
    let srows ← select ids fun s =>
      orderBy (·.rolloutId) (orderBy (·.seq)
        (s.rolloutStages.filter fun r => ids.contains r.rolloutId))
    let rollouts ← appendRows (appendStage idx) srows rollouts
    let arows ← select ids fun s => s.rolloutActors.filter fun r => ids.contains r.rolloutId
    let rollouts ← appendRows (appendPair idx) arows rollouts
    let trows ← select ids fun s =>
      orderBy (·.rolloutId) (orderBy (·.seq)
        (s.rolloutTasks.filter fun r => ids.contains r.rolloutId))
    appendRows (appendTask idx) trows rollouts

/-- `Repository.Rollouts`. -/
def rollouts : Repo (List Rollout) := do
  let rows ← select [] fun s =>
    (orderBy (-·.createdAt) s.rollouts).map scanRollout
  let out ← Db.checked rows
  hydrateAll out

/-! ## Writing rollouts -/

/-- The foreign keys are checked after the indexes. -/
def insertRollout [Indexes] (now : Int) (ro : Rollout) : Repo Unit :=
  stmt [ro.id, ro.productId, ro.typeId, ro.title, ro.descExt, ro.descInt, ro.risks, ro.createdBy]
    fun s => do
      constraint (!s.hasRollout ro.id) uniqueViolation
      constraint (Indexes.holds [.text ro.id]) programLimitExceeded
      constraint (Indexes.holds [.text ro.productId]) programLimitExceeded
      constraint (Indexes.holds [.text ro.typeId]) programLimitExceeded
      constraint (s.hasProduct ro.productId) foreignKeyViolation
      constraint (s.hasRolloutType ro.typeId) foreignKeyViolation
      constraint (s.actorRef (nullIfEmpty ro.createdBy)) foreignKeyViolation
      let row : RolloutRow := ⟨ro.id, ro.productId, ro.typeId, ro.title, ro.descExt, ro.descInt,
        ro.risks, pgTimestamp now, pgTimestamp now, nullIfEmpty ro.createdBy⟩
      pure ((), { s with rollouts := s.rollouts ++ [row] })

/-- The row `INSERT INTO rollout_stages` creates. -/
def stageRow (id : String) (st : RolloutStage) (i : Nat) : StageRow :=
  ⟨id, i, st.env, pgTimestamp st.startAt, pgInterval st.duration, st.status⟩

def insertStage [Indexes] (id : String) (st : RolloutStage) (i : Nat) : Repo Unit :=
  stmt [id, st.env, st.status] fun s => do
    constraint (stageStatuses.contains st.status) checkViolation
    constraint (Indexes.holds [.text id, .int i]) programLimitExceeded
    pure ((), { s with rolloutStages := s.rolloutStages ++ [stageRow id st i] })

/-- `INSERT INTO rollout_actors ... ON CONFLICT DO NOTHING`; the foreign key into
`actors` was dropped by `0003_pair_freeform.sql`. -/
def insertPair [Indexes] (id actorID : String) : Repo Unit :=
  stmt [id, actorID] fun s =>
    if s.rolloutActors.contains ⟨id, actorID⟩ then .ok ((), s)
    else do
      constraint (Indexes.holds [.text id, .text actorID]) programLimitExceeded
      pure ((), { s with rolloutActors := s.rolloutActors ++ [⟨id, actorID⟩] })

/-- The insert of `CreateRollout`: the log columns take their defaults. -/
def insertInheritedTask [Indexes] (id desc : String) (i : Nat) : Repo Unit :=
  stmt [id, desc] fun s => do
    constraint (Indexes.holds [.text id, .int i]) programLimitExceeded
    pure ((), { s with rolloutTasks := s.rolloutTasks ++ [⟨id, i, desc, "", "", none, none⟩] })

/-- The transaction of `CreateRollout`. -/
def createRolloutTx [Indexes] (now : Int) (ro : Rollout) (tasks : List String) : Repo Unit :=
  Db.tx do
    insertRollout now ro
    Db.forEach ro.stages.items.zipIdx fun st => insertStage ro.id st.1 st.2
    Db.forEach ro.pair.items fun actorID => insertPair ro.id actorID
    Db.forEach tasks.zipIdx fun d => insertInheritedTask ro.id d.1 d.2

/-- `CreateRollout` up to its commit: the parent type's tasks are looked up first,
outside the transaction, and copied. -/
def createRolloutCommit [Indexes] (now : Int) (ro : Rollout) : Repo Unit := do
  let rt ← rolloutType ro.typeId
  createRolloutTx now ro rt.tasks.items

/-- `CreateRollout`: the rollout is read back after the commit. -/
def createRollout [Indexes] (now : Int) (ro : Rollout) : Repo Rollout := do
  createRolloutCommit now ro
  rollout ro.id

/-- `UPDATE rollouts SET ... WHERE id = $1`; `ErrNotFound` when no row matched. -/
def updateRolloutRow (now : Int) (ro : Rollout) : Repo Unit := do
  let affected ← stmt [ro.id, ro.title, ro.descExt, ro.descInt, ro.risks] fun s =>
    .ok (s.hasRollout ro.id,
      { s with
        rollouts := s.rollouts.map fun r =>
          if r.id = ro.id then
            { r with
              title := ro.title
              descExt := ro.descExt
              descInt := ro.descInt
              risks := ro.risks
              updatedAt := pgTimestamp now }
          else r })
  if affected then pure () else Db.throw .notFound

/-- An out-of-range task status is stored as pending. -/
def clampStatus (status : String) : String :=
  if status ≠ "" ∧ status ≠ "done" ∧ status ≠ "failed" then "" else status

/-- The row `UpdateRollout` inserts for a task of the body. -/
def taskRow (id : String) (t : RolloutTask) (i : Nat) : TaskRow :=
  ⟨id, i, t.description, clampStatus t.status, t.reason, nullIfEmpty t.by_,
    t.at_.map pgTimestamp⟩

def insertTask [Indexes] (id : String) (t : RolloutTask) (i : Nat) : Repo Unit :=
  stmt [id, t.description, t.reason, t.by_] fun s => do
    constraint (Indexes.holds [.text id, .int i]) programLimitExceeded
    constraint (s.actorRef (nullIfEmpty t.by_)) foreignKeyViolation
    pure ((), { s with rolloutTasks := s.rolloutTasks ++ [taskRow id t i] })

def deleteStages (id : String) : Repo Unit :=
  stmt [id] fun s =>
    .ok ((), { s with rolloutStages := s.rolloutStages.filter fun r => !(r.rolloutId == id) })

def deletePair (id : String) : Repo Unit :=
  stmt [id] fun s =>
    .ok ((), { s with rolloutActors := s.rolloutActors.filter fun r => !(r.rolloutId == id) })

def deleteTasks (id : String) : Repo Unit :=
  stmt [id] fun s =>
    .ok ((), { s with rolloutTasks := s.rolloutTasks.filter fun r => !(r.rolloutId == id) })

/-- The transaction of `UpdateRollout`. -/
def updateRolloutTx [Indexes] (now : Int) (ro : Rollout) : Repo Unit :=
  Db.tx do
    updateRolloutRow now ro
    deleteStages ro.id
    Db.forEach ro.stages.items.zipIdx fun st => insertStage ro.id st.1 st.2
    deletePair ro.id
    Db.forEach ro.pair.items fun actorID => insertPair ro.id actorID
    deleteTasks ro.id
    Db.forEach ro.tasks.items.zipIdx fun t => insertTask ro.id t.1 t.2

def updateRollout [Indexes] (now : Int) (ro : Rollout) : Repo Rollout := do
  updateRolloutTx now ro
  rollout ro.id

/-- `DELETE FROM rollouts WHERE id = $1`; child rows cascade. -/
def deleteRollout (id : String) : Repo Unit := do
  let affected ← stmt [id] fun s =>
    .ok (s.hasRollout id,
      { s with
        rollouts := s.rollouts.filter fun r => !(r.id == id)
        rolloutStages := s.rolloutStages.filter fun r => !(r.rolloutId == id)
        rolloutActors := s.rolloutActors.filter fun r => !(r.rolloutId == id)
        rolloutTasks := s.rolloutTasks.filter fun r => !(r.rolloutId == id)
        notifications := s.notifications.deleteRollout id })
  if affected then pure () else Db.throw .notFound

/-- pgx does not encode a number outside `INT` into a parameter of that type. -/
def int4 (n : Int) : Bool := decide (-2147483648 ≤ n) && decide (n ≤ 2147483647)

/-- What `UpdateRolloutTask` writes into the addressed row: pending clears the
log entry, anything else signs it. -/
def logTask (now : Int) (status reason by_ : String) (r : TaskRow) : TaskRow :=
  if clampStatus status = "" then
    { r with status := "", reason := reason, completedBy := none, completedAt := none }
  else
    { r with
      status := clampStatus status
      reason := reason
      completedBy := nullIfEmpty by_
      completedAt := some (pgTimestamp now) }

def updateRolloutTask (now : Int) (rolloutID : String) (seq : Int) (status reason by_ : String) :
    Repo Unit :=
  let hit : TaskRow → Bool := fun r => r.rolloutId == rolloutID && decide ((r.seq : Int) = seq)
  let apply : Store → Store := fun s =>
    { s with
      rolloutTasks := s.rolloutTasks.map fun r =>
        if hit r then logTask now status reason by_ r else r }
  if !int4 seq then stmt [] fun _ => .error (.other "cannot encode into int4")
  else if clampStatus status = "" then
    stmt [rolloutID, reason] fun s => .ok ((), apply s)
  else
    stmt [rolloutID, status, reason, by_] fun s => do
      constraint (!s.rolloutTasks.any hit || s.actorRef (nullIfEmpty by_)) foreignKeyViolation
      pure ((), apply s)

/-! ## Locks -/

def scanLock (l : LockRow) : Lock where
  id := l.id
  title := l.title
  description := l.description
  contact := l.contact
  startAt := l.startAt
  endAt := l.endAt
  products := some l.products
  kind := l.kind
  createdBy := l.createdBy.getD ""
  createdAt := l.createdAt

def locks : Repo (List Lock) := do
  let rows ← select [] fun s =>
    (orderBy (·.startAt) s.locks).map scanLock
  Db.checked rows

/-- The kinds `0002_lock_window_kind.sql` admits. -/
def lockKinds : List String := ["manual", "holiday", "window"]

def createLock [Indexes] (now : Int) (l : Lock) : Repo Lock := do
  let l := { l with products := some l.products.items }
  stmt ([l.id, l.title, l.description, l.contact, l.kind, l.createdBy] ++ l.products.items)
    fun s => do
      constraint (lockKinds.contains l.kind) checkViolation
      constraint (!s.hasLock l.id) uniqueViolation
      constraint (Indexes.holds [.text l.id]) programLimitExceeded
      constraint (s.actorRef (nullIfEmpty l.createdBy)) foreignKeyViolation
      let row : LockRow := ⟨l.id, l.title, l.description, l.contact, pgTimestamp l.startAt,
        pgTimestamp l.endAt, l.products.items, l.kind, nullIfEmpty l.createdBy, pgTimestamp now⟩
      pure ((), { s with locks := s.locks ++ [row] })
  pure l

def updateLock (l : Lock) : Repo Lock := do
  let l := { l with products := some l.products.items }
  let affected ← stmt ([l.id, l.title, l.description, l.contact, l.kind] ++ l.products.items)
    fun s => do
      if s.hasLock l.id then
        constraint (lockKinds.contains l.kind) checkViolation
      pure (s.hasLock l.id,
        { s with
          locks := s.locks.map fun r =>
            if r.id = l.id then
              { r with
                title := l.title
                description := l.description
                contact := l.contact
                startAt := pgTimestamp l.startAt
                endAt := pgTimestamp l.endAt
                products := l.products.items
                kind := l.kind }
            else r })
  if affected then pure l else Db.throw .notFound

def deleteLock (id : String) : Repo Unit := do
  let affected ← stmt [id] fun s =>
    .ok (s.hasLock id, { s with locks := s.locks.filter fun r => !(r.id == id) })
  if affected then pure () else Db.throw .notFound

/-! ## Notifications -/

/-- `RescheduleNotifications`: one transaction deletes the rollout's unsent rows
and inserts the recomputed set. -/
def rescheduleNotifications (rolloutID : String) (items : List ScheduledNotification) : Repo Unit :=
  Db.tx do
    stmt [rolloutID] fun s =>
      .ok ((), { s with notifications := s.notifications.deleteUnsent rolloutID })
    Db.forEach items fun it =>
      stmt [rolloutID] fun s => do
        constraint (s.hasRollout rolloutID) foreignKeyViolation
        pure ((), { s with notifications := s.notifications.insert rolloutID it })

/-- `MarkNotificationSent`. -/
def markNotificationSent (now : Int) (id : Nat) (errMsg : String) : Repo Unit :=
  stmt [errMsg] fun s =>
    .ok ((), { s with notifications := s.notifications.markSent now id errMsg })

end Repository

end ReleaseRadar
