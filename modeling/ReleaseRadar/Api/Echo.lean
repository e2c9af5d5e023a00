import ReleaseRadar.Api.ServerFaults
import ReleaseRadar.Store.Schema

/-!
# What a write answers

A create or an update of a rollout is answered with what is read back, and so says what the
next reader gets. The other writes answer with the body as it was decoded: of a product that
is what is stored; of a rollout type not where a delay is no whole number of microseconds or
the task list is missing; and of a lock also not in what the table or an earlier request
has set (`createdAt`, and for an update `createdBy`) and in the zone of its times, which are
read back in the server's.

No entity is in an answer whose text cannot be written, which is so when one of its times is
in no year of four digits: that of a rollout is one of its own, that of `GET /api/locks` may be
one of another lock.

`echo_iff` says for each of the six when the answer is the entity that the matching `GET`
then gives for its id.
-/

namespace ReleaseRadar

/-- The member `id` of an object. -/
def Json.id? : Json → Option String
  | .obj fields =>
    match fields.lookup "id" with
    | some (.str s) => some s
    | _ => none
  | _ => none

/-- The times among the members of an object, in their order. -/
def Json.times : Json → List Int
  | .obj fields => fields.filterMap fun field =>
    match field.2 with
    | .time t => some t
    | _ => none
  | _ => []

namespace Api

open Lib Repository
open Json (Printable)

/-- The entity of an id in an answer: the object itself, or the one of the array. -/
def Reply.entity (r : Reply) (id : String) : Option Json :=
  match r.body with
  | .json (.arr items) => items.find? fun j => j.id? == some id
  | .json j => if j.id? = some id then some j else none
  | _ => none

/-- An entity as it is written: its times come each with the offset from UTC they are
written in. -/
structure Written where
  json : Json
  offsets : List Int

/-- `zone` is the server's: what comes out of the database is written in it. -/
def written (zone : Int → Int) (j : Json) : Written := ⟨j, j.times.map zone⟩

/-- The time has a text in the zone of the server once it is stored. -/
def PrintableStored (zone : Int → Int) (t : Int) : Prop := Printable zone (pgTimestamp t)

/-- Every time of a row of `locks` has a text. -/
def PrintableLock (zone : Int → Int) (r : LockRow) : Prop :=
  Printable zone r.startAt ∧ Printable zone r.endAt ∧ Printable zone r.createdAt

instance (zone : Int → Int) (r : LockRow) : Decidable (PrintableLock zone r) :=
  inferInstanceAs (Decidable (_ ∧ _ ∧ _))

/-! ## Requests -/

/-- A write that is answered with an entity. -/
inductive EntityWrite
  | createRollout (ro : Rollout)
  | updateRollout (id : String) (ro : Rollout)
  | createLock (l : Lock) (zones : LockZones)
  | updateLock (id : String) (l : Lock) (zones : LockZones)
  | upsertProduct (p : Product)
  | upsertRolloutType (t : RolloutType)

namespace EntityWrite

/-- The request of an admin. -/
def handler (env : Env) (sess : Session) : EntityWrite → Repo Reply
  | createRollout ro => Api.createRollout env sess (some ro)
  | updateRollout id ro => Api.updateRollout env id (some ro)
  | createLock l zones => Api.createLock env sess zones (some l)
  | updateLock id l zones => Api.updateLock id zones (some l)
  | upsertProduct p => Api.upsertProduct env (some p)
  | upsertRolloutType t => Api.upsertRolloutType env (some t)

/-- The `GET` endpoint that has the entity, on a server in `zone`. -/
def reader (zone : Int → Int) (sess : Session) (id : String) : EntityWrite → Repo Reply
  | createRollout _ => getRollout zone sess id
  | updateRollout _ _ => getRollout zone sess id
  | createLock _ _ => listLocks zone
  | updateLock _ _ _ => listLocks zone
  | upsertProduct _ => listProducts
  | upsertRolloutType _ => listRolloutTypes

/-- The answer as it is written: the times of a lock as they came in the body. -/
def echo (zone : Int → Int) (q : EntityWrite) (j : Json) : Written :=
  match q with
  | createLock _ zones => ⟨j, zones.offsets⟩
  | updateLock _ _ zones => ⟨j, zones.offsets⟩
  | createRollout _ => written zone j
  | updateRollout _ _ => written zone j
  | upsertProduct _ => written zone j
  | upsertRolloutType _ => written zone j

/-- **The law**: the entity of the answer is the one the `GET` then gives for its id. -/
def Echoed (env : Env) (sess : Session) (q : EntityWrite) (s : Store) (F : Faults Err) : Prop :=
  let res := serve (q.handler env sess) F ⟨s, 0⟩
  ∃ j id, res.1.body = .json j ∧ j.id? = some id ∧
    ((serve (q.reader env.zone sess id) Db.noFaults ⟨res.2.store, 0⟩).1.entity id).map
      (written env.zone) = some (q.echo env.zone j)

/-- The times are written in the zone they are read in. -/
def LocalTimes (zone : Int → Int) (l : Lock) (zones : LockZones) : Prop :=
  zones.offsets = [zone l.startAt, zone l.endAt, zone l.createdAt]

/-- A time that is stored as it is. -/
def Whole (t : Int) : Prop := pgTimestamp t = t

/-- What the request says is what is stored, and it can be written. -/
def AsStored (env : Env) (s : Store) : EntityWrite → Prop
  | createRollout ro =>
    (∀ st ∈ ro.stages.items, PrintableStored env.zone st.startAt) ∧
      PrintableStored env.zone env.dbNow
  | updateRollout id ro =>
    (∀ st ∈ ro.stages.items, PrintableStored env.zone st.startAt) ∧
      (∀ t ∈ ro.tasks.items, ∀ at_ ∈ t.at_, PrintableStored env.zone at_) ∧
        (∀ r ∈ s.rollouts, r.id = id → Printable env.zone r.createdAt) ∧
          PrintableStored env.zone env.dbNow
  | createLock l zones =>
    ((Whole l.startAt ∧ Whole l.endAt ∧ pgTimestamp env.dbNow = l.createdAt) ∧
      LocalTimes env.zone l zones) ∧
        (∀ r ∈ s.locks, PrintableLock env.zone r) ∧
          Printable env.zone l.startAt ∧ Printable env.zone l.endAt ∧ Printable env.zone l.createdAt
  | updateLock id l zones =>
    ((Whole l.startAt ∧ Whole l.endAt ∧ ∀ r ∈ s.locks, r.id = id →
      r.createdBy.getD "" = l.createdBy ∧ r.createdAt = l.createdAt) ∧
        LocalTimes env.zone l zones) ∧
          (∀ r ∈ s.locks, r.id ≠ id → PrintableLock env.zone r) ∧
            Printable env.zone l.startAt ∧ Printable env.zone l.endAt ∧
              Printable env.zone l.createdAt
  | upsertProduct _ => True
  | upsertRolloutType t =>
    pgInterval t.delayProd1 = t.delayProd1 ∧ pgInterval t.delayProd2 = t.delayProd2 ∧
      t.tasks.isSome = true

end EntityWrite

/-! ## What the list endpoints give -/

section Lists

variable {s : Store}

theorem id_toJson_product (p : Product) : p.toJson.id? = some p.id := rfl

theorem id_toJson_rolloutType (t : RolloutType) : t.toJson.id? = some t.id := rfl

theorem id_toJson_rollout (ro : Rollout) : ro.toJson.id? = some ro.id := rfl

theorem id_toJson_lock (l : Lock) : l.toJson.id? = some l.id := rfl

/-- In a list with one row for each id, the entity of a row's id is that row's. -/
theorem entity_list {ρ κ : Type} [LE κ] [DecidableLE κ] {key : ρ → String} {k : ρ → κ}
    {f : ρ → Json}
    {rows : List ρ} {row : ρ} (hid : ∀ r, (f r).id? = some (key r)) (hkeys : (rows.map key).Nodup)
    (hrow : row ∈ rows) {reply : Reply}
    (hbody : reply.body = .json (.arr ((orderBy k rows).map f))) :
    reply.entity (key row) = some (f row) := by
  rw [Reply.entity, hbody]
  show ((orderBy k rows).map f).find? _ = _
  have hsorted : ∀ r, r ∈ orderBy k rows ↔ r ∈ rows := fun r => List.mem_insertionSort _
  cases hfind : ((orderBy k rows).map f).find? fun j => j.id? == some (key row) with
  | none =>
    have habsent := List.find?_eq_none.mp hfind (f row)
      (List.mem_map_of_mem ((hsorted row).mpr hrow))
    exact absurd (beq_iff_eq.mpr (hid row)) habsent
  | some j =>
    obtain ⟨r, hr, rfl⟩ := List.mem_map.mp (List.mem_of_find?_eq_some hfind)
    have hkey : key r = key row := by
      have hsame : (f r).id? = some (key row) := by simpa using List.find?_some hfind
      rw [hid r] at hsame
      exact Option.some.inj hsame
    rw [List.inj_on_of_nodup_map hkeys ((hsorted r).mp hr) hrow hkey]

theorem entity_listProducts {r : ProductRow} (hkeys : (s.products.map (·.id)).Nodup)
    (hr : r ∈ s.products) :
    (serve listProducts Db.noFaults ⟨s, 0⟩).1.entity r.id = some (scanProduct r).toJson := by
  obtain ⟨ps, c', hps, -, -, rfl⟩ := total_products Db.noFaults ⟨s, 0⟩ (fun _ _ => rfl) rfl
  unfold serve listProducts
  rw [Db.bind_def, hps]
  simp only [Db.pure_def, List.map_map]
  refine entity_list (k := fun r => r.name) (f := Product.toJson ∘ scanProduct)
    (fun _ => rfl) hkeys hr ?_
  exact encoded_nil _

/-- The times of a list of locks are those of its rows. -/
theorem hasText_locks_iff {zone : Int → Int} {κ : Type} [LE κ] [DecidableLE κ] {k : LockRow → κ}
    {rows : List LockRow} :
    Json.HasText ((Json.arr ((orderBy k rows).map (Lock.toJson ∘ scanLock))).instants.map zone)
        (.arr ((orderBy k rows).map (Lock.toJson ∘ scanLock))) ↔ ∀ r ∈ rows,
          PrintableLock zone r := by
  rw [hasText_list_iff]
  constructor
  · intro h r hr
    have htimes := h r ((List.mem_insertionSort _).mpr hr)
    rw [Function.comp, instants_lock] at htimes
    simpa [PrintableLock, scanLock] using htimes
  · intro h r hr t ht
    obtain ⟨hstart, hend, hcreated⟩ := h r ((List.mem_insertionSort _).mp hr)
    rw [Function.comp, instants_lock] at ht
    simp only [List.mem_cons, List.not_mem_nil, or_false] at ht
    rcases ht with rfl | rfl | rfl
    · exact hstart
    · exact hend
    · exact hcreated

/-- The list of the locks has the row of each id, or no text at all. -/
theorem entity_listLocks {zone : Int → Int} {r : LockRow} (hkeys : (s.locks.map (·.id)).Nodup)
    (hr : r ∈ s.locks) :
    (serve (listLocks zone) Db.noFaults ⟨s, 0⟩).1.entity r.id =
      if ∀ r ∈ s.locks, PrintableLock zone r then some (scanLock r).toJson else none := by
  obtain ⟨ls, c', hls, -, -, rfl⟩ := total_locks Db.noFaults ⟨s, 0⟩ (fun _ _ => rfl) rfl
  unfold serve listLocks
  rw [Db.bind_def, hls]
  simp only [Db.pure_def, List.map_map]
  split
  · next hall =>
    refine entity_list (k := fun r => r.startAt) (f := Lock.toJson ∘ scanLock)
      (fun _ => rfl) hkeys hr ?_
    exact if_pos (hasText_locks_iff.mpr hall)
  · next hall =>
    have hbody : (writeStored zone 200 (.arr ((orderBy (·.startAt) s.locks).map
        (Lock.toJson ∘ scanLock)))).body = .empty :=
      if_neg fun htext => hall (hasText_locks_iff.mp htext)
    rw [Reply.entity, hbody]

theorem entity_listRolloutTypes {r : RolloutTypeRow} (hs : Schema s) (hr : r ∈ s.rolloutTypes) :
    (serve listRolloutTypes Db.noFaults ⟨s, 0⟩).1.entity r.id =
      some (readRolloutType s r).toJson := by
  obtain ⟨ts, c', hts, -, -, rfl⟩ := total_rolloutTypes hs Db.noFaults ⟨s, 0⟩ (fun _ _ => rfl) rfl
  unfold serve listRolloutTypes
  rw [Db.bind_def, hts]
  simp only [Db.pure_def, List.map_map]
  refine entity_list (k := fun r => r.name) (f := RolloutType.toJson ∘ readRolloutType s)
    (fun _ => rfl) hs.types hr ?_
  exact encoded_nil _

end Lists

/-- No iteration over a query's rows is cut short. -/
def Uncut (F : Faults Err) : Prop := ∀ n k e, F n ≠ some (.cut k e)

/-- A query that was answered and not cut short did not fail. -/
theorem Uncut.select_ok {ρ : Type} {params : List String} {f : Store → List ρ} {F : Faults Err}
    {c c' : Conn Store} {rows : Rows ρ Err} (hF : Uncut F)
    (h : select params f F c = (.ok rows, c')) : F c.calls = none := by
  obtain ⟨-, -, ⟨hnone, -⟩ | ⟨k, e, hcut, -⟩⟩ := Db.query_seen h
  · exact hnone
  · exact absurd hcut (hF c.calls k e)

namespace EntityWrite

section Law

variable {env : Env} {zone : Int → Int} {sess : Session} {q : EntityWrite} {s : Store}
  {F : Faults Err}

/-- The law, once both answers are known. -/
theorem echoed_iff {r : Reply} {c' : Conn Store} {j j' : Json} {id : String}
    (hserve : serve (q.handler env sess) F ⟨s, 0⟩ = (r, c')) (hbody : r.body = .json j)
    (hid : j.id? = some id)
    (hget : (serve (q.reader env.zone sess id) Db.noFaults ⟨c'.store, 0⟩).1.entity id = some j') :
    Echoed env sess q s F ↔ written env.zone j' = q.echo env.zone j := by
  unfold Echoed
  rw [hserve]
  constructor
  · rintro ⟨j₁, id₁, hbody₁, hid₁, hread⟩
    obtain rfl := Body.json.inj (hbody.symm.trans hbody₁)
    obtain rfl := Option.some.inj (hid.symm.trans hid₁)
    rw [hget] at hread
    exact Option.some.inj hread
  · intro h
    exact ⟨j, id, hbody, hid, by rw [hget, ← h]; rfl⟩

/-- An answer without a body echoes nothing. -/
theorem not_echoed_of_empty {r : Reply} {c' : Conn Store}
    (hserve : serve (q.handler env sess) F ⟨s, 0⟩ = (r, c')) (hbody : r.body = .empty) :
    ¬Echoed env sess q s F := by
  unfold Echoed
  rw [hserve]
  rintro ⟨j, id, hjson, -, -⟩
  exact Body.noConfusion (hbody.symm.trans hjson)

/-- Neither does one whose entity the reader does not get. -/
theorem not_echoed_of_absent {r : Reply} {c' : Conn Store} {offsets : List Int} {j : Json}
    {id : String} (hserve : serve (q.handler env sess) F ⟨s, 0⟩ = (r, c'))
    (hbody : r.body = encoded offsets j) (hid : j.id? = some id)
    (hget : (serve (q.reader env.zone sess id) Db.noFaults ⟨c'.store, 0⟩).1.entity id = none) :
    ¬Echoed env sess q s F := by
  unfold Echoed
  rw [hserve]
  rintro ⟨j', id', hjson, hid', hread⟩
  have hbody := hbody.symm.trans hjson
  unfold encoded at hbody
  split at hbody
  · obtain rfl := Body.json.inj hbody
    obtain rfl := Option.some.inj (hid.symm.trans hid')
    rw [hget] at hread
    cases hread
  · cases hbody

theorem written_inj {j j' : Json} : written zone j' = written zone j ↔ j' = j :=
  ⟨fun h => congrArg Written.json h, fun h => h ▸ rfl⟩

/-! ## Products and types -/

/-- A product that was stored is read as it was sent. -/
theorem scanProduct_productRow {p : Product} (h : p.brokers.isSome = true) :
    scanProduct (productRow p) = p := by
  obtain ⟨id, name, owner, brokers⟩ := p
  obtain ⟨items, rfl⟩ := Option.isSome_iff_exists.mp h
  rfl

/-- A product is echoed as it is stored. -/
theorem echoed_upsertProduct {p : Product} (hs : Schema s)
    (hok : (serve ((upsertProduct p).handler env sess) F ⟨s, 0⟩).1.status / 100 = 2) :
    Echoed env sess (upsertProduct p) s F := by
  obtain ⟨u, c', hstored, hserve⟩ := serve_ok hok
  obtain ⟨hfits, hstore⟩ := upsertProduct_ok hstored
  have hanswer : serve ((upsertProduct p).handler env sess) F ⟨s, 0⟩ = _ := hserve
  have hget := entity_listProducts (schema_applyProduct hs hfits).products mem_upsertRow_self
  rw [← hstore, scanProduct_productRow hfits.brokers] at hget
  exact (echoed_iff hanswer (encoded_nil _) (id_toJson_product _) hget).mpr rfl

/-- A type as it is read after it was stored. -/
theorem readRolloutType_applyRolloutType (t : RolloutType) (s : Store) :
    readRolloutType (applyRolloutType t s) (rolloutTypeRow t) =
      { t with
        delayProd1 := pgInterval t.delayProd1
        delayProd2 := pgInterval t.delayProd2
        rules := some t.rules.items
        tasks := some t.tasks.items } := by
  unfold readRolloutType
  rw [show (rolloutTypeRow t).id = t.id from rfl, typeTasksOf_applyRolloutType]
  rfl

/-- What of a stored type shows that it is not what was sent. -/
theorem toJson_stored_iff {t : RolloutType} (hrules : t.rules.isSome = true) :
    RolloutType.toJson { t with
        delayProd1 := pgInterval t.delayProd1
        delayProd2 := pgInterval t.delayProd2
        rules := some t.rules.items
        tasks := some t.tasks.items } = t.toJson ↔
      pgInterval t.delayProd1 = t.delayProd1 ∧ pgInterval t.delayProd2 = t.delayProd2 ∧
        t.tasks.isSome = true := by
  obtain ⟨id, name, short, tone, d₁, d₂, plan, announce, rules, tasks⟩ := t
  obtain ⟨rules, rfl⟩ := Option.isSome_iff_exists.mp hrules
  cases tasks with
  | none => simp [RolloutType.toJson, Json.ofStrings, Json.ofSlice]
  | some tasks => simp [RolloutType.toJson]

/-- A type is echoed as it is stored when its delays are whole microseconds and its task
list is there. -/
theorem echoed_upsertRolloutType {t : RolloutType} (hs : Schema s)
    (hok : (serve ((upsertRolloutType t).handler env sess) F ⟨s, 0⟩).1.status / 100 = 2) :
    Echoed env sess (upsertRolloutType t) s F ↔
      pgInterval t.delayProd1 = t.delayProd1 ∧ pgInterval t.delayProd2 = t.delayProd2 ∧
        t.tasks.isSome = true := by
  obtain ⟨u, c', hstored, hserve⟩ := serve_ok hok
  obtain ⟨hfits, hstore⟩ := upsertRolloutType_ok hstored
  have hanswer : serve ((upsertRolloutType t).handler env sess) F ⟨s, 0⟩ = _ := hserve
  have hget := entity_listRolloutTypes (schema_applyRolloutType hs hfits) mem_upsertRow_self
  rw [readRolloutType_applyRolloutType, ← hstore] at hget
  exact (echoed_iff hanswer (encoded_nil _) (id_toJson_rolloutType _) hget).trans
    (written_inj.trans (toJson_stored_iff hfits.rules))

/-! ## Rollouts -/

/-- A rollout that was read, and what it is read from. -/
theorem rollout_read {id : String} {ro : Rollout} {c c' : Conn Store} (hF : Uncut F)
    (h : rollout id F c = (.ok ro, c')) :
    ∃ r, c.store.rollouts.find? (fun r => r.id == id) = some r ∧ ro.id = id ∧
      ro = hydrated c.store r := by
  have hcalls : ∀ k < 4, F (c.calls + k) = none := by
    obtain ⟨ro₁, c₁, hrow, hh⟩ := Db.bind_ok h
    obtain ⟨st, c₂, h₂, hh⟩ := Db.bind_ok hh
    obtain ⟨pr, c₃, h₃, hh⟩ := Db.bind_ok hh
    obtain ⟨ts, c₄, h₄, -⟩ := Db.bind_ok hh
    have n₁ := stmt_calls hrow
    have n₂ := select_calls h₂
    have n₃ := select_calls h₃
    intro k hk
    match k, hk with
    | 0, _ => exact Db.call_ok_faults hrow
    | 1, _ => exact n₁ ▸ hF.select_ok h₂
    | 2, _ => exact (show c₂.calls = c.calls + 2 by omega) ▸ hF.select_ok h₃
    | 3, _ => exact (show c₃.calls = c.calls + 3 by omega) ▸ hF.select_ok h₄
  obtain ⟨-, r, hr, hid, hro⟩ := rollout_ok h
  exact ⟨r, hr, hid, hro hcalls⟩

/-- Reading a rollout does not look at the queue. -/
theorem rollout_run_queue (id : String) (s : Store) (t : NotificationTable) :
    ((rollout id).run { s with notifications := t }).1 = ((rollout id).run s).1 := by
  rw [rollout_run, rollout_run]
  cases hasNul id with
  | true => rfl
  | false =>
    dsimp only
    cases s.rollouts.find? fun r => r.id == id <;> rfl

/-- A stored rollout is in the answer for its id, unless that has no text. -/
theorem entity_getRollout {id : String} {ro : Rollout} (hadmin : sess.role = roleAdmin)
    (hid : ro.id = id) (h : ((rollout id).run s).1 = .ok ro) :
    (serve (getRollout zone sess id) Db.noFaults ⟨s, 0⟩).1.entity id =
      if Json.HasText (ro.toJson.instants.map zone) ro.toJson then some ro.toJson else none := by
  obtain ⟨c', hread, -⟩ := run_eq (Prod.ext h rfl)
  unfold serve getRollout
  rw [Db.bind_def, hread, hadmin]
  show (writeStored zone 200 ro.toJson).entity id = _
  rw [Reply.entity, show (writeStored zone 200 ro.toJson).body = encoded _ _ from rfl, encoded]
  by_cases htext : Json.HasText (ro.toJson.instants.map zone) ro.toJson
  · rw [if_pos htext, if_pos htext]
    show (if ro.toJson.id? = some id then some ro.toJson else none) = _
    rw [id_toJson_rollout, hid, if_pos rfl]
  · rw [if_neg htext, if_neg htext]

/-- **What is read back after the write** is what the next reader gets, if it has a text. -/
theorem echoed_writeAndSchedule {write : Repo Unit} {id : String} {status : Nat}
    {action : String} {P : Prop} (hadmin : sess.role = roleAdmin) (hF : Uncut F)
    (hreader : ∀ id, q.reader env.zone sess id = getRollout env.zone sess id)
    (hecho : ∀ j, q.echo env.zone j = written env.zone j)
    (hhandler : (q.handler env sess) = writeAndSchedule env write id fun out =>
      (writeStored env.zone status out.toJson).after ⟨"rollout", out.id, action⟩)
    (hwritten : ∀ c' r, write F ⟨s, 0⟩ = (.ok (), c') →
      c'.store.rollouts.find? (fun r => r.id == id) = some r → hasNul id = false ∧
        (Json.HasText ((hydrated c'.store r).toJson.instants.map env.zone)
          (hydrated c'.store r).toJson ↔ P))
    (hok : (serve (q.handler env sess) F ⟨s, 0⟩).1.status / 100 = 2) :
    Echoed env sess q s F ↔ P := by
  rw [hhandler] at hok
  have hend := serve_writeAndSchedule env write id (fun out =>
    (writeStored env.zone status out.toJson).after ⟨"rollout", out.id, action⟩) F ⟨s, 0⟩
  have hkeeps := hend.keeps (p := fun s => ((rollout id).run s).1) (rollout_run_queue id)
  generalize hres : serve (writeAndSchedule env write id _) F ⟨s, 0⟩ = res at hok hend hkeeps
  cases hend with
  | refused e c₁ hwrite => exact absurd hok (writeErr_refused e)
  | unread c₁ e c₂ hwrite hread => exact absurd hok (writeErr_refused e)
  | answered c₁ out c₂ r c₃ hwrite hread hschedule =>
    obtain ⟨row, hrow, hout, rfl⟩ := rollout_read hF hread
    obtain ⟨hid, htext⟩ := hwritten c₁ row hwrite hrow
    have hget : ((rollout id).run c₃.store).1 = .ok (hydrated c₁.store row) := by
      refine hkeeps.trans ?_
      rw [hwrite, rollout_run, hid, hrow]
      rfl
    have hserve : serve (q.handler env sess) F ⟨s, 0⟩ = _ := hhandler ▸ hres
    rw [← htext]
    by_cases hwritable : Json.HasText ((hydrated c₁.store row).toJson.instants.map env.zone)
        (hydrated c₁.store row).toJson
    · refine iff_of_true ((echoed_iff hserve (if_pos hwritable) (id_toJson_rollout _) ?_).mpr
        (hecho _).symm) hwritable
      rw [hreader, hout]
      rw [entity_getRollout hadmin hout hget, if_pos hwritable]
    · exact iff_of_false (not_echoed_of_empty hserve (if_neg hwritable)) hwritable

/-- A rollout is echoed when its times have a text. -/
theorem echoed_createRollout {ro : Rollout} (hrefs : s.References) (hadmin : sess.role = roleAdmin)
    (hF : Uncut F)
    (hok : (serve ((createRollout ro).handler env sess) F ⟨s, 0⟩).1.status / 100 = 2) :
    Echoed env sess (createRollout ro) s F ↔ (createRollout ro).AsStored env s := by
  refine echoed_writeAndSchedule hadmin hF (fun _ => rfl) (fun _ => rfl)
    (createRollout_eq env sess ro) (fun c' r hwrite hr => ?_) hok
  obtain ⟨hnew, hnul, tasks, hstore⟩ := createRolloutCommit_ok hwrite
  have hid : r.id = (createInput env sess ro).id := by simpa using List.find?_some hr
  have hrow : r = createdRow env.dbNow (createInput env sess ro) := by
    rw [hstore] at hr
    rcases List.mem_append.mp (List.mem_of_find?_eq_some hr) with hold | hcreated
    · exact absurd (beq_iff_eq.mpr hid) (List.any_eq_false.mp hnew r hold)
    · exact List.mem_singleton.mp hcreated
  have hstages : stagesOf c'.store r.id = ro.stages.items.map storedStage := by
    rw [hid, hstore]
    exact stagesOf_applyCreate _ _ _ fun r hr hsame => by
      have hhas := hrefs r.rolloutId (by
        simp only [Store.owners, List.mem_append]
        exact Or.inl (Or.inl (Or.inl (List.mem_map_of_mem hr))))
      rw [hsame, hnew] at hhas
      cases hhas
  have htasks : tasksOf c'.store r.id = tasks.zipIdx.map fun d => ⟨d.2, d.1, "", "", "", none⟩ := by
    rw [hid, hstore]
    exact tasksOf_applyCreate hrefs hnew
  refine ⟨hnul, hasText_rollout_iff.trans ?_⟩
  unfold hydrated
  rw [hstages, htasks, hrow]
  refine and_congr List.forall_mem_map ?_
  constructor
  · rintro ⟨-, -, hnow⟩
    exact hnow
  · intro hnow
    refine ⟨fun t ht at_ hat => ?_, hnow, hnow⟩
    obtain ⟨d, -, rfl⟩ := List.mem_map.mp ht
    cases hat

/-- An updated rollout is echoed when the times of the body and the one the row keeps have a
text. -/
theorem echoed_updateRollout {id : String} {ro : Rollout} (hs : Schema s)
    (hadmin : sess.role = roleAdmin) (hF : Uncut F)
    (hok : (serve ((updateRollout id ro).handler env sess) F ⟨s, 0⟩).1.status / 100 = 2) :
    Echoed env sess (updateRollout id ro) s F ↔ (updateRollout id ro).AsStored env s := by
  refine echoed_writeAndSchedule hadmin hF (fun _ => rfl) (fun _ => rfl)
    (updateRollout_eq env id ro) (fun c' r hwrite hr => ?_) hok
  obtain ⟨hhas, hnul, hstore⟩ := updateRolloutTx_ok hwrite
  -- the row of that id is the only one
  obtain ⟨r₀, hr₀, hid, hrow⟩ : ∃ r₀ ∈ s.rollouts, r₀.id = id ∧
      r = updatedRow env.dbNow { ro with id := id } r₀ := by
    rw [hstore] at hr
    have hfind := (find_updatedRow env.dbNow { ro with id := id } s.rollouts).symm.trans hr
    obtain ⟨r₀, hr₀, rfl⟩ := Option.map_eq_some_iff.mp hfind
    exact ⟨r₀, List.mem_of_find?_eq_some hr₀, by simpa using List.find?_some hr₀, rfl⟩
  have honly : (∀ r' ∈ s.rollouts, r'.id = id → Printable env.zone r'.createdAt) ↔
      Printable env.zone r₀.createdAt := by
    refine ⟨fun h => h r₀ hr₀ hid, fun h r' hr' hid' => ?_⟩
    rw [List.inj_on_of_nodup_map hs.rollouts.ids hr' hr₀ (hid'.trans hid.symm)]
    exact h
  have hrow : r = { r₀ with
      title := ro.title
      descExt := ro.descExt
      descInt := ro.descInt
      risks := ro.risks
      updatedAt := pgTimestamp env.dbNow } := hrow.trans (if_pos hid)
  have hstages : stagesOf c'.store r.id = ro.stages.items.map storedStage := by
    rw [hrow, hid, hstore]
    exact stagesOf_applyUpdate env.dbNow { ro with id := id } s
  have htasks : tasksOf c'.store r.id = ro.tasks.items.zipIdx.map storedTask := by
    rw [hrow, hid, hstore]
    exact @tasksOf_applyUpdate env.dbNow { ro with id := id } s
  refine ⟨hnul, hasText_rollout_iff.trans ?_⟩
  unfold hydrated
  rw [hstages, htasks, hrow]
  refine and_congr List.forall_mem_map (and_congr ?_ (and_congr_left' honly.symm))
  constructor
  · intro h t ht at_ hat
    obtain ⟨k, hk, hkt⟩ := List.mem_iff_getElem.mp ht
    have hindexed : (t, k) ∈ ro.tasks.items.zipIdx := by
      rw [List.mem_zipIdx_iff_getElem?, List.getElem?_eq_some_iff]
      exact ⟨hk, hkt⟩
    exact h _ (List.mem_map_of_mem hindexed) _ (Option.mem_map_of_mem _ hat)
  · intro h t' ht' at_ hat
    obtain ⟨t, ht, rfl⟩ := List.mem_map.mp ht'
    obtain ⟨given, hgiven, rfl⟩ := Option.map_eq_some_iff.mp hat
    exact h t.1 (List.fst_mem_of_mem_zipIdx ht) given hgiven

/-! ## Locks -/

/-- A lock is echoed with the times of the body, in the zones of the body. -/
theorem written_lock_iff {l : Lock} {j : Json} {zones : LockZones} :
    written zone j = ⟨(echoedLock l).toJson, zones.offsets⟩ ↔
      j = (echoedLock l).toJson ∧ LocalTimes zone l zones := by
  constructor
  · intro h
    obtain ⟨rfl, hoffsets⟩ := Written.mk.inj h
    exact ⟨rfl, hoffsets.symm⟩
  · rintro ⟨rfl, hlocal⟩
    exact congrArg (Written.mk _) hlocal.symm

theorem toJson_lockRow_iff {now : Int} {l : Lock} :
    (scanLock (lockRow now l)).toJson = (echoedLock l).toJson ↔
      Whole l.startAt ∧ Whole l.endAt ∧ pgTimestamp now = l.createdAt := by
  simp [Lock.toJson, scanLock, lockRow, echoedLock, getD_nullIfEmpty, Whole]

theorem toJson_updatedLock_iff {l : Lock} {r : LockRow} (hid : r.id = l.id) :
    (scanLock (updatedLock l r)).toJson = (echoedLock l).toJson ↔
      Whole l.startAt ∧ Whole l.endAt ∧ r.createdBy.getD "" = l.createdBy ∧
        r.createdAt = l.createdAt := by
  unfold updatedLock
  rw [if_pos hid]
  simp [Lock.toJson, scanLock, echoedLock, Whole, hid]

theorem keys_applyCreateLock {now : Int} {l : Lock} (hkeys : (s.locks.map (·.id)).Nodup)
    (hfresh : s.hasLock l.id = false) : ((applyCreateLock now l s).locks.map (·.id)).Nodup := by
  show ((s.locks ++ [lockRow now l]).map (·.id)).Nodup
  rw [List.map_append]
  refine hkeys.append (List.nodup_singleton _) fun id hid hid' => ?_
  obtain ⟨r, hr, rfl⟩ := List.mem_map.mp hid
  exact List.any_eq_false.mp hfresh r hr (beq_iff_eq.mpr (List.mem_singleton.mp hid'))

theorem keys_applyLock {l : Lock} (hkeys : (s.locks.map (·.id)).Nodup) :
    ((applyLock l s).locks.map (·.id)).Nodup := by
  show ((s.locks.map (updatedLock l)).map (·.id)).Nodup
  have hids : (fun r : LockRow => r.id) ∘ updatedLock l = fun r => r.id := by
    funext r
    simp only [Function.comp, updatedLock]
    split <;> rfl
  rw [List.map_map, hids]
  exact hkeys

/-- A body that is turned down is not a success. -/
theorem turnedDown_not_ok {m : Repo Reply} {msg : String} {c : Conn Store}
    (hm : m = pure (httpError 400 msg)) : ¬(serve m F c).1.status / 100 = 2 := by
  rw [hm]
  show ¬400 / 100 = 2
  decide

/-- An entry whose text says what the row says has the row's times. -/
theorem printable_of_toJson_eq {l : Lock} {r : LockRow}
    (h : (scanLock r).toJson = (echoedLock l).toJson) :
    PrintableLock zone r ↔
      Printable zone l.startAt ∧ Printable zone l.endAt ∧ Printable zone l.createdAt := by
  have htimes := congrArg Json.instants h
  rw [instants_lock, instants_lock] at htimes
  obtain ⟨hstart, hend, hcreated⟩ : r.startAt = l.startAt ∧ r.endAt = l.endAt ∧
      r.createdAt = l.createdAt := by simpa [scanLock, echoedLock] using htimes
  rw [PrintableLock, hstart, hend, hcreated]

/-- In the server's zone, the answer has a text when the times of the lock have one. -/
theorem hasText_echoedLock_iff {l : Lock} {zones : LockZones} (h : LocalTimes zone l zones) :
    Json.HasText zones.offsets (echoedLock l).toJson ↔
      Printable zone l.startAt ∧ Printable zone l.endAt ∧ Printable zone l.createdAt := by
  have hoffsets : zones.offsets = (echoedLock l).toJson.instants.map zone := by
    rw [h, instants_lock]
    rfl
  rw [hoffsets, Json.hasText_map_iff, instants_lock]
  simp [echoedLock]

/-- A lock is echoed when its row says the same, in the zones of the body, and the whole list
has a text. -/
theorem echoed_lock_iff {l : Lock} {zones : LockZones} {status : Nat} {action : String}
    {c' : Conn Store} {r : LockRow}
    (hserve : serve (q.handler env sess) F ⟨s, 0⟩ =
      ((writeJSON zones.offsets status (echoedLock l).toJson).after
        ⟨"lock", (echoedLock l).id, action⟩, c'))
    (hreader : ∀ id, q.reader env.zone sess id = listLocks env.zone)
    (hecho : ∀ j, q.echo env.zone j = ⟨j, zones.offsets⟩)
    (hkeys : (c'.store.locks.map (·.id)).Nodup) (hr : r ∈ c'.store.locks) (hid : r.id = l.id) :
    Echoed env sess q s F ↔
      ((scanLock r).toJson = (echoedLock l).toJson ∧ LocalTimes env.zone l zones) ∧
        ∀ r ∈ c'.store.locks, PrintableLock env.zone r := by
  have hlist : (serve (listLocks env.zone) Db.noFaults ⟨c'.store, 0⟩).1.entity r.id = _ :=
    entity_listLocks hkeys hr
  rw [hid, ← hreader (echoedLock l).id] at hlist
  by_cases hall : ∀ r ∈ c'.store.locks, PrintableLock env.zone r
  · rw [if_pos hall] at hlist
    by_cases htext : Json.HasText zones.offsets (echoedLock l).toJson
    · rw [echoed_iff hserve (if_pos htext) (id_toJson_lock _) hlist, hecho, written_lock_iff]
      exact ⟨fun h => ⟨h, hall⟩, And.left⟩
    · refine iff_of_false (not_echoed_of_empty hserve (if_neg htext)) ?_
      rintro ⟨⟨hsame, hlocal⟩, -⟩
      exact htext ((hasText_echoedLock_iff hlocal).mpr
        ((printable_of_toJson_eq hsame).mp (hall r hr)))
  · rw [if_neg hall] at hlist
    exact iff_of_false (not_echoed_of_absent hserve rfl (id_toJson_lock _) hlist) fun h => hall h.2

/-- A new lock is echoed as it is stored when the body has the times of the row. -/
theorem echoed_createLock {l : Lock} {zones : LockZones} (hkeys : (s.locks.map (·.id)).Nodup)
    (hok : (serve ((createLock l zones).handler env sess) F ⟨s, 0⟩).1.status / 100 = 2) :
    Echoed env sess (createLock l zones) s F ↔ (createLock l zones).AsStored env s := by
  cases hl : normalizeAndValidateLock l with
  | error msg => exact absurd hok (turnedDown_not_ok (LockRequest.createLock_invalid hl))
  | ok l' =>
    have hhandler : ((createLock l zones).handler env sess) = _ :=
      LockRequest.createLock_valid hl
    rw [hhandler] at hok
    obtain ⟨out, c', hstored, hserve⟩ := serve_ok hok
    obtain ⟨-, hfits, rfl, hstore⟩ := createLock_ok hstored
    rw [← hhandler] at hserve
    obtain ⟨-, hl'⟩ := normalizeAndValidateLock_eq_ok hl
    have hlocks : c'.store.locks =
        s.locks ++ [lockRow env.dbNow (LockRequest.newLock env sess l')] := by rw [hstore]; rfl
    have hnodup : (c'.store.locks.map (·.id)).Nodup := by
      rw [hstore]
      exact keys_applyCreateLock hkeys hfits.fresh
    have hrow : lockRow env.dbNow (LockRequest.newLock env sess l') ∈ c'.store.locks := by
      rw [hlocks]
      exact List.mem_append_right _ (List.mem_singleton_self _)
    rw [echoed_lock_iff hserve (fun _ => rfl) (fun _ => rfl) hnodup hrow rfl, hlocks,
      List.forall_mem_append, List.forall_mem_singleton]
    rw [and_congr_right fun h => and_congr_right' (printable_of_toJson_eq h.1), toJson_lockRow_iff,
      hl']
    exact Iff.rfl

/-- An updated lock is echoed as it is stored when the body has the times of the row and
what the row keeps. -/
theorem echoed_updateLock {id : String} {l : Lock} {zones : LockZones}
    (hkeys : (s.locks.map (·.id)).Nodup)
    (hok : (serve ((updateLock id l zones).handler env sess) F ⟨s, 0⟩).1.status / 100 = 2) :
    Echoed env sess (updateLock id l zones) s F ↔ (updateLock id l zones).AsStored env s := by
  cases hl : normalizeAndValidateLock l with
  | error msg => exact absurd hok (turnedDown_not_ok (LockRequest.updateLock_invalid hl))
  | ok l' =>
    have hhandler : ((updateLock id l zones).handler env sess) = _ :=
      LockRequest.updateLock_valid hl
    rw [hhandler] at hok
    obtain ⟨out, c', hstored, hserve⟩ := serve_ok hok
    obtain ⟨hhas, hstore⟩ := updateLock_ok hstored
    obtain ⟨-, -, rfl⟩ := updateLock_ok_fits hstored
    rw [← hhandler] at hserve
    obtain ⟨-, hl'⟩ := normalizeAndValidateLock_eq_ok hl
    obtain ⟨r, hr, hid⟩ := List.any_eq_true.mp hhas
    have hid : r.id = id := beq_iff_eq.mp hid
    have hrow : updatedLock { l' with id := id } r ∈ c'.store.locks := by
      rw [hstore]
      exact List.mem_map_of_mem hr
    have hnodup : (c'.store.locks.map (·.id)).Nodup := by
      rw [hstore]
      exact keys_applyLock hkeys
    -- the row of that id is the only one
    have honly : (∀ r' ∈ s.locks, r'.id = id →
        r'.createdBy.getD "" = l.createdBy ∧ r'.createdAt = l.createdAt) ↔
          r.createdBy.getD "" = l.createdBy ∧ r.createdAt = l.createdAt := by
      refine ⟨fun h => h r hr hid, fun h r' hr' hid' => ?_⟩
      rw [List.inj_on_of_nodup_map hkeys hr' hr (hid'.trans hid.symm)]
      exact h
    have hkept : (updatedLock { l' with id := id } r).id = id := by
      unfold updatedLock
      rw [if_pos hid]
      exact hid
    -- the other rows are as they were
    have hall : (∀ r' ∈ c'.store.locks, PrintableLock env.zone r') ↔
        (∀ r' ∈ s.locks, r'.id ≠ id → PrintableLock env.zone r') ∧
          PrintableLock env.zone (updatedLock { l' with id := id } r) := by
      rw [show c'.store.locks = s.locks.map (updatedLock { l' with id := id }) by rw [hstore]; rfl,
        List.forall_mem_map]
      constructor
      · intro h
        refine ⟨fun r' hr' hne => ?_, h r hr⟩
        rw [← updatedLock_ne (l := { l' with id := id }) hne]
        exact h r' hr'
      · rintro ⟨hothers, hown⟩ r' hr'
        by_cases hid' : r'.id = id
        · rw [List.inj_on_of_nodup_map hkeys hr' hr (hid'.trans hid.symm)]
          exact hown
        · rw [updatedLock_ne (l := { l' with id := id }) hid']
          exact hothers r' hr' hid'
    rw [echoed_lock_iff hserve (fun _ => rfl) (fun _ => rfl) hnodup hrow hkept, hall,
      and_congr_right fun h => and_congr_right' (printable_of_toJson_eq h.1),
      toJson_updatedLock_iff hid]
    simp only [AsStored, honly]
    rw [hl']
    exact Iff.rfl

end Law

/-- **A write answers with what it stored** exactly when the request says what is stored, and
that can be written. -/
theorem echo_iff (env : Env) {sess : Session} (hadmin : sess.role = roleAdmin)
    (q : EntityWrite) {s : Store} (hs : Schema s) (hrefs : s.References)
    (hlocks : (s.locks.map (·.id)).Nodup) {F : Faults Err} (hF : Uncut F)
    (hok : (serve (q.handler env sess) F ⟨s, 0⟩).1.status / 100 = 2) :
    Echoed env sess q s F ↔ q.AsStored env s := by
  cases q with
  | createRollout ro => exact echoed_createRollout hrefs hadmin hF hok
  | updateRollout id ro => exact echoed_updateRollout hs hadmin hF hok
  | createLock l zones => exact echoed_createLock hlocks hok
  | updateLock id l zones => exact echoed_updateLock hlocks hok
  | upsertProduct p => exact iff_of_true (echoed_upsertProduct hs hok) trivial
  | upsertRolloutType t => exact echoed_upsertRolloutType hs hok

private def today : Env :=
  ⟨1780000000 * second, 1780000000 * second, "01234567", Char.toUpper, Char.toLower, fun _ => 0⟩

private def lea : Session := ⟨"lea", "lea@example.com", "Lea", roleAdmin, none, 0⟩

/-- A lock as the form posts it: without `createdAt`, which decodes to the year 1. -/
private def posted : Lock :=
  ⟨"", "Freeze", "", "", 1780000000 * second, 1780003600 * second, none, "", "",
    -62135596800 * second⟩

private def leaOnly : Store :=
  { Store.empty with actors := [⟨"lea", "lea@example.com", "Lea", roleAdmin⟩] }

/-- A product is echoed as it is stored. -/
theorem echo_iff_product :
    Echoed today lea (upsertProduct ⟨"", "Foo", "", some []⟩) Store.empty Db.noFaults :=
  (echo_iff today rfl _ schema_empty Store.references_empty List.nodup_nil
    (fun _ _ _ h => by cases h) (by decide)).mpr trivial

/-- **A new lock is answered with the year 1** as the time of its creation; the list then has
the time it was stored. -/
theorem lock_created_in_year_one :
    (serve ((createLock posted ⟨0, 0, 0⟩).handler today lea) Db.noFaults
        ⟨leaOnly, 0⟩).1.status = 201 ∧
      ¬Echoed today lea (createLock posted ⟨0, 0, 0⟩) leaOnly Db.noFaults := by
  refine ⟨by decide, ?_⟩
  rintro ⟨j, id, hbody, hid, hread⟩
  obtain rfl := Body.json.inj hbody
  obtain rfl := Option.some.inj hid
  have htimes := congrArg (Option.map fun w => w.json.times) hread
  exact absurd htimes (by decide)

end EntityWrite

end Api

end ReleaseRadar
