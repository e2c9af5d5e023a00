import ReleaseRadar.Api.Ledger
import ReleaseRadar.Api.SaveBack
import ReleaseRadar.Api.Wire

/-!
# Saving back what was read

An editor that opens a rollout or a lock and saves it unchanged sends the octets back that it
got. A stored entity is in the form a write would give it (`AsStored`): its times are whole
microseconds, its pair has no repetitions, its tasks stand at their places with statuses that
are admitted, its title is trimmed. So the write gives it that form once more, and of all that
is kept only the time of a rollout's last update can change (`saved_back`), whatever fails.
-/

namespace ReleaseRadar

open Lib Repository

/-! ## The stored form -/

/-- The rollout as the tables keep it. -/
structure Rollout.AsStored (ro : Rollout) : Prop where
  stages : ∃ sts, ro.stages = some sts ∧ ∀ st ∈ sts, storedStage st = st
  pair : ∃ ps, ro.pair = some ps
  tasks : ∃ ts, ro.tasks = some ts ∧
    ∀ t ∈ ts, clampStatus t.status = t.status ∧ t.at_.map pgTimestamp = t.at_

/-- The lock as the tables keep it. -/
structure Lock.AsStored (l : Lock) : Prop where
  id_ne : l.id ≠ ""
  title : Api.Trimmed l.title
  kind : l.kind ∈ lockKinds
  startAt : pgTimestamp l.startAt = l.startAt
  endAt : pgTimestamp l.endAt = l.endAt
  products : ∃ ps, l.products = some ps

structure Catalogue.AsStored (K : Catalogue) : Prop where
  rollouts : ∀ id ro, K.rollouts id = some ro → ro.AsStored
  locks : ∀ id l, K.locks id = some l → l.AsStored

/-- A change with a lock that the validation has let through. -/
def Change.Validated : Change → Prop
  | addLock _ l => l.id ≠ "" ∧ Api.ValidLock l
  | changeLock l => Api.ValidLock l
  | product _ | rolloutType _ | create .. | update .. | delete _ | task .. | dropLock _ => True

/-- A stage that came from the table is stored unchanged. -/
theorem storedStage_idem (st : RolloutStage) : storedStage (storedStage st) = storedStage st := by
  unfold storedStage
  rw [pgTimestamp_idem, pgInterval_idem]

/-- A status that was clamped stays. -/
theorem clampStatus_idem (status : String) :
    clampStatus (clampStatus status) = clampStatus status := by
  unfold clampStatus
  split <;> rfl

/-- Microseconds stay microseconds. -/
theorem map_pgTimestamp_idem (at_ : Option Int) :
    (at_.map pgTimestamp).map pgTimestamp = at_.map pgTimestamp := by
  cases at_ with
  | none => rfl
  | some t => exact congrArg some (pgTimestamp_idem t)

/-- Where nothing is twice, nothing is erased. -/
theorem eraseDups_of_nodup {xs : List String} (h : xs.Nodup) : xs.eraseDups = xs := by
  induction xs with
  | nil => rfl
  | cons x xs ih =>
    obtain ⟨hx, hxs⟩ := List.nodup_cons.mp h
    have hkept : xs.filter (fun y => !y == x) = xs :=
      List.filter_eq_self.mpr fun y hy => by
        have hne : y ≠ x := fun he => hx (he ▸ hy)
        simpa using hne
    rw [List.eraseDups_cons, hkept, ih hxs]

/-- Tasks that stand at their places are stored as they are. -/
theorem storedTasks_eq {ts : List RolloutTask} (hindex : ts.map (·.index) = List.range ts.length)
    (hlog : ∀ t ∈ ts, clampStatus t.status = t.status ∧ t.at_.map pgTimestamp = t.at_) :
    ts.zipIdx.map storedTask = ts := by
  refine List.ext_getElem (by simp) fun i h₁ h₂ => ?_
  have hi : (ts[i]).index = i := by
    have hget := congrArg (fun xs => xs[i]?) hindex
    simpa [h₂] using hget
  obtain ⟨hstatus, hat⟩ := hlog ts[i] (List.getElem_mem h₂)
  simp only [List.getElem_map, List.getElem_zipIdx, storedTask, Nat.zero_add, hstatus, hat]
  generalize ts[i] = t at hi ⊢
  cases t
  cases hi
  rfl

/-- **A rollout in stored form is written as it is**, but for the time of the update. -/
theorem Rollout.AsStored.revised {ro : Rollout} (h : ro.AsStored)
    (hindex : ro.tasks.items.map (·.index) = List.range ro.tasks.items.length)
    (hpair : ro.pair.items.Nodup) (now : Int) :
    ro.revised now ro = { ro with updatedAt := pgTimestamp now } := by
  obtain ⟨⟨sts, hsts, hstage⟩, ⟨ps, hps⟩, ⟨ts, hts, hlog⟩⟩ := h
  rw [hts, Slice.items_some] at hindex
  rw [hps, Slice.items_some] at hpair
  have hstages : sts.map storedStage = sts :=
    (List.map_congr_left hstage).trans (List.map_id _)
  unfold Rollout.revised
  rw [hsts, hps, hts, Slice.items_some, Slice.items_some, Slice.items_some, hstages,
    eraseDups_of_nodup hpair, storedTasks_eq hindex hlog]

/-- **A lock in stored form is written as it is.** -/
theorem Lock.AsStored.revised {l : Lock} (h : l.AsStored) : l.revised l = l := by
  obtain ⟨-, -, -, hstart, hend, ⟨ps, hps⟩⟩ := h
  unfold Lock.revised
  rw [hstart, hend, hps, Slice.items_some, ← hps]

/-! ## Every entry is in stored form -/

/-- A new rollout is as it will be read. -/
theorem asStored_opened (now : Int) (tasks : List String) (ro : Rollout) :
    (ro.opened now tasks).AsStored where
  stages := ⟨_, rfl, fun st hst => by
    obtain ⟨st', -, rfl⟩ := List.mem_map.mp hst
    exact storedStage_idem st'⟩
  pair := ⟨_, rfl⟩
  tasks := ⟨_, rfl, fun t ht => by
    obtain ⟨d, -, rfl⟩ := List.mem_map.mp ht
    exact ⟨rfl, rfl⟩⟩

/-- So is an updated one. -/
theorem asStored_revised (now : Int) (ro old : Rollout) : (ro.revised now old).AsStored where
  stages := ⟨_, rfl, fun st hst => by
    obtain ⟨st', -, rfl⟩ := List.mem_map.mp hst
    exact storedStage_idem st'⟩
  pair := ⟨_, rfl⟩
  tasks := ⟨_, rfl, fun t ht => by
    obtain ⟨t', -, rfl⟩ := List.mem_map.mp ht
    exact ⟨clampStatus_idem _, map_pgTimestamp_idem _⟩⟩

/-- The log of a task keeps it so. -/
theorem asStored_progressed {ro : Rollout} (h : ro.AsStored) (now seq : Int)
    (status reason by_ : String) : (ro.progressed now seq status reason by_).AsStored where
  stages := h.stages
  pair := h.pair
  tasks := by
    obtain ⟨ts, hts, hlog⟩ := h.tasks
    refine ⟨_, congrArg (Option.map _) hts, fun t ht => ?_⟩
    obtain ⟨t', ht', rfl⟩ := List.mem_map.mp ht
    have hold := hlog t' ht'
    split
    · unfold Rollout.logged
      split
      · exact ⟨rfl, rfl⟩
      · exact ⟨clampStatus_idem _, congrArg some (pgTimestamp_idem _)⟩
    · exact hold

/-- **Every change leaves the catalogue in stored form.** -/
theorem asStored_apply {K : Catalogue} {ch : Change} (h : K.AsStored) (hch : ch.Validated) :
    (ch.apply K).AsStored := by
  obtain ⟨hrollouts, hlocks⟩ := h
  cases ch with
  | product p => exact ⟨hrollouts, hlocks⟩
  | rolloutType t => exact ⟨hrollouts, hlocks⟩
  | create now ro =>
    refine ⟨forall_update hrollouts fun a ha => ?_, hlocks⟩
    rw [← Option.some.inj ha]
    exact asStored_opened _ _ _
  | update now ro =>
    refine ⟨forall_update hrollouts fun a ha => ?_, hlocks⟩
    obtain ⟨old, -, rfl⟩ := Option.map_eq_some_iff.mp ha
    exact asStored_revised _ _ _
  | delete id => exact ⟨forall_update hrollouts fun _ ha => absurd ha nofun, hlocks⟩
  | task now id seq status reason by_ =>
    refine ⟨forall_update hrollouts fun a ha => ?_, hlocks⟩
    obtain ⟨old, hold, rfl⟩ := Option.map_eq_some_iff.mp ha
    exact asStored_progressed (hrollouts _ old hold) now seq status reason by_
  | addLock now l =>
    refine ⟨hrollouts, forall_update hlocks fun a ha => ?_⟩
    rw [← Option.some.inj ha]
    exact ⟨hch.1, hch.2.trimmed, hch.2.kind, pgTimestamp_idem _, pgTimestamp_idem _, ⟨_, rfl⟩⟩
  | changeLock l =>
    refine ⟨hrollouts, forall_update hlocks fun a ha => ?_⟩
    obtain ⟨old, hold, rfl⟩ := Option.map_eq_some_iff.mp ha
    exact ⟨(hlocks _ old hold).id_ne, hch.trimmed, hch.kind, pgTimestamp_idem _,
      pgTimestamp_idem _, ⟨_, rfl⟩⟩
  | dropLock id => exact ⟨hrollouts, forall_update hlocks fun _ ha => absurd ha nofun⟩

theorem asStored_empty : Catalogue.empty.AsStored := ⟨nofun, nofun⟩

/-- So is everything validated changes lead to. -/
theorem asStored_ledger {K : Catalogue} {chs : List Change} (hchs : ∀ ch ∈ chs, ch.Validated)
    (h : ledger.exec Catalogue.empty chs = some K) : K.AsStored := by
  refine ledger.exec_invariant_along (G := fun _ ch => ch.Validated)
    (fun K ch K' hK hch hstep => ?_)
    asStored_empty (ledger.along_of_forall (fun ch hch _ => hchs ch hch) _) h
  by_cases henabled : ch.enabled K = true
  · rw [ledger_step henabled] at hstep
    obtain rfl := Option.some.inj hstep
    exact asStored_apply hK hch
  · exact absurd (hstep.symm.trans (if_neg henabled)) nofun

namespace Api

/-- A change that is asked for has been validated. -/
theorem validated_asks (env : Env) (req : Request) {ch : Change} (h : req.asks env = some ch) :
    ch.Validated := by
  unfold Request.asks at h
  obtain ⟨r, -, h⟩ := Option.bind_eq_some_iff.mp h
  obtain ⟨sess, -, h⟩ := Option.bind_eq_some_iff.mp h
  split at h
  · cases h
  · cases r with
    | upsertProduct | upsertRolloutType | createRollout | updateRollout id =>
      obtain ⟨_, -, rfl⟩ := Option.map_eq_some_iff.mp h
      trivial
    | deleteRollout id | deleteLock id =>
      obtain rfl := Option.some.inj h
      trivial
    | updateTask id seq =>
      obtain ⟨n, -, h⟩ := Option.bind_eq_some_iff.mp h
      obtain ⟨task, -, h⟩ := Option.bind_eq_some_iff.mp h
      split at h
      · cases h
      · obtain rfl := Option.some.inj h
        trivial
    | createLock =>
      obtain ⟨l, hl, rfl⟩ := Option.map_eq_some_iff.mp h
      have hvalid := LockRequest.valid_of_accepted hl
      refine ⟨?_, hvalid.title, hvalid.trimmed, hvalid.kind, hvalid.order⟩
      -- a body without an id gets one
      show (if l.id = "" then "l-" ++ env.uuid else l.id) ≠ ""
      split
      · exact fun he => absurd (congrArg String.toList he) (by simp)
      · assumption
    | updateLock id =>
      obtain ⟨l, hl, rfl⟩ := Option.map_eq_some_iff.mp h
      have hvalid := LockRequest.valid_of_accepted hl
      exact ⟨hvalid.title, hvalid.trimmed, hvalid.kind, hvalid.order⟩
    | me | listProducts | listRollouts | getRollout id | listLocks | calendar | ws
    | listRolloutTypes => cases h

/-- Every change a request asks for is validated. -/
theorem validated_event {e : Event} {ch : Change} (h : e.asks = some ch) : ch.Validated := by
  cases e with
  | request env req hbody faults => exact validated_asks env req h
  | login actors => cases h
  | marked now id err => cases h
  | seedProduct p hid | seedRolloutType t hid ht | seedRollout now ro =>
    obtain rfl := Option.some.inj h
    trivial

/-- **What the server leads to is in stored form.** -/
theorem asStored_reached {s : Store} (h : Reached s) : (catalogue s).AsStored := by
  obtain ⟨es, he⟩ := h
  obtain ⟨chs, hsub, hrun⟩ := service_refines ⟨[], rfl⟩ he
  refine asStored_ledger (fun ch hch => ?_) hrun
  obtain ⟨e, -, hasks⟩ := List.mem_filterMap.mp (hsub.subset hch)
  exact validated_event hasks

/-- The catalogue of a database the service has reached is well formed. -/
theorem wellFormed_reached {s : Store} (h : Reached s) : (catalogue s).WellFormed := by
  obtain ⟨es, he⟩ := h
  obtain ⟨chs, -, hrun⟩ := service_refines ⟨[], rfl⟩ he
  exact wellFormed_ledger hrun

/-! ## A stored lock is let through as it is, or not at all -/

/-- A trimmed string is its own trim. -/
theorem trimSpace_eq {s : String} (h : Trimmed s) : trimSpace s = s := by
  have hfirst : s.toList.dropWhile isSpace = s.toList := by
    cases hs : s.toList with
    | nil => rfl
    | cons c cs =>
      have hc := h.first c (by rw [hs]; rfl)
      rw [List.dropWhile_cons_of_neg (by rw [hc]; decide)]
  have hlast : s.toList.reverse.dropWhile isSpace = s.toList.reverse := by
    cases hs : s.toList.reverse with
    | nil => rfl
    | cons c cs =>
      have hc := h.last c (by rw [← List.head?_reverse, hs]; rfl)
      rw [List.dropWhile_cons_of_neg (by rw [hc]; decide)]
  rw [trimSpace, hfirst, hlast, List.reverse_reverse, String.ofList_toList]

/-- A lock that came from the table is accepted unchanged. -/
theorem accepted_asStored {l l' : Lock} (h : l.AsStored)
    (hl : LockRequest.accepted (some l) = some l') : l' = l := by
  have hkind : l.kind ≠ "" := fun he => absurd (he ▸ h.kind) (by decide)
  cases hv : normalizeAndValidateLock l with
  | error msg =>
    rw [LockRequest.accepted_error hv] at hl
    cases hl
  | ok l'' =>
    rw [LockRequest.accepted_ok hv] at hl
    obtain rfl := Option.some.inj hl
    unfold normalizeAndValidateLock at hv
    simp only [trimSpace_eq h.title, if_neg hkind] at hv
    split at hv
    · cases hv
    · split at hv
      · cases hv
      · split at hv
        · cases hv
        · exact (Except.ok.inj hv).symm

/-! ## What is opened -/

section Open

variable {s : Store} {env : Env} {get : Request} {id : String} {j : Json}

/-- An error is answered with a text. -/
theorem entity_writeErr (e : Err) (id : String) : (writeErr e).entity id = none := by
  unfold writeErr
  split
  · rfl
  · split <;> rfl
  · rfl

/-- Where no route matches no entity is answered. -/
theorem entity_unmatched (path : List String) (id : String) :
    (unmatched path).entity id = none := by
  unfold unmatched
  split <;> rfl

/-- An admin gets the rollout of the id. -/
theorem respond_getRollout (env : Env) (hget : AdminRequest "GET" ["api", "rollouts", id] get)
    (hid : id ≠ "") (F : Faults Err) (c : Conn Store) :
    ∃ sess, sess.role = roleAdmin ∧
      respond env get F c = serve (getRollout env.zone sess id) F c := by
  obtain ⟨sess, hsess, hadmin⟩ := hget.admin
  have hroute : resolve (patternMethod "GET") ["api", "rollouts", id] = some (.getRollout id) :=
    if_neg hid
  refine ⟨sess, hadmin, ?_⟩
  rw [hget.respond_eq (by decide) hroute, Route.handler, hsess]
  rfl

/-- An admin gets the list of the locks. -/
theorem respond_listLocks (hget : AdminRequest "GET" ["api", "locks"] get) (F : Faults Err)
    (c : Conn Store) : respond env get F c = serve (listLocks env.zone) F c := by
  obtain ⟨sess, hsess, -⟩ := hget.admin
  rw [hget.respond_eq (r := .listLocks) (by decide) rfl, Route.handler, hsess]
  rfl

/-- The rollout of the catalogue is what an editor gets, unless it has no text. -/
theorem entity_rollout (h : Reached s) (hget : AdminRequest "GET" ["api", "rollouts", id] get)
    (hid : id ≠ "") {ro : Rollout} (hro : (catalogue s).rollouts id = some ro) :
    (respond env get Db.noFaults ⟨s, 0⟩).1.entity id =
      if Json.HasText (ro.toJson.instants.map env.zone) ro.toJson then some ro.toJson
        else none := by
  obtain ⟨sess, hadmin, hrespond⟩ := respond_getRollout env hget hid Db.noFaults ⟨s, 0⟩
  rw [hrespond]
  exact EntityWrite.entity_getRollout hadmin ((wellFormed_reached h).rollouts id ro hro).id_eq
    (((answersCatalogue_reached h).rollout id ro).mpr hro)

/-- The rollout an editor gets is the one of the catalogue. -/
theorem opened_rollout (h : Reached s) (hget : AdminRequest "GET" ["api", "rollouts", id] get)
    (hj : (respond env get Db.noFaults ⟨s, 0⟩).1.entity id = some j) :
    ∃ ro, (catalogue s).rollouts id = some ro ∧ j = ro.toJson := by
  by_cases hid : id = ""
  · -- no pattern matches an empty segment
    have hnone : resolve (patternMethod get.method) get.path = none := by
      rw [hget.method, hget.path, hid]
      rfl
    have hroute : route env get = pure (unmatched get.path) := by
      unfold route
      rw [hnone]
    rw [respond_eq_serve (by rw [hget.method]; decide), hroute] at hj
    exact absurd ((entity_unmatched get.path id).symm.trans hj) nofun
  · cases hro : (catalogue s).rollouts id with
    | some ro =>
      rw [entity_rollout h hget hid hro] at hj
      split at hj
      · exact ⟨ro, rfl, (Option.some.inj hj).symm⟩
      · cases hj
    | none =>
      obtain ⟨sess, -, hrespond⟩ := respond_getRollout env hget hid Db.noFaults ⟨s, 0⟩
      rw [hrespond] at hj
      match hrun : rollout id Db.noFaults ⟨s, 0⟩ with
      | (.ok ro, c') =>
        have hread : ((rollout id).run s).1 = .ok ro := by
          unfold Db.run
          rw [hrun]
        exact absurd (hro.symm.trans (((answersCatalogue_reached h).rollout id ro).mp hread)) nofun
      | (.error e, c') =>
        have herror : serve (getRollout env.zone sess id) Db.noFaults ⟨s, 0⟩ =
          (writeErr e, c') := by
          unfold serve getRollout
          rw [Db.bind_def, hrun]
        rw [herror] at hj
        exact absurd ((entity_writeErr e id).symm.trans hj) nofun

/-- An editor gets the lock of the catalogue, and no other, when the list of them has a text. -/
theorem entity_lock_iff (h : Reached s) (hget : AdminRequest "GET" ["api", "locks"] get) :
    (respond env get Db.noFaults ⟨s, 0⟩).1.entity id = some j ↔
      (∀ r ∈ s.locks, PrintableLock env.zone r) ∧
        ∃ l, (catalogue s).locks id = some l ∧ j = l.toJson := by
  obtain ⟨ls, hrun, hlists⟩ := (answersCatalogue_reached h).locks
  obtain ⟨c', hread, -⟩ := run_eq hrun
  have hbody : (respond env get Db.noFaults ⟨s, 0⟩).1.body =
      encoded ((Json.arr (ls.map Lock.toJson)).instants.map env.zone)
        (.arr (ls.map Lock.toJson)) := by
    rw [respond_listLocks hget, listLocks, serve_of_ok hread]
    rfl
  have htext : Json.HasText ((Json.arr (ls.map Lock.toJson)).instants.map env.zone)
      (.arr (ls.map Lock.toJson)) ↔ ∀ r ∈ s.locks, PrintableLock env.zone r := by
    obtain ⟨-, hls⟩ := checked_select_ok hread
    rw [hls, List.map_map]
    exact hasText_locks_iff
  by_cases hprintable : ∀ r ∈ s.locks, PrintableLock env.zone r
  swap
  · refine iff_of_false (fun hj => ?_) fun hj => hprintable hj.1
    rw [Reply.entity, hbody, encoded, if_neg fun ht => hprintable (htext.mp ht)] at hj
    cases hj
  rw [and_iff_right hprintable]
  have hfind : (respond env get Db.noFaults ⟨s, 0⟩).1.entity id =
      (ls.find? fun l => decide (l.id = id)).map Lock.toJson := by
    rw [Reply.entity, hbody, encoded, if_pos (htext.mpr hprintable)]
    show (ls.map Lock.toJson).find? (fun j => j.id? == some id) = _
    rw [List.find?_map]
    refine congrArg (Option.map Lock.toJson) (congrArg (ls.find? ·) (funext fun l => ?_))
    show (some l.id == some id) = _
    rw [Option.some_beq_some, beq_eq_decide]
  rw [hfind, Option.map_eq_some_iff]
  exact exists_congr fun l =>
    and_congr (hlists.find_iff (wellFormed_reached h).locks) eq_comm

end Open

/-! ## What is saved -/

section Save

variable {s : Store} {zone : Int → Int} {other : List Char → Option Int} {env : Env} {put : Request}
  {F : Faults Err} {id : String} {text : List Char}

/-- The rollout of the id has the time of the update, and all else is kept. -/
def Touched (now : Int) (id : String) (K : Catalogue) : Catalogue :=
  { K with
    rollouts := Function.update K.rollouts id
      ((K.rollouts id).map fun ro => { ro with updatedAt := pgTimestamp now }) }

/-- What an update with a stored rollout itself makes of the catalogue. -/
theorem apply_update_stored (h : Reached s) {ro : Rollout}
    (hro : (catalogue s).rollouts id = some ro)
    (now : Int) : (Change.update now ro).apply (catalogue s) = Touched now id (catalogue s) := by
  obtain ⟨hid, -, -, hindex, hpair⟩ := (wellFormed_reached h).rollouts id ro hro
  have hrevised := ((asStored_reached h).rollouts id ro hro).revised hindex hpair now
  have hrollouts : Function.update (catalogue s).rollouts ro.id
        (((catalogue s).rollouts ro.id).map (ro.revised now)) =
      Function.update (catalogue s).rollouts id
        (((catalogue s).rollouts id).map fun ro => { ro with updatedAt := pgTimestamp now }) := by
    rw [hid, hro, Option.map_some, Option.map_some, hrevised]
  exact congrArg (fun rollouts => { catalogue s with rollouts }) hrollouts

/-- No route, no success. -/
theorem unmatched_refused (path : List String) : ¬(unmatched path).status / 100 = 2 := by
  unfold unmatched
  split <;> exact (by decide : ¬4 = 2)

/-- The rollout that was answered, sent back as it is, is stored as it was. -/
theorem rollout_saved (h : Reached s) (hzone : WholeMinutes zone) {ro : Rollout}
    (hro : (catalogue s).rollouts id = some ro) (hsized : ro.Sized)
    (htext : ro.toJson.encode zone = some text)
    (hput : AdminRequest "PATCH" ["api", "rollouts", id] put)
    (hbody : put.body.rollout = Wire.readBody (Rollout.read other) (encodeUtf8 text)) :
    (catalogue (respond env put F ⟨s, 0⟩).2.store = catalogue s ∨
        catalogue (respond env put F ⟨s, 0⟩).2.store = Touched env.dbNow id (catalogue s)) ∧
      ((respond env put F ⟨s, 0⟩).1.status / 100 = 2 →
        catalogue (respond env put F ⟨s, 0⟩).2.store = Touched env.dbNow id (catalogue s)) := by
  have hread : put.body.rollout = some ro :=
    hbody.trans ((carries_rollout hzone hsized).read_text htext other)
  obtain ⟨sess, hsess, hadmin⟩ := hput.admin
  have hown : ro.id = id := ((wellFormed_reached h).rollouts id ro hro).id_eq
  have hsettled := settles_respond (F := F) (c := ⟨s, 0⟩) env put (references_reached h)
  by_cases hid : id = ""
  · -- no pattern matches an empty segment
    have hnone : resolve (patternMethod put.method) put.path = none := by
      rw [hput.method, hput.path, hid]
      rfl
    have hasks : put.asks env = none := by
      unfold Request.asks
      rw [hnone]
      rfl
    have hroute : route env put = pure (unmatched put.path) := by
      unfold route
      rw [hnone]
    refine ⟨Or.inl ?_, fun hok => ?_⟩
    · rcases hsettled.either with hsame | ⟨ch, hch, -⟩
      · exact hsame
      · exact absurd (hasks.symm.trans hch) nofun
    · rw [respond_eq_serve (by rw [hput.method]; decide), hroute] at hok
      exact absurd hok (unmatched_refused put.path)
  · have hasks : put.asks env = some (.update env.dbNow ro) := by
      have hroute : resolve (patternMethod put.method) put.path = some (.updateRollout id) := by
        rw [hput.method, hput.path]
        exact if_neg hid
      unfold Request.asks
      rw [hroute, Option.bind_some, hsess, Option.bind_some, if_neg (not_not_intro hadmin)]
      show put.body.rollout.map _ = _
      rw [hread, ← hown]
      rfl
    have hmakes : ∀ {t : Store}, Makes (.update env.dbNow ro) s t →
        catalogue t = Touched env.dbNow id (catalogue s) := fun hm =>
      hm.made.trans (apply_update_stored h hro _)
    refine ⟨hsettled.either.imp_right ?_, fun hok => hmakes (hsettled.acknowledged hok _ hasks)⟩
    rintro ⟨ch, hch, hm⟩
    obtain rfl := Option.some.inj (hasks.symm.trans hch)
    exact hmakes hm

/-- So is the lock. -/
theorem lock_saved (h : Reached s) (hzone : WholeMinutes zone) {l : Lock}
    (hl : (catalogue s).locks id = some l) (htext : l.toJson.encode zone = some text)
    (hput : AdminRequest "PATCH" ["api", "locks", id] put)
    (hbody : put.body.lock = Wire.readBody (Lock.read other) (encodeUtf8 text)) :
    catalogue (respond env put F ⟨s, 0⟩).2.store = catalogue s := by
  have hread : put.body.lock = some l :=
    hbody.trans ((carries_lock hzone l).read_text htext other)
  have hstored := (asStored_reached h).locks id l hl
  have hown : l.id = id := (wellFormed_reached h).locks id l hl
  -- all that the request can ask for is to write the lock once more
  have hasks : ∀ ch, put.asks env = some ch → ch = .changeLock l := by
    intro ch hch
    unfold Request.asks at hch
    obtain ⟨r, hr, hch⟩ := Option.bind_eq_some_iff.mp hch
    obtain ⟨sess, -, hch⟩ := Option.bind_eq_some_iff.mp hch
    rw [hput.method, hput.path] at hr
    change wildcard id (.updateLock id) = some r at hr
    unfold wildcard at hr
    split at hr
    · cases hr
    · obtain rfl := Option.some.inj hr
      split at hch
      · cases hch
      · obtain ⟨l', hl', rfl⟩ := Option.map_eq_some_iff.mp hch
        rw [hread] at hl'
        rw [accepted_asStored hstored hl', ← hown]
  rcases (settles_respond (F := F) (c := ⟨s, 0⟩) env put (references_reached h)).either with
    hsame | ⟨ch, hch, hmakes⟩
  · exact hsame
  · obtain rfl := hasks ch hch
    refine hmakes.made.trans ?_
    have hlocks : Function.update (catalogue s).locks l.id
      (((catalogue s).locks l.id).map l.revised) =
        (catalogue s).locks := by
      rw [hown, hl, Option.map_some, hstored.revised, ← hl]
      exact Function.update_eq_self id _
    exact congrArg (fun locks => { catalogue s with locks }) hlocks

end Save

/-- **Saving back what was read changes nothing** but the time of a rollout's last update,
whatever fails: the octets of the entity in the answer to an admin's `GET` are sent as the body
of the `PATCH` for its id. -/
theorem saved_back {s : Store} (h : Reached s) {zone : Int → Int} (hzone : WholeMinutes zone)
    (other : List Char → Option Int) (env env' : Env) (F : Faults Err) (id : String) (j : Json)
    (text : List Char) (htext : j.encode zone = some text) (get put : Request) :
    (AdminRequest "GET" ["api", "rollouts", id] get →
      (respond env get Db.noFaults ⟨s, 0⟩).1.entity id = some j →
      (∀ ro, (catalogue s).rollouts id = some ro → ro.Sized) →
      AdminRequest "PATCH" ["api", "rollouts", id] put →
      put.body.rollout = Wire.readBody (Rollout.read other) (encodeUtf8 text) →
        (catalogue (respond env' put F ⟨s, 0⟩).2.store = catalogue s ∨
            catalogue (respond env' put F ⟨s, 0⟩).2.store = Touched env'.dbNow id (catalogue s)) ∧
          ((respond env' put F ⟨s, 0⟩).1.status / 100 = 2 →
            catalogue (respond env' put F ⟨s, 0⟩).2.store = Touched env'.dbNow id (catalogue s))) ∧
    (AdminRequest "GET" ["api", "locks"] get →
      (respond env get Db.noFaults ⟨s, 0⟩).1.entity id = some j →
      AdminRequest "PATCH" ["api", "locks", id] put →
      put.body.lock = Wire.readBody (Lock.read other) (encodeUtf8 text) →
        catalogue (respond env' put F ⟨s, 0⟩).2.store = catalogue s) := by
  refine ⟨fun hget hj hsized hput hbody => ?_, fun hget hj hput hbody => ?_⟩
  · obtain ⟨ro, hro, rfl⟩ := opened_rollout h hget hj
    exact rollout_saved h hzone hro (hsized ro hro) htext hput hbody
  · obtain ⟨-, l, hl, rfl⟩ := (entity_lock_iff h hget).mp hj
    exact lock_saved h hzone hl htext hput hbody

private def tim : Session := ⟨"tim", "tim@example.org", "Tim", roleAdmin, none, 0⟩

private def summer : Int → Int := fun _ => 7200

private def atNoon : Env := ⟨12 * hour, 12 * hour, "89abcdef", Char.toUpper, Char.toLower, summer⟩

private def noBodies : Decodings := ⟨none, none, none, none, none, ⟨0, 0, 0⟩⟩

/-- A rollout with a stage and a task, and a lock. -/
def officeHours : List Event :=
  [.login [⟨"tim", "tim@example.org", "Tim", roleAdmin⟩],
    .seedProduct ⟨"pay", "Payments", "", some []⟩ (by decide),
    .seedRolloutType ⟨"patch", "Patch", "P", "neutral", 0, 0, some [], "", some [], some ["deploy"]⟩
      (by decide) ⟨⟨by decide, by decide⟩, by decide⟩,
    .seedRollout (10 * hour) ⟨"r1", "pay", "patch", "Fix <1>", "", "", "",
      some [⟨"prod", 20 * hour + 1500, hour, "scheduled"⟩], some ["tim"], none, 0, 0, "tim"⟩,
    .request atNoon ⟨"POST", ["api", "locks"], some tim, { noBodies with
      lock := some ⟨"l1", " Freeze ", "", "", 0, hour, none, "", "", 0⟩ }, none⟩
      (fun _ h => by cases h) Db.noFaults]

def inOffice : Store := (service.exec Store.empty officeHours).getD Store.empty

private theorem reached_inOffice : Reached inOffice := ⟨officeHours, rfl⟩

private def fix : Rollout :=
  ⟨"r1", "pay", "patch", "Fix <1>", "", "", "",
    some [⟨"prod", 20 * hour + 1000, hour, "scheduled"⟩],
    some ["tim"], some [⟨0, "deploy", "", "", "", none⟩], 10 * hour, 10 * hour, "tim"⟩

private def changeFreeze : Lock :=
  ⟨"l1", "Freeze", "", "", 0, hour, some [], "manual", "tim", 12 * hour⟩

private def ask (method : String) (path : List String) (body : Decodings) : Request :=
  ⟨method, path, some tim, body, none⟩

private theorem adminRequest_ask (method : String) (path : List String) (body : Decodings) :
    AdminRequest method path (ask method path body) := ⟨rfl, rfl, tim, rfl, rfl⟩

private def noOther : List Char → Option Int := fun _ => none

private def saveFix : Request :=
  ask "PATCH" ["api", "rollouts", "r1"] { noBodies with rollout := some fix }

private def saveFreeze : Request :=
  ask "PATCH" ["api", "locks", "l1"] { noBodies with lock := some changeFreeze }

/-- In the zone of the server the times are written two hours later; both saves are accepted. -/
theorem saved_back_inOffice :
    ((respond atNoon saveFix Db.noFaults ⟨inOffice, 0⟩).1.status = 200 ∧
      catalogue (respond atNoon saveFix Db.noFaults ⟨inOffice, 0⟩).2.store =
        Touched (12 * hour) "r1" (catalogue inOffice)) ∧
    (respond atNoon saveFreeze Db.noFaults ⟨inOffice, 0⟩).1.status = 200 ∧
      catalogue (respond atNoon saveFreeze Db.noFaults ⟨inOffice, 0⟩).2.store =
        catalogue inOffice := by
  have hzone : WholeMinutes summer := fun _ => rfl
  have hfix : (catalogue inOffice).rollouts "r1" = some fix := by decide +kernel
  have hfreeze : (catalogue inOffice).locks "l1" = some changeFreeze := by decide +kernel
  have hsized : fix.Sized := ⟨by decide, by decide⟩
  have hfixText : fix.toJson.encode summer = some _ := if_pos (by decide)
  have hfreezeText : changeFreeze.toJson.encode summer = some _ := if_pos (by decide)
  have hstatus : (respond atNoon saveFix Db.noFaults ⟨inOffice, 0⟩).1.status = 200 := by
    decide +kernel
  refine ⟨⟨hstatus, ?_⟩, by decide +kernel, ?_⟩
  · exact ((saved_back reached_inOffice hzone noOther atNoon atNoon Db.noFaults "r1" fix.toJson _
      hfixText _ saveFix).1 (adminRequest_ask "GET" _ noBodies)
      ((entity_rollout reached_inOffice (adminRequest_ask _ _ _) (by decide) hfix).trans
        (if_pos (by decide)))
      (fun ro hro => Option.some.inj (hfix.symm.trans hro) ▸ hsized) (adminRequest_ask _ _ _)
      ((carries_rollout hzone hsized).read_text hfixText noOther).symm).2 (by rw [hstatus])
  · exact (saved_back reached_inOffice hzone noOther atNoon atNoon Db.noFaults "l1"
      changeFreeze.toJson _ hfreezeText _ saveFreeze).2 (adminRequest_ask "GET" _ noBodies)
      ((entity_lock_iff reached_inOffice (adminRequest_ask _ _ _)).mpr
        ⟨by decide +kernel, changeFreeze, hfreeze, rfl⟩)
      (adminRequest_ask _ _ _)
      ((carries_lock hzone changeFreeze).read_text hfreezeText noOther).symm

end Api

end ReleaseRadar
