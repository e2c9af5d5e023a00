import Mathlib.Data.List.DropRight
import ReleaseRadar.Api.Handlers
import ReleaseRadar.Lib.Machine
import ReleaseRadar.Store.Locks

/-!
# What the lock table holds

`normalizeAndValidateLock` looks at the lock in memory, the table keeps it with whole
microseconds. So the title and the kind of a stored lock are as the validation wants them,
but its end is after its start only when the two are apart by a microsecond of the clock:
a lock within one microsecond is accepted and stored as an empty one.

`Effect` is what one request does to the table, whatever fails; `stored_locks_valid_iff` is
the induction over it.
-/

namespace ReleaseRadar.Api

open Lib Repository

/-! ## The validation -/

/-- No white space at either end. -/
structure Trimmed (s : String) : Prop where
  first : ∀ c ∈ s.toList.head?, isSpace c = false
  last : ∀ c ∈ s.toList.getLast?, isSpace c = false

/-- What is trimmed has no white space at its ends. -/
theorem trimmed_trimSpace (s : String) : Trimmed (trimSpace s) := by
  have htext : (trimSpace s).toList = (s.toList.dropWhile isSpace).rdropWhile isSpace :=
    String.toList_ofList
  refine ⟨fun c hc => ?_, fun c hc => ?_⟩
  · -- what is cut off behind leaves the first character where it is
    rw [htext] at hc
    obtain ⟨behind, hbehind⟩ := List.rdropWhile_prefix isSpace (l := s.toList.dropWhile isSpace)
    have hfirst := List.head?_dropWhile_not isSpace s.toList
    rw [← hbehind, List.head?_append, hc] at hfirst
    simpa using hfirst
  · rw [htext] at hc
    have hne : (s.toList.dropWhile isSpace).rdropWhile isSpace ≠ [] := by
      rintro hnil
      rw [hnil] at hc
      cases hc
    have hlast := List.rdropWhile_last_not isSpace _ hne
    obtain rfl : _ = c := Option.some.inj ((List.getLast?_eq_getLast_of_ne_nil hne).symm.trans hc)
    exact Bool.not_eq_true _ ▸ hlast

/-- A lock that the validation lets through. -/
structure ValidLock (l : Lock) : Prop where
  title : l.title ≠ ""
  trimmed : Trimmed l.title
  kind : l.kind ∈ lockKinds
  order : l.startAt < l.endAt

/-- What the validation lets through, and what it has made of it. -/
theorem normalizeAndValidateLock_eq_ok {l l' : Lock} (h : normalizeAndValidateLock l = .ok l') :
    ValidLock l' ∧ l' = { l with title := l'.title, kind := l'.kind } := by
  unfold normalizeAndValidateLock at h
  dsimp only at h
  rw [show ["manual", "holiday", "window"] = lockKinds from rfl] at h
  by_cases htitle : trimSpace l.title = ""
  · rw [if_pos htitle] at h
    cases h
  rw [if_neg htitle] at h
  by_cases hkind : lockKinds.contains (if l.kind = "" then "manual" else l.kind) = true
  · rw [if_neg (not_not_intro hkind)] at h
    by_cases horder : l.endAt ≤ l.startAt
    · rw [if_pos horder] at h
      cases h
    · rw [if_neg horder] at h
      obtain rfl := Except.ok.inj h
      exact ⟨⟨htitle, trimmed_trimSpace l.title, by simpa using hkind, lt_of_not_ge horder⟩, rfl⟩
  · rw [if_pos hkind] at h
    cases h

/-! ## Requests -/

/-- A request of the lock editor, with its body when that decodes. -/
inductive LockRequest
  | create (env : Env) (sess : Session) (zones : LockZones) (body : Option Lock)
  | update (id : String) (zones : LockZones) (body : Option Lock)
  | delete (id : String)

namespace LockRequest

def handler : LockRequest → Repo Reply
  | create env sess zones body => Api.createLock env sess zones body
  | update id zones body => Api.updateLock id zones body
  | delete id => Api.deleteLock id

def body : LockRequest → Option Lock
  | create _ _ _ body => body
  | update _ _ body => body
  | delete _ => none

/-- The lock `createLock` stores: a fresh id where the body has none, and the caller as its
creator. -/
def newLock (env : Env) (sess : Session) (l : Lock) : Lock :=
  { l with id := if l.id = "" then "l-" ++ env.uuid else l.id, createdBy := sess.id }

/-- The body with its defaults, when it is accepted. -/
def accepted (body : Option Lock) : Option Lock :=
  body.bind fun l => (normalizeAndValidateLock l).toOption

/-- The lock that the request writes into a row of this database, when its statement gets
through. -/
def written (s : Store) : LockRequest → Option Lock
  | create env sess _ body =>
    ((accepted body).map (newLock env sess)).filter fun l => decide (NewLockFits s l)
  | update id _ body =>
    ((accepted body).map fun l => { l with id := id }).filter fun l =>
      decide (LockFits l) && s.hasLock l.id
  | delete _ => none

/-- What a request does to the database. -/
inductive Effect (q : LockRequest) (F : Faults Err) (s : Store) : Store → Prop
  | added (now : Int) (l : Lock) (hwritten : q.written s = some l) (hF : F 0 = none) :
      Effect q F s (applyCreateLock now l s)
  | overwritten (l : Lock) (hwritten : q.written s = some l) (hF : F 0 = none)
      (hhas : s.hasLock l.id = true) : Effect q F s (applyLock l s)
  | removed (id : String) (hnone : q.written s = none) : Effect q F s (applyDeleteLock id s)
  | kept (hnone : F 0 = none → q.written s = none) : Effect q F s s

section Requests

variable {F : Faults Err} {s : Store} {env : Env} {sess : Session} {id : String}
  {zones : LockZones}

/-- A lock that is turned down is not accepted. -/
theorem accepted_error {l : Lock} {msg : String} (h : normalizeAndValidateLock l = .error msg) :
    accepted (some l) = none := by
  simp [accepted, h, Except.toOption]

/-- One that is not, is, as it was normalised. -/
theorem accepted_ok {l l' : Lock} (h : normalizeAndValidateLock l = .ok l') :
    accepted (some l) = some l' := by
  simp [accepted, h, Except.toOption]

/-- A lock that is written has been let through. -/
theorem valid_of_accepted {body : Option Lock} {l : Lock} (h : accepted body = some l) :
    ValidLock l := by
  obtain ⟨b, -, hb⟩ := Option.bind_eq_some_iff.mp h
  cases hv : normalizeAndValidateLock b with
  | error msg => simp [hv, Except.toOption] at hb
  | ok l' =>
    obtain rfl : l' = l := by simpa [hv, Except.toOption] using hb
    exact (normalizeAndValidateLock_eq_ok hv).1

/-- Whatever a request writes is valid. -/
theorem valid_of_written {q : LockRequest} {l : Lock} (h : q.written s = some l) : ValidLock l := by
  cases q with
  | create env sess zones body =>
    obtain ⟨l₀, h₀, rfl⟩ := Option.map_eq_some_iff.mp (Option.filter_eq_some_iff.mp h).1
    have hl := valid_of_accepted h₀
    exact ⟨hl.title, hl.trimmed, hl.kind, hl.order⟩
  | update id zones body =>
    obtain ⟨l₀, h₀, rfl⟩ := Option.map_eq_some_iff.mp (Option.filter_eq_some_iff.mp h).1
    have hl := valid_of_accepted h₀
    exact ⟨hl.title, hl.trimmed, hl.kind, hl.order⟩
  | delete id => cases h

/-- An invalid lock is answered with 400 before any call. -/
theorem createLock_invalid [Indexes] {l : Lock} {msg : String}
    (h : normalizeAndValidateLock l = .error msg) :
    Api.createLock env sess zones (some l) = pure (httpError 400 msg) := by
  simp only [Api.createLock, decoded, h]

/-- A valid one is stored and answered. -/
theorem createLock_valid [Indexes] {l l' : Lock} (h : normalizeAndValidateLock l = .ok l') :
    Api.createLock env sess zones (some l) =
      (Repository.createLock env.dbNow (newLock env sess l') >>=
      fun out => pure ((writeJSON zones.offsets 201 out.toJson).after
        ⟨"lock", out.id, "create"⟩)) := by
  simp only [Api.createLock, decoded, h, newLock]

/-- An update likewise. -/
theorem updateLock_invalid {l : Lock} {msg : String} (h : normalizeAndValidateLock l = .error msg) :
    Api.updateLock id zones (some l) = pure (httpError 400 msg) := by
  simp only [Api.updateLock, decoded, h]

/-- A valid update is stored under the id of the path. -/
theorem updateLock_valid {l l' : Lock} (h : normalizeAndValidateLock l = .ok l') :
    Api.updateLock id zones (some l) = (Repository.updateLock { l' with id := id } >>=
      fun out => pure ((writeJSON zones.offsets 200 out.toJson).after
        ⟨"lock", out.id, "update"⟩)) := by
  simp only [Api.updateLock, decoded, h]

/-- **A body that is turned down** is answered with 400, and nothing is stored. -/
theorem serve_invalid {q : LockRequest} {l : Lock} {msg : String} (hbody : q.body = some l)
    (h : normalizeAndValidateLock l = .error msg) (c : Conn Store) :
    serve q.handler F c = (httpError 400 msg, c) := by
  cases q with
  | create env sess zones body =>
    obtain rfl : body = some l := hbody
    rw [handler, createLock_invalid h]
    rfl
  | update id zones body =>
    obtain rfl : body = some l := hbody
    rw [handler, updateLock_invalid h]
    rfl
  | delete id => cases hbody

/-- `POST /api/locks` adds the lock it was given, or nothing. -/
theorem effect_createLock (env : Env) (sess : Session) (zones : LockZones) (body : Option Lock)
    (F : Faults Err) (s : Store) :
    Effect (create env sess zones body) F s
      (serve (Api.createLock env sess zones body) F ⟨s, 0⟩).2.store := by
  match body with
  | none => exact .kept fun _ => rfl
  | some l =>
    match hl : normalizeAndValidateLock l with
    | .error msg =>
      rw [createLock_invalid hl]
      exact .kept fun _ => by simp [written, accepted_error hl]
    | .ok l' =>
      have hwritten : (create env sess zones (some l)).written s =
          (some (newLock env sess l')).filter fun l => decide (NewLockFits s l) := by
        simp [written, accepted_ok hl]
      rw [createLock_valid hl, serve_snd, Db.bind_def]
      match hr : Repository.createLock env.dbNow (newLock env sess l') F ⟨s, 0⟩ with
      | (.ok out, c') =>
        obtain ⟨hF, hfits, -, hstore⟩ := createLock_ok hr
        show Effect _ F s c'.store
        rw [hstore]
        exact .added env.dbNow _ (by simp [hwritten, hfits]) hF
      | (.error e, c') =>
        show Effect _ F s c'.store
        rw [createLock_error hr]
        refine .kept fun hF => ?_
        rw [hwritten, Option.filter_some, if_neg]
        intro hfits
        rw [createLock_stored hF (of_decide_eq_true hfits)] at hr
        cases (Prod.mk.inj hr).1

/-- `PATCH /api/locks/{id}` rewrites the lock of the id, or nothing. -/
theorem effect_updateLock (id : String) (zones : LockZones) (body : Option Lock) (F : Faults Err)
    (s : Store) :
    Effect (update id zones body) F s (serve (Api.updateLock id zones body) F ⟨s, 0⟩).2.store := by
  match body with
  | none => exact .kept fun _ => rfl
  | some l =>
    match hl : normalizeAndValidateLock l with
    | .error msg =>
      rw [updateLock_invalid hl]
      exact .kept fun _ => by simp [written, accepted_error hl]
    | .ok l' =>
      have hwritten : (update id zones (some l)).written s =
          (some { l' with id := id }).filter fun l => decide (LockFits l) && s.hasLock l.id := by
        simp [written, accepted_ok hl]
      rw [updateLock_valid hl, serve_snd, Db.bind_def]
      match hr : Repository.updateLock { l' with id := id } F ⟨s, 0⟩ with
      | (.ok out, c') =>
        obtain ⟨hhas, hstore⟩ := updateLock_ok hr
        obtain ⟨hF, hfits, -⟩ := updateLock_ok_fits hr
        show Effect _ F s c'.store
        rw [hstore]
        exact .overwritten _ (by simp [hwritten, hfits, show s.hasLock id = true from hhas]) hF hhas
      | (.error e, c') =>
        show Effect _ F s c'.store
        rw [updateLock_error hr]
        refine .kept fun hF => ?_
        rw [hwritten, Option.filter_some, if_neg]
        intro hfits
        rw [Bool.and_eq_true, decide_eq_true_eq] at hfits
        rw [updateLock_stored hF hfits.1 hfits.2] at hr
        cases (Prod.mk.inj hr).1

/-- `DELETE /api/locks/{id}` drops it, or nothing. -/
theorem effect_deleteLock (id : String) (F : Faults Err) (s : Store) :
    Effect (delete id) F s (serve (Api.deleteLock id) F ⟨s, 0⟩).2.store := by
  rw [serve_snd, Api.deleteLock, Db.bind_def]
  match hr : Repository.deleteLock id F ⟨s, 0⟩ with
  | (.ok (), c') =>
    have hstore : applyDeleteLock id s = c'.store :=
      congrArg Prod.snd (Except.ok.inj (affected_ok hr).2)
    show Effect _ F s c'.store
    rw [← hstore]
    exact .removed id rfl
  | (.error e, c') =>
    show Effect _ F s c'.store
    rcases affected_error hr with hsame | hmissed
    · rw [hsame]
      exact .kept fun _ => rfl
    · have hstore : applyDeleteLock id s = c'.store := congrArg Prod.snd (Except.ok.inj hmissed)
      rw [← hstore]
      exact .removed id rfl

/-- **What a request does to the database**, whatever fails. -/
theorem effect_serve (q : LockRequest) (F : Faults Err) (s : Store) :
    Effect q F s (serve q.handler F ⟨s, 0⟩).2.store := by
  cases q with
  | create env sess zones body => exact effect_createLock env sess zones body F s
  | update id zones body => exact effect_updateLock id zones body F s
  | delete id => exact effect_deleteLock id F s

end Requests

end LockRequest

/-! ## Rows -/

/-- A row of `locks` as the validation means it. -/
structure ValidRow (r : LockRow) : Prop where
  title : r.title ≠ ""
  trimmed : Trimmed r.title
  kind : r.kind ∈ lockKinds
  order : r.startAt < r.endAt

def LocksValid (s : Store) : Prop := ∀ r ∈ s.locks, ValidRow r

/-- The row has the lock's title, kind and times, these in whole microseconds. -/
structure Shows (r : LockRow) (l : Lock) : Prop where
  title : r.title = l.title
  kind : r.kind = l.kind
  startAt : r.startAt = pgTimestamp l.startAt
  endAt : r.endAt = pgTimestamp l.endAt

theorem shows_lockRow (now : Int) (l : Lock) : Shows (lockRow now l) l := ⟨rfl, rfl, rfl, rfl⟩

theorem shows_updatedLock {l : Lock} {r : LockRow} (h : r.id = l.id) :
    Shows (updatedLock l r) l := by
  unfold updatedLock
  rw [if_pos h]
  exact ⟨rfl, rfl, rfl, rfl⟩

/-- The row of a lock that was let through is valid when its times are in two microseconds. -/
theorem validRow_iff {r : LockRow} {l : Lock} (hl : ValidLock l) (hr : Shows r l) :
    ValidRow r ↔ pgTimestamp l.startAt ≠ pgTimestamp l.endAt := by
  have hle := pgTimestamp_mono (Int.le_of_lt hl.order)
  constructor
  · intro h
    have := h.order
    rw [hr.startAt, hr.endAt] at this
    omega
  · intro hne
    refine ⟨?_, ?_, ?_, ?_⟩
    · rw [hr.title]
      exact hl.title
    · rw [hr.title]
      exact hl.trimmed
    · rw [hr.kind]
      exact hl.kind
    · rw [hr.startAt, hr.endAt]
      omega

/-! ## Runs -/

/-- The table under requests; each comes with the calls of it that fail. -/
def lockService : Machine Store (LockRequest × Faults Err) :=
  ⟨fun s a => some (serve a.1.handler a.2 ⟨s, 0⟩).2.store⟩

/-- The request does not write a lock whose times are in one microsecond. -/
def Apart (s : Store) (a : LockRequest × Faults Err) : Prop :=
  a.2 0 = none → ∀ l ∈ a.1.written s, pgTimestamp l.startAt ≠ pgTimestamp l.endAt

instance (s : Store) (a : LockRequest × Faults Err) : Decidable (Apart s a) :=
  inferInstanceAs (Decidable (_ → _))

/-- A row of another lock is left as it is. -/
theorem updatedLock_ne {l : Lock} {r : LockRow} (h : r.id ≠ l.id) : updatedLock l r = r := if_neg h

/-- What one request keeps: the row it writes decides. -/
theorem LockRequest.Effect.valid_iff {q : LockRequest} {F : Faults Err} {s t : Store}
    (h : Effect q F s t) (hs : LocksValid s) : LocksValid t ↔ Apart s (q, F) := by
  cases h with
  | added now l hwritten hF =>
    have hrow := validRow_iff (valid_of_written hwritten) (shows_lockRow now l)
    constructor
    · rintro ht - l' hl'
      obtain rfl := Option.some.inj (hwritten.symm.trans hl')
      exact hrow.mp (ht _ (List.mem_append_right _ (List.mem_singleton_self _)))
    · intro hapart r hr
      rcases List.mem_append.mp hr with hold | hnew
      · exact hs r hold
      · rw [List.mem_singleton.mp hnew]
        exact hrow.mpr (hapart hF l hwritten)
  | overwritten l hwritten hF hhas =>
    have hvalid := valid_of_written hwritten
    constructor
    · rintro ht - l' hl'
      obtain rfl := Option.some.inj (hwritten.symm.trans hl')
      obtain ⟨r, hr, hid⟩ := List.any_eq_true.mp hhas
      exact (validRow_iff hvalid (shows_updatedLock (beq_iff_eq.mp hid))).mp
        (ht _ (List.mem_map_of_mem hr))
    · intro hapart r hr
      obtain ⟨r₀, hr₀, rfl⟩ := List.mem_map.mp hr
      by_cases hid : r₀.id = l.id
      · exact (validRow_iff hvalid (shows_updatedLock hid)).mpr (hapart hF l hwritten)
      · rw [updatedLock_ne hid]
        exact hs r₀ hr₀
  | removed id hnone =>
    refine iff_of_true (fun r hr => hs r (List.mem_filter.mp hr).1) fun _ l hl => ?_
    rw [hnone] at hl
    cases hl
  | kept hnone =>
    refine iff_of_true hs fun hF l hl => ?_
    rw [hnone hF] at hl
    cases hl

/-- **The stored locks stay valid** exactly along the runs that write no lock within one
microsecond; and a body that is turned down stores nothing, whatever it asks for. -/
theorem stored_locks_valid_iff {s : Store} (hs : LocksValid s)
    (qs : List (LockRequest × Faults Err)) :
    ((∀ ps, ps <+: qs → ∀ t, lockService.exec s ps = some t → LocksValid t) ↔
        lockService.Along Apart s qs) ∧
      ∀ (q : LockRequest) (l : Lock) (msg : String) (F : Faults Err) (c : Conn Store),
        q.body = some l → normalizeAndValidateLock l = .error msg →
          serve q.handler F c = (httpError 400 msg, c) := by
  refine ⟨lockService.exec_prefix_iff_along (fun s a t hs hstep => ?_) (fun s a h => ?_) hs,
    fun q l msg F c hbody h => LockRequest.serve_invalid hbody h c⟩
  · obtain rfl := Option.some.inj hstep
    exact (LockRequest.effect_serve a.1 a.2 s).valid_iff hs
  · cases h

private def lockEnv : Env := ⟨0, 0, "01234567", Char.toUpper, Char.toLower, fun _ => 0⟩

private def keeper : Session := ⟨"kim", "kim@example.com", "Kim", roleAdmin, none, 0⟩

/-- A database with one actor. -/
private def keeperOnly : Store :=
  { Store.empty with actors := [⟨"kim", "kim@example.com", "Kim", roleAdmin⟩] }

/-- A body that locks everything from one instant to another. -/
private def freeze (startAt endAt : Int) : Option Lock :=
  some ⟨"", " Freeze ", "", "", startAt, endAt, none, "", "", 0⟩

/-- A lock of an hour, shortened to half of it. -/
private def hourRun : List (LockRequest × Faults Err) :=
  [(.create lockEnv keeper ⟨0, 0, 0⟩ (freeze 0 hour), Db.noFaults),
    (.update "l-01234567" ⟨0, 0, 0⟩ (freeze 0 (hour / 2)), Db.noFaults)]

/-- The lock of an hour is stored and shortened, and the table stays valid. -/
theorem stored_locks_valid_iff_hour :
    ∃ t, lockService.exec keeperOnly hourRun = some t ∧ LocksValid t :=
  have hempty : LocksValid keeperOnly := fun r hr => absurd hr List.not_mem_nil
  have h := (stored_locks_valid_iff hempty hourRun).1.mpr (by decide)
  ⟨_, rfl, h hourRun (List.prefix_refl _) _ rfl⟩

/-- **A lock of a tenth of a microsecond** is accepted and stored with its end at its start. -/
theorem empty_lock_stored :
    ¬∀ (qs : List (LockRequest × Faults Err)) (t : Store),
      lockService.exec keeperOnly qs = some t → LocksValid t := by
  intro h
  have hrow := h [(.create lockEnv keeper ⟨0, 0, 0⟩ (freeze 100 200), Db.noFaults)] _ rfl
    (lockRow 0 ⟨"l-01234567", "Freeze", "", "", 100, 200, none, "manual", "kim", 0⟩) (by decide)
  exact absurd hrow.order (by decide)

end ReleaseRadar.Api
