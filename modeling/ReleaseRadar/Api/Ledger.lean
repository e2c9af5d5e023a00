import ReleaseRadar.Api.Absence
import ReleaseRadar.Api.Echo
import ReleaseRadar.Api.StoredLocks
import ReleaseRadar.Store.Catalogue

/-!
# The site keeps a catalogue

The server over its tables refines the catalogue over its entries. `Request.asks` is the change
that a request asks for, read off its route, its session and its body alone; `settles_respond`
says that whatever fails, a request makes the change it asks for or none, and that one answered
with success has made it. So what a run of the server leads to is the catalogue after some of
the changes that were asked for, in their order, each of them enabled when it was made
(`site_keeps_catalogue`), and what the queries answer is what the catalogue has.
-/

namespace ReleaseRadar.Api

open Lib Repository

/-! ## What a request asks for -/

/-- The change that a route's handler makes for an admin. -/
def Route.asks (env : Env) (sess : Session) (body : Decodings) : Route → Option Change
  | upsertProduct =>
    body.product.map fun p => .product { p with id := if p.id = "" then slug env p.name else p.id }
  | upsertRolloutType =>
    body.rolloutType.map fun t =>
      .rolloutType { t with id := if t.id = "" then slug env t.name else t.id }
  | createRollout => body.rollout.map fun ro => .create env.dbNow (createInput env sess ro)
  | updateRollout id => body.rollout.map fun ro => .update env.dbNow { ro with id := id }
  | deleteRollout id => some (.delete id)
  | updateTask id seq =>
    (atoi seq).bind fun seq => body.task.bind fun task =>
      if task.status ≠ "" ∧ task.status ≠ "done" ∧ task.status ≠ "failed" then none
      else some (.task env.dbNow id seq task.status task.reason sess.id)
  | createLock =>
    (LockRequest.accepted body.lock).map fun l =>
      .addLock env.dbNow (LockRequest.newLock env sess l)
  | updateLock id => (LockRequest.accepted body.lock).map fun l => .changeLock { l with id := id }
  | deleteLock id => some (.dropLock id)
  | me | listProducts | listRollouts | getRollout _ | listLocks | calendar | ws
  | listRolloutTypes => none

/-- What an admin's request asks for; nobody else's asks for anything. -/
def Request.asks (env : Env) (req : Request) : Option Change :=
  (resolve (patternMethod req.method) req.path).bind fun r =>
    req.session.bind fun sess => if sess.role ≠ roleAdmin then none else r.asks env sess req.body

def Event.asks : Event → Option Change
  | request env req _ _ => req.asks env
  | login _ => none
  | marked _ _ _ => none
  | seedProduct p _ => some (.product p)
  | seedRolloutType t _ _ => some (.rolloutType t)
  | seedRollout now ro => some (.create now ro)

/-- The change is possible, and it is made. -/
structure Makes (ch : Change) (s t : Store) : Prop where
  enabled : ch.enabled (catalogue s) = true
  made : catalogue t = ch.apply (catalogue s)

/-- The change is made or nothing is, and an acknowledged one is made. -/
structure Settles (asked : Option Change) (s : Store) (res : Reply × Conn Store) : Prop where
  either : catalogue res.2.store = catalogue s ∨ ∃ ch, asked = some ch ∧ Makes ch s res.2.store
  acknowledged : res.1.status / 100 = 2 → ∀ ch, asked = some ch → Makes ch s res.2.store

/-! ## The operations -/

/-- An operation makes its change, or fails and changes nothing. -/
structure Performs {α : Type} (ch : Change) (m : Repo α) (F : Faults Err)
    (c : Conn Store) : Prop where
  ok : ∀ a c', m F c = (.ok a, c') → Makes ch c.store c'.store
  error : ∀ e c', m F c = (.error e, c') → catalogue c'.store = catalogue c.store

section Operations

variable {F : Faults Err} {c : Conn Store}

/-- `UpsertProduct` performs its change. -/
theorem performs_upsertProduct (p : Product) :
    Performs (.product p) (Repository.upsertProduct p) F c where
  ok _ _ h := ⟨rfl, (upsertProduct_ok h).2 ▸ catalogue_applyProduct p⟩
  error _ _ h := by rw [upsertProduct_error h]

/-- `UpsertRolloutType` does. -/
theorem performs_upsertRolloutType (t : RolloutType) :
    Performs (.rolloutType t) (Repository.upsertRolloutType t) F c where
  ok _ _ h := ⟨rfl, (upsertRolloutType_ok h).2 ▸ catalogue_applyRolloutType t⟩
  error _ _ h := by rw [Db.tx_error_store h]

/-- `CreateRollout` does, up to its commit. -/
theorem performs_createRollout (hrefs : c.store.References) (now : Int) (ro : Rollout) :
    Performs (.create now ro) (createRolloutCommit now ro) F c where
  ok _ _ h :=
    have hchange := createRolloutCommit_change hrefs h
    ⟨hchange.1, hchange.2⟩
  error _ _ h := by rw [createRolloutCommit_error h]

/-- Whether a rollout is there can be asked of the catalogue. -/
theorem isSome_rollouts (s : Store) (id : String) :
    ((catalogue s).rollouts id).isSome = s.hasRollout id := by
  show ((rowAt (·.id) s.rollouts id).map (hydrated s)).isSome = _
  rw [Option.isSome_map, isSome_rowAt]
  rfl

/-- The catalogue has a lock exactly if the table has. -/
theorem isSome_locks (s : Store) (id : String) :
    ((catalogue s).locks id).isSome = s.hasLock id := by
  show ((rowAt (·.id) s.locks id).map scanLock).isSome = _
  rw [Option.isSome_map, isSome_rowAt]
  rfl

/-- `UpdateRollout` does, up to its commit. -/
theorem performs_updateRollout (now : Int) (ro : Rollout) :
    Performs (.update now ro) (updateRolloutTx now ro) F c where
  ok _ _ h := by
    obtain ⟨hhas, -, hstore⟩ := updateRolloutTx_ok h
    exact ⟨(isSome_rollouts _ _).trans hhas, hstore ▸ catalogue_applyUpdate ro⟩
  error _ _ h := by rw [updateRolloutTx_error h]

/-- `DeleteRollout` does. -/
theorem performs_deleteRollout (hrefs : c.store.References) (id : String) :
    Performs (.delete id) (Repository.deleteRollout id) F c where
  ok _ _ h := by
    obtain ⟨hhas, hstore⟩ := deleteRollout_ok h
    exact ⟨(isSome_rollouts _ _).trans hhas, hstore ▸ catalogue_applyDelete id⟩
  error _ _ h := by
    rcases deleteRollout_error h with hsame | ⟨habsent, hstore⟩
    · rw [hsame]
    · rw [hstore, applyDelete_absent hrefs habsent]

/-- `UpdateRolloutTask` does. -/
theorem performs_updateTask (now : Int) (id : String) (seq : Int) (status reason by_ : String) :
    Performs (.task now id seq status reason by_)
      (updateRolloutTask now id seq status reason by_) F c where
  ok _ _ h := ⟨rfl, updateRolloutTask_ok h ▸ catalogue_applyTask id seq status reason by_⟩
  error _ _ h := by rw [updateRolloutTask_error h]

/-- `CreateLock` does. -/
theorem performs_createLock (now : Int) (l : Lock) :
    Performs (.addLock now l) (Repository.createLock now l) F c where
  ok _ _ h := by
    obtain ⟨-, hfits, -, hstore⟩ := createLock_ok h
    refine ⟨?_, hstore ▸ catalogue_applyCreateLock hfits.fresh⟩
    show ((catalogue c.store).locks l.id).isNone = true
    rw [← Option.not_isSome, isSome_locks, hfits.fresh]
    rfl
  error _ _ h := by rw [createLock_error h]

/-- `UpdateLock` does. -/
theorem performs_updateLock (l : Lock) :
    Performs (.changeLock l) (Repository.updateLock l) F c where
  ok _ _ h := by
    obtain ⟨hhas, hstore⟩ := updateLock_ok h
    exact ⟨(isSome_locks _ _).trans hhas, hstore ▸ catalogue_applyLock l⟩
  error _ _ h := by rw [updateLock_error h]

/-- `DeleteLock` does. -/
theorem performs_deleteLock (id : String) :
    Performs (.dropLock id) (Repository.deleteLock id) F c where
  ok _ _ h := by
    obtain ⟨hhas, hstore⟩ := deleteLock_ok h
    exact ⟨(isSome_locks _ _).trans hhas, hstore ▸ catalogue_applyDeleteLock id⟩
  error _ _ h := by
    rcases deleteLock_error h with hsame | ⟨habsent, hstore⟩
    · rw [hsame]
    · have hnone : rowAt (·.id) c.store.locks id = none := by
        rw [← Option.not_isSome_iff_eq_none, isSome_rowAt]
        exact Bool.eq_false_iff.mp habsent
      have hkept : c.store.locks.filter (fun r => !(r.id == id)) = c.store.locks := by
        rw [List.filter_eq_self]
        intro r hr
        simpa using rowAt_eq_none.mp hnone r hr
      rw [hstore]
      unfold applyDeleteLock
      rw [hkept]

end Operations

/-! ## The handlers -/

section Handlers

variable {F : Faults Err} {c : Conn Store} {asked : Option Change}

/-- A request that asks for nothing and leaves the tables alone. -/
theorem settles_of_kept {res : Reply × Conn Store} (hnone : asked = none)
    (hkept : catalogue res.2.store = catalogue c.store) : Settles asked c.store res :=
  ⟨Or.inl hkept, fun _ _ hch => absurd (hnone.symm.trans hch) nofun⟩

/-- An answer without a call changes nothing. -/
theorem settles_pure {r : Reply} (hnone : asked = none) :
    Settles asked c.store (serve (pure r) F c) := settles_of_kept hnone rfl

/-- Nor does a handler that only reads. -/
theorem settles_reading {m : Repo Reply} (hm : Db.Within (Db.Frame.keeps catalogue) m)
    (hnone : asked = none) : Settles asked c.store (serve m F c) := by
  refine settles_of_kept hnone ?_
  rw [serve_snd]
  exact hm F c

/-- A handler of one operation. -/
theorem settles_of_performs {α : Type} {ch : Change} {m : Repo α} {answer : α → Reply}
    (h : Performs ch m F c) :
    Settles (some ch) c.store (serve (m >>= fun a => pure (answer a)) F c) := by
  match hm : m F c with
  | (.ok a, c') =>
    rw [serve_of_ok hm]
    have hmakes := h.ok a c' hm
    refine ⟨Or.inr ⟨ch, rfl, hmakes⟩, fun _ ch' hch => ?_⟩
    obtain rfl := Option.some.inj hch
    exact hmakes
  | (.error e, c') =>
    rw [serve_of_error hm]
    exact ⟨Or.inl (h.error e c' hm), fun hok => absurd hok (writeErr_refused e)⟩

/-- A create or an update, whose reading back and rescheduling may fail. -/
theorem settles_of_ending {env : Env} {ch : Change} {write : Repo Unit} {id : String}
    {answer : Rollout → Reply} {res : Reply × Conn Store} (h : Performs ch write F c)
    (hend : Ending env write id answer F c res) : Settles (some ch) c.store res := by
  have hkeeps := hend.keeps (p := catalogue) fun _ _ => rfl
  cases hend with
  | refused e c₁ hwrite =>
    exact ⟨Or.inl (h.error e c₁ hwrite), fun hok => absurd hok (writeErr_refused e)⟩
  | unread c₁ e c₂ hwrite hread =>
    have hmakes := h.ok () c₁ hwrite
    rw [hwrite] at hkeeps
    exact ⟨Or.inr ⟨ch, rfl, hmakes.enabled, hkeeps.trans hmakes.made⟩,
      fun hok => absurd hok (writeErr_refused e)⟩
  | answered c₁ out c₂ r c₃ hwrite hread hschedule =>
    have hmakes := h.ok () c₁ hwrite
    rw [hwrite] at hkeeps
    have hall : Makes ch c.store c₃.store := ⟨hmakes.enabled, hkeeps.trans hmakes.made⟩
    refine ⟨Or.inr ⟨ch, rfl, hall⟩, fun _ ch' hch => ?_⟩
    obtain rfl := Option.some.inj hch
    exact hall

/-- Behind `RequireAdmin`. -/
theorem settles_requireAdmin {session : Option Session} {asks : Session → Option Change}
    {next : Session → Repo Reply}
    (h : ∀ sess, Settles (asks sess) c.store (serve (next sess) F c)) :
    Settles (session.bind fun sess => if sess.role ≠ roleAdmin then none else asks sess) c.store
      (serve (requireAdmin session next) F c) := by
  cases session with
  | none => exact settles_pure rfl
  | some sess =>
    unfold requireAdmin
    simp only [Option.bind_some]
    split
    · exact settles_pure rfl
    · exact h sess

/-- Behind `RequireSession` are the routes that only read. -/
theorem settles_requireSession {session : Option Session} {next : Session → Repo Reply}
    (h : ∀ sess, Db.Within (Db.Frame.keeps catalogue) (next sess)) (hnone : asked = none) :
    Settles asked c.store (serve (requireSession session next) F c) :=
  settles_reading (within_requireSession h session) hnone

/-- **A route settles what it is asked for**, whatever fails. -/
theorem settles_route (env : Env) (req : Request) (hrefs : c.store.References) :
    Settles (req.asks env) c.store (serve (route env req) F c) := by
  unfold route Request.asks
  cases resolve (patternMethod req.method) req.path with
  | none => exact settles_pure rfl
  | some r =>
    -- what the routes that only read ask for
    have hquiet : (∀ sess, r.asks env sess req.body = none) →
        ((some r).bind fun r => req.session.bind fun sess =>
          if sess.role ≠ roleAdmin then none else r.asks env sess req.body) = none := by
      intro h
      simp only [Option.bind_some, h, ite_self, Option.bind_fun_none]
    cases r with
    | me => exact settles_requireSession (fun _ => Db.within_pure _) (hquiet fun _ => rfl)
    | listProducts =>
      exact settles_requireSession (fun _ => Db.within_bind (within_products _) fun _ =>
        Db.within_pure _) (hquiet fun _ => rfl)
    | listRollouts =>
      exact settles_requireSession (fun _ => Db.within_bind (within_rollouts _) fun _ =>
        Db.within_pure _) (hquiet fun _ => rfl)
    | getRollout id =>
      exact settles_requireSession (fun _ => Db.within_bind (within_rollout _ id) fun _ =>
        Db.within_pure _) (hquiet fun _ => rfl)
    | listLocks =>
      exact settles_requireSession (fun _ => Db.within_bind (within_locks _) fun _ =>
        Db.within_pure _) (hquiet fun _ => rfl)
    | calendar =>
      exact settles_requireSession (fun _ => Db.within_bind (within_rollouts _) fun _ =>
        Db.within_pure _) (hquiet fun _ => rfl)
    | ws =>
      refine settles_requireSession (fun _ => ?_) (hquiet fun _ => rfl)
      unfold Api.ws
      split <;> exact Db.within_pure _
    | listRolloutTypes =>
      exact settles_reading (within_requireAdmin (fun _ => Db.within_bind (within_rolloutTypes _)
        fun _ => Db.within_pure _) _) (hquiet fun _ => rfl)
    -- the writes: a body that cannot be decoded asks for nothing
    | upsertProduct =>
      refine settles_requireAdmin fun sess => ?_
      show Settles (req.body.product.map _) _ (serve (decoded req.body.product _) F c)
      cases req.body.product with
      | none => exact settles_pure rfl
      | some p => exact settles_of_performs (performs_upsertProduct _)
    | upsertRolloutType =>
      refine settles_requireAdmin fun sess => ?_
      show Settles (req.body.rolloutType.map _) _ (serve (decoded req.body.rolloutType _) F c)
      cases req.body.rolloutType with
      | none => exact settles_pure rfl
      | some t => exact settles_of_performs (performs_upsertRolloutType _)
    | createRollout =>
      refine settles_requireAdmin fun sess => ?_
      show Settles (req.body.rollout.map _) _
        (serve (Api.createRollout env sess req.body.rollout) F c)
      cases req.body.rollout with
      | none => exact settles_pure rfl
      | some ro =>
        rw [createRollout_eq]
        exact settles_of_ending (performs_createRollout hrefs _ _) (serve_writeAndSchedule ..)
    | updateRollout id =>
      refine settles_requireAdmin fun sess => ?_
      show Settles (req.body.rollout.map _) _
        (serve (Api.updateRollout env id req.body.rollout) F c)
      cases req.body.rollout with
      | none => exact settles_pure rfl
      | some ro =>
        rw [updateRollout_eq]
        exact settles_of_ending (performs_updateRollout _ _) (serve_writeAndSchedule ..)
    | deleteRollout id =>
      exact settles_requireAdmin fun sess => settles_of_performs (performs_deleteRollout hrefs id)
    | updateTask id seq =>
      refine settles_requireAdmin fun sess => ?_
      show Settles ((atoi seq).bind _) _ (serve (Api.updateTask env sess id seq req.body.task) F c)
      unfold Api.updateTask
      cases atoi seq with
      | none => exact settles_pure rfl
      | some seq =>
        simp only [Option.bind_some]
        cases req.body.task with
        | none => exact settles_pure rfl
        | some task =>
          simp only [Option.bind_some, decoded]
          -- a task state the handler refuses
          split
          · exact settles_pure rfl
          · exact settles_of_performs (performs_updateTask ..)
    | createLock =>
      refine settles_requireAdmin fun sess => ?_
      show Settles ((LockRequest.accepted req.body.lock).map _) _
        (serve (Api.createLock env sess req.body.lockZones req.body.lock) F c)
      cases req.body.lock with
      | none => exact settles_pure rfl
      | some l =>
        cases hl : normalizeAndValidateLock l with
        -- a lock that is not valid is refused before the database is asked
        | error msg =>
          rw [LockRequest.createLock_invalid hl, LockRequest.accepted_error hl]
          exact settles_pure rfl
        | ok l' =>
          rw [LockRequest.createLock_valid hl, LockRequest.accepted_ok hl]
          exact settles_of_performs (performs_createLock _ _)
    | updateLock id =>
      refine settles_requireAdmin fun sess => ?_
      show Settles ((LockRequest.accepted req.body.lock).map _) _
        (serve (Api.updateLock id req.body.lockZones req.body.lock) F c)
      cases req.body.lock with
      | none => exact settles_pure rfl
      | some l =>
        cases hl : normalizeAndValidateLock l with
        | error msg =>
          rw [LockRequest.updateLock_invalid hl, LockRequest.accepted_error hl]
          exact settles_pure rfl
        | ok l' =>
          rw [LockRequest.updateLock_valid hl, LockRequest.accepted_ok hl]
          exact settles_of_performs (performs_updateLock _)
    | deleteLock id =>
      exact settles_requireAdmin fun sess => settles_of_performs (performs_deleteLock id)

/-- The answer to a `HEAD` lacks its body only. -/
theorem settles_respond (env : Env) (req : Request) (hrefs : c.store.References) :
    Settles (req.asks env) c.store (respond env req F c) := by
  have h := settles_route (F := F) env req hrefs
  unfold respond
  by_cases hhead : req.method = "HEAD"
  · simp only [if_pos hhead]
    exact ⟨h.either, h.acknowledged⟩
  · simp only [if_neg hhead]
    exact h

end Handlers

/-! ## Runs -/

/-- A change that was made is a step of the ledger. -/
theorem ledger_makes {ch : Change} {s t : Store} (h : Makes ch s t) :
    ledger.step (catalogue s) ch = some (catalogue t) := by
  rw [ledger_step h.enabled, h.made]

/-- Without faults the change is made, or the operation has refused it. -/
theorem Performs.run {α : Type} {ch : Change} {m : Repo α} {s : Store}
    (h : Performs ch m Db.noFaults ⟨s, 0⟩) :
    catalogue (m.run s).2 = catalogue s ∨ Makes ch s (m.run s).2 := by
  unfold Db.run
  match hm : m Db.noFaults ⟨s, 0⟩ with
  | (.ok a, c') => exact Or.inr (h.ok a c' hm)
  | (.error e, c') => exact Or.inl (h.error e c' hm)

/-- An event makes the change it asks for, or none. -/
theorem event_changes {s : Store} (hrefs : s.References) (e : Event) :
    catalogue (e.apply s) = catalogue s ∨ ∃ ch, e.asks = some ch ∧ Makes ch s (e.apply s) := by
  cases e with
  | request env req hbody faults => exact (settles_respond env req hrefs).either
  | login actors => exact Or.inl rfl
  | marked now id err => exact Or.inl rfl
  | seedProduct p hid => exact (performs_upsertProduct p).run.imp_right fun h => ⟨_, rfl, h⟩
  | seedRolloutType t hid ht =>
    exact (performs_upsertRolloutType t).run.imp_right fun h => ⟨_, rfl, h⟩
  | seedRollout now ro =>
    exact (performs_createRollout hrefs now ro).run.imp_right fun h => ⟨_, rfl, h⟩

/-- A further event stays within what is reached. -/
theorem reached_step {s t : Store} {e : Event} (h : Reached s) (hs : service.step s e = some t) :
    Reached t := by
  obtain ⟨es, he⟩ := h
  refine ⟨es ++ [e], ?_⟩
  rw [Machine.exec_append, he]
  exact (service.exec_cons hs).trans rfl

/-- **A run of the server is a run of the catalogue**, over changes that were asked for. -/
theorem service_refines {es : List Event} {s t : Store} (h : Reached s)
    (he : service.exec s es = some t) :
    ∃ chs, chs.Sublist (es.filterMap Event.asks) ∧
      ledger.exec (catalogue s) chs = some (catalogue t) := by
  refine service.exec_refines ledger catalogue Event.asks (fun _ _ _ => reached_step) ?_ h he
  intro s e s' hs hstep
  obtain rfl := Option.some.inj hstep
  refine (event_changes (references_reached hs) e).imp_right ?_
  rintro ⟨ch, hasks, hmakes⟩
  exact ⟨ch, hasks, ledger_makes hmakes⟩

/-! ## What the queries answer -/

/-- No two locks have one id. -/
theorem lockKeys_reached {s : Store} (h : Reached s) : (s.locks.map (·.id)).Nodup := by
  have hadmits : Admits (Db.Frame.invariant fun s : Store => (s.locks.map (·.id)).Nodup) :=
    AllowsEffects.admits {
      product := fun _ _ hs => hs
      rolloutType := fun _ _ hs => hs
      create := fun _ _ _ _ _ hs => hs
      update := fun _ _ _ _ hs => hs
      delete := fun _ _ hs => hs
      task := fun _ _ _ _ _ _ _ hs => hs
      createLock := fun _ _ _ hnew hs => EntityWrite.keys_applyCreateLock hs hnew
      lock := fun _ _ hs => EntityWrite.keys_applyLock hs
      deleteLock := fun _ _ hs => hs.sublist (List.filter_sublist.map _)
      reschedule := fun id items =>
        (within_rescheduleNotifications (p := Store.locks) (fun _ _ => rfl) id items).invariant
          fun s t heq hs => by rw [heq]; exact hs }
  exact hadmits.reached List.nodup_nil (fun _ _ hs => hs) (fun _ _ _ _ hs => hs) h

/-- What the repository's queries answer when no call fails, by the catalogue. -/
structure AnswersCatalogue (s : Store) : Prop where
  products : ∃ ps, products.run s = (.ok ps, s) ∧ Lists (catalogue s).products (·.id) ps
  rolloutTypes : ∃ ts, rolloutTypes.run s = (.ok ts, s) ∧ Lists (catalogue s).rolloutTypes (·.id) ts
  rollouts : ∃ rs, rollouts.run s = (.ok rs, s) ∧ Lists (catalogue s).rollouts (·.id) rs
  rollout : ∀ id ro, ((rollout id).run s).1 = .ok ro ↔ (catalogue s).rollouts id = some ro
  locks : ∃ ls, locks.run s = (.ok ls, s) ∧ Lists (catalogue s).locks (·.id) ls

/-- `Rollout` reads what the catalogue has, and nothing else. -/
theorem rollout_run_iff {s : Store} (hk : RolloutKeys s) (id : String) (ro : Rollout) :
    ((rollout id).run s).1 = .ok ro ↔ (catalogue s).rollouts id = some ro := by
  show _ ↔ (rowAt (·.id) s.rollouts id).map (hydrated s) = some ro
  cases hr : rowAt (·.id) s.rollouts id with
  | none =>
    rw [rollout_run, show s.rollouts.find? (fun r => r.id == id) = none from hr]
    split <;> simp
  | some r =>
    obtain ⟨hmem, rfl⟩ := rowAt_some hr
    rw [rollout_run_of_mem hk hmem, Option.map_some, Except.ok.injEq, Option.some.injEq]

/-- Every database the service has reached answers from its catalogue. -/
theorem answersCatalogue_reached {s : Store} (h : Reached s) : AnswersCatalogue s where
  products := by
    obtain ⟨ps, t, hrun, rfl, rfl⟩ := (total_products (s := s)).run rfl
    exact ⟨_, hrun, lists_of_perm (fun _ => rfl) (preserved_schema.reached h).products
      (List.perm_insertionSort _ _)⟩
  rolloutTypes := by
    obtain ⟨ts, t, hrun, rfl, rfl⟩ := (total_rolloutTypes (preserved_schema.reached h)).run rfl
    exact ⟨_, hrun, lists_of_perm (fun _ => rfl) (preserved_schema.reached h).types
      (List.perm_insertionSort _ _)⟩
  rollouts :=
    ⟨_, rollouts_run (preserved_schema.reached h).rollouts,
      lists_of_perm (fun _ => rfl) (preserved_schema.reached h).rollouts.ids
        (List.perm_insertionSort _ _)⟩
  rollout := rollout_run_iff (preserved_schema.reached h).rollouts
  locks := by
    obtain ⟨ls, t, hrun, rfl, rfl⟩ := (total_locks (s := s)).run rfl
    exact ⟨_, hrun, lists_of_perm (fun _ => rfl) (lockKeys_reached h) (List.perm_insertionSort _ _)⟩

/-- **The site keeps a catalogue**: whatever requests come, whoever sends them and whatever
fails, the database is the catalogue after some of the changes that were asked for, in their
order, each possible when it was made; a change that was acknowledged has been made; and the
queries answer what the catalogue has. -/
theorem site_keeps_catalogue {es : List Event} {s : Store}
    (he : service.exec Store.empty es = some s) :
    (∃ chs, chs.Sublist (es.filterMap Event.asks) ∧
        ledger.exec Catalogue.empty chs = some (catalogue s)) ∧
      (∀ env req F, (respond env req F ⟨s, 0⟩).1.status / 100 = 2 →
        ∀ ch, req.asks env = some ch → Makes ch s (respond env req F ⟨s, 0⟩).2.store) ∧
      AnswersCatalogue s := by
  have hreached : Reached s := ⟨es, he⟩
  refine ⟨service_refines ⟨[], rfl⟩ he, fun env req F hok ch hch => ?_,
    answersCatalogue_reached hreached⟩
  exact (settles_respond env req (references_reached hreached)).acknowledged hok ch hch

/-- **What is stored is well-formed**: every rollout has its product and its type, its tasks are
numbered from 0 as they stand, so that a number addresses one of them, and nobody is in its
pair twice. -/
theorem stored_well_formed {s : Store} (h : Reached s) : (catalogue s).WellFormed := by
  obtain ⟨es, he⟩ := h
  obtain ⟨chs, -, hrun⟩ := service_refines ⟨[], rfl⟩ he
  exact wellFormed_ledger hrun

private def ann : Session := ⟨"ann", "ann@example.org", "Ann", roleAdmin, none, 0⟩

private def atNine : Env := ⟨9 * hour, 9 * hour, "01234567", Char.toUpper, Char.toLower, fun _ => 0⟩

private def request (method : String) (path : List String) (body : Decodings)
    (hbody : ∀ t, body.rolloutType = some t → t.Sized) (faults : Faults Err) : Event :=
  .request atNine ⟨method, path, some ann, body, none⟩ hbody faults

/-- A rollout is created of a type with two tasks, one of which fails; its update gets lost at
the first call. -/
def workingDay : List Event :=
  [.login [⟨"ann", "ann@example.org", "Ann", roleAdmin⟩],
    .seedProduct ⟨"pay", "Payments", "Ann", some []⟩ (by decide),
    .seedRolloutType ⟨"patch", "Patch", "P", "neutral", 0, 0, some [], "", some [],
      some ["check", "deploy"]⟩ (by decide) ⟨⟨by decide, by decide⟩, by decide⟩,
    request "POST" ["api", "rollouts"]
      ⟨none, none,
        some ⟨"r1", "pay", "patch", "Fix", "", "", "", some [], some ["bob", "bob"], none, 0,
        0, ""⟩, none, none, ⟨0, 0, 0⟩⟩ (fun _ h => by cases h) Db.noFaults,
    request "PATCH" ["api", "rollouts", "r1", "tasks", "1"]
      ⟨none, none, none, some ⟨"failed", "disk full"⟩, none, ⟨0, 0, 0⟩⟩
        (fun _ h => by cases h) Db.noFaults,
    request "PATCH" ["api", "rollouts", "r1"]
      ⟨none, none, some ⟨"", "", "", "Other", "", "", "", none, none, none, 0, 0, ""⟩, none, none,
        ⟨0, 0, 0⟩⟩
      (fun _ h => by cases h)
        (fun n => if n = 0 then some (.fail (.other "connection lost")) else none)]

/-- The two tasks of the rollout, the second with its log. -/
theorem site_keeps_catalogue_workingDay : ∃ s, service.exec Store.empty workingDay = some s ∧
    (∃ chs, chs.Sublist (workingDay.filterMap Event.asks) ∧
      ledger.exec Catalogue.empty chs = some (catalogue s)) ∧
    ((catalogue s).rollouts "r1").map (fun ro => (ro.title, ro.pair, ro.tasks)) =
      some ("Fix", some ["bob"], some [⟨0, "check", "", "", "", none⟩,
        ⟨1, "deploy", "failed", "disk full", "ann", some (9 * hour)⟩]) :=
  ⟨_, rfl, (site_keeps_catalogue rfl).1, by decide +kernel⟩

theorem stored_well_formed_workingDay : ∃ s, service.exec Store.empty workingDay = some s ∧
    (catalogue s).WellFormed ∧ s.hasRollout "r1" = true :=
  ⟨_, rfl, stored_well_formed ⟨workingDay, rfl⟩, by decide +kernel⟩

end ReleaseRadar.Api
