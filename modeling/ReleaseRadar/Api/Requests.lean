import ReleaseRadar.Api.Decode
import ReleaseRadar.Api.Readonly
import ReleaseRadar.Lib.Machine
import ReleaseRadar.Store.Locks
import ReleaseRadar.Store.Schema

/-!
# What requests keep

The frame rule of the API: what every write of the repository keeps, every request keeps,
whoever sends it, whatever its body and whatever call fails (`within_route`). The one thing
a handler adds is the id it makes of a name when the body has none, so a product or a type
without an id has no name either.

`service` is the server over any number of requests, logins and dispatcher marks, from an
empty database or a seeded one; `Preserved.reached` is the rule for its runs.
-/

namespace ReleaseRadar.Api

open Lib Repository

/-- A frame that every write of the repository respects. -/
structure Admits (R : Db.Frame Store) : Prop where
  upsertProduct : ∀ p : Product, (p.id = "" → p.name = "") →
    Db.Within R (Repository.upsertProduct p)
  upsertRolloutType : ∀ t : RolloutType, (t.id = "" → t.name = "") → t.Sized →
    Db.Within R (Repository.upsertRolloutType t)
  createRolloutCommit : ∀ now ro, Db.Within R (createRolloutCommit now ro)
  updateRolloutTx : ∀ now ro, Db.Within R (updateRolloutTx now ro)
  deleteRollout : ∀ id, Db.Within R (Repository.deleteRollout id)
  updateRolloutTask : ∀ now id seq status reason by_,
    Db.Within R (updateRolloutTask now id seq status reason by_)
  createLock : ∀ now l, Db.Within R (Repository.createLock now l)
  updateLock : ∀ l, Db.Within R (Repository.updateLock l)
  deleteLock : ∀ id, Db.Within R (Repository.deleteLock id)
  rescheduleNotifications : ∀ id items, Db.Within R (rescheduleNotifications id items)

/-- A frame that allows every effect on the tables. -/
structure AllowsEffects (R : Db.Frame Store) : Prop where
  product : ∀ s p, R.allows s (applyProduct p s)
  rolloutType : ∀ s t, R.allows s (applyRolloutType t s)
  create : ∀ s now ro tasks, s.hasRollout ro.id = false → R.allows s (applyCreate now ro tasks s)
  update : ∀ s now ro, s.hasRollout ro.id = true → R.allows s (applyUpdate now ro s)
  delete : ∀ s id, R.allows s (applyDelete id s)
  task : ∀ s now id seq status reason by_, R.allows s (applyTask now id seq status reason by_ s)
  createLock : ∀ s now l, s.hasLock l.id = false → R.allows s (applyCreateLock now l s)
  lock : ∀ s l, R.allows s (applyLock l s)
  deleteLock : ∀ s id, R.allows s (applyDeleteLock id s)
  reschedule : ∀ id items, Db.Within R (rescheduleNotifications id items)

/-- What an operation has changed when it got through, and that it has changed nothing else. -/
private theorem within_of_effect {R : Db.Frame Store} {α : Type} {m : Repo α}
    (hok : ∀ F c a c', m F c = (.ok a, c') → R.allows c.store c'.store)
    (herror : ∀ F c e c', m F c = (.error e, c') → c'.store = c.store ∨ R.allows c.store c'.store) :
    Db.Within R m := by
  intro F c
  match h : m F c with
  | (.ok a, c') => exact hok F c a c' h
  | (.error e, c') =>
    rcases herror F c e c' h with hsame | hallowed
    · show R.allows c.store c'.store
      rw [hsame]
      exact R.refl _
    · exact hallowed

/-- **What every effect is allowed, every write is.** -/
theorem AllowsEffects.admits {R : Db.Frame Store} (h : AllowsEffects R) : Admits R where
  upsertProduct p _ := by
    refine within_of_effect (fun F c u c' hr => ?_) fun F c e c' hr =>
      Or.inl (upsertProduct_error hr)
    rw [(upsertProduct_ok hr).2]
    exact h.product _ p
  upsertRolloutType t _ _ := by
    refine within_of_effect (fun F c u c' hr => ?_) fun F c e c' hr => Or.inl (Db.tx_error_store hr)
    rw [(upsertRolloutType_ok hr).2]
    exact h.rolloutType _ t
  createRolloutCommit now ro := by
    refine within_of_effect (fun F c u c' hr => ?_) fun F c e c' hr =>
      Or.inl (createRolloutCommit_error hr)
    obtain ⟨hnew, -, tasks, hstore⟩ := createRolloutCommit_ok hr
    rw [hstore]
    exact h.create _ now ro tasks hnew
  updateRolloutTx now ro := by
    refine within_of_effect (fun F c u c' hr => ?_) fun F c e c' hr =>
      Or.inl (updateRolloutTx_error hr)
    obtain ⟨hhas, -, hstore⟩ := updateRolloutTx_ok hr
    rw [hstore]
    exact h.update _ now ro hhas
  deleteRollout id := by
    refine within_of_effect (fun F c u c' hr => ?_) fun F c e c' hr => ?_
    · rw [(deleteRollout_ok hr).2]
      exact h.delete _ id
    · refine (deleteRollout_error hr).imp_right fun hmissed => ?_
      rw [hmissed.2]
      exact h.delete _ id
  updateRolloutTask now id seq status reason by_ := by
    refine within_of_effect (fun F c u c' hr => ?_) fun F c e c' hr =>
      Or.inl (updateRolloutTask_error hr)
    rw [updateRolloutTask_ok hr]
    exact h.task _ now id seq status reason by_
  createLock now l := by
    refine within_of_effect (fun F c out c' hr => ?_) fun F c e c' hr =>
      Or.inl (createLock_error hr)
    obtain ⟨-, hfits, -, hstore⟩ := createLock_ok hr
    rw [hstore]
    exact h.createLock _ now l hfits.fresh
  updateLock l := by
    refine within_of_effect (fun F c out c' hr => ?_) fun F c e c' hr =>
      Or.inl (updateLock_error hr)
    rw [(updateLock_ok hr).2]
    exact h.lock _ l
  deleteLock id := by
    refine within_of_effect (fun F c u c' hr => ?_) fun F c e c' hr => ?_
    · rw [(deleteLock_ok hr).2]
      exact h.deleteLock _ id
    · refine (deleteLock_error hr).imp_right fun hmissed => ?_
      rw [hmissed.2]
      exact h.deleteLock _ id
  rescheduleNotifications := h.reschedule

/-- The numbers of the body are what decoding gives (`RolloutType.sized_of_fromJson`). -/
def Request.Sized (req : Request) : Prop := ∀ t, req.body.rolloutType = some t → t.Sized

/-! ## One request -/

theorem slug_eq_empty {env : Env} {name : String} (h : slug env name = "") : name = "" := by
  have hnil : (slug env name).toList = [] := by rw [h]; rfl
  unfold slug at hnil
  rw [String.toList_ofList, List.map_eq_nil_iff] at hnil
  exact String.toList_eq_nil_iff.mp hnil

/-- The id a handler settles on is empty for an empty name only. -/
theorem name_of_id {env : Env} {id name : String}
    (h : (if id = "" then slug env name else id) = "") : name = "" := by
  split at h
  · exact slug_eq_empty h
  · next hid => exact absurd h hid

theorem within_rolloutTypes (R : Db.Frame Store) : Db.Within R rolloutTypes := by
  refine Db.within_bind (within_select _ _) fun rows => Db.within_bind ?_ fun _ =>
    Db.within_checked _
  refine Db.within_mapEach (fun t => ?_) _
  exact Db.within_bind (Db.within_bind (within_select _ _) fun _ => Db.within_checked _)
    fun _ => Db.within_pure _

theorem within_decoded {R : Db.Frame Store} {α : Type} {h : α → Repo Reply} {body : Option α}
    (hh : ∀ x, body = some x → Db.Within R (h x)) : Db.Within R (decoded body h) := by
  cases body with
  | none => exact Db.within_pure _
  | some x => exact hh x rfl

section Frame

variable {R : Db.Frame Store}

theorem within_writeAndSchedule (hR : Admits R) (env : Env) {write : Repo Unit}
    (hwrite : Db.Within R write) (id : String) (answer : Rollout → Reply) :
    Db.Within R (writeAndSchedule env write id answer) :=
  Db.within_bind hwrite fun _ => Db.within_bind (within_rollout R id) fun _ =>
    Db.within_bind (Db.within_bind (Db.within_attempt (hR.rescheduleNotifications _ _)) fun _ =>
      Db.within_pure _) fun _ => Db.within_pure _

/-- The wrappers let a request through or answer it without the database. -/
theorem within_requireSession {next : Session → Repo Reply} (h : ∀ sess, Db.Within R (next sess))
    (session : Option Session) : Db.Within R (requireSession session next) := by
  cases session with
  | none => exact Db.within_pure _
  | some sess => exact h sess

theorem within_requireAdmin {next : Session → Repo Reply} (h : ∀ sess, Db.Within R (next sess))
    (session : Option Session) : Db.Within R (requireAdmin session next) := by
  unfold requireAdmin
  cases session with
  | none => exact Db.within_pure _
  | some sess =>
    dsimp only
    split
    · exact Db.within_pure _
    · exact h sess

/-- **What every write keeps, every request keeps.** -/
theorem within_route (hR : Admits R) (env : Env) {req : Request} (hbody : req.Sized) :
    Db.Within R (route env req) := by
  unfold route
  split
  · next r _ =>
    cases r with
    | me => exact within_requireSession (fun _ => Db.within_pure _) _
    | listProducts =>
      exact within_requireSession (fun _ => Db.within_bind (within_products R) fun _ =>
        Db.within_pure _) _
    | listRollouts =>
      exact within_requireSession (fun _ => Db.within_bind (within_rollouts R) fun _ =>
        Db.within_pure _) _
    | getRollout id =>
      exact within_requireSession (fun _ => Db.within_bind (within_rollout R id) fun _ =>
        Db.within_pure _) _
    | listLocks =>
      exact within_requireSession (fun _ => Db.within_bind (within_locks R) fun _ =>
        Db.within_pure _) _
    | calendar =>
      exact within_requireSession (fun _ => Db.within_bind (within_rollouts R) fun _ =>
        Db.within_pure _) _
    | ws =>
      refine within_requireSession (fun _ => ?_) _
      unfold Api.ws
      split <;> exact Db.within_pure _
    | listRolloutTypes =>
      exact within_requireAdmin (fun _ => Db.within_bind (within_rolloutTypes R) fun _ =>
        Db.within_pure _) _
    | upsertRolloutType =>
      refine within_requireAdmin (fun _ => within_decoded fun t ht => Db.within_bind
        (hR.upsertRolloutType _ name_of_id ?_) fun _ => Db.within_pure _) _
      exact ⟨(hbody t ht).delays, (hbody t ht).plan⟩
    | upsertProduct =>
      exact within_requireAdmin (fun _ => within_decoded fun p _ => Db.within_bind
        (hR.upsertProduct _ name_of_id) fun _ => Db.within_pure _) _
    | createRollout =>
      refine within_requireAdmin (fun sess => ?_) _
      cases req.body.rollout with
      | none => exact Db.within_pure _
      | some ro =>
        rw [createRollout_eq]
        exact within_writeAndSchedule hR env (hR.createRolloutCommit _ _) _ _
    | updateRollout id =>
      refine within_requireAdmin (fun _ => ?_) _
      cases req.body.rollout with
      | none => exact Db.within_pure _
      | some ro =>
        rw [updateRollout_eq]
        exact within_writeAndSchedule hR env (hR.updateRolloutTx _ _) _ _
    | deleteRollout id =>
      exact within_requireAdmin (fun _ => Db.within_bind (hR.deleteRollout id) fun _ =>
        Db.within_pure _) _
    | updateTask id seq =>
      refine within_requireAdmin (fun sess => ?_) _
      unfold Api.updateTask
      split
      · exact Db.within_pure _
      · refine within_decoded fun body _ => ?_
        split
        · exact Db.within_pure _
        · exact Db.within_bind (hR.updateRolloutTask _ _ _ _ _ _) fun _ => Db.within_pure _
    | createLock =>
      refine within_requireAdmin (fun sess => within_decoded fun l _ => ?_) _
      split
      · exact Db.within_pure _
      · exact Db.within_bind (hR.createLock _ _) fun _ => Db.within_pure _
    | updateLock id =>
      refine within_requireAdmin (fun sess => within_decoded fun l _ => ?_) _
      split
      · exact Db.within_pure _
      · exact Db.within_bind (hR.updateLock _) fun _ => Db.within_pure _
    | deleteLock id =>
      exact within_requireAdmin (fun _ => Db.within_bind (hR.deleteLock id) fun _ =>
        Db.within_pure _) _
  · exact Db.within_pure _

/-- Answering changes nothing more. -/
theorem respond_allows (hR : Admits R) (env : Env) {req : Request} (hbody : req.Sized)
    (F : Faults Err) (c : Conn Store) : R.allows c.store (respond env req F c).2.store := by
  have h := within_route hR env hbody F c
  have hserve := serve_snd (route env req) F c
  unfold respond
  split
  · show R.allows c.store (serve (route env req) F c).2.store
    rw [hserve]
    exact h
  · rw [hserve]
    exact h

end Frame

/-! ## The server -/

/-- What changes the database. -/
inductive Event
  /-- A request, and which of its calls fail. -/
  | request (env : Env) (req : Request) (hbody : req.Sized) (faults : Faults Err)
  /-- A login wrote the caller's row. -/
  | login (actors : List ActorRow)
  /-- The dispatcher marked a row. -/
  | marked (now : Int) (id : Nat) (err : String)
  /-- `SeedIfEmpty` stores a product. -/
  | seedProduct (p : Product) (hid : p.id ≠ "")
  /-- `SeedIfEmpty` stores a rollout type. -/
  | seedRolloutType (t : RolloutType) (hid : t.id ≠ "") (ht : t.Sized)
  /-- `SeedIfEmpty` stores a rollout. -/
  | seedRollout (now : Int) (ro : Rollout)

def Event.apply (s : Store) : Event → Store
  | request env req _ faults => (respond env req faults ⟨s, 0⟩).2.store
  | login actors => { s with actors := actors }
  | marked now id err => { s with notifications := s.notifications.markSent now id err }
  | seedProduct p _ => ((Repository.upsertProduct p).run s).2
  | seedRolloutType t _ _ => ((Repository.upsertRolloutType t).run s).2
  | seedRollout now ro => ((createRolloutCommit now ro).run s).2

/-- The server. -/
def service : Machine Store Event := ⟨fun s e => some (e.apply s)⟩

/-- A run of the server leads here from an empty database. -/
def Reached (s : Store) : Prop := ∃ es, service.exec Store.empty es = some s

/-- An invariant of the tables of `Schema`, kept by each effect on them. -/
structure Preserved (I : Store → Prop) : Prop where
  empty : I Store.empty
  outside : ∀ s t, schemaTables t = schemaTables s → I s → I t
  product : ∀ s p, I s → (p.id = "" → p.name = "") → ProductFits p → I (applyProduct p s)
  rolloutType : ∀ s t, I s → (t.id = "" → t.name = "") → t.Sized → RolloutTypeFits t →
    I (applyRolloutType t s)
  create : ∀ s now ro tasks, I s → s.hasRollout ro.id = false → hasNul ro.id = false →
    I (applyCreate now ro tasks s)
  update : ∀ s now ro, I s → I (applyUpdate now ro s)
  delete : ∀ s id, I s → I (applyDelete id s)

section Preserved

variable {I : Store → Prop}

theorem Preserved.admits (hI : Preserved I) : Admits (Db.Frame.invariant I) where
  upsertProduct p hname := by
    refine Db.within_of_ok (fun F c u c' h hc => ?_) fun F c e c' h => upsertProduct_error h
    obtain ⟨hfits, hstore⟩ := upsertProduct_ok h
    rw [hstore]
    exact hI.product _ p hc hname hfits
  upsertRolloutType t hname hsized := by
    refine Db.within_of_ok (fun F c u c' h hc => ?_) fun F c e c' h => Db.tx_error_store h
    obtain ⟨hfits, hstore⟩ := upsertRolloutType_ok h
    rw [hstore]
    exact hI.rolloutType _ t hc hname hsized hfits
  createRolloutCommit now ro := by
    refine Db.within_of_ok (fun F c u c' h hc => ?_) fun F c e c' h => createRolloutCommit_error h
    obtain ⟨hnew, htext, tasks, hstore⟩ := createRolloutCommit_ok h
    rw [hstore]
    exact hI.create _ now ro tasks hc hnew htext
  updateRolloutTx now ro := by
    refine Db.within_of_ok (fun F c u c' h hc => ?_) fun F c e c' h => updateRolloutTx_error h
    obtain ⟨-, -, hstore⟩ := updateRolloutTx_ok h
    rw [hstore]
    exact hI.update _ now ro hc
  deleteRollout id := by
    refine Db.within_bind (within_stmt fun s a s' h hs => ?_) fun affected => ?_
    · obtain rfl := congrArg Prod.snd (Except.ok.inj h)
      exact hI.delete s id hs
    · cases affected
      · exact Db.within_throw _
      · exact Db.within_pure _
  updateRolloutTask now id seq status reason by_ := by
    refine Db.within_of_ok (fun F c u c' h hc => ?_) fun F c e c' h => updateRolloutTask_error h
    rw [updateRolloutTask_ok h]
    exact hI.outside c.store _ rfl hc
  createLock now l := by
    refine Db.within_bind (within_stmt fun s a s' h hs => ?_) fun _ => Db.within_pure _
    obtain ⟨-, h⟩ := constraint_bind_ok h
    obtain ⟨-, h⟩ := constraint_bind_ok h
    obtain ⟨-, h⟩ := constraint_bind_ok h
    obtain ⟨-, h⟩ := constraint_bind_ok h
    obtain rfl := congrArg Prod.snd (Except.ok.inj h)
    exact hI.outside s _ rfl hs
  updateLock l := by
    refine Db.within_bind (within_stmt fun s a s' h hs => ?_) fun affected => ?_
    · -- the kind is checked only when there is a row to write it to
      have hs' : schemaTables s' = schemaTables s := by
        cases hlock : s.hasLock l.id with
        | false =>
          simp only [hlock, Bool.false_eq_true, if_false] at h
          exact (congrArg (fun r => schemaTables r.2) (Except.ok.inj h)).symm
        | true =>
          simp only [hlock, if_true] at h
          obtain ⟨-, h⟩ := constraint_bind_ok h
          exact (congrArg (fun r => schemaTables r.2) (Except.ok.inj h)).symm
      exact hI.outside s s' hs' hs
    · cases affected
      · exact Db.within_throw _
      · exact Db.within_pure _
  deleteLock id := by
    refine Db.within_bind (within_stmt fun s a s' h hs => ?_) fun affected => ?_
    · obtain rfl := congrArg Prod.snd (Except.ok.inj h)
      exact hI.outside s _ rfl hs
    · cases affected
      · exact Db.within_throw _
      · exact Db.within_pure _
  rescheduleNotifications id items :=
    (within_rescheduleNotifications (p := schemaTables) (fun _ _ => rfl) id items).invariant
      hI.outside

/-- **What every write keeps, and a login and a mark, the server keeps.** -/
theorem Admits.reached (hA : Admits (Db.Frame.invariant I)) (hempty : I Store.empty)
    (hlogin : ∀ s actors, I s → I { s with actors := actors })
    (hmarked : ∀ s now id err, I s →
      I { s with notifications := s.notifications.markSent now id err })
    {s : Store} (h : Reached s) : I s := by
  obtain ⟨es, hrun⟩ := h
  have hkeep : ∀ {α : Type} {m : Repo α} (s : Store), Db.Within (Db.Frame.invariant I) m →
      I s → I (m.run s).2 := fun s hm hs => hm Db.noFaults ⟨s, 0⟩ hs
  refine service.exec_invariant (fun s e s' hs hstep => ?_) hempty hrun
  obtain rfl : e.apply s = s' := Option.some.inj hstep
  cases e with
  | request env req hbody faults => exact respond_allows hA env hbody faults ⟨s, 0⟩ hs
  | login actors => exact hlogin s actors hs
  | marked now id err => exact hmarked s now id err hs
  | seedProduct p hid => exact hkeep s (hA.upsertProduct p fun he => absurd he hid) hs
  | seedRolloutType t hid ht =>
    exact hkeep s (hA.upsertRolloutType t (fun he => absurd he hid) ht) hs
  | seedRollout now ro => exact hkeep s (hA.createRolloutCommit now ro) hs

/-- **What each effect keeps, the server keeps.** -/
theorem Preserved.reached (hI : Preserved I) {s : Store} (h : Reached s) : I s :=
  hI.admits.reached hI.empty (fun s _ hs => hI.outside s _ rfl hs)
    (fun s _ _ _ hs => hI.outside s _ rfl hs) h

end Preserved

/-- The schema holds of every database the server leads to. -/
theorem preserved_schema : Preserved Schema where
  empty := schema_empty
  outside _ _ h hs := hs.congr h
  product _ _ hs _ hp := schema_applyProduct hs hp
  rolloutType _ _ hs _ _ ht := schema_applyRolloutType hs ht
  create _ _ _ _ hs hnew htext := schema_applyCreate hs hnew htext
  update _ _ _ hs := schema_applyUpdate hs
  delete _ _ hs := schema_applyDelete hs

end ReleaseRadar.Api
