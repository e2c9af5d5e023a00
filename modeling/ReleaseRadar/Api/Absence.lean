import ReleaseRadar.Api.Requests
import ReleaseRadar.Api.TaskLog
import ReleaseRadar.Store.RowsAffected

/-!
# Changing what is not there

Five handlers change something a request names, and each store operation finds out by itself
whether it was there: `UpdateRollout`, `DeleteRollout`, `UpdateLock` and `DeleteLock` look at
the rows their statement has hit and return `ErrNotFound`, `UpdateRolloutTask` looks at
nothing. `Mutation.absence_reported_iff` is the law they share and the one that is left out:
a completion of a task that is not there is answered with 204 and announced.
-/

namespace ReleaseRadar.Api

open Lib Repository

/-! ## Foreign keys in every database the server leads to -/

theorem admits_references : Admits (Db.Frame.invariant Store.References) where
  upsertProduct p _ := by
    refine Db.within_of_ok (fun F c u c' h hc => ?_) fun F c e c' h => upsertProduct_error h
    rw [(upsertProduct_ok h).2]
    exact hc.congr rfl
  upsertRolloutType t _ _ := by
    refine Db.within_of_ok (fun F c u c' h hc => ?_) fun F c e c' h => Db.tx_error_store h
    rw [(upsertRolloutType_ok h).2]
    exact hc.congr rfl
  createRolloutCommit now ro := by
    refine Db.within_of_ok (fun F c u c' h hc => ?_) fun F c e c' h => createRolloutCommit_error h
    obtain ⟨-, -, tasks, hstore⟩ := createRolloutCommit_ok h
    rw [hstore]
    exact references_applyCreate hc
  updateRolloutTx now ro := by
    refine Db.within_of_ok (fun F c u c' h hc => ?_) fun F c e c' h => updateRolloutTx_error h
    obtain ⟨hhas, -, hstore⟩ := updateRolloutTx_ok h
    rw [hstore]
    exact references_applyUpdate hhas hc
  deleteRollout id := by
    refine Db.within_bind (within_stmt fun s a s' h hs => ?_) fun affected => ?_
    · obtain rfl := congrArg Prod.snd (Except.ok.inj h)
      exact references_applyDelete hs
    · cases affected
      · exact Db.within_throw _
      · exact Db.within_pure _
  updateRolloutTask now id seq status reason by_ := by
    refine Db.within_of_ok (fun F c u c' h hc => ?_) fun F c e c' h => updateRolloutTask_error h
    rw [updateRolloutTask_ok h]
    exact references_applyTask hc
  createLock now l := by
    refine Db.within_bind (within_stmt fun s a s' h hs => ?_) fun _ => Db.within_pure _
    obtain ⟨-, h⟩ := constraint_bind_ok h
    obtain ⟨-, h⟩ := constraint_bind_ok h
    obtain ⟨-, h⟩ := constraint_bind_ok h
    obtain ⟨-, h⟩ := constraint_bind_ok h
    obtain rfl := congrArg Prod.snd (Except.ok.inj h)
    exact hs.congr rfl
  updateLock l := by
    refine Db.within_of_ok (fun F c u c' h hc => ?_) fun F c e c' h => ?_
    · rw [(updateLock_ok h).2]
      exact hc.congr rfl
    · exact updateLock_error h
  deleteLock id := by
    refine Db.within_bind (within_stmt fun s a s' h hs => ?_) fun affected => ?_
    · obtain rfl := congrArg Prod.snd (Except.ok.inj h)
      exact hs.congr rfl
    · cases affected
      · exact Db.within_throw _
      · exact Db.within_pure _
  rescheduleNotifications := within_references_reschedule

/-- No row of a child table is ever an orphan. -/
theorem references_reached {s : Store} (h : Reached s) : s.References :=
  admits_references.reached Store.references_empty (fun s _ hs => hs.congr rfl)
    (fun s now id err hs => references_notifications hs fun n hn => by
      obtain ⟨m, hm, rfl⟩ := List.mem_map.mp hn
      exact Or.inl ⟨m, hm, (congrArg Prod.fst (NotificationTable.markRow_key now id err m)).symm⟩) h

/-! ## The requests -/

/-- A request that changes something it names, its body decoded. -/
inductive Mutation
  | updateRollout (id : String) (ro : Rollout)
  | deleteRollout (id : String)
  | updateTask (sess : Session) (id seq : String) (body : TaskBody)
  | updateLock (id : String) (zones : LockZones) (l : Lock)
  | deleteLock (id : String)

/-- The error that came out of a call, if one did. -/
def errorOf {α : Type} : Except Err α × Conn Store → Option Err
  | (.error e, _) => some e
  | (.ok _, _) => none

namespace Mutation

def handler (env : Env) : Mutation → Repo Reply
  | updateRollout id ro => Api.updateRollout env id (some ro)
  | deleteRollout id => Api.deleteRollout id
  | updateTask sess id seq body => Api.updateTask env sess id seq (some body)
  | updateLock id zones l => Api.updateLock id zones (some l)
  | deleteLock id => Api.deleteLock id

/-- The body passes the handler's validation, and the sequence number is an `INT`. -/
def Valid : Mutation → Prop
  | updateTask _ _ seq body =>
    (∃ n ∈ atoi seq, int4 n = true) ∧
      (body.status = "" ∨ body.status = "done" ∨ body.status = "failed")
  | updateLock _ _ l => ∃ l', normalizeAndValidateLock l = .ok l'
  | updateRollout _ _ | deleteRollout _ | deleteLock _ => True

/-- What it names is there. -/
def found (s : Store) : Mutation → Bool
  | updateRollout id _ | deleteRollout id => s.hasRollout id
  | updateTask _ id seq _ => (atoi seq).any fun n => s.rolloutTasks.any (addressed id n)
  | updateLock id _ _ | deleteLock id => s.hasLock id

/-- The event that names it; a task has its rollout's. -/
def event : Mutation → Broadcast
  | updateRollout id _ => ⟨"rollout", id, "update"⟩
  | deleteRollout id => ⟨"rollout", id, "delete"⟩
  | updateTask _ id _ _ => ⟨"task", id, "update"⟩
  | updateLock id _ _ => ⟨"lock", id, "update"⟩
  | deleteLock id => ⟨"lock", id, "delete"⟩

/-- The error the handler gets from the store. -/
def storeError (env : Env) (F : Faults Err) (c : Conn Store) : Mutation → Option Err
  | updateRollout id ro => errorOf (Repository.updateRollout env.dbNow { ro with id := id } F c)
  | deleteRollout id => errorOf (Repository.deleteRollout id F c)
  | updateTask sess id seq body =>
    (atoi seq).bind fun n =>
      errorOf (updateRolloutTask env.dbNow id n body.status body.reason sess.id F c)
  | updateLock id _ l =>
    match normalizeAndValidateLock l with
    | .error _ => none
    | .ok l => errorOf (Repository.updateLock { l with id := id } F c)
  | deleteLock id => errorOf (Repository.deleteLock id F c)

def isTask : Mutation → Bool
  | updateTask _ _ _ _ => true
  | _ => false

end Mutation

/-- Without its target a request is answered with 404 and does nothing; a success had its
target, and is one event. -/
structure SaysSo (found : Bool) (event : Broadcast) (before : Store) (res : Reply × Conn Store) :
    Prop where
  absent : found = false → res.1.status = 404 ∧ res.2.store = before ∧ res.1.broadcasts = []
  success : res.1.status < 300 → found = true ∧ res.1.broadcasts = [event]

/-- The store's operation is first, and the answer to its success is one event. -/
theorem saysSo_of_reports {α : Type} {m : Repo α} {k : α → Repo Reply} {found : Store → Bool}
    {event : Broadcast} {F : Faults Err} {c : Conn Store} (hm : Reports m found F c)
    (hstore : ∀ e ∈ errorOf (m F c), e = .notFound)
    (hk : ∀ a c₁, m F c = (.ok a, c₁) → (serve (k a) F c₁).1.broadcasts = [event]) :
    SaysSo (found c.store) event c.store (serve (m >>= k) F c) := by
  match hr : m F c with
  | (.error e, c₁) =>
    have hserve : serve (m >>= k) F c = (writeErr e, c₁) := by
      simp only [serve, Db.bind_def, hr]
    rw [hserve]
    rw [hr] at hstore
    obtain rfl := hstore e rfl
    refine ⟨fun habsent => ⟨rfl, hm.absent _ _ habsent hr, rfl⟩, fun hok => ?_⟩
    exact absurd (show 404 < 300 from hok) (by decide)
  | (.ok a, c₁) =>
    have hserve : serve (m >>= k) F c = serve (k a) F c₁ := by
      simp only [serve, Db.bind_def, hr]
    rw [hserve]
    have hfound := hm.ok a c₁ hr
    refine ⟨fun habsent => ?_, fun _ => ⟨hfound, hk a c₁ hr⟩⟩
    rw [hfound] at habsent
    cases habsent

/-- A completion that the store did not refuse is announced. -/
theorem serve_updateTask_valid {env : Env} {sess : Session} {id seq : String} {body : TaskBody}
    {F : Faults Err} {c : Conn Store} {n : Int} (hn : atoi seq = some n)
    (hstatus : body.status = "" ∨ body.status = "done" ∨ body.status = "failed") :
    serve (Api.updateTask env sess id seq (some body)) F c =
      serve (updateRolloutTask env.dbNow id n body.status body.reason sess.id >>= fun _ =>
        pure (noContent.after ⟨"task", id, "update"⟩)) F c := by
  have hvalid : ¬(body.status ≠ "" ∧ body.status ≠ "done" ∧ body.status ≠ "failed") := by
    rintro ⟨h₁, h₂, h₃⟩
    rcases hstatus with h | h | h
    · exact h₁ h
    · exact h₂ h
    · exact h₃ h
  simp only [Api.updateTask, hn, decoded, if_neg hvalid]

/-- `ErrNotFound` is the store's own, and `UpdateRolloutTask` has none. -/
theorem updateRolloutTask_found {now : Int} {id : String} {seq : Int} {status reason by_ : String}
    {F : Faults Err} {c c' : Conn Store} (hF : ∀ k, ∀ x ∈ F k, x.err ≠ .notFound) :
    updateRolloutTask now id seq status reason by_ F c ≠ (.error .notFound, c') := by
  have hcall : ∀ {f : Store → Except Err (Unit × Store)}, (∀ s, f s ≠ .error .notFound) →
      Db.call f F c ≠ (.error .notFound, c') := by
    intro f hf h
    unfold Db.call at h
    split at h
    · next x hx => exact hF _ x hx (Except.error.inj (Prod.mk.inj h).1)
    · split at h
      · next e he => exact hf _ (he.trans (congrArg _ (Except.error.inj (Prod.mk.inj h).1)))
      · cases (Prod.mk.inj h).1
  unfold updateRolloutTask
  split
  · refine hcall fun s h => ?_
    split at h <;> simp at h
  · split
    · refine hcall fun s h => ?_
      split at h <;> simp at h
    · refine hcall fun s h => ?_
      split at h
      · simp at h
      · simp only [constraint] at h
        split at h <;> simp [bind, Except.bind, pure, Except.pure] at h

namespace Mutation

section Law

variable {env : Env} {F : Faults Err} {c : Conn Store}

/-- The law of one request. -/
def Law (env : Env) (F : Faults Err) (c : Conn Store) (m : Mutation) : Prop :=
  SaysSo (m.found c.store) m.event c.store (serve (m.handler env) F c)

/-- Four of the five handlers keep it. -/
theorem law_of_rowsAffected {m : Mutation} (hrefs : c.store.References) (hvalid : m.Valid)
    (hstore : ∀ e ∈ m.storeError env F c, e = .notFound) (htask : m.isTask = false) :
    m.Law env F c := by
  cases m with
  | updateTask sess id seq body => cases htask
  | updateRollout id ro =>
    refine saysSo_of_reports (reports_updateRollout env.dbNow { ro with id := id }) hstore ?_
    intro out c₁ hout
    obtain ⟨_, c₂, -, hread⟩ := Db.bind_ok hout
    have hid : out.id = id := by
      obtain ⟨-, _, -, hid, -⟩ := rollout_ok hread
      exact hid
    -- the reschedule's error is dropped
    show [Broadcast.mk "rollout" out.id "update"] = _
    rw [hid]
    rfl
  | deleteRollout id =>
    exact saysSo_of_reports (reports_deleteRollout hrefs id) hstore fun _ _ _ => rfl
  | updateLock id zones l =>
    obtain ⟨l', hl⟩ := hvalid
    have hhandler : Api.updateLock id zones (some l) =
      (Repository.updateLock { l' with id := id } >>=
        fun out => pure ((writeJSON zones.offsets 200 out.toJson).after
          ⟨"lock", out.id, "update"⟩)) := by
      simp only [Api.updateLock, decoded, hl]
    simp only [storeError, hl] at hstore
    unfold Law handler
    dsimp only
    rw [hhandler]
    refine saysSo_of_reports (reports_updateLock { l' with id := id }) hstore ?_
    intro out c₁ hout
    obtain ⟨hlock, -⟩ := affected_ok hout
    rw [hlock]
    rfl
  | deleteLock id => exact saysSo_of_reports (reports_deleteLock id) hstore fun _ _ _ => rfl

/-- The fifth announces a success whatever it hit. -/
theorem law_updateTask {sess : Session} {id seq : String} {body : TaskBody}
    (hvalid : (updateTask sess id seq body).Valid) (hF : ∀ k, ∀ x ∈ F k, x.err ≠ .notFound)
    (hstore : ∀ e ∈ (updateTask sess id seq body).storeError env F c, e = .notFound) :
    (updateTask sess id seq body).Law env F c ↔
      (updateTask sess id seq body).found c.store = true := by
  obtain ⟨⟨n, hn, -⟩, hstatus⟩ := hvalid
  have hanswer : (serve (Api.updateTask env sess id seq (some body)) F c).1 =
      noContent.after ⟨"task", id, "update"⟩ := by
    rw [serve_updateTask_valid hn hstatus]
    match hr : updateRolloutTask env.dbNow id n body.status body.reason sess.id F c with
    | (.ok u, c₁) => simp only [serve, Db.bind_def, hr, Db.pure_def]
    | (.error e, c₁) =>
      obtain rfl := hstore e (by simp [storeError, show atoi seq = some n from hn, hr, errorOf])
      exact absurd hr (updateRolloutTask_found hF)
  constructor
  · intro h
    by_contra habsent
    have h404 := (h.absent (Bool.eq_false_iff.mpr habsent)).1
    rw [show (serve ((updateTask sess id seq body).handler env) F c).1 = _ from hanswer] at h404
    exact absurd (show 204 = 404 from h404) (by decide)
  · intro hfound
    refine ⟨fun habsent => ?_, fun _ => ⟨hfound, ?_⟩⟩
    · rw [hfound] at habsent
      cases habsent
    · rw [show (serve ((updateTask sess id seq body).handler env) F c).1 = _ from hanswer]
      rfl

/-- **A request that changes something says when it is not there**, unless it completes a
task. -/
theorem absence_reported_iff (m : Mutation) (hrefs : c.store.References) (hvalid : m.Valid)
    (hF : ∀ k, ∀ x ∈ F k, x.err ≠ .notFound)
    (hstore : ∀ e ∈ m.storeError env F c, e = .notFound) :
    m.Law env F c ↔ (m.isTask = true → m.found c.store = true) := by
  cases htask : m.isTask with
  | false => exact iff_of_true (law_of_rowsAffected hrefs hvalid hstore htask) nofun
  | true =>
    cases m with
    | updateTask sess id seq body =>
      rw [law_updateTask hvalid hF hstore]
      exact ⟨fun h _ => h, fun h => h rfl⟩
    | updateRollout id ro => cases htask
    | deleteRollout id => cases htask
    | updateLock id zones l => cases htask
    | deleteLock id => cases htask

end Law

private def noon : Env := ⟨0, 0, "01234567", Char.toUpper, Char.toLower, fun _ => 0⟩

private def ann : Session := ⟨"ann", "ann@example.com", "Ann", roleAdmin, none, 0⟩

private def oneLock : Store :=
  { Store.empty with locks := [⟨"l2", "Freeze", "", "", 0, 1, ["all"], "manual", none, 0⟩] }

/-- Of two locks to be deleted the one that is not there is answered with 404, and the other is
announced. -/
theorem absence_reported_iff_lock :
    (serve (Api.deleteLock "l1") Db.noFaults ⟨oneLock, 0⟩).1.status = 404 ∧
      (serve (Api.deleteLock "l1") Db.noFaults ⟨oneLock, 0⟩).2.store = oneLock ∧
      (serve (Api.deleteLock "l2") Db.noFaults ⟨oneLock, 0⟩).1.broadcasts =
        [⟨"lock", "l2", "delete"⟩] := by
  have hlaw : ∀ id, (∀ e ∈ (deleteLock id).storeError noon Db.noFaults ⟨oneLock, 0⟩,
      e = .notFound) → (deleteLock id).Law noon Db.noFaults ⟨oneLock, 0⟩ := fun id hstore =>
    (absence_reported_iff (deleteLock id) (by decide) trivial (fun _ _ h => by cases h)
      hstore).mpr nofun
  have habsent := (hlaw "l1" (by decide +kernel)).absent (by decide)
  have hpresent := (hlaw "l2" (by decide)).success (by decide)
  exact ⟨habsent.1, habsent.2.1, hpresent.2⟩

/-- **A task that is not there** is completed with 204, and the clients are told. -/
theorem absent_task_completed :
    (updateTask ann "r1" "7" ⟨"done", ""⟩).Valid ∧
      (updateTask ann "r1" "7" ⟨"done", ""⟩).storeError noon Db.noFaults ⟨Store.empty, 0⟩ = none ∧
      ¬(updateTask ann "r1" "7" ⟨"done", ""⟩).Law noon Db.noFaults ⟨Store.empty, 0⟩ := by
  refine ⟨⟨⟨7, by decide, by decide⟩, by decide⟩, by decide, fun h => ?_⟩
  exact absurd (h.absent (by decide)).1 (by decide)

end Mutation

end ReleaseRadar.Api
