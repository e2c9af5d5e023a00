import ReleaseRadar.Api.RolloutWrite
import ReleaseRadar.Api.StoredLocks
import ReleaseRadar.Lib.Utf8
import ReleaseRadar.Store.Refusals

/-!
# Whose fault a refused write is

`writeErr` answers a violated constraint with 400 and a row that is not there with 404, but
a text with U+0000 (SQLSTATE 22021, in JSONB 22P05), a path value that is not UTF-8 (22021), a
number that pgx cannot encode and a key that is too long for its index (54000) fall through to
500. So with the database up, a write is answered as the client's fault, or succeeds, exactly
when every parameter can be sent and every index entry is taken up to the first violated
constraint (`client_fault_iff`). The handlers' own validation comes before any of this: what it
turns down asks the database for nothing. Of a reschedule the answer says nothing, since its
error is logged and dropped.
-/

namespace ReleaseRadar.Api

open Lib Repository

/-- The status is a success or a fault of the client's. -/
def Fine (r : Reply) : Prop := r.status / 100 = 2 ∨ r.status / 100 = 4

instance (r : Reply) : Decidable (Fine r) := inferInstanceAs (Decidable (_ ∨ _))

theorem fine_of_status {r : Reply} (n : Nat) (hr : r.status = n) (hn : n / 100 = 2 ∨ n / 100 = 4) :
    Fine r := by
  unfold Fine
  rw [hr]
  exact hn

/-! ## Path values -/

/-- The text of a path value, which is octets. What is not UTF-8 is no text: the database refuses
it in every statement as it refuses U+0000, which stands for it here. -/
def pathText (octets : List UInt8) : String :=
  match decodeUtf8 octets with
  | some cs => String.ofList cs
  | none => "\x00"

/-- A path value can be sent when it is UTF-8 without U+0000. -/
theorem hasNul_pathText_iff (octets : List UInt8) :
    hasNul (pathText octets) = false ↔ ∃ cs, decodeUtf8 octets = some cs ∧ '\x00' ∉ cs := by
  unfold pathText
  cases decodeUtf8 octets with
  | none => exact iff_of_false (by decide) fun ⟨_, h, _⟩ => nomatch h
  | some cs =>
    have hnul : hasNul (String.ofList cs) = false ↔ '\x00' ∉ cs := by
      simp only [hasNul, String.toList_ofList, List.any_eq_false, beq_iff_eq]
      exact ⟨fun h hmem => h _ hmem rfl, fun h c hc he => h (he ▸ hc)⟩
    rw [hnul]
    exact ⟨fun h => ⟨cs, rfl, h⟩, fun ⟨_, he, h⟩ => Option.some.inj he ▸ h⟩

/-! ## The answer to a refusal -/

/-- Only what is not sent is a server fault. -/
theorem fine_writeErr {c : Check} {e : Err} (h : c.refusal = some e) :
    Fine (writeErr e) ↔ c.unsendable = false := by
  cases c with
  | text params =>
    cases hn : params.any hasNul with
    | false => simp [Check.refusal, hn] at h
    | true =>
      obtain rfl : Err.pg "22021" = e := by simpa [Check.refusal, hn] using h
      exact iff_of_false (by decide) (by simp [Check.unsendable, hn])
  | jsonb texts =>
    cases hn : texts.any hasNul with
    | false => simp [Check.refusal, hn] at h
    | true =>
      obtain rfl : Err.pg untranslatableCharacter = e := by simpa [Check.refusal, hn] using h
      exact iff_of_false (by decide) (by simp [Check.unsendable, hn])
  | int n =>
    cases hn : int4 n with
    | true => simp [Check.refusal, hn] at h
    | false =>
      obtain rfl : Err.other "cannot encode into int4" = e := by simpa [Check.refusal, hn] using h
      exact iff_of_false (by decide) (by simp [Check.unsendable, hn])
  | indexed holds =>
    cases holds with
    | true => simp [Check.refusal] at h
    | false =>
      obtain rfl : Err.pg programLimitExceeded = e := by simpa [Check.refusal] using h
      exact iff_of_false (by decide) (by simp [Check.unsendable])
  | constraint holds violation =>
    cases holds with
    | true => simp [Check.refusal] at h
    | false =>
      obtain rfl : Err.pg violation.code = e := by simpa [Check.refusal] using h
      refine iff_of_true ?_ rfl
      cases violation <;> decide
  | found holds =>
    cases holds with
    | true => simp [Check.refusal] at h
    | false =>
      obtain rfl : Err.notFound = e := by simpa [Check.refusal] using h
      exact iff_of_true (by decide) rfl

theorem sendable_of_none {cs : List Check} (h : refusal cs = none) : sendable cs = true := by
  refine sendable_of_forall fun c hc => ?_
  exact (c.refusal_eq_none.mp (refusal_eq_none.mp h c hc)).1

/-- The first check that is not met decides. -/
theorem fine_refusal {cs : List Check} {e : Err} (h : refusal cs = some e) :
    Fine (writeErr e) ↔ sendable cs = true := by
  induction cs with
  | nil => cases h
  | cons c cs ih =>
    rw [refusal_cons] at h
    cases hc : c.refusal with
    | none =>
      obtain ⟨hsend, hholds⟩ := c.refusal_eq_none.mp hc
      rw [hc, Option.none_or] at h
      simp only [sendable, hsend, hholds, Bool.not_false, Bool.true_and, Bool.false_or, ih h]
    | some e' =>
      obtain rfl : e' = e := by simpa [hc] using h
      rw [fine_writeErr hc]
      cases hsend : c.unsendable with
      | true => simp [sendable, hsend]
      | false =>
        have hviolated : c.violated = true := by
          by_contra hno
          have := c.refusal_eq_none.mpr ⟨hsend, Bool.not_eq_true _ ▸ hno⟩
          rw [hc] at this
          cases this
        simp [sendable, hsend, hviolated]

/-- A handler whose failure can be told in advance. -/
theorem fine_serve {m : Repo Reply} {cs : List Check} {s : Store}
    (hm : Db.Foreseen (· = s) m (refusal cs) fun r _ => Fine r) :
    Fine (serve m Db.noFaults ⟨s, 0⟩).1 ↔ sendable cs = true := by
  have hclean : Db.Clean (Db.noFaults : Faults Err) (⟨s, 0⟩ : Conn Store) := fun _ _ => rfl
  unfold serve
  cases hcs : refusal cs with
  | none =>
    rw [hcs] at hm
    obtain ⟨r, c', hr, -, hfine⟩ := hm Db.noFaults ⟨s, 0⟩ hclean rfl
    rw [hr]
    exact iff_of_true hfine (sendable_of_none hcs)
  | some e =>
    rw [hcs] at hm
    obtain ⟨c', hr⟩ := hm Db.noFaults ⟨s, 0⟩ hclean rfl
    rw [hr]
    exact fine_refusal hcs

/-! ## Requests -/

/-- A write of an admin, its path values as octets and its body decoded. -/
inductive WriteRequest
  | createRollout (env : Env) (sess : Session) (ro : Rollout)
  | updateRollout (env : Env) (id : List UInt8) (ro : Rollout)
  | updateTask (env : Env) (sess : Session) (id seq : List UInt8) (body : TaskBody)
  | createLock (env : Env) (sess : Session) (zones : LockZones) (l : Lock)
  | updateLock (id : List UInt8) (zones : LockZones) (l : Lock)
  | upsertProduct (env : Env) (p : Product)
  | upsertRolloutType (env : Env) (t : RolloutType)

namespace WriteRequest

section

variable [Indexes]

def handler : WriteRequest → Repo Reply
  | createRollout env sess ro => Api.createRollout env sess (some ro)
  | updateRollout env id ro => Api.updateRollout env (pathText id) (some ro)
  | updateTask env sess id seq body =>
    Api.updateTask env sess (pathText id) (pathText seq) (some body)
  | createLock env sess zones l => Api.createLock env sess zones (some l)
  | updateLock id zones l => Api.updateLock (pathText id) zones (some l)
  | upsertProduct env p => Api.upsertProduct env (some p)
  | upsertRolloutType env t => Api.upsertRolloutType env (some t)

/-- What the database is asked for, in order. -/
def checks (s : Store) : WriteRequest → List Check
  | createRollout env sess ro => createRolloutChecks s (createInput env sess ro)
  | updateRollout _ id ro => updateRolloutChecks s { ro with id := pathText id }
  | updateTask _ sess id seq body =>
    match atoi (pathText seq) with
    | none => []
    | some n =>
      if body.status ≠ "" ∧ body.status ≠ "done" ∧ body.status ≠ "failed" then []
      else updateTaskChecks s (pathText id) n body.status body.reason sess.id
  | createLock env sess _ l =>
    match normalizeAndValidateLock l with
    | .error _ => []
    | .ok l => createLockChecks s (LockRequest.newLock env sess l)
  | updateLock id _ l =>
    match normalizeAndValidateLock l with
    | .error _ => []
    | .ok l => updateLockChecks s { l with id := pathText id }
  | upsertProduct env p =>
    productChecks s { p with id := if p.id = "" then slug env p.name else p.id }
  | upsertRolloutType env t =>
    rolloutTypeChecks s { t with id := if t.id = "" then slug env t.name else t.id }

section Handlers

variable {env : Env} {s : Store} {id : String} {cs : List Check}

/-- Once the write is in, the rollout is read back and the answer is given. -/
theorem foreseen_writeAndSchedule {write : Repo Unit} {answer : Rollout → Reply}
    {old : String → Bool} (hwrite : Db.Foreseen (· = s) write (refusal cs) fun _ =>
      Working s id old)
    (hid : refusal cs = none → hasNul id = false) (hanswer : ∀ out, Fine (answer out)) :
    Db.Foreseen (· = s) (writeAndSchedule env write id answer) (refusal cs) fun r _ => Fine r := by
  refine hwrite.andThen fun hcs _ F c hF hc => ?_
  obtain ⟨r, hr, hread⟩ := rollout_clean (fun k _ => hF (c.calls + k) (by omega)) (hid hcs) hc.there
  have hF' : Db.Clean F (⟨c.store, c.calls + 4⟩ : Conn Store) :=
    fun k hk => hF k (by have : c.calls + 4 ≤ k := hk; omega)
  obtain ⟨u, c', hsched, hF'', -⟩ := total_rescheduleNotifications (hid hcs)
    (scheduleItems env.clock (hydrated c.store r).stages.items) F _ hF' hc.there
  refine ⟨answer (hydrated c.store r), c', ?_, hF'', hanswer _⟩
  have hout : (hydrated c.store r).id = id := hr
  simp only [scheduleNotifications, Db.bind_def, hread, Db.attempt, hout, hsched, Db.pure_def]

theorem foreseen_handler (q : WriteRequest) (s : Store) :
    Db.Foreseen (· = s) q.handler (refusal (q.checks s)) fun r _ => Fine r := by
  have done : ∀ {P : Store → Prop} {r : Reply} (n : Nat), r.status = n → n / 100 = 2 ∨ n / 100 = 4 →
      Db.Total P (pure r : Repo Reply) fun r _ => Fine r :=
    fun n hr hn => Db.total_pure fun _ _ => fine_of_status n hr hn
  have turnedDown : ∀ {P : Store → Prop} {r : Reply}, r.status = 400 →
      Db.Foreseen P (pure r : Repo Reply) (refusal []) fun r _ => Fine r :=
    fun hr => done 400 hr (by decide)
  cases q with
  | createRollout env sess ro =>
    simp only [handler, checks, createRollout_eq]
    refine foreseen_writeAndSchedule (foreseen_createRolloutCommit _ _)
      createRolloutChecks_id fun _ => ?_
    exact fine_of_status 201 rfl (by decide)
  | updateRollout env id ro =>
    simp only [handler, checks, updateRollout_eq]
    refine foreseen_writeAndSchedule (foreseen_updateRolloutTx _ _)
      updateRolloutChecks_id fun _ => ?_
    exact fine_of_status 200 rfl (by decide)
  | updateTask env sess id seq body =>
    simp only [handler, checks, Api.updateTask, decoded]
    cases atoi (pathText seq) with
    | none => exact turnedDown rfl
    | some n =>
      simp only
      split
      · exact turnedDown rfl
      · exact (foreseen_updateRolloutTask _ _ _ _ _).andThen fun _ _ => done 204 rfl (by decide)
  | createLock env sess zones l =>
    simp only [handler, checks]
    cases hl : normalizeAndValidateLock l with
    | error msg =>
      rw [LockRequest.createLock_invalid hl]
      exact turnedDown rfl
    | ok l' =>
      rw [LockRequest.createLock_valid hl]
      exact (foreseen_createLock _ _).andThen fun _ _ => done 201 rfl (by decide)
  | updateLock id zones l =>
    simp only [handler, checks]
    cases hl : normalizeAndValidateLock l with
    | error msg =>
      rw [LockRequest.updateLock_invalid hl]
      exact turnedDown rfl
    | ok l' =>
      rw [LockRequest.updateLock_valid hl]
      exact (foreseen_updateLock _).andThen fun _ _ => done 200 rfl (by decide)
  | upsertProduct env p =>
    exact (foreseen_upsertProduct _).andThen fun _ _ => done 200 rfl (by decide)
  | upsertRolloutType env t =>
    exact (foreseen_upsertRolloutType _).andThen fun _ _ => done 200 rfl (by decide)

end Handlers

/-- **A write is never a server fault** exactly when every parameter can be sent and every index
entry is taken, up to the first violated constraint. -/
theorem client_fault_iff (q : WriteRequest) (s : Store) :
    Fine (serve q.handler Db.noFaults ⟨s, 0⟩).1 ↔ sendable (q.checks s) = true :=
  fine_serve (foreseen_handler q s)

end

private def anyEnv : Env := ⟨0, 0, "01234567", Char.toUpper, Char.toLower, fun _ => 0⟩

private def editor : Session := ⟨"eve", "eve@example.com", "Eve", roleAdmin, none, 0⟩

/-- **U+0000 in a title**, **a task number beyond `INT`** and **a path value that is not UTF-8**
are answered with 500. -/
theorem bad_input_server_fault :
    ¬Fine (serve (createLock anyEnv editor ⟨0, 0, 0⟩ ⟨"", "a\x00b", "", "", 0, hour, none, "", "",
        0⟩).handler Db.noFaults ⟨Store.empty, 0⟩).1 ∧
      ¬Fine (serve (updateTask anyEnv editor (encodeUtf8 "r1".toList)
        (encodeUtf8 "3000000000".toList) ⟨"", ""⟩).handler Db.noFaults ⟨Store.empty, 0⟩).1 ∧
      ¬Fine (serve
        (updateRollout anyEnv [0xFF] ⟨"", "", "", "Fix", "", "", "", none, none, none, 0, 0,
        ""⟩).handler Db.noFaults ⟨Store.empty, 0⟩).1 := by
  refine ⟨by decide, by decide, by decide⟩

end WriteRequest

end ReleaseRadar.Api
