import ReleaseRadar.Store.References

/-!
# What the store says of a row that is not there

`UpdateRollout`, `DeleteRollout`, `UpdateLock` and `DeleteLock` ask how many rows their
statement has hit and return `ErrNotFound` for none. Each succeeds only when its target is
there, and without it leaves the store as it was (`Reports`). `UpdateRolloutTask` does not
ask.
-/

namespace ReleaseRadar

open Lib

namespace Repository

/-- An operation that succeeds only when its target is there, and without it leaves the
store as it was. -/
structure Reports {α : Type} (m : Repo α) (found : Store → Bool) (F : Faults Err) (c : Conn Store) :
    Prop where
  ok : ∀ a c', m F c = (.ok a, c') → found c.store = true
  absent : ∀ e c', found c.store = false → m F c = (.error e, c') → c'.store = c.store

section Operations

variable {F : Faults Err} {c : Conn Store}

/-- `UPDATE locks SET ... WHERE id = $1`, in one row. -/
def updatedLock (l : Lock) (r : LockRow) : LockRow :=
  if r.id = l.id then
    { r with
      title := l.title
      description := l.description
      contact := l.contact
      startAt := pgTimestamp l.startAt
      endAt := pgTimestamp l.endAt
      products := l.products.items
      kind := l.kind }
  else r

/-- The effect of `UpdateLock`. -/
def applyLock (l : Lock) (s : Store) : Store := { s with locks := s.locks.map (updatedLock l) }

/-- The statement of `UpdateLock`: the kind is checked only when there is a row to write
it to. -/
theorem lock_statement {l : Lock} {s s' : Store} {affected : Bool}
    (h : (do
      if s.hasLock l.id then
        constraint (lockKinds.contains l.kind) checkViolation
      pure (s.hasLock l.id, applyLock l s) : Except Err (Bool × Store)) = .ok (affected, s')) :
    s.hasLock l.id = affected ∧ applyLock l s = s' := by
  cases hlock : s.hasLock l.id with
  | false =>
    simp only [hlock, Bool.false_eq_true, if_false] at h
    exact Prod.mk.inj (Except.ok.inj h)
  | true =>
    simp only [hlock, if_true] at h
    obtain ⟨-, h⟩ := constraint_bind_ok h
    exact Prod.mk.inj (Except.ok.inj h)

/-- An update that succeeded had its lock. -/
theorem updateLock_ok {l l' : Lock} {c' : Conn Store} (h : updateLock l F c = (.ok l', c')) :
    c.store.hasLock l.id = true ∧ c'.store = applyLock l c.store := by
  obtain ⟨hhas, hstore⟩ := lock_statement (l := { l with products := some l.products.items })
    (affected_ok h).2
  exact ⟨hhas, hstore.symm⟩

/-- No row of that id. -/
theorem applyLock_absent {l : Lock} {s : Store} (h : s.hasLock l.id = false) :
    applyLock l s = s := by
  have hrows : s.locks.map (updatedLock l) = s.locks := by
    refine (List.map_congr_left fun r hr => ?_).trans (List.map_id _)
    unfold Store.hasLock at h
    rw [List.any_eq_false] at h
    exact if_neg (by simpa using h r hr)
  unfold applyLock
  rw [hrows]

/-- A failed update has changed nothing. -/
theorem updateLock_error {l : Lock} {e : Err} {c' : Conn Store}
    (h : updateLock l F c = (.error e, c')) : c'.store = c.store := by
  rcases affected_error h with hsame | hmissed
  · exact hsame
  · obtain ⟨hhas, hstore⟩ :=
      lock_statement (l := { l with products := some l.products.items }) hmissed
    rw [← hstore]
    exact applyLock_absent (l := { l with products := some l.products.items }) hhas

/-- `UpdateLock` reports an absent lock. -/
theorem reports_updateLock (l : Lock) : Reports (updateLock l) (·.hasLock l.id) F c where
  ok _ _ h := (updateLock_ok h).1
  absent _ _ _ h := updateLock_error h

/-- `DeleteLock` does. -/
theorem reports_deleteLock (id : String) : Reports (deleteLock id) (·.hasLock id) F c where
  ok _ _ h := congrArg Prod.fst (Except.ok.inj (affected_ok h).2)
  absent _ c' habsent h := by
    rcases affected_error h with hsame | hmissed
    · exact hsame
    · have hstore : { c.store with locks := c.store.locks.filter fun r => !(r.id == id) }
        = c'.store :=
        congrArg Prod.snd (Except.ok.inj hmissed)
      have hrows : c.store.locks.filter (fun r => !(r.id == id)) = c.store.locks := by
        rw [List.filter_eq_self]
        intro r hr
        unfold Store.hasLock at habsent
        rw [List.any_eq_false] at habsent
        simpa using habsent r hr
      rw [← hstore, hrows]

/-- `DeleteRollout` reports an absent rollout. -/
theorem reports_deleteRollout (hrefs : c.store.References) (id : String) :
    Reports (deleteRollout id) (·.hasRollout id) F c where
  ok _ _ h := congrArg Prod.fst (Except.ok.inj (affected_ok h).2)
  absent _ c' habsent h := by
    rcases affected_error h with hsame | hmissed
    · exact hsame
    · have hstore : applyDelete id c.store = c'.store := congrArg Prod.snd (Except.ok.inj hmissed)
      rw [← hstore]
      exact applyDelete_absent hrefs habsent

/-- `UpdateRollout` does. -/
theorem reports_updateRollout (now : Int) (ro : Rollout) :
    Reports (updateRollout now ro) (·.hasRollout ro.id) F c where
  ok _ _ h := by
    obtain ⟨_, c₁, htx, -⟩ := Db.bind_ok h
    exact (updateRolloutTx_ok htx).1
  absent e c' habsent h := by
    unfold updateRollout at h
    rw [Db.bind_def] at h
    split at h
    · next htx =>
      rw [(updateRolloutTx_ok htx).1] at habsent
      cases habsent
    · next htx =>
      obtain rfl := congrArg Prod.snd h
      exact updateRolloutTx_error htx

end Operations

end Repository

end ReleaseRadar
