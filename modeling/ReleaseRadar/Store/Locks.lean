import ReleaseRadar.Store.RowsAffected

/-!
# What the lock statements do

`CreateLock` adds a row and `UpdateLock` writes over one; each asks that the texts can be
stored and that the kind is one of the table's. Each has one specification: what it asks
for, what a success has done and what it returns, and that nothing else is in the way of a
success (`createLock_ok`, `createLock_stored`, and the same for an update). A statement
that fails leaves the store as it was.
-/

namespace ReleaseRadar

open Lib

namespace Repository

/-- The row `INSERT INTO locks` creates. -/
def lockRow (now : Int) (l : Lock) : LockRow :=
  ⟨l.id, l.title, l.description, l.contact, pgTimestamp l.startAt, pgTimestamp l.endAt,
    l.products.items, l.kind, nullIfEmpty l.createdBy, pgTimestamp now⟩

/-- The effect of `CreateLock`. -/
def applyCreateLock (now : Int) (l : Lock) (s : Store) : Store :=
  { s with locks := s.locks ++ [lockRow now l] }

/-- The effect of `DeleteLock`. -/
def applyDeleteLock (id : String) (s : Store) : Store :=
  { s with locks := s.locks.filter fun r => !(r.id == id) }

/-- A lock as `CreateLock` and `UpdateLock` return it: `nil` products are made `[]`. -/
def echoedLock (l : Lock) : Lock := { l with products := some l.products.items }

/-- A lock that a row of `locks` can hold. -/
structure LockFits (l : Lock) : Prop where
  text : ([l.id, l.title, l.description, l.contact, l.kind] ++ l.products.items).any hasNul = false
  kind : lockKinds.contains l.kind = true

/-- A lock that can become a row. -/
structure NewLockFits (s : Store) (l : Lock) : Prop extends LockFits l where
  creatorText : hasNul l.createdBy = false
  fresh : s.hasLock l.id = false
  creator : s.actorRef (nullIfEmpty l.createdBy) = true

instance (l : Lock) : Decidable (LockFits l) :=
  decidable_of_iff
    (([l.id, l.title, l.description, l.contact, l.kind] ++ l.products.items).any hasNul = false ∧
      lockKinds.contains l.kind = true)
    ⟨fun h => ⟨h.1, h.2⟩, fun h => ⟨h.text, h.kind⟩⟩

instance (s : Store) (l : Lock) : Decidable (NewLockFits s l) :=
  decidable_of_iff
    (LockFits l ∧ hasNul l.createdBy = false ∧ s.hasLock l.id = false ∧
      s.actorRef (nullIfEmpty l.createdBy) = true)
    ⟨fun h => ⟨h.1, h.2.1, h.2.2.1, h.2.2.2⟩,
      fun h => ⟨h.toLockFits, h.creatorText, h.fresh, h.creator⟩⟩

section Operations

variable {F : Faults Err} {c c' : Conn Store} {now : Int} {l out : Lock}

/-- The parameters of `CreateLock` are the texts of the row and its creator. -/
theorem newLock_text :
    ([l.id, l.title, l.description, l.contact, l.kind, l.createdBy] ++
      l.products.items).any hasNul =
        false ↔
      ([l.id, l.title, l.description, l.contact, l.kind] ++ l.products.items).any hasNul = false ∧
        hasNul l.createdBy = false := by
  simp only [List.any_append, List.any_cons, List.any_nil, Bool.or_eq_false_iff, Bool.or_false]
  tauto

/-- A lock that was created fits, is echoed, and is in the table. -/
theorem createLock_ok (h : createLock now l F c = (.ok out, c')) :
    F c.calls = none ∧ NewLockFits c.store l ∧ out = echoedLock l ∧
      c'.store = applyCreateLock now l c.store := by
  obtain ⟨_, c₁, hst, hret⟩ := Db.bind_ok h
  obtain ⟨hout, rfl⟩ := Prod.mk.inj hret
  obtain ⟨htext, hcreator⟩ := newLock_text.mp (stmt_ok_params hst)
  have hins := stmt_ok hst
  obtain ⟨hkind, hins⟩ := constraint_bind_ok hins
  obtain ⟨hfresh, hins⟩ := constraint_bind_ok hins
  obtain ⟨-, hins⟩ := constraint_bind_ok hins
  obtain ⟨hactor, hins⟩ := constraint_bind_ok hins
  have hstore : applyCreateLock now l c.store = c₁.store := congrArg Prod.snd (Except.ok.inj hins)
  exact ⟨Db.call_ok_faults hst, ⟨⟨htext, hkind⟩, hcreator, by simpa using hfresh, hactor⟩,
    (Except.ok.inj hout).symm, hstore.symm⟩

/-- Nothing else is in the way of a new lock. -/
theorem createLock_stored (hF : F c.calls = none) (hl : NewLockFits c.store l) :
    createLock now l F c = (.ok (echoedLock l), ⟨applyCreateLock now l c.store, c.calls + 1⟩) := by
  have htext := newLock_text.mpr ⟨hl.text, hl.creatorText⟩
  unfold createLock stmt
  simp only [Slice.items_some, htext, Db.bind_def, Db.call, hF, hl.kind, hl.fresh, hl.creator,
    constraint]
  rfl

/-- A failed create has changed nothing. -/
theorem createLock_error {e : Err} (h : createLock now l F c = (.error e, c')) :
    c'.store = c.store := by
  unfold createLock at h
  rw [Db.bind_def] at h
  split at h
  · cases (Prod.mk.inj h).1
  · next hst =>
    obtain rfl := congrArg Prod.snd h
    exact Db.call_error hst

/-- An update that fits and has its lock is stored. -/
theorem updateLock_stored (hF : F c.calls = none) (hl : LockFits l)
    (hhas : c.store.hasLock l.id = true) :
    updateLock l F c = (.ok (echoedLock l), ⟨applyLock l c.store, c.calls + 1⟩) := by
  unfold updateLock stmt
  simp only [Slice.items_some, hl.text, Db.bind_def, Db.call, hF, hl.kind, hhas, constraint]
  rfl

/-- An update that was stored fits. -/
theorem updateLock_ok_fits (h : updateLock l F c = (.ok out, c')) :
    F c.calls = none ∧ LockFits l ∧ out = echoedLock l := by
  obtain ⟨hout, hst⟩ := affected_ok h
  obtain ⟨affected, c₁, hcall, -⟩ := Db.bind_ok h
  have hhas := (updateLock_ok h).1
  refine ⟨Db.call_ok_faults hcall, ⟨stmt_ok_params hcall, ?_⟩, hout⟩
  have hhas' : c.store.hasLock ({ l with products := some l.products.items } : Lock).id =
    true := hhas
  simp only [hhas', if_true] at hst
  exact (constraint_bind_ok hst).1

/-- A delete that succeeded had its lock. -/
theorem deleteLock_ok {id : String} {u : Unit} (h : deleteLock id F c = (.ok u, c')) :
    c.store.hasLock id = true ∧ c'.store = applyDeleteLock id c.store := by
  obtain ⟨hhas, hstore⟩ := Prod.mk.inj (Except.ok.inj (affected_ok h).2)
  exact ⟨hhas, hstore.symm⟩

theorem deleteLock_error {id : String} {e : Err} (h : deleteLock id F c = (.error e, c')) :
    c'.store = c.store ∨ c.store.hasLock id = false ∧ c'.store = applyDeleteLock id c.store := by
  refine (affected_error h).imp_right fun hmissed => ?_
  obtain ⟨hhas, hstore⟩ := Prod.mk.inj (Except.ok.inj hmissed)
  exact ⟨hhas, hstore.symm⟩

theorem total_locks {s : Store} :
    Db.Total (· = s) locks fun ls t => t = s ∧ ls = (orderBy (·.startAt) s.locks).map scanLock :=
  total_checked_select rfl

end Operations

end Repository

end ReleaseRadar
