import ReleaseRadar.Api.RolloutWrite
import ReleaseRadar.Lib.Machine
import ReleaseRadar.Store.MasterData

/-!
# New products and rollout types

The editor posts a new product or type without an id. The handler makes one of the name,
with the blanks replaced and in lower case, and the statement behind it is an upsert: two
names with one slug are one row, and the later request writes over what the earlier one
has created, a type's task list included. (A new rollout or lock gets a fresh id and a plain
insert.) A request creates, and leaves everything else as it was, exactly when its slug is
not yet an id (`creates_iff`).
-/

namespace ReleaseRadar.Api

open Lib Repository

/-- A request of the editor's "new" flow: its body has no id. -/
inductive NewRequest
  | product (env : Env) (p : Product) (hid : p.id = "")
  | rolloutType (env : Env) (t : RolloutType) (hid : t.id = "")

namespace NewRequest

def handler : NewRequest → Repo Reply
  | product env p _ => Api.upsertProduct env (some p)
  | rolloutType env t _ => Api.upsertRolloutType env (some t)

/-- The product or type that is stored, under its slug. -/
def slugged : NewRequest → Product ⊕ RolloutType
  | product env p _ => .inl { p with id := slug env p.name }
  | rolloutType env t _ => .inr { t with id := slug env t.name }

/-- The slug is an id of the table already. -/
def taken (s : Store) (q : NewRequest) : Bool :=
  match q.slugged with
  | .inl p => s.hasProduct p.id
  | .inr t => s.hasRolloutType t.id

/-- The database takes the row. -/
def Fits (q : NewRequest) : Prop :=
  match q.slugged with
  | .inl p => ProductFits p
  | .inr t => RolloutTypeFits t

/-- The table has one row more, under an id that was not in use. -/
def Added {ρ : Type} (key : ρ → String) (before after : List ρ) : Prop :=
  ∃ row, after = before ++ [row] ∧ before.any (fun r => key r == key row) = false

/-- The request has added its row, and what was there is as it was. -/
structure Creates (q : NewRequest) (s s' : Store) : Prop where
  added :
    match q.slugged with
    | .inl _ => Added (·.id) s.products s'.products
    | .inr _ => Added (·.id) s.rolloutTypes s'.rolloutTypes
  products : ∀ r ∈ s.products, r ∈ s'.products
  types : ∀ r ∈ s.rolloutTypes, r ∈ s'.rolloutTypes
  tasks : ∀ r ∈ s.rolloutTypes, typeTasksOf s' r.id = typeTasksOf s r.id

section Steps

variable {q : NewRequest} {s : Store} {F : Faults Err}

/-- The effect of the request's upsert. -/
def apply (q : NewRequest) (s : Store) : Store :=
  match q.slugged with
  | .inl p => applyProduct p s
  | .inr t => applyRolloutType t s

/-- The statement of the request, and the answer to its success. -/
def write : NewRequest → Repo Unit × Reply
  | product env p _ =>
    let p := { p with id := slug env p.name }
    (Repository.upsertProduct p, (writeJSON [] 200 p.toJson).after ⟨"product", p.id, "update"⟩)
  | rolloutType env t _ =>
    let t := { t with id := slug env t.name }
    (Repository.upsertRolloutType t,
      (writeJSON [] 200 t.toJson).after ⟨"rollout-type", t.id, "update"⟩)

theorem handler_eq (q : NewRequest) : q.handler = q.write.1 >>= fun _ => pure q.write.2 := by
  cases q with
  | product env p hid => simp only [handler, Api.upsertProduct, decoded, hid, if_true, write]
  | rolloutType env t hid =>
    simp only [handler, Api.upsertRolloutType, decoded, hid, if_true, write]

theorem status_write (q : NewRequest) : q.write.2.status = 200 := by
  cases q <;> rfl

theorem write_ok {c c' : Conn Store} (h : q.write.1 F c = (.ok (), c')) :
    q.Fits ∧ c'.store = q.apply c.store := by
  cases q with
  | product env p hid => exact upsertProduct_ok h
  | rolloutType env t hid => exact upsertRolloutType_ok h

theorem write_error {c c' : Conn Store} {e : Err} (h : q.write.1 F c = (.error e, c')) :
    c'.store = c.store := by
  cases q with
  | product env p hid => exact upsertProduct_error h
  | rolloutType env t hid => exact Db.tx_error_store h

/-- Nothing but the database is in the way. -/
theorem total_write (hq : q.Fits) : Db.Total (fun _ => True) q.write.1 fun _ _ => True := by
  cases q with
  | product env p hid => exact total_upsertProduct hq
  | rolloutType env t hid => exact total_upsertRolloutType hq

/-- **How a request ends**: what it asks for is done, or nothing is. -/
theorem serve_handler (q : NewRequest) (F : Faults Err) (s : Store) :
    ((serve q.handler F ⟨s, 0⟩).1.status = 200 ∧ q.Fits ∧
        (serve q.handler F ⟨s, 0⟩).2.store = q.apply s) ∨
      ((serve q.handler F ⟨s, 0⟩).1.status ≠ 200 ∧ (serve q.handler F ⟨s, 0⟩).2.store = s) := by
  unfold serve
  rw [handler_eq, Db.bind_def]
  match hr : q.write.1 F ⟨s, 0⟩ with
  | (.ok (), c') => exact Or.inl ⟨q.status_write, write_ok hr⟩
  | (.error e, c') =>
    exact Or.inr ⟨writeErr_ne e (by decide), write_error hr⟩

theorem serve_fits (hq : q.Fits) : (serve q.handler Db.noFaults ⟨s, 0⟩).1.status = 200 := by
  obtain ⟨u, c', hr, -⟩ := total_write hq Db.noFaults ⟨s, 0⟩ (fun _ _ => rfl) trivial
  unfold serve
  rw [handler_eq, Db.bind_def, hr]
  exact q.status_write

/-- A row that is new is added, and one that is not takes a place. -/
theorem added_upsertRow_iff {ρ : Type} {key : ρ → String} {row : ρ} {rows : List ρ} :
    Added key rows (upsertRow key row rows) ↔ rows.any (fun r => key r == key row) = false := by
  cases htaken : rows.any fun r => key r == key row with
  | false => exact iff_of_true ⟨row, upsertRow_of_fresh htaken, htaken⟩ rfl
  | true =>
    refine iff_of_false ?_ (by simp)
    rintro ⟨new, hnew, -⟩
    have hlength := congrArg List.length hnew
    rw [length_upsertRow htaken, List.length_append, List.length_singleton] at hlength
    omega

theorem mem_upsertRow_of_fresh {ρ : Type} {key : ρ → String} {row r : ρ} {rows : List ρ}
    (hfresh : rows.any (fun r => key r == key row) = false) (hr : r ∈ rows) :
    r ∈ upsertRow key row rows := by
  rw [upsertRow_of_fresh hfresh]
  exact List.mem_append_left _ hr

/-- **What is stored is new** exactly when the slug is. -/
theorem creates_apply_iff : q.Creates s (q.apply s) ↔ q.taken s = false := by
  cases q with
  | product env p hid =>
    refine ⟨fun h => added_upsertRow_iff.mp h.added, fun hfresh => ?_⟩
    exact ⟨added_upsertRow_iff.mpr hfresh, fun r hr => mem_upsertRow_of_fresh hfresh hr,
      fun r hr => hr, fun r _ => rfl⟩
  | rolloutType env t hid =>
    refine ⟨fun h => added_upsertRow_iff.mp h.added, fun hfresh => ?_⟩
    refine ⟨added_upsertRow_iff.mpr hfresh, fun r hr => hr,
      fun r hr => mem_upsertRow_of_fresh hfresh hr, fun r hr => ?_⟩
    -- the task list that is replaced is the new type's
    refine typeTasksOf_applyRolloutType_ne _ s fun hid => ?_
    have hused := List.any_eq_false.mp hfresh r hr
    exact hused (beq_iff_eq.mpr hid)

end Steps

/-! ## Runs -/

/-- The server under these requests, each with the calls of it that fail. -/
def creations : Machine Store (NewRequest × Faults Err) :=
  ⟨fun s a => some (serve a.1.handler a.2 ⟨s, 0⟩).2.store⟩

/-- The law: a request that succeeds creates, and one that fails changes nothing. -/
def OnlyCreates (s : Store) (a : NewRequest × Faults Err) : Prop :=
  let res := serve a.1.handler a.2 ⟨s, 0⟩
  (res.1.status = 200 → a.1.Creates s res.2.store) ∧ (res.1.status ≠ 200 → res.2.store = s)

/-- The slug is not an id yet, or the database does not take the row. -/
def Fresh (s : Store) (a : NewRequest × Faults Err) : Prop := a.1.Fits → a.1.taken s = false

theorem onlyCreates_of_fresh {s : Store} {a : NewRequest × Faults Err} (h : Fresh s a) :
    OnlyCreates s a := by
  rcases serve_handler a.1 a.2 s with ⟨hok, hfits, hstore⟩ | ⟨hno, hstore⟩
  · refine ⟨fun _ => ?_, fun hno => absurd hok hno⟩
    rw [hstore]
    exact creates_apply_iff.mpr (h hfits)
  · exact ⟨fun hok => absurd hok hno, fun _ => hstore⟩

theorem fresh_of_onlyCreates {s : Store} {a : NewRequest × Faults Err} (hF : a.2 = Db.noFaults)
    (h : OnlyCreates s a) : Fresh s a := by
  intro hfits
  have hok := serve_fits (s := s) hfits
  rw [← hF] at hok
  rcases serve_handler a.1 a.2 s with ⟨-, -, hstore⟩ | ⟨hno, -⟩
  · have hcreates := h.1 hok
    rw [hstore] at hcreates
    exact creates_apply_iff.mp hcreates
  · exact absurd hok hno

/-- **Creating never overwrites** along the runs whose slugs are new, whatever fails; where
nothing fails on its own, along no others. -/
theorem creates_iff (s : Store) (qs : List (NewRequest × Faults Err)) :
    (creations.Along Fresh s qs → creations.Along OnlyCreates s qs) ∧
      ((∀ a ∈ qs, a.2 = Db.noFaults) →
        creations.Along OnlyCreates s qs → creations.Along Fresh s qs) :=
  ⟨creations.along_imp fun _ _ _ => onlyCreates_of_fresh,
    fun hF => creations.along_imp fun a ha _ => fresh_of_onlyCreates (hF a ha)⟩

private def asciiEnv : Env := ⟨0, 0, "01234567", Char.toUpper, Char.toLower, fun _ => 0⟩

private def named (name : String) (brokers : List String) : NewRequest :=
  .product asciiEnv ⟨"", name, "", some brokers⟩ rfl

/-- Two products whose names are told apart by their slugs. -/
theorem creates_iff_named :
    creations.Along OnlyCreates Store.empty
      [(named "Foo Bar" [], Db.noFaults), (named "Foo Baz" [], Db.noFaults)] :=
  (creates_iff _ _).1 ⟨fun _ => by decide, fun _ => by decide, trivial⟩

/-- **"foo-bar" is written over "Foo Bar"**: one slug, one row. -/
theorem slug_overwrites :
    ¬creations.Along OnlyCreates Store.empty
      [(named "Foo Bar" ["kafka"], Db.noFaults), (named "foo-bar" [], Db.noFaults)] := by
  intro h
  have hsecond :=
    (creations.along_cons_some (creations.along_cons_some h rfl).2 rfl).1.1 (by decide)
  have hkept := hsecond.products ⟨"foo-bar", "Foo Bar", some "", ["kafka"]⟩ (by decide)
  exact absurd hkept (by decide)

end NewRequest

end ReleaseRadar.Api
