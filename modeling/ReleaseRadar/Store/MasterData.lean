import ReleaseRadar.Store.RolloutSpec

/-!
# What the master data statements do

`UpsertProduct` and `UpsertRolloutType` replace the row of their id or add one
(`upsertRow`); the second also replaces the task list of its type. Each has one
specification: what it asks for, what a success has done, and that nothing else is in
the way of a success.
-/

namespace ReleaseRadar

open Lib

/-! ## One row for each id -/

section Upsert

variable {ρ : Type} {key : ρ → String} {row x : ρ} {rows : List ρ}

/-- `INSERT ... ON CONFLICT (id) DO UPDATE`. -/
def upsertRow (key : ρ → String) (row : ρ) (rows : List ρ) : List ρ :=
  if rows.any fun r => key r == key row then rows.map fun r => if key r = key row then row else r
  else rows ++ [row]

/-- A row after an upsert is the new one or another of before. -/
theorem mem_upsertRow (h : x ∈ upsertRow key row rows) : x = row ∨ x ∈ rows ∧ key x ≠ key row := by
  unfold upsertRow at h
  split at h
  · obtain ⟨r, hr, rfl⟩ := List.mem_map.mp h
    by_cases hk : key r = key row
    · exact Or.inl (if_pos hk)
    · rw [if_neg hk]
      exact Or.inr ⟨hr, hk⟩
  · next hnew =>
    rcases List.mem_append.mp h with hold | hlast
    · refine Or.inr ⟨hold, fun hk => hnew ?_⟩
      exact List.any_eq_true.mpr ⟨x, hold, beq_iff_eq.mpr hk⟩
    · exact Or.inl (List.mem_singleton.mp hlast)

/-- The keys stay without duplicates. -/
theorem nodup_upsertRow (h : (rows.map key).Nodup) : ((upsertRow key row rows).map key).Nodup := by
  unfold upsertRow
  split
  · rw [List.map_map]
    have hkeys : (key ∘ fun r => if key r = key row then row else r) = key := by
      funext r
      simp only [Function.comp]
      split
      · next hk => exact hk.symm
      · rfl
    rw [hkeys]
    exact h
  · next hnew =>
    rw [List.map_append]
    refine h.append (List.nodup_singleton _) fun k hk hk' => hnew ?_
    obtain ⟨r, hr, rfl⟩ := List.mem_map.mp hk
    exact List.any_eq_true.mpr ⟨r, hr, beq_iff_eq.mpr (List.mem_singleton.mp hk')⟩

/-- The row of a key that is not in use is a new one. -/
theorem upsertRow_of_fresh (h : rows.any (fun r => key r == key row) = false) :
    upsertRow key row rows = rows ++ [row] := by
  unfold upsertRow
  rw [if_neg (by simp [h])]

/-- The row of a key in use takes a place that is there. -/
theorem length_upsertRow (h : rows.any (fun r => key r == key row) = true) :
    (upsertRow key row rows).length = rows.length := by
  unfold upsertRow
  rw [if_pos h, List.length_map]

/-- Writing a row that is there changes nothing. -/
theorem upsertRow_of_mem (h : (rows.map key).Nodup) (hrow : row ∈ rows) :
    upsertRow key row rows = rows := by
  unfold upsertRow
  have hold : (rows.any fun r => key r == key row) = true :=
    List.any_eq_true.mpr ⟨row, hrow, beq_self_eq_true _⟩
  rw [if_pos hold]
  refine (List.map_congr_left fun r hr => ?_).trans (List.map_id _)
  split
  · next hk => exact (List.inj_on_of_nodup_map h hr hrow hk).symm
  · rfl

/-- The new row is there. -/
theorem mem_upsertRow_self : row ∈ upsertRow key row rows := by
  unfold upsertRow
  split
  · next hold =>
    obtain ⟨r, hr, hk⟩ := List.any_eq_true.mp hold
    exact List.mem_map.mpr ⟨r, hr, if_pos (beq_iff_eq.mp hk)⟩
  · exact List.mem_append_right _ (List.mem_singleton_self row)

end Upsert

namespace Repository

/-! ## Products -/

/-- The row `UpsertProduct` writes. -/
def productRow (p : Product) : ProductRow := ⟨p.id, p.name, some p.owner, p.brokers.items⟩

/-- A product as `Products` reads it. -/
def scanProduct (r : ProductRow) : Product := ⟨r.id, r.name, r.owner.getD "", some r.brokers⟩

def applyProduct (p : Product) (s : Store) : Store :=
  { s with products := upsertRow (·.id) (productRow p) s.products }

/-- What the database asks of a product. -/
structure ProductFits (p : Product) : Prop where
  text : ([p.id, p.name, p.owner] ++ p.brokers.items).any hasNul = false
  brokers : p.brokers.isSome = true

/-- A product that was stored fits its columns. -/
theorem upsertProduct_ok {p : Product} {F : Faults Err} {c c' : Conn Store}
    (h : upsertProduct p F c = (.ok (), c')) :
    ProductFits p ∧ c'.store = applyProduct p c.store := by
  obtain ⟨hbrokers, h₁⟩ := constraint_bind_ok (stmt_ok h)
  obtain ⟨-, h₁⟩ := constraint_bind_ok h₁
  refine ⟨⟨stmt_ok_params h, hbrokers⟩, ?_⟩
  unfold applyProduct upsertRow
  split at h₁
  · next hold =>
    rw [if_pos (show (c.store.products.any fun r => r.id == (productRow p).id) = true from hold)]
    exact (congrArg Prod.snd (Except.ok.inj h₁)).symm
  · next hnew =>
    rw [if_neg (show ¬(c.store.products.any fun r => r.id == (productRow p).id) = true from hnew)]
    exact (congrArg Prod.snd (Except.ok.inj h₁)).symm

/-- A failed upsert has changed nothing. -/
theorem upsertProduct_error {p : Product} {F : Faults Err} {c c' : Conn Store} {e : Err}
    (h : upsertProduct p F c = (.error e, c')) : c'.store = c.store := by
  unfold upsertProduct at h
  exact Db.call_error h

/-- A product that fits is stored where no fault hits. -/
theorem total_upsertProduct {p : Product} (hp : ProductFits p) :
    Db.Total (fun _ => True) (upsertProduct p) fun _ _ => True := by
  refine total_stmt hp.text fun s _ => ?_
  simp only [constraint, hp.brokers, Indexes.holds_roomy, Bool.or_true, if_true, bind, Except.bind,
    pure, Except.pure]
  split <;> exact ⟨(), _, rfl, trivial⟩

/-- Without its brokers a product is refused. -/
theorem upsertProduct_nil {p : Product} (h : p.brokers = none) {F : Faults Err} {c : Conn Store} :
    ∃ e c', upsertProduct p F c = (.error e, c') := by
  cases hr : upsertProduct p F c with
  | mk res c' =>
    cases res with
    | error e => exact ⟨e, c', rfl⟩
    | ok u =>
      have := (upsertProduct_ok hr).1.brokers
      rw [h] at this
      cases this

/-- The products are read by their name. -/
theorem products_ok {F : Faults Err} {c c' : Conn Store} {ps : List Product}
    (h : products F c = (.ok ps, c')) :
    c'.store = c.store ∧ ps = (orderBy (·.name) c.store.products).map scanProduct :=
  checked_select_ok h

theorem total_products {s : Store} :
    Db.Total (· = s) products fun ps t => t = s ∧
      ps = (orderBy (·.name) s.products).map scanProduct :=
  total_checked_select rfl

/-! ## Rollout types -/

/-- The row `UpsertRolloutType` writes. -/
def rolloutTypeRow (t : RolloutType) : RolloutTypeRow :=
  ⟨t.id, t.name, t.short, t.tone, pgInterval t.delayProd1, pgInterval t.delayProd2, t.cascadePlan,
    some t.announce, t.rules.items⟩

def typeTaskRows (id : String) (tasks : List String) : List TypeTaskRow :=
  tasks.zipIdx.map fun d => ⟨id, d.2, d.1⟩

/-- The task list of a type, as a reader gets it. -/
def typeTasksOf (s : Store) (id : String) : List String :=
  (orderBy (·.seq) (s.rolloutTypeTasks.filter fun t => t.typeId == id)).map (·.description)

def applyRolloutType (t : RolloutType) (s : Store) : Store :=
  { s with
    rolloutTypes := upsertRow (·.id) (rolloutTypeRow t) s.rolloutTypes
    rolloutTypeTasks := (s.rolloutTypeTasks.filter fun r => !(r.typeId == t.id))
      ++ typeTaskRows t.id t.tasks.items }

/-- What the database asks of a rollout type. -/
structure RolloutTypeFits (t : RolloutType) : Prop where
  text : ([t.id, t.name, t.short, t.tone, t.announce] ++ t.rules.items).any hasNul = false
  rules : t.rules.isSome = true
  plan : (!t.cascadePlan.items.any fun c => hasNul c.stage) = true
  tone : tones.contains t.tone = true
  tasks : ∀ d ∈ t.tasks.items, hasNul d = false

/-- The row of a type that was stored fits. -/
theorem upsertRolloutTypeRow_ok {t : RolloutType} {F : Faults Err} {c c' : Conn Store}
    (h : upsertRolloutTypeRow t F c = (.ok (), c')) :
    ([t.id, t.name, t.short, t.tone, t.announce] ++ t.rules.items).any hasNul = false ∧
      t.rules.isSome = true ∧ (!t.cascadePlan.items.any fun c => hasNul c.stage) = true ∧
      tones.contains t.tone = true ∧
      c'.store = { c.store with
        rolloutTypes := upsertRow (·.id) (rolloutTypeRow t) c.store.rolloutTypes } := by
  obtain ⟨hplan, h₁⟩ := constraint_bind_ok (stmt_ok h)
  obtain ⟨hrules, h₁⟩ := constraint_bind_ok h₁
  obtain ⟨htone, h₁⟩ := constraint_bind_ok h₁
  obtain ⟨-, h₁⟩ := constraint_bind_ok h₁
  refine ⟨stmt_ok_params h, hrules, hplan, htone, ?_⟩
  unfold upsertRow
  split at h₁
  · next hold =>
    rw [if_pos (show (c.store.rolloutTypes.any fun r => r.id == (rolloutTypeRow t).id) = true
      from hold)]
    exact (congrArg Prod.snd (Except.ok.inj h₁)).symm
  · next hnew =>
    rw [if_neg (show ¬(c.store.rolloutTypes.any fun r => r.id == (rolloutTypeRow t).id) = true
      from hnew)]
    exact (congrArg Prod.snd (Except.ok.inj h₁)).symm

/-- A committed `UpsertRolloutType` asked for what the database asks for, and did exactly
`applyRolloutType`. -/
theorem upsertRolloutType_ok {t : RolloutType} {F : Faults Err} {c c' : Conn Store}
    (h : upsertRolloutType t F c = (.ok (), c')) :
    RolloutTypeFits t ∧ c'.store = applyRolloutType t c.store := by
  obtain ⟨c₁, c₂, hc₁, hbody, hc'⟩ := Db.tx_ok h
  obtain ⟨_, c₃, hrow, hbody⟩ := Db.bind_ok hbody
  obtain ⟨_, c₄, hdel, hins⟩ := Db.bind_ok hbody
  obtain ⟨htext, hrules, hplan, htone, h₃⟩ := upsertRolloutTypeRow_ok hrow
  have h₄ : { c₃.store with
      rolloutTypeTasks := c₃.store.rolloutTypeTasks.filter fun r => !(r.typeId == t.id) } =
        c₄.store := by
    simpa using stmt_ok hdel
  have hinsert : ∀ (d : String × Nat) (e e' : Conn Store),
      (stmt [t.id, d.1] fun s => .ok ((), { s with
        rolloutTypeTasks := s.rolloutTypeTasks ++ [⟨t.id, d.2, d.1⟩] })) F e = (.ok (), e') →
      e'.store = { e.store with
        rolloutTypeTasks := e.store.rolloutTypeTasks ++ [⟨t.id, d.2, d.1⟩] } := by
    intro d e e' hd
    simpa using (stmt_ok hd).symm
  have hall := Db.forEach_ok (fun (s : Store) (d : String × Nat) =>
    { s with rolloutTypeTasks := s.rolloutTypeTasks ++ [⟨t.id, d.2, d.1⟩] }) hinsert hins
  rw [foldl_rows (fun (s : Store) l => { s with rolloutTypeTasks := l }) (·.rolloutTypeTasks) _
    (fun _ _ => rfl) (fun _ _ _ => rfl) (fun _ => rfl)] at hall
  refine ⟨⟨htext, hrules, hplan, htone, fun d hd => ?_⟩, ?_⟩
  · obtain ⟨i, hi⟩ := List.mem_iff_getElem?.mp hd
    obtain ⟨e, e', hstmt⟩ := Db.forEach_ok_each hins (d, i) (List.mem_zipIdx_iff_getElem?.mpr hi)
    have hparams := stmt_ok_params hstmt
    simp only [List.any_cons, Bool.or_eq_false_iff] at hparams
    exact hparams.2.1
  · rw [hc', hall, ← h₄, h₃, hc₁]
    rfl

/-- A type that fits is stored where no fault hits. -/
theorem total_upsertRolloutType {t : RolloutType} (ht : RolloutTypeFits t) :
    Db.Total (fun _ => True) (upsertRolloutType t) fun _ _ => True := by
  have hid : hasNul t.id = false := by
    have := ht.text
    simp only [List.cons_append, List.any_cons, Bool.or_eq_false_iff] at this
    exact this.1
  refine Db.total_tx (Db.total_bind (Q := fun _ _ => True) ?_ fun _ =>
    Db.total_bind (Q := fun _ _ => True) ?_ fun _ => ?_)
  · refine total_stmt ht.text fun s _ => ?_
    simp only [constraint, ht.rules, ht.plan, ht.tone, Indexes.holds_roomy, Bool.or_true,
      if_true, bind,
      Except.bind, pure, Except.pure]
    split <;> exact ⟨(), _, rfl, trivial⟩
  · exact total_stmt (by simp [hid]) fun s _ => ⟨(), _, rfl, trivial⟩
  · refine Db.total_forEach fun d hd => ?_
    have hmem : d.1 ∈ t.tasks.items :=
      List.mem_of_getElem? (List.mem_zipIdx_iff_getElem?.mp hd)
    exact total_stmt (by simp [hid, ht.tasks d.1 hmem]) fun s _ => ⟨(), _, rfl, trivial⟩

/-- The task rows of a type that are written are read back in their order. -/
theorem typeTasksOf_applyRolloutType (t : RolloutType) (s : Store) :
    typeTasksOf (applyRolloutType t s) t.id = t.tasks.items := by
  have hnew : ∀ r ∈ typeTaskRows t.id t.tasks.items, r.typeId = t.id := by
    intro r hr
    obtain ⟨d, -, rfl⟩ := List.mem_map.mp hr
    rfl
  have hsorted : orderBy (·.seq) (typeTaskRows t.id t.tasks.items) =
    typeTaskRows t.id t.tasks.items :=
    orderBy_of_ascending (pairwise_zipIdx TypeTaskRow.seq _ (fun _ => rfl) _)
  unfold typeTasksOf applyRolloutType
  rw [filter_replace TypeTaskRow.typeId t.id hnew, hsorted, typeTaskRows, List.map_map]
  exact List.zipIdx_map_fst 0 _

/-- The tasks of another type stay. -/
theorem typeTasksOf_applyRolloutType_ne {id : String} (t : RolloutType) (s : Store)
    (h : id ≠ t.id) : typeTasksOf (applyRolloutType t s) id = typeTasksOf s id := by
  have hnew : ∀ r ∈ typeTaskRows t.id t.tasks.items, r.typeId = t.id := by
    intro r hr
    obtain ⟨d, -, rfl⟩ := List.mem_map.mp hr
    rfl
  unfold typeTasksOf applyRolloutType
  rw [filter_replace_ne TypeTaskRow.typeId h hnew]

/-- A type as `RolloutTypes` reads it. -/
def readRolloutType (s : Store) (r : RolloutTypeRow) : RolloutType :=
  { scanRolloutType r with tasks := some (typeTasksOf s r.id) }

theorem total_rolloutTypeTasks {id : String} {s : Store} (hid : hasNul id = false) :
    Db.Total (· = s) (rolloutTypeTasks id) fun tasks t => t = s ∧ tasks = typeTasksOf s id :=
  total_checked_select (by simp [hid])

/-- The tasks of a type are read in their order. -/
private theorem rolloutTypeTasks_ok {id : String} {F : Faults Err} {c c' : Conn Store}
    {tasks : List String} (h : rolloutTypeTasks id F c = (.ok tasks, c')) :
    c'.store = c.store ∧ tasks = typeTasksOf c.store id :=
  checked_select_ok h

/-- The types are read by their name, each with its tasks. -/
theorem rolloutTypes_ok {F : Faults Err} {c c' : Conn Store} {ts : List RolloutType}
    (h : rolloutTypes F c = (.ok ts, c')) :
    c'.store = c.store ∧
      ts = (orderBy (·.name) c.store.rolloutTypes).map (readRolloutType c.store) := by
  obtain ⟨rows, c₁, hrows, h⟩ := Db.bind_ok h
  obtain ⟨out, c₂, hout, hts⟩ := Db.bind_ok h
  obtain ⟨rfl, hseen⟩ := Db.checked_ok hts
  have hstore := (select_ok hrows).1
  obtain ⟨hstore₂, hout⟩ := Db.mapEach_ok
    (fun s (t : RolloutType) => { t with tasks := some (typeTasksOf s t.id) }) (by
      intro t c c' t' ht
      obtain ⟨tasks, c₁, htasks, hpure⟩ := Db.bind_ok ht
      obtain ⟨hstore, rfl⟩ := rolloutTypeTasks_ok htasks
      obtain ⟨ht', rfl⟩ := Prod.mk.inj hpure
      exact ⟨hstore, (Except.ok.inj ht').symm⟩) hout
  refine ⟨hstore₂.trans hstore, ?_⟩
  obtain ⟨rfl, herr⟩ : out = ts ∧ rows.err = none := by simpa using hseen
  rw [hout, select_seen hrows herr, List.map_map, hstore]
  rfl

end Repository

end ReleaseRadar
