import ReleaseRadar.Store.Repository

/-!
# What the rollout statements do

One specification per repository function, so that no later proof unfolds one:

* `createRolloutTx_ok`, `updateRolloutTx_ok` — a transaction that commits has
  applied `applyCreate` / `applyUpdate`, and one that does not has changed
  nothing (`Db.tx_error_store`);
* `rollout_ok` — reading a rollout back changes nothing;
* `stagesOf_applyUpdate`, `stagesOf_applyCreate` — afterwards the stages are the
  given ones at database resolution, and those of every other rollout are as
  before.
-/

namespace ReleaseRadar

open Lib

namespace Repository

/-! ## Effects -/

/-- A stage as the database gives it back. -/
def storedStage (st : RolloutStage) : RolloutStage :=
  { st with startAt := pgTimestamp st.startAt, duration := pgInterval st.duration }

/-- A task of the body as it is read back: at its place in the list, an out-of-range status
as pending, its log as it came. -/
def storedTask (t : RolloutTask × Nat) : RolloutTask :=
  { t.1 with
    index := t.2
    status := clampStatus t.1.status
    at_ := t.1.at_.map pgTimestamp }

/-- The stage list of a rollout, as a reader gets it. -/
def stagesOf (s : Store) (id : String) : List RolloutStage := (stageRows s id).map scanStage

/-- The task list of a rollout, as a reader gets it. -/
def tasksOf (s : Store) (id : String) : List RolloutTask := (taskRows s id).map scanTask

def stageRowsFor (id : String) (sts : List RolloutStage) : List StageRow :=
  sts.zipIdx.map fun st => stageRow id st.1 st.2

def taskRowsFor (id : String) (ts : List RolloutTask) : List TaskRow :=
  ts.zipIdx.map fun t => taskRow id t.1 t.2

def inheritedRowsFor (id : String) (descs : List String) : List TaskRow :=
  descs.zipIdx.map fun d => ⟨id, d.2, d.1, "", "", none, none⟩

/-- The pair rows after inserting `pair`, duplicates ignored. -/
def addPairs (id : String) (rows : List PairRow) (pair : List String) : List PairRow :=
  pair.foldl (fun rows a => if rows.contains ⟨id, a⟩ then rows else rows ++ [⟨id, a⟩]) rows

/-- The row `CreateRollout` inserts into `rollouts`. -/
def createdRow (now : Int) (ro : Rollout) : RolloutRow :=
  ⟨ro.id, ro.productId, ro.typeId, ro.title, ro.descExt, ro.descInt, ro.risks, pgTimestamp now,
    pgTimestamp now, nullIfEmpty ro.createdBy⟩

/-- What `UPDATE rollouts SET ...` does to a row. -/
def updatedRow (now : Int) (ro : Rollout) (r : RolloutRow) : RolloutRow :=
  if r.id = ro.id then
    { r with
      title := ro.title
      descExt := ro.descExt
      descInt := ro.descInt
      risks := ro.risks
      updatedAt := pgTimestamp now }
  else r

/-- The effect of `CreateRollout`'s transaction. -/
def applyCreate (now : Int) (ro : Rollout) (tasks : List String) (s : Store) : Store :=
  { s with
    rollouts := s.rollouts ++ [createdRow now ro]
    rolloutStages := s.rolloutStages ++ stageRowsFor ro.id ro.stages.items
    rolloutActors := addPairs ro.id s.rolloutActors ro.pair.items
    rolloutTasks := s.rolloutTasks ++ inheritedRowsFor ro.id tasks }

/-- The effect of `UpdateRollout`'s transaction. -/
def applyUpdate (now : Int) (ro : Rollout) (s : Store) : Store :=
  { s with
    rollouts := s.rollouts.map (updatedRow now ro)
    rolloutStages := (s.rolloutStages.filter fun r => !(r.rolloutId == ro.id))
      ++ stageRowsFor ro.id ro.stages.items
    rolloutActors := addPairs ro.id (s.rolloutActors.filter fun r => !(r.rolloutId == ro.id))
      ro.pair.items
    rolloutTasks := (s.rolloutTasks.filter fun r => !(r.rolloutId == ro.id))
      ++ taskRowsFor ro.id ro.tasks.items }

/-- An update replaces the stages of its rollout. -/
@[simp] theorem applyUpdate_rolloutStages (now : Int) (ro : Rollout) (s : Store) :
    (applyUpdate now ro s).rolloutStages = (s.rolloutStages.filter fun r => !(r.rolloutId == ro.id))
      ++ stageRowsFor ro.id ro.stages.items := rfl

/-- An update replaces the tasks of its rollout. -/
@[simp] theorem applyUpdate_rolloutTasks (now : Int) (ro : Rollout) (s : Store) :
    (applyUpdate now ro s).rolloutTasks = (s.rolloutTasks.filter fun r => !(r.rolloutId == ro.id))
      ++ taskRowsFor ro.id ro.tasks.items := rfl

/-- A create adds the stages of its rollout. -/
@[simp] theorem applyCreate_rolloutStages (now : Int) (ro : Rollout) (tasks : List String)
    (s : Store) : (applyCreate now ro tasks s).rolloutStages
      = s.rolloutStages ++ stageRowsFor ro.id ro.stages.items := rfl

/-! ## The insert loops -/

section Loops

variable {F : Faults Err} {c c' : Conn Store} {id : String}

/-- A fold that only works on one field is a fold of the field. -/
private theorem foldl_field {α β γ : Type} (set : γ → β → γ) (get : γ → β) (f : β → α → β)
    (hget : ∀ s b, get (set s b) = b) (hset : ∀ s b b', set (set s b) b' = set s b')
    (hself : ∀ s, set s (get s) = s) :
    ∀ (xs : List α) (s : γ),
      xs.foldl (fun s x => set s (f (get s) x)) s = set s (xs.foldl f (get s)) := by
  intro xs
  induction xs with
  | nil => intro s; exact (hself s).symm
  | cons x xs ih => intro s; rw [List.foldl_cons, ih, hset, hget, List.foldl_cons]

/-- A loop that appends to one table appends all its rows. -/
theorem foldl_rows {α β γ : Type} (set : γ → List β → γ) (get : γ → List β) (g : α → β)
    (hget : ∀ s b, get (set s b) = b) (hset : ∀ s b b', set (set s b) b' = set s b')
    (hself : ∀ s, set s (get s) = s) (xs : List α) (s : γ) :
    xs.foldl (fun s x => set s (get s ++ [g x])) s = set s (get s ++ xs.map g) := by
  have h : ∀ (xs : List α) (l : List β), xs.foldl (fun l x => l ++ [g x]) l = l ++ xs.map g := by
    intro xs
    induction xs with
    | nil => intro l; simp
    | cons x xs ih => intro l; rw [List.foldl_cons, ih, List.map_cons, List.append_assoc]; rfl
  rw [foldl_field set get (fun l x => l ++ [g x]) hget hset hself, h]

/-- The loop has inserted every stage, numbered from 0. -/
theorem insertStages_ok {sts : List RolloutStage}
    (h : Db.forEach sts.zipIdx (fun st => insertStage id st.1 st.2) F c = (.ok (), c')) :
    c'.store = { c.store with
      rolloutStages := c.store.rolloutStages ++ stageRowsFor id sts } := by
  have hbody : ∀ (st : RolloutStage × Nat) (c c' : Conn Store),
      insertStage id st.1 st.2 F c = (.ok (), c') →
      c'.store = { c.store with
        rolloutStages := c.store.rolloutStages ++ [stageRow id st.1 st.2] } := by
    intro st c c' hst
    obtain ⟨-, h₁⟩ := constraint_bind_ok (stmt_ok hst)
    obtain ⟨-, h₁⟩ := constraint_bind_ok h₁
    simpa [pure, Except.pure] using h₁.symm
  rw [Db.forEach_ok (fun s st =>
    { s with rolloutStages := s.rolloutStages ++ [stageRow id st.1 st.2] }) hbody h]
  exact foldl_rows (fun (s : Store) l => { s with rolloutStages := l }) (·.rolloutStages) _
    (fun _ _ => rfl) (fun _ _ _ => rfl) (fun _ => rfl) _ _

/-- The loop has inserted every task, numbered from 0. -/
theorem insertTasks_ok {ts : List RolloutTask}
    (h : Db.forEach ts.zipIdx (fun t => insertTask id t.1 t.2) F c = (.ok (), c')) :
    c'.store = { c.store with rolloutTasks := c.store.rolloutTasks ++ taskRowsFor id ts } := by
  have hbody : ∀ (t : RolloutTask × Nat) (c c' : Conn Store),
      insertTask id t.1 t.2 F c = (.ok (), c') →
      c'.store = { c.store with
        rolloutTasks := c.store.rolloutTasks ++ [taskRow id t.1 t.2] } := by
    intro t c c' ht
    obtain ⟨-, h₁⟩ := constraint_bind_ok (stmt_ok ht)
    obtain ⟨-, h₁⟩ := constraint_bind_ok h₁
    simpa [pure, Except.pure] using h₁.symm
  rw [Db.forEach_ok (fun s t =>
    { s with rolloutTasks := s.rolloutTasks ++ [taskRow id t.1 t.2] }) hbody h]
  exact foldl_rows (fun (s : Store) l => { s with rolloutTasks := l }) (·.rolloutTasks) _
    (fun _ _ => rfl) (fun _ _ _ => rfl) (fun _ => rfl) _ _

/-- The loop has inserted a task for each description of the type. -/
theorem insertInheritedTasks_ok {descs : List String}
    (h : Db.forEach descs.zipIdx (fun d => insertInheritedTask id d.1 d.2) F c = (.ok (), c')) :
    c'.store = { c.store with
      rolloutTasks := c.store.rolloutTasks ++ inheritedRowsFor id descs } := by
  have hbody : ∀ (d : String × Nat) (c c' : Conn Store),
      insertInheritedTask id d.1 d.2 F c = (.ok (), c') →
      c'.store = { c.store with
        rolloutTasks := c.store.rolloutTasks ++ [⟨id, d.2, d.1, "", "", none, none⟩] } := by
    intro d c c' hd
    obtain ⟨-, h₁⟩ := constraint_bind_ok (stmt_ok hd)
    simpa [pure, Except.pure] using h₁.symm
  rw [Db.forEach_ok (fun s d =>
    { s with rolloutTasks := s.rolloutTasks ++ [⟨id, d.2, d.1, "", "", none, none⟩] }) hbody h]
  exact foldl_rows (fun (s : Store) l => { s with rolloutTasks := l }) (·.rolloutTasks) _
    (fun _ _ => rfl) (fun _ _ _ => rfl) (fun _ => rfl) _ _

/-- The loop has inserted every member of the pair, once. -/
theorem insertPairs_ok {pair : List String}
    (h : Db.forEach pair (fun a => insertPair id a) F c = (.ok (), c')) :
    c'.store = { c.store with rolloutActors := addPairs id c.store.rolloutActors pair } := by
  have hbody : ∀ (a : String) (c c' : Conn Store), insertPair id a F c = (.ok (), c') →
      c'.store = { c.store with
        rolloutActors := addPairs id c.store.rolloutActors [a] } := by
    intro a c c' ha
    have h₁ := stmt_ok ha
    simp only [addPairs, List.foldl_cons, List.foldl_nil]
    split at h₁
    · next hc => rw [if_pos hc]; simpa using h₁.symm
    · next hc =>
      obtain ⟨-, h₁⟩ := constraint_bind_ok h₁
      rw [if_neg hc]
      simpa [pure, Except.pure] using h₁.symm
  rw [Db.forEach_ok (fun s a => { s with rolloutActors := addPairs id s.rolloutActors [a] })
    hbody h]
  clear h hbody
  generalize c.store = s
  induction pair generalizing s with
  | nil => rfl
  | cons a pair ih => rw [List.foldl_cons, ih]; rfl

end Loops

/-! ## The transactions -/

/-- A committed `CreateRollout` transaction inserted a rollout that was not there,
under an id the database can hold, and did exactly `applyCreate`. -/
theorem createRolloutTx_ok {now : Int} {ro : Rollout} {tasks : List String} {F : Faults Err}
    {c c' : Conn Store} (h : createRolloutTx now ro tasks F c = (.ok (), c')) :
    c.store.hasRollout ro.id = false ∧ hasNul ro.id = false ∧
      c'.store = applyCreate now ro tasks c.store := by
  obtain ⟨c₁, c₂, hc₁, hbody, hc'⟩ := Db.tx_ok h
  obtain ⟨_, c₃, hins, hbody⟩ := Db.bind_ok hbody
  obtain ⟨_, c₄, hst, hbody⟩ := Db.bind_ok hbody
  obtain ⟨_, c₅, hpair, htask⟩ := Db.bind_ok hbody
  have hparams := stmt_ok_params hins
  obtain ⟨hfresh, h₁⟩ := constraint_bind_ok (stmt_ok hins)
  obtain ⟨-, h₁⟩ := constraint_bind_ok h₁
  obtain ⟨-, h₁⟩ := constraint_bind_ok h₁
  obtain ⟨-, h₁⟩ := constraint_bind_ok h₁
  obtain ⟨-, h₁⟩ := constraint_bind_ok h₁
  obtain ⟨-, h₁⟩ := constraint_bind_ok h₁
  obtain ⟨-, h₁⟩ := constraint_bind_ok h₁
  have h₂ : c₃.store = { c₁.store with rollouts := c₁.store.rollouts ++ [createdRow now ro] } := by
    simpa [pure, Except.pure, createdRow] using h₁.symm
  refine ⟨by rw [hc₁] at hfresh; simpa using hfresh, ?_, ?_⟩
  · simp only [List.any_cons, Bool.or_eq_false_iff] at hparams
    exact hparams.1
  rw [hc', insertInheritedTasks_ok htask, insertPairs_ok hpair, insertStages_ok hst, h₂, hc₁]
  rfl

/-- The first statement of an update has found its row and written it. -/
theorem updateRolloutRow_ok {now : Int} {ro : Rollout} {F : Faults Err} {c c' : Conn Store}
    (h : updateRolloutRow now ro F c = (.ok (), c')) :
    c.store.hasRollout ro.id = true ∧ hasNul ro.id = false ∧
      c'.store = { c.store with rollouts := c.store.rollouts.map (updatedRow now ro) } := by
  obtain ⟨affected, c₁, hst, hres⟩ := Db.bind_ok h
  have hparams := stmt_ok_params hst
  simp only [List.any_cons, Bool.or_eq_false_iff] at hparams
  have h₁ := stmt_ok hst
  simp only [Except.ok.injEq, Prod.mk.injEq] at h₁
  cases affected with
  | true =>
    obtain rfl : c₁ = c' := congrArg Prod.snd hres
    exact ⟨h₁.1, hparams.1, h₁.2.symm⟩
  | false => simp [Db.throw] at hres

/-- A committed `UpdateRollout` transaction found its rollout, under an id the
database can hold, and did exactly `applyUpdate`. -/
theorem updateRolloutTx_ok {now : Int} {ro : Rollout} {F : Faults Err} {c c' : Conn Store}
    (h : updateRolloutTx now ro F c = (.ok (), c')) :
    c.store.hasRollout ro.id = true ∧ hasNul ro.id = false ∧
      c'.store = applyUpdate now ro c.store := by
  obtain ⟨c₁, c₂, hc₁, hbody, hc'⟩ := Db.tx_ok h
  obtain ⟨_, c₃, hrow, hbody⟩ := Db.bind_ok hbody
  obtain ⟨_, c₄, hdst, hbody⟩ := Db.bind_ok hbody
  obtain ⟨_, c₅, hst, hbody⟩ := Db.bind_ok hbody
  obtain ⟨_, c₆, hdp, hbody⟩ := Db.bind_ok hbody
  obtain ⟨_, c₇, hp, hbody⟩ := Db.bind_ok hbody
  obtain ⟨_, c₈, hdt, ht⟩ := Db.bind_ok hbody
  obtain ⟨hhas, hnul, h₃⟩ := updateRolloutRow_ok hrow
  have h₄ : { c₃.store with
      rolloutStages := c₃.store.rolloutStages.filter fun r => !(r.rolloutId == ro.id) } =
        c₄.store := by
    simpa using stmt_ok hdst
  have h₆ : { c₅.store with
      rolloutActors := c₅.store.rolloutActors.filter fun r => !(r.rolloutId == ro.id) } =
        c₆.store := by
    simpa using stmt_ok hdp
  have h₈ : { c₇.store with
      rolloutTasks := c₇.store.rolloutTasks.filter fun r => !(r.rolloutId == ro.id) } =
        c₈.store := by
    simpa using stmt_ok hdt
  refine ⟨hc₁ ▸ hhas, hnul, ?_⟩
  rw [hc', insertTasks_ok ht, ← h₈, insertPairs_ok hp, ← h₆, insertStages_ok hst, ← h₄, h₃, hc₁]
  rfl

/-- A committed `RescheduleNotifications` did exactly `NotificationTable.reschedule`. -/
theorem rescheduleNotifications_ok {id : String} {items : List ScheduledNotification}
    {F : Faults Err} {c c' : Conn Store}
    (h : rescheduleNotifications id items F c = (.ok (), c')) :
    c'.store = { c.store with notifications := c.store.notifications.reschedule id items } := by
  obtain ⟨c₁, c₂, hc₁, hbody, hc'⟩ := Db.tx_ok h
  obtain ⟨_, c₃, hdel, hins⟩ := Db.bind_ok hbody
  have h₃ : { c₁.store with notifications := c₁.store.notifications.deleteUnsent id } =
    c₃.store := by
    simpa using stmt_ok hdel
  have hbody : ∀ (it : ScheduledNotification) (d d' : Conn Store),
      (stmt [id] fun s => do
        constraint (s.hasRollout id) foreignKeyViolation
        pure ((), { s with notifications := s.notifications.insert id it })) F d = (.ok (), d') →
      d'.store = { d.store with notifications := d.store.notifications.insert id it } := by
    intro it d d' hd
    obtain ⟨-, h₁⟩ := constraint_bind_ok (stmt_ok hd)
    simpa [pure, Except.pure] using h₁.symm
  rw [hc', Db.forEach_ok (fun s it =>
    { s with notifications := s.notifications.insert id it }) hbody hins, ← h₃, hc₁]
  exact foldl_field (fun (s : Store) t => { s with notifications := t }) (·.notifications) _
    (fun _ _ => rfl) (fun _ _ _ => rfl) (fun _ => rfl) _ _

/-- `RescheduleNotifications` succeeds for a rollout that is there. -/
theorem total_rescheduleNotifications {id : String} (hn : hasNul id = false)
    (items : List ScheduledNotification) :
    Db.Total (fun s => s.hasRollout id = true) (rescheduleNotifications id items)
      fun _ s => s.hasRollout id = true := by
  have hp : [id].any hasNul = false := by simp [hn]
  refine Db.total_tx (Db.total_bind (Q := fun _ s => s.hasRollout id = true) ?_ fun _ => ?_)
  · exact total_stmt hp fun s hs => ⟨(), _, rfl, hs⟩
  · refine Db.total_forEach fun it _ => total_stmt hp fun s hs => ?_
    exact ⟨(), { s with notifications := s.notifications.insert id it },
      by simp [constraint, hs, bind, Except.bind, pure, Except.pure], hs⟩

/-! ## Reads -/

/-- The rollout a reader gets for a row, with no concurrent writer. -/
def hydrated (s : Store) (r : RolloutRow) : Rollout :=
  { scanRollout r with
    stages := some (stagesOf s r.id)
    pair := some ((pairRows s r.id).map (·.actorId))
    tasks := some (tasksOf s r.id) }

/-- A successful `Rollout(id)` found its row and left the store alone. When none of
its four calls is due to fail it returns the rollout as stored. -/
theorem rollout_ok {id : String} {F : Faults Err} {c c' : Conn Store} {ro : Rollout}
    (h : rollout id F c = (.ok ro, c')) :
    c'.store = c.store ∧ ∃ r, c.store.rollouts.find? (fun r => r.id == id) = some r ∧ ro.id = id ∧
      ((∀ k < 4, F (c.calls + k) = none) → ro = hydrated c.store r) := by
  obtain ⟨ro₁, c₁, hrow, hh⟩ := Db.bind_ok h
  have h₁ := stmt_ok hrow
  obtain ⟨st, c₂, h₂, hh⟩ := Db.bind_ok hh
  obtain ⟨pr, c₃, h₃, hh⟩ := Db.bind_ok hh
  obtain ⟨ts, c₄, h₄, hh⟩ := Db.bind_ok hh
  obtain ⟨hro, rfl⟩ : _ = ro ∧ c₄ = c' := by simpa [Db.pure_def] using hh
  obtain ⟨s₂, rows₂⟩ := select_ok h₂
  obtain ⟨s₃, rows₃⟩ := select_ok h₃
  obtain ⟨s₄, rows₄⟩ := select_ok h₄
  have n₁ := stmt_calls hrow
  have n₂ := select_calls h₂
  have n₃ := select_calls h₃
  split at h₁
  · simp at h₁
  · next r hr =>
    simp only [Except.ok.injEq, Prod.mk.injEq] at h₁
    obtain ⟨rfl, hs₁⟩ := h₁
    have hid : r.id = id := by simpa using List.find?_some hr
    refine ⟨by rw [s₄, s₃, s₂, hs₁], r, hr, by rw [← hro]; exact hid, fun hF => ?_⟩
    have e₂ := rows₂ (by have := hF 1 (by omega); rwa [← n₁] at this)
    have e₃ := rows₃
      (by have := hF 2 (by omega); rwa [show c.calls + 2 = c₂.calls by omega] at this)
    have e₄ := rows₄
      (by have := hF 3 (by omega); rwa [show c.calls + 3 = c₃.calls by omega] at this)
    rw [← hro, e₂, e₃, e₄, s₃, s₂, ← hs₁]
    rfl

/-- A `Rollout(id)` none of whose four calls is due to fail finds the rollout that is
there. -/
theorem rollout_clean {id : String} {F : Faults Err} {c : Conn Store}
    (hF : ∀ k < 4, F (c.calls + k) = none) (hnul : hasNul id = false)
    (hhas : c.store.hasRollout id = true) :
    ∃ r, r.id = id ∧ rollout id F c = (.ok (hydrated c.store r), ⟨c.store, c.calls + 4⟩) := by
  unfold Store.hasRollout at hhas
  rw [← List.isSome_find?] at hhas
  obtain ⟨r, hr⟩ := Option.isSome_iff_exists.mp hhas
  have hid : r.id = id := by simpa using List.find?_some hr
  have h₀ : F c.calls = none := hF 0 (by omega)
  have h₁ : F (c.calls + 1) = none := hF 1 (by omega)
  have h₂ : F (c.calls + 1 + 1) = none := hF 2 (by omega)
  have h₃ : F (c.calls + 1 + 1 + 1) = none := hF 3 (by omega)
  refine ⟨r, hid, ?_⟩
  simp [rollout, hydrate, Db.bind_def, Db.pure_def, stmt, Db.call, select, Db.query, h₀, h₁, h₂, h₃,
    hnul, hr, hid, scanRollout, hydrated, stagesOf, tasksOf]

/-- Reading a rollout changes nothing, whatever fails. -/
theorem within_rollout (R : Db.Frame Store) (id : String) : Db.Within R (rollout id) := by
  refine Db.within_bind (within_stmt ?_) fun ro => ?_
  · intro s a s' h
    split at h
    · simp at h
    · obtain rfl : s = s' := congrArg Prod.snd (Except.ok.inj h)
      exact R.refl s
  · exact Db.within_bind (within_select _ _) fun _ =>
      Db.within_bind (within_select _ _) fun _ =>
        Db.within_bind (within_select _ _) fun _ => Db.within_pure _

/-- Reading a type changes nothing. -/
theorem within_rolloutType (R : Db.Frame Store) (id : String) : Db.Within R (rolloutType id) := by
  refine Db.within_bind (within_stmt ?_) fun t => ?_
  · intro s a s' h
    split at h
    · simp at h
    · obtain rfl : s = s' := congrArg Prod.snd (Except.ok.inj h)
      exact R.refl s
  · exact Db.within_bind (Db.within_bind (within_select _ _) fun _ => Db.within_checked _)
      fun _ => Db.within_pure _

/-- A create that failed before or in its transaction changed nothing. -/
theorem createRolloutCommit_error {now : Int} {ro : Rollout} {F : Faults Err} {c c' : Conn Store}
    {e : Err} (h : createRolloutCommit now ro F c = (.error e, c')) : c'.store = c.store := by
  have hsame := within_rolloutType (Db.Frame.keeps fun s => s) ro.typeId F c
  unfold createRolloutCommit at h
  rw [Db.bind_def] at h
  split at h
  · next rt c₁ hrt =>
    rw [hrt] at hsame
    exact (Db.tx_error_store h).trans hsame
  · next e' c₁ hrt =>
    rw [hrt] at hsame
    obtain rfl : c₁ = c' := congrArg Prod.snd h
    exact hsame

/-- A create that committed found no rollout under its id and did `applyCreate`, with
the tasks of its type. -/
theorem createRolloutCommit_ok {now : Int} {ro : Rollout} {F : Faults Err} {c c' : Conn Store}
    (h : createRolloutCommit now ro F c = (.ok (), c')) :
    c.store.hasRollout ro.id = false ∧ hasNul ro.id = false ∧
      ∃ tasks, c'.store = applyCreate now ro tasks c.store := by
  obtain ⟨rt, c₁, hrt, htx⟩ := Db.bind_ok h
  obtain ⟨hnew, hnul, hstore⟩ := createRolloutTx_ok htx
  have hsame : c₁.store = c.store := by
    have := within_rolloutType (Db.Frame.keeps fun s => s) ro.typeId F c
    rw [hrt] at this
    exact this
  rw [hsame] at hnew hstore
  exact ⟨hnew, hnul, _, hstore⟩

/-- An update that failed in its transaction changed nothing. -/
theorem updateRolloutTx_error {now : Int} {ro : Rollout} {F : Faults Err} {c c' : Conn Store}
    {e : Err} (h : updateRolloutTx now ro F c = (.error e, c')) : c'.store = c.store :=
  Db.tx_error_store h

/-! ## Completing a task -/

/-- The row that `UpdateRolloutTask` addresses. -/
def addressed (id : String) (seq : Int) (r : TaskRow) : Bool :=
  r.rolloutId == id && decide ((r.seq : Int) = seq)

/-- The effect of `UpdateRolloutTask`. -/
def applyTask (now : Int) (id : String) (seq : Int) (status reason by_ : String)
    (s : Store) : Store :=
  { s with
    rolloutTasks := s.rolloutTasks.map fun r =>
      if addressed id seq r then logTask now status reason by_ r else r }

/-- A task update that returns no error has written what it hit, if anything. -/
theorem updateRolloutTask_ok {now : Int} {id : String} {seq : Int} {status reason by_ : String}
    {F : Faults Err} {c c' : Conn Store} {u : Unit}
    (h : updateRolloutTask now id seq status reason by_ F c = (.ok u, c')) :
    c'.store = applyTask now id seq status reason by_ c.store := by
  unfold updateRolloutTask at h
  split at h
  · cases stmt_ok h
  · split at h
    · exact (congrArg Prod.snd (Except.ok.inj (stmt_ok h))).symm
    · obtain ⟨-, h₁⟩ := constraint_bind_ok (stmt_ok h)
      exact (congrArg Prod.snd (Except.ok.inj h₁)).symm

/-- One that returns an error has written nothing. -/
theorem updateRolloutTask_error {now : Int} {id : String} {seq : Int} {status reason by_ : String}
    {F : Faults Err} {c c' : Conn Store} {e : Err}
    (h : updateRolloutTask now id seq status reason by_ F c = (.error e, c')) :
    c'.store = c.store := by
  unfold updateRolloutTask at h
  split at h
  · exact Db.call_error h
  · split at h
    · exact Db.call_error h
    · exact Db.call_error h

/-! ## The child lists after a write -/

/-- Rows inserted for an ascending index come back in that order. -/
theorem orderBy_of_ascending {ρ : Type} {key : ρ → Nat} {rows : List ρ}
    (h : rows.Pairwise fun a b => key a ≤ key b) : orderBy key rows = rows :=
  List.Pairwise.insertionSort_eq h

/-- Rows built from a list by index ascend. -/
theorem pairwise_zipIdx {α ρ : Type} (key : ρ → Nat) (f : α × Nat → ρ)
    (hkey : ∀ x, key (f x) = x.2) (xs : List α) :
    (xs.zipIdx.map f).Pairwise fun a b => key a ≤ key b := by
  rw [List.pairwise_map]
  simp only [hkey]
  generalize 0 = k
  induction xs generalizing k with
  | nil => simp
  | cons x xs ih =>
    rw [List.zipIdx_cons, List.pairwise_cons]
    refine ⟨fun y hy => ?_, ih (k + 1)⟩
    have := List.le_snd_of_mem_zipIdx hy
    omega

/-- The rows of `id` after replacing them by rows that all belong to it. -/
theorem filter_replace {ρ : Type} (rid : ρ → String) (id : String) {old new : List ρ}
    (hnew : ∀ r ∈ new, rid r = id) :
    ((old.filter fun r => !(rid r == id)) ++ new).filter (fun r => rid r == id) = new := by
  rw [List.filter_append, List.filter_filter]
  have h₁ : (old.filter fun r => (rid r == id) && !(rid r == id)) = [] := by
    simp
  have h₂ : new.filter (fun r => rid r == id) = new := by
    rw [List.filter_eq_self]
    intro r hr
    simpa using hnew r hr
  rw [h₁, h₂, List.nil_append]

/-- Without the rows of `id`, those of another rollout are the same. -/
theorem filter_other {ρ : Type} (rid : ρ → String) {id id' : String} (hne : id' ≠ id)
    (rows : List ρ) :
    (rows.filter fun r => !(rid r == id)).filter (fun r => rid r == id') =
      rows.filter fun r => rid r == id' := by
  rw [List.filter_filter]
  refine List.filter_congr fun r _ => ?_
  by_cases h : rid r = id'
  · simp [h, hne]
  · simp [h]

/-- The rows of another rollout after replacing those of `id`. -/
theorem filter_replace_ne {ρ : Type} (rid : ρ → String) {id id' : String} (hne : id' ≠ id)
    {old new : List ρ} (hnew : ∀ r ∈ new, rid r = id) :
    ((old.filter fun r => !(rid r == id)) ++ new).filter (fun r => rid r == id')
      = old.filter fun r => rid r == id' := by
  have h₂ : new.filter (fun r => rid r == id') = [] := by
    rw [List.filter_eq_nil_iff]
    intro r hr
    simpa [hnew r hr] using Ne.symm hne
  rw [List.filter_append, filter_other rid hne, h₂, List.append_nil]

/-- The stage rows belong to their rollout. -/
theorem stageRowsFor_rolloutId {id : String} {sts : List RolloutStage} :
    ∀ r ∈ stageRowsFor id sts, r.rolloutId = id := by
  intro r hr
  obtain ⟨st, -, rfl⟩ := List.mem_map.mp hr
  rfl

/-- The task rows belong to their rollout. -/
theorem taskRowsFor_rolloutId {id : String} {ts : List RolloutTask} :
    ∀ r ∈ taskRowsFor id ts, r.rolloutId = id := by
  intro r hr
  obtain ⟨t, -, rfl⟩ := List.mem_map.mp hr
  rfl

/-- They are stored in the order in which they are read. -/
theorem orderBy_stageRowsFor (id : String) (sts : List RolloutStage) :
    orderBy (·.seq) (stageRowsFor id sts) = stageRowsFor id sts :=
  orderBy_of_ascending (pairwise_zipIdx (fun r : StageRow => r.seq) _ (fun _ => rfl) sts)

/-- So are the tasks. -/
theorem orderBy_taskRowsFor (id : String) (ts : List RolloutTask) :
    orderBy (·.seq) (taskRowsFor id ts) = taskRowsFor id ts :=
  orderBy_of_ascending (pairwise_zipIdx (fun r : TaskRow => r.seq) _ (fun _ => rfl) ts)

/-- They are read back as they were stored, to the microsecond. -/
theorem scanStage_stageRowsFor (id : String) (sts : List RolloutStage) :
    (stageRowsFor id sts).map scanStage = sts.map storedStage := by
  unfold stageRowsFor
  rw [List.map_map]
  have h : (scanStage ∘ fun st : RolloutStage × Nat => stageRow id st.1 st.2)
      = storedStage ∘ Prod.fst := rfl
  rw [h, ← List.map_map, List.zipIdx_map_fst]

/-- A start that has been stored is at database resolution. -/
theorem storedStage_whole {sts : List RolloutStage} :
    ∀ st ∈ sts.map storedStage, pgTimestamp st.startAt = st.startAt := by
  intro st hst
  obtain ⟨x, -, rfl⟩ := List.mem_map.mp hst
  exact pgTimestamp_idem _

/-- After an update the stages are the given ones, in order. -/
theorem stagesOf_applyUpdate (now : Int) (ro : Rollout) (s : Store) :
    stagesOf (applyUpdate now ro s) ro.id = ro.stages.items.map storedStage := by
  unfold stagesOf stageRows
  rw [applyUpdate_rolloutStages,
    filter_replace (fun r : StageRow => r.rolloutId) ro.id stageRowsFor_rolloutId,
    orderBy_stageRowsFor]
  exact scanStage_stageRowsFor ro.id _

/-- After an update the task rows are the given ones, in order. -/
theorem taskRows_applyUpdate (now : Int) (ro : Rollout) (s : Store) :
    taskRows (applyUpdate now ro s) ro.id = taskRowsFor ro.id ro.tasks.items := by
  unfold taskRows
  rw [applyUpdate_rolloutTasks,
    filter_replace (fun r : TaskRow => r.rolloutId) ro.id taskRowsFor_rolloutId]
  exact orderBy_taskRowsFor ro.id _

/-- `COALESCE` undoes `NULLIF`. -/
theorem getD_nullIfEmpty (s : String) : (nullIfEmpty s).getD "" = s := by
  unfold nullIfEmpty
  split
  · next h => exact h.symm
  · rfl

/-- After an update the tasks are the given ones, in order. -/
theorem tasksOf_applyUpdate {now : Int} {ro : Rollout} {s : Store} :
    tasksOf (applyUpdate now ro s) ro.id = ro.tasks.items.zipIdx.map storedTask := by
  unfold tasksOf
  rw [taskRows_applyUpdate, taskRowsFor, List.map_map]
  refine List.map_congr_left fun t _ => ?_
  simp [scanTask, taskRow, storedTask, getD_nullIfEmpty]

/-- An update leaves the tasks of the other rollouts alone. -/
theorem tasksOf_applyUpdate_ne {id : String} {now : Int} {ro : Rollout} {s : Store}
    (h : id ≠ ro.id) :
    tasksOf (applyUpdate now ro s) id = tasksOf s id := by
  unfold tasksOf taskRows
  rw [applyUpdate_rolloutTasks, filter_replace_ne TaskRow.rolloutId h taskRowsFor_rolloutId]

/-- An update leaves the stages of every other rollout alone. -/
theorem stagesOf_applyUpdate_ne {id : String} (now : Int) {ro : Rollout} (s : Store)
    (h : id ≠ ro.id) : stagesOf (applyUpdate now ro s) id = stagesOf s id := by
  unfold stagesOf stageRows
  rw [applyUpdate_rolloutStages,
    filter_replace_ne (fun r : StageRow => r.rolloutId) h stageRowsFor_rolloutId]

/-- After a create the stages are the given ones, in order. -/
theorem stagesOf_applyCreate (now : Int) (ro : Rollout) (tasks : List String) {s : Store}
    (h : ∀ r ∈ s.rolloutStages, r.rolloutId ≠ ro.id) :
    stagesOf (applyCreate now ro tasks s) ro.id = ro.stages.items.map storedStage := by
  have hf : s.rolloutStages.filter (fun r => !(r.rolloutId == ro.id)) = s.rolloutStages := by
    rw [List.filter_eq_self]
    intro r hr
    simpa using h r hr
  unfold stagesOf stageRows
  rw [applyCreate_rolloutStages, ← hf,
    filter_replace (fun r : StageRow => r.rolloutId) ro.id stageRowsFor_rolloutId,
    orderBy_stageRowsFor]
  exact scanStage_stageRowsFor ro.id _

/-- A create leaves the stages of every other rollout alone. -/
theorem stagesOf_applyCreate_ne {id : String} (now : Int) {ro : Rollout} (tasks : List String)
    (s : Store) (h : id ≠ ro.id) : stagesOf (applyCreate now ro tasks s) id = stagesOf s id := by
  unfold stagesOf stageRows
  have h₂ : (stageRowsFor ro.id ro.stages.items).filter (fun r => r.rolloutId == id) = [] := by
    rw [List.filter_eq_nil_iff]
    intro r hr
    simpa [stageRowsFor_rolloutId r hr] using Ne.symm h
  rw [applyCreate_rolloutStages, List.filter_append, h₂, List.append_nil]

/-- `UPDATE rollouts SET ... WHERE id = $1`, in the row of one rollout. -/
theorem find_updatedRow {id : String} (now : Int) (ro : Rollout) (rows : List RolloutRow) :
    (rows.map (updatedRow now ro)).find? (fun r => r.id == id) =
      (rows.find? fun r => r.id == id).map (updatedRow now ro) := by
  have hid : ((fun r : RolloutRow => r.id == id) ∘ updatedRow now ro) = fun r => r.id == id := by
    funext r
    simp only [Function.comp, updatedRow]
    split <;> rfl
  rw [List.find?_map, hid]

/-- A pair row was there before, or it is one of the given ones. -/
theorem mem_addPairs {id : String} {pair : List String} {rows : List PairRow} {r : PairRow} :
    r ∈ addPairs id rows pair ↔ r ∈ rows ∨ r.rolloutId = id ∧ r.actorId ∈ pair := by
  induction pair generalizing rows with
  | nil => simp [addPairs]
  | cons a pair ih =>
    have hcons : addPairs id rows (a :: pair) =
        addPairs id (if rows.contains ⟨id, a⟩ then rows else rows ++ [⟨id, a⟩]) pair := rfl
    have hrow : r = ⟨id, a⟩ ↔ r.rolloutId = id ∧ r.actorId = a := by
      obtain ⟨rid, actor⟩ := r
      rw [PairRow.mk.injEq]
    rw [hcons, ih, List.mem_cons, and_or_left, ← hrow]
    split
    · next hold =>
      -- the one that is there already
      have hmem : (⟨id, a⟩ : PairRow) ∈ rows := by simpa using hold
      rw [← or_assoc, or_iff_left_of_imp (a := r ∈ rows) (b := r = ⟨id, a⟩)]
      rintro rfl
      exact hmem
    · rw [List.mem_append, List.mem_singleton, or_assoc]

/-- Inserting pair rows leaves the rows that are none of the rollout's as they are. -/
theorem filter_addPairs {id : String} {q : PairRow → Bool} (hq : ∀ a, q ⟨id, a⟩ = false)
    (rows : List PairRow) (pair : List String) :
    (addPairs id rows pair).filter q = rows.filter q := by
  induction pair generalizing rows with
  | nil => rfl
  | cons a pair ih =>
    unfold addPairs at ih ⊢
    rw [List.foldl_cons, ih]
    split
    · rfl
    · rw [List.filter_append, List.filter_cons_of_neg (by simp [hq a]), List.filter_nil,
        List.append_nil]

/-! ## Without faults -/

/-- The effect of `DeleteRollout`: the row and everything that cascades. -/
def applyDelete (id : String) (s : Store) : Store :=
  { s with
    rollouts := s.rollouts.filter fun r => !(r.id == id)
    rolloutStages := s.rolloutStages.filter fun r => !(r.rolloutId == id)
    rolloutActors := s.rolloutActors.filter fun r => !(r.rolloutId == id)
    rolloutTasks := s.rolloutTasks.filter fun r => !(r.rolloutId == id)
    notifications := s.notifications.deleteRollout id }

/-- A delete that returns no error has found its rollout and removed it. -/
theorem deleteRollout_ok {id : String} {u : Unit} {F : Faults Err} {c c' : Conn Store}
    (h : deleteRollout id F c = (.ok u, c')) :
    c.store.hasRollout id = true ∧ c'.store = applyDelete id c.store := by
  obtain ⟨hhas, hstore⟩ := Prod.mk.inj (Except.ok.inj (affected_ok h).2)
  exact ⟨hhas, hstore.symm⟩

/-- One that returns an error has changed nothing, or found nothing. -/
theorem deleteRollout_error {id : String} {e : Err} {F : Faults Err} {c c' : Conn Store}
    (h : deleteRollout id F c = (.error e, c')) :
    c'.store = c.store ∨ c.store.hasRollout id = false ∧ c'.store = applyDelete id c.store := by
  refine (affected_error h).imp_right fun hmissed => ?_
  obtain ⟨hhas, hstore⟩ := Prod.mk.inj (Except.ok.inj hmissed)
  exact ⟨hhas, hstore.symm⟩

/-- A rollout is there when its row is found. -/
theorem hasRollout_eq_find (s : Store) (id : String) :
    s.hasRollout id = (s.rollouts.find? fun r => r.id == id).isSome := by
  unfold Store.hasRollout
  rw [List.isSome_find?]

/-- After a create the new rollout is there, and every one before. -/
@[simp] theorem hasRollout_applyCreate (now : Int) (ro : Rollout) (tasks : List String)
    (s : Store) (id : String) :
    (applyCreate now ro tasks s).hasRollout id = (s.hasRollout id || ro.id == id) := by
  simp [Store.hasRollout, applyCreate, createdRow]

/-- An update neither adds a rollout nor removes one. -/
@[simp] theorem hasRollout_applyUpdate (now : Int) (ro : Rollout) (s : Store) (id : String) :
    (applyUpdate now ro s).hasRollout id = s.hasRollout id := by
  have h : ((fun r : RolloutRow => r.id == id) ∘ updatedRow now ro) = fun r => r.id == id := by
    funext r
    simp only [Function.comp, updatedRow]
    split <;> rfl
  simp only [Store.hasRollout, applyUpdate, List.any_map, h]

/-- A delete leaves every other rollout there. -/
theorem hasRollout_applyDelete_ne {id id' : String} (s : Store) (h : id' ≠ id) :
    (applyDelete id s).hasRollout id' = s.hasRollout id' := by
  rw [Bool.eq_iff_iff]
  simp only [Store.hasRollout, applyDelete, List.any_eq_true, List.mem_filter]
  constructor
  · rintro ⟨r, ⟨hr, -⟩, he⟩
    exact ⟨r, hr, he⟩
  · rintro ⟨r, hr, he⟩
    refine ⟨r, ⟨hr, ?_⟩, he⟩
    simpa [eq_of_beq he] using h

/-- A delete leaves the stages of every other rollout alone. -/
theorem stagesOf_applyDelete_ne {id id' : String} (s : Store) (h : id' ≠ id) :
    stagesOf (applyDelete id s) id' = stagesOf s id' := by
  simp only [stagesOf, stageRows, applyDelete, filter_other StageRow.rolloutId h]

section Run

variable {α : Type} {s s' : Store} {now : Int} {id : String} {ro : Rollout} {e : Err}

/-- A run without faults starts with no call made. -/
theorem run_eq {m : Repo α} {r : Except Err α} (h : m.run s = (r, s')) :
    ∃ c', m Db.noFaults ⟨s, 0⟩ = (r, c') ∧ c'.store = s' := by
  unfold Db.run at h
  split at h
  next r' c' hm =>
  simp only [Prod.mk.injEq] at h
  exact ⟨c', h.1 ▸ hm, h.2⟩

/-- A read-only program leaves the store alone. -/
theorem run_store {m : Repo α} {r : Except Err α}
    (hm : Db.Within (Db.Frame.keeps fun s => s) m) (h : m.run s = (r, s')) : s' = s := by
  obtain ⟨c', hm', rfl⟩ := run_eq h
  have := hm Db.noFaults ⟨s, 0⟩
  rw [hm'] at this
  exact this

/-- One statement, without faults. -/
theorem stmt_run {params : List String} {f : Store → Except Err (α × Store)} (s : Store) :
    (stmt params f).run s =
      if params.any hasNul then (.error (.pg "22021"), s)
      else match f s with
        | .error e => (.error e, s)
        | .ok (a, s') => (.ok a, s') := by
  simp only [Db.run, stmt, Db.call, Db.noFaults]
  by_cases hn : params.any hasNul = true
  · rw [if_pos hn, if_pos hn]
  · rw [if_neg hn, if_neg hn]
    cases f s <;> rfl

/-- **Reading a rollout back**, without faults. -/
theorem rollout_run (id : String) (s : Store) :
    (rollout id).run s =
      if hasNul id then (.error (.pg "22021"), s)
      else match s.rollouts.find? (fun r => r.id == id) with
        | none => (.error .notFound, s)
        | some r => (.ok (hydrated s r), s) := by
  simp only [rollout, Db.run, Db.bind_def, stmt, Db.call, Db.noFaults, List.any_cons,
    List.any_nil, Bool.or_false]
  by_cases hn : hasNul id
  · simp [hn]
  · cases hf : s.rollouts.find? (fun r => r.id == id) with
    | none => simp [hn]
    | some r =>
      have hid : r.id = id := by simpa using List.find?_some hf
      simp [hn, hid, hydrate, scanRollout, Db.bind_def, select, Db.query, Db.noFaults,
        Db.pure_def, hydrated, stagesOf, tasksOf]

/-- Reading a rollout changes nothing. -/
theorem rollout_run_store {r : Except Err Rollout} (h : (rollout id).run s = (r, s')) : s' = s :=
  run_store (within_rollout _ id) h

/-- What is read is the rollout as it is stored. -/
theorem rollout_run_ok (h : (rollout id).run s = (.ok ro, s')) :
    ∃ r, s.rollouts.find? (fun r => r.id == id) = some r ∧ r.id = id ∧ ro = hydrated s r := by
  rw [rollout_run] at h
  split at h
  · simp at h
  · split at h
    · simp at h
    · next r hr =>
      simp only [Prod.mk.injEq, Except.ok.injEq] at h
      exact ⟨r, hr, by simpa using List.find?_some hr, h.1.symm⟩

/-- Without faults only a missing rollout or an id with a NUL is an error. -/
theorem rollout_run_error (h : (rollout id).run s = (.error e, s')) :
    s.rollouts.find? (fun r => r.id == id) = none ∨ hasNul id := by
  rw [rollout_run] at h
  split at h
  · next hn => exact Or.inr hn
  · split at h
    · next hf => exact Or.inl hf
    · simp at h

/-- A create that commits has made its rollout of an id that was free. -/
theorem createRolloutCommit_run_ok {u : Unit}
    (h : (createRolloutCommit now ro).run s = (.ok u, s')) :
    s.hasRollout ro.id = false ∧ hasNul ro.id = false ∧
      ∃ tasks, s' = applyCreate now ro tasks s := by
  obtain ⟨c', hm, rfl⟩ := run_eq h
  exact createRolloutCommit_ok hm

/-- A create that fails has rolled back. -/
theorem createRolloutCommit_run_error (h : (createRolloutCommit now ro).run s = (.error e, s')) :
    s' = s := by
  obtain ⟨c', hm, rfl⟩ := run_eq h
  exact createRolloutCommit_error hm

/-- An update that commits has found its rollout and replaced it. -/
theorem updateRolloutTx_run_ok {u : Unit} (h : (updateRolloutTx now ro).run s = (.ok u, s')) :
    s.hasRollout ro.id = true ∧ hasNul ro.id = false ∧ s' = applyUpdate now ro s := by
  obtain ⟨c', hm, rfl⟩ := run_eq h
  exact updateRolloutTx_ok hm

/-- An update that fails has rolled back. -/
theorem updateRolloutTx_run_error (h : (updateRolloutTx now ro).run s = (.error e, s')) :
    s' = s := by
  obtain ⟨c', hm, rfl⟩ := run_eq h
  exact Db.tx_error_store hm

/-- A delete changes nothing, or removes the rollout with all that hangs on it. -/
theorem deleteRollout_run (id : String) (s : Store) :
    ((deleteRollout id).run s).2 = s ∨ ((deleteRollout id).run s).2 = applyDelete id s := by
  obtain ⟨c', hm, hc'⟩ := run_eq (Prod.mk.eta (p := (deleteRollout id).run s)).symm
  rw [← hc']
  unfold deleteRollout at hm
  rw [Db.bind_def] at hm
  split at hm
  · next affected c₁ hst =>
    have h₁ : _ = c₁.store := congrArg Prod.snd (Except.ok.inj (stmt_ok hst))
    have h₂ : c'.store = c₁.store := by
      cases affected
      · exact (congrArg (·.2.store) hm).symm
      · exact (congrArg (·.2.store) hm).symm
    exact Or.inr (h₂.trans h₁.symm)
  · next e c₁ hst =>
    obtain rfl : c₁ = c' := congrArg Prod.snd hm
    exact Or.inl (Db.call_error hst)

/-- A reschedule that commits has replaced the unsent rows of its rollout. -/
theorem rescheduleNotifications_run_ok {u : Unit} {items : List ScheduledNotification}
    (h : (rescheduleNotifications id items).run s = (.ok u, s')) :
    s' = { s with notifications := s.notifications.reschedule id items } := by
  obtain ⟨c', hm, rfl⟩ := run_eq h
  exact rescheduleNotifications_ok hm

/-- It fails on an id with a NUL or a rollout that is not there, and changes nothing. -/
theorem rescheduleNotifications_run_error {items : List ScheduledNotification}
    (h : (rescheduleNotifications id items).run s = (.error e, s')) :
    s' = s ∧ (hasNul id = true ∨ s.hasRollout id = false) := by
  obtain ⟨c', hm, rfl⟩ := run_eq h
  refine ⟨Db.tx_error_store hm, ?_⟩
  by_contra hc
  simp only [not_or, Bool.not_eq_true, Bool.not_eq_false] at hc
  obtain ⟨_, _, hok, -⟩ := (total_rescheduleNotifications hc.1 items).run hc.2
  rw [h] at hok
  simp at hok

/-- Marking a notification fails only on an error text with a NUL. -/
theorem markNotificationSent_run (now : Int) (nid : Nat) (errMsg : String) (s : Store) :
    (markNotificationSent now nid errMsg).run s =
      if hasNul errMsg then (.error (.pg "22021"), s)
      else (.ok (), { s with notifications := s.notifications.markSent now nid errMsg }) := by
  unfold markNotificationSent
  rw [stmt_run]
  simp

end Run

end Repository

end ReleaseRadar
