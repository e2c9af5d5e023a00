import ReleaseRadar.Lib.Keyed
import ReleaseRadar.Store.Inheritance
import ReleaseRadar.Store.Locks
import ReleaseRadar.Store.MasterData
import ReleaseRadar.Store.StoredRollout

/-!
# The catalogue

What the site keeps, as maps from ids: the products, the rollout types with their tasks, the
rollouts with their stages, pair and tasks, the locks. A `Change` is what a write asks for;
`Change.apply` says which entry of the catalogue it writes and with what, `Change.enabled` what
must be there.

`catalogue` reads a database as a catalogue. Each effect of the repository, on up to four
tables, is one change of it (the `catalogue_` lemmas), so of all the rows it touches nothing but
that entry is seen.
-/

namespace ReleaseRadar

open Lib

/-! ## Entries -/

/-- A product as it is kept. -/
def Product.kept (p : Product) : Product := { p with brokers := some p.brokers.items }

/-- A type as it is kept: delays in whole microseconds. -/
def RolloutType.kept (t : RolloutType) : RolloutType :=
  { t with
    delayProd1 := pgInterval t.delayProd1
    delayProd2 := pgInterval t.delayProd2
    rules := some t.rules.items
    tasks := some t.tasks.items }

namespace Rollout

/-- A rollout when it is created, with the tasks it inherits. -/
def opened (now : Int) (tasks : List String) (ro : Rollout) : Rollout :=
  { ro with
    stages := some (ro.stages.items.map Repository.storedStage)
    pair := some ro.pair.items.eraseDups
    tasks := some (tasks.zipIdx.map Repository.inheritedTask)
    createdAt := pgTimestamp now
    updatedAt := pgTimestamp now }

/-- A rollout after an update with `ro`. -/
def revised (now : Int) (ro old : Rollout) : Rollout :=
  { old with
    title := ro.title
    descExt := ro.descExt
    descInt := ro.descInt
    risks := ro.risks
    stages := some (ro.stages.items.map Repository.storedStage)
    pair := some ro.pair.items.eraseDups
    tasks := some (ro.tasks.items.zipIdx.map Repository.storedTask)
    updatedAt := pgTimestamp now }

/-- A task with its log entry: pending clears it, anything else signs it. -/
def logged (now : Int) (status reason by_ : String) (t : RolloutTask) : RolloutTask :=
  if Repository.clampStatus status = "" then
    { t with status := "", reason := reason, by_ := "", at_ := none }
  else
    { t with
      status := Repository.clampStatus status
      reason := reason
      by_ := by_
      at_ := some (pgTimestamp now) }

/-- A rollout one of whose tasks is logged. -/
def progressed (now : Int) (seq : Int) (status reason by_ : String) (ro : Rollout) : Rollout :=
  { ro with
    tasks := ro.tasks.map (List.map fun t =>
      if (t.index : Int) = seq then logged now status reason by_ t else t) }

end Rollout

namespace Lock

/-- A lock when it is created. -/
def opened (now : Int) (l : Lock) : Lock :=
  { l with
    startAt := pgTimestamp l.startAt
    endAt := pgTimestamp l.endAt
    products := some l.products.items
    createdAt := pgTimestamp now }

/-- A lock after an update with `l`. -/
def revised (l old : Lock) : Lock :=
  { old with
    title := l.title
    description := l.description
    contact := l.contact
    startAt := pgTimestamp l.startAt
    endAt := pgTimestamp l.endAt
    products := some l.products.items
    kind := l.kind }

end Lock

/-! ## The catalogue and its changes -/

structure Catalogue where
  products : String → Option Product
  rolloutTypes : String → Option RolloutType
  rollouts : String → Option Rollout
  locks : String → Option Lock

def Catalogue.empty : Catalogue := ⟨fun _ => none, fun _ => none, fun _ => none, fun _ => none⟩

/-- The tasks of a type. -/
def Catalogue.tasksOf (K : Catalogue) (typeId : String) : List String :=
  (K.rolloutTypes typeId).elim [] fun t => t.tasks.items

inductive Change
  | product (p : Product)
  | rolloutType (t : RolloutType)
  | create (now : Int) (ro : Rollout)
  | update (now : Int) (ro : Rollout)
  | delete (id : String)
  | task (now : Int) (id : String) (seq : Int) (status reason by_ : String)
  | addLock (now : Int) (l : Lock)
  | changeLock (l : Lock)
  | dropLock (id : String)

namespace Change

/-- What a change needs. A task that is not there is no obstacle: the change does nothing
then. -/
def enabled (K : Catalogue) : Change → Bool
  | create _ ro =>
    (K.rollouts ro.id).isNone && (K.products ro.productId).isSome &&
      (K.rolloutTypes ro.typeId).isSome
  | update _ ro => (K.rollouts ro.id).isSome
  | delete id => (K.rollouts id).isSome
  | addLock _ l => (K.locks l.id).isNone
  | changeLock l => (K.locks l.id).isSome
  | dropLock id => (K.locks id).isSome
  | product _ | rolloutType _ | task .. => true

def apply (K : Catalogue) : Change → Catalogue
  | product p => { K with products := Function.update K.products p.id (some p.kept) }
  | rolloutType t => { K with rolloutTypes := Function.update K.rolloutTypes t.id (some t.kept) }
  | create now ro =>
    { K with
      rollouts := Function.update K.rollouts ro.id (some (ro.opened now (K.tasksOf ro.typeId))) }
  | update now ro =>
    { K with
      rollouts := Function.update K.rollouts ro.id ((K.rollouts ro.id).map (ro.revised now)) }
  | delete id => { K with rollouts := Function.update K.rollouts id none }
  | task now id seq status reason by_ =>
    { K with
      rollouts := Function.update K.rollouts id
        ((K.rollouts id).map (Rollout.progressed now seq status reason by_)) }
  | addLock now l => { K with locks := Function.update K.locks l.id (some (l.opened now)) }
  | changeLock l => { K with locks := Function.update K.locks l.id ((K.locks l.id).map l.revised) }
  | dropLock id => { K with locks := Function.update K.locks id none }

end Change

/-- The catalogue on its own, change by change. -/
def ledger : Machine Catalogue Change := ⟨fun K c => if c.enabled K then some (c.apply K) else none⟩

/-- An enabled change is applied. -/
theorem ledger_step {K : Catalogue} {c : Change} (h : c.enabled K = true) :
    ledger.step K c = some (c.apply K) := if_pos h

/-- A change that was applied was enabled. -/
theorem ledger_step_some {K K' : Catalogue} {c : Change} (h : ledger.step K c = some K') :
    c.enabled K = true ∧ K' = c.apply K := by
  have henabled : c.enabled K = true := by
    by_contra hnot
    exact absurd (h.symm.trans (if_neg hnot)) nofun
  exact ⟨henabled, Option.some.inj (h.symm.trans (ledger_step henabled))⟩

/-! ## What every catalogue has -/

/-- What holds of the entry of a rollout. -/
structure RolloutHolds (products : String → Option Product)
    (rolloutTypes : String → Option RolloutType) (id : String) (ro : Rollout) : Prop where
  id_eq : ro.id = id
  product : (products ro.productId).isSome
  rolloutType : (rolloutTypes ro.typeId).isSome
  numbered : ro.tasks.items.map (·.index) = List.range ro.tasks.items.length
  pair : ro.pair.items.Nodup

/-- Every entry stands under its own id; a rollout has its product and its type, its tasks are
numbered as they stand, and nobody is in its pair twice. -/
structure Catalogue.WellFormed (K : Catalogue) : Prop where
  products : ∀ id p, K.products id = some p → p.id = id
  rolloutTypes : ∀ id t, K.rolloutTypes id = some t → t.id = id
  rollouts : ∀ id ro, K.rollouts id = some ro → RolloutHolds K.products K.rolloutTypes id ro
  locks : ∀ id l, K.locks id = some l → l.id = id

/-- Erasing duplicates leaves none. -/
theorem nodup_eraseDups (xs : List String) : xs.eraseDups.Nodup := by
  generalize hn : xs.length = n
  induction n using Nat.strongRecOn generalizing xs with
  | ind n ih =>
    cases xs with
    | nil => exact List.nodup_nil
    | cons x xs =>
      rw [List.eraseDups_cons, List.nodup_cons]
      refine ⟨fun hmem => ?_, ih _ ?_ _ rfl⟩
      · have hne := (List.mem_filter.mp (List.mem_eraseDups.mp hmem)).2
        simp at hne
      · rw [← hn, List.length_cons]
        exact Nat.lt_succ_of_le (List.length_filter_le _ _)

/-- Tasks made of a list and the places in it. -/
theorem numbered_zipIdx {α : Type} {f : α × Nat → RolloutTask} (hf : ∀ x, (f x).index = x.2)
    (xs : List α) : (xs.zipIdx.map f).map (·.index) = List.range (xs.zipIdx.map f).length := by
  have hindex : ((·.index) ∘ f) = Prod.snd := funext hf
  rw [List.map_map, hindex, List.zipIdx_map_snd, List.length_map, List.length_zipIdx,
    List.range_eq_range']

section Invariant

variable {K : Catalogue} {products : String → Option Product}
  {rolloutTypes : String → Option RolloutType} {id : String} {ro old : Rollout} {now : Int}

/-- A new rollout holds what every rollout holds. -/
theorem holds_opened (hproduct : (products ro.productId).isSome)
    (htype : (rolloutTypes ro.typeId).isSome) (tasks : List String) :
    RolloutHolds products rolloutTypes ro.id (ro.opened now tasks) where
  id_eq := rfl
  product := hproduct
  rolloutType := htype
  numbered := numbered_zipIdx (fun _ => rfl) tasks
  pair := nodup_eraseDups _

/-- An update keeps it. -/
theorem holds_revised (h : RolloutHolds products rolloutTypes id old) (now : Int) (ro : Rollout) :
    RolloutHolds products rolloutTypes id (ro.revised now old) where
  id_eq := h.id_eq
  product := h.product
  rolloutType := h.rolloutType
  numbered := numbered_zipIdx (fun _ => rfl) ro.tasks.items
  pair := nodup_eraseDups _

/-- So does the log of a task. -/
theorem holds_progressed (h : RolloutHolds products rolloutTypes id ro) (now seq : Int)
    (status reason by_ : String) :
    RolloutHolds products rolloutTypes id (ro.progressed now seq status reason by_) where
  id_eq := h.id_eq
  product := h.product
  rolloutType := h.rolloutType
  numbered := by
    have hitems : (ro.progressed now seq status reason by_).tasks.items =
        ro.tasks.items.map fun t =>
          if (t.index : Int) = seq then Rollout.logged now status reason by_ t else t := by
      unfold Rollout.progressed
      cases ro.tasks <;> rfl
    have hindex : ((·.index) ∘ fun t : RolloutTask =>
        if (t.index : Int) = seq then Rollout.logged now status reason by_ t else t) =
          RolloutTask.index := by
      funext t
      simp only [Function.comp, Rollout.logged]
      split
      · split <;> rfl
      · rfl
    rw [hitems, List.map_map, hindex, List.length_map]
    exact h.numbered
  pair := h.pair

/-- **Every change keeps the catalogue well-formed.** -/
theorem wellFormed_apply {ch : Change} (h : K.WellFormed) (hch : ch.enabled K = true) :
    (ch.apply K).WellFormed := by
  obtain ⟨hproducts, htypes, hrollouts, hlocks⟩ := h
  cases ch with
  | product p =>
    refine ⟨forall_update hproducts fun a ha => ?_, htypes, fun id ro hro => ?_, hlocks⟩
    · rw [← Option.some.inj ha]
      rfl
    · have hold := hrollouts id ro hro
      exact { hold with product := isSome_update hold.product }
  | rolloutType t =>
    refine ⟨hproducts, forall_update htypes fun a ha => ?_, fun id ro hro => ?_, hlocks⟩
    · rw [← Option.some.inj ha]
      rfl
    · have hold := hrollouts id ro hro
      exact { hold with rolloutType := isSome_update hold.rolloutType }
  | create now ro =>
    simp only [Change.enabled, Bool.and_eq_true] at hch
    obtain ⟨⟨-, hproduct⟩, htype⟩ := hch
    refine ⟨hproducts, htypes, forall_update hrollouts fun a ha => ?_, hlocks⟩
    rw [← Option.some.inj ha]
    exact holds_opened hproduct htype _
  | update now ro =>
    refine ⟨hproducts, htypes, forall_update hrollouts fun a ha => ?_, hlocks⟩
    obtain ⟨old, hold, rfl⟩ := Option.map_eq_some_iff.mp ha
    exact holds_revised (hrollouts _ old hold) now ro
  | delete id =>
    exact ⟨hproducts, htypes, forall_update hrollouts fun _ ha => absurd ha nofun, hlocks⟩
  | task now id seq status reason by_ =>
    refine ⟨hproducts, htypes, forall_update hrollouts fun a ha => ?_, hlocks⟩
    obtain ⟨old, hold, rfl⟩ := Option.map_eq_some_iff.mp ha
    exact holds_progressed (hrollouts _ old hold) now seq status reason by_
  | addLock now l =>
    refine ⟨hproducts, htypes, hrollouts, forall_update hlocks fun a ha => ?_⟩
    rw [← Option.some.inj ha]
    rfl
  | changeLock l =>
    refine ⟨hproducts, htypes, hrollouts, forall_update hlocks fun a ha => ?_⟩
    obtain ⟨old, hold, rfl⟩ := Option.map_eq_some_iff.mp ha
    exact hlocks _ old hold
  | dropLock id =>
    exact ⟨hproducts, htypes, hrollouts, forall_update hlocks fun _ ha => absurd ha nofun⟩

theorem wellFormed_empty : Catalogue.empty.WellFormed := ⟨nofun, nofun, nofun, nofun⟩

/-- Every catalogue the changes lead to is well formed. -/
theorem wellFormed_ledger {chs : List Change} (h : ledger.exec Catalogue.empty chs = some K) :
    K.WellFormed := by
  refine ledger.exec_invariant (fun K ch K' hK hstep => ?_) wellFormed_empty h
  obtain ⟨hch, rfl⟩ := ledger_step_some hstep
  exact wellFormed_apply hK hch

end Invariant

/-! ## A database read as a catalogue -/

namespace Repository

def catalogue (s : Store) : Catalogue where
  products id := (rowAt (·.id) s.products id).map scanProduct
  rolloutTypes id := (rowAt (·.id) s.rolloutTypes id).map (readRolloutType s)
  rollouts id := (rowAt (·.id) s.rollouts id).map (hydrated s)
  locks id := (rowAt (·.id) s.locks id).map scanLock

/-! ## Products, types and locks -/

/-- An upsert writes the entry of its key. -/
theorem rowAt_upsertRow {ρ : Type} {key : ρ → String} {row : ρ} {rows : List ρ} :
    rowAt key (upsertRow key row rows) = Function.update (rowAt key rows) (key row) (some row) := by
  unfold upsertRow
  split
  · next hold =>
    rw [← isSome_rowAt] at hold
    obtain ⟨r, hr⟩ := Option.isSome_iff_exists.mp hold
    rw [rowAt_modify (f := fun _ => row) fun _ _ => rfl, hr]
    rfl
  · next hnew =>
    refine rowAt_concat ?_
    rw [← isSome_rowAt] at hnew
    exact Option.not_isSome_iff_eq_none.mp hnew

section Effects

variable {s : Store} {now : Int}

/-- The upsert of a product is its change of the catalogue. -/
theorem catalogue_applyProduct (p : Product) :
    catalogue (applyProduct p s) = (Change.product p).apply (catalogue s) := by
  have hproducts : (catalogue (applyProduct p s)).products =
      Function.update (catalogue s).products p.id (some p.kept) :=
    rowAt_update_congr rowAt_upsertRow rfl fun _ _ _ _ => rfl
  exact congrArg (fun products => { catalogue s with products }) hproducts

/-- The upsert of a type too. -/
theorem catalogue_applyRolloutType (t : RolloutType) :
    catalogue (applyRolloutType t s) = (Change.rolloutType t).apply (catalogue s) := by
  have htypes : (catalogue (applyRolloutType t s)).rolloutTypes =
      Function.update (catalogue s).rolloutTypes t.id (some t.kept) := by
    refine rowAt_update_congr rowAt_upsertRow ?_ fun id r hne hr => ?_
    · show some { scanRolloutType (rolloutTypeRow t) with
        tasks := some (typeTasksOf (applyRolloutType t s) t.id) } = some t.kept
      rw [typeTasksOf_applyRolloutType]
      rfl
    · unfold readRolloutType
      rw [typeTasksOf_applyRolloutType_ne t s ((rowAt_some hr).2 ▸ hne)]
  exact congrArg (fun rolloutTypes => { catalogue s with rolloutTypes }) htypes

/-- So is the insert of a lock with a new id, -/
theorem catalogue_applyCreateLock {l : Lock} (hnew : s.hasLock l.id = false) :
    catalogue (applyCreateLock now l s) = (Change.addLock now l).apply (catalogue s) := by
  have hfresh : rowAt (·.id) s.locks (lockRow now l).id = none := by
    rw [← Option.not_isSome_iff_eq_none, isSome_rowAt]
    exact Bool.eq_false_iff.mp hnew
  have hlocks : (catalogue (applyCreateLock now l s)).locks =
      Function.update (catalogue s).locks l.id (some (l.opened now)) := by
    refine rowAt_update_congr (rowAt_concat hfresh) ?_ fun _ _ _ _ => rfl
    show some { scanLock (lockRow now l) with createdBy := (nullIfEmpty l.createdBy).getD "" } = _
    rw [getD_nullIfEmpty]
    rfl
  exact congrArg (fun locks => { catalogue s with locks }) hlocks

/-- its update, -/
theorem catalogue_applyLock (l : Lock) :
    catalogue (applyLock l s) = (Change.changeLock l).apply (catalogue s) := by
  have hlocks : (catalogue (applyLock l s)).locks =
      Function.update (catalogue s).locks l.id (((catalogue s).locks l.id).map l.revised) := by
    refine rowAt_update_congr (rowAt_modify fun _ h => h) ?_ fun _ _ _ _ => rfl
    show ((rowAt (·.id) s.locks l.id).map _).map scanLock =
      ((rowAt (·.id) s.locks l.id).map scanLock).map l.revised
    rw [Option.map_map, Option.map_map]
    rfl
  exact congrArg (fun locks => { catalogue s with locks }) hlocks

/-- and its delete. -/
theorem catalogue_applyDeleteLock (id : String) :
    catalogue (applyDeleteLock id s) = (Change.dropLock id).apply (catalogue s) := by
  have hlocks : (catalogue (applyDeleteLock id s)).locks =
      Function.update (catalogue s).locks id none :=
    rowAt_update_congr rowAt_remove rfl fun _ _ _ _ => rfl
  exact congrArg (fun locks => { catalogue s with locks }) hlocks

/-! ## Rollouts -/

/-- Inserting a pair keeps the first of each member. -/
theorem addPairs_eq (id : String) (pair acc : List String) :
    addPairs id (acc.map (⟨id, ·⟩)) pair =
      (acc ++ (pair.filter fun a => !acc.contains a).eraseDups).map (⟨id, ·⟩) := by
  induction pair generalizing acc with
  | nil => simp [addPairs]
  | cons a pair ih =>
    have hcontains : (acc.map fun x => (⟨id, x⟩ : PairRow)).contains ⟨id, a⟩ = acc.contains a := by
      rw [Bool.eq_iff_iff, List.contains_iff_mem, List.contains_iff_mem]
      simp
    have hcons : addPairs id (acc.map (⟨id, ·⟩)) (a :: pair) =
        addPairs id
          (if acc.contains a then acc.map (⟨id, ·⟩) else (acc ++ [a]).map (⟨id, ·⟩)) pair := by
      unfold addPairs
      rw [List.foldl_cons, hcontains, List.map_append]
      rfl
    rw [hcons]
    cases hold : acc.contains a with
    | true =>
      rw [if_pos rfl, ih, List.filter_cons_of_neg (by rw [hold]; decide)]
    | false =>
      have hrest : (pair.filter fun x => !(acc ++ [a]).contains x) =
          (pair.filter fun x => !acc.contains x).filter fun x => !x == a := by
        rw [List.filter_filter]
        refine List.filter_congr fun x _ => ?_
        simp only [List.contains_append, List.contains_cons, List.contains_nil, Bool.or_false,
          Bool.not_or, Bool.and_comm]
      rw [if_neg Bool.false_ne_true, ih, List.filter_cons_of_pos (by rw [hold]; rfl),
        List.eraseDups_cons, hrest, List.append_assoc]
      rfl

/-- The pair that is read back has each of its members once. -/
theorem actorIds_addPairs (id : String) (pair : List String) :
    (addPairs id [] pair).map (·.actorId) = pair.eraseDups := by
  have h := addPairs_eq id pair []
  rw [List.map_nil, List.nil_append] at h
  rw [h, List.map_map]
  have hall : (pair.filter fun a => !([] : List String).contains a) = pair :=
    List.filter_eq_self.mpr fun _ _ => rfl
  rw [hall]
  exact List.map_id _

/-- A rollout is read from its row and its rows in the child tables. -/
theorem hydrated_congr {t : Store} {r : RolloutRow} (hstages : stagesOf t r.id = stagesOf s r.id)
    (hpair : pairRows t r.id = pairRows s r.id) (htasks : tasksOf t r.id = tasksOf s r.id) :
    hydrated t r = hydrated s r := by
  unfold hydrated
  rw [hstages, hpair, htasks]

/-- No row of that id: the rollout is not there. -/
theorem rowAt_rollouts_none {id : String} : rowAt (·.id) s.rollouts id = none ↔
    s.hasRollout id = false := by
  rw [← Option.not_isSome_iff_eq_none, isSome_rowAt, Bool.not_eq_true]
  rfl

/-- The tasks of a rollout, when those of another one are replaced or removed. -/
theorem tasksOf_applyDelete_ne {id id' : String} (h : id' ≠ id) :
    tasksOf (applyDelete id s) id' = tasksOf s id' := by
  simp only [tasksOf, taskRows, applyDelete, filter_other TaskRow.rolloutId h]

/-- The tasks of another rollout stay. -/
theorem tasksOf_applyCreate_ne {id : String} {ro : Rollout} {tasks : List String} (h : id ≠ ro.id) :
    tasksOf (applyCreate now ro tasks s) id = tasksOf s id := by
  have hnone : (inheritedRowsFor ro.id tasks).filter (fun r => r.rolloutId == id) = [] := by
    rw [List.filter_eq_nil_iff]
    intro r hr
    simpa [inheritedRowsFor_rolloutId r hr] using h.symm
  unfold tasksOf taskRows applyCreate
  rw [List.filter_append, hnone, List.append_nil]

/-- A rollout that is not there has no rows. -/
theorem not_mem_owners {id : String} (hs : s.References) (habsent : s.hasRollout id = false) :
    id ∉ s.owners := by
  intro hmem
  have hhas := hs id hmem
  rw [habsent] at hhas
  cases hhas

/-- The creating transaction puts one rollout into the catalogue. -/
theorem catalogue_applyCreate {ro : Rollout} {tasks : List String} (hrefs : s.References)
    (hnew : s.hasRollout ro.id = false) :
    catalogue (applyCreate now ro tasks s) =
      { catalogue s with
        rollouts := Function.update (catalogue s).rollouts ro.id
          (some (ro.opened now tasks)) } := by
  have hfresh : rowAt (·.id) s.rollouts (createdRow now ro).id = none :=
    rowAt_rollouts_none.mpr hnew
  have hown : ro.id ∉ s.owners := not_mem_owners hrefs hnew
  simp only [Store.owners, List.mem_append, not_or] at hown
  obtain ⟨⟨⟨hstages, hpairs⟩, -⟩, -⟩ := hown
  have hnone : ∀ r ∈ s.rolloutStages, r.rolloutId ≠ ro.id :=
    fun r hr hid => hstages (hid ▸ List.mem_map_of_mem hr)
  have hpairs : ∀ r ∈ s.rolloutActors, r.rolloutId ≠ ro.id :=
    fun r hr hid => hpairs (hid ▸ List.mem_map_of_mem hr)
  have hrollouts : (catalogue (applyCreate now ro tasks s)).rollouts =
      Function.update (catalogue s).rollouts ro.id (some (ro.opened now tasks)) := by
    refine rowAt_update_congr (rowAt_concat hfresh) ?_ fun id r hne hr => ?_
    · have hpair : (pairRows (applyCreate now ro tasks s) ro.id).map PairRow.actorId =
          ro.pair.items.eraseDups :=
        (congrArg (List.map PairRow.actorId) (filter_addPairs_self hpairs)).trans
          (actorIds_addPairs _ _)
      show some { scanRollout (createdRow now ro) with
        stages := some (stagesOf (applyCreate now ro tasks s) ro.id)
        pair := some ((pairRows (applyCreate now ro tasks s) ro.id).map PairRow.actorId)
        tasks := some (tasksOf (applyCreate now ro tasks s) ro.id)
        createdBy := (nullIfEmpty ro.createdBy).getD "" } = _
      rw [stagesOf_applyCreate now ro tasks hnone, hpair, tasksOf_applyCreate hrefs hnew,
        getD_nullIfEmpty]
      rfl
    · obtain ⟨hmem, rfl⟩ := rowAt_some hr
      have hkept :=
        kept_create now tasks (Ne.symm hne) (List.any_eq_true.mpr ⟨r, hmem, beq_self_eq_true _⟩)
      exact hydrated_congr hkept.stages hkept.pair (tasksOf_applyCreate_ne hne)
  exact congrArg (fun rollouts => { catalogue s with rollouts }) hrollouts

/-- The update of a rollout is its change, and nothing where the id is unknown. -/
theorem catalogue_applyUpdate (ro : Rollout) :
    catalogue (applyUpdate now ro s) = (Change.update now ro).apply (catalogue s) := by
  have hrollouts : (catalogue (applyUpdate now ro s)).rollouts =
      Function.update (catalogue s).rollouts ro.id
        (((catalogue s).rollouts ro.id).map (ro.revised now)) := by
    refine rowAt_update_congr (rowAt_modify fun _ h => h) ?_ fun id r hne hr => ?_
    · show ((rowAt (·.id) s.rollouts ro.id).map _).map _ =
        ((rowAt (·.id) s.rollouts ro.id).map (hydrated s)).map (ro.revised now)
      rw [Option.map_map, Option.map_map]
      refine Option.map_congr fun r hr => ?_
      obtain ⟨-, hid⟩ := rowAt_some hr
      have hpair : (pairRows (applyUpdate now ro s) ro.id).map PairRow.actorId =
        ro.pair.items.eraseDups :=
        (congrArg (List.map PairRow.actorId) pairRows_applyUpdate).trans (actorIds_addPairs _ _)
      show { scanRollout _ with
        stages := some (stagesOf (applyUpdate now ro s) r.id)
        pair := some ((pairRows (applyUpdate now ro s) r.id).map PairRow.actorId)
        tasks := some (tasksOf (applyUpdate now ro s) r.id) } = _
      rw [show r.id = ro.id from hid, stagesOf_applyUpdate, hpair, tasksOf_applyUpdate]
      rfl
    · obtain ⟨-, rfl⟩ := rowAt_some hr
      have hkept := kept_update (s := s) now (Ne.symm hne)
      exact hydrated_congr hkept.stages hkept.pair (tasksOf_applyUpdate_ne hne)
  exact congrArg (fun rollouts => { catalogue s with rollouts }) hrollouts

/-- So is the delete. -/
theorem catalogue_applyDelete (id : String) :
    catalogue (applyDelete id s) = (Change.delete id).apply (catalogue s) := by
  have hrollouts : (catalogue (applyDelete id s)).rollouts =
      Function.update (catalogue s).rollouts id none := by
    refine rowAt_update_congr rowAt_remove rfl fun id' r hne hr => ?_
    obtain ⟨-, rfl⟩ := rowAt_some hr
    have hkept := kept_delete (s := s) (Ne.symm hne)
    exact hydrated_congr hkept.stages hkept.pair (tasksOf_applyDelete_ne hne)
  exact congrArg (fun rollouts => { catalogue s with rollouts }) hrollouts

/-- A task is logged in its row as it is in what is read of it. -/
theorem scanTask_logTask (status reason by_ : String) (r : TaskRow) :
    scanTask (logTask now status reason by_ r) = Rollout.logged now status reason by_
      (scanTask r) := by
  unfold logTask Rollout.logged
  split
  · rfl
  · show (⟨r.seq, r.description, _, reason, (nullIfEmpty by_).getD "", _⟩ : RolloutTask) = _
    rw [getD_nullIfEmpty]
    rfl

/-- What `UPDATE rollout_tasks SET ...` does to a row. -/
def loggedRow (now : Int) (id : String) (seq : Int) (status reason by_ : String) (r : TaskRow) :
    TaskRow :=
  if addressed id seq r then logTask now status reason by_ r else r

/-- It stays the row of its rollout, at its place. -/
theorem loggedRow_key (id : String) (seq : Int) (status reason by_ : String) (r : TaskRow) :
    (loggedRow now id seq status reason by_ r).rolloutId = r.rolloutId ∧
      (loggedRow now id seq status reason by_ r).seq = r.seq := by
  unfold loggedRow logTask
  split
  · split <;> exact ⟨rfl, rfl⟩
  · exact ⟨rfl, rfl⟩

/-- The update of a task rewrites its row in place. -/
theorem taskRows_applyTask (id id' : String) (seq : Int) (status reason by_ : String) :
    taskRows (applyTask now id seq status reason by_ s) id' =
      (taskRows s id').map (loggedRow now id seq status reason by_) := by
  let log := loggedRow now id seq status reason by_
  have hkey : ∀ r, (log r).rolloutId = r.rolloutId ∧ (log r).seq = r.seq :=
    loggedRow_key id seq status reason by_
  have hfilter : (s.rolloutTasks.map log).filter (fun r => r.rolloutId == id') =
      (s.rolloutTasks.filter fun r => r.rolloutId == id').map log := by
    rw [List.filter_map]
    refine congrArg (List.map log) (List.filter_congr fun r _ => ?_)
    show ((log r).rolloutId == id') = _
    rw [(hkey r).1]
  show orderBy (·.seq) ((s.rolloutTasks.map log).filter _) = _
  rw [hfilter]
  refine (List.map_insertionSort _ _ log _ fun a _ b _ => ?_).symm
  show a.seq ≤ b.seq ↔ (log a).seq ≤ (log b).seq
  rw [(hkey a).2, (hkey b).2]

/-- The tasks after one is logged. -/
theorem tasksOf_applyTask (id : String) (seq : Int) (status reason by_ : String) :
    tasksOf (applyTask now id seq status reason by_ s) id =
      (tasksOf s id).map fun t =>
        if (t.index : Int) = seq then Rollout.logged now status reason by_ t else t := by
  unfold tasksOf
  rw [taskRows_applyTask, List.map_map, List.map_map]
  refine List.map_congr_left fun r hr => ?_
  have hown : r.rolloutId = id :=
    eq_of_beq (List.mem_filter.mp ((List.mem_insertionSort _).mp hr)).2
  have haddressed : addressed id seq r = decide ((r.seq : Int) = seq) := by
    rw [addressed, hown, beq_self_eq_true, Bool.true_and]
  simp only [Function.comp, loggedRow, haddressed, decide_eq_true_eq]
  show scanTask (if _ then _ else _) = if ((r.seq : Nat) : Int) = seq then _ else _
  split
  · exact scanTask_logTask status reason by_ r
  · rfl

/-- The tasks of another rollout stay as they are. -/
theorem tasksOf_applyTask_ne {id id' : String} (h : id' ≠ id) (seq : Int)
    (status reason by_ : String) :
    tasksOf (applyTask now id seq status reason by_ s) id' = tasksOf s id' := by
  unfold tasksOf
  rw [taskRows_applyTask, List.map_map]
  refine List.map_congr_left fun r hr => congrArg scanTask (if_neg ?_)
  have hown : r.rolloutId = id' :=
    eq_of_beq (List.mem_filter.mp ((List.mem_insertionSort _).mp hr)).2
  rw [addressed, hown]
  simp [h]

/-- The update of a task is its change. -/
theorem catalogue_applyTask (id : String) (seq : Int) (status reason by_ : String) :
    catalogue (applyTask now id seq status reason by_ s) =
      (Change.task now id seq status reason by_).apply (catalogue s) := by
  have hrollouts : (catalogue (applyTask now id seq status reason by_ s)).rollouts =
      Function.update (catalogue s).rollouts id
        (((catalogue s).rollouts id).map (Rollout.progressed now seq status reason by_)) := by
    refine rowAt_update_congr (Function.update_eq_self id _).symm ?_ fun id' r hne hr => ?_
    · show _ = ((rowAt (·.id) s.rollouts id).map (hydrated s)).map _
      rw [Option.map_map]
      refine Option.map_congr fun r hr => ?_
      obtain ⟨-, hid⟩ := rowAt_some hr
      show { scanRollout r with
        stages := some (stagesOf s r.id)
        pair := some ((pairRows s r.id).map PairRow.actorId)
        tasks := some (tasksOf (applyTask now id seq status reason by_ s) r.id) } = _
      rw [← show r.id = id from hid, tasksOf_applyTask]
      rfl
    · obtain ⟨-, rfl⟩ := rowAt_some hr
      exact hydrated_congr rfl rfl (tasksOf_applyTask_ne hne seq status reason by_)
  exact congrArg (fun rollouts => { catalogue s with rollouts }) hrollouts

end Effects

/-! ## What a create is given -/

section Create

variable {now : Int} {ro : Rollout} {F : Faults Err} {c c' : Conn Store}

/-- A type that could be read is in the catalogue as it was read. -/
theorem rolloutType_ok {id : String} {rt : RolloutType} (h : rolloutType id F c = (.ok rt, c')) :
    c'.store = c.store ∧ (catalogue c.store).rolloutTypes id = some rt := by
  obtain ⟨t, c₁, hrow, h⟩ := Db.bind_ok h
  obtain ⟨tasks, c₂, htasks, h⟩ := Db.bind_ok h
  obtain ⟨hrt, rfl⟩ := Prod.mk.inj h
  obtain ⟨hstore, rfl⟩ := checked_select_ok htasks
  have hfound := stmt_ok hrow
  split at hfound
  · cases hfound
  · next r hr =>
    obtain ⟨rfl, hsame⟩ := Prod.mk.inj (Except.ok.inj hfound)
    rw [← hsame] at hstore
    refine ⟨hstore, ?_⟩
    show (c.store.rolloutTypes.find? fun t => t.id == id).map (readRolloutType c.store) = _
    rw [hr, ← Except.ok.inj hrt, ← hsame]
    rfl

/-- A transaction of a create that commits has found the product and the type. -/
theorem createRolloutTx_references {tasks : List String}
    (h : createRolloutTx now ro tasks F c = (.ok (), c')) :
    c.store.hasProduct ro.productId = true ∧ c.store.hasRolloutType ro.typeId = true := by
  obtain ⟨c₁, c₂, hc₁, hbody, -⟩ := Db.tx_ok h
  obtain ⟨_, c₃, hins, -⟩ := Db.bind_ok hbody
  obtain ⟨-, h₁⟩ := constraint_bind_ok (stmt_ok hins)
  obtain ⟨-, h₁⟩ := constraint_bind_ok h₁
  obtain ⟨-, h₁⟩ := constraint_bind_ok h₁
  obtain ⟨-, h₁⟩ := constraint_bind_ok h₁
  obtain ⟨hproduct, h₁⟩ := constraint_bind_ok h₁
  obtain ⟨htype, -⟩ := constraint_bind_ok h₁
  rw [hc₁] at hproduct htype
  exact ⟨hproduct, htype⟩

/-- **A create is one change**, with the tasks that its type has in the catalogue. -/
theorem createRolloutCommit_change (hrefs : c.store.References)
    (h : createRolloutCommit now ro F c = (.ok (), c')) :
    (Change.create now ro).enabled (catalogue c.store) = true ∧
      catalogue c'.store = (Change.create now ro).apply (catalogue c.store) := by
  obtain ⟨rt, c₁, hrt, htx⟩ := Db.bind_ok h
  obtain ⟨hsame, htype⟩ := rolloutType_ok hrt
  obtain ⟨hnew, -, hstore⟩ := createRolloutTx_ok htx
  obtain ⟨hproduct, -⟩ := createRolloutTx_references htx
  rw [hsame] at hnew hstore hproduct
  have htasks : (catalogue c.store).tasksOf ro.typeId = rt.tasks.items := by
    unfold Catalogue.tasksOf
    rw [htype]
    rfl
  refine ⟨?_, ?_⟩
  · have hnone : (catalogue c.store).rollouts ro.id = none :=
      Option.map_eq_none_iff.mpr (rowAt_rollouts_none.mpr hnew)
    have hsome : ((catalogue c.store).products ro.productId).isSome = true := by
      show ((rowAt (·.id) c.store.products ro.productId).map scanProduct).isSome = true
      rw [Option.isSome_map, isSome_rowAt]
      exact hproduct
    simp only [Change.enabled, hnone, hsome, htype, Option.isNone_none, Option.isSome_some,
      Bool.and_true]
  · rw [hstore, catalogue_applyCreate hrefs hnew, ← htasks]
    rfl

end Create

end Repository

end ReleaseRadar
