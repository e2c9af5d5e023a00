import ReleaseRadar.Api.Ledger
import ReleaseRadar.Store.Seed

/-!
# Seeding

`main` seeds the database at every start of the server. What is in it by then comes from
earlier starts, each of which may have failed anywhere, and from all that was done in between.
`seeded_once` says that over all of that at most one start writes anything: the first one that
stores a product, since no request takes the last product away. What that start does not get
to is never made up for, so a database that only starts have seen is complete exactly when the
start that found it empty got through (`demo_complete_iff`).
-/

namespace ReleaseRadar.Api

open Lib Repository

namespace Seeding

/-- What happens to the database of a site: its server starts, or anything else. -/
inductive Occurrence
  | start (now dbNow : Int) (faults : Faults Err)
  | during (e : Event)

namespace Occurrence

def apply (s : Store) : Occurrence → Store
  | start now dbNow faults => (Seed.seedIfEmpty now dbNow faults ⟨s, 0⟩).2.store
  | during e => e.apply s

def isStart : Occurrence → Bool
  | start .. => true
  | during _ => false

/-- If it is a start, it leaves the database as it is. -/
def Idle (s : Store) (a : Occurrence) : Prop := a.isStart = true → a.apply s = s

end Occurrence

/-- The site over all its starts. -/
def deployment : Machine Store Occurrence := ⟨fun s a => some (a.apply s)⟩

/-- The changes that the data set asks for. -/
def changes (now dbNow : Int) : List Change := (Seed.entries now dbNow).map Seed.Entry.change

/-! ## One entry -/

/-- A chosen key, and numbers of 64 bits. -/
def Proper : Seed.Entry → Prop
  | .product p => p.id ≠ ""
  | .rolloutType t => t.id ≠ "" ∧ t.Sized
  | .rollout _ _ => True

/-- Without faults a store operation makes the change it performs. -/
theorem makes_run {α : Type} {ch : Change} {m : Repo α} {s t : Store} {a : α}
    (h : Performs ch m Db.noFaults ⟨s, 0⟩) (hrun : m.run s = (.ok a, t)) : Makes ch s t := by
  unfold Db.run at hrun
  match hm : m Db.noFaults ⟨s, 0⟩ with
  | (r, c') =>
    rw [hm] at hrun
    obtain ⟨rfl, rfl⟩ := Prod.mk.inj hrun
    exact h.ok a c' hm

/-- An entry that is stored is the change it asks for, and the database stays within reach. -/
theorem loading_step {x : Seed.Entry} {s t : Store} (hs : Reached s) (hx : Proper x)
    (h : Seed.loading.step s x = some t) : Makes x.change s t ∧ Reached t := by
  obtain ⟨a, hrun⟩ := Db.committed_step h
  have hstore : (x.store.run s).2 = t := congrArg Prod.snd hrun
  cases x with
  | product p =>
    refine ⟨makes_run (performs_upsertProduct p) hrun, @reached_step _ _ (.seedProduct p hx) hs ?_⟩
    exact congrArg some hstore
  | rolloutType t' =>
    refine ⟨makes_run (performs_upsertRolloutType t') hrun,
      @reached_step _ _ (.seedRolloutType t' hx.1 hx.2) hs ?_⟩
    exact congrArg some hstore
  | rollout dbNow ro =>
    refine ⟨makes_run (performs_createRollout (references_reached hs) dbNow ro) hrun,
      @reached_step _ _ (.seedRollout dbNow ro) hs ?_⟩
    exact congrArg some hstore

/-- The entries are changes of the catalogue, one by one. -/
theorem loading_exec {xs : List Seed.Entry} {s t : Store} (hs : Reached s)
    (hxs : ∀ x ∈ xs, Proper x) (h : Seed.loading.exec s xs = some t) :
    ledger.exec (catalogue s) (xs.map Seed.Entry.change) = some (catalogue t) ∧ Reached t := by
  induction xs generalizing s with
  | nil =>
    obtain rfl := Option.some.inj h
    exact ⟨rfl, hs⟩
  | cons x xs ih =>
    obtain ⟨u, hstep, hrest⟩ := Seed.loading.exec_cons_some h
    obtain ⟨hmakes, hu⟩ := loading_step hs (hxs x List.mem_cons_self) hstep
    obtain ⟨hrun, ht⟩ := ih hu (fun y hy => hxs y (List.mem_cons_of_mem x hy)) hrest
    refine ⟨?_, ht⟩
    rw [List.map_cons]
    exact (ledger.exec_cons (ledger_makes hmakes)).trans hrun

/-! ## The data set -/

/-- Every product of the demo has an id. -/
theorem products_named : ∀ p ∈ Seed.products, p.id ≠ "" := by
  have h : Seed.products.all (fun p => !(p.id == "")) = true := by decide
  intro p hp
  simpa using List.all_eq_true.mp h p hp

/-- Every type too, and its tasks and plan fit the columns. -/
theorem types_named : ∀ t ∈ Seed.types, t.id ≠ "" ∧ t.Sized := by
  have h : Seed.types.all (fun t => !(t.id == "") && (Json.fitsInt64 t.delayProd1 &&
      Json.fitsInt64 t.delayProd2 && t.cascadePlan.items.all fun c =>
        Json.fitsInt64 c.delayHours)) =
      true := by decide
  intro t ht
  have hall := List.all_eq_true.mp h t ht
  simp only [Bool.and_eq_true, List.all_eq_true] at hall
  obtain ⟨hid, ⟨h1, h2⟩, hplan⟩ := hall
  exact ⟨by simpa using hid, ⟨h1, h2⟩, hplan⟩

theorem proper_stock : ∀ x ∈ Seed.stock, Proper x := by
  intro x hx
  rcases List.mem_append.mp hx with hp | ht
  · obtain ⟨p, hmem, rfl⟩ := List.mem_map.mp hp
    exact products_named p hmem
  · obtain ⟨t, hmem, rfl⟩ := List.mem_map.mp ht
    exact types_named t hmem

/-- The whole load is made of entries the service could have been sent. -/
theorem proper_entries (now dbNow : Int) : ∀ x ∈ Seed.entries now dbNow, Proper x := by
  intro x hx
  rcases List.mem_append.mp hx with hstock | hro
  · exact proper_stock x hstock
  · obtain rfl := List.mem_singleton.mp hro
    trivial

/-! ## Products stay -/

/-- No write takes the last product away. -/
theorem admits_products : Admits (Db.Frame.invariant fun s => s.products ≠ []) :=
  AllowsEffects.admits {
    product := fun _ _ _ => List.ne_nil_of_mem mem_upsertRow_self
    rolloutType := fun _ _ hs => hs
    create := fun _ _ _ _ _ hs => hs
    update := fun _ _ _ _ hs => hs
    delete := fun _ _ hs => hs
    task := fun _ _ _ _ _ _ _ hs => hs
    createLock := fun _ _ _ _ hs => hs
    lock := fun _ _ hs => hs
    deleteLock := fun _ _ hs => hs
    reschedule := fun id items =>
      (within_rescheduleNotifications (p := Store.products) (fun _ _ => rfl) id items).invariant
        fun s t heq hs => by rw [heq]; exact hs }

/-- No request and no step of another party takes the last product away. -/
theorem event_products {s : Store} (e : Event) (h : s.products ≠ []) :
    (e.apply s).products ≠ [] := by
  have hkeep : ∀ {m : Repo Unit}, Db.Within (Db.Frame.invariant fun s => s.products ≠ []) m →
      (m.run s).2.products ≠ [] := fun hm => hm Db.noFaults ⟨s, 0⟩ h
  cases e with
  | request env req hbody faults => exact respond_allows admits_products env hbody faults ⟨s, 0⟩ h
  | login actors => exact h
  | marked now id err => exact h
  | seedProduct p hid => exact hkeep (admits_products.upsertProduct p fun he => absurd he hid)
  | seedRolloutType t hid ht =>
    exact hkeep (admits_products.upsertRolloutType t (fun he => absurd he hid) ht)
  | seedRollout now ro => exact hkeep (admits_products.createRolloutCommit now ro)

/-- Nor does a further entry of the load. -/
theorem loading_products {x : Seed.Entry} {s t : Store} (hx : Proper x) (h : s.products ≠ [])
    (hstep : Seed.loading.step s x = some t) : t.products ≠ [] := by
  obtain ⟨a, hrun⟩ := Db.committed_step hstep
  have hkeep : Db.Within (Db.Frame.invariant fun s => s.products ≠ []) x.store := by
    cases x with
    | product p => exact admits_products.upsertProduct p fun he => absurd he hx
    | rolloutType t' => exact admits_products.upsertRolloutType t' (fun he => absurd he hx.1) hx.2
    | rollout dbNow ro => exact admits_products.createRolloutCommit dbNow ro
  have ht : (x.store.run s).2.products ≠ [] := hkeep Db.noFaults ⟨s, 0⟩ h
  rwa [hrun] at ht

/-- Nor do all of them. -/
theorem loading_exec_products {xs : List Seed.Entry} {s t : Store} (hxs : ∀ x ∈ xs, Proper x)
    (h : s.products ≠ []) (hrun : Seed.loading.exec s xs = some t) : t.products ≠ [] := by
  induction xs generalizing s with
  | nil =>
    obtain rfl := Option.some.inj hrun
    exact h
  | cons x xs ih =>
    obtain ⟨u, hstep, hrest⟩ := Seed.loading.exec_cons_some hrun
    exact ih (fun y hy => hxs y (List.mem_cons_of_mem x hy))
      (loading_products (hxs x List.mem_cons_self) h hstep) hrest

/-- A product of the catalogue is a row of its table. -/
theorem products_of_catalogue {s : Store} {id : String}
    (h : ((catalogue s).products id).isSome) : s.products ≠ [] := by
  intro hnone
  unfold catalogue at h
  rw [hnone] at h
  cases h

/-- With the first entry there is a product. -/
theorem products_of_loaded {now dbNow : Int} {k : Nat} {s t : Store}
    (h : Seed.loading.exec s ((Seed.entries now dbNow).take (k + 1)) = some t) :
    t.products ≠ [] := by
  obtain ⟨p, rest, hentries⟩ : ∃ p rest, Seed.entries now dbNow = .product p :: rest :=
    ⟨_, _, rfl⟩
  have hproper := proper_entries now dbNow
  rw [hentries] at h hproper
  rw [List.take_succ_cons] at h
  obtain ⟨u, hstep, hrest⟩ := Seed.loading.exec_cons_some h
  obtain ⟨a, hrun⟩ := Db.committed_step hstep
  have hmade := (makes_run (performs_upsertProduct p) hrun).made
  refine loading_exec_products (fun x hx => ?_) (@products_of_catalogue u p.id ?_) hrest
  · exact hproper x (List.mem_cons_of_mem _ (List.mem_of_mem_take hx))
  · rw [hmade]
    exact isSome_update_self

/-! ## Starts -/

/-- What a start leaves, as the seeding package has it. -/
theorem start_outcome (s : Store) (now dbNow : Int) (F : Faults Err) :
    Seed.Outcome now dbNow F ⟨s, 0⟩ ((Occurrence.start now dbNow F).apply s) :=
  Seed.seedIfEmpty_outcome now dbNow F ⟨s, 0⟩

/-- Where there is a product a start does nothing. -/
theorem idle_of_products {s : Store} (h : s.products ≠ []) (a : Occurrence) : a.Idle s := by
  intro ha
  cases a with
  | start now dbNow F => exact (start_outcome s now dbNow F).left h
  | during e => cases ha

/-- Once there is a product there is always one. -/
theorem occurrence_products {s : Store} (h : s.products ≠ []) (a : Occurrence) :
    (a.apply s).products ≠ [] := by
  cases a with
  | start now dbNow F =>
    rw [(start_outcome s now dbNow F).left h]
    exact h
  | during e => exact event_products e h

/-- Once there is a product, no start does anything any more. -/
theorem idle_along {s : Store} (h : s.products ≠ []) :
    ∀ as, deployment.Along (fun s a => Occurrence.Idle s a) s as := by
  intro as
  induction as generalizing s with
  | nil => trivial
  | cons a as ih =>
    refine deployment.along_cons (idle_of_products h a) fun s' hs' => ih ?_
    obtain rfl := Option.some.inj hs'
    exact occurrence_products h a

/-- A start leaves a database the service could have reached by requests. -/
theorem reached_start {s : Store} (hs : Reached s) (now dbNow : Int) (F : Faults Err) :
    Reached ((Occurrence.start now dbNow F).apply s) := by
  obtain ⟨hleft, hpartway⟩ := start_outcome s now dbNow F
  by_cases hnone : s.products = []
  · obtain ⟨k, -, hrun, -⟩ := hpartway hnone
    exact (loading_exec hs
      (fun x hx => proper_entries now dbNow x (List.mem_of_mem_take hx)) hrun).2
  · rw [hleft hnone]
    exact hs

/-- So does everything that happens to a deployment. -/
theorem reached_deployment {as : List Occurrence} {s : Store}
    (h : deployment.exec Store.empty as = some s) : Reached s := by
  refine deployment.exec_invariant (fun s a s' hs hstep => ?_) ⟨[], rfl⟩ h
  obtain rfl := Option.some.inj hstep
  cases a with
  | start now dbNow F => exact reached_start hs now dbNow F
  | during e => exact reached_step hs rfl

/-! ## A start that nothing disturbs -/

/-- A change of the master data. -/
def Stocks : Change → Prop
  | .product _ => True
  | .rolloutType _ => True
  | _ => False

/-- What changes of the master data leave: no rollout is touched, and what they name is there. -/
structure Stocked (K : Catalogue) (chs : List Change) (K' : Catalogue) : Prop where
  rollouts : K'.rollouts = K.rollouts
  products : ∀ id, (K.products id).isSome → (K'.products id).isSome
  types : ∀ id, (K.rolloutTypes id).isSome → (K'.rolloutTypes id).isSome
  product : ∀ p, .product p ∈ chs → (K'.products p.id).isSome
  rolloutType : ∀ t, .rolloutType t ∈ chs → (K'.rolloutTypes t.id).isSome

theorem Stocked.refl (K : Catalogue) : Stocked K [] K where
  rollouts := rfl
  products _ h := h
  types _ h := h
  product _ hp := absurd hp List.not_mem_nil
  rolloutType _ ht := absurd ht List.not_mem_nil

/-- Loads add up. -/
theorem Stocked.trans {K₁ K₂ K₃ : Catalogue} {chs chs' : List Change} (h : Stocked K₁ chs K₂)
    (h' : Stocked K₂ chs' K₃) : Stocked K₁ (chs ++ chs') K₃ where
  rollouts := h'.rollouts.trans h.rollouts
  products id hid := h'.products id (h.products id hid)
  types id hid := h'.types id (h.types id hid)
  product p hp := (List.mem_append.mp hp).elim (fun hp => h'.products _ (h.product p hp))
    (h'.product p)
  rolloutType t ht := (List.mem_append.mp ht).elim (fun ht => h'.types _ (h.rolloutType t ht))
    (h'.rolloutType t)

/-- One entry stocks what it names and nothing else. -/
theorem stocked_step {ch : Change} {K K' : Catalogue} (hch : Stocks ch)
    (h : ledger.step K ch = some K') : Stocked K [ch] K' := by
  cases ch with
  | product p =>
    obtain rfl := Option.some.inj h
    refine ⟨rfl, fun _ hid => isSome_update hid, fun _ hid => hid, fun q hq => ?_, fun t ht => ?_⟩
    · obtain rfl := Change.product.inj (List.mem_singleton.mp hq)
      exact isSome_update_self
    · cases List.mem_singleton.mp ht
  | rolloutType t =>
    obtain rfl := Option.some.inj h
    refine ⟨rfl, fun _ hid => hid, fun _ hid => isSome_update hid, fun p hp => ?_, fun u hu => ?_⟩
    · cases List.mem_singleton.mp hp
    · obtain rfl := Change.rolloutType.inj (List.mem_singleton.mp hu)
      exact isSome_update_self
  | _ => exact absurd hch id

/-- The entries together stock what they name. -/
theorem stocked_exec {chs : List Change} {K K' : Catalogue} (hchs : ∀ ch ∈ chs, Stocks ch)
    (h : ledger.exec K chs = some K') : Stocked K chs K' := by
  induction chs generalizing K with
  | nil =>
    obtain rfl := Option.some.inj h
    exact Stocked.refl K
  | cons ch chs ih =>
    obtain ⟨K₁, hstep, hrest⟩ := ledger.exec_cons_some h
    have hfirst := stocked_step (hchs ch List.mem_cons_self) hstep
    exact hfirst.trans (ih (fun c hc => hchs c (List.mem_cons_of_mem ch hc)) hrest)

/-- All entries of the demo but the rollout are master data. -/
theorem stocks_stock : ∀ ch ∈ Seed.stock.map Seed.Entry.change, Stocks ch := by
  intro ch hch
  obtain ⟨x, hx, rfl⟩ := List.mem_map.mp hch
  rcases List.mem_append.mp hx with hp | ht
  · obtain ⟨p, -, rfl⟩ := List.mem_map.mp hp
    trivial
  · obtain ⟨t, -, rfl⟩ := List.mem_map.mp ht
    trivial

/-- Without products there are no rollouts. -/
theorem rollouts_of_noProducts {s : Store} (hs : Reached s) (h : s.products = []) (id : String) :
    (catalogue s).rollouts id = none := by
  obtain ⟨es, he⟩ := hs
  obtain ⟨chs, -, hrun⟩ := service_refines ⟨[], rfl⟩ he
  have hwell := wellFormed_ledger hrun
  by_contra hsome
  obtain ⟨ro, hro⟩ := Option.ne_none_iff_exists'.mp hsome
  exact products_of_catalogue (hwell.rollouts id ro hro).product h

/-- The catalogue has a product exactly if the table has. -/
theorem isSome_products (s : Store) (id : String) :
    ((catalogue s).products id).isSome = s.hasProduct id := by
  show ((rowAt (·.id) s.products id).map scanProduct).isSome = _
  rw [Option.isSome_map, isSome_rowAt]
  rfl

/-- A type likewise. -/
theorem isSome_rolloutTypes (s : Store) (id : String) :
    ((catalogue s).rolloutTypes id).isSome = s.hasRolloutType id := by
  show ((rowAt (·.id) s.rolloutTypes id).map (readRolloutType s)).isSome = _
  rw [Option.isSome_map, isSome_rowAt]
  rfl

/-- The product of the demo rollout is among the entries. -/
theorem stock_operator : ∃ p, p.id = "operator" ∧ Seed.Entry.product p ∈ Seed.stock :=
  ⟨_, rfl, List.mem_append_left _ (List.mem_map_of_mem (List.mem_cons_self ..))⟩

/-- So is its type. -/
theorem stock_operatorFeature :
    ∃ t, t.id = "operator-feature" ∧ Seed.Entry.rolloutType t ∈ Seed.stock := by
  have hmem : Seed.types[4] ∈ Seed.types := List.getElem_mem _
  exact ⟨Seed.types[4], rfl, List.mem_append_right _ (List.mem_map_of_mem hmem)⟩

/-- **The data set can be stored**: where there is no product yet and no call fails, a start
gets through. -/
theorem total_load {s : Store} (hs : Reached s) (hnone : s.products = []) (now dbNow : Int) :
    Db.Total (· = s) (Seed.load now dbNow) fun _ _ => True := by
  refine Db.total_bind Seed.total_storeStock fun _ F c hF hrun => ?_
  obtain ⟨hledger, ht⟩ := loading_exec hs proper_stock hrun
  have hstocked := stocked_exec stocks_stock hledger
  obtain ⟨p, hp, hpmem⟩ := stock_operator
  obtain ⟨t, htid, htmem⟩ := stock_operatorFeature
  have hproduct : c.store.hasProduct "operator" = true := by
    rw [← isSome_products, ← hp]
    exact hstocked.product p (List.mem_map_of_mem hpmem)
  have htype : c.store.hasRolloutType "operator-feature" = true := by
    rw [← isSome_rolloutTypes, ← htid]
    exact hstocked.rolloutType t (List.mem_map_of_mem htmem)
  have hnew : c.store.hasRollout "r-demo-1" = false := by
    rw [← isSome_rollouts, hstocked.rollouts, rollouts_of_noProducts hs hnone]
    rfl
  have htasks : ∀ d ∈ typeTasksOf c.store "operator-feature", hasNul d = false := by
    intro d hd
    obtain ⟨row, hrow, rfl⟩ := List.mem_map.mp hd
    rw [orderBy, List.mem_insertionSort] at hrow
    exact (preserved_schema.reached ht).typeTask row (List.mem_of_mem_filter hrow)
  have hcreate := foreseen_createRolloutCommit (s := c.store) dbNow (Seed.demo now)
  rw [Seed.demo_accepted now hproduct htype hnew htasks] at hcreate
  obtain ⟨a, c', hrun', hF', -⟩ := hcreate F c hF rfl
  exact ⟨a, c', hrun', hF', trivial⟩

/-! ## The site over its starts -/

/-- Whatever a start has written, there is a product among it. -/
theorem products_of_wrote {s : Store} {now dbNow : Int} {F : Faults Err}
    (h : (Occurrence.start now dbNow F).apply s ≠ s) :
    ((Occurrence.start now dbNow F).apply s).products ≠ [] := by
  obtain ⟨hleft, hpartway⟩ := start_outcome s now dbNow F
  by_cases hnone : s.products = []
  · obtain ⟨k, -, hrun, -⟩ := hpartway hnone
    cases k with
    | zero => exact absurd (Option.some.inj hrun).symm h
    | succ k => exact products_of_loaded hrun
  · exact absurd (hleft hnone) h

/-- A start on an empty database makes the first few changes of the load, all of them unless a call
fails. -/
theorem start_changes {s : Store} (hs : Reached s) (hnone : s.products = []) (now dbNow : Int)
    (F : Faults Err) :
    ∃ k ≤ (changes now dbNow).length,
      ledger.exec (catalogue s) ((changes now dbNow).take k) =
        some (catalogue ((Occurrence.start now dbNow F).apply s)) ∧
      (k = 0 ↔ (Occurrence.start now dbNow F).apply s = s) ∧
      (k = (changes now dbNow).length ↔
        F 0 = none ∧ (Seed.load now dbNow F ⟨s, 1⟩).1.isOk = true) := by
  obtain ⟨k, hk, hrun, hdone⟩ := (start_outcome s now dbNow F).partway hnone
  have hlength : (changes now dbNow).length = (Seed.entries now dbNow).length := List.length_map _
  have hproper : ∀ x ∈ (Seed.entries now dbNow).take k, Proper x := fun x hx =>
    proper_entries now dbNow x (List.mem_of_mem_take hx)
  refine ⟨k, hlength ▸ hk, ?_, ?_, hlength ▸ hdone⟩
  · rw [changes, ← List.map_take]
    exact (loading_exec hs hproper hrun).1
  · constructor
    · rintro rfl
      exact (Option.some.inj hrun).symm
    · intro hsame
      by_contra hne
      obtain ⟨k, rfl⟩ := Nat.exists_eq_succ_of_ne_zero hne
      rw [hsame] at hrun
      exact products_of_loaded hrun hnone

/-- **The site is seeded once**: whatever has happened to it before, a start that finds a
product changes nothing; one that finds none makes the first of the changes that the data set
asks for, all of them when no call fails; and once a start has written anything, no start
writes anything any more, whatever comes in between. -/
theorem seeded_once {as : List Occurrence} {s : Store}
    (h : deployment.exec Store.empty as = some s) (now dbNow : Int) (F : Faults Err) :
    (s.products ≠ [] → (Occurrence.start now dbNow F).apply s = s) ∧
      (s.products = [] →
        ∃ k ≤ (changes now dbNow).length,
          ledger.exec (catalogue s) ((changes now dbNow).take k) =
            some (catalogue ((Occurrence.start now dbNow F).apply s)) ∧
          (k = 0 ↔ (Occurrence.start now dbNow F).apply s = s) ∧
          ((∀ n, F n = none) → k = (changes now dbNow).length)) ∧
      ((Occurrence.start now dbNow F).apply s ≠ s →
        ∀ bs, deployment.Along (fun s a => Occurrence.Idle s a)
          ((Occurrence.start now dbNow F).apply s) bs) ∧
      Reached ((Occurrence.start now dbNow F).apply s) := by
  have hs := reached_deployment h
  refine ⟨(start_outcome s now dbNow F).left, fun hnone => ?_, fun hwrote => ?_,
    reached_start hs now dbNow F⟩
  · obtain ⟨k, hk, hrun, hzero, hdone⟩ := start_changes hs hnone now dbNow F
    refine ⟨k, hk, hrun, hzero, fun hF => hdone.mpr ⟨hF 0, ?_⟩⟩
    obtain ⟨a, c', hload, -, -⟩ := total_load hs hnone now dbNow F ⟨s, 1⟩ (fun n _ => hF n) rfl
    rw [hload]
    rfl
  · exact idle_along (products_of_wrote hwrote)

/-- The connection is lost at the third product; somebody logs in; the server starts again. -/
def interrupted : List Occurrence :=
  [.start 0 0 fun n => if n = 3 then some (.fail (.other "connection lost")) else none,
    .during (.login [⟨"ann", "ann@example.org", "Ann", roleAdmin⟩]),
    .start hour hour Db.noFaults]

/-- Two products are all there is, for good. -/
theorem seeded_once_interrupted : ∃ s, deployment.exec Store.empty interrupted = some s ∧
    s.products.map (·.id) = ["operator", "concentrator"] ∧ s.rolloutTypes = [] ∧
    (Occurrence.start (2 * hour) (2 * hour) Db.noFaults).apply s = s := by
  refine ⟨_, rfl, by decide, by decide, ?_⟩
  exact (@seeded_once interrupted _ rfl _ _ _).1 (by decide)

/-! ## Starts alone -/

/-- Everything is there, and nothing else. -/
def Complete (s : Store) : Prop :=
  ∃ now dbNow, ledger.exec Catalogue.empty (changes now dbNow) = some (catalogue s)

/-- The demo rollout comes last. -/
theorem changes_eq (now dbNow : Int) :
    changes now dbNow =
      Seed.stock.map Seed.Entry.change ++ [.create dbNow (Seed.demo now)] := by
  rw [changes, Seed.entries, List.map_append]
  rfl

/-- Where the whole load has gone through, the demo rollout is there. -/
theorem demo_of_changes {now dbNow : Int} {K K' : Catalogue}
    (h : ledger.exec K (changes now dbNow) = some K') : (K'.rollouts "r-demo-1").isSome := by
  rw [changes_eq, Machine.exec_append] at h
  obtain ⟨K₁, -, hlast⟩ := Option.bind_eq_some_iff.mp h
  obtain ⟨K₂, hstep, hend⟩ := ledger.exec_cons_some hlast
  obtain rfl := Option.some.inj hend
  obtain ⟨-, rfl⟩ := ledger_step_some hstep
  show (Function.update K₁.rollouts "r-demo-1" (some _) "r-demo-1").isSome
  exact isSome_update_self

/-- The rollout comes last. -/
theorem demo_of_partway {now dbNow : Int} {k : Nat} {K K' : Catalogue}
    (hk : k < (changes now dbNow).length) (hnew : K.rollouts "r-demo-1" = none)
    (h : ledger.exec K ((changes now dbNow).take k) = some K') :
    K'.rollouts "r-demo-1" = none := by
  rw [changes_eq] at hk h
  rw [List.length_append, List.length_singleton] at hk
  rw [List.take_append_of_le_length (Nat.le_of_lt_succ hk)] at h
  have hstocks : ∀ ch ∈ (Seed.stock.map Seed.Entry.change).take k, Stocks ch :=
    fun ch hch => stocks_stock ch (List.mem_of_mem_take hch)
  rw [(stocked_exec hstocks h).rollouts]
  exact hnew

/-- Once there is a product, starts leave everything as it is. -/
theorem starts_idle {as : List Occurrence} {s t : Store} (hstarts : ∀ a ∈ as, a.isStart = true)
    (hs : s.products ≠ []) (h : deployment.exec s as = some t) : t = s := by
  induction as with
  | nil => exact (Option.some.inj h).symm
  | cons a as ih =>
    obtain ⟨u, hstep, hrest⟩ := deployment.exec_cons_some h
    obtain rfl := Option.some.inj hstep
    rw [idle_of_products hs a (hstarts a List.mem_cons_self)] at hrest
    exact ih (fun b hb => hstarts b (List.mem_cons_of_mem a hb)) hrest

/-- In a run of starts the database is empty up to a start that writes, and stays as that one
leaves it. -/
theorem starts_run {as : List Occurrence} {s : Store} (hstarts : ∀ a ∈ as, a.isStart = true)
    (h : deployment.exec Store.empty as = some s) :
    s = Store.empty ∨ ∃ pre now dbNow F post, as = pre ++ .start now dbNow F :: post ∧
      deployment.exec Store.empty pre = some Store.empty ∧
      (Occurrence.start now dbNow F).apply Store.empty = s := by
  induction as with
  | nil => exact Or.inl (Option.some.inj h).symm
  | cons a as ih =>
    have hrest := fun b hb => hstarts b (List.mem_cons_of_mem a hb)
    cases a with
    | during e => exact absurd (hstarts _ List.mem_cons_self) nofun
    | start now dbNow F =>
      obtain ⟨u, hstep, hrun⟩ := deployment.exec_cons_some h
      obtain rfl := Option.some.inj hstep
      by_cases hsame : (Occurrence.start now dbNow F).apply Store.empty = Store.empty
      · -- this start wrote nothing: it belongs to what comes before
        rw [hsame] at hrun
        refine (ih hrest hrun).imp_right ?_
        rintro ⟨pre, now', dbNow', F', post, rfl, hpre, hs⟩
        refine ⟨.start now dbNow F :: pre, now', dbNow', F', post, rfl, ?_, hs⟩
        exact (deployment.exec_cons (congrArg some hsame)).trans hpre
      · refine Or.inr ⟨[], now, dbNow, F, as, rfl, rfl, ?_⟩
        exact (starts_idle hrest (products_of_wrote hsame) hrun).symm

/-- **When the data set is complete**: a database that nothing but starts has worked on has all
of it exactly when a start that found the database empty got as far as its last commit. A start
that fails halfway is never made up for. -/
theorem demo_complete_iff {as : List Occurrence} {s : Store}
    (hstarts : ∀ a ∈ as, a.isStart = true) (h : deployment.exec Store.empty as = some s) :
    Complete s ↔ ∃ pre now dbNow F post, as = pre ++ .start now dbNow F :: post ∧
      deployment.exec Store.empty pre = some Store.empty ∧ F 0 = none ∧
      (Seed.load now dbNow F ⟨Store.empty, 1⟩).1.isOk = true := by
  have hempty : Reached Store.empty := ⟨[], rfl⟩
  constructor
  · rintro ⟨now₀, dbNow₀, hcomplete⟩
    have hdemo := demo_of_changes hcomplete
    rcases starts_run hstarts h with rfl | ⟨pre, now, dbNow, F, post, has, hpre, rfl⟩
    · cases hdemo
    · obtain ⟨k, hk, hrun, -, hdone⟩ := start_changes hempty rfl now dbNow F
      have hall : k = (changes now dbNow).length := by
        by_contra hne
        rw [demo_of_partway (lt_of_le_of_ne hk hne) rfl hrun] at hdemo
        cases hdemo
      exact ⟨pre, now, dbNow, F, post, has, hpre, hdone.mp hall⟩
  · rintro ⟨pre, now, dbNow, F, post, rfl, hpre, hload⟩
    rw [Machine.exec_append, hpre] at h
    obtain ⟨u, hstep, hpost⟩ := deployment.exec_cons_some h
    obtain rfl := Option.some.inj hstep
    obtain ⟨k, -, hrun, hzero, hdone⟩ := start_changes hempty rfl now dbNow F
    obtain rfl := hdone.mpr hload
    rw [List.take_length] at hrun
    have hwrote : (Occurrence.start now dbNow F).apply Store.empty ≠ Store.empty := by
      intro hsame
      have hlength := hzero.mpr hsame
      rw [changes_eq, List.length_append] at hlength
      exact absurd hlength (Nat.succ_ne_zero _)
    obtain rfl := starts_idle (fun a ha => hstarts a (List.mem_append_right _
      (List.mem_cons_of_mem _ ha))) (products_of_wrote hwrote) hpost
    exact ⟨now, dbNow, hrun⟩

/-- A first start is refused by the database, the second gets through. -/
def refusedFirst : List Occurrence :=
  [.start 0 0 fun n => if n = 0 then some (.fail (.other "connection refused")) else none,
    .start hour hour Db.noFaults]

theorem demo_complete_iff_refusedFirst : ∃ s, deployment.exec Store.empty refusedFirst = some s ∧
    Complete s := by
  refine ⟨_, rfl, (@demo_complete_iff refusedFirst _ ?_ rfl).mpr ?_⟩
  · exact List.forall_mem_cons.mpr ⟨rfl, List.forall_mem_singleton.mpr rfl⟩
  · refine ⟨refusedFirst.take 1, hour, hour, Db.noFaults, [], rfl, rfl, rfl, ?_⟩
    obtain ⟨a, c', hload, -, -⟩ :=
      total_load ⟨[], rfl⟩ rfl hour hour Db.noFaults ⟨Store.empty, 1⟩ (fun _ _ => rfl) rfl
    rw [hload]
    rfl

end Seeding

end ReleaseRadar.Api
