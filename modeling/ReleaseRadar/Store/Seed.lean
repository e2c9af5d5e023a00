import ReleaseRadar.Lib.Partway
import ReleaseRadar.Store.Catalogue
import ReleaseRadar.Store.Refusals

/-!
# The demo data set

`SeedIfEmpty` of `backend/internal/store/seed.go`: four products, nine rollout types and a
rollout, stored one by one when the database has no products yet. There is no transaction
around them, so a failure leaves the first of them; `follows_load` says exactly that.
`total_storeStock` and `demo_accepted` say that the database has nothing against any of them.
-/

namespace ReleaseRadar

open Lib

namespace Seed

def day : Int := 24 * hour

def products : List Product := [
  { id := "operator", name := "operator", owner := "Team Athena"
    brokers := some ["frankfurt-01", "frankfurt-02", "zeus-01", "zeus-02"] },
  { id := "concentrator", name := "concentrator", owner := "Team Athena"
    brokers := some ["frankfurt-01", "frankfurt-02", "zeus-01", "zeus-02"] },
  { id := "monalesy", name := "monalesy", owner := "Team Hermes"
    brokers := some ["mon-eu-1", "mon-eu-2"] },
  { id := "microservices", name := "micro services", owner := "Platform Core"
    brokers := some ["frontend", "appluser", "monitoring", "eks-info", "solace-exporter", "ca",
      "message-duplication"] }]

def manualCheck : String := "Manuelle Nachkontrolle der Applikation + Logs"

def brokerDiff : String :=
  "Run broker diff on all brokers (vor Aufheben des Maintenance Mode)"

def types : List RolloutType := [
  { id := "tms-ssp-nc", name := "tms-ssp non-critical", short := "non-critical"
    tone := "neutral", delayProd1 := 0, delayProd2 := 0
    cascadePlan := some [⟨"non-prod", 0⟩]
    announce := "Ankündigen in TMS_PROD min. 1h vorab"
    rules := some [
      "Micro-Service Rollout — ein Bug kann keinen Einfluss auf die Produktion haben", manualCheck]
    tasks := some ["Announce in TMS_PROD (≥ 1h)", "Deploy", manualCheck] },
  { id := "tms-ssp-c", name := "tms-ssp critical", short := "critical"
    tone := "warn", delayProd1 := 0, delayProd2 := 0
    cascadePlan := some [⟨"non-prod", 0⟩]
    announce := "Ankündigen in TMS_PROD min. 1d vorab"
    rules := some [
      "Default risk: Deployment and broker creation will be disabled for <time_range_of_rollout>",
      "Maintenance mode aktiv", "Rollout im Pair", "Eventuell individuelles Rollout-Drehbuch"]
    tasks := some ["Announce in TMS_PROD (≥ 1d)", "Enable Maintenance Mode", "Deploy", brokerDiff,
      "Lift Maintenance Mode", manualCheck] },
  { id := "tms-ssp-c-hotfix", name := "tms-ssp critical hotfix", short := "critical hotfix"
    tone := "danger", delayProd1 := 0, delayProd2 := 0
    cascadePlan := some [⟨"non-prod", 0⟩]
    announce := "Ankündigen in TMS_PROD min. 1h vorab"
    rules := some ["via HotFix branch", "Vorab Pair-Review um Risiko abzuschätzen",
      "Maintenance mode aktiv", "Rollout im Pair", "Eventuell individuelles Rollout-Drehbuch"]
    tasks := some ["Pair review (Risikoabschätzung)", "Announce in TMS_PROD (≥ 1h)",
      "Enable Maintenance Mode", "Deploy hotfix", brokerDiff, "Lift Maintenance Mode",
        manualCheck] },
  { id := "concentrator-mod", name := "concentrator modification", short := "concentrator mod"
    tone := "warn", delayProd1 := 7 * day, delayProd2 := 14 * day
    cascadePlan := some [⟨"non-prod", 0⟩, ⟨"prod1", 168⟩, ⟨"prod2", 336⟩]
    announce := "TMS_NP 1d (non-prod) • TMS_PROD 1w (prod1) • TMS_PROD 2w (prod2)"
    rules := some ["Individuelles Rollout-Drehbuch erforderlich", "Maintenance mode aktiv",
      "Rollout im Pair"]
    tasks := some ["Announce in TMS_NP (≥ 1d)", "Announce in TMS_PROD (≥ 1w prod1 / ≥ 2w prod2)",
      "Enable Maintenance Mode", "Apply modification", brokerDiff, "Lift Maintenance Mode",
      manualCheck] },
  { id := "operator-feature", name := "operator feature (oracle & solace)"
    short := "operator feature"
    tone := "info", delayProd1 := 7 * day, delayProd2 := 14 * day
    cascadePlan := some [⟨"non-prod", 0⟩, ⟨"prod1", 168⟩, ⟨"prod2", 336⟩]
    announce := "TMS_NP 1h (non-prod) • TMS_PROD 1w (prod1) • TMS_PROD 2w (prod2)"
    rules := some ["Maintenance mode aktiv", "Rollout im Pair"]
    tasks := some ["Announce in TMS_NP (≥ 1h)", "Announce in TMS_PROD (≥ 1w prod1 / ≥ 2w prod2)",
      "Enable Maintenance Mode", "Deploy operator (oracle & solace)", brokerDiff,
      "Lift Maintenance Mode", manualCheck] },
  { id := "operator-c-hotfix", name := "operator critical hotfix (oracle & solace)"
    short := "operator hotfix"
    tone := "danger", delayProd1 := 1 * day, delayProd2 := 2 * day
    cascadePlan := some [⟨"non-prod", 0⟩, ⟨"prod1", 24⟩, ⟨"prod2", 48⟩]
    announce := "TMS_NP 1h (non-prod) • TMS_PROD 1d (prod1) • TMS_PROD 2d (prod2)"
    rules := some ["via HotFix branch", "Maintenance mode aktiv", "Rollout im Pair"]
    tasks := some ["Announce in TMS_NP (≥ 1h)", "Announce in TMS_PROD (≥ 1d prod1 / ≥ 2d prod2)",
      "Enable Maintenance Mode", "Deploy hotfix (oracle & solace)", brokerDiff,
      "Lift Maintenance Mode", manualCheck] },
  { id := "operator-monalesy", name := "operator (monalesy)", short := "operator monalesy"
    tone := "info", delayProd1 := 1 * day, delayProd2 := 2 * day
    cascadePlan := some [⟨"non-prod", 0⟩, ⟨"prod1", 24⟩, ⟨"prod2", 48⟩]
    announce := "TMS_NP 1h (non-prod) • TMS_PROD 1d (prod1) • TMS_PROD 2d (prod2)"
    rules := some ["Rollout im Pair"]
    tasks := some ["Announce in TMS_NP (≥ 1h)", "Announce in TMS_PROD (≥ 1d prod1 / ≥ 2d prod2)",
      "Deploy operator (monalesy)", manualCheck] },
  { id := "monalesy-feature", name := "monalesy feature", short := "monalesy feature"
    tone := "info", delayProd1 := 0, delayProd2 := 0
    cascadePlan := some [⟨"non-prod", 0⟩]
    announce := "Ankündigen in TMS_PROD min. 1d vorab"
    rules := some [
      "SNOW change / Anmeldung beim Kunden nötig (sobald prod-Komponenten betroffen sind)",
      "Rollout im Pair (sobald prod-Komponenten betroffen sind)"]
    tasks := some ["Open SNOW change / Kundenanmeldung (sobald prod-Komponenten betroffen)",
      "Announce in TMS_PROD (≥ 1d)", "Deploy monalesy feature", manualCheck] },
  { id := "monalesy-patch", name := "monalesy patch", short := "monalesy patch"
    tone := "neutral", delayProd1 := 0, delayProd2 := 0
    cascadePlan := some [⟨"non-prod", 0⟩]
    announce := "Ankündigen in TMS_PROD min. 1h vorab"
    rules := some [
      "SNOW change / Anmeldung beim Kunden nötig (sobald prod-Komponenten betroffen sind)",
      "Rollout im Pair (sobald prod-Komponenten betroffen sind)"]
    tasks := some ["Open SNOW change / Kundenanmeldung (sobald prod-Komponenten betroffen)",
      "Announce in TMS_PROD (≥ 1h)", "Deploy monalesy patch", manualCheck] }]

/-- Go's zero `time.Time`. -/
def zeroTime : Int := -62135596800 * second

/-- The demo rollout of a server started at `now`. -/
def demo (now : Int) : Rollout :=
  let nonProd := now + 24 * hour
  { id := "r-demo-1", productId := "operator", typeId := "operator-feature"
    title := "operator demo — broker auth refactor"
    descExt := "operator demo rollout. Customers may observe transient broker creation latency " ++
      "during the maintenance window."
    descInt := "Includes demo oracle migration + solace exporter. Pair-reviewed."
    risks := "Deployment + broker creation disabled for ~2h."
    stages := some [
      { env := "non-prod", startAt := nonProd, duration := 2 * hour, status := "scheduled" },
      { env := "prod1", startAt := nonProd + 168 * hour, duration := 2 * hour
        status := "scheduled" },
      { env := "prod2", startAt := nonProd + 336 * hour, duration := 2 * hour
        status := "scheduled" }]
    pair := some [], tasks := none, createdAt := zeroTime, updatedAt := zeroTime
    createdBy := "" }

/-- `SeedIfEmpty` at `now`, with the database's clock at `dbNow`. -/
def seedIfEmpty (now dbNow : Int) : Repo Unit := do
  let existing ← Repository.products
  if existing.length > 0 then pure ()
  else do
    Db.forEach products Repository.upsertProduct
    Db.forEach types Repository.upsertRolloutType
    let _ ← Repository.createRollout dbNow (demo now)
    pure ()

/-! ## Entry by entry -/

/-- What the data set is made of. -/
inductive Entry
  | product (p : Product)
  | rolloutType (t : RolloutType)
  | rollout (dbNow : Int) (ro : Rollout)

namespace Entry

def store : Entry → Repo Unit
  | product p => Repository.upsertProduct p
  | rolloutType t => Repository.upsertRolloutType t
  | rollout dbNow ro => Repository.createRolloutCommit dbNow ro

def change : Entry → Change
  | product p => .product p
  | rolloutType t => .rolloutType t
  | rollout dbNow ro => .create dbNow ro

end Entry

/-- The products and the types. -/
def stock : List Entry := products.map .product ++ types.map .rolloutType

def entries (now dbNow : Int) : List Entry := stock ++ [.rollout dbNow (demo now)]

/-- Storing one entry after the other. -/
def loading : Machine Store Entry := Db.committed Entry.store

def storeStock : Repo Unit := do
  Db.forEach products Repository.upsertProduct
  Db.forEach types Repository.upsertRolloutType

/-- What `SeedIfEmpty` writes, up to its last commit. -/
def load (now dbNow : Int) : Repo Unit := do
  storeStock
  Repository.createRolloutCommit dbNow (demo now)

/-- `SeedIfEmpty` does nothing where there is a product, and otherwise loads the demo and reads it.
-/
theorem seedIfEmpty_eq (now dbNow : Int) :
    seedIfEmpty now dbNow = Repository.products >>= fun existing =>
      if existing.length > 0 then pure ()
      else load now dbNow >>= fun _ => Repository.rollout (demo now).id >>= fun _ => pure () := by
  unfold seedIfEmpty load storeStock Repository.createRollout
  simp only [Db.bind_assoc]

open Repository

/-- One statement is done or not done. -/
theorem steady_stmt {α : Type} (params : List String) (f : Store → Except Err (α × Store)) :
    Db.Steady (stmt params f) := Db.steady_call _

/-- The upsert of a type is one transaction. -/
theorem steady_upsertRolloutType (t : RolloutType) : Db.Steady (upsertRolloutType t) :=
  Db.steady_tx (Db.steady_bind (steady_stmt _ _) fun _ => Db.steady_bind (steady_stmt _ _) fun _ =>
    Db.steady_forEach (fun _ => steady_stmt _ _) _)

/-- Reading a type writes nothing. -/
theorem steady_rolloutType (id : String) : Db.Steady (rolloutType id) :=
  Db.steady_bind (steady_stmt _ _) fun _ =>
    Db.steady_bind (Db.steady_checked _) fun _ => Db.steady_pure _

/-- The creating transaction is done or not done. -/
theorem steady_createRolloutCommit (now : Int) (ro : Rollout) :
    Db.Steady (createRolloutCommit now ro) :=
  Db.steady_bind (steady_rolloutType _) fun _ => Db.steady_tx
    (Db.steady_bind (steady_stmt _ _) fun _ =>
      Db.steady_bind (Db.steady_forEach (fun _ => steady_stmt _ _) _) fun _ =>
        Db.steady_bind (Db.steady_forEach (fun _ => steady_stmt _ _) _) fun _ =>
          Db.steady_forEach (fun _ => steady_stmt _ _) _)

/-- An entry is stored, or nothing is. -/
theorem follows_store (x : Entry) : Db.Follows loading [x] x.store := by
  refine Db.follows_step ?_ ?_
  · cases x with
    | product p =>
      show Db.Steady (upsertProduct p)
      exact steady_stmt _ _
    | rolloutType t => exact steady_upsertRolloutType t
    | rollout dbNow ro => exact steady_createRolloutCommit dbNow ro
  · intro F c e c' h
    cases x with
    | product p => exact upsertProduct_error h
    | rolloutType t => exact Db.tx_error_store h
    | rollout dbNow ro => exact createRolloutCommit_error h

/-- The master data are loaded entry by entry. -/
theorem follows_storeStock : Db.Follows loading stock storeStock :=
  Db.follows_bind (Db.follows_forEach (fun p => follows_store (.product p)) products) fun _ =>
    Db.follows_forEach (fun t => follows_store (.rolloutType t)) types

/-- So is the whole demo, the rollout at its end. -/
theorem follows_load (now dbNow : Int) :
    Db.Follows loading (entries now dbNow) (load now dbNow) :=
  Db.follows_bind follows_storeStock fun _ => follows_store (.rollout dbNow (demo now))

/-! ## The whole of it -/

/-- What a start makes of a database: with a product it is left alone, without one it gets the
first entries, all of them when `load` gets through. -/
structure Outcome (now dbNow : Int) (F : Faults Err) (c : Conn Store) (t : Store) : Prop where
  left : c.store.products ≠ [] → t = c.store
  partway : c.store.products = [] →
    ∃ k ≤ (entries now dbNow).length,
      loading.exec c.store ((entries now dbNow).take k) = some t ∧
      (k = (entries now dbNow).length ↔
        F c.calls = none ∧ (load now dbNow F ⟨c.store, c.calls + 1⟩).1.isOk = true)

/-- Where no fault hits it, the first call reads the products. -/
theorem products_of_clear {F : Faults Err} {c : Conn Store} (h : F c.calls = none) :
    Repository.products F c = (.ok ((orderBy (·.name) c.store.products).map fun p =>
      ⟨p.id, p.name, p.owner.getD "", some p.brokers⟩), ⟨c.store, c.calls + 1⟩) := by
  unfold Repository.products
  rw [Db.bind_def]
  simp [select, Db.query, h, Db.checked, Db.pure_def]

/-- A fault is an error, and nothing has been read. -/
theorem products_of_fault {F : Faults Err} {c : Conn Store} {x : Fault Err}
    (h : F c.calls = some x) :
    ∃ e, Repository.products F c = (.error e, ⟨c.store, c.calls + 1⟩) := by
  unfold Repository.products
  rw [Db.bind_def]
  cases x with
  | fail e => exact ⟨e, by simp [select, Db.query, h]⟩
  | cut k e => exact ⟨e, by simp [select, Db.query, h, Db.checked, Db.throw]⟩

/-- Reading the rollout back changes nothing more. -/
theorem load_readBack (now dbNow : Int) (F : Faults Err) (c : Conn Store) :
    ((load now dbNow >>= fun _ => rollout (demo now).id >>= fun _ => pure ()) F c).2.store =
      (load now dbNow F c).2.store := by
  rw [Db.bind_def]
  split
  · next u c₁ h =>
    rw [h]
    exact Db.within_bind (within_rollout (Db.Frame.keeps fun s => s) _)
      (fun _ => Db.within_pure ()) F c₁
  · next e c₁ h => rw [h]

/-- Every way a start can end. -/
theorem seedIfEmpty_outcome (now dbNow : Int) (F : Faults Err) (c : Conn Store) :
    Outcome now dbNow F c (seedIfEmpty now dbNow F c).2.store := by
  rw [seedIfEmpty_eq, Db.bind_def]
  cases hF : F c.calls with
  | some x =>
    obtain ⟨e, h⟩ := products_of_fault hF
    rw [h]
    refine ⟨fun _ => rfl, fun _ => ⟨0, Nat.zero_le _, rfl, ?_⟩⟩
    exact iff_of_false (by simp [entries]) (by simp [hF])
  | none =>
    rw [products_of_clear hF]
    constructor
    · intro hthere
      have hlength : 0 < (orderBy (·.name) c.store.products).length := by
        rw [orderBy, List.length_insertionSort]
        exact List.length_pos_iff.mpr hthere
      simp [hlength, Db.pure_def]
    · intro hnone
      simp only [hnone, orderBy, List.insertionSort_nil, List.map_nil, List.length_nil,
        Nat.lt_irrefl, gt_iff_lt, if_false, load_readBack]
      obtain ⟨k, hk, hrun, hdone⟩ := follows_load now dbNow F ⟨c.store, c.calls + 1⟩
      refine ⟨k, hk, hrun, hdone.symm.trans ?_⟩
      simp [hF]

/-! ## What the database asks of it -/

theorem hasNul_ofList (l : List Char) : hasNul (String.ofList l) = l.any (· == '\x00') := by
  rw [hasNul, String.toList_ofList]

/-- A concatenation has a NUL where one of its parts has. -/
theorem hasNul_append (s t : String) : hasNul (s ++ t) = (hasNul s || hasNul t) := by
  rw [hasNul, String.toList_append, List.any_append]
  rfl

/-- Texts without NUL, one by one. -/
theorem any_hasNul_cons {text : String} {texts : List String} (h : hasNul text = false)
    (hs : texts.any hasNul = false) : (text :: texts).any hasNul = false := by
  rw [List.any_cons, h, hs]
  rfl

/-- A type whose texts are texts and whose tone is known can be stored. -/
theorem fits_of_texts {t : RolloutType} (hrules : t.rules.isSome = true)
    (htone : tones.contains t.tone = true)
    (hplan : (t.cascadePlan.items.map (·.stage)).any hasNul = false)
    (htext : ([t.id, t.name, t.short, t.tone, t.announce] ++ t.rules.items).any hasNul = false)
    (htasks : t.tasks.items.any hasNul = false) : RolloutTypeFits t where
  text := htext
  rules := hrules
  plan := by
    rw [List.any_map] at hplan
    exact congrArg not hplan
  tone := htone
  tasks d hd := Bool.eq_false_iff.mpr (List.any_eq_false.mp htasks d hd)

/-- All products of the demo can be stored. -/
theorem products_fit : ∀ p ∈ products, ProductFits p := by
  simp only [products, List.forall_mem_cons]
  refine ⟨?_, ?_, ?_, ?_, List.forall_mem_nil _⟩
  all_goals
    refine ⟨?_, rfl⟩
    simp only [List.cons_append, List.nil_append, Slice.items_some]
    -- text by text, each read as the list of its characters
    repeat' refine any_hasNul_cons ((hasNul_ofList _).trans (by decide)) ?_
    rfl

/-- All its types can. -/
theorem types_fit : ∀ t ∈ types, RolloutTypeFits t := by
  simp only [types, List.forall_mem_cons]
  refine ⟨?_, ?_, ?_, ?_, ?_, ?_, ?_, ?_, ?_, List.forall_mem_nil _⟩
  all_goals
    refine fits_of_texts rfl (by decide) ?_ ?_ ?_
    all_goals
      simp only [List.cons_append, List.nil_append, Slice.items_some, List.map_cons, List.map_nil]
      repeat' refine any_hasNul_cons ((hasNul_ofList _).trans (by decide)) ?_
      rfl

/-- The database takes the products and types in. -/
theorem total_storeStock {s : Store} :
    Db.Total (· = s) storeStock fun _ t => loading.exec s stock = some t := by
  have htotal : Db.Total (fun _ => True) storeStock fun _ _ => True :=
    Db.total_bind (Db.total_forEach fun p hp => total_upsertProduct (products_fit p hp)) fun _ =>
      Db.total_forEach fun t ht => total_upsertRolloutType (types_fit t ht)
  refine Db.Total.of_ok (Q := fun _ _ => True) (fun F c hF _ => htotal F c hF trivial) ?_
  rintro F c a c' rfl h
  exact follows_storeStock.of_ok h

/-- Texts without NUL are taken. -/
theorem text_accepted {params : List String} (h : params.any hasNul = false) :
    (Check.text params).refusal = none := if_neg (by rw [h]; exact Bool.false_ne_true)

/-- So is what satisfies the constraint. -/
theorem constraint_accepted {holds : Bool} (h : holds = true) (violation : Violation) :
    (Check.constraint holds violation).refusal = none := if_pos h

/-- So is a key that fits its index. -/
theorem indexed_accepted (key : List Datum) : (Check.indexed (Indexes.holds key)).refusal = none :=
  rfl

/-- The demo rollout has no NUL in its texts. -/
theorem demo_text (now : Int) :
    ["r-demo-1", "operator", "operator-feature", (demo now).title, (demo now).descExt,
      (demo now).descInt, (demo now).risks, ""].any hasNul = false := by
  simp only [demo, hasNul_append, List.any_cons, List.any_nil, Bool.or_eq_false_iff]
  repeat' apply And.intro
  all_goals first
    | exact True.intro
    | exact (hasNul_ofList _).trans (by decide)

/-- Its stages are scheduled. -/
theorem demo_stages (now : Int) :
    ∀ st ∈ (demo now).stages.items, hasNul st.env = false ∧ st.status = "scheduled" := by
  simp only [demo, Slice.items_some, List.forall_mem_cons]
  refine ⟨⟨?_, True.intro⟩, ⟨?_, True.intro⟩, ⟨?_, True.intro⟩, List.forall_mem_nil _⟩
  all_goals exact (hasNul_ofList _).trans (by decide)

/-- The demo rollout is accepted where its product and its type are, and it is not yet. -/
theorem demo_accepted {s : Store} (now : Int) (hproduct : s.hasProduct "operator" = true)
    (htype : s.hasRolloutType "operator-feature" = true)
    (hnew : s.hasRollout "r-demo-1" = false)
    (htasks : ∀ d ∈ typeTasksOf s "operator-feature", hasNul d = false) :
    refusal (createRolloutChecks s (demo now)) = none := by
  have hid : hasNul "r-demo-1" = false := (hasNul_ofList _).trans (by decide)
  rw [refusal_eq_none, createRolloutChecks, insertChecks]
  simp only [List.forall_mem_append]
  refine ⟨?_, ?_, ?_, fun c hc => absurd hc List.not_mem_nil, ?_⟩
  · refine List.forall_mem_cons.mpr ⟨text_accepted ?_, List.forall_mem_singleton.mpr (if_pos htype)⟩
    exact any_hasNul_cons ((hasNul_ofList _).trans (by decide)) rfl
  · refine List.forall_mem_cons.mpr ⟨text_accepted (demo_text now), ?_⟩
    refine List.forall_mem_cons.mpr ⟨constraint_accepted (congrArg not hnew) _, ?_⟩
    refine List.forall_mem_cons.mpr ⟨indexed_accepted _, ?_⟩
    refine List.forall_mem_cons.mpr ⟨indexed_accepted _, ?_⟩
    refine List.forall_mem_cons.mpr ⟨indexed_accepted _, ?_⟩
    refine List.forall_mem_cons.mpr ⟨constraint_accepted hproduct _, ?_⟩
    refine List.forall_mem_cons.mpr ⟨constraint_accepted htype _, ?_⟩
    -- nobody has created it: its `createdBy` is stored as NULL
    exact List.forall_mem_singleton.mpr rfl
  · intro c hc
    obtain ⟨st, hst, hc⟩ := List.mem_flatMap.mp hc
    obtain ⟨henv, hstatus⟩ := demo_stages now st.1 (List.fst_mem_of_mem_zipIdx hst)
    have hchecks : ∀ c ∈ stageChecks "r-demo-1" st, c.refusal = none := by
      rw [stageChecks, hstatus]
      refine List.forall_mem_cons.mpr ⟨text_accepted ?_, List.forall_mem_cons.mpr ⟨rfl,
        List.forall_mem_singleton.mpr (indexed_accepted _)⟩⟩
      refine any_hasNul_cons hid (any_hasNul_cons henv ?_)
      exact any_hasNul_cons ((hasNul_ofList _).trans (by decide)) rfl
    exact hchecks c hc
  · -- its tasks are those of its type
    intro c hc
    obtain ⟨d, hd, hc⟩ := List.mem_flatMap.mp hc
    have htext : hasNul d.1 = false := htasks d.1 (List.fst_mem_of_mem_zipIdx hd)
    have hchecks : ∀ c ∈ typeTaskChecks "r-demo-1" d, c.refusal = none :=
      List.forall_mem_cons.mpr ⟨text_accepted (any_hasNul_cons hid (any_hasNul_cons htext rfl)),
        List.forall_mem_singleton.mpr (indexed_accepted _)⟩
    exact hchecks c hc

end Seed

end ReleaseRadar
