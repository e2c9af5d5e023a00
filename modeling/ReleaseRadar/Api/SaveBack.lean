import ReleaseRadar.Api.Requests

/-!
# Saving master data back

The editor reads a product or a rollout type, and its save posts the object back, changed or
not. Whether that is accepted hangs on how each empty list travels: out of the database as an
array, into JSON by its tag, and back through a decoder that leaves what is missing `nil`.

For a rollout type every list has a form that comes back (`RolloutType.decode_toJson`), and
posting it leaves the row and the task list as they were. A product's brokers are tagged
`omitempty`: an empty list is not sent at all, comes back as `nil`, goes to the database as
`NULL`, and the `NOT NULL` column refuses it. A product without brokers cannot be saved back,
and every other can (`save_back_iff`).

What this rests on is what the upserts leave in every database the server leads to (`Saved`).
-/

namespace ReleaseRadar.Api

open Lib Repository

/-- What the upserts leave: the columns a body always fills are filled, a row without an id
has no name, and the numbers are 64 bits wide. -/
structure Saved (s : Store) : Prop where
  schema : Schema s
  owner : ∀ r ∈ s.products, r.owner ≠ none
  productNamed : ∀ r ∈ s.products, r.id = "" → r.name = ""
  announce : ∀ r ∈ s.rolloutTypes, r.announce ≠ none
  typeNamed : ∀ r ∈ s.rolloutTypes, r.id = "" → r.name = ""
  delays : ∀ r ∈ s.rolloutTypes,
    Json.fitsInt64 r.delayProd1 = true ∧ Json.fitsInt64 r.delayProd2 = true
  plan : ∀ r ∈ s.rolloutTypes, ∀ c ∈ r.cascadePlan.items, Json.fitsInt64 c.delayHours = true

theorem fitsInt64_pgInterval {d : Int} (h : Json.fitsInt64 d = true) :
    Json.fitsInt64 (pgInterval d) = true := by
  simp only [Json.fitsInt64, Bool.and_eq_true, decide_eq_true_eq] at h ⊢
  have hsplit := Int.mul_tdiv_add_tmod d 1000
  unfold pgInterval
  rcases Int.lt_or_le d 0 with hd | hd
  · have h₁ := Int.tmod_nonneg 1000 (show 0 ≤ -d by omega)
    have h₂ := Int.tmod_lt_of_pos (-d) (show (0 : Int) < 1000 by decide)
    rw [Int.neg_tmod] at h₁ h₂
    omega
  · have h₁ := Int.tmod_nonneg 1000 hd
    have h₂ := Int.tmod_lt_of_pos d (show (0 : Int) < 1000 by decide)
    omega

theorem preserved_saved : Preserved Saved where
  empty := by
    refine ⟨schema_empty, ?_, ?_, ?_, ?_, ?_, ?_⟩ <;> intro r hr <;> cases hr
  outside s t h hs := by
    obtain ⟨-, hp, ht, -⟩ : t.rollouts = s.rollouts ∧ t.products = s.products ∧
        t.rolloutTypes = s.rolloutTypes ∧ t.rolloutTypeTasks = s.rolloutTypeTasks := by
      simpa [schemaTables] using h
    refine ⟨hs.schema.congr h, ?_, ?_, ?_, ?_, ?_, ?_⟩
    · rw [hp]; exact hs.owner
    · rw [hp]; exact hs.productNamed
    · rw [ht]; exact hs.announce
    · rw [ht]; exact hs.typeNamed
    · rw [ht]; exact hs.delays
    · rw [ht]; exact hs.plan
  product s p hs hname hp := by
    have hrow : ∀ r ∈ (applyProduct p s).products, r = productRow p ∨ r ∈ s.products := by
      intro r hr
      exact (mem_upsertRow hr).imp_right And.left
    refine ⟨schema_applyProduct hs.schema hp, fun r hr => ?_, fun r hr => ?_, hs.announce,
      hs.typeNamed, hs.delays, hs.plan⟩
    · rcases hrow r hr with rfl | hold
      · exact Option.some_ne_none _
      · exact hs.owner r hold
    · rcases hrow r hr with rfl | hold
      · exact hname
      · exact hs.productNamed r hold
  rolloutType s t hs hname hsized ht := by
    have hrow : ∀ r ∈ (applyRolloutType t s).rolloutTypes,
        r = rolloutTypeRow t ∨ r ∈ s.rolloutTypes := by
      intro r hr
      exact (mem_upsertRow hr).imp_right And.left
    refine ⟨schema_applyRolloutType hs.schema ht, hs.owner, hs.productNamed, fun r hr => ?_,
      fun r hr => ?_, fun r hr => ?_, fun r hr => ?_⟩
    · rcases hrow r hr with rfl | hold
      · exact Option.some_ne_none _
      · exact hs.announce r hold
    · rcases hrow r hr with rfl | hold
      · exact hname
      · exact hs.typeNamed r hold
    · rcases hrow r hr with rfl | hold
      · exact ⟨fitsInt64_pgInterval hsized.delays.1, fitsInt64_pgInterval hsized.delays.2⟩
      · exact hs.delays r hold
    · rcases hrow r hr with rfl | hold
      · exact hsized.plan
      · exact hs.plan r hold
  create _ _ _ _ hs hnew htext :=
    ⟨schema_applyCreate hs.schema hnew htext, hs.owner, hs.productNamed, hs.announce, hs.typeNamed,
      hs.delays, hs.plan⟩
  update _ _ _ hs :=
    ⟨schema_applyUpdate hs.schema, hs.owner, hs.productNamed, hs.announce, hs.typeNamed, hs.delays,
      hs.plan⟩
  delete _ _ hs :=
    ⟨schema_applyDelete hs.schema, hs.owner, hs.productNamed, hs.announce, hs.typeNamed, hs.delays,
      hs.plan⟩

/-! ## Requests of an admin -/

/-- An admin's request. -/
structure AdminRequest (method : String) (path : List String) (req : Request) : Prop where
  method : req.method = method
  path : req.path = path
  admin : ∃ sess, req.session = some sess ∧ sess.role = roleAdmin

section Respond

variable {env : Env} {req : Request} {F : Faults Err} {c : Conn Store}

theorem requireAdmin_of_admin {next : Session → Repo Reply} {sess : Session}
    (h : sess.role = roleAdmin) : requireAdmin (some sess) next = next sess := by
  unfold requireAdmin
  simp [h]

/-- The handler of the route answers it. -/
theorem AdminRequest.respond_eq {method : String} {path : List String} {r : Route}
    (h : AdminRequest method path req) (hhead : method ≠ "HEAD")
    (hr : resolve (patternMethod method) path = some r) :
    respond env req F c = serve (r.handler env req) F c := by
  rw [respond_eq_serve (h.method ▸ hhead)]
  unfold route
  rw [h.method, h.path, hr]

theorem respond_upsertProduct (h : AdminRequest "POST" ["api", "products"] req) :
    respond env req F c = serve (upsertProduct env req.body.product) F c := by
  obtain ⟨sess, hsess, hrole⟩ := h.admin
  rw [h.respond_eq (r := .upsertProduct) (by decide) rfl, Route.handler, hsess,
    requireAdmin_of_admin hrole]

theorem respond_upsertRolloutType (h : AdminRequest "POST" ["api", "rollout-types"] req) :
    respond env req F c = serve (upsertRolloutType env req.body.rolloutType) F c := by
  obtain ⟨sess, hsess, hrole⟩ := h.admin
  rw [h.respond_eq (r := .upsertRolloutType) (by decide) rfl, Route.handler, hsess,
    requireAdmin_of_admin hrole]

end Respond

/-! ## Listing -/

/-- The products are listed whole or not at all, and without faults they are. -/
theorem respond_listProducts {env : Env} {req : Request} {F : Faults Err} {c : Conn Store}
    (h : AdminRequest "GET" ["api", "products"] req) :
    (Db.Clean F c → (respond env req F c).1.status = 200) ∧
      ((respond env req F c).1.status = 200 → (respond env req F c).1 = writeJSON [] 200
        (.arr ((orderBy (·.name) c.store.products).map fun r => (scanProduct r).toJson))) := by
  obtain ⟨sess, hsess, hrole⟩ := h.admin
  rw [h.respond_eq (r := .listProducts) (by decide) rfl, Route.handler, hsess]
  show (_ → (serve listProducts F c).1.status = _) ∧ ((serve listProducts F c).1.status = _ →
    (serve listProducts F c).1 = _)
  unfold listProducts
  constructor
  · intro hF
    obtain ⟨ps, c', hps, -⟩ := total_products F c hF rfl
    rw [serve_of_ok hps]
    rfl
  · intro hstatus
    obtain ⟨ps, c', hps, hserve⟩ := serve_ok (by rw [hstatus])
    obtain ⟨-, rfl⟩ := products_ok hps
    rw [hserve, List.map_map]
    rfl

/-- The rollout types are listed whole or not at all, and without faults they are. -/
theorem respond_listRolloutTypes {env : Env} {req : Request} {F : Faults Err} {c : Conn Store}
    (hs : Schema c.store) (h : AdminRequest "GET" ["api", "rollout-types"] req) :
    (Db.Clean F c → (respond env req F c).1.status = 200) ∧
      ((respond env req F c).1.status = 200 → (respond env req F c).1 = writeJSON [] 200
        (.arr ((orderBy (·.name) c.store.rolloutTypes).map fun r =>
          (readRolloutType c.store r).toJson))) := by
  obtain ⟨sess, hsess, hrole⟩ := h.admin
  rw [h.respond_eq (r := .listRolloutTypes) (by decide) rfl, Route.handler, hsess,
    requireAdmin_of_admin hrole]
  unfold listRolloutTypes
  constructor
  · intro hF
    obtain ⟨ts, c', hts, -⟩ := total_rolloutTypes hs F c hF rfl
    rw [serve_of_ok hts]
    rfl
  · intro hstatus
    obtain ⟨ts, c', hts, hserve⟩ := serve_ok (by rw [hstatus])
    obtain ⟨-, rfl⟩ := rolloutTypes_ok hts
    rw [hserve, List.map_map]
    rfl

/-! ## Saving back -/

/-- `j` is what the server gives for the product of `row`. -/
def ProductForm (row : ProductRow) (j : Json) : Prop := j = (scanProduct row).toJson

/-- `j` is what the server gives for the type of `row` and the task list `tasks`: of a listed
one the delays are the stored ones, of an echoed one those of the body, which are stored to
the microsecond. -/
def RolloutTypeForm (row : RolloutTypeRow) (tasks : List String) (j : Json) : Prop :=
  ∃ t, j = t.toJson ∧ rolloutTypeRow t = row ∧ t.tasks.items = tasks ∧ t.Sized ∧ RolloutTypeFits t

section Save

variable {env : Env} {req : Request} {F : Faults Err} {c : Conn Store}

/-- Answered 200, and the database is what it was. -/
def ProductSaved (c : Conn Store) (res : Reply × Conn Store) : Prop :=
  res.1.status = 200 ∧ res.2.store = c.store

/-- Answered 200, every row is what it was, and so is every type's ordered task list. -/
structure RolloutTypeSaved (c : Conn Store) (res : Reply × Conn Store) : Prop where
  status : res.1.status = 200
  rows : { res.2.store with rolloutTypeTasks := c.store.rolloutTypeTasks } = c.store
  tasks : ∀ id, typeTasksOf res.2.store id = typeTasksOf c.store id

/-- A body that was read back keeps its id. -/
theorem slug_named {id name : String} (h : id = "" → name = "") :
    (if id = "" then slug env name else id) = id := by
  split
  · next he =>
    rw [h he, he]
    rfl
  · rfl

theorem serve_upsertProduct_ok {p : Product} (hname : p.id = "" → p.name = "")
    {c' : Conn Store} (h : Repository.upsertProduct p F c = (.ok (), c')) :
    serve (upsertProduct env (some p)) F c =
      ((writeJSON [] 200 p.toJson).after ⟨"product", p.id, "update"⟩, c') := by
  unfold upsertProduct decoded
  simp only [slug_named hname]
  exact serve_of_ok h

theorem serve_upsertProduct_error {p : Product} (hname : p.id = "" → p.name = "") {e : Err}
    {c' : Conn Store} (h : Repository.upsertProduct p F c = (.error e, c')) :
    serve (upsertProduct env (some p)) F c = (writeErr e, c') := by
  unfold upsertProduct decoded
  simp only [slug_named hname]
  exact serve_of_error h

/-- **A product is saved back exactly when it has brokers.** -/
theorem productSaved_iff (hs : Saved c.store) {row : ProductRow} (hrow : row ∈ c.store.products)
    {j : Json} (hj : ProductForm row j) (hreq : AdminRequest "POST" ["api", "products"] req)
    (hbody : req.body.product = Product.fromJson j) (hF : Db.Clean F c) :
    ProductSaved c (respond env req F c) ↔ row.brokers ≠ [] := by
  obtain ⟨owner, howner⟩ := Option.ne_none_iff_exists'.mp (hs.owner row hrow)
  have hname : row.id = "" → row.name = "" := hs.productNamed row hrow
  rw [respond_upsertProduct hreq, hbody, hj, Product.decode_toJson]
  show ProductSaved c (serve (upsertProduct env (some { scanProduct row with
    brokers := if row.brokers.isEmpty then none else some row.brokers })) F c) ↔ _
  by_cases hempty : row.brokers = []
  · rw [if_pos (List.isEmpty_iff.mpr hempty)]
    refine iff_of_false (fun h => ?_) (not_not.mpr hempty)
    obtain ⟨e, c', herr⟩ := upsertProduct_nil (F := F) (c := c)
      (p := { scanProduct row with brokers := none }) rfl
    have hstatus := h.1
    rw [serve_upsertProduct_error hname herr] at hstatus
    exact absurd hstatus (writeErr_ne e (by decide))
  · rw [if_neg (fun h => hempty (List.isEmpty_iff.mp h))]
    refine iff_of_true ?_ hempty
    have hrow' : productRow (scanProduct row) = row := by
      rw [productRow, scanProduct, howner]
      obtain ⟨id, name, owner', brokers⟩ := row
      cases howner
      rfl
    have hfits : ProductFits (scanProduct row) := by
      refine ⟨?_, rfl⟩
      have htext := hs.schema.productText row hrow
      rw [ProductRow.texts, howner] at htext
      rw [show [(scanProduct row).id, (scanProduct row).name, (scanProduct row).owner] ++
        (scanProduct row).brokers.items = [row.id, row.name] ++ [owner] ++ row.brokers by
          simp [scanProduct, howner]]
      exact htext
    obtain ⟨u, c', hok, -⟩ := total_upsertProduct hfits F c hF trivial
    obtain ⟨-, hstore⟩ := upsertProduct_ok hok
    show ProductSaved c (serve (upsertProduct env (some (scanProduct row))) F c)
    rw [serve_upsertProduct_ok hname hok]
    refine ⟨rfl, ?_⟩
    show c'.store = c.store
    rw [hstore, applyProduct, hrow', upsertRow_of_mem hs.schema.products hrow]

theorem serve_upsertRolloutType_ok {t : RolloutType} (hname : t.id = "" → t.name = "")
    {c' : Conn Store} (h : Repository.upsertRolloutType t F c = (.ok (), c')) :
    serve (upsertRolloutType env (some t)) F c =
      ((writeJSON [] 200 t.toJson).after ⟨"rollout-type", t.id, "update"⟩, c') := by
  unfold upsertRolloutType decoded
  simp only [slug_named hname]
  exact serve_of_ok h

/-- **A rollout type is saved back**: posting what stands in its row and its task list leaves
both as they are. -/
theorem rolloutTypeSaved (hs : Saved c.store) {row : RolloutTypeRow}
    (hrow : row ∈ c.store.rolloutTypes) {j : Json}
    (hj : RolloutTypeForm row (typeTasksOf c.store row.id) j)
    (hreq : AdminRequest "POST" ["api", "rollout-types"] req)
    (hbody : req.body.rolloutType = RolloutType.fromJson j) (hF : Db.Clean F c) :
    RolloutTypeSaved c (respond env req F c) := by
  obtain ⟨t, rfl, rfl, htasks, hsized, hfits⟩ := hj
  have hname : t.id = "" → t.name = "" := hs.typeNamed _ hrow
  obtain ⟨u, c', hok, -⟩ := total_upsertRolloutType hfits F c hF trivial
  obtain ⟨-, hstore⟩ := upsertRolloutType_ok hok
  rw [respond_upsertRolloutType hreq, hbody, RolloutType.decode_toJson hsized,
    serve_upsertRolloutType_ok hname hok]
  refine ⟨rfl, ?_, fun id => ?_⟩
  · show { c'.store with rolloutTypeTasks := c.store.rolloutTypeTasks } = c.store
    rw [hstore, applyRolloutType, upsertRow_of_mem hs.schema.types hrow]
  · show typeTasksOf c'.store id = typeTasksOf c.store id
    rw [hstore]
    by_cases hid : id = t.id
    · rw [hid, typeTasksOf_applyRolloutType, htasks]
      rfl
    · exact typeTasksOf_applyRolloutType_ne t c.store hid

/-! ## What is given -/

/-- What is listed of a type is what stands in its row. -/
theorem form_readRolloutType (hs : Saved c.store) {row : RolloutTypeRow}
    (hrow : row ∈ c.store.rolloutTypes) :
    RolloutTypeForm row (typeTasksOf c.store row.id) (readRolloutType c.store row).toJson := by
  obtain ⟨announce, hannounce⟩ := Option.ne_none_iff_exists'.mp (hs.announce row hrow)
  have hfits := hs.schema.typeRow row hrow
  refine ⟨readRolloutType c.store row, rfl, ?_, rfl, ⟨hs.delays row hrow, hs.plan row hrow⟩, ?_⟩
  · have hdelays := hfits.delays
    obtain ⟨id, name, short, tone, d₁, d₂, plan, announce', rules⟩ := row
    cases hannounce
    show RolloutTypeRow.mk id name short tone (pgInterval d₁) (pgInterval d₂) plan _ rules = _
    rw [hdelays.1, hdelays.2]
    rfl
  · have htext := hfits.text
    rw [RolloutTypeRow.texts, hannounce] at htext
    refine ⟨?_, rfl, hfits.plan, hfits.tone, fun d hd => ?_⟩
    · show ([row.id, row.name, row.short, row.tone, row.announce.getD ""] ++ row.rules).any hasNul =
        false
      rw [hannounce]
      exact htext
    · obtain ⟨r, hr, rfl⟩ := List.mem_map.mp hd
      have hr := (List.mem_insertionSort _).mp hr
      exact hs.schema.typeTask r (List.mem_filter.mp hr).1

/-- What an upsert of a product answers is what it has stored. -/
theorem form_upsertProduct (hreq : AdminRequest "POST" ["api", "products"] req)
    (hstatus : (respond env req F c).1.status = 200) :
    ∃ row ∈ (respond env req F c).2.store.products, ∃ j,
      (respond env req F c).1.body = .json j ∧ ProductForm row j := by
  rw [respond_upsertProduct hreq] at hstatus ⊢
  cases hbody : req.body.product with
  | none =>
    rw [hbody] at hstatus
    cases hstatus
  | some p =>
    rw [hbody] at hstatus
    -- the id is the body's, or made of the name
    generalize hp : { p with id := if p.id = "" then slug env p.name else p.id } = p'
    have hserve : serve (upsertProduct env (some p)) F c = serve (do
        Repository.upsertProduct p'
        pure ((writeJSON [] 200 p'.toJson).after ⟨"product", p'.id, "update"⟩)) F c := by
      rw [← hp]
      rfl
    rw [hserve] at hstatus ⊢
    obtain ⟨u, c', hw, hanswer⟩ := serve_ok (by rw [hstatus])
    rw [hanswer]
    obtain ⟨hfits, hstore⟩ := upsertProduct_ok hw
    refine ⟨productRow p', ?_, p'.toJson, rfl, ?_⟩
    · show productRow p' ∈ c'.store.products
      rw [hstore]
      exact mem_upsertRow_self
    · obtain ⟨brokers, hbrokers⟩ := Option.isSome_iff_exists.mp hfits.brokers
      obtain ⟨id, name, owner, brokers'⟩ := p'
      cases hbrokers
      rfl

/-- What an upsert of a type answers is what it has stored. -/
theorem form_upsertRolloutType (hsized : req.Sized)
    (hreq : AdminRequest "POST" ["api", "rollout-types"] req)
    (hstatus : (respond env req F c).1.status = 200) :
    ∃ row ∈ (respond env req F c).2.store.rolloutTypes, ∃ j,
      (respond env req F c).1.body = .json j ∧
        RolloutTypeForm row (typeTasksOf (respond env req F c).2.store row.id) j := by
  rw [respond_upsertRolloutType hreq] at hstatus ⊢
  cases hbody : req.body.rolloutType with
  | none =>
    rw [hbody] at hstatus
    cases hstatus
  | some t =>
    rw [hbody] at hstatus
    generalize ht : { t with id := if t.id = "" then slug env t.name else t.id } = t'
    have hsized' : t'.Sized := ht ▸ ⟨(hsized t hbody).delays, (hsized t hbody).plan⟩
    have hserve : serve (upsertRolloutType env (some t)) F c = serve (do
        Repository.upsertRolloutType t'
        pure ((writeJSON [] 200 t'.toJson).after ⟨"rollout-type", t'.id, "update"⟩)) F c := by
      rw [← ht]
      rfl
    rw [hserve] at hstatus ⊢
    obtain ⟨u, c', hw, hanswer⟩ := serve_ok (by rw [hstatus])
    rw [hanswer]
    obtain ⟨hfits, hstore⟩ := upsertRolloutType_ok hw
    refine ⟨rolloutTypeRow t', ?_, t'.toJson, rfl, t', rfl, rfl, ?_, hsized', hfits⟩
    · show rolloutTypeRow t' ∈ c'.store.rolloutTypes
      rw [hstore]
      exact mem_upsertRow_self
    · show t'.tasks.items = typeTasksOf c'.store t'.id
      rw [hstore, typeTasksOf_applyRolloutType]

end Save

/-- **Saving back**, in every database the server leads to. What the lists and the upserts
give of a product or a rollout type is what is stored of it. To post it back leaves a rollout
type as it is, always, and a product exactly when its brokers are not empty. -/
theorem save_back_iff {s : Store} (hs : Reached s) (env : Env) (req : Request) (F : Faults Err)
    (c : Conn Store) (hc : c.store = s) :
    (AdminRequest "GET" ["api", "products"] req →
      (Db.Clean F c → (respond env req F c).1.status = 200) ∧
      ((respond env req F c).1.status = 200 → ∃ forms : ProductRow → Json,
        (respond env req F c).1.body = .json (.arr ((orderBy (·.name) s.products).map forms)) ∧
        ∀ row ∈ s.products, ProductForm row (forms row))) ∧
    (AdminRequest "GET" ["api", "rollout-types"] req →
      (Db.Clean F c → (respond env req F c).1.status = 200) ∧
      ((respond env req F c).1.status = 200 → ∃ forms : RolloutTypeRow → Json,
        (respond env req F c).1.body = .json (.arr ((orderBy (·.name) s.rolloutTypes).map forms)) ∧
        ∀ row ∈ s.rolloutTypes, RolloutTypeForm row (typeTasksOf s row.id) (forms row))) ∧
    (AdminRequest "POST" ["api", "products"] req → (respond env req F c).1.status = 200 →
      ∃ row ∈ (respond env req F c).2.store.products, ∃ j,
        (respond env req F c).1.body = .json j ∧ ProductForm row j) ∧
    (AdminRequest "POST" ["api", "rollout-types"] req → req.Sized →
      (respond env req F c).1.status = 200 →
      ∃ row ∈ (respond env req F c).2.store.rolloutTypes, ∃ j,
        (respond env req F c).1.body = .json j ∧
          RolloutTypeForm row (typeTasksOf (respond env req F c).2.store row.id) j) ∧
    (∀ row ∈ s.products, ∀ j, ProductForm row j → AdminRequest "POST" ["api", "products"] req →
      req.body.product = Product.fromJson j → Db.Clean F c →
      (ProductSaved c (respond env req F c) ↔ row.brokers ≠ [])) ∧
    ∀ row ∈ s.rolloutTypes, ∀ j, RolloutTypeForm row (typeTasksOf s row.id) j →
      AdminRequest "POST" ["api", "rollout-types"] req →
      req.body.rolloutType = RolloutType.fromJson j → Db.Clean F c →
      RolloutTypeSaved c (respond env req F c) := by
  subst hc
  have hsaved := preserved_saved.reached hs
  refine ⟨fun hreq => ?_, fun hreq => ?_, form_upsertProduct,
    fun hreq hsized => form_upsertRolloutType hsized hreq, ?_, ?_⟩
  · obtain ⟨hclean, hlist⟩ := respond_listProducts hreq
    exact ⟨hclean, fun hstatus => ⟨_, congrArg Reply.body (hlist hstatus), fun _ _ => rfl⟩⟩
  · obtain ⟨hclean, hlist⟩ := respond_listRolloutTypes hsaved.schema hreq
    exact ⟨hclean, fun hstatus => ⟨_, congrArg Reply.body (hlist hstatus), fun row hrow =>
      form_readRolloutType hsaved hrow⟩⟩
  · intro row hrow j hj hreq hbody hF
    exact productSaved_iff hsaved hrow hj hreq hbody hF
  · intro row hrow j hj hreq hbody hF
    exact rolloutTypeSaved hsaved hrow hj hreq hbody hF

/-! ## A product without brokers -/

private def anyTime : Env := ⟨0, 0, "01234567", Char.toUpper, Char.toLower, fun _ => 0⟩

private def noBody : Decodings := ⟨none, none, none, none, none, ⟨0, 0, 0⟩⟩

private def admin (method path : String) (body : Decodings) : Request :=
  ⟨method, ["api", path], some ⟨"a", "a@example.org", "A", roleAdmin, none, 0⟩, body, none⟩

private theorem adminRequest (method path : String) (body : Decodings) :
    AdminRequest method ["api", path] (admin method path body) :=
  ⟨rfl, rfl, _, rfl, rfl⟩

/-- The request that posts `j` as a product. -/
def postProduct (j : Json) : Request :=
  admin "POST" "products" { noBody with product := Product.fromJson j }

def postRolloutType (j : Json) : Request :=
  admin "POST" "rollout-types" { noBody with rolloutType := RolloutType.fromJson j }

private def patchType : RolloutType :=
  ⟨"patch", "Patch", "P", "neutral", 1500, 0, some [⟨"prod1", 24⟩], "", some ["one rule"],
    some ["first", "second"]⟩

private theorem patchType_sized : patchType.Sized :=
  ⟨⟨by decide, by decide⟩, by decide⟩

private def seeds : List Event :=
  [.seedProduct ⟨"pay", "Payments", "Ann", some ["kafka"]⟩ (by decide),
    .seedRolloutType patchType (by decide) patchType_sized]

/-- One product with a broker and one rollout type. -/
def masterData : Store := seeds.foldl Event.apply Store.empty

/-- Both come back: the product as it is listed, the type as its upsert echoed it. -/
theorem save_back_iff_masterData :
    (∃ row ∈ masterData.products, ProductSaved ⟨masterData, 0⟩
      (respond anyTime (postProduct (scanProduct row).toJson) Db.noFaults ⟨masterData, 0⟩)) ∧
    ∃ row ∈ masterData.rolloutTypes, RolloutTypeSaved ⟨masterData, 0⟩
      (respond anyTime (postRolloutType patchType.toJson) Db.noFaults ⟨masterData, 0⟩) := by
  have hreached : Reached masterData := ⟨seeds, rfl⟩
  have hclean : Db.Clean (Db.noFaults : Faults Err) ⟨masterData, 0⟩ := fun _ _ => rfl
  refine ⟨⟨⟨"pay", "Payments", some "Ann", ["kafka"]⟩, by decide +kernel, ?_⟩,
    ⟨rolloutTypeRow patchType, by decide, ?_⟩⟩
  · obtain ⟨-, -, -, -, hproduct, -⟩ := save_back_iff hreached anyTime
      (postProduct (scanProduct ⟨"pay", "Payments", some "Ann", ["kafka"]⟩).toJson) Db.noFaults
      ⟨masterData, 0⟩ rfl
    exact (hproduct _ (by decide) _ rfl (adminRequest ..) rfl hclean).mpr (by decide)
  · obtain ⟨-, -, -, -, -, htype⟩ := save_back_iff hreached anyTime
      (postRolloutType patchType.toJson) Db.noFaults ⟨masterData, 0⟩ rfl
    refine htype (rolloutTypeRow patchType) (by decide) _ ⟨patchType, rfl, rfl, ?_,
      patchType_sized, ⟨by decide, rfl, by decide, by decide, by decide⟩⟩
        (adminRequest ..) rfl hclean
    decide

/-- The new product of the editor, saved before a broker is added. -/
def newProduct : Request :=
  postProduct (.obj [("id", .str ""), ("name", .str "Billing"), ("owner", .str ""),
    ("brokers", .arr [])])

/-- **A product that cannot be saved back**: the server accepts it, lists it without its
brokers, and answers 400 to what it has listed. -/
theorem product_not_saved_back :
    ∃ s, Reached s ∧ ∃ row ∈ s.products,
      (respond anyTime newProduct Db.noFaults ⟨Store.empty, 0⟩).1.status = 200 ∧
      (respond anyTime newProduct Db.noFaults ⟨Store.empty, 0⟩).2.store = s ∧
      (respond anyTime (admin "GET" "products" noBody) Db.noFaults ⟨s, 0⟩).1 =
        writeJSON [] 200 (.arr [(scanProduct row).toJson]) ∧
      (respond anyTime (postProduct (scanProduct row).toJson) Db.noFaults
        ⟨s, 0⟩).1.status = 400 := by
  refine ⟨(respond anyTime newProduct Db.noFaults ⟨Store.empty, 0⟩).2.store,
    ⟨[.request anyTime newProduct (fun t ht => by cases ht) Db.noFaults], rfl⟩,
    ⟨"billing", "Billing", some "", []⟩, by decide, by decide, rfl, ?_,
    by decide⟩
  refine ((respond_listProducts (adminRequest ..)).2 ?_).trans ?_
  · decide
  · rfl

end ReleaseRadar.Api
