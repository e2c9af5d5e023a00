import ReleaseRadar.Api.Requests

/-!
# The list fields of the answers

A view of the frontend goes through `stages`, `pair`, `tasks`, `rules` and a lock's
`products` without a look at what they are, so a successful answer has to carry an array in
each. Every list has its own way there: `hydrate` and `hydrateAll` fill the three of a
rollout, a scanned array is never `nil`, the lock that is answered is the normalised one, and
the echo of an upsert is the body.

The brokers of a product are the exception by intent: the tag says `omitempty`, the
frontend's type says optional, and the views read `p.brokers || []`. They are there as an
array or not there, and not there exactly when the product has none (`list_fields`).

An answer with a time in no year of four digits has no text, and its body stays empty; all that
is said here is about the others (`encoded`).
-/

namespace ReleaseRadar

namespace Json

/-- The member `key` of an object. -/
def member (key : String) : Json → Option Json
  | .obj fields => fields.lookup key
  | _ => none

/-- The members `keys` are there, and they are arrays. -/
def HasArrays (keys : List String) (j : Json) : Prop :=
  ∀ key ∈ keys, ∃ items, j.member key = some (.arr items)

/-- An array, `P` of each of its items. -/
def Each (P : Json → Prop) (j : Json) : Prop := ∃ items, j = .arr items ∧ ∀ item ∈ items, P item

/-- An array of what has the property. -/
theorem each_map {α : Type} {P : Json → Prop} {f : α → Json} {xs : List α}
    (h : ∀ x ∈ xs, P (f x)) : Each P (.arr (xs.map f)) := by
  refine ⟨_, rfl, fun item hitem => ?_⟩
  obtain ⟨x, hx, rfl⟩ := List.mem_map.mp hitem
  exact h x hx

/-- A list tagged `omitempty`: an array, or not there. -/
def optionalStrings (xs : List String) : Option Json :=
  if xs = [] then none else some (.arr (xs.map .str))

end Json

open Json Lib

/-! ## The entities -/

/-- The three lists are there. -/
structure Rollout.Hydrated (ro : Rollout) : Prop where
  stages : ro.stages.isSome = true
  pair : ro.pair.isSome = true
  tasks : ro.tasks.isSome = true

def rolloutLists : List String := ["stages", "pair", "tasks"]

/-- A rollout whose three lists are there is written with three arrays. -/
theorem Rollout.Hydrated.hasArrays {ro : Rollout} (h : ro.Hydrated) :
    HasArrays rolloutLists ro.toJson := by
  obtain ⟨stages, hstages⟩ := Option.isSome_iff_exists.mp h.stages
  obtain ⟨pair, hpair⟩ := Option.isSome_iff_exists.mp h.pair
  obtain ⟨tasks, htasks⟩ := Option.isSome_iff_exists.mp h.tasks
  intro key hkey
  simp only [rolloutLists, List.mem_cons, List.not_mem_nil, or_false] at hkey
  rcases hkey with rfl | rfl | rfl
  · refine ⟨stages.map RolloutStage.toJson, ?_⟩
    show some (ofSlice RolloutStage.toJson ro.stages) = _
    rw [hstages]
    rfl
  · refine ⟨pair.map .str, ?_⟩
    show some (ofStrings ro.pair) = _
    rw [hpair]
    rfl
  · refine ⟨tasks.map RolloutTask.toJson, ?_⟩
    show some (ofSlice RolloutTask.toJson ro.tasks) = _
    rw [htasks]
    rfl

/-- A lock whose products are there is written with an array of them. -/
theorem Lock.hasArrays {l : Lock} (h : l.products.isSome = true) :
    HasArrays ["products"] l.toJson := by
  obtain ⟨products, hproducts⟩ := Option.isSome_iff_exists.mp h
  intro key hkey
  rw [List.mem_singleton.mp hkey]
  refine ⟨products.map .str, ?_⟩
  show some (ofStrings l.products) = _
  rw [hproducts]
  rfl

/-- What stands behind an optional member is found past it. -/
theorem lookup_strOmitEmpty {key other s : String} {rest : List (String × Json)} (h : key ≠ other) :
    (strOmitEmpty other s ++ rest).lookup key = rest.lookup key := by
  unfold strOmitEmpty
  split
  · rfl
  · show ((other, Json.str s) :: rest).lookup key = _
    rw [List.lookup_cons, beq_eq_false_iff_ne.mpr h]

/-- `omitempty`: the member is there when the list has an item. -/
theorem Product.member_brokers (p : Product) :
    p.toJson.member "brokers" = optionalStrings p.brokers.items := by
  show ([("id", Json.str p.id), ("name", Json.str p.name)] ++ strOmitEmpty "owner" p.owner ++
    stringsOmitEmpty "brokers" p.brokers).lookup "brokers" = _
  rw [List.append_assoc]
  show (strOmitEmpty "owner" p.owner ++ stringsOmitEmpty "brokers" p.brokers).lookup "brokers" = _
  rw [lookup_strOmitEmpty (by decide)]
  obtain ⟨id, name, owner, brokers⟩ := p
  cases brokers with
  | none => rfl
  | some xs =>
    cases xs with
    | nil => rfl
    | cons x xs => rfl

/-- Rules that are there are written as an array. -/
theorem RolloutType.hasArrays_rules {t : RolloutType} (h : t.rules.isSome = true) :
    HasArrays ["rules"] t.toJson := by
  obtain ⟨rules, hrules⟩ := Option.isSome_iff_exists.mp h
  intro key hkey
  rw [List.mem_singleton.mp hkey]
  refine ⟨rules.map .str, ?_⟩
  show (strOmitEmpty "announce" t.announce ++ _).lookup "rules" = _
  rw [lookup_strOmitEmpty (by decide), hrules]
  rfl

/-- Tasks that are there are written as an array. -/
theorem RolloutType.hasArrays_tasks {t : RolloutType} (h : t.tasks.isSome = true) :
    HasArrays ["tasks"] t.toJson := by
  obtain ⟨tasks, htasks⟩ := Option.isSome_iff_exists.mp h
  intro key hkey
  rw [List.mem_singleton.mp hkey]
  refine ⟨tasks.map .str, ?_⟩
  show (strOmitEmpty "announce" t.announce ++ _).lookup "tasks" = _
  rw [lookup_strOmitEmpty (by decide), htasks]
  rfl

/-- A cascade plan that is there is written as an array. -/
theorem RolloutType.hasArrays_plan {t : RolloutType} (h : t.cascadePlan.isSome = true) :
    HasArrays ["cascadePlan"] t.toJson := by
  obtain ⟨plan, hplan⟩ := Option.isSome_iff_exists.mp h
  intro key hkey
  rw [List.mem_singleton.mp hkey]
  refine ⟨plan.map CascadeStage.toJson, ?_⟩
  show some (ofSlice CascadeStage.toJson t.cascadePlan) = _
  rw [hplan]
  rfl

/-! ## What the repository returns -/

namespace Repository

/-- A rollout that is read by its id has its lists, however short they are cut. -/
theorem yields_rollout (id : String) : Db.Yields (rollout id) Rollout.Hydrated := by
  refine Db.yields_bind Db.yields_any fun ro _ => ?_
  refine Db.yields_bind Db.yields_any fun stages _ => ?_
  refine Db.yields_bind Db.yields_any fun pair _ => ?_
  refine Db.yields_bind Db.yields_any fun tasks _ => ?_
  exact Db.yields_pure ⟨rfl, rfl, rfl⟩

/-- To append at a place keeps the lists filled. -/
theorem hydrated_appendAt {f : Rollout → Rollout} (hf : ∀ ro, ro.Hydrated → (f ro).Hydrated)
    (i : Option Nat) {rollouts : List Rollout} (h : ∀ ro ∈ rollouts, ro.Hydrated) :
    ∀ ro ∈ appendAt i f rollouts, ro.Hydrated := by
  intro ro hro
  cases i with
  | none => exact h ro hro
  | some i =>
    obtain ⟨k, hk⟩ := List.mem_iff_getElem?.mp hro
    rw [appendAt, List.getElem?_modify] at hk
    obtain ⟨old, hold, rfl⟩ := Option.map_eq_some_iff.mp hk
    have hold := h old (List.mem_of_getElem? hold)
    split
    · exact hf old hold
    · exact hold

/-- Handing the rows out keeps the lists of every rollout there. -/
theorem yields_appendRows {ρ : Type} {append : List Rollout → ρ → List Rollout}
    (happend : ∀ (rollouts : List Rollout) r, (∀ ro ∈ rollouts, ro.Hydrated) →
      ∀ ro ∈ append rollouts r, ro.Hydrated)
    (rows : Rows ρ Err) {rollouts : List Rollout} (h : ∀ ro ∈ rollouts, ro.Hydrated) :
    Db.Yields (appendRows append rows rollouts) fun out => ∀ ro ∈ out, ro.Hydrated := by
  have hall : ∀ (seen : List ρ) (rollouts : List Rollout), (∀ ro ∈ rollouts, ro.Hydrated) →
      ∀ ro ∈ seen.foldl append rollouts, ro.Hydrated := by
    intro seen
    induction seen with
    | nil => exact fun _ h => h
    | cons r seen ih => exact fun rollouts h => ih _ (happend rollouts r h)
  unfold appendRows
  split
  · exact Db.yields_pure (hall _ _ h)
  · exact Db.yields_throw _

/-- So have the rollouts of the list. -/
theorem yields_rollouts : Db.Yields rollouts fun rs => ∀ ro ∈ rs, ro.Hydrated := by
  refine Db.yields_bind Db.yields_any fun rows _ => Db.yields_bind Db.yields_any fun out _ => ?_
  have hempty : ∀ ro ∈ out.map fun ro : Rollout =>
      { ro with stages := some [], pair := some [], tasks := some [] }, ro.Hydrated := by
    intro ro hro
    obtain ⟨old, -, rfl⟩ := List.mem_map.mp hro
    exact ⟨rfl, rfl, rfl⟩
  unfold hydrateAll
  dsimp only
  split
  · exact Db.yields_pure hempty
  · refine Db.yields_bind Db.yields_any fun srows _ => ?_
    refine Db.yields_bind (yields_appendRows (fun _ r h => ?_) srows hempty) fun rs h₁ => ?_
    · exact hydrated_appendAt
        (f := fun ro => { ro with stages := some (ro.stages.items ++ [scanStage r]) })
        (fun ro hro => ⟨rfl, hro.pair, hro.tasks⟩) _ h
    refine Db.yields_bind Db.yields_any fun arows _ => ?_
    refine Db.yields_bind (yields_appendRows (fun _ r h => ?_) arows h₁) fun rs h₂ => ?_
    · exact hydrated_appendAt
        (f := fun ro => { ro with pair := some (ro.pair.items ++ [r.actorId]) })
        (fun ro hro => ⟨hro.stages, rfl, hro.tasks⟩) _ h
    refine Db.yields_bind Db.yields_any fun trows _ => ?_
    refine yields_appendRows (fun _ r h => ?_) trows h₂
    exact hydrated_appendAt
      (f := fun ro => { ro with tasks := some (ro.tasks.items ++ [scanTask r]) })
      (fun ro hro => ⟨hro.stages, hro.pair, rfl⟩) _ h

/-- The lock that is answered is the one the statement wrote. -/
theorem yields_createLock (now : Int) (l : Lock) :
    Db.Yields (createLock now l) fun out => out.products.isSome = true :=
  Db.yields_bind Db.yields_any fun _ _ => Db.yields_pure rfl

/-- An update gives the lock back with its products. -/
theorem yields_updateLock (l : Lock) :
    Db.Yields (updateLock l) fun out => out.products.isSome = true := by
  refine Db.yields_bind Db.yields_any fun affected _ => ?_
  cases affected
  · exact Db.yields_throw _
  · exact Db.yields_pure rfl

/-- The locks are read with their products. -/
theorem yields_locks : Db.Yields locks fun ls => ∀ l ∈ ls, l.products.isSome = true := by
  intro F c ls c' h
  obtain ⟨-, hls⟩ := checked_select_ok h
  intro l hl
  rw [hls] at hl
  obtain ⟨r, -, rfl⟩ := List.mem_map.mp hl
  rfl

end Repository

namespace Api

open Repository

/-- What a reader gets of a rollout still has its lists. -/
theorem hydrated_stripInternal {ro : Rollout} (h : ro.Hydrated) : (stripInternal ro).Hydrated := by
  refine ⟨h.stages, h.pair, ?_⟩
  show (ro.tasks.map _).isSome = true
  rw [Option.isSome_map]
  exact h.tasks

/-! ## The answers -/

/-- The offsets of the times in an answer, for the body of the request and the tree of the
answer. -/
abbrev Offsets := Env → Decodings → Json → List Int

/-- There are no times. -/
def Offsets.none : Offsets := fun _ _ _ => []

/-- What comes out of the database is in the zone of the server. -/
def Offsets.stored : Offsets := fun env _ j => j.instants.map env.zone

/-- A lock that is answered has its times as they came. -/
def Offsets.decoded : Offsets := fun _ body _ => body.lockZones.offsets

/-- A successful answer of the handler is what `Encode` leaves of a tree, and `P` holds of that
with the database before and after. -/
def Gives (offsets : Json → List Int) (m : Repo Reply) (P : Store → Store → Json → Prop) : Prop :=
  ∀ F c reply c', m F c = (.ok reply, c') → reply.status = 200 ∨ reply.status = 201 →
    ∃ j, reply.body = encoded (offsets j) j ∧ P c.store c'.store j

section Gives

variable {P : Store → Store → Json → Prop} {Q : Json → Prop} {offsets : Json → List Int}

/-- An answer that is no success promises nothing of its body. -/
theorem gives_of_ne {reply : Reply} (h : reply.status ≠ 200 ∧ reply.status ≠ 201) :
    Gives offsets (pure reply) P := by
  intro F c reply' c' hr hstatus
  obtain ⟨hr, -⟩ := Prod.mk.inj hr
  obtain rfl := Except.ok.inj hr
  exact absurd hstatus (not_or.mpr h)

/-- An error is no success. -/
theorem gives_httpError {status : Nat} {msg : String} (h : 400 ≤ status) :
    Gives offsets (pure (httpError status msg)) P :=
  gives_of_ne ⟨fun (he : status = 200) => by omega, fun (he : status = 201) => by omega⟩

/-- What holds of every result of the handler, whatever the database did. -/
theorem gives_of_yields {m : Repo Reply}
    (h : Db.Yields m fun reply => ∃ j, reply.body = encoded (offsets j) j ∧ Q j) :
    Gives offsets m fun _ _ => Q :=
  fun F c reply c' hr _ => h F c reply c' hr

/-- The session check answers by itself, or not at all. -/
theorem gives_requireSession {session : Option Session} {next : Session → Repo Reply}
    (h : ∀ sess, Gives offsets (next sess) P) : Gives offsets (requireSession session next) P := by
  cases session with
  | none => exact gives_httpError (by decide)
  | some sess => exact h sess

/-- So does the check of the role. -/
theorem gives_requireAdmin {session : Option Session} {next : Session → Repo Reply}
    (h : ∀ sess, Gives offsets (next sess) P) : Gives offsets (requireAdmin session next) P := by
  unfold requireAdmin
  cases session with
  | none => exact gives_httpError (by decide)
  | some sess =>
    dsimp only
    split
    · exact gives_httpError (by decide)
    · exact h sess

/-- A body that cannot be decoded is answered with 400. -/
theorem gives_decoded {α : Type} {h : α → Repo Reply} {body : Option α}
    (hh : ∀ x, body = some x → Gives offsets (h x) P) : Gives offsets (decoded body h) P := by
  cases body with
  | none => exact gives_httpError (by decide)
  | some x => exact hh x rfl

end Gives

/-- A request of this method and path that is answered with success is answered with the text of
a tree that satisfies `P`, or without a body where that has none. -/
def Answers (method : String) (path : List String) (offsets : Offsets)
    (P : Decodings → Store → Store → Json → Prop) : Prop :=
  ∀ env req F c, req.method = method → req.path = path →
    (respond env req F c).1.status = 200 ∨ (respond env req F c).1.status = 201 →
    ∃ j, (respond env req F c).1.body = encoded (offsets env req.body j) j ∧
      P req.body c.store (respond env req F c).2.store j

/-- An endpoint answers as the handler of its route does. -/
theorem answers_of_handler {method : String} {path : List String} {offsets : Offsets}
    {P : Decodings → Store → Store → Json → Prop} (hhead : method ≠ "HEAD")
    (h : ∀ env req r, resolve (patternMethod method) path = some r →
      Gives (offsets env req.body) (r.handler env req) (P req.body)) :
    Answers method path offsets P := by
  intro env req F c hmethod hpath hstatus
  have hgives : Gives (offsets env req.body) (route env req) (P req.body) := by
    unfold route
    rw [hmethod, hpath]
    split
    · next r hr => exact h env req r hr
    · refine gives_of_ne ?_
      unfold unmatched
      split <;> exact ⟨by decide, by decide⟩
  rw [respond_eq_serve (hmethod ▸ hhead)] at hstatus ⊢
  unfold serve at hstatus ⊢
  cases hr : route env req F c with
  | mk res c' =>
    rw [hr] at hstatus
    cases res with
    | ok reply => exact hgives F c reply c' hr hstatus
    | error e =>
      rcases hstatus with hs | hs
      · exact absurd hs (writeErr_ne e (by decide))
      · exact absurd hs (writeErr_ne e (by decide))

theorem wildcard_some {segment : String} {r r' : Route} (h : wildcard segment r = some r') :
    r = r' := by
  unfold wildcard at h
  split at h
  · cases h
  · exact Option.some.inj h

/-! ### Route by route -/

/-- `GET /api/products`: the brokers of the row, or no member. -/
theorem answers_listProducts : Answers "GET" ["api", "products"] .none fun _ s _ j =>
    ∃ forms : ProductRow → Json, j = .arr ((orderBy (·.name) s.products).map forms) ∧
      ∀ row, (forms row).member "id" = some (.str row.id) ∧
        (forms row).member "brokers" = optionalStrings row.brokers := by
  refine answers_of_handler (by decide) fun env req r hr => ?_
  obtain rfl : Route.listProducts = r := Option.some.inj hr
  refine gives_requireSession fun _ F c reply c' h _ => ?_
  obtain ⟨ps, c₁, hps, hreply⟩ := Db.bind_ok h
  obtain ⟨-, rfl⟩ := products_ok hps
  obtain rfl := Except.ok.inj (Prod.mk.inj hreply).1
  refine ⟨_, rfl, fun row => (scanProduct row).toJson, ?_, fun row =>
    ⟨rfl, Product.member_brokers _⟩⟩
  rw [List.map_map]
  rfl

/-- `POST /api/products` echoes the brokers it has stored. -/
theorem answers_upsertProduct : Answers "POST" ["api", "products"] .none fun _ _ t j =>
    ∃ row ∈ t.products, j.member "id" = some (.str row.id) ∧
      j.member "brokers" = optionalStrings row.brokers := by
  refine answers_of_handler (by decide) fun env req r hr => ?_
  obtain rfl : Route.upsertProduct = r := Option.some.inj hr
  refine gives_requireAdmin fun _ => gives_decoded fun p _ F c reply c' h _ => ?_
  obtain ⟨u, c₁, hwrite, hreply⟩ := Db.bind_ok h
  obtain ⟨-, hstore⟩ := upsertProduct_ok hwrite
  obtain ⟨hok, rfl⟩ := Prod.mk.inj hreply
  obtain rfl := Except.ok.inj hok
  refine ⟨_, rfl, productRow _, ?_, rfl, Product.member_brokers _⟩
  rw [hstore]
  exact mem_upsertRow_self

/-- `GET /api/rollout-types`: rules and tasks always, the plan if it was stored as a list. -/
theorem answers_listRolloutTypes : Answers "GET" ["api", "rollout-types"] .none fun _ s _ j =>
    ∃ forms : RolloutTypeRow → Json, j = .arr ((orderBy (·.name) s.rolloutTypes).map forms) ∧
      ∀ row, (forms row).member "id" = some (.str row.id) ∧ HasArrays ["rules"] (forms row) ∧
        HasArrays ["tasks"] (forms row) ∧
        (row.cascadePlan.isSome = true → HasArrays ["cascadePlan"] (forms row)) := by
  refine answers_of_handler (by decide) fun env req r hr => ?_
  obtain rfl : Route.listRolloutTypes = r := Option.some.inj hr
  refine gives_requireAdmin fun _ F c reply c' h _ => ?_
  obtain ⟨ts, c₁, hts, hreply⟩ := Db.bind_ok h
  obtain ⟨-, rfl⟩ := rolloutTypes_ok hts
  obtain rfl := Except.ok.inj (Prod.mk.inj hreply).1
  refine ⟨_, rfl, fun row => (readRolloutType c.store row).toJson, ?_, fun row =>
    ⟨rfl, RolloutType.hasArrays_rules rfl, RolloutType.hasArrays_tasks rfl, fun hplan =>
      RolloutType.hasArrays_plan hplan⟩⟩
  rw [List.map_map]
  rfl

/-- `POST /api/rollout-types` echoes the lists the body had. -/
theorem answers_upsertRolloutType : Answers "POST" ["api", "rollout-types"] .none fun body _ t j =>
    ∃ given, body.rolloutType = some given ∧ HasArrays ["rules"] j ∧
      (given.tasks.isSome = true → HasArrays ["tasks"] j) ∧
      (given.cascadePlan.isSome = true → HasArrays ["cascadePlan"] j ∧
        ∃ row ∈ t.rolloutTypes, j.member "id" = some (.str row.id) ∧
          row.cascadePlan.isSome = true) := by
  refine answers_of_handler (by decide) fun env req r hr => ?_
  obtain rfl : Route.upsertRolloutType = r := Option.some.inj hr
  refine gives_requireAdmin fun _ => gives_decoded fun given hgiven F c reply c' h _ => ?_
  obtain ⟨u, c₁, hwrite, hreply⟩ := Db.bind_ok h
  obtain ⟨hfits, hstore⟩ := upsertRolloutType_ok hwrite
  obtain ⟨hok, rfl⟩ := Prod.mk.inj hreply
  obtain rfl := Except.ok.inj hok
  refine ⟨_, rfl, given, hgiven, RolloutType.hasArrays_rules hfits.rules,
    fun htasks => RolloutType.hasArrays_tasks htasks,
    fun hplan => ⟨RolloutType.hasArrays_plan hplan, rolloutTypeRow { given with
      id := if given.id = "" then slug env given.name else given.id }, ?_, rfl, hplan⟩⟩
  rw [hstore]
  exact mem_upsertRow_self

/-- `GET /api/rollouts`. -/
theorem answers_listRollouts :
    Answers "GET" ["api", "rollouts"] .stored fun _ _ _ => Each (HasArrays rolloutLists) := by
  refine answers_of_handler (by decide) fun env req r hr => ?_
  obtain rfl : Route.listRollouts = r := Option.some.inj hr
  refine gives_requireSession fun sess => gives_of_yields ?_
  refine Db.yields_bind yields_rollouts fun rs hrs => Db.yields_pure ⟨_, rfl, ?_⟩
  refine each_map fun ro hro => Rollout.Hydrated.hasArrays ?_
  split at hro
  · obtain ⟨old, hold, rfl⟩ := List.mem_map.mp hro
    exact hydrated_stripInternal (hrs old hold)
  · exact hrs ro hro

/-- `GET /api/rollouts/{id}`. -/
theorem answers_getRollout (id : String) :
    Answers "GET" ["api", "rollouts", id] .stored fun _ _ _ => HasArrays rolloutLists := by
  refine answers_of_handler (by decide) fun env req r hr => ?_
  obtain rfl := wildcard_some hr
  refine gives_requireSession fun sess => gives_of_yields ?_
  refine Db.yields_bind (yields_rollout id) fun ro hro => Db.yields_pure ⟨_, rfl, ?_⟩
  refine Rollout.Hydrated.hasArrays ?_
  split
  · exact hydrated_stripInternal hro
  · exact hro

/-- `POST /api/rollouts` answers with what it has read back. -/
theorem answers_createRollout :
    Answers "POST" ["api", "rollouts"] .stored fun _ _ _ => HasArrays rolloutLists := by
  refine answers_of_handler (by decide) fun env req r hr => ?_
  obtain rfl : Route.createRollout = r := Option.some.inj hr
  refine gives_requireAdmin fun sess => gives_decoded fun ro _ => gives_of_yields ?_
  refine Db.yields_bind (Db.yields_bind Db.yields_any fun _ _ => yields_rollout _)
    fun out hout => ?_
  exact Db.yields_bind Db.yields_any fun _ _ => Db.yields_pure ⟨_, rfl, hout.hasArrays⟩

/-- `PATCH /api/rollouts/{id}` does too. -/
theorem answers_updateRollout (id : String) :
    Answers "PATCH" ["api", "rollouts", id] .stored fun _ _ _ => HasArrays rolloutLists := by
  refine answers_of_handler (by decide) fun env req r hr => ?_
  obtain rfl := wildcard_some hr
  refine gives_requireAdmin fun sess => gives_decoded fun ro _ => gives_of_yields ?_
  refine Db.yields_bind (Db.yields_bind Db.yields_any fun _ _ => yields_rollout _)
    fun out hout => ?_
  exact Db.yields_bind Db.yields_any fun _ _ => Db.yields_pure ⟨_, rfl, hout.hasArrays⟩

/-- `GET /api/locks`. -/
theorem answers_listLocks :
    Answers "GET" ["api", "locks"] .stored fun _ _ _ => Each (HasArrays ["products"]) := by
  refine answers_of_handler (by decide) fun env req r hr => ?_
  obtain rfl : Route.listLocks = r := Option.some.inj hr
  refine gives_requireSession fun sess => gives_of_yields ?_
  refine Db.yields_bind yields_locks fun ls hls => Db.yields_pure ⟨_, rfl, ?_⟩
  exact each_map fun l hl => Lock.hasArrays (hls l hl)

/-- `POST /api/locks` echoes the products of the body, a missing list as an empty one. -/
theorem answers_createLock :
    Answers "POST" ["api", "locks"] .decoded fun _ _ _ => HasArrays ["products"] := by
  refine answers_of_handler (by decide) fun env req r hr => ?_
  obtain rfl : Route.createLock = r := Option.some.inj hr
  refine gives_requireAdmin fun sess => gives_decoded fun l _ => ?_
  split
  · exact gives_httpError (Nat.le_refl 400)
  · refine gives_of_yields (Db.yields_bind (yields_createLock _ _) fun out hout => ?_)
    exact Db.yields_pure ⟨_, rfl, Lock.hasArrays hout⟩

/-- `PATCH /api/locks/{id}` does too. -/
theorem answers_updateLock (id : String) :
    Answers "PATCH" ["api", "locks", id] .decoded fun _ _ _ => HasArrays ["products"] := by
  refine answers_of_handler (by decide) fun env req r hr => ?_
  obtain rfl := wildcard_some hr
  refine gives_requireAdmin fun sess => gives_decoded fun l _ => ?_
  split
  · exact gives_httpError (Nat.le_refl 400)
  · refine gives_of_yields (Db.yields_bind (yields_updateLock _) fun out hout => ?_)
    exact Db.yields_pure ⟨_, rfl, Lock.hasArrays hout⟩

/-- **The list fields of the answers** that have a text, whatever the database, the session, the
body and the calls that fail. The lists of a rollout, the rules and tasks of a listed type and the
products of a lock are arrays; the brokers of a product are an array, or not there when it
has none; and a type's cascade plan, and the tasks in the echo of an upsert, are arrays
where they were given as lists. -/
theorem list_fields :
    Answers "GET" ["api", "products"] .none (fun _ s _ j =>
      ∃ forms : ProductRow → Json, j = .arr ((orderBy (·.name) s.products).map forms) ∧
        ∀ row, (forms row).member "id" = some (.str row.id) ∧
          (forms row).member "brokers" = optionalStrings row.brokers) ∧
    Answers "POST" ["api", "products"] .none (fun _ _ t j =>
      ∃ row ∈ t.products, j.member "id" = some (.str row.id) ∧
        j.member "brokers" = optionalStrings row.brokers) ∧
    Answers "GET" ["api", "rollout-types"] .none (fun _ s _ j =>
      ∃ forms : RolloutTypeRow → Json, j = .arr ((orderBy (·.name) s.rolloutTypes).map forms) ∧
        ∀ row, (forms row).member "id" = some (.str row.id) ∧ HasArrays ["rules"] (forms row) ∧
          HasArrays ["tasks"] (forms row) ∧
          (row.cascadePlan.isSome = true → HasArrays ["cascadePlan"] (forms row))) ∧
    Answers "POST" ["api", "rollout-types"] .none (fun body _ t j =>
      ∃ given, body.rolloutType = some given ∧ HasArrays ["rules"] j ∧
        (given.tasks.isSome = true → HasArrays ["tasks"] j) ∧
        (given.cascadePlan.isSome = true → HasArrays ["cascadePlan"] j ∧
          ∃ row ∈ t.rolloutTypes, j.member "id" = some (.str row.id) ∧
            row.cascadePlan.isSome = true)) ∧
    Answers "GET" ["api", "rollouts"] .stored (fun _ _ _ => Each (HasArrays rolloutLists)) ∧
    (∀ id, Answers "GET" ["api", "rollouts", id] .stored fun _ _ _ => HasArrays rolloutLists) ∧
    Answers "POST" ["api", "rollouts"] .stored (fun _ _ _ => HasArrays rolloutLists) ∧
    (∀ id, Answers "PATCH" ["api", "rollouts", id] .stored fun _ _ _ => HasArrays rolloutLists) ∧
    Answers "GET" ["api", "locks"] .stored (fun _ _ _ => Each (HasArrays ["products"])) ∧
    Answers "POST" ["api", "locks"] .decoded (fun _ _ _ => HasArrays ["products"]) ∧
    ∀ id, Answers "PATCH" ["api", "locks", id] .decoded fun _ _ _ => HasArrays ["products"] :=
  ⟨answers_listProducts, answers_upsertProduct, answers_listRolloutTypes, answers_upsertRolloutType,
    answers_listRollouts, answers_getRollout, answers_createRollout, answers_updateRollout,
    answers_listLocks, answers_createLock, answers_updateLock⟩

/-! ## A product without brokers -/

private def anyDay : Env := ⟨0, 0, "01234567", Char.toUpper, Char.toLower, fun _ => 0⟩

private def asAdmin (method : String) (product : Option Product) : Request :=
  ⟨method, ["api", "products"], some ⟨"a", "a@example.org", "A", roleAdmin, none, 0⟩,
    ⟨product, none, none, none, none, ⟨0, 0, 0⟩⟩, none⟩

/-- An admin stores a product with an empty list of brokers. -/
def postNoBrokers : Request := asAdmin "POST" (some ⟨"", "Billing", "", some []⟩)

def getProducts : Request := asAdmin "GET" none

/-- **The brokers are left out**: the product is stored, and the list that is answered has
an item without the member. -/
theorem brokers_left_out :
    ∃ s, Reached s ∧
      (respond anyDay postNoBrokers Db.noFaults ⟨Store.empty, 0⟩).1.status = 200 ∧
      (respond anyDay postNoBrokers Db.noFaults ⟨Store.empty, 0⟩).2.store = s ∧
      (respond anyDay getProducts Db.noFaults ⟨s, 0⟩).1.status = 200 ∧
      ∃ items, (respond anyDay getProducts Db.noFaults ⟨s, 0⟩).1.body = .json (.arr items) ∧
        ∃ item ∈ items, item.member "id" = some (.str "billing") ∧
          item.member "brokers" = none := by
  have hstatus : (respond anyDay getProducts Db.noFaults
      ⟨(respond anyDay postNoBrokers Db.noFaults ⟨Store.empty, 0⟩).2.store, 0⟩).1.status = 200 := by
    decide
  refine ⟨_, ⟨[.request anyDay postNoBrokers (fun t ht => by cases ht) Db.noFaults], rfl⟩,
    by decide, rfl, hstatus, ?_⟩
  obtain ⟨j, hj, forms, rfl, hforms⟩ := answers_listProducts anyDay getProducts Db.noFaults
    ⟨_, 0⟩ rfl rfl (Or.inl hstatus)
  have hrow : (⟨"billing", "Billing", some "", []⟩ : ProductRow) ∈
      (respond anyDay postNoBrokers Db.noFaults ⟨Store.empty, 0⟩).2.store.products := by
    decide
  refine ⟨_, hj, _, List.mem_map_of_mem ((List.mem_insertionSort _).mpr hrow), ?_⟩
  exact hforms ⟨"billing", "Billing", some "", []⟩

end Api

end ReleaseRadar
