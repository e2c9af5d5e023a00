import ReleaseRadar.Lib.Foreseen
import ReleaseRadar.Store.Locks
import ReleaseRadar.Store.MasterData

/-!
# What the database asks of a write, in order

With no call failing on its own, a write of the repository fails when the database, or the
driver before it, refuses a parameter or a row. `Check` is one such demand. Each write has
its list of checks, computed from its argument and the database before it, in the order of
its statements; the first check that is not met is the error it returns (the `foreseen_`
lemmas), and when all are met it succeeds.

A text that cannot be sent, a number that cannot be encoded and an index entry that is too long
are checks of another kind than a constraint: `sendable` says that none of the former comes
first. All of it is for indexes that take any entries they like.
-/

namespace ReleaseRadar

open Lib

/-- The integrity constraints, class 23. -/
inductive Violation
  | notNull
  | foreignKey
  | unique
  | check

def Violation.code : Violation → String
  | notNull => notNullViolation
  | foreignKey => foreignKeyViolation
  | unique => uniqueViolation
  | check => checkViolation

/-- What a statement asks for. -/
inductive Check
  /-- Its text parameters hold no U+0000. -/
  | text (params : List String)
  /-- Nor do the strings of a JSONB parameter. -/
  | jsonb (texts : List String)
  /-- pgx can encode the number into an `INT`. -/
  | int (n : Int)
  /-- An index takes the entry. -/
  | indexed (holds : Bool)
  /-- A constraint of the table holds. -/
  | constraint (holds : Bool) (violation : Violation)
  /-- The row is there. -/
  | found (holds : Bool)

namespace Check

/-- The error of a check that is not met. -/
def refusal : Check → Option Err
  | text params => if params.any hasNul then some (.pg "22021") else none
  | jsonb texts => if texts.any hasNul then some (.pg untranslatableCharacter) else none
  | int n => if Repository.int4 n then none else some (.other "cannot encode into int4")
  | indexed holds => if holds then none else some (.pg programLimitExceeded)
  | constraint holds violation => if holds then none else some (.pg violation.code)
  | found holds => if holds then none else some .notFound

/-- A parameter that does not get to the table, or an entry that does not get into an index. -/
def unsendable : Check → Bool
  | text params => params.any hasNul
  | jsonb texts => texts.any hasNul
  | int n => !Repository.int4 n
  | indexed holds => !holds
  | constraint _ _ => false
  | found _ => false

/-- A constraint that does not hold, or a row that is not there. -/
def violated : Check → Bool
  | constraint holds _ => !holds
  | found holds => !holds
  | text _ => false
  | jsonb _ => false
  | int _ => false
  | indexed _ => false

end Check

/-- The error of the first check that is not met. -/
def refusal (cs : List Check) : Option Err := cs.findSome? Check.refusal

/-- Every parameter can be sent and every index entry is taken, up to the first violated
constraint. -/
def sendable : List Check → Bool
  | [] => true
  | c :: cs => !c.unsendable && (c.violated || sendable cs)

/-- The first check that refuses decides. -/
theorem refusal_cons (c : Check) (cs : List Check) :
    refusal (c :: cs) = c.refusal.or (refusal cs) := by
  unfold refusal
  rw [List.findSome?_cons]
  cases c.refusal <;> rfl

/-- So it does over two lists. -/
theorem refusal_append (cs ds : List Check) : refusal (cs ++ ds) = (refusal cs).or (refusal ds) :=
  List.findSome?_append

/-- Nothing is refused if no check refuses. -/
theorem refusal_eq_none {cs : List Check} : refusal cs = none ↔ ∀ c ∈ cs, c.refusal = none :=
  List.findSome?_eq_none_iff

/-- A check that is not met is of the one kind or the other. -/
theorem Check.refusal_eq_none (c : Check) :
    c.refusal = none ↔ c.unsendable = false ∧ c.violated = false := by
  cases c <;> simp [refusal, unsendable, violated]

/-- A text that was not refused could be sent. -/
theorem hasNul_of_text {cs : List Check} {params : List String} {p : String} (h : refusal cs = none)
    (hmem : .text params ∈ cs) (hp : p ∈ params) : hasNul p = false := by
  have hsend := ((Check.text params).refusal_eq_none.mp (refusal_eq_none.mp h _ hmem)).1
  rw [Check.unsendable, List.any_eq_false] at hsend
  exact Bool.eq_false_iff.mpr (hsend p hp)

/-- Where nothing is unsendable, the constraints do not matter. -/
theorem sendable_of_forall {cs : List Check} (h : ∀ c ∈ cs, c.unsendable = false) :
    sendable cs = true := by
  induction cs with
  | nil => rfl
  | cons c cs ih =>
    have hrest := ih fun d hd => h d (List.mem_cons_of_mem _ hd)
    simp only [sendable, h c List.mem_cons_self, hrest, Bool.not_false, Bool.or_true, Bool.and_self]

/-! ## Statements -/

section Statements

variable {α : Type} {P : Store → Prop} {Q : α → Store → Prop} {cs : List Check}

/-- A constraint refuses, or the rest of the statement answers. -/
theorem answers_constraint {holds : Bool} {violation : Violation}
    {g : Unit → Except Err (α × Store)}
    (hg : holds = true → Db.Answers (g ()) (refusal cs) Q) :
    Db.Answers (constraint holds violation.code >>= g)
      (refusal (.constraint holds violation :: cs)) Q := by
  rw [refusal_cons]
  cases holds with
  | false => rfl
  | true => exact hg rfl

/-- So does the limit of an index entry. -/
theorem answers_indexed {holds : Bool} {g : Unit → Except Err (α × Store)}
    (hg : holds = true → Db.Answers (g ()) (refusal cs) Q) :
    Db.Answers (constraint holds programLimitExceeded >>= g)
      (refusal (.indexed holds :: cs)) Q := by
  rw [refusal_cons]
  cases holds with
  | false => rfl
  | true => exact hg rfl

/-- A statement that succeeds has nothing left to check. -/
theorem answers_ok {a : α} {s : Store} (h : Q a s) :
    Db.Answers (.ok (a, s) : Except Err (α × Store)) (refusal []) Q := ⟨a, s, rfl, h⟩

/-- The parameters of a statement are checked before the statement is run. -/
theorem foreseen_stmt {params : List String} {f : Store → Except Err (α × Store)}
    (hf : params.any hasNul = false → ∀ s, P s → Db.Answers (f s) (refusal cs) Q) :
    Db.Foreseen P (stmt params f) (refusal (.text params :: cs)) Q := by
  refine Db.foreseen_call fun s hP => ?_
  rw [refusal_cons]
  cases hn : params.any hasNul with
  | true =>
    simp only [Check.refusal, hn, if_true]
    rfl
  | false =>
    simp only [Check.refusal, hn, Bool.false_eq_true, if_false, Option.none_or]
    exact hf hn s hP

/-- A statement that asks for nothing but its parameters, and keeps what is known. -/
theorem foreseen_plain {params : List String} {g : Store → Store} (hg : ∀ s, P s → P (g s)) :
    Db.Foreseen P (stmt params fun s => .ok ((), g s)) (refusal [.text params]) fun _ => P :=
  foreseen_stmt fun _ s hP => answers_ok (hg s hP)

/-- A statement and its `RowsAffected`. -/
theorem foreseen_affected {params : List String} {f : Store → Except Err (Bool × Store)} {x : α}
    {b : Bool} {R : Store → Prop}
    (hf : ∀ s, P s → Db.Answers (f s) (refusal cs)
      fun affected t => affected = b ∧ (b = true → R t)) :
    Db.Foreseen P
      (stmt params f >>= fun affected => if affected then pure x else Db.throw Err.notFound)
      (refusal (.text params :: cs ++ [.found b])) fun y t => y = x ∧ R t := by
  rw [refusal_append]
  refine Db.foreseen_bind (foreseen_stmt fun _ => hf) fun _ affected => ?_
  cases b with
  | true =>
    rintro F c hF ⟨rfl, hP⟩
    exact ⟨x, c, rfl, hF, rfl, hP rfl⟩
  | false =>
    rintro F c hF ⟨rfl, -⟩
    exact ⟨c, rfl⟩

/-- The first refusal of the rounds is that of all their checks in a row. -/
theorem refusal_flatMap {β : Type} (checks : β → List Check) (xs : List β) :
    refusal (xs.flatMap checks) = xs.findSome? fun x => refusal (checks x) := by
  induction xs with
  | nil => rfl
  | cons x xs ih =>
    rw [List.flatMap_cons, refusal_append, ih, List.findSome?_cons]
    cases refusal (checks x) <;> rfl

/-- The rounds of a loop. -/
theorem foreseen_each {β : Type} {body : β → Repo Unit} {checks : β → List Check} {xs : List β}
    (hbody : ∀ x ∈ xs, Db.Foreseen P (body x) (refusal (checks x)) fun _ => P) :
    Db.Foreseen P (Db.forEach xs body) (refusal (xs.flatMap checks)) fun _ => P := by
  rw [refusal_flatMap]
  exact Db.foreseen_forEach hbody

end Statements

namespace Repository

variable [Indexes]

/-! ## Products and types -/

/-- An update of a row keeps its index entries. -/
def productChecks (s : Store) (p : Product) : List Check :=
  [.text ([p.id, p.name, p.owner] ++ p.brokers.items), .constraint p.brokers.isSome .notNull,
    .indexed (s.hasProduct p.id || Indexes.holds [.text p.id])]

/-- `UpsertProduct` is refused as its checks foresee. -/
theorem foreseen_upsertProduct {s : Store} (p : Product) :
    Db.Foreseen (· = s) (upsertProduct p) (refusal (productChecks s p)) fun _ _ => True := by
  refine foreseen_stmt fun _ t ht => ?_
  subst ht
  refine answers_constraint fun _ => answers_indexed fun _ => ?_
  split
  · exact answers_ok trivial
  · exact answers_ok trivial

/-- A task of a type, or the one a rollout inherits from it. -/
def typeTaskChecks (id : String) (d : String × Nat) : List Check :=
  [.text [id, d.1], .indexed (Indexes.holds [.text id, .int d.2])]

def rolloutTypeRowChecks (s : Store) (t : RolloutType) : List Check :=
  [.text ([t.id, t.name, t.short, t.tone, t.announce] ++ t.rules.items),
    .jsonb (t.cascadePlan.items.map (·.stage)), .constraint t.rules.isSome .notNull,
    .constraint (tones.contains t.tone) .check,
    .indexed (s.hasRolloutType t.id || Indexes.holds [.text t.id])]

def rolloutTypeChecks (s : Store) (t : RolloutType) : List Check :=
  rolloutTypeRowChecks s t ++
    ([.text [t.id]] ++ t.tasks.items.zipIdx.flatMap (typeTaskChecks t.id))

/-- The row of a type is. -/
theorem foreseen_upsertRolloutTypeRow {s : Store} (t : RolloutType) :
    Db.Foreseen (· = s) (upsertRolloutTypeRow t) (refusal (rolloutTypeRowChecks s t))
      fun _ _ => True := by
  refine foreseen_stmt fun _ s hs => ?_
  subst hs
  rw [refusal_cons]
  cases hplan : t.cascadePlan.items.any fun c => hasNul c.stage with
  | true =>
    have hjson : (Check.jsonb (t.cascadePlan.items.map (·.stage))).refusal =
        some (.pg untranslatableCharacter) := by
      simp only [Check.refusal, List.any_map, Function.comp_def, hplan, if_true]
    rw [hjson]
    rfl
  | false =>
    have hjson : (Check.jsonb (t.cascadePlan.items.map (·.stage))).refusal = none := by
      simp only [Check.refusal, List.any_map, Function.comp_def, hplan,
        Bool.false_eq_true, if_false]
    rw [hjson]
    refine answers_constraint fun _ => answers_constraint fun _ => answers_indexed fun _ => ?_
    split
    · exact answers_ok trivial
    · exact answers_ok trivial

/-- `UpsertRolloutType` is: the row, then the tasks one by one. -/
theorem foreseen_upsertRolloutType {s : Store} (t : RolloutType) :
    Db.Foreseen (· = s) (upsertRolloutType t) (refusal (rolloutTypeChecks s t))
      fun _ _ => True := by
  unfold upsertRolloutType rolloutTypeChecks
  rw [refusal_append, refusal_append]
  refine Db.foreseen_tx (Db.foreseen_bind (foreseen_upsertRolloutTypeRow t) fun _ _ => ?_)
  refine Db.foreseen_bind (foreseen_plain fun _ h => h) fun _ _ => ?_
  exact foreseen_each fun d _ => foreseen_stmt fun _ _ _ => answers_indexed fun _ =>
    answers_ok trivial

/-! ## Rollouts -/

/-- What is known inside a transaction that works on a rollout: it is there, the actors are those
of the start, and of its pair are the `old` ones and others whom the index has taken. -/
structure Working (s : Store) (id : String) (old : String → Bool) (t : Store) : Prop where
  there : t.hasRollout id = true
  actors : t.actors = s.actors
  old_pair : ∀ a, old a = true → t.rolloutActors.contains ⟨id, a⟩ = true
  pair : ∀ a, t.rolloutActors.contains ⟨id, a⟩ = true →
    (old a || Indexes.holds [.text id, .text a]) = true

/-- The actors stay as they are while the rollout is written. -/
theorem Working.actorRef {s t : Store} {id : String} {old : String → Bool}
    (h : Working s id old t) (a : Option String) : t.actorRef a = s.actorRef a := by
  unfold Store.actorRef Store.hasActor
  rw [h.actors]

def stageChecks (id : String) (st : RolloutStage × Nat) : List Check :=
  [.text [id, st.1.env, st.1.status], .constraint (stageStatuses.contains st.1.status) .check,
    .indexed (Indexes.holds [.text id, .int st.2])]

/-- A member who is `old` is not inserted once more. -/
def pairChecks (id : String) (old : String → Bool) (actorID : String) : List Check :=
  [.text [id, actorID], .indexed (old actorID || Indexes.holds [.text id, .text actorID])]

def taskChecks (s : Store) (id : String) (t : RolloutTask × Nat) : List Check :=
  [.text [id, t.1.description, t.1.reason, t.1.by_], .indexed (Indexes.holds [.text id, .int t.2]),
    .constraint (s.actorRef (nullIfEmpty t.1.by_)) .foreignKey]

def insertChecks (s : Store) (ro : Rollout) : List Check :=
  [.text [ro.id, ro.productId, ro.typeId, ro.title, ro.descExt, ro.descInt, ro.risks, ro.createdBy],
    .constraint (!s.hasRollout ro.id) .unique, .indexed (Indexes.holds [.text ro.id]),
    .indexed (Indexes.holds [.text ro.productId]), .indexed (Indexes.holds [.text ro.typeId]),
    .constraint (s.hasProduct ro.productId) .foreignKey,
    .constraint (s.hasRolloutType ro.typeId) .foreignKey,
    .constraint (s.actorRef (nullIfEmpty ro.createdBy)) .foreignKey]

/-- The rows of the pair that a rollout has before it is there. -/
def oldPair (s : Store) (id a : String) : Bool := s.rolloutActors.contains ⟨id, a⟩

/-- The type comes first: its tasks are read before the transaction. -/
def createRolloutChecks (s : Store) (ro : Rollout) : List Check :=
  [Check.text [ro.typeId], .found (s.hasRolloutType ro.typeId)] ++
    (insertChecks s ro ++ (ro.stages.items.zipIdx.flatMap (stageChecks ro.id) ++
      (ro.pair.items.flatMap (pairChecks ro.id (oldPair s ro.id)) ++
        (typeTasksOf s ro.typeId).zipIdx.flatMap (typeTaskChecks ro.id))))

def updateRolloutChecks (s : Store) (ro : Rollout) : List Check :=
  [Check.text [ro.id, ro.title, ro.descExt, ro.descInt, ro.risks], .found (s.hasRollout ro.id)] ++
    ([Check.text [ro.id]] ++ (ro.stages.items.zipIdx.flatMap (stageChecks ro.id) ++
      ([Check.text [ro.id]] ++ (ro.pair.items.flatMap (pairChecks ro.id fun _ => false) ++
        ([Check.text [ro.id]] ++ ro.tasks.items.zipIdx.flatMap (taskChecks s ro.id))))))

section Rollouts

variable {s : Store} {id : String} {old : String → Bool}

/-- The stages are refused in their order. -/
theorem foreseen_insertStages (sts : List RolloutStage) :
    Db.Foreseen (Working s id old) (Db.forEach sts.zipIdx fun st => insertStage id st.1 st.2)
      (refusal (sts.zipIdx.flatMap (stageChecks id))) fun _ => Working s id old :=
  foreseen_each fun _ _ => foreseen_stmt fun _ _ ht =>
    answers_constraint fun _ => answers_indexed fun _ => answers_ok { ht with }

/-- Who is there already is `old`, or the index has taken the same entry before. -/
theorem foreseen_insertPairs (pair : List String) :
    Db.Foreseen (Working s id old) (Db.forEach pair fun actorID => insertPair id actorID)
      (refusal (pair.flatMap (pairChecks id old))) fun _ => Working s id old := by
  refine foreseen_each fun actorID _ => foreseen_stmt fun _ t ht => ?_
  rw [refusal_cons]
  split
  · next hthere =>
    rw [Check.refusal, if_pos (ht.pair actorID hthere)]
    exact answers_ok ht
  · next hnew =>
    have hold : old actorID = false :=
      Bool.eq_false_iff.mpr fun hold => hnew (ht.old_pair actorID hold)
    rw [hold, Bool.false_or, ← refusal_cons]
    refine answers_indexed fun htaken =>
      answers_ok ⟨ht.there, ht.actors, fun a ha => ?_, fun a ha => ?_⟩
    · rw [List.contains_append, ht.old_pair a ha, Bool.true_or]
    · rw [List.contains_append, Bool.or_eq_true] at ha
      rcases ha with ha | ha
      · exact ht.pair a ha
      · obtain rfl : a = actorID := by simpa using ha
        rw [htaken, Bool.or_true]

/-- So are the tasks. -/
theorem foreseen_insertTasks (ts : List RolloutTask) :
    Db.Foreseen (Working s id old) (Db.forEach ts.zipIdx fun t => insertTask id t.1 t.2)
      (refusal (ts.zipIdx.flatMap (taskChecks s id))) fun _ => Working s id old := by
  refine foreseen_each fun task _ => foreseen_stmt fun _ t ht => ?_
  rw [← ht.actorRef]
  exact answers_indexed fun _ => answers_constraint fun _ => answers_ok { ht with }

/-- So are the tasks a rollout inherits from its type. -/
theorem foreseen_insertInheritedTasks (descs : List String) :
    Db.Foreseen (Working s id old) (Db.forEach descs.zipIdx fun d => insertInheritedTask id d.1 d.2)
      (refusal (descs.zipIdx.flatMap (typeTaskChecks id))) fun _ => Working s id old :=
  foreseen_each fun _ _ => foreseen_stmt fun _ _ ht =>
    answers_indexed fun _ => answers_ok { ht with }

/-- The row of the rollout comes first. -/
theorem foreseen_insertRollout (now : Int) (ro : Rollout) :
    Db.Foreseen (· = s) (insertRollout now ro) (refusal (insertChecks s ro))
      fun _ => Working s ro.id (oldPair s ro.id) := by
  refine foreseen_stmt fun _ t ht => ?_
  subst ht
  refine answers_constraint fun _ => answers_indexed fun _ => answers_indexed fun _ =>
    answers_indexed fun _ => answers_constraint fun _ => answers_constraint fun _ =>
      answers_constraint fun _ => answers_ok ⟨?_, rfl, fun _ h => h, fun _ h => ?_⟩
  swap
  · rw [show oldPair t ro.id _ = true from h, Bool.true_or]
  show (t.rollouts ++ _).any _ = true
  rw [List.any_append]
  simp

omit [Indexes] in
/-- The type is read before the transaction, and with it its tasks. -/
theorem foreseen_rolloutType :
    Db.Foreseen (· = s) (rolloutType id) (refusal [.text [id], .found (s.hasRolloutType id)])
      fun rt t => t = s ∧ rt.tasks.items = typeTasksOf s id := by
  unfold rolloutType
  refine Db.Foreseen.andThen (Q := fun rt t => t = s ∧ rt.id = id ∧ hasNul id = false)
    (foreseen_stmt fun htext t ht => ?_) fun _ rt => ?_
  · subst ht
    rw [refusal_cons]
    cases hrow : t.rolloutTypes.find? fun r => r.id == id with
    | none =>
      have habsent : t.hasRolloutType id = false := by
        unfold Store.hasRolloutType
        rw [← List.isSome_find?, hrow]
        rfl
      simp only [Check.refusal, habsent]
      rfl
    | some r =>
      have hthere : t.hasRolloutType id = true := by
        unfold Store.hasRolloutType
        rw [← List.isSome_find?, hrow]
        rfl
      simp only [Check.refusal, hthere]
      have hid : r.id = id := by simpa using List.find?_some hrow
      exact answers_ok ⟨rfl, hid, by simpa using htext⟩
  · rintro F c hF ⟨hs, rfl, htext⟩
    obtain ⟨tasks, c₁, htasks, hF₁, hs₁, rfl⟩ := total_rolloutTypeTasks htext F c hF hs
    exact ⟨_, c₁, by rw [Db.bind_def, htasks]; rfl, hF₁, hs₁, rfl⟩

/-- **A create** is refused by the first check that is not met. -/
theorem foreseen_createRolloutCommit (now : Int) (ro : Rollout) :
    Db.Foreseen (· = s) (createRolloutCommit now ro) (refusal (createRolloutChecks s ro))
      fun _ => Working s ro.id (oldPair s ro.id) := by
  unfold createRolloutCommit createRolloutTx createRolloutChecks
  rw [refusal_append, refusal_append, refusal_append, refusal_append]
  refine Db.foreseen_bind foreseen_rolloutType fun _ rt => Db.foreseen_assume fun htasks => ?_
  rw [htasks]
  refine Db.foreseen_tx (Db.foreseen_bind (foreseen_insertRollout now ro) fun _ _ => ?_)
  refine Db.foreseen_bind (foreseen_insertStages _) fun _ _ => ?_
  exact Db.foreseen_bind (foreseen_insertPairs _) fun _ _ => foreseen_insertInheritedTasks _

/-- The update of the row, the id of an unknown rollout included. -/
theorem foreseen_updateRolloutRow (now : Int) (ro : Rollout) :
    Db.Foreseen (· = s) (updateRolloutRow now ro)
      (refusal [.text [ro.id, ro.title, ro.descExt, ro.descInt, ro.risks],
        .found (s.hasRollout ro.id)]) fun _ => Working s ro.id (oldPair s ro.id) := by
  refine (foreseen_affected fun t ht => answers_ok ?_).weaken fun _ _ h => h.2
  subst ht
  refine ⟨rfl, fun hhas => ⟨?_, rfl, fun _ h => h, fun _ h => ?_⟩⟩
  swap
  · rw [show oldPair t ro.id _ = true from h, Bool.true_or]
  exact (hasRollout_applyUpdate now ro t ro.id).trans hhas

/-- Then nobody is left of the pair. -/
theorem foreseen_deletePair (id : String) :
    Db.Foreseen (Working s id old) (deletePair id) (refusal [.text [id]])
      fun _ => Working s id fun _ => false := by
  refine foreseen_stmt fun _ t ht => answers_ok ⟨ht.there, ht.actors, fun _ h => (nomatch h), ?_⟩
  intro a ha
  have hmem := (List.mem_filter.mp (List.contains_iff_mem.mp ha)).2
  simp at hmem

/-- **An update** is refused by the first check that is not met. -/
theorem foreseen_updateRolloutTx (now : Int) (ro : Rollout) :
    Db.Foreseen (· = s) (updateRolloutTx now ro) (refusal (updateRolloutChecks s ro))
      fun _ => Working s ro.id fun _ => false := by
  unfold updateRolloutTx updateRolloutChecks
  simp only [refusal_append]
  refine Db.foreseen_tx (Db.foreseen_bind (foreseen_updateRolloutRow now ro) fun _ _ => ?_)
  refine Db.foreseen_bind (foreseen_plain fun _ ht => { ht with }) fun _ _ => ?_
  refine Db.foreseen_bind (foreseen_insertStages _) fun _ _ => ?_
  refine Db.foreseen_bind (foreseen_deletePair ro.id) fun _ _ => ?_
  refine Db.foreseen_bind (foreseen_insertPairs _) fun _ _ => ?_
  refine Db.foreseen_bind (foreseen_plain fun _ ht => { ht with }) fun _ _ => ?_
  exact foreseen_insertTasks _

/-- A rollout that is not refused has an id without NUL. -/
theorem createRolloutChecks_id {ro : Rollout} (h : refusal (createRolloutChecks s ro) = none) :
    hasNul ro.id = false := by
  have hmem : .text [ro.id, ro.productId, ro.typeId, ro.title, ro.descExt, ro.descInt, ro.risks,
      ro.createdBy] ∈ createRolloutChecks s ro := by
    simp [createRolloutChecks, insertChecks]
  exact hasNul_of_text h hmem List.mem_cons_self

/-- So has one that is updated. -/
theorem updateRolloutChecks_id {ro : Rollout} (h : refusal (updateRolloutChecks s ro) = none) :
    hasNul ro.id = false := by
  have hmem : .text [ro.id, ro.title, ro.descExt, ro.descInt, ro.risks] ∈
    updateRolloutChecks s ro := by
    simp [updateRolloutChecks]
  exact hasNul_of_text h hmem List.mem_cons_self

/-! ## Tasks and locks -/

def updateTaskChecks (s : Store) (id : String) (seq : Int) (status reason by_ : String) :
    List Check :=
  .int seq ::
    if clampStatus status = "" then [.text [id, reason]]
    else [.text [id, status, reason, by_],
      .constraint (!s.rolloutTasks.any (addressed id seq) || s.actorRef (nullIfEmpty by_))
        .foreignKey]

omit [Indexes] in
/-- `UpdateRolloutTask` is refused as its checks foresee. -/
theorem foreseen_updateRolloutTask (now : Int) (seq : Int) (status reason by_ : String) :
    Db.Foreseen (· = s) (updateRolloutTask now id seq status reason by_)
      (refusal (updateTaskChecks s id seq status reason by_)) fun _ _ => True := by
  unfold updateRolloutTask updateTaskChecks
  rw [refusal_cons]
  cases hseq : int4 seq with
  | false =>
    simp only [Check.refusal, hseq, Bool.not_false, if_true, Bool.false_eq_true, if_false]
    refine Db.foreseen_call fun t _ => ?_
    rfl
  | true =>
    simp only [Check.refusal, hseq, if_true, Option.none_or, Bool.not_true, Bool.false_eq_true,
      if_false]
    split
    · exact foreseen_stmt fun _ _ _ => answers_ok trivial
    · refine foreseen_stmt fun _ t ht => ?_
      subst ht
      exact answers_constraint fun _ => answers_ok trivial

def createLockChecks (s : Store) (l : Lock) : List Check :=
  [.text ([l.id, l.title, l.description, l.contact, l.kind, l.createdBy] ++ l.products.items),
    .constraint (lockKinds.contains l.kind) .check, .constraint (!s.hasLock l.id) .unique,
    .indexed (Indexes.holds [.text l.id]),
    .constraint (s.actorRef (nullIfEmpty l.createdBy)) .foreignKey]

/-- `CreateLock` is. -/
theorem foreseen_createLock (now : Int) (l : Lock) :
    Db.Foreseen (· = s) (createLock now l) (refusal (createLockChecks s l)) fun _ _ => True := by
  refine Db.Foreseen.andThen (Q := fun _ _ => True) (foreseen_stmt fun _ t ht => ?_) fun _ _ =>
    Db.total_pure fun _ _ => trivial
  subst ht
  exact answers_constraint fun _ => answers_constraint fun _ => answers_indexed fun _ =>
    answers_constraint fun _ => answers_ok trivial

/-- The kind is checked only when there is a row to write it to. -/
def updateLockChecks (s : Store) (l : Lock) : List Check :=
  [.text ([l.id, l.title, l.description, l.contact, l.kind] ++ l.products.items),
    .constraint (!s.hasLock l.id || lockKinds.contains l.kind) .check, .found (s.hasLock l.id)]

omit [Indexes] in
/-- `UpdateLock` is. -/
theorem foreseen_updateLock (l : Lock) :
    Db.Foreseen (· = s) (updateLock l) (refusal (updateLockChecks s l)) fun _ _ => True := by
  show Db.Foreseen _ _ (refusal (.text _ ::
    [.constraint (!s.hasLock l.id || lockKinds.contains l.kind) .check] ++ [.found _])) _
  refine (foreseen_affected (R := fun _ => True) fun t ht => ?_).weaken fun _ _ _ => trivial
  subst ht
  dsimp only
  cases hlock : t.hasLock l.id with
  | false => exact answers_ok ⟨rfl, fun _ => trivial⟩
  | true => exact answers_constraint fun _ => answers_ok ⟨rfl, fun _ => trivial⟩

end Rollouts

end Repository

end ReleaseRadar
