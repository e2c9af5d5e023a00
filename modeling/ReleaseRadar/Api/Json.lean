import ReleaseRadar.Domain
import ReleaseRadar.Lib.Rfc3339

/-!
# The JSON form of the entities

What `encoding/json` makes of the types of `domain.go`: the field names of the
struct tags in the order of the fields, `omitempty` where the tag says so, `null`
for a `nil` slice. A value stands for its text; an instant is written in RFC 3339
by `time.Time`'s own marshaller, a duration as its nanoseconds. The marshaller writes a time
in the offset from UTC that the time carries, and an entity with a time it cannot write has
no text (`HasText`).
-/

namespace ReleaseRadar

inductive Json
  | null
  | num (n : Int)
  | str (s : String)
  | time (t : Int)
  | arr (items : List Json)
  | obj (fields : List (String × Json))

namespace Json

mutual

/-- The times of a tree, in the order they are written. -/
def instants : Json → List Int
  | .null | .num _ | .str _ => []
  | .time t => [t]
  | .arr items => itemInstants items
  | .obj fields => fieldInstants fields

def itemInstants : List Json → List Int
  | [] => []
  | j :: js => instants j ++ itemInstants js

def fieldInstants : List (String × Json) → List Int
  | [] => []
  | (_, j) :: fields => instants j ++ fieldInstants fields

end

/-- Each of the times can be written in its offset from UTC. -/
def HasText (offsets : List Int) (j : Json) : Prop :=
  ∀ p ∈ offsets.zip j.instants, Lib.Rfc3339.Writable p.1 p.2

instance (offsets : List Int) (j : Json) : Decidable (HasText offsets j) :=
  inferInstanceAs (Decidable (∀ p ∈ _, _))

/-- The time can be written in the zone of the server. -/
def Printable (zone : Int → Int) (t : Int) : Prop := Lib.Rfc3339.Writable (zone t) t

instance (zone : Int → Int) (t : Int) : Decidable (Printable zone t) :=
  inferInstanceAs (Decidable (Lib.Rfc3339.Writable _ _))

/-- A tree can be written exactly if all its times can. -/
theorem hasText_map_iff {zone : Int → Int} {j : Json} :
    HasText (j.instants.map zone) j ↔ ∀ t ∈ j.instants, Printable zone t := by
  unfold HasText
  generalize j.instants = ts
  induction ts with
  | nil => simp
  | cons t ts ih =>
    rw [List.map_cons, List.zip_cons_cons, List.forall_mem_cons, List.forall_mem_cons, ih]
    exact Iff.rfl

/-- A slice: `null` when it is `nil`. -/
def ofSlice {α : Type} (f : α → Json) : Slice α → Json
  | none => .null
  | some xs => .arr (xs.map f)

def ofStrings : Slice String → Json := ofSlice .str

/-- A `string` field tagged `omitempty`. -/
def strOmitEmpty (key s : String) : List (String × Json) :=
  if s = "" then [] else [(key, .str s)]

/-- A `[]string` field tagged `omitempty`. -/
def stringsOmitEmpty (key : String) (xs : Slice String) : List (String × Json) :=
  if xs.items.isEmpty then [] else [(key, ofStrings xs)]

/-- The times of an object are those of its members. -/
theorem fieldInstants_append (fields fields' : List (String × Json)) :
    fieldInstants (fields ++ fields') = fieldInstants fields ++ fieldInstants fields' := by
  induction fields with
  | nil => rfl
  | cons f fields ih => rw [List.cons_append, fieldInstants, fieldInstants, ih, List.append_assoc]

/-- Those of an array are those of its items. -/
theorem itemInstants_eq (items : List Json) : itemInstants items = items.flatMap instants := by
  induction items with
  | nil => rfl
  | cons j js ih => rw [itemInstants, ih, List.flatMap_cons]

/-- A slice has the times of its items, a nil one none. -/
theorem instants_ofSlice {α : Type} (f : α → Json) (xs : Slice α) :
    (ofSlice f xs).instants = xs.items.flatMap fun x => (f x).instants := by
  cases xs with
  | none => rfl
  | some xs => rw [ofSlice, instants, itemInstants_eq, List.flatMap_map]; rfl

theorem instants_ofStrings (xs : Slice String) : (ofStrings xs).instants = [] := by
  rw [ofStrings, instants_ofSlice]
  exact List.flatMap_eq_nil_iff.mpr fun _ _ => rfl

end Json

open Json

def Product.toJson (p : Product) : Json :=
  .obj ([("id", .str p.id), ("name", .str p.name)] ++ strOmitEmpty "owner" p.owner
    ++ stringsOmitEmpty "brokers" p.brokers)

def CascadeStage.toJson (c : CascadeStage) : Json :=
  .obj [("stage", .str c.stage), ("delayHours", .num c.delayHours)]

def RolloutType.toJson (t : RolloutType) : Json :=
  .obj ([("id", .str t.id), ("name", .str t.name), ("short", .str t.short), ("tone", .str t.tone),
    ("delayProd1Ns", .num t.delayProd1), ("delayProd2Ns", .num t.delayProd2),
    ("cascadePlan", ofSlice CascadeStage.toJson t.cascadePlan)] ++
      strOmitEmpty "announce" t.announce
    ++ [("rules", ofStrings t.rules), ("tasks", ofStrings t.tasks)])

def RolloutStage.toJson (s : RolloutStage) : Json :=
  .obj [("env", .str s.env), ("startAt", .time s.startAt), ("durationNs", .num s.duration),
    ("status", .str s.status)]

def RolloutTask.toJson (t : RolloutTask) : Json :=
  .obj ([("index", .num t.index), ("description", .str t.description), ("status", .str t.status)]
    ++ strOmitEmpty "reason" t.reason ++ strOmitEmpty "by" t.by_
    ++ match t.at_ with
      | none => []
      | some at_ => [("at", .time at_)])

def Rollout.toJson (r : Rollout) : Json :=
  .obj [("id", .str r.id), ("product", .str r.productId), ("typeId", .str r.typeId),
    ("title", .str r.title), ("descExt", .str r.descExt), ("descInt", .str r.descInt),
    ("risks", .str r.risks), ("stages", ofSlice RolloutStage.toJson r.stages),
    ("pair", ofStrings r.pair), ("tasks", ofSlice RolloutTask.toJson r.tasks),
    ("createdAt", .time r.createdAt), ("updatedAt", .time r.updatedAt),
    ("createdBy", .str r.createdBy)]

def Lock.toJson (l : Lock) : Json :=
  .obj [("id", .str l.id), ("title", .str l.title), ("description", .str l.description),
    ("contact", .str l.contact), ("startAt", .time l.startAt), ("endAt", .time l.endAt),
    ("products", ofStrings l.products), ("kind", .str l.kind), ("createdBy", .str l.createdBy),
    ("createdAt", .time l.createdAt)]

/-! ## The times of an entity -/

section

variable {zone : Int → Int}

/-- The times of a rollout: those of its stages, of its tasks, and its own. -/
theorem instants_rollout (ro : Rollout) :
    ro.toJson.instants = (ro.stages.items.flatMap fun st => st.toJson.instants) ++
      ((ro.tasks.items.flatMap fun t => t.toJson.instants) ++ [ro.createdAt, ro.updatedAt]) := by
  simp only [Rollout.toJson, instants, fieldInstants, instants_ofStrings, List.nil_append,
    List.append_nil, List.singleton_append]
  rw [instants_ofSlice, instants_ofSlice]

theorem instants_lock (l : Lock) : l.toJson.instants = [l.startAt, l.endAt, l.createdAt] := by
  simp only [Lock.toJson, instants, fieldInstants, instants_ofStrings, List.nil_append,
    List.append_nil, List.singleton_append]

theorem instants_task (t : RolloutTask) : t.toJson.instants = t.at_.toList := by
  obtain ⟨index, description, status, reason, by_, at_⟩ := t
  have hempty : ∀ key s, fieldInstants (strOmitEmpty key s) = [] := fun key s => by
    unfold strOmitEmpty
    split <;> rfl
  simp only [RolloutTask.toJson, instants, fieldInstants_append, fieldInstants, hempty,
    List.nil_append]
  cases at_ <;> rfl

/-- A rollout has a text when each of its times has one. -/
theorem hasText_rollout_iff {ro : Rollout} :
    HasText (ro.toJson.instants.map zone) ro.toJson ↔
      (∀ st ∈ ro.stages.items, Printable zone st.startAt) ∧
        (∀ t ∈ ro.tasks.items, ∀ at_ ∈ t.at_, Printable zone at_) ∧
          Printable zone ro.createdAt ∧ Printable zone ro.updatedAt := by
  rw [hasText_map_iff, instants_rollout]
  simp only [List.forall_mem_append, List.forall_mem_flatMap, List.forall_mem_cons,
    instants_task, Option.mem_toList, RolloutStage.toJson, instants, fieldInstants,
    List.nil_append, List.append_nil, List.mem_singleton, forall_eq]
  exact Iff.rfl

/-- A list has a text when each of its entries has one. -/
theorem hasText_list_iff {α : Type} {f : α → Json} {xs : List α} :
    HasText ((Json.arr (xs.map f)).instants.map zone) (.arr (xs.map f)) ↔
      ∀ x ∈ xs, ∀ t ∈ (f x).instants, Printable zone t := by
  rw [hasText_map_iff, instants, itemInstants_eq, List.flatMap_map]
  simp only [List.forall_mem_flatMap]

end

end ReleaseRadar
