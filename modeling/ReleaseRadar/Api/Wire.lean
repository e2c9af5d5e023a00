import ReleaseRadar.Api.Decode
import ReleaseRadar.Auth.SessionCookie
import ReleaseRadar.Lib.JsonWrite
import ReleaseRadar.Lib.Rfc3339

/-!
# Rollouts and locks on the wire

The octets of an answer, and what a request makes of octets. `encode` is
`json.NewEncoder(w).Encode` for the tree of an answer: every time is written by
`time.Time.MarshalJSON` in the zone of the server, and where one cannot be written there is no
text at all. `Rollout.read` and `Lock.read` are what `json.NewDecoder(r.Body).Decode` makes of
the first value of a body.

`zone` gives the offset of the server's zone at an instant; `other` is what `time.Parse` makes of
a time that is not in RFC 3339. A time is looked at with its escapes undone.

`wire_round_trip` says that an entity comes back from the octets that are written of it.
-/

namespace ReleaseRadar

open Lib Lib.JsonText

/-! ## Writing -/

namespace Json

section

variable (zone : Int → Int)

/-- `MarshalJSON` of a time that can be written. -/
def timeText (t : Int) : String := String.ofList ((Rfc3339.format (zone t) t).getD [])

mutual

/-- What the text of a tree says. -/
def toValue : Json → Value
  | .null => .null
  | .num n => .num (decimal n)
  | .str s => .str s
  | .time t => .str (timeText zone t)
  | .arr items => .arr (itemValues items)
  | .obj fields => .obj (fieldValues fields)

def itemValues : List Json → List Value
  | [] => []
  | j :: js => toValue j :: itemValues js

def fieldValues : List (String × Json) → List (String × Value)
  | [] => []
  | (key, j) :: fields => (key, toValue j) :: fieldValues fields

end

/-- The text of an answer, with the line break `Encode` adds; `none` is its error. -/
def encode (j : Json) : Option (List Char) :=
  if ∀ t ∈ j.instants, Rfc3339.Writable (zone t) t then some (write (j.toValue zone) ++ ['\n'])
  else none

/-- `encode` has a text exactly when each time can be written in the zone of the server. -/
theorem encode_isSome_iff (j : Json) :
    (encode zone j).isSome = true ↔ HasText (j.instants.map zone) j := by
  rw [hasText_map_iff, encode]
  split
  · next h => exact iff_of_true rfl h
  · next h => exact iff_of_false (by simp) h

/-- The octets of a body: none where `writeJSON` drops the error of `Encode`. -/
def octets (j : Json) : List UInt8 := encodeUtf8 ((encode zone j).getD [])

end

end Json

/-! ## Reading -/

namespace Wire

/-- The zero `time.Time`. -/
def unsetTime : Int := -62135596800 * second

def readString (old : String) : Value → Option String
  | .null => some old
  | .str s => some s
  | _ => none

def readInt (old : Int) : Value → Option Int
  | .null => some old
  | .num literal => Api.atoi (String.ofList literal)
  | _ => none

/-- A slice, its elements read into zero values. -/
def readSlice {α : Type} (read : Value → Option α) : Value → Option (Slice α)
  | .null => some none
  | .arr items => (items.mapM read).map some
  | _ => none

/-- A struct: each member in turn is given to `set`. -/
def readStruct {α : Type} (set : α → String × Value → Option α) (zero : α) : Value → Option α
  | .null => some zero
  | .obj members => members.foldlM set zero
  | _ => none

/-- The first value of a body. -/
def readBody {α : Type} (read : Value → Option α) (octets : List UInt8) : Option α :=
  (first (decodeLossy octets)).bind read

section

variable (other : List Char → Option Int)

/-- `UnmarshalJSON` of a time. -/
def readTime (old : Int) : Value → Option Int
  | .null => some old
  | .str s => (Rfc3339.read s.toList).or (other s.toList)
  | _ => none

/-- A pointer to a time. -/
def readTimePointer : Value → Option (Option Int)
  | .null => some none
  | v => (readTime other unsetTime v).map some

end

end Wire

open Wire Json

section

variable (other : List Char → Option Int)

def RolloutStage.setMember (st : RolloutStage) (m : String × Value) : Option RolloutStage :=
  if isField "env" m.1 then (readString st.env m.2).map fun v => { st with env := v }
  else if isField "startAt" m.1 then
    (readTime other st.startAt m.2).map fun v => { st with startAt := v }
  else if isField "durationNs" m.1 then
    (readInt st.duration m.2).map fun v => { st with duration := v }
  else if isField "status" m.1 then (readString st.status m.2).map fun v => { st with status := v }
  else some st

def RolloutStage.read : Value → Option RolloutStage :=
  readStruct (RolloutStage.setMember other) ⟨"", unsetTime, 0, ""⟩

/-- Nothing looks at the index of a task of a body; a negative one is 0 here. -/
def RolloutTask.setMember (t : RolloutTask) (m : String × Value) : Option RolloutTask :=
  if isField "index" m.1 then (readInt t.index m.2).map fun v => { t with index := v.toNat }
  else if isField "description" m.1 then
    (readString t.description m.2).map fun v => { t with description := v }
  else if isField "status" m.1 then (readString t.status m.2).map fun v => { t with status := v }
  else if isField "reason" m.1 then (readString t.reason m.2).map fun v => { t with reason := v }
  else if isField "by" m.1 then (readString t.by_ m.2).map fun v => { t with by_ := v }
  else if isField "at" m.1 then (readTimePointer other m.2).map fun v => { t with at_ := v }
  else some t

def RolloutTask.read : Value → Option RolloutTask :=
  readStruct (RolloutTask.setMember other) ⟨0, "", "", "", "", none⟩

def Rollout.setMember (ro : Rollout) (m : String × Value) : Option Rollout :=
  if isField "id" m.1 then (readString ro.id m.2).map fun v => { ro with id := v }
  else if isField "product" m.1 then
    (readString ro.productId m.2).map fun v => { ro with productId := v }
  else if isField "typeId" m.1 then (readString ro.typeId m.2).map fun v => { ro with typeId := v }
  else if isField "title" m.1 then (readString ro.title m.2).map fun v => { ro with title := v }
  else if isField "descExt" m.1 then
    (readString ro.descExt m.2).map fun v => { ro with descExt := v }
  else if isField "descInt" m.1 then
    (readString ro.descInt m.2).map fun v => { ro with descInt := v }
  else if isField "risks" m.1 then (readString ro.risks m.2).map fun v => { ro with risks := v }
  else if isField "stages" m.1 then
    (readSlice (RolloutStage.read other) m.2).map fun v => { ro with stages := v }
  else if isField "pair" m.1 then
    (readSlice (readString "") m.2).map fun v => { ro with pair := v }
  else if isField "tasks" m.1 then
    (readSlice (RolloutTask.read other) m.2).map fun v => { ro with tasks := v }
  else if isField "createdAt" m.1 then
    (readTime other ro.createdAt m.2).map fun v => { ro with createdAt := v }
  else if isField "updatedAt" m.1 then
    (readTime other ro.updatedAt m.2).map fun v => { ro with updatedAt := v }
  else if isField "createdBy" m.1 then
    (readString ro.createdBy m.2).map fun v => { ro with createdBy := v }
  else some ro

def Rollout.read : Value → Option Rollout :=
  readStruct (Rollout.setMember other)
    ⟨"", "", "", "", "", "", "", none, none, none, unsetTime, unsetTime, ""⟩

def Lock.setMember (l : Lock) (m : String × Value) : Option Lock :=
  if isField "id" m.1 then (readString l.id m.2).map fun v => { l with id := v }
  else if isField "title" m.1 then (readString l.title m.2).map fun v => { l with title := v }
  else if isField "description" m.1 then
    (readString l.description m.2).map fun v => { l with description := v }
  else if isField "contact" m.1 then (readString l.contact m.2).map fun v => { l with contact := v }
  else if isField "startAt" m.1 then
    (readTime other l.startAt m.2).map fun v => { l with startAt := v }
  else if isField "endAt" m.1 then (readTime other l.endAt m.2).map fun v => { l with endAt := v }
  else if isField "products" m.1 then
    (readSlice (readString "") m.2).map fun v => { l with products := v }
  else if isField "kind" m.1 then (readString l.kind m.2).map fun v => { l with kind := v }
  else if isField "createdBy" m.1 then
    (readString l.createdBy m.2).map fun v => { l with createdBy := v }
  else if isField "createdAt" m.1 then
    (readTime other l.createdAt m.2).map fun v => { l with createdAt := v }
  else some l

def Lock.read : Value → Option Lock :=
  readStruct (Lock.setMember other) ⟨"", "", "", "", unsetTime, unsetTime, none, "", "", unsetTime⟩

end

/-! ## Texts of trees -/

namespace Json

/-- The items of a tree, one by one. -/
theorem itemValues_eq (zone : Int → Int) (items : List Json) :
    itemValues zone items = items.map (toValue zone) := by
  induction items with
  | nil => rfl
  | cons j js ih => rw [itemValues, ih, List.map_cons]

theorem fieldValues_append (zone : Int → Int) (fields fields' : List (String × Json)) :
    fieldValues zone (fields ++ fields') = fieldValues zone fields ++ fieldValues zone fields' := by
  induction fields with
  | nil => rfl
  | cons f fields ih => rw [List.cons_append, fieldValues, fieldValues, ih, List.cons_append]

/-- A nil slice is `null`, any other an array. -/
theorem toValue_ofSlice {α : Type} (zone : Int → Int) (f : α → Json) (xs : Slice α) :
    (ofSlice f xs).toValue zone =
      match xs with
      | none => .null
      | some xs => .arr (xs.map fun x => (f x).toValue zone) := by
  cases xs with
  | none => rfl
  | some xs =>
    rw [ofSlice, toValue, itemValues_eq, List.map_map]
    rfl

mutual

/-- How deep a tree is nested. -/
def depth : Json → Nat
  | .null | .num _ | .str _ | .time _ => 0
  | .arr items => itemsDepth items + 1
  | .obj fields => fieldsDepth fields + 1

def itemsDepth : List Json → Nat
  | [] => 0
  | j :: js => max (depth j) (itemsDepth js)

def fieldsDepth : List (String × Json) → Nat
  | [] => 0
  | (_, j) :: fields => max (depth j) (fieldsDepth fields)

end

section

variable (zone : Int → Int)

mutual

/-- A tree that is no deeper than `d` is written within the depth the decoder allows. -/
theorem writable_toValue : ∀ (j : Json) (d : Nat), j.depth ≤ d → Writable d (j.toValue zone)
  | .null, _, _ => .null
  | .num n, _, _ => .num (isLiteral_decimal n)
  | .str s, _, _ => .str s
  | .time t, _, _ => .str (timeText zone t)
  | .arr items, d + 1, h => .arr (writable_itemValues items d (Nat.le_of_succ_le_succ h))
  | .obj fields, d + 1, h => .obj (writable_fieldValues fields d (Nat.le_of_succ_le_succ h))

theorem writable_itemValues : ∀ (items : List Json) (d : Nat), itemsDepth items ≤ d →
    WritableItems d (itemValues zone items)
  | [], _, _ => .nil
  | j :: js, d, h =>
    .cons (writable_toValue j d (Nat.le_trans (Nat.le_max_left ..) h))
      (writable_itemValues js d (Nat.le_trans (Nat.le_max_right ..) h))

theorem writable_fieldValues : ∀ (fields : List (String × Json)) (d : Nat), fieldsDepth fields ≤ d →
    WritableMembers d (fieldValues zone fields)
  | [], _, _ => .nil
  | (_, j) :: fields, d, h =>
    .cons (writable_toValue j d (Nat.le_trans (Nat.le_max_left ..) h))
      (writable_fieldValues fields d (Nat.le_trans (Nat.le_max_right ..) h))

end

end

end Json

/-! ## Round trips -/

/-- Times are written in whole minutes from UTC. -/
def WholeMinutes (zone : Int → Int) : Prop := ∀ t, (zone t).tmod 60 = 0

/-- The numbers of the rollout are 64 bits wide, as in a struct they always are. -/
structure Rollout.Sized (ro : Rollout) : Prop where
  durations : ∀ st ∈ ro.stages.items, Auth.IsInt64 st.duration
  indexes : ∀ t ∈ ro.tasks.items, Auth.IsInt64 t.index

section RoundTrip

variable {zone : Int → Int} {other : List Char → Option Int}

/-- An int64 is read back from its digits. -/
theorem readInt_decimal {n : Int} (h : Auth.IsInt64 n) (old : Int) :
    readInt old (.num (decimal n)) = some n := by
  rw [readInt, Auth.atoi_decimal, if_pos h]

/-- A time of a four-digit year is read back from its text. -/
theorem readTime_timeText (hzone : WholeMinutes zone) {t : Int}
    (h : Rfc3339.Writable (zone t) t) (old : Int) :
    readTime other old (.str (timeText zone t)) = some t := by
  obtain ⟨text, htext⟩ : ∃ text, Rfc3339.format (zone t) t = some text := ⟨_, if_pos h⟩
  have hread := Rfc3339.read_format htext
  rw [hzone t, Int.zero_mul, Int.add_zero] at hread
  rw [readTime, timeText, htext, Option.getD_some, String.toList_ofList, hread, Option.some_or]

/-- A list comes back element by element. -/
theorem readSlice_ofSlice {α : Type} {f : α → Json} {read : Value → Option α} {xs : Slice α}
    (h : ∀ x ∈ xs.items, read ((f x).toValue zone) = some x) :
    readSlice read ((ofSlice f xs).toValue zone) = some xs := by
  have hall : ∀ ys : List α, (∀ y ∈ ys, read ((f y).toValue zone) = some y) →
      (ys.map fun y => (f y).toValue zone).mapM read = some ys := by
    intro ys hys
    induction ys with
    | nil => rfl
    | cons y ys ih =>
      rw [List.map_cons, List.mapM_cons, hys y (List.mem_cons_self ..),
        ih fun z hz => hys z (List.mem_cons_of_mem _ hz)]
      rfl
  rw [toValue_ofSlice]
  cases xs with
  | none => rfl
  | some xs =>
    show ((xs.map fun x => (f x).toValue zone).mapM read).map some = _
    rw [hall xs h]
    rfl

/-- A list of strings is read back, a nil one as nil. -/
theorem readSlice_ofStrings (xs : Slice String) :
    readSlice (readString "") ((ofStrings xs).toValue zone) = some xs :=
  readSlice_ofSlice fun _ _ => rfl

/-- A stage is read back from its object. -/
theorem RolloutStage.read_toValue (hzone : WholeMinutes zone) {st : RolloutStage}
    (htimes : ∀ t ∈ st.toJson.instants, Rfc3339.Writable (zone t) t)
    (hduration : Auth.IsInt64 st.duration) :
    RolloutStage.read other (st.toJson.toValue zone) = some st := by
  have hstart := htimes st.startAt (by simp [RolloutStage.toJson, instants, fieldInstants])
  show [("env", _), ("startAt", _), ("durationNs", _), ("status", _)].foldlM
    (RolloutStage.setMember other) _ = _
  simp +decide only [List.foldlM_cons, List.foldlM_nil, RolloutStage.setMember, toValue, readString,
    readInt_decimal hduration, readTime_timeText hzone hstart]
  rfl

/-- A field that is left out when it is empty. -/
theorem foldlM_strOmitEmpty {α : Type} {set : α → String × Value → Option α} {key s : String}
    {a b : α} (hempty : s = "" → a = b) (hset : set a (key, .str s) = some b) :
    (fieldValues zone (strOmitEmpty key s)).foldlM set a = some b := by
  unfold strOmitEmpty
  split
  · next he => rw [hempty he]; rfl
  · show (set a (key, .str s)).bind _ = _
    rw [hset]
    rfl

/-- So is a task, with the members `omitempty` leaves out. -/
theorem RolloutTask.read_toValue (hzone : WholeMinutes zone) {t : RolloutTask}
    (htimes : ∀ x ∈ t.toJson.instants, Rfc3339.Writable (zone x) x)
    (hindex : Auth.IsInt64 t.index) :
    RolloutTask.read other (t.toJson.toValue zone) = some t := by
  obtain ⟨index, description, status, reason, by_, at_⟩ := t
  have hhead : [("index", .num (decimal index)), ("description", .str description),
      ("status", .str status)].foldlM (RolloutTask.setMember other) ⟨0, "", "", "", "", none⟩ =
        some ⟨index, description, status, "", "", none⟩ := by
    simp +decide only [List.foldlM_cons, List.foldlM_nil, RolloutTask.setMember, readString,
      readInt_decimal hindex]
    rfl
  have hreason : (fieldValues zone (strOmitEmpty "reason" reason)).foldlM
      (RolloutTask.setMember other) ⟨index, description, status, "", "", none⟩ =
        some ⟨index, description, status, reason, "", none⟩ :=
    foldlM_strOmitEmpty (fun he => by rw [he]) (by
      simp +decide only [RolloutTask.setMember, readString]
      rfl)
  have hby : (fieldValues zone (strOmitEmpty "by" by_)).foldlM
      (RolloutTask.setMember other) ⟨index, description, status, reason, "", none⟩ =
        some ⟨index, description, status, reason, by_, none⟩ :=
    foldlM_strOmitEmpty (fun he => by rw [he]) (by
      simp +decide only [RolloutTask.setMember, readString]
      rfl)
  unfold RolloutTask.toJson at htimes ⊢
  rw [toValue, fieldValues_append, fieldValues_append, fieldValues_append]
  rw [instants, fieldInstants_append] at htimes
  show List.foldlM _ _ _ = _
  rw [List.foldlM_append, List.foldlM_append, List.foldlM_append]
  refine Option.bind_eq_some_iff.mpr ⟨_, Option.bind_eq_some_iff.mpr
    ⟨_, Option.bind_eq_some_iff.mpr ⟨_, hhead, hreason⟩, hby⟩, ?_⟩
  cases at_ with
  | none => rfl
  | some at_ =>
    have hat := htimes at_ (List.mem_append_right _ (List.mem_cons_self ..))
    have hpointer : readTimePointer other (.str (timeText zone at_)) = some (some at_) := by
      rw [readTimePointer, readTime_timeText hzone hat]
      · rfl
      · exact fun he => Value.noConfusion he
    simp +decide only [fieldValues, toValue, List.foldlM_cons, List.foldlM_nil,
      RolloutTask.setMember, hpointer]
    rfl

/-- So is a rollout, with its stages, its tasks and its pair. -/
theorem Rollout.read_toValue (hzone : WholeMinutes zone) {ro : Rollout} (hsized : ro.Sized)
    (htimes : ∀ t ∈ ro.toJson.instants, Rfc3339.Writable (zone t) t) :
    Rollout.read other (ro.toJson.toValue zone) = some ro := by
  rw [instants_rollout] at htimes
  have hstages : readSlice (RolloutStage.read other)
      ((ofSlice RolloutStage.toJson ro.stages).toValue zone) = some ro.stages :=
    readSlice_ofSlice fun st hst => RolloutStage.read_toValue hzone
      (fun t ht => htimes t (List.mem_append_left _ (List.mem_flatMap.mpr ⟨st, hst, ht⟩)))
      (hsized.durations st hst)
  have htasks : readSlice (RolloutTask.read other)
      ((ofSlice RolloutTask.toJson ro.tasks).toValue zone) = some ro.tasks :=
    readSlice_ofSlice fun t ht => RolloutTask.read_toValue hzone
      (fun x hx => htimes x (List.mem_append_right _ (List.mem_append_left _
        (List.mem_flatMap.mpr ⟨t, ht, hx⟩))))
      (hsized.indexes t ht)
  have hcreated := htimes ro.createdAt (by simp)
  have hupdated := htimes ro.updatedAt (by simp)
  show List.foldlM _ _ (fieldValues zone _) = _
  simp +decide only [fieldValues, toValue, List.foldlM_cons, List.foldlM_nil, Rollout.setMember,
    readString, hstages, htasks, readSlice_ofStrings, readTime_timeText hzone hcreated,
    readTime_timeText hzone hupdated]
  rfl

/-- So is a lock. -/
theorem Lock.read_toValue (hzone : WholeMinutes zone) {l : Lock}
    (htimes : ∀ t ∈ l.toJson.instants, Rfc3339.Writable (zone t) t) :
    Lock.read other (l.toJson.toValue zone) = some l := by
  rw [instants_lock] at htimes
  have hstart := htimes l.startAt (by simp)
  have hend := htimes l.endAt (by simp)
  have hcreated := htimes l.createdAt (by simp)
  show List.foldlM _ _ (fieldValues zone _) = _
  simp +decide only [fieldValues, toValue, List.foldlM_cons, List.foldlM_nil, Lock.setMember,
    readString, readSlice_ofStrings, readTime_timeText hzone hstart, readTime_timeText hzone hend,
    readTime_timeText hzone hcreated]
  rfl

/-! ## Octets -/

/-- An array is one deeper than its items. -/
theorem depth_ofSlice {α : Type} {f : α → Json} {d : Nat} (h : ∀ x, (f x).depth ≤ d)
    (xs : Slice α) : (ofSlice f xs).depth ≤ d + 1 := by
  cases xs with
  | none => exact Nat.zero_le _
  | some xs =>
    refine Nat.succ_le_succ ?_
    induction xs with
    | nil => exact Nat.zero_le _
    | cons x xs ih => exact Nat.max_le.mpr ⟨h x, ih⟩

theorem depth_stage (st : RolloutStage) : st.toJson.depth ≤ 1 := Nat.le_refl 1

theorem depth_task (t : RolloutTask) : t.toJson.depth ≤ 1 := by
  have hfields : ∀ fields fields' : List (String × Json),
      fieldsDepth (fields ++ fields') = max (fieldsDepth fields) (fieldsDepth fields') := by
    intro fields fields'
    induction fields with
    | nil => exact (Nat.zero_max _).symm
    | cons f fields ih =>
      rw [List.cons_append, fieldsDepth, fieldsDepth, ih, Nat.max_assoc]
  have homitted : ∀ key s : String, fieldsDepth (strOmitEmpty key s) = 0 := by
    intro key s
    unfold strOmitEmpty
    split <;> rfl
  unfold RolloutTask.toJson
  rw [depth, hfields, hfields, hfields, homitted, homitted]
  cases t.at_ with
  | none => exact Nat.le_refl 1
  | some at_ => exact Nat.le_refl 1

/-- A rollout, its tasks, the members of a task. -/
theorem depth_rollout (ro : Rollout) : ro.toJson.depth ≤ 3 := by
  have hstages := depth_ofSlice depth_stage ro.stages
  have htasks := depth_ofSlice depth_task ro.tasks
  have hpair : (ofStrings ro.pair).depth ≤ 1 := depth_ofSlice (fun _ => Nat.zero_le _) ro.pair
  simp only [Rollout.toJson, depth, fieldsDepth]
  omega

/-- A lock and its products. -/
theorem depth_lock (l : Lock) : l.toJson.depth ≤ 2 := by
  have hproducts : (ofStrings l.products).depth ≤ 1 :=
    depth_ofSlice (fun _ => Nat.zero_le _) l.products
  simp only [Lock.toJson, depth, fieldsDepth]
  omega

/-- What is written holds only times that can be written, and ends with the newline of `Encode`. -/
theorem encode_eq_some {j : Json} {text : List Char} (h : j.encode zone = some text) :
    (∀ t ∈ j.instants, Rfc3339.Writable (zone t) t) ∧ text = write (j.toValue zone) ++ ['\n'] := by
  unfold encode at h
  split at h
  · next hall => exact ⟨hall, (Option.some.inj h).symm⟩
  · cases h

/-- **The text of an array or an object is a JSON text of what it says.** -/
theorem parse_encode {j : Json} {text : List Char} (hj : isContainer (j.toValue zone))
    (hdepth : j.depth ≤ maxDepth) (h : j.encode zone = some text) :
    parse text = some (j.toValue zone) := by
  obtain ⟨-, rfl⟩ := encode_eq_some h
  exact parse_write hj (writable_toValue zone j _ hdepth) (Nat.le_refl _)
    (List.forall_mem_singleton.mpr rfl)

/-- A body that starts with the text is read as what the text says. -/
theorem readBody_encode {α : Type} {read : Value → Option α} {j : Json} {text : List Char}
    (hj : isContainer (j.toValue zone)) (hdepth : j.depth ≤ maxDepth)
    (h : j.encode zone = some text) (rest : List Char) :
    readBody read (encodeUtf8 (text ++ rest)) = read (j.toValue zone) := by
  obtain ⟨-, rfl⟩ := encode_eq_some h
  rw [readBody, decodeLossy_encodeUtf8, List.append_assoc,
    first_write hj (writable_toValue zone j _ hdepth) (Nat.le_refl _)]
  rfl

/-- What the server writes of an entity is a JSON text, and a body that begins with it is read
as the entity. -/
structure Carries {α : Type} (zone : Int → Int) (read : (List Char → Option Int) → Value → Option α)
    (j : Json) (a : α) : Prop where
  parsed : ∀ text, j.encode zone = some text → parse text = some (j.toValue zone)
  read : ∀ text, j.encode zone = some text → ∀ other rest,
    readBody (read other) (encodeUtf8 (text ++ rest)) = some a

/-- The octets of the answer are read back as what was written. -/
theorem Carries.read_text {α : Type} {read : (List Char → Option Int) → Value → Option α} {j : Json}
    {a : α} (h : Carries zone read j a) {text : List Char} (htext : j.encode zone = some text)
    (other : List Char → Option Int) : readBody (read other) (encodeUtf8 text) = some a := by
  have hread := h.read text htext other []
  rw [List.append_nil] at hread
  exact hread

/-- The text of a rollout carries it. -/
theorem carries_rollout (hzone : WholeMinutes zone) {ro : Rollout} (hsized : ro.Sized) :
    Carries zone Rollout.read ro.toJson ro := by
  have hdepth : ro.toJson.depth ≤ maxDepth := Nat.le_trans (depth_rollout ro) (by decide)
  exact ⟨fun text h => parse_encode rfl hdepth h, fun text h other rest =>
    (readBody_encode rfl hdepth h rest).trans
      (Rollout.read_toValue hzone hsized (encode_eq_some h).1)⟩

/-- The text of a lock does. -/
theorem carries_lock (hzone : WholeMinutes zone) (l : Lock) :
    Carries zone Lock.read l.toJson l := by
  have hdepth : l.toJson.depth ≤ maxDepth := Nat.le_trans (depth_lock l) (by decide)
  exact ⟨fun text h => parse_encode rfl hdepth h, fun text h other rest =>
    (readBody_encode rfl hdepth h rest).trans (Lock.read_toValue hzone (encode_eq_some h).1)⟩

/-- A time that a browser writes, if its year has four digits. -/
theorem readTime_toISOString {t : Int} (old : Int)
    (ht : 0 ≤ (Gregorian.date (JsDate.day t)).year ∧ (Gregorian.date (JsDate.day t)).year ≤ 9999) :
    readTime other old (.str (String.ofList (JsDate.toISOString t))) = some (t * 1000000) := by
  rw [readTime, String.toList_ofList, Rfc3339.read_toISOString ht, Option.some_or]

end RoundTrip

/-- **The wire carries rollouts and locks**: what the server writes of one, in the local time of
any zone of whole minutes, is a JSON text, and a body that begins with it is read as that
rollout or lock. A time that a browser writes is read as the instant it is. -/
theorem wire_round_trip {zone : Int → Int} (hzone : WholeMinutes zone) :
    (∀ ro : Rollout, ro.Sized → Carries zone Rollout.read ro.toJson ro) ∧
    (∀ l : Lock, Carries zone Lock.read l.toJson l) ∧
    ∀ (other : List Char → Option Int) (old t : Int),
      0 ≤ (Gregorian.date (JsDate.day t)).year ∧ (Gregorian.date (JsDate.day t)).year ≤ 9999 →
        readTime other old (.str (String.ofList (JsDate.toISOString t))) = some (t * 1000000) := by
  exact ⟨fun ro hsized => carries_rollout hzone hsized, carries_lock hzone,
    fun _ old _ ht => readTime_toISOString old ht⟩

private def thaw : Lock :=
  ⟨"l1", "A & \"B\"", "", "", 1500000, 3 * hour, some ["all"], "window", "", 0⟩

/-- The quotes are escaped, and so is what HTML would read; the times are those of summer in
Berne. -/
theorem wire_round_trip_summer :
    readBody (Lock.read fun _ => none)
      (encodeUtf8 (("\x7b\"id\":\"l1\",\"title\":\"A \\u0026 \\\"B\\\"\"," ++
      "\"description\":\"\",\"contact\":\"\",\"startAt\":\"1970-01-01T02:00:00.0015+02:00\"," ++
      "\"endAt\":\"1970-01-01T05:00:00+02:00\",\"products\":[\"all\"],\"kind\":\"window\"," ++
      "\"createdBy\":\"\",\"createdAt\":\"1970-01-01T02:00:00+02:00\"\x7d\n").toList ++ ['?'])) =
      some thaw := by
  refine ((@wire_round_trip (fun _ => 7200) fun _ => rfl).2.1 thaw).read _ ?_ _ _
  simp only [String.toList_append]
  -- the characters of the literals, one after the other
  rw [String.toList_ofList, String.toList_ofList, String.toList_ofList, String.toList_ofList]
  decide +kernel

end ReleaseRadar
