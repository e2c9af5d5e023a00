import ReleaseRadar.Api.Json

/-!
# Reading the JSON form back

What `json.NewDecoder(r.Body).Decode` makes of a value at the types of the master data. An
object is gone through member by member: a name finds its field whatever its case, a later
member overwrites an earlier one, an unknown one is skipped, and `null` leaves a string or
a number as it is and makes a slice `nil`. A member of another kind is an error, and so is
a number that does not fit.

`decode_toJson` of a rollout type is the round trip. A product comes back without its
brokers when it has none (`Product.decode_toJson`): `omitempty` drops an empty list, and a
member that is not there leaves the slice `nil`.
-/

namespace ReleaseRadar

namespace Json

/-- The folding `encoding/json` compares names under, on the characters that fold to ASCII. -/
def foldChar (c : Char) : Char :=
  if 'a'.toNat ≤ c.toNat ∧ c.toNat ≤ 'z'.toNat then Char.ofNat (c.toNat - 32)
  else if c = 'ſ' then 'S'
  else if c = '\u212a' then 'K'
  else c

/-- The member `name` of an object is for the field `key`. -/
def isField (key name : String) : Bool :=
  name.toList.map foldChar == key.toList.map foldChar

def decodeString (old : String) : Json → Option String
  | .null => some old
  | .str s => some s
  | _ => none

/-- An `int` is 64 bits wide, and so is a `time.Duration`. -/
def fitsInt64 (n : Int) : Bool :=
  decide (-9223372036854775808 ≤ n) && decide (n ≤ 9223372036854775807)

def decodeInt (old : Int) : Json → Option Int
  | .null => some old
  | .num n => if fitsInt64 n then some n else none
  | _ => none

/-- A slice, its elements decoded into zero values. -/
def decodeSlice {α : Type} (decode : Json → Option α) : Json → Option (Slice α)
  | .null => some none
  | .arr items => (items.mapM decode).map some
  | _ => none

/-- A struct: each member in turn is given to `set`. -/
def decodeStruct {α : Type} (set : α → String × Json → Option α) (zero : α) : Json → Option α
  | .null => some zero
  | .obj fields => fields.foldlM set zero
  | _ => none

end Json

open Json

def Product.setField (p : Product) (m : String × Json) : Option Product :=
  if isField "id" m.1 then (decodeString p.id m.2).map fun v => { p with id := v }
  else if isField "name" m.1 then (decodeString p.name m.2).map fun v => { p with name := v }
  else if isField "owner" m.1 then (decodeString p.owner m.2).map fun v => { p with owner := v }
  else if isField "brokers" m.1 then
    (decodeSlice (decodeString "") m.2).map fun v => { p with brokers := v }
  else some p

def Product.fromJson : Json → Option Product := decodeStruct Product.setField ⟨"", "", "", none⟩

def CascadeStage.setField (c : CascadeStage) (m : String × Json) : Option CascadeStage :=
  if isField "stage" m.1 then (decodeString c.stage m.2).map fun v => { c with stage := v }
  else if isField "delayHours" m.1 then
    (decodeInt c.delayHours m.2).map fun v => { c with delayHours := v }
  else some c

def CascadeStage.fromJson : Json → Option CascadeStage := decodeStruct CascadeStage.setField ⟨"", 0⟩

def RolloutType.setField (t : RolloutType) (m : String × Json) : Option RolloutType :=
  if isField "id" m.1 then (decodeString t.id m.2).map fun v => { t with id := v }
  else if isField "name" m.1 then (decodeString t.name m.2).map fun v => { t with name := v }
  else if isField "short" m.1 then (decodeString t.short m.2).map fun v => { t with short := v }
  else if isField "tone" m.1 then (decodeString t.tone m.2).map fun v => { t with tone := v }
  else if isField "delayProd1Ns" m.1 then
    (decodeInt t.delayProd1 m.2).map fun v => { t with delayProd1 := v }
  else if isField "delayProd2Ns" m.1 then
    (decodeInt t.delayProd2 m.2).map fun v => { t with delayProd2 := v }
  else if isField "cascadePlan" m.1 then
    (decodeSlice CascadeStage.fromJson m.2).map fun v => { t with cascadePlan := v }
  else if isField "announce" m.1 then
    (decodeString t.announce m.2).map fun v => { t with announce := v }
  else if isField "rules" m.1 then
    (decodeSlice (decodeString "") m.2).map fun v => { t with rules := v }
  else if isField "tasks" m.1 then
    (decodeSlice (decodeString "") m.2).map fun v => { t with tasks := v }
  else some t

def RolloutType.fromJson : Json → Option RolloutType :=
  decodeStruct RolloutType.setField ⟨"", "", "", "", 0, 0, none, "", none, none⟩

/-- The numbers of the type are 64 bits wide, as in a struct they always are. -/
structure RolloutType.Sized (t : RolloutType) : Prop where
  delays : fitsInt64 t.delayProd1 = true ∧ fitsInt64 t.delayProd2 = true
  plan : ∀ c ∈ t.cascadePlan.items, fitsInt64 c.delayHours = true

/-! ## Round trips -/

/-- A list is decoded item by item. -/
theorem mapM_toJson {α : Type} {f : α → Json} {g : Json → Option α} {xs : List α}
    (h : ∀ x ∈ xs, g (f x) = some x) : (xs.map f).mapM g = some xs := by
  induction xs with
  | nil => rfl
  | cons x xs ih =>
    rw [List.map_cons, List.mapM_cons, h x (List.mem_cons_self ..),
      ih fun y hy => h y (List.mem_cons_of_mem _ hy)]
    rfl

/-- A list of strings is decoded as it was written. -/
@[simp] theorem decodeSlice_ofStrings (xs : Slice String) :
    decodeSlice (decodeString "") (ofStrings xs) = some xs := by
  cases xs with
  | none => rfl
  | some xs =>
    have hall : (xs.map Json.str).mapM (decodeString "") = some xs := mapM_toJson fun _ _ => rfl
    show ((xs.map Json.str).mapM (decodeString "")).map some = _
    rw [hall]
    rfl

/-- So is an entry of a plan. -/
theorem CascadeStage.decode_toJson {c : CascadeStage} (h : fitsInt64 c.delayHours = true) :
    CascadeStage.fromJson c.toJson = some c := by
  have h₁ : isField "stage" "stage" = true := by decide
  have h₂ : isField "stage" "delayHours" = false := by decide
  have h₃ : isField "delayHours" "delayHours" = true := by decide
  simp [CascadeStage.fromJson, CascadeStage.toJson, decodeStruct, CascadeStage.setField, h₁, h₂, h₃,
    decodeString, decodeInt, h]

/-- So is a plan. -/
theorem decodeSlice_plan {plan : Slice CascadeStage}
    (h : ∀ c ∈ plan.items, fitsInt64 c.delayHours = true) :
    decodeSlice CascadeStage.fromJson (ofSlice CascadeStage.toJson plan) = some plan := by
  cases plan with
  | none => rfl
  | some plan =>
    have hall : (plan.map CascadeStage.toJson).mapM CascadeStage.fromJson = some plan :=
      mapM_toJson fun c hc => CascadeStage.decode_toJson (h c hc)
    show ((plan.map CascadeStage.toJson).mapM CascadeStage.fromJson).map some = _
    rw [hall]
    rfl

/-- A product comes back, its list of brokers `nil` when it is empty. -/
theorem Product.decode_toJson (p : Product) :
    Product.fromJson p.toJson =
      some { p with brokers := if p.brokers.items.isEmpty then none else p.brokers } := by
  have howner : ∀ q : Product, q.owner = "" →
      (strOmitEmpty "owner" p.owner).foldlM Product.setField q =
        some { q with owner := p.owner } := by
    intro q hq
    unfold strOmitEmpty
    split
    · next he =>
      rw [he, ← hq]
      rfl
    · simp +decide only [List.foldlM_cons, Product.setField, decodeString]
      rfl
  have hbrokers : ∀ q : Product, q.brokers = none →
      (stringsOmitEmpty "brokers" p.brokers).foldlM Product.setField q =
        some { q with brokers := if p.brokers.items.isEmpty then none else p.brokers } := by
    intro q hq
    unfold stringsOmitEmpty
    split
    · rw [← hq]
      rfl
    · simp +decide only [List.foldlM_cons, Product.setField, decodeSlice_ofStrings]
      rfl
  have hhead : ([("id", .str p.id), ("name", .str p.name)] : List (String × Json)).foldlM
      Product.setField ⟨"", "", "", none⟩ = some ⟨p.id, p.name, "", none⟩ := by
    simp +decide only [List.foldlM_cons, List.foldlM_nil, Product.setField, decodeString]
    rfl
  show ((_ ++ strOmitEmpty "owner" p.owner ++ stringsOmitEmpty "brokers" p.brokers).foldlM
    Product.setField ⟨"", "", "", none⟩) = _
  rw [List.foldlM_append, List.foldlM_append, hhead, Option.bind_eq_bind, Option.bind_some,
    howner _ rfl]
  exact hbrokers _ rfl

/-- A rollout type comes back as it is. -/
theorem RolloutType.decode_toJson {t : RolloutType} (h : t.Sized) :
    RolloutType.fromJson t.toJson = some t := by
  have hplan := decodeSlice_plan h.plan
  have hhead : ([("id", .str t.id), ("name", .str t.name), ("short", .str t.short),
      ("tone", .str t.tone), ("delayProd1Ns", .num t.delayProd1),
        ("delayProd2Ns", .num t.delayProd2),
      ("cascadePlan", ofSlice CascadeStage.toJson t.cascadePlan)] : List (String × Json)).foldlM
        RolloutType.setField ⟨"", "", "", "", 0, 0, none, "", none, none⟩ =
      some ⟨t.id, t.name, t.short, t.tone, t.delayProd1, t.delayProd2, t.cascadePlan, "", none,
        none⟩ := by
    simp +decide only [List.foldlM_cons, List.foldlM_nil, RolloutType.setField, decodeString,
      decodeInt, hplan, h.delays.1, h.delays.2]
    rfl
  have hannounce : ∀ q : RolloutType, q.announce = "" →
      (strOmitEmpty "announce" t.announce).foldlM RolloutType.setField q =
        some { q with announce := t.announce } := by
    intro q hq
    unfold strOmitEmpty
    split
    · next he =>
      rw [he, ← hq]
      rfl
    · simp +decide only [List.foldlM_cons, RolloutType.setField, decodeString]
      rfl
  have htail : ∀ q : RolloutType, ([("rules", ofStrings t.rules), ("tasks", ofStrings t.tasks)] :
      List (String × Json)).foldlM RolloutType.setField q =
        some { q with rules := t.rules, tasks := t.tasks } := by
    intro q
    simp +decide only [List.foldlM_cons, List.foldlM_nil, RolloutType.setField,
      decodeSlice_ofStrings]
    rfl
  show ((_ ++ strOmitEmpty "announce" t.announce ++ _).foldlM RolloutType.setField
    ⟨"", "", "", "", 0, 0, none, "", none, none⟩) = _
  rw [List.foldlM_append, List.foldlM_append, hhead, Option.bind_eq_bind, Option.bind_some,
    hannounce _ rfl]
  exact htail _

/-! ## What is decoded fits -/

/-- What every member keeps holds of the struct. -/
theorem decodeStruct_invariant {α : Type} (I : α → Prop) {set : α → String × Json → Option α}
    {zero a : α} {j : Json} (hset : ∀ a m b, I a → set a m = some b → I b) (hzero : I zero)
    (h : decodeStruct set zero j = some a) : I a := by
  have hall : ∀ (fields : List (String × Json)) (b : α), I b →
    fields.foldlM set b = some a → I a := by
    intro fields
    induction fields with
    | nil =>
      intro b hb he
      exact Option.some.inj he ▸ hb
    | cons m fields ih =>
      intro b hb he
      rw [List.foldlM_cons, Option.bind_eq_bind, Option.bind_eq_some_iff] at he
      obtain ⟨b', hm, he⟩ := he
      exact ih b' (hset b m b' hb hm) he
  unfold decodeStruct at h
  split at h
  · exact Option.some.inj h ▸ hzero
  · exact hall _ _ hzero h
  · cases h

/-- What every decoded item has, the list has. -/
theorem decodeSlice_forall {α : Type} {P : α → Prop} {decode : Json → Option α} {j : Json}
    {xs : Slice α} (hdecode : ∀ j x, decode j = some x → P x) (h : decodeSlice decode j = some xs) :
    ∀ x ∈ xs.items, P x := by
  have hall : ∀ (items : List Json) (ys : List α), items.mapM decode = some ys → ∀ y ∈ ys, P y := by
    intro items
    induction items with
    | nil =>
      intro ys he y hy
      rw [List.mapM_nil] at he
      rw [← Option.some.inj he] at hy
      cases hy
    | cons item items ih =>
      intro ys he y hy
      rw [List.mapM_cons, Option.bind_eq_bind, Option.bind_eq_some_iff] at he
      obtain ⟨x, hx, he⟩ := he
      obtain ⟨zs, hzs, he⟩ := Option.bind_eq_some_iff.mp he
      rw [← Option.some.inj he] at hy
      rcases List.mem_cons.mp hy with rfl | hy
      · exact hdecode item y hx
      · exact ih zs hzs y hy
  unfold decodeSlice at h
  split at h
  · rw [← Option.some.inj h]
    intro x hx
    cases hx
  · obtain ⟨ys, hys, he⟩ := Option.map_eq_some_iff.mp h
    rw [← he]
    exact hall _ ys hys
  · cases h

theorem fits_of_decodeInt {old n : Int} {j : Json} (hold : fitsInt64 old = true)
    (h : decodeInt old j = some n) : fitsInt64 n = true := by
  unfold decodeInt at h
  split at h
  · exact Option.some.inj h ▸ hold
  · split at h
    · next hfits => exact Option.some.inj h ▸ hfits
    · cases h
  · cases h

theorem CascadeStage.fits_of_fromJson {j : Json} {c : CascadeStage}
    (h : CascadeStage.fromJson j = some c) : fitsInt64 c.delayHours = true := by
  refine decodeStruct_invariant (fun c => fitsInt64 c.delayHours = true) (fun c m b hc hm => ?_)
    (by decide) h
  unfold CascadeStage.setField at hm
  split at hm
  · obtain ⟨v, -, rfl⟩ := Option.map_eq_some_iff.mp hm
    exact hc
  · split at hm
    · obtain ⟨v, hv, rfl⟩ := Option.map_eq_some_iff.mp hm
      exact fits_of_decodeInt hc hv
    · exact Option.some.inj hm ▸ hc

/-- A member is for its field or for one of the later ones. -/
private theorem of_field {α : Type} {c : Prop} [Decidable c] {x y : Option α} {b : α} {P : Prop}
    (h : (if c then x else y) = some b) (hfield : x = some b → P)
    (hlater : y = some b → P) : P := by
  split at h
  · exact hfield h
  · exact hlater h

/-- Numbers are read into 64 bits. -/
theorem RolloutType.sized_of_fromJson {j : Json} {t : RolloutType}
    (h : RolloutType.fromJson j = some t) : t.Sized := by
  refine decodeStruct_invariant RolloutType.Sized (fun t m b ht hm => ?_)
    ⟨⟨by decide, by decide⟩, fun c hc => by cases hc⟩ h
  unfold RolloutType.setField at hm
  -- the texts and the lists of texts leave the numbers alone
  have hsame : ∀ {α : Type} {o : Option α} {f : α → RolloutType},
      (∀ v, (f v).delayProd1 = t.delayProd1 ∧ (f v).delayProd2 = t.delayProd2 ∧
        (f v).cascadePlan = t.cascadePlan) → o.map f = some b → b.Sized := by
    intro α o f hkeep hf
    obtain ⟨v, -, rfl⟩ := Option.map_eq_some_iff.mp hf
    obtain ⟨h₁, h₂, h₃⟩ := hkeep v
    exact ⟨by rw [h₁, h₂]; exact ht.delays, by rw [h₃]; exact ht.plan⟩
  refine of_field hm (hsame fun _ => ⟨rfl, rfl, rfl⟩) fun hm => ?_
  refine of_field hm (hsame fun _ => ⟨rfl, rfl, rfl⟩) fun hm => ?_
  refine of_field hm (hsame fun _ => ⟨rfl, rfl, rfl⟩) fun hm => ?_
  refine of_field hm (hsame fun _ => ⟨rfl, rfl, rfl⟩) fun hm => ?_
  refine of_field hm (fun hd => ?_) fun hm => ?_
  · obtain ⟨v, hv, rfl⟩ := Option.map_eq_some_iff.mp hd
    exact ⟨⟨fits_of_decodeInt ht.delays.1 hv, ht.delays.2⟩, ht.plan⟩
  refine of_field hm (fun hd => ?_) fun hm => ?_
  · obtain ⟨v, hv, rfl⟩ := Option.map_eq_some_iff.mp hd
    exact ⟨⟨ht.delays.1, fits_of_decodeInt ht.delays.2 hv⟩, ht.plan⟩
  refine of_field hm (fun hd => ?_) fun hm => ?_
  · obtain ⟨v, hv, rfl⟩ := Option.map_eq_some_iff.mp hd
    exact ⟨ht.delays, decodeSlice_forall (fun _ _ => CascadeStage.fits_of_fromJson) hv⟩
  refine of_field hm (hsame fun _ => ⟨rfl, rfl, rfl⟩) fun hm => ?_
  refine of_field hm (hsame fun _ => ⟨rfl, rfl, rfl⟩) fun hm => ?_
  refine of_field hm (hsame fun _ => ⟨rfl, rfl, rfl⟩) fun hm => ?_
  exact Option.some.inj hm ▸ ht

end ReleaseRadar
