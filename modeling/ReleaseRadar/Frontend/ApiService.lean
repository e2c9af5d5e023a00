import ReleaseRadar.Api.Router
import ReleaseRadar.Lib.Decimal
import ReleaseRadar.Lib.Url
import ReleaseRadar.Store.RolloutSpec

/-!
# The calls of the page

`api.service.ts`, as far as a call names an entry by its id. The ids go into the URLs as they
are, so a call reaches the route of its entry only if the browser and the server leave the id
alone: `reaches_entry_iff` and `reaches_updateTask_iff` say which ids these are. The id `r1?x` is
none, and what is asked of it is asked of `r1`.
-/

namespace ReleaseRadar.Frontend.ApiService

open Lib Api

/-- What `HttpClient` is asked for. -/
structure Call where
  method : String
  url : List Char
deriving DecidableEq, Repr

def API : String := "/api"

/-- The URL of an entry of a collection. -/
def entry (collection id : String) : List Char :=
  API.toList ++ '/' :: (collection.toList ++ '/' :: id.toList)

def rollout (id : String) : Call := ⟨"GET", entry "rollouts" id⟩

def updateRollout (id : String) : Call := ⟨"PATCH", entry "rollouts" id⟩

def deleteRollout (id : String) : Call := ⟨"DELETE", entry "rollouts" id⟩

def updateTask (id : String) (seq : Nat) : Call :=
  ⟨"PATCH", entry "rollouts" id ++ '/' :: ("tasks".toList ++ '/' :: (toString seq).toList)⟩

def updateLock (id : String) : Call := ⟨"PATCH", entry "locks" id⟩

/-- The server reads this path in the request of the call. -/
def Call.Reaches (call : Call) (path : List String) : Prop :=
  Url.received call.url = some (path.map fun seg => encodeUtf8 seg.toList)

instance (call : Call) (path : List String) : Decidable (call.Reaches path) :=
  inferInstanceAs (Decidable (_ = _))

/-- A call reaches one path only. -/
theorem Call.Reaches.unique {call : Call} {path path' : List String} (h : call.Reaches path)
    (h' : call.Reaches path') : path = path' := by
  have hsame := Option.some.inj (h.symm.trans h')
  have hinj : Function.Injective fun seg : String => encodeUtf8 seg.toList := fun _ _ he =>
    String.toList_inj.mp (Url.encodeUtf8_injective he)
  exact List.map_injective_iff.mpr hinj hsame

/-! ## The ids that reach their entry -/

/-- The id has no character that means something in a URL, and is no dot segment. -/
structure Plain (id : String) : Prop where
  chars : ∀ c ∈ id.toList, Url.isReserved c = false
  dots : id.toList ≠ ['.'] ∧ id.toList ≠ ['.', '.']

/-- Such an id, and not the empty one. -/
structure PlainInside (id : String) : Prop extends Plain id where
  ne_empty : id ≠ ""

/-- Such an id, and nothing at its end that a URL does not end with. -/
structure PlainAtEnd (id : String) : Prop extends Plain id where
  ends : ∀ c ∈ id.toList.getLast?, Url.isMargin c = false

-- the characters of the id are gone through here, and not all characters there are
instance (id : String) : Decidable (Plain id) :=
  have : Decidable (∀ c ∈ id.toList, Url.isReserved c = false) := List.decidableBAll _ _
  decidable_of_iff (_ ∧ _) ⟨fun h => ⟨h.1, h.2⟩, fun h => ⟨h.chars, h.dots⟩⟩

instance (id : String) : Decidable (PlainInside id) :=
  decidable_of_iff (Plain id ∧ _) ⟨fun h => ⟨h.1, h.2⟩, fun h => ⟨h.toPlain, h.ne_empty⟩⟩

instance (id : String) : Decidable (PlainAtEnd id) :=
  have : Decidable (∀ c ∈ id.toList.getLast?, Url.isMargin c = false) :=
    Option.decidableForallMem _
  decidable_of_iff (Plain id ∧ _) ⟨fun h => ⟨h.1, h.2⟩, fun h => ⟨h.toPlain, h.ends⟩⟩

theorem toList_API : API.toList = '/' :: "api".toList := by decide

/-- A segment that is carried wherever it stands. -/
def Fixed (seg : List Char) : Prop :=
  seg ≠ [] ∧ (∀ c ∈ seg, Url.isReserved c = false ∧ Url.isMargin c = false) ∧
    seg ≠ ['.'] ∧ seg ≠ ['.', '.']

instance (seg : List Char) : Decidable (Fixed seg) :=
  have : Decidable (∀ c ∈ seg, Url.isReserved c = false ∧ Url.isMargin c = false) :=
    List.decidableBAll _ _
  inferInstanceAs (Decidable (_ ∧ _))

/-- An id behind such segments. -/
theorem carried_atEnd_iff {before : List (List Char)} (h : ∀ seg ∈ before, Fixed seg)
    (id : String) : Url.Carried (before ++ [id.toList]) ↔ PlainAtEnd id := by
  have hlast : (∀ c ∈ (Url.ofSegments '/' (before ++ [id.toList])).getLast?,
      Url.isMargin c = false) ↔ ∀ c ∈ id.toList.getLast?, Url.isMargin c = false := by
    rw [Url.getLast?_ofSegments]
    cases id.toList.getLast? with
    | none => exact iff_of_true (fun c hc => by obtain rfl := Option.some.inj hc; rfl) nofun
    | some c => exact Iff.rfl
  constructor
  · intro hc
    have hmem : id.toList ∈ before ++ [id.toList] :=
      List.mem_append_right before List.mem_cons_self
    exact ⟨⟨hc.plain _ hmem, hc.dots _ hmem⟩, hlast.mp hc.ends⟩
  · intro hid
    refine ⟨fun seg hseg c hc => ?_, fun seg hseg => ?_, fun seg hseg => ?_, hlast.mpr hid.ends⟩
    · rcases List.mem_append.mp hseg with hseg | hseg
      · exact ((h seg hseg).2.1 c hc).1
      · obtain rfl := List.mem_singleton.mp hseg
        exact hid.chars c hc
    · rcases List.mem_append.mp hseg with hseg | hseg
      · exact (h seg hseg).2.2
      · obtain rfl := List.mem_singleton.mp hseg
        exact hid.dots
    · rw [List.dropLast_concat] at hseg
      exact (h seg hseg).1

/-- An id between such segments. -/
theorem carried_inside_iff {before after : List (List Char)} (h : ∀ seg ∈ before, Fixed seg)
    {last : List Char} (hafter : ∀ seg ∈ after ++ [last], Fixed seg) (id : String) :
    Url.Carried (before ++ id.toList :: (after ++ [last])) ↔ PlainInside id := by
  have hsplit : before ++ id.toList :: (after ++ [last]) =
      (before ++ id.toList :: after) ++ [last] := by simp
  have hinside : id.toList ∈ before ++ id.toList :: (after ++ [last]) :=
    List.mem_append_right before List.mem_cons_self
  have hempty : id.toList ≠ [] ↔ id ≠ "" :=
    not_congr (@String.toList_inj id "")
  constructor
  · intro hc
    refine ⟨⟨hc.plain _ hinside, hc.dots _ hinside⟩, hempty.mp (hc.inner _ ?_)⟩
    rw [hsplit, List.dropLast_concat]
    exact List.mem_append_right before List.mem_cons_self
  · rintro ⟨hid, hne⟩
    have hall : ∀ seg ∈ before ++ id.toList :: (after ++ [last]),
        seg ≠ [] ∧ (∀ c ∈ seg, Url.isReserved c = false) ∧ seg ≠ ['.'] ∧ seg ≠ ['.', '.'] := by
      intro seg hseg
      have hfixed : Fixed seg → seg ≠ [] ∧ (∀ c ∈ seg, Url.isReserved c = false) ∧
          seg ≠ ['.'] ∧ seg ≠ ['.', '.'] := fun hf => ⟨hf.1, fun c hc => (hf.2.1 c hc).1, hf.2.2⟩
      rcases List.mem_append.mp hseg with hseg | hseg
      · exact hfixed (h seg hseg)
      · rcases List.mem_cons.mp hseg with rfl | hseg
        · exact ⟨hempty.mpr hne, hid.chars, hid.dots⟩
        · exact hfixed (hafter seg hseg)
    refine ⟨fun seg hseg => (hall seg hseg).2.1, fun seg hseg => (hall seg hseg).2.2,
      fun seg hseg => (hall seg (List.dropLast_subset _ hseg)).1, fun c hc => ?_⟩
    have hlast := hafter last (List.mem_append_right after List.mem_cons_self)
    rw [hsplit, Url.getLast?_ofSegments, List.getLast?_eq_some_getLast hlast.1] at hc
    obtain rfl := Option.some.inj hc
    exact (hlast.2.1 _ (List.getLast_mem hlast.1)).2

/-- **The ids of the entries that are reached.** -/
theorem reaches_entry_iff {method collection : String} (h : collection ∈ ["rollouts", "locks"])
    (id : String) :
    (Call.mk method (entry collection id)).Reaches ["api", collection, id] ↔ PlainAtEnd id := by
  have hurl : entry collection id =
      Url.ofSegments '/' (["api".toList, collection.toList] ++ [id.toList]) := by
    simp only [entry, toList_API, Url.ofSegments, List.flatMap_cons, List.flatMap_nil,
      List.cons_append, List.append_nil, List.nil_append]
  have hfixed : ∀ seg ∈ ["api".toList, collection.toList], Fixed seg := by
    rcases List.mem_pair.mp h with rfl | rfl <;> decide
  unfold Call.Reaches
  rw [hurl]
  exact Url.received_ofSegments_iff.trans (carried_atEnd_iff hfixed id)

/-- The page of another id asks for the rollout. -/
example : (rollout "r1?x").Reaches ["api", "rollouts", "r1"] := by decide

theorem fixed_toString (n : Nat) : Fixed (toString n).toList := by
  have hdigit : ∀ c ∈ (toString n).toList, c.isDigit := fun c hc =>
    Decimal.isDigit_of_mem_toString hc
  have hdot : '.' ∉ (toString n).toList := fun hm => absurd (hdigit _ hm) (by decide)
  have hreserved :
      (['/', '\\', '?', '#', '%', '\t', '\n', '\r'].all fun c => !c.isDigit) = true := by decide
  refine ⟨?_, fun c hc => ⟨?_, ?_⟩, fun he => ?_, fun he => ?_⟩
  · rw [Nat.toString_eq_repr, Nat.toList_repr]
    exact Nat.toDigits_ne_nil
  · refine Bool.eq_false_iff.mpr fun hbad => ?_
    have hnone := List.all_eq_true.mp hreserved c (List.contains_iff_mem.mp hbad)
    rw [hdigit c hc] at hnone
    exact absurd hnone (by decide)
  · have hrange := Char.isDigit_iff_toNat.mp (hdigit c hc)
    refine decide_eq_false ?_
    have hzero : '0'.toNat = 48 := rfl
    omega
  · exact hdot (he ▸ List.mem_cons_self)
  · exact hdot (he ▸ List.mem_cons_self)

/-- **The ids of the rollouts whose tasks are reached.** -/
theorem reaches_updateTask_iff (id : String) (seq : Nat) :
    (updateTask id seq).Reaches ["api", "rollouts", id, "tasks", toString seq] ↔
      PlainInside id := by
  have hurl : (updateTask id seq).url = Url.ofSegments '/' (["api".toList, "rollouts".toList] ++
      id.toList :: (["tasks".toList] ++ [(toString seq).toList])) := by
    simp only [updateTask, entry, toList_API, Url.ofSegments, List.flatMap_cons, List.flatMap_nil,
      List.append_assoc, List.cons_append, List.append_nil, List.nil_append]
  have hafter : ∀ seg ∈ ["tasks".toList] ++ [(toString seq).toList], Fixed seg := by
    intro seg hseg
    rcases List.mem_pair.mp hseg with rfl | rfl
    · decide
    · exact fixed_toString seq
  unfold Call.Reaches
  rw [hurl]
  exact Url.received_ofSegments_iff.trans (carried_inside_iff (by decide) hafter id)

/-! ## What the server answers -/

theorem encoded_eq_json {offsets : List Int} {v j : Json} (h : encoded offsets v = .json j) :
    j = v := by
  unfold encoded at h
  split at h
  · exact (Body.json.inj h).symm
  · cases h

theorem unmatched_ne_json (path : List String) (j : Json) : (unmatched path).body ≠ .json j := by
  unfold unmatched
  split <;> exact nofun

theorem writeErr_ne_json (e : Err) (j : Json) : (writeErr e).body ≠ .json j := by
  unfold writeErr
  split
  · exact nofun
  · split <;> exact nofun
  · exact nofun

/-- **An id that its URL carries is answered with its own rollout, or with none**, whatever the
database does. -/
theorem answered_own {env : Env} {req : Request} {F : Faults Err} {c : Conn Store} {id : String}
    (hid : PlainAtEnd id) (hmethod : req.method = "GET") (hpath : (rollout id).Reaches req.path)
    {j : Json} (h : (respond env req F c).1.body = .json j) :
    ∃ ro : Rollout, ro.id = id ∧ j = ro.toJson := by
  have hown : req.path = ["api", "rollouts", id] :=
    hpath.unique ((reaches_entry_iff (by decide) id).mpr hid)
  have hread : ∀ sess, (serve (getRollout env.zone sess id) F c).1.body = .json j →
      ∃ ro : Rollout, ro.id = id ∧ j = ro.toJson := by
    intro sess h
    unfold serve getRollout at h
    rw [Db.bind_def] at h
    match hrun : Repository.rollout id F c with
    | (.error e, c') =>
      rw [hrun] at h
      exact absurd h (writeErr_ne_json e j)
    | (.ok ro, c') =>
      obtain ⟨-, r, -, hro, -⟩ := Repository.rollout_ok hrun
      rw [hrun] at h
      -- what a reader does not get to see is not the id
      have hanswered : ∀ out : Rollout, out.id = id →
          encoded (out.toJson.instants.map env.zone) out.toJson = .json j →
            ∃ ro : Rollout, ro.id = id ∧ j = ro.toJson := by
        intro out hout he
        exact ⟨out, hout, encoded_eq_json he⟩
      exact hanswered (if sess.role ≠ roleAdmin then stripInternal ro else ro)
        (by split <;> exact hro) h
  have hroute : resolve (patternMethod req.method) req.path = wildcard id (.getRollout id) := by
    rw [hmethod, hown]
    rfl
  rw [respond_eq_serve (by rw [hmethod]; decide)] at h
  unfold route at h
  rw [hroute] at h
  unfold wildcard at h
  split at h
  · next hr =>
    obtain ⟨-, hr⟩ := Option.ite_none_left_eq_some.mp hr
    obtain rfl := Option.some.inj hr
    show ∃ ro : Rollout, ro.id = id ∧ j = ro.toJson
    cases hsess : req.session with
    | none =>
      rw [Route.handler, hsess] at h
      cases h
    | some sess =>
      rw [Route.handler, hsess] at h
      exact hread sess h
  · exact absurd h (unmatched_ne_json req.path j)

end ReleaseRadar.Frontend.ApiService
