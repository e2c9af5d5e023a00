import ReleaseRadar.Hub.Hub
import ReleaseRadar.Lib.Lookup
import ReleaseRadar.Lib.Machine

/-!
# The hub under concurrent use

`hubMachine`: any number of `Broadcast` calls, `Register`, `Unregister` and the pumps'
receives, interleaved at the granularity of the mutex. A `Broadcast` takes its
revision, then the mutex, then sends to the clients one by one. `Unregister` may be
called with any pointer, any number of times. Two things are recorded that no step
reads: what was put into which channel (`log`), and which calls were under way when
one took its revision (`begun`).

`Registry` is the invariant of the map beside the set: `counts` is the number of
registered clients of each user, never above the cap, and no key has the value 0.
-/

namespace ReleaseRadar

open Lib

namespace Hub

/-- A call of `Broadcast`. -/
inductive Call
  | called (entity id action : String)
  | assigned (ev : Event)
  | sending (ev : Event) (todo : List Nat)
  | returned (ev : Event)
deriving DecidableEq, Repr

/-- The call has its revision and has not returned. -/
def Call.underWay : Call → Option Event
  | assigned ev | sending ev _ => some ev
  | called _ _ _ | returned _ => none

structure Use where
  hub : Hub
  locked : Bool
  calls : List Call
  log : List (Nat × Event)
  begun : List (Event × List Event)

inductive UseAction
  | call (entity id action : String)
  | assignRev (i : Nat)
  | lock (i : Nat)
  | send (i c : Nat)
  | unlock (i : Nat)
  | register (user : String)
  | unregister (c : Nat)
  | receive (c : Nat)
deriving DecidableEq

def useStep (s : Use) : UseAction → Option Use
  | .call entity id action => some { s with calls := s.calls ++ [.called entity id action] }
  | .assignRev i =>
    match s.calls[i]? with
    | some (.called entity id action) =>
      let ev : Event := ⟨entity, id, action, s.hub.nextRev⟩
      some { s with
        hub := { s.hub with rev := s.hub.nextRev }
        calls := s.calls.set i (.assigned ev)
        begun := s.begun ++ [(ev, s.calls.filterMap Call.underWay)] }
    | _ => none
  | .lock i =>
    match s.calls[i]?, s.locked with
    | some (.assigned ev), false => some { s with
        locked := true
        calls := s.calls.set i (.sending ev s.hub.clients) }
    | _, _ => none
  | .send i c =>
    match s.calls[i]? with
    | some (.sending ev todo) =>
      if c ∈ todo then some { s with
        hub := s.hub.offer c ev
        calls := s.calls.set i (.sending ev (todo.filter fun d => d ≠ c))
        log := if s.hub.Full c then s.log else s.log ++ [(c, ev)] }
      else none
    | _ => none
  | .unlock i =>
    match s.calls[i]? with
    | some (.sending ev []) => some { s with
        locked := false
        calls := s.calls.set i (.returned ev) }
    | _ => none
  | .register user =>
    if s.locked then none else some { s with hub := (s.hub.register user).2 }
  | .unregister c => if s.locked then none else some { s with hub := s.hub.unregister c }
  | .receive c =>
    match s.hub.chan c with
    | _ :: _ => some { s with hub := s.hub.receive c }
    | [] => none

/-- The hub in use. -/
def hubMachine : Machine Use UseAction := ⟨useStep⟩

def unused : Use := ⟨new, false, [], [], []⟩

/-- The events put into the client's channel, in order. -/
def Use.enqueued (s : Use) (c : Nat) : List Event :=
  (s.log.filter fun e => e.1 = c).map Prod.snd

/-! ## What each step can do -/

section Steps

variable {s s' : Use}

-- the equations of `useStep` are made here, once for all the proofs below
attribute [local simp] useStep

/-- A call takes the next revision, and counts as an event from then on. -/
theorem useStep_assignRev {i : Nat} (h : useStep s (.assignRev i) = some s') :
    ∃ entity id action, s.calls[i]? = some (.called entity id action) ∧
      s' = { s with
        hub := { s.hub with rev := s.hub.nextRev }
        calls := s.calls.set i (.assigned ⟨entity, id, action, s.hub.nextRev⟩)
        begun := s.begun ++
          [(⟨entity, id, action, s.hub.nextRev⟩, s.calls.filterMap Call.underWay)] } := by
  simp only [useStep] at h
  split at h
  · next entity id action hi => exact ⟨entity, id, action, hi, (Option.some.inj h).symm⟩
  · cases h

/-- It locks the hub and looks at its clients. -/
theorem useStep_lock {i : Nat} (h : useStep s (.lock i) = some s') :
    ∃ ev, s.calls[i]? = some (.assigned ev) ∧ s.locked = false ∧
      s' = { s with locked := true, calls := s.calls.set i (.sending ev s.hub.clients) } := by
  simp only [useStep] at h
  split at h
  · next ev hi hfree => exact ⟨ev, hi, hfree, (Option.some.inj h).symm⟩
  · cases h

/-- It offers the event to one of them. -/
theorem useStep_send {i c : Nat} (h : useStep s (.send i c) = some s') :
    ∃ ev todo, s.calls[i]? = some (.sending ev todo) ∧ c ∈ todo ∧
      s' = { s with
        hub := s.hub.offer c ev
        calls := s.calls.set i (.sending ev (todo.filter fun d => d ≠ c))
        log := if s.hub.Full c then s.log else s.log ++ [(c, ev)] } := by
  simp only [useStep] at h
  split at h
  · next ev todo hi =>
    split at h
    · next hc => exact ⟨ev, todo, hi, hc, (Option.some.inj h).symm⟩
    · cases h
  · cases h

/-- It unlocks once all have been offered the event. -/
theorem useStep_unlock {i : Nat} (h : useStep s (.unlock i) = some s') :
    ∃ ev, s.calls[i]? = some (.sending ev []) ∧
      s' = { s with locked := false, calls := s.calls.set i (.returned ev) } := by
  simp only [useStep] at h
  split at h
  · next ev hi => exact ⟨ev, hi, (Option.some.inj h).symm⟩
  · cases h

/-- A client registers while nobody holds the lock. -/
theorem useStep_register {user : String} (h : useStep s (.register user) = some s') :
    s.locked = false ∧ s' = { s with hub := (s.hub.register user).2 } := by
  simp only [useStep] at h
  split at h
  · cases h
  · next hfree => exact ⟨Bool.eq_false_iff.mpr hfree, (Option.some.inj h).symm⟩

/-- So does one that unregisters. -/
theorem useStep_unregister {c : Nat} (h : useStep s (.unregister c) = some s') :
    s.locked = false ∧ s' = { s with hub := s.hub.unregister c } := by
  simp only [useStep] at h
  split at h
  · cases h
  · next hfree => exact ⟨Bool.eq_false_iff.mpr hfree, (Option.some.inj h).symm⟩

/-- A pump needs no lock. -/
theorem useStep_receive {c : Nat} (h : useStep s (.receive c) = some s') :
    s' = { s with hub := s.hub.receive c } := by
  simp only [useStep] at h
  split at h
  · exact (Option.some.inj h).symm
  · cases h

end Steps

/-! ## The registry and its counts -/

/-- How many clients of the user are registered. -/
def registered (h : Hub) (user : String) : Nat := h.clients.countP fun c => h.userOf c = user

/-- `counts` is what one would count, and nothing is above its bound. -/
structure Registry (h : Hub) : Prop where
  nodup : h.clients.Nodup
  made : ∀ c ∈ h.clients, c < h.heap.length
  counts : ∀ u, h.counts u = if h.registered u = 0 then none else some (h.registered u : Int)
  cap : ∀ u, (h.registered u : Int) ≤ maxPerUser
  buffer : ∀ c, (h.chan c).length ≤ clientBuffer

section Counts

variable {h h' : Hub} {c d : Nat} {u v : String} {ev : Event}

/-- The count of a user is the number of its clients. -/
theorem Registry.count (hR : Registry h) (u : String) : h.count u = h.registered u := by
  rw [Hub.count, hR.counts u]
  split
  · next hzero => rw [hzero]; rfl
  · rfl

/-- A new hub has counted nobody. -/
theorem registry_new : Registry new where
  nodup := List.nodup_nil
  made _ hc := absurd hc List.not_mem_nil
  counts _ := rfl
  cap _ := Int.le_of_lt (by decide : (0 : Int) < maxPerUser)
  buffer _ := Nat.zero_le _

/-- What `Registry` reads of a hub. -/
theorem Registry.congr (hR : Registry h) (hclients : h'.clients = h.clients)
    (hcounts : h'.counts = h.counts) (hlength : h'.heap.length = h.heap.length)
    (huser : ∀ c, h'.userOf c = h.userOf c) (hbuffer : ∀ c, (h'.chan c).length ≤ clientBuffer) :
    Registry h' := by
  have hregistered : ∀ u, h'.registered u = h.registered u := by
    intro u
    rw [registered, hclients, registered]
    exact List.countP_congr fun c _ => by rw [huser c]
  constructor
  · rw [hclients]
    exact hR.nodup
  · rw [hclients, hlength]
    exact hR.made
  · intro u
    rw [hcounts, hregistered u]
    exact hR.counts u
  · intro u
    rw [hregistered u]
    exact hR.cap u
  · exact hbuffer

/-- The user of a client never changes. -/
theorem userOf_modify (f : Client → Client) (hf : ∀ cl, (f cl).user = cl.user) :
    Hub.userOf { h with heap := h.heap.modify c f } d = h.userOf d := by
  show ((((h.heap.modify c f)[d]?).map Client.user).getD "") = h.userOf d
  rw [List.getElem?_modify, userOf]
  cases h.heap[d]? with
  | none => rfl
  | some cl =>
    by_cases hcd : c = d
    · simp [hcd, hf cl]
    · simp [hcd]

/-- An offer fills no buffer beyond its capacity. -/
theorem Registry.offer (hR : Registry h) : Registry (h.offer c ev) := by
  by_cases hfull : h.Full c
  · rw [chan_offer_full hfull]
    exact hR
  · have heq : h.offer c ev =
        { h with heap := h.heap.modify c fun cl => { cl with send := cl.send ++ [ev] } } :=
      if_neg hfull
    refine hR.congr offer_clients (by rw [heq]) offer_length ?_ ?_
    · intro d
      rw [heq]
      exact userOf_modify _ fun _ => rfl
    · intro d
      by_cases hcd : c = d
      · subst hcd
        by_cases hc : c < h.heap.length
        · rw [chan_offer_self hc hfull, List.length_append, List.length_singleton]
          unfold Full at hfull
          omega
        · rw [chan, List.getElem?_eq_none (by rw [offer_length]; omega)]
          exact Nat.zero_le _
      · rw [chan_offer_ne hcd]
        exact hR.buffer d

/-- Receiving keeps the counts. -/
theorem Registry.receive (hR : Registry h) : Registry (h.receive c) := by
  refine hR.congr rfl rfl receive_length (fun d => userOf_modify _ fun _ => rfl) ?_
  intro d
  by_cases hcd : c = d
  · subst hcd
    rw [chan_receive_self, List.length_tail]
    have := hR.buffer c
    omega
  · rw [chan_receive_ne hcd]
    exact hR.buffer d

/-- A user's number of clients after a registration. -/
theorem registered_register (hR : Registry h) (hcap : h.count u < maxPerUser) :
    (h.register u).2.registered v = h.registered v + if u = v then 1 else 0 := by
  have hno : ¬maxPerUser ≤ h.count u := by omega
  have huser : ∀ c, c < h.heap.length →
      (h.register u).2.userOf c = h.userOf c := by
    intro c hc
    rw [register, if_neg hno]
    show (((h.heap ++ [⟨[], u⟩])[c]?).map Client.user).getD "" = h.userOf c
    rw [List.getElem?_append_left hc, userOf]
  have hnew : (h.register u).2.userOf h.heap.length = u := by
    rw [register, if_neg hno]
    show (((h.heap ++ [⟨[], u⟩])[h.heap.length]?).map Client.user).getD "" = u
    rw [List.getElem?_concat_length]
    rfl
  have hclients : (h.register u).2.clients = h.clients ++ [h.heap.length] := by
    rw [register, if_neg hno]
  rw [registered, hclients, List.countP_append, List.countP_singleton, hnew, registered]
  congr 1
  · exact List.countP_congr fun c hc => by rw [huser c (hR.made c hc)]
  · simp

/-- Registering counts the new client, or turns it away. -/
theorem Registry.register (hR : Registry h) : Registry (h.register u).2 := by
  by_cases hcap : maxPerUser ≤ h.count u
  · rw [Hub.register, if_pos hcap]
    exact hR
  · have hlt : h.count u < maxPerUser := by omega
    have hregistered := fun v => registered_register (v := v) hR hlt
    have heq : (h.register u).2 = { h with
        heap := h.heap ++ [⟨[], u⟩]
        clients := h.clients ++ [h.heap.length]
        counts := Function.update h.counts u (some (h.count u + 1)) } := by
      rw [Hub.register, if_neg hcap]
    constructor
    · rw [heq]
      refine List.nodup_append.mpr ⟨hR.nodup, List.pairwise_singleton _ _, ?_⟩
      intro c hc d hd hcd
      rw [hcd, List.mem_singleton.mp hd] at hc
      exact absurd (hR.made _ hc) (Nat.lt_irrefl _)
    · rw [heq]
      intro c hc
      show c < (h.heap ++ [(⟨[], u⟩ : Client)]).length
      rw [List.length_append, List.length_singleton]
      rcases List.mem_append.mp hc with hold | hnew
      · have := hR.made c hold
        omega
      · rw [List.mem_singleton.mp hnew]
        omega
    · intro v
      rw [hregistered v, heq]
      show Function.update h.counts u (some (h.count u + 1)) v = _
      by_cases huv : u = v
      · subst huv
        rw [Function.update_self, if_pos rfl, if_neg (by omega), hR.count u]
        rfl
      · rw [Function.update_of_ne (Ne.symm huv), if_neg huv, Nat.add_zero]
        exact hR.counts v
    · intro v
      rw [hregistered v]
      by_cases huv : u = v
      · subst huv
        rw [hR.count u] at hlt
        rw [if_pos rfl]
        omega
      · rw [if_neg huv, Nat.add_zero]
        exact hR.cap v
    · intro c
      rw [chan_register]
      exact hR.buffer c

/-- A user's number of clients after one of them is unregistered. -/
theorem registered_unregister (hR : Registry h) (hc : c ∈ h.clients) :
    h.registered v = (h.unregister c).registered v + if h.userOf c = v then 1 else 0 := by
  have hclients : (h.unregister c).clients = h.clients.erase c := by
    rw [unregister, if_pos hc, hR.nodup.erase_eq_filter]
    exact List.filter_congr fun d _ => by simp [bne, beq_eq_decide]
  have huser : ∀ d, (h.unregister c).userOf d = h.userOf d := by
    intro d
    rw [userOf, unregister_heap, userOf]
  have hsplit := (List.perm_cons_erase hc).countP_eq fun d => decide (h.userOf d = v)
  rw [List.countP_cons] at hsplit
  rw [registered, registered, hclients, hsplit]
  simp only [huser, decide_eq_true_eq]

/-- Unregistering counts it off. -/
theorem Registry.unregister (hR : Registry h) : Registry (h.unregister c) := by
  by_cases hc : c ∈ h.clients
  · have hregistered := fun v => registered_unregister (v := v) hR hc
    constructor
    · rw [Hub.unregister, if_pos hc]
      exact hR.nodup.filter _
    · intro d hd
      rw [unregister_heap]
      exact hR.made d (unregister_subset hd)
    · intro v
      have hcounts : (h.unregister c).counts v =
          Function.update h.counts (h.userOf c)
            (if h.count (h.userOf c) - 1 ≤ 0 then none else some (h.count (h.userOf c) - 1)) v := by
        rw [Hub.unregister, if_pos hc]
      have hv := hregistered v
      rw [hcounts]
      by_cases huv : h.userOf c = v
      · subst huv
        rw [if_pos rfl] at hv
        rw [Function.update_self, hR.count, hv]
        by_cases hlast : (h.unregister c).registered (h.userOf c) = 0
        · rw [if_pos hlast, if_pos (by omega)]
        · rw [if_neg hlast, if_neg (by omega)]
          congr 1
          omega
      · rw [if_neg huv, Nat.add_zero] at hv
        rw [Function.update_of_ne (Ne.symm huv), hR.counts v, hv]
    · intro v
      have := hR.cap v
      have := hregistered v
      omega
    · intro d
      rw [chan_unregister]
      exact hR.buffer d
  · rw [Hub.unregister, if_neg hc]
    exact hR

/-- `Register` succeeds if and only if the user is below the cap. -/
theorem register_isSome_iff (hR : Registry h) :
    (h.register u).1.isSome ↔ (h.registered u : Int) < maxPerUser := by
  rw [← hR.count u, register]
  split
  · next hcap =>
      exact ⟨fun hsome => absurd hsome Bool.false_ne_true, fun hlt => absurd hcap (by omega)⟩
  · next hcap => exact ⟨fun _ => by omega, fun _ => rfl⟩

end Counts

/-! ## Runs -/

/-- The mutex does its work: a call sends only while it holds it, so it sends to
registered clients only. -/
structure Orderly (s : Use) : Prop where
  registry : Registry s.hub
  holder : ∀ (i : Nat) (ev : Event) (todo : List Nat), s.calls[i]? = some (.sending ev todo) →
    s.locked = true
  single : ∀ (i j : Nat) (ev ev' : Event) (todo todo' : List Nat),
    s.calls[i]? = some (.sending ev todo) → s.calls[j]? = some (.sending ev' todo') → i = j
  todo : ∀ (i : Nat) (ev : Event) (todo : List Nat), s.calls[i]? = some (.sending ev todo) →
    todo ⊆ s.hub.clients

section Runs

variable {s s' : Use} {i c n : Nat}

/-- Nobody sends while the mutex is free. -/
theorem Orderly.idle (h : Orderly s) (hfree : s.locked = false) {ev : Event} {todo : List Nat} :
    s.calls[i]? ≠ some (.sending ev todo) := by
  intro hi
  have := h.holder i ev todo hi
  rw [hfree] at this
  cases this

/-- A call takes a step other than the send loop's: nobody new sends. -/
theorem Orderly.progress {call : Call} (h : Orderly s) (hcall : ∀ ev todo, call ≠ .sending ev todo)
    (hregistry : Registry s'.hub) (hclients : s'.hub.clients = s.hub.clients)
    (hcalls : s'.calls = s.calls.set i call ∨ s'.calls = s.calls ++ [call])
    (hlocked : s'.locked = s.locked ∨ ∃ ev todo, s.calls[i]? = some (.sending ev todo) ∧
      s'.calls = s.calls.set i call) : Orderly s' := by
  -- whoever sends was sending before, and is not `i`
  have hwho : ∀ j ev todo, s'.calls[j]? = some (.sending ev todo) →
      s.calls[j]? = some (.sending ev todo) ∧ (s'.calls = s.calls.set i call → i ≠ j) := by
    intro j ev todo hj
    rcases hcalls with hset | happend
    · rw [hset] at hj
      rcases of_getElem?_set hj with ⟨-, heq⟩ | ⟨hij, hold⟩
      · exact absurd heq.symm (hcall ev todo)
      · exact ⟨hold, fun _ => hij⟩
    · rw [happend] at hj
      rcases of_getElem?_concat hj with hold | ⟨-, heq⟩
      · refine ⟨hold, fun hset => ?_⟩
        have := congrArg List.length (happend.symm.trans hset)
        rw [List.length_append, List.length_singleton, List.length_set] at this
        omega
      · exact absurd heq.symm (hcall ev todo)
  constructor
  · exact hregistry
  · intro j ev todo hj
    obtain ⟨hold, hne⟩ := hwho j ev todo hj
    rcases hlocked with hsame | ⟨ev', todo', hi, hset⟩
    · rw [hsame]
      exact h.holder j ev todo hold
    · exact absurd (h.single i j ev' ev todo' todo hi hold) (hne hset)
  · intro j k ev ev' todo todo' hj hk
    exact h.single j k ev ev' todo todo' (hwho j ev todo hj).1 (hwho k ev' todo' hk).1
  · intro j ev todo hj
    rw [hclients]
    exact h.todo j ev todo (hwho j ev todo hj).1

/-- A step that changes no call: the clients may change while the mutex is free. -/
theorem Orderly.keep (h : Orderly s) (hregistry : Registry s'.hub) (hcalls : s'.calls = s.calls)
    (hlocked : s'.locked = s.locked)
    (hclients : s'.hub.clients = s.hub.clients ∨ s.locked = false) : Orderly s' := by
  constructor
  · exact hregistry
  · rw [hcalls, hlocked]
    exact h.holder
  · rw [hcalls]
    exact h.single
  · intro j ev todo hj
    rw [hcalls] at hj
    rcases hclients with hsame | hfree
    · rw [hsame]
      exact h.todo j ev todo hj
    · exact absurd hj (h.idle hfree)

/-- A hub nobody has used is in order. -/
theorem orderly_unused : Orderly unused where
  registry := registry_new
  holder _ _ _ hi := by cases hi
  single _ _ _ _ _ _ hi := by cases hi
  todo _ _ _ hi := by cases hi

/-- Every step keeps it so. -/
theorem orderly_step {a : UseAction} (h : Orderly s) (hs : useStep s a = some s') : Orderly s' := by
  cases a with
  | call entity id action =>
    cases hs
    have hcalled : ∀ ev todo, Call.called entity id action ≠ .sending ev todo :=
      fun _ _ h => by cases h
    exact h.progress (i := s.calls.length) hcalled h.registry rfl (Or.inr rfl) (Or.inl rfl)
  | assignRev i =>
    obtain ⟨entity, id, action, -, rfl⟩ := useStep_assignRev hs
    refine h.progress (i := i) (fun _ _ h => by cases h) ?_ rfl (Or.inl rfl) (Or.inl rfl)
    exact h.registry.congr rfl rfl rfl (fun _ => rfl) h.registry.buffer
  | lock i =>
    obtain ⟨ev, hi, hfree, rfl⟩ := useStep_lock hs
    have hwho : ∀ {j ev' todo}, (s.calls.set i (.sending ev s.hub.clients))[j]? =
        some (.sending ev' todo) → i = j ∧ todo = s.hub.clients := by
      intro j ev' todo hj
      rcases of_getElem?_set hj with ⟨hij, heq⟩ | ⟨-, hold⟩
      · cases heq
        exact ⟨hij, rfl⟩
      · exact absurd hold (h.idle hfree)
    constructor
    · exact h.registry
    · intro _ _ _ _
      rfl
    · intro j k _ _ _ _ hj hk
      exact (hwho hj).1.symm.trans (hwho hk).1
    · intro j ev' todo hj
      rw [(hwho hj).2]
      exact List.Subset.refl _
  | send i c =>
    obtain ⟨ev, todo, hi, -, rfl⟩ := useStep_send hs
    -- whoever sends now was sending before, to at least the same clients
    have hwho : ∀ {j : Nat} {ev' : Event} {todo' : List Nat},
        (s.calls.set i (.sending ev (todo.filter fun d => d ≠ c)))[j]? =
          some (.sending ev' todo') →
        ∃ (ev'' : Event) (todo'' : List Nat),
          s.calls[j]? = some (.sending ev'' todo'') ∧ todo' ⊆ todo'' := by
      intro j ev' todo' hj
      rcases of_getElem?_set hj with ⟨hij, heq⟩ | ⟨-, hold⟩
      · cases heq
        exact ⟨ev, todo, hij ▸ hi, List.filter_sublist.subset⟩
      · exact ⟨ev', todo', hold, List.Subset.refl _⟩
    constructor
    · exact h.registry.offer
    · intro j ev' todo' hj
      obtain ⟨ev'', todo'', hold, -⟩ := hwho hj
      exact h.holder j ev'' todo'' hold
    · intro j k _ _ _ _ hj hk
      obtain ⟨_, _, hj', -⟩ := hwho hj
      obtain ⟨_, _, hk', -⟩ := hwho hk
      exact h.single j k _ _ _ _ hj' hk'
    · intro j ev' todo' hj
      obtain ⟨ev'', todo'', hold, hsub⟩ := hwho hj
      rw [offer_clients]
      exact List.Subset.trans hsub (h.todo j ev'' todo'' hold)
  | unlock i =>
    obtain ⟨ev, hi, rfl⟩ := useStep_unlock hs
    exact h.progress (i := i) (fun _ _ h => by cases h) h.registry rfl (Or.inl rfl)
      (Or.inr ⟨ev, [], hi, rfl⟩)
  | register user =>
    obtain ⟨hfree, rfl⟩ := useStep_register hs
    exact h.keep h.registry.register rfl rfl (Or.inr hfree)
  | unregister c =>
    obtain ⟨hfree, rfl⟩ := useStep_unregister hs
    exact h.keep h.registry.unregister rfl rfl (Or.inr hfree)
  | receive c =>
    rw [useStep_receive hs]
    exact h.keep h.registry.receive rfl rfl (Or.inl rfl)

/-- So does every run. -/
theorem orderly_exec {as : List UseAction} (he : hubMachine.exec unused as = some s) :
    Orderly s :=
  hubMachine.exec_invariant (fun _ _ _ h hs => orderly_step h hs) orderly_unused he

/-- The client was made and is not registered, and these are the events it ever got. -/
structure Gone (c : Nat) (got : List Event) (s : Use) : Prop where
  orderly : Orderly s
  made : c < s.hub.heap.length
  out : c ∉ s.hub.clients
  got : s.enqueued c = got

/-- A client that is not registered gets nothing and does not come back. -/
theorem gone_step {a : UseAction} {got : List Event} (h : Gone c got s)
    (hs : useStep s a = some s') : Gone c got s' := by
  have horderly := orderly_step h.orderly hs
  cases a with
  | call entity id action =>
    cases hs
    exact ⟨horderly, h.made, h.out, h.got⟩
  | assignRev i =>
    obtain ⟨entity, id, action, -, rfl⟩ := useStep_assignRev hs
    exact ⟨horderly, h.made, h.out, h.got⟩
  | lock i =>
    obtain ⟨ev, -, -, rfl⟩ := useStep_lock hs
    exact ⟨horderly, h.made, h.out, h.got⟩
  | send i d =>
    obtain ⟨ev, todo, hi, hd, rfl⟩ := useStep_send hs
    refine ⟨horderly, by rw [offer_length]; exact h.made, by rw [offer_clients]; exact h.out, ?_⟩
    have hdc : d ≠ c := by
      intro he
      exact h.out (he ▸ h.orderly.todo i ev todo hi hd)
    rw [← h.got, Use.enqueued, Use.enqueued]
    split
    · rfl
    · rw [List.filter_append]
      simp [hdc]
  | unlock i =>
    obtain ⟨ev, -, rfl⟩ := useStep_unlock hs
    exact ⟨horderly, h.made, h.out, h.got⟩
  | register user =>
    obtain ⟨-, rfl⟩ := useStep_register hs
    refine ⟨horderly, ?_, ?_, h.got⟩
    · show c < (s.hub.register user).2.heap.length
      unfold Hub.register
      split
      · exact h.made
      · show c < (s.hub.heap ++ _).length
        rw [List.length_append]
        exact Nat.lt_add_right _ h.made
    · show c ∉ (s.hub.register user).2.clients
      unfold Hub.register
      split
      · exact h.out
      · intro hmem
        rcases List.mem_append.mp hmem with hold | hnew
        · exact h.out hold
        · have := h.made
          rw [List.mem_singleton.mp hnew] at this
          omega
  | unregister d =>
    obtain ⟨-, rfl⟩ := useStep_unregister hs
    refine ⟨horderly, by rw [unregister_heap]; exact h.made, ?_, h.got⟩
    exact fun hmem => h.out (unregister_subset hmem)
  | receive d =>
    rw [useStep_receive hs] at horderly ⊢
    exact ⟨horderly, by rw [receive_length]; exact h.made, h.out, h.got⟩

/-- Nothing is enqueued to a client after its `Unregister` has returned. -/
theorem silent_after_unregister {before rest : List UseAction}
    (he : hubMachine.exec unused (before ++ .unregister c :: rest) = some s) :
    ∃ q, hubMachine.exec unused (before ++ [.unregister c]) = some q ∧
      (c < q.hub.heap.length → s.enqueued c = q.enqueued c) := by
  rw [List.append_cons, hubMachine.exec_append] at he
  obtain ⟨q, hq, he'⟩ := Option.bind_eq_some_iff.mp he
  refine ⟨q, hq, fun hmade => ?_⟩
  have hout : c ∉ q.hub.clients := by
    rw [hubMachine.exec_append] at hq
    obtain ⟨q₀, -, hlast⟩ := Option.bind_eq_some_iff.mp hq
    obtain ⟨q₁, hs, hnil⟩ := hubMachine.exec_cons_some hlast
    obtain ⟨-, rfl⟩ := useStep_unregister hs
    cases hnil
    show c ∉ (q₀.hub.unregister c).clients
    unfold Hub.unregister
    split
    · intro hmem
      exact absurd rfl (of_decide_eq_true (List.mem_filter.mp hmem).2)
    · next hnot => exact hnot
  have hgone : Gone c (q.enqueued c) s :=
    hubMachine.exec_invariant (I := Gone c (q.enqueued c)) (fun _ _ _ h hs => gone_step h hs)
      ⟨orderly_exec hq, hmade, hout, rfl⟩ he'
  exact hgone.got

end Runs

end Hub

end ReleaseRadar
