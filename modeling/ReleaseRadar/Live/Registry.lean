import ReleaseRadar.Hub.Registry
import ReleaseRadar.Live.Wiring

/-!
# The registry of the running system

The system's hub is the hub machine's: every run of the system is, for the hub, a run of
`hubMachine` (`uses_hub`), its mutations being the calls of `Broadcast`. So whatever is
proved of the hub under arbitrary use holds of it here; what the handlers add is that
each registered client is one of theirs (`Owned`). Hence the registry is empty, and the
counts with it, once every handler has returned.
-/

namespace ReleaseRadar

open Lib

namespace Live

/-- A mutation, as the hub sees it: a failed one goes no further. -/
def Mutation.call : Mutation → Hub.Call
  | committed entity id action | failed entity id action => .called entity id action
  | assigned ev => .assigned ev
  | sending ev todo => .sending ev todo
  | done ev => .returned ev

/-- The state is one the hub machine reaches, as far as the hub is concerned. -/
def UsesHub (s : Sys) : Prop :=
  ∃ bs u, Hub.hubMachine.exec Hub.unused bs = some u ∧ u.hub = s.hub ∧ u.locked = s.locked ∧
    u.calls = s.mutations.map Mutation.call

section Hub

variable {s s' : Sys}

/-- A step that leaves the hub is no use of it. -/
theorem UsesHub.same (h : UsesHub s) (hhub : s'.hub = s.hub) (hlocked : s'.locked = s.locked)
    (hcalls : s'.mutations.map Mutation.call = s.mutations.map Mutation.call) : UsesHub s' := by
  obtain ⟨bs, u, he, h₁, h₂, h₃⟩ := h
  exact ⟨bs, u, he, h₁.trans hhub.symm, h₂.trans hlocked.symm, h₃.trans hcalls.symm⟩

/-- A step of the system that is one of the hub machine. -/
theorem UsesHub.step (h : UsesHub s) (b : Hub.UseAction)
    (hb : ∀ log begun, ∃ u', Hub.useStep ⟨s.hub, s.locked, s.mutations.map Mutation.call, log,
      begun⟩ b = some u' ∧ u'.hub = s'.hub ∧ u'.locked = s'.locked ∧
        u'.calls = s'.mutations.map Mutation.call) : UsesHub s' := by
  obtain ⟨bs, ⟨hub, locked, calls, log, begun⟩, he, h₁, h₂, h₃⟩ := h
  cases h₁
  cases h₂
  cases h₃
  obtain ⟨u', hs, h'⟩ := hb log begun
  refine ⟨bs ++ [b], u', ?_, h'⟩
  rw [Hub.hubMachine.exec_append, he, Option.bind_some, Hub.hubMachine.exec_cons hs]
  rfl

theorem getElem?_calls {i : Nat} {m : Mutation} (hi : s.mutations[i]? = some m) :
    (s.mutations.map Mutation.call)[i]? = some m.call := by
  rw [List.getElem?_map, hi]
  rfl

/-- **The system refines the hub machine.** -/
theorem usesHub_step {a : Action} (h : UsesHub s) (hs : step s a = some s') : UsesHub s' := by
  -- the steps of the hub are taken as they are; all others leave the hub alone
  cases a with
  | wait d =>
    simp only [Live.step] at hs
    split at hs
    · cases hs
      exact h.same rfl rfl rfl
    · cases hs
  | commit entity id action =>
    cases hs
    refine h.step (.call entity id action) fun log begun => ⟨_, rfl, rfl, rfl, ?_⟩
    rw [List.map_append]
    rfl
  | fail i =>
    obtain ⟨entity, id, action, hi, rfl⟩ := step_fail hs
    refine h.same rfl rfl ?_
    obtain ⟨hlt, hcall⟩ := List.getElem?_eq_some_iff.mp (getElem?_calls hi)
    rw [List.map_set, show (Mutation.failed entity id action).call = _ from hcall.symm]
    exact List.set_getElem_self hlt
  | assignRev i =>
    obtain ⟨entity, id, action, hi, rfl⟩ := step_assignRev hs
    refine h.step (.assignRev i) fun log begun => ?_
    simp only [Hub.useStep, getElem?_calls hi, Mutation.call]
    exact ⟨_, rfl, rfl, rfl, by rw [List.map_set]; rfl⟩
  | lock i =>
    obtain ⟨ev, hi, hfree, rfl⟩ := step_lock hs
    refine h.step (.lock i) fun log begun => ?_
    simp only [Hub.useStep, getElem?_calls hi, Mutation.call, hfree]
    exact ⟨_, rfl, rfl, rfl, by rw [List.map_set]; rfl⟩
  | send i c =>
    obtain ⟨ev, todo, hi, hc, rfl⟩ := step_send hs
    refine h.step (.send i c) fun log begun => ?_
    simp only [Hub.useStep, getElem?_calls hi, Mutation.call, if_pos hc]
    exact ⟨_, rfl, rfl, rfl, by rw [List.map_set]; rfl⟩
  | unlock i =>
    obtain ⟨ev, hi, rfl⟩ := step_unlock hs
    refine h.step (.unlock i) fun log begun => ?_
    simp only [Hub.useStep, getElem?_calls hi, Mutation.call]
    exact ⟨_, rfl, rfl, rfl, by rw [List.map_set]; rfl⟩
  | accept k =>
    obtain ⟨K, -, -, rfl⟩ := step_accept hs
    exact h.same rfl rfl rfl
  | refuse k =>
    obtain ⟨K, -, -, rfl⟩ := step_refuse hs
    exact h.same rfl rfl rfl
  | register k =>
    -- a registration that the hub refuses leaves it alone
    obtain ⟨K, -, -, hfree, rfl | ⟨hub, hr, rfl⟩⟩ := step_register hs
    · exact h.same rfl rfl rfl
    · refine h.step (.register K.user) fun log begun => ?_
      simp only [Hub.useStep, hfree, hr]
      exact ⟨_, rfl, rfl, rfl, rfl⟩
  | take k =>
    obtain ⟨K, c, ev, rest, -, -, hc, rfl⟩ := step_take hs
    refine h.step (.receive c) fun log begun => ?_
    simp only [Hub.useStep, hc]
    exact ⟨_, rfl, rfl, rfl, rfl⟩
  | write k =>
    obtain ⟨K, c, ev, -, -, rfl⟩ := step_write hs
    exact h.same rfl rfl rfl
  | leave k =>
    obtain ⟨K, c, hand, -, -, rfl⟩ := step_leave hs
    exact h.same rfl rfl rfl
  | unregister k =>
    obtain ⟨K, c, hand, -, -, hfree, rfl⟩ := step_unregister hs
    refine h.step (.unregister c) fun log begun => ?_
    simp only [Hub.useStep, hfree]
    exact ⟨_, rfl, rfl, rfl, rfl⟩
  | load user random ok =>
    cases hs
    exact h.same rfl rfl rfl
  | opened k =>
    obtain ⟨K, -, rfl⟩ := step_opened hs
    exact h.same rfl rfl rfl
  | message k =>
    obtain ⟨K, ev, rest, -, -, rfl⟩ := step_message hs
    exact h.same rfl rfl rfl
  | dropped k random =>
    obtain ⟨K, -, rfl⟩ := step_dropped hs
    exact h.same rfl rfl rfl
  | fireBump t handle =>
    obtain ⟨T, -, rfl⟩ := step_fireBump hs
    exact h.same rfl rfl rfl
  | fireReconnect t handle random ok =>
    obtain ⟨T, -, -, rfl⟩ := step_fireReconnect hs
    exact h.same rfl rfl rfl
  | fireStable t handle =>
    obtain ⟨T, -, rfl⟩ := step_fireStable hs
    exact h.same rfl rfl rfl
  | bump t =>
    obtain ⟨T, -, rfl⟩ := step_bump hs
    exact h.same rfl rfl rfl
  | disconnect t =>
    obtain ⟨T, -, rfl⟩ := step_disconnect hs
    exact h.same rfl rfl rfl

/-- Every run uses the hub as its own machine does. -/
theorem uses_hub {as : List Action} (he : system.exec start as = some s) : UsesHub s :=
  system.exec_invariant (fun _ _ _ h hs => usesHub_step h hs)
    ⟨[], Hub.unused, rfl, rfl, rfl, rfl⟩ he

/-- So the counts of the hub are right in every run. -/
theorem hub_registry {as : List Action} (he : system.exec start as = some s) :
    Hub.Registry s.hub := by
  obtain ⟨bs, u, hu, hhub, -⟩ := uses_hub he
  exact hhub ▸ (Hub.orderly_exec hu).registry

end Hub

/-! ## Whose clients they are -/

/-- Every registered client is some handler's. -/
def Owned (s : Sys) : Prop := ∀ c ∈ s.hub.clients, ∃ k, s.clientAt k = some c

section Owners

variable {s s' : Sys} {k : Nat} {K K' : Conn}

/-- A step that leaves the clients keeps their owners. -/
theorem Owned.frame (h : Owned s) (hclients : s'.hub.clients = s.hub.clients)
    (hclient : ∀ k c, s.clientAt k = some c → s'.clientAt k = some c) : Owned s' := by
  intro c hc
  obtain ⟨j, hj⟩ := h c (hclients ▸ hc)
  exact ⟨j, hclient j c hj⟩

/-- A step of a handler that keeps its client, or has none. -/
theorem Owned.handler (h : Owned s) (hk : s.conns[k]? = some K)
    (hconns : s'.conns = s.conns.set k K') (hsame : K'.handler.client = K.handler.client)
    (hclients : s'.hub.clients = s.hub.clients) : Owned s' := by
  refine h.frame hclients fun j c hj => ?_
  rw [clientAt_set hk hconns hsame]
  exact hj

theorem Owned.hub (h : Owned s) (hconns : s'.conns = s.conns)
    (hclients : s'.hub.clients = s.hub.clients) : Owned s' := by
  refine h.frame hclients fun j c hj => ?_
  rw [Sys.clientAt, hconns]
  exact hj

/-- A new connection owns none yet. -/
theorem Owned.dial {ok : Bool} {t : Nat} {user : String} (h : Owned s)
    (hconns : s'.conns = s.dial ok t user) (hhub : s'.hub = s.hub) : Owned s' := by
  refine h.frame (by rw [hhub]) fun j c hj => ?_
  obtain ⟨J, hJ, hc⟩ := Option.bind_eq_some_iff.mp hj
  rw [Sys.clientAt, hconns, getElem?_dial hJ]
  exact hc

/-- Every step keeps the owners. -/
theorem owned_step {a : Action} (h : Owned s) (hW : Wired s) (hs : step s a = some s') :
    Owned s' := by
  cases a with
  | wait d =>
    simp only [step] at hs
    split at hs
    · cases hs
      exact h.hub rfl rfl
    · cases hs
  | commit entity id action =>
    cases hs
    exact h.hub rfl rfl
  | fail i =>
    obtain ⟨_, _, _, -, rfl⟩ := step_fail hs
    exact h.hub rfl rfl
  | assignRev i =>
    obtain ⟨_, _, _, -, rfl⟩ := step_assignRev hs
    exact h.hub rfl rfl
  | lock i =>
    obtain ⟨_, -, -, rfl⟩ := step_lock hs
    exact h.hub rfl rfl
  | send i c =>
    obtain ⟨_, _, -, -, rfl⟩ := step_send hs
    exact h.hub rfl Hub.offer_clients
  | unlock i =>
    obtain ⟨_, -, rfl⟩ := step_unlock hs
    exact h.hub rfl rfl
  | accept k =>
    obtain ⟨K, hk, hK, rfl⟩ := step_accept hs
    exact h.handler hk rfl (by rw [hK]; rfl) rfl
  | refuse k =>
    obtain ⟨K, hk, hK, rfl⟩ := step_refuse hs
    exact h.handler hk rfl (by rw [hK]; rfl) rfl
  | register k =>
    obtain ⟨K, hk, hK, -, rfl | ⟨hub, hr, rfl⟩⟩ := step_register hs
    · exact h.handler hk rfl (by rw [hK]; rfl) rfl
    · obtain ⟨-, -, hclients, -⟩ := Hub.register_some hr
      intro c hc
      have hc' : c ∈ s.hub.clients ++ [s.hub.heap.length] := hclients ▸ hc
      rcases List.mem_append.mp hc' with hold | hnew
      · obtain ⟨j, hj⟩ := h c hold
        -- `k` had no client, so the owner is another
        have hkj : k ≠ j := by
          intro he
          rw [← he, clientAt_of hk, hK] at hj
          cases hj
        refine ⟨j, ?_⟩
        rw [Sys.clientAt, List.getElem?_set_ne hkj]
        exact hj
      · refine ⟨k, ?_⟩
        rw [Sys.clientAt, List.getElem?_set_self (List.getElem?_eq_some_iff.mp hk).1,
          List.mem_singleton.mp hnew]
        rfl
  | take k =>
    obtain ⟨K, c, ev, rest, hk, hK, -, rfl⟩ := step_take hs
    exact h.handler hk rfl (by rw [hK]; rfl) rfl
  | write k =>
    obtain ⟨K, c, ev, hk, hK, rfl⟩ := step_write hs
    exact h.handler hk rfl (by rw [hK]; rfl) rfl
  | leave k =>
    obtain ⟨K, c, hand, hk, hK, rfl⟩ := step_leave hs
    exact h.handler hk rfl (by rw [hK]; rfl) rfl
  | unregister k =>
    obtain ⟨K, c, hand, hk, hK, -, rfl⟩ := step_unregister hs
    intro d hd
    obtain ⟨j, hj⟩ := h d (Hub.unregister_subset hd)
    have hmine : s.clientAt k = some c := by
      rw [clientAt_of hk, hK]
      rfl
    -- the owner is not `k`, whose client has just gone
    have hkj : k ≠ j := by
      intro he
      rw [← he, hmine] at hj
      cases hj
      have hin : c ∈ s.hub.clients := hW.registered k c hmine
      have hd' : c ∈ (s.hub.unregister c).clients := hd
      rw [Hub.unregister, if_pos hin] at hd'
      exact absurd rfl (of_decide_eq_true (List.mem_filter.mp hd').2)
    refine ⟨j, ?_⟩
    rw [Sys.clientAt, List.getElem?_set_ne hkj]
    exact hj
  | load user random ok =>
    cases hs
    exact h.dial rfl rfl
  | opened k =>
    obtain ⟨K, hk, rfl⟩ := step_opened hs
    exact h.handler hk rfl rfl rfl
  | message k =>
    obtain ⟨K, ev, rest, hk, -, rfl⟩ := step_message hs
    exact h.handler hk rfl rfl rfl
  | dropped k random =>
    obtain ⟨K, hk, rfl⟩ := step_dropped hs
    exact h.handler hk rfl rfl rfl
  | fireBump t handle =>
    obtain ⟨T, -, rfl⟩ := step_fireBump hs
    exact h.hub rfl rfl
  | fireReconnect t handle random ok =>
    obtain ⟨T, -, -, rfl⟩ := step_fireReconnect hs
    exact h.dial rfl rfl
  | fireStable t handle =>
    obtain ⟨T, -, rfl⟩ := step_fireStable hs
    exact h.hub rfl rfl
  | bump t =>
    obtain ⟨T, -, rfl⟩ := step_bump hs
    exact h.hub rfl rfl
  | disconnect t =>
    obtain ⟨T, -, rfl⟩ := step_disconnect hs
    exact h.hub rfl rfl

/-- Once every handler has returned, nobody is registered and nobody is counted. -/
theorem empty_after_handlers {as : List Action} (he : system.exec start as = some s)
    (hreturned : ∀ K ∈ s.conns, K.handler = .returned) :
    s.hub.clients = [] ∧ ∀ u, s.hub.counts u = none := by
  have hinv : Wired s ∧ Owned s :=
    system.exec_invariant (I := fun s => Wired s ∧ Owned s)
      (fun _ _ _ h hs => ⟨wired_step h.1 hs, owned_step h.2 h.1 hs⟩)
      ⟨wired_start, fun _ hc => absurd hc List.not_mem_nil⟩ he
  have hempty : s.hub.clients = [] := by
    refine List.eq_nil_iff_forall_not_mem.mpr fun c hc => ?_
    obtain ⟨k, hk⟩ := hinv.2 c hc
    obtain ⟨K, hK, hKc⟩ := Option.bind_eq_some_iff.mp hk
    rw [hreturned K (List.mem_of_getElem? hK)] at hKc
    cases hKc
  refine ⟨hempty, fun u => ?_⟩
  rw [(hub_registry he).counts u, if_pos (by rw [Hub.registered, hempty]; rfl)]

end Owners

/-- **The registry and its counts**, in every use of the hub: `counts` is the number of
registered clients of each user, with no entry for none and never above the cap;
`Register` succeeds exactly below the cap; no buffer is above its capacity; a client
gets nothing after its `Unregister`. And in the running system both maps are empty
once every `ws` handler has returned. -/
theorem registry_invariant :
    (∀ (as : List Hub.UseAction) (s : Hub.Use), Hub.hubMachine.exec Hub.unused as = some s →
      Hub.Registry s.hub ∧
      (∀ u, (s.hub.register u).1.isSome ↔ (s.hub.registered u : Int) < Hub.maxPerUser) ∧
      ∀ before c rest, as = before ++ .unregister c :: rest →
        ∃ q, Hub.hubMachine.exec Hub.unused (before ++ [.unregister c]) = some q ∧
          (c < q.hub.heap.length → s.enqueued c = q.enqueued c)) ∧
    ∀ (as : List Action) (s : Sys), system.exec start as = some s →
      (∀ K ∈ s.conns, K.handler = .returned) →
        s.hub.clients = [] ∧ ∀ u, s.hub.counts u = none := by
  constructor
  · intro as s he
    have hregistry := (Hub.orderly_exec he).registry
    refine ⟨hregistry, fun u => Hub.register_isSome_iff hregistry, ?_⟩
    intro before c rest has
    exact Hub.silent_after_unregister (has ▸ he)
  · intro as s he hreturned
    exact empty_after_handlers he hreturned

/-- Two clients of one user; one is unregistered twice before a broadcast. -/
def unregisteredTwice : List Hub.UseAction :=
  [.register "ann", .register "ann", .unregister 0, .unregister 0,
    .call "rollout" "r1" "update", .assignRev 0, .lock 0, .send 0 1, .unlock 0]

/-- A page opens its socket and the peer goes away. -/
def peerGone : List Action :=
  [.load "ann" 0 true, .accept 0, .opened 0, .register 0, .dropped 0 0, .leave 0, .unregister 0]

theorem registry_invariant_runs :
    (∃ s, Hub.hubMachine.exec Hub.unused unregisteredTwice = some s ∧ Hub.Registry s.hub ∧
      ((s.hub.register "ann").1.isSome ↔ (s.hub.registered "ann" : Int) < Hub.maxPerUser) ∧
      ∃ q, Hub.hubMachine.exec Hub.unused (unregisteredTwice.take 3) = some q ∧
        (0 < q.hub.heap.length → s.enqueued 0 = q.enqueued 0)) ∧
    ∃ s, system.exec start peerGone = some s ∧ s.hub.clients = [] ∧
      ∀ u, s.hub.counts u = none := by
  obtain ⟨huse, hsystem⟩ := registry_invariant
  constructor
  · have hruns : ∃ s, Hub.hubMachine.exec Hub.unused unregisteredTwice = some s ∧
        s.hub.rev = 1 := by decide
    obtain ⟨s, he, -⟩ := hruns
    obtain ⟨hregistry, hcap, hsilent⟩ := huse _ s he
    exact ⟨s, he, hregistry, hcap "ann", hsilent (unregisteredTwice.take 2) 0 _ rfl⟩
  · have hruns : ∃ s, system.exec start peerGone = some s ∧
        ∀ K ∈ s.conns, K.handler = .returned := by decide
    obtain ⟨s, he, hreturned⟩ := hruns
    exact ⟨s, he, hsystem _ s he hreturned⟩

end Live

end ReleaseRadar
