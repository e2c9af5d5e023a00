import ReleaseRadar.Live.System

/-!
# Tabs, sockets, handlers and clients

What holds of the system whatever happens, before anything is said about updates:
`Wired` (a tab's socket is its own, a handler's client is its own and registered) and
`Numbered` (no revision anywhere is above the hub's counter).
-/

namespace ReleaseRadar

open Lib

namespace Live

/-- The event of the mutation's `Broadcast`, once it has a revision. -/
def Mutation.event : Mutation → Option Hub.Event
  | committed _ _ _ | failed _ _ _ => none
  | assigned ev | sending ev _ | done ev => some ev

namespace Sys

/-- The events of all broadcasts so far. -/
def events (s : Sys) : List Hub.Event := s.mutations.filterMap Mutation.event

/-- The tab whose socket is `k`. -/
def tabAt (s : Sys) (k : Nat) : Option Nat := (s.conns[k]?).map Conn.tab

/-- The registered client of the socket `k`. -/
def clientAt (s : Sys) (k : Nat) : Option Nat := (s.conns[k]?).bind fun K => K.handler.client

end Sys

/-! ## How sockets, handlers and clients belong together -/

/-- The bookkeeping no step breaks: a tab's socket holds its handlers and was made for
it; a reconnect is pending only while there is no socket; every handler past
`Register` has a registered client of its own. -/
structure Wired (s : Sys) : Prop where
  socket : ∀ (t : Nat) (T : Tab) (k : Nat), s.tabs[t]? = some T → T.live.socket = some k →
    k ∈ T.live.attached ∧ s.tabAt k = some t
  waiting : ∀ (t : Nat) (T : Tab), s.tabs[t]? = some T → T.live.Waiting
  registered : ∀ k c, s.clientAt k = some c → c ∈ s.hub.clients
  made : ∀ c ∈ s.hub.clients, c < s.hub.heap.length
  single : ∀ k k' c, s.clientAt k = some c → s.clientAt k' = some c → k = k'

section Wiring

variable {s s' : Sys} {k k' t c : Nat} {K K' : Conn} {T T' : Tab}

/-- A connection knows its tab. -/
theorem tabAt_of (hk : s.conns[k]? = some K) : s.tabAt k = some K.tab := by
  simp only [Sys.tabAt, hk, Option.map_some]

/-- And the client of its handler. -/
theorem clientAt_of (hk : s.conns[k]? = some K) : s.clientAt k = K.handler.client := by
  simp only [Sys.clientAt, hk, Option.bind_some]

/-- What a socket's tab sees of an update of one connection. -/
theorem tabAt_set (hk : s.conns[k]? = some K) (hs' : s'.conns = s.conns.set k K')
    (htab : K'.tab = K.tab) : s'.tabAt k' = s.tabAt k' := by
  have h := getElem?_set_bind (j := k') (fun K : Conn => some K.tab) hk (congrArg some htab)
  simpa only [Sys.tabAt, hs', Option.map_eq_bind, Function.comp_def] using h

/-- A step of the handler that keeps its client keeps all clients. -/
theorem clientAt_set (hk : s.conns[k]? = some K) (hs' : s'.conns = s.conns.set k K')
    (hc : K'.handler.client = K.handler.client) : s'.clientAt k' = s.clientAt k' := by
  have h := getElem?_set_bind (j := k') (fun K : Conn => K.handler.client) hk hc
  simpa only [Sys.clientAt, hs'] using h

/-- The tab keeps its socket as it was, or gives it up. -/
structure KeepsSocket (T T' : Tab) : Prop where
  socket : T'.live.socket = T.live.socket ∧ T'.live.attached = T.live.attached ∨
    T'.live.socket = none
  waiting : T.live.Waiting → T'.live.Waiting

/-- Nothing has happened to the tab. -/
theorem KeepsSocket.refl (T : Tab) : KeepsSocket T T := ⟨Or.inl ⟨rfl, rfl⟩, id⟩

/-- A step keeps the wiring if tabs keep their sockets, no connection changes hands and the
registry stays. -/
theorem Wired.frame (h : Wired s)
    (htabs : ∀ (t : Nat) (T' : Tab), s'.tabs[t]? = some T' →
      ∃ T, s.tabs[t]? = some T ∧ KeepsSocket T T')
    (htab : ∀ k, s'.tabAt k = s.tabAt k)
    (hclient : ∀ k c, s'.clientAt k = some c → s.clientAt k = some c)
    (hclients : s'.hub.clients = s.hub.clients)
    (hheap : s'.hub.heap.length = s.hub.heap.length) : Wired s' where
  socket t T' k ht hk := by
    obtain ⟨T, hT, hkeeps⟩ := htabs t T' ht
    rcases hkeeps.socket with ⟨hsocket, hattached⟩ | hnone
    · rw [htab, hattached]
      exact h.socket t T k hT (hsocket ▸ hk)
    · rw [hnone] at hk
      cases hk
  waiting t T' ht := by
    obtain ⟨T, hT, hkeeps⟩ := htabs t T' ht
    exact hkeeps.waiting (h.waiting t T hT)
  registered k c hc := hclients ▸ h.registered k c (hclient k c hc)
  made c hc := hheap ▸ h.made c (hclients ▸ hc)
  single k k' c hc hc' := h.single k k' c (hclient k c hc) (hclient k' c hc')

/-- The tabs are as they were. -/
theorem same_tabs (hs' : s'.tabs = s.tabs) (t : Nat) (T' : Tab) (ht : s'.tabs[t]? = some T') :
    ∃ T, s.tabs[t]? = some T ∧ KeepsSocket T T' :=
  ⟨T', hs' ▸ ht, .refl T'⟩

/-- A tab is set to one that kept its socket. -/
theorem set_tabs {T₀ T₁ : Tab} (ht₀ : s.tabs[t]? = some T₀) (hkeep : KeepsSocket T₀ T₁)
    (hs' : s'.tabs = s.tabs.set t T₁) (t' : Nat) (T' : Tab) (ht : s'.tabs[t']? = some T') :
    ∃ T, s.tabs[t']? = some T ∧ KeepsSocket T T' := by
  rw [hs'] at ht
  rcases of_getElem?_set ht with ⟨rfl, rfl⟩ | ⟨-, hT⟩
  · exact ⟨T₀, ht₀, hkeep⟩
  · exact ⟨T', hT, .refl T'⟩

/-- A callback of a socket either ran or did not. -/
theorem Tab.on_cases (k : Nat) (f : LiveService → LiveService) (T : Tab) :
    k ∉ T.live.attached ∧ T.on k f = T ∨
      k ∈ T.live.attached ∧ T.on k f = { T with live := f T.live } := by
  unfold Tab.on
  by_cases hk : k ∈ T.live.attached
  · exact Or.inr ⟨hk, if_pos hk⟩
  · exact Or.inl ⟨hk, if_neg hk⟩

/-- A callback of a socket ran that kept the tab's socket. -/
theorem modify_tabs {f : LiveService → LiveService}
    (hkeep : ∀ T : Tab, KeepsSocket T { T with live := f T.live })
    (hs' : s'.tabs = s.tabs.modify t (Tab.on k f)) (t' : Nat) (T' : Tab)
    (ht : s'.tabs[t']? = some T') : ∃ T, s.tabs[t']? = some T ∧ KeepsSocket T T' := by
  rw [hs'] at ht
  obtain ⟨T, hT, ⟨-, rfl⟩ | ⟨-, rfl⟩⟩ := of_getElem?_modify ht
  · refine ⟨T, hT, ?_⟩
    rcases Tab.on_cases k f T with ⟨-, heq⟩ | ⟨-, heq⟩
    · rw [heq]
      exact .refl T
    · rw [heq]
      exact hkeep T
  · exact ⟨T', hT, .refl T'⟩

/-! ### The steps -/

/-- A step of a handler that keeps its client or lets it go. -/
theorem Wired.handler (h : Wired s) (hk : s.conns[k]? = some K)
    (hs' : s'.conns = s.conns.set k K') (htab : K'.tab = K.tab)
    (hclient : ∀ c, K'.handler.client = some c → K.handler.client = some c)
    (htabs : s'.tabs = s.tabs) (hclients : s'.hub.clients = s.hub.clients)
    (hheap : s'.hub.heap.length = s.hub.heap.length) : Wired s' := by
  refine h.frame (same_tabs htabs) (fun j => tabAt_set hk hs' htab) ?_ hclients hheap
  intro j c hc
  rw [Sys.clientAt, hs'] at hc
  obtain ⟨K₁, hK₁, hc₁⟩ := Option.bind_eq_some_iff.mp hc
  rcases of_getElem?_set hK₁ with ⟨rfl, rfl⟩ | ⟨-, hj⟩
  · rw [clientAt_of hk]
    exact hclient c hc₁
  · rw [clientAt_of hj]
    exact hc₁

/-- A callback of a socket, for an event that changes its connection. -/
theorem Wired.browser {f : LiveService → LiveService} (h : Wired s) (hk : s.conns[k]? = some K)
    (hs' : s'.conns = s.conns.set k K') (htab : K'.tab = K.tab)
    (hclient : K'.handler.client = K.handler.client)
    (hkeep : ∀ T : Tab, KeepsSocket T { T with live := f T.live })
    (htabs : s'.tabs = s.tabs.modify K.tab (Tab.on k f)) (hhub : s'.hub = s.hub) : Wired s' := by
  refine h.frame (modify_tabs hkeep htabs) (fun j => tabAt_set hk hs' htab) ?_ ?_ ?_
  · intro j c hc
    rwa [clientAt_set hk hs' hclient] at hc
  · rw [hhub]
  · rw [hhub]

/-- A callback of a tab that keeps its socket or gives it up. -/
theorem Wired.callback (h : Wired s) (ht : s.tabs[t]? = some T)
    (htabs : s'.tabs = s.tabs.set t T') (hkeep : KeepsSocket T T')
    (hconns : s'.conns = s.conns) (hhub : s'.hub = s.hub) : Wired s' := by
  refine h.frame (set_tabs ht hkeep htabs) ?_ ?_ ?_ ?_
  · intro k
    rw [Sys.tabAt, hconns, Sys.tabAt]
  · intro k c hc
    rwa [Sys.clientAt, hconns] at hc
  · rw [hhub]
  · rw [hhub]

/-- A message leaves the socket. -/
theorem keepsSocket_onmessage (now : Rat) (ev : Hub.Event) (T : Tab) :
    KeepsSocket T { T with live := LiveService.onmessage now (some ev.toJson) T.live } := by
  rw [LiveService.onmessage_toJson]
  split
  · exact .refl T
  · exact ⟨Or.inl ⟨rfl, rfl⟩, fun h => ⟨h.single, h.socket⟩⟩

/-- A drop lets it go. -/
theorem keepsSocket_handleDrop (now random : Rat) (T : Tab) :
    KeepsSocket T { T with live := LiveService.handleDrop now random T.live } :=
  ⟨Or.inr LiveService.handleDrop_socket, .handleDrop⟩

/-- A handler gets a client nobody else has. -/
theorem Wired.register {hub : Hub} (h : Wired s) (hk : s.conns[k]? = some K)
    (hr : s.hub.register K.user = (some s.hub.heap.length, hub))
    (hconns : s'.conns =
      s.conns.set k { K with handler := .pumping s.hub.heap.length none })
    (hhub : s'.hub = hub) (htabs : s'.tabs = s.tabs) : Wired s' := by
  obtain ⟨-, -, hclients, hheap, -⟩ := Hub.register_some hr
  -- A socket has the client it had, or it is `k` and has the new one.
  have hwho : ∀ j c, s'.clientAt j = some c →
      s.clientAt j = some c ∨ j = k ∧ c = s.hub.heap.length := by
    intro j c hc
    rw [Sys.clientAt, hconns] at hc
    obtain ⟨K₁, hK₁, hc₁⟩ := Option.bind_eq_some_iff.mp hc
    rcases of_getElem?_set hK₁ with ⟨rfl, rfl⟩ | ⟨-, hj⟩
    · exact Or.inr ⟨rfl, (Option.some.inj hc₁).symm⟩
    · rw [clientAt_of hj]
      exact Or.inl hc₁
  have hnew : ∀ j, s.clientAt j ≠ some s.hub.heap.length := fun j hj =>
    absurd (h.made _ (h.registered j _ hj)) (Nat.lt_irrefl _)
  refine ⟨?_, ?_, ?_, ?_, ?_⟩
  · intro t T j ht hj
    rw [tabAt_set hk hconns rfl]
    exact h.socket t T j (htabs ▸ ht) hj
  · rw [htabs]
    exact h.waiting
  · intro j c hc
    rw [hhub, hclients]
    rcases hwho j c hc with hc | ⟨-, rfl⟩
    · exact List.mem_append_left _ (h.registered j c hc)
    · exact List.mem_append_right _ (List.mem_singleton.mpr rfl)
  · intro c hc
    rw [hhub, hclients] at hc
    rw [hhub, hheap, List.length_append, List.length_singleton]
    rcases List.mem_append.mp hc with hc | hc
    · have := h.made c hc
      omega
    · rw [List.mem_singleton.mp hc]
      omega
  · intro j j' c hj hj'
    rcases hwho j c hj with hc | ⟨rfl, rfl⟩
    · rcases hwho j' c hj' with hc' | ⟨-, rfl⟩
      · exact h.single j j' c hc hc'
      · exact absurd hc (hnew j)
    · rcases hwho j' _ hj' with hc' | ⟨rfl, -⟩
      · exact absurd hc' (hnew j')
      · rfl

/-- It gives the client back. -/
theorem Wired.unregister {hand : Option Hub.Event} (h : Wired s) (hk : s.conns[k]? = some K)
    (hK : K.handler = .closing c hand)
    (hconns : s'.conns = s.conns.set k { K with handler := .returned })
    (hhub : s'.hub = s.hub.unregister c) (htabs : s'.tabs = s.tabs) : Wired s' := by
  have hwho : ∀ j d, s'.clientAt j = some d → j ≠ k ∧ s.clientAt j = some d := by
    intro j d hd
    rw [Sys.clientAt, hconns] at hd
    obtain ⟨K₁, hK₁, hd₁⟩ := Option.bind_eq_some_iff.mp hd
    rcases of_getElem?_set hK₁ with ⟨-, rfl⟩ | ⟨hne, hj⟩
    · cases hd₁
    · rw [clientAt_of hj]
      exact ⟨fun he => hne he.symm, hd₁⟩
  have hmine : s.clientAt k = some c := by
    rw [clientAt_of hk, hK]
    rfl
  refine ⟨?_, ?_, ?_, ?_, ?_⟩
  · intro t T j ht hj
    rw [tabAt_set hk hconns rfl]
    exact h.socket t T j (htabs ▸ ht) hj
  · rw [htabs]
    exact h.waiting
  · intro j d hd
    obtain ⟨hne, hold⟩ := hwho j d hd
    rw [hhub]
    refine Hub.mem_unregister ?_ (h.registered j d hold)
    intro he
    exact hne (h.single j k d hold (he ▸ hmine))
  · intro d hd
    rw [hhub] at hd ⊢
    rw [Hub.unregister_heap]
    exact h.made d (Hub.unregister_subset hd)
  · intro j j' d hd hd'
    exact h.single j j' d (hwho j d hd).2 (hwho j' d hd').2

/-! ### A socket is opened -/

/-- The connections a factory call leaves: those before, and perhaps a new one whose
handler has not started. -/
theorem of_getElem?_dial {ok : Bool} {user : String} (hK : (s.dial ok t user)[k]? = some K) :
    s.conns[k]? = some K ∨
      ok = true ∧ k = s.conns.length ∧ K = ⟨t, user, .upgrading, false, .connecting, []⟩ := by
  cases ok with
  | false => exact Or.inl hK
  | true =>
    rcases of_getElem?_concat hK with hold | ⟨rfl, rfl⟩
    · exact Or.inl hold
    · exact Or.inr ⟨rfl, rfl, rfl⟩

/-- A tab without a socket and without a reconnect pending that opens one. -/
theorem opened_socket {now random : Rat} {made : Option Nat} {live : LiveService}
    (hsocket : live.socket = none) (hpending : live.reconnectTimer.pending = [])
    (hsingle : live.reconnectTimer.Single) :
    (live.openSocket now random made).Waiting ∧
      (live.openSocket now random made).socket = made ∧
      ∀ k ∈ made, k ∈ (live.openSocket now random made).attached := by
  refine ⟨.openSocket hpending hsingle hsocket, ?_, fun k hk => ?_⟩
  · rw [LiveService.openSocket_socket, hsocket, Option.or_none]
  · rw [LiveService.openSocket_attached]
    exact List.mem_append_right _ (Option.mem_toList.mpr hk)

/-- A reconnect that fires finds its tab so. -/
theorem reconnected_socket {now random : Rat} {made : Option Nat} {live : LiveService}
    {handle : Nat} (h : live.Waiting) (hdue : live.reconnectTimer.Due now handle) :
    (live.fireReconnect now random made handle).Waiting ∧
      (live.fireReconnect now random made handle).socket = made ∧
      ∀ k ∈ made, k ∈ (live.fireReconnect now random made handle).attached :=
  opened_socket (h.no_socket hdue.pending) (h.single.fire_pending hdue.pending)
    (h.single.fire hdue.pending)

/-- Dialling leaves the connections that are there. -/
theorem getElem?_dial {ok : Bool} {user : String} (hK : s.conns[k]? = some K) :
    (s.dial ok t user)[k]? = some K := by
  cases ok with
  | false => exact hK
  | true => exact (List.getElem?_append_left (List.getElem?_eq_some_iff.mp hK).1).trans hK

/-- Opening a socket keeps the wiring: the tab that opened it, if any did, was without
one. -/
theorem Wired.dial {ok : Bool} {user : String} (h : Wired s)
    (hconns : s'.conns = s.dial ok t user) (hhub : s'.hub = s.hub)
    (htabs : ∀ (t' : Nat) (T' : Tab), s'.tabs[t']? = some T' →
      s.tabs[t']? = some T' ∨
        t' = t ∧ T'.live.Waiting ∧ T'.live.socket = s.made ok ∧
          ∀ k ∈ s.made ok, k ∈ T'.live.attached) : Wired s' := by
  have hclient : ∀ j c, s'.clientAt j = some c → s.clientAt j = some c := by
    intro j c hc
    rw [Sys.clientAt, hconns] at hc
    obtain ⟨K₁, hK₁, hc₁⟩ := Option.bind_eq_some_iff.mp hc
    rcases of_getElem?_dial hK₁ with hj | ⟨-, -, rfl⟩
    · rw [clientAt_of hj]
      exact hc₁
    · cases hc₁
  refine ⟨?_, ?_, ?_, ?_, ?_⟩
  · intro t' T' k ht hk
    rcases htabs t' T' ht with hT | ⟨rfl, -, hsocket, hattached⟩
    · obtain ⟨hmem, htab⟩ := h.socket t' T' k hT hk
      obtain ⟨K₁, hK₁, hK₁t⟩ := Option.map_eq_some_iff.mp htab
      refine ⟨hmem, ?_⟩
      rw [Sys.tabAt, hconns, getElem?_dial hK₁, Option.map_some, hK₁t]
    · rw [hsocket] at hk
      refine ⟨hattached k hk, ?_⟩
      cases ok with
      | false => cases hk
      | true =>
        obtain rfl : s.conns.length = k := Option.some.inj hk
        rw [Sys.tabAt, hconns]
        simp only [Sys.dial, if_true, List.getElem?_concat_length, Option.map_some]
  · intro t' T' ht
    rcases htabs t' T' ht with hT | ⟨-, hwait, -⟩
    · exact h.waiting t' T' hT
    · exact hwait
  · intro j c hc
    rw [hhub]
    exact h.registered j c (hclient j c hc)
  · rw [hhub]
    exact h.made
  · intro j j' c hc hc'
    exact h.single j j' c (hclient j c hc) (hclient j' c hc')

/-- Nothing is connected at the start. -/
theorem wired_start : Wired start where
  socket _ _ _ ht _ := by cases ht
  waiting _ _ ht := by cases ht
  registered _ _ hc := by cases hc
  made _ hc := by cases hc
  single _ _ _ hc _ := by cases hc

/-- A step that leaves tabs, connections and the registry alone. -/
theorem Wired.hub (h : Wired s) (htabs : s'.tabs = s.tabs) (hconns : s'.conns = s.conns)
    (hclients : s'.hub.clients = s.hub.clients)
    (hheap : s'.hub.heap.length = s.hub.heap.length) : Wired s' := by
  refine h.frame (same_tabs htabs) ?_ ?_ hclients hheap
  · intro k
    rw [Sys.tabAt, hconns, Sys.tabAt]
  · intro k c hc
    rw [Sys.clientAt, hconns] at hc
    exact hc

/-- The wiring is kept by every step. -/
theorem wired_step {a : Action} (h : Wired s) (hs : step s a = some s') : Wired s' := by
  cases a with
  | wait d =>
    simp only [step] at hs
    split at hs
    · cases hs
      exact h.hub rfl rfl rfl rfl
    · cases hs
  | commit entity id action =>
    cases hs
    exact h.hub rfl rfl rfl rfl
  | fail i =>
    obtain ⟨_, _, _, -, rfl⟩ := step_fail hs
    exact h.hub rfl rfl rfl rfl
  | assignRev i =>
    obtain ⟨_, _, _, -, rfl⟩ := step_assignRev hs
    exact h.hub rfl rfl rfl rfl
  | lock i =>
    obtain ⟨_, -, -, rfl⟩ := step_lock hs
    exact h.hub rfl rfl rfl rfl
  | send i c =>
    obtain ⟨_, _, -, -, rfl⟩ := step_send hs
    exact h.hub rfl rfl Hub.offer_clients Hub.offer_length
  | unlock i =>
    obtain ⟨_, -, rfl⟩ := step_unlock hs
    exact h.hub rfl rfl rfl rfl
  | accept k =>
    obtain ⟨K, hk, -, rfl⟩ := step_accept hs
    exact h.handler hk rfl rfl (fun d hd => by cases hd) rfl rfl rfl
  | refuse k =>
    obtain ⟨K, hk, -, rfl⟩ := step_refuse hs
    exact h.handler hk rfl rfl (fun d hd => by cases hd) rfl rfl rfl
  | register k =>
    obtain ⟨K, hk, -, -, rfl | ⟨hub, hr, rfl⟩⟩ := step_register hs
    · exact h.handler hk rfl rfl (fun d hd => by cases hd) rfl rfl rfl
    · exact h.register hk hr rfl rfl rfl
  | take k =>
    obtain ⟨K, c, ev, rest, hk, hK, -, rfl⟩ := step_take hs
    exact h.handler hk rfl rfl (fun d hd => by rwa [hK]) rfl rfl Hub.receive_length
  | write k =>
    obtain ⟨K, c, ev, hk, hK, rfl⟩ := step_write hs
    exact h.handler hk rfl rfl (fun d hd => by rwa [hK]) rfl rfl rfl
  | leave k =>
    obtain ⟨K, c, hand, hk, hK, rfl⟩ := step_leave hs
    exact h.handler hk rfl rfl (fun d hd => by rwa [hK]) rfl rfl rfl
  | unregister k =>
    obtain ⟨K, c, hand, hk, hK, -, rfl⟩ := step_unregister hs
    exact h.unregister hk hK rfl rfl rfl
  | load user random ok =>
    cases hs
    refine h.dial rfl rfl fun t' T' ht => ?_
    rcases of_getElem?_concat ht with hT | ⟨rfl, rfl⟩
    · exact Or.inl hT
    · refine Or.inr ⟨rfl, ?_⟩
      rw [LiveService.connect_new]
      exact opened_socket rfl rfl Timer.single_new
  | opened k =>
    obtain ⟨K, hk, rfl⟩ := step_opened hs
    exact h.browser hk rfl rfl rfl
      (fun T => ⟨Or.inl ⟨rfl, rfl⟩, fun h => ⟨h.single, h.socket⟩⟩) rfl rfl
  | message k =>
    obtain ⟨K, ev, rest, hk, -, rfl⟩ := step_message hs
    exact h.browser hk rfl rfl rfl (keepsSocket_onmessage s.now ev) rfl rfl
  | dropped k random =>
    obtain ⟨K, hk, rfl⟩ := step_dropped hs
    exact h.browser hk rfl rfl rfl (keepsSocket_handleDrop s.now random) rfl rfl
  | fireBump t handle =>
    obtain ⟨T, ht, rfl⟩ := step_fireBump hs
    exact h.callback ht rfl ⟨Or.inl ⟨rfl, rfl⟩, fun h => ⟨h.single, h.socket⟩⟩ rfl rfl
  | fireReconnect t handle random ok =>
    obtain ⟨T, ht, hdue, rfl⟩ := step_fireReconnect hs
    refine h.dial rfl rfl fun t' T' ht' => ?_
    rcases of_getElem?_set ht' with ⟨rfl, rfl⟩ | ⟨-, hT⟩
    · exact Or.inr ⟨rfl, reconnected_socket (h.waiting _ T ht) hdue⟩
    · exact Or.inl hT
  | fireStable t handle =>
    obtain ⟨T, ht, rfl⟩ := step_fireStable hs
    exact h.callback ht rfl ⟨Or.inl ⟨rfl, rfl⟩, fun h => ⟨h.single, h.socket⟩⟩ rfl rfl
  | bump t =>
    obtain ⟨T, ht, rfl⟩ := step_bump hs
    exact h.callback ht rfl ⟨Or.inl ⟨rfl, rfl⟩, fun h => ⟨h.single, h.socket⟩⟩ rfl rfl
  | disconnect t =>
    obtain ⟨T, ht, rfl⟩ := step_disconnect hs
    exact h.callback ht rfl ⟨Or.inr rfl, .disconnect⟩ rfl rfl

end Wiring

/-! ## Where frames come from, and their revisions -/

/-- Every frame is the event of a broadcast, and no revision is above the hub's counter,
neither a broadcast's nor the last one a tab has acted on. -/
structure Numbered (s : Sys) : Prop where
  counter : 0 ≤ s.hub.rev
  revs : ∀ ev ∈ s.events, 0 < ev.rev ∧ ev.rev ≤ s.hub.rev
  frames : ∀ K ∈ s.conns, ∀ ev ∈ K.wire ++ K.handler.hand, ev ∈ s.events
  chans : ∀ c, ∀ ev ∈ s.hub.chan c, ev ∈ s.events
  marks : ∀ T ∈ s.tabs, T.live.lastRev ≤ s.hub.rev

section Numbering

variable {s s' : Sys} {k t c i : Nat} {K K' : Conn} {T T' : Tab} {m m' : Mutation}

/-- The events are those of the mutations that have a revision. -/
theorem mem_events {ev : Hub.Event} :
    ev ∈ s.events ↔ ∃ (i : Nat) (m : Mutation), s.mutations[i]? = some m ∧ m.event = some ev :=
  mem_filterMap_getElem?

/-- Nothing has been numbered at the start. -/
theorem numbered_start : Numbered start where
  counter := Int.le_refl 0
  revs _ hev := absurd hev List.not_mem_nil
  frames _ hK := absurd hK List.not_mem_nil
  chans _ _ hev := absurd hev List.not_mem_nil
  marks _ hT := absurd hT List.not_mem_nil

/-- A step of a broadcast that has its revision: its event stays its event. -/
theorem events_set (hi : s.mutations[i]? = some m) (hm : m'.event = m.event)
    (hs' : s'.mutations = s.mutations.set i m') : s'.events = s.events := by
  have hmap : s'.mutations.map Mutation.event = s.mutations.map Mutation.event := by
    refine List.ext_getElem? fun j => ?_
    have h := getElem?_set_bind (j := j) (fun m : Mutation => some m.event) hi
      (congrArg some hm)
    simpa only [hs', List.getElem?_map, Option.map_eq_bind, Function.comp_def] using h
  calc s'.events = (s'.mutations.map Mutation.event).filterMap id := by
        rw [List.filterMap_map]; rfl
    _ = (s.mutations.map Mutation.event).filterMap id := by rw [hmap]
    _ = s.events := by rw [List.filterMap_map]; rfl

/-- A step of a handler or a browser: frames only move on. -/
theorem Numbered.move (h : Numbered s) (hevents : s'.events = s.events)
    (hrev : s'.hub.rev = s.hub.rev)
    (hframes : ∀ K ∈ s'.conns, ∀ ev ∈ K.wire ++ K.handler.hand, ev ∈ s.events)
    (hchans : ∀ c, ∀ ev ∈ s'.hub.chan c, ev ∈ s.events)
    (hmarks : ∀ T ∈ s'.tabs, T.live.lastRev ≤ s.hub.rev) : Numbered s' := by
  constructor
  · rw [hrev]
    exact h.counter
  · rw [hevents, hrev]
    exact h.revs
  · rw [hevents]
    exact hframes
  · rw [hevents]
    exact hchans
  · rw [hrev]
    exact hmarks

/-- One connection's frames are replaced by others of the same broadcasts. -/
theorem Numbered.frames_set (h : Numbered s)
    (hK : ∀ ev ∈ K'.wire ++ K'.handler.hand, ev ∈ s.events) :
    ∀ K ∈ s.conns.set k K', ∀ ev ∈ K.wire ++ K.handler.hand, ev ∈ s.events := by
  intro K₁ hK₁
  rcases List.mem_or_eq_of_mem_set hK₁ with hold | rfl
  · exact h.frames K₁ hold
  · exact hK

/-- One connection passes on what it has. -/
theorem Numbered.frames_pass (h : Numbered s) (hk : s.conns[k]? = some K)
    (hK : K'.wire ++ K'.handler.hand ⊆ K.wire ++ K.handler.hand) :
    ∀ K₁ ∈ s.conns.set k K', ∀ ev ∈ K₁.wire ++ K₁.handler.hand, ev ∈ s.events :=
  h.frames_set fun ev hev => h.frames K (List.mem_of_getElem? hk) ev (hK hev)

/-- No tab has seen more than the hub has numbered. -/
theorem Numbered.marks_set (h : Numbered s) (hT : T'.live.lastRev ≤ s.hub.rev) :
    ∀ T ∈ s.tabs.set t T', T.live.lastRev ≤ s.hub.rev := by
  intro T₁ hT₁
  rcases List.mem_or_eq_of_mem_set hT₁ with hold | rfl
  · exact h.marks T₁ hold
  · exact hT

/-- A handler that keeps to it keeps it so. -/
theorem Numbered.marks_modify {f : LiveService → LiveService} (h : Numbered s)
    (hf : ∀ live : LiveService, live.lastRev ≤ s.hub.rev → (f live).lastRev ≤ s.hub.rev) :
    ∀ T ∈ s.tabs.modify t (Tab.on k f), T.live.lastRev ≤ s.hub.rev := by
  intro T' hT'
  obtain ⟨j, hj⟩ := List.mem_iff_getElem?.mp hT'
  obtain ⟨T, hT, hcase⟩ := of_getElem?_modify hj
  have hold := h.marks T (List.mem_iff_getElem?.mpr ⟨j, hT⟩)
  rcases hcase with ⟨-, rfl⟩ | ⟨-, rfl⟩
  · rcases Tab.on_cases k f T with ⟨-, heq⟩ | ⟨-, heq⟩
    · rw [heq]
      exact hold
    · rw [heq]
      exact hf T.live hold
  · exact hold

/-- A new connection has nothing on its wire. -/
theorem Numbered.frames_dial {ok : Bool} {user : String} (h : Numbered s) :
    ∀ K ∈ s.dial ok t user, ∀ ev ∈ K.wire ++ K.handler.hand, ev ∈ s.events := by
  intro K hK
  obtain ⟨j, hj⟩ := List.mem_iff_getElem?.mp hK
  rcases of_getElem?_dial hj with hold | ⟨-, -, rfl⟩
  · exact h.frames K (List.mem_iff_getElem?.mpr ⟨j, hold⟩)
  · intro ev hev
    exact absurd hev List.not_mem_nil

/-- A broadcast takes its revision: one event more, and the counter is at its revision. -/
theorem Numbered.assign {entity id action : String} (h : Numbered s)
    (hi : s.mutations[i]? = some (.committed entity id action)) :
    Numbered { s with
      hub := { s.hub with rev := s.hub.nextRev }
      mutations := s.mutations.set i (.assigned ⟨entity, id, action, s.hub.nextRev⟩) } := by
  have hup : s.hub.rev ≤ s.hub.nextRev := by
    unfold Hub.nextRev
    omega
  have hevents : ∀ ev ∈ s.events, ev ∈ Sys.events { s with
      hub := { s.hub with rev := s.hub.nextRev }
      mutations := s.mutations.set i (.assigned ⟨entity, id, action, s.hub.nextRev⟩) } := by
    intro ev hev
    obtain ⟨j, m, hj, hm⟩ := mem_events.mp hev
    have hij : i ≠ j := by
      intro he
      rw [← he, hi] at hj
      cases hj
      cases hm
    exact mem_events.mpr ⟨j, m, by rw [List.getElem?_set_ne hij]; exact hj, hm⟩
  constructor
  · have := h.counter
    show 0 ≤ s.hub.nextRev
    omega
  · intro ev hev
    obtain ⟨j, m, hj, hm⟩ := mem_events.mp hev
    show 0 < ev.rev ∧ ev.rev ≤ s.hub.nextRev
    rcases of_getElem?_set hj with ⟨-, rfl⟩ | ⟨-, hold⟩
    · cases hm
      have := h.counter
      show 0 < s.hub.nextRev ∧ s.hub.nextRev ≤ s.hub.nextRev
      unfold Hub.nextRev
      omega
    · have := h.revs ev (mem_events.mpr ⟨j, m, hold, hm⟩)
      omega
  · intro K hK ev hev
    exact hevents ev (h.frames K hK ev hev)
  · intro c ev hev
    exact hevents ev (h.chans c ev hev)
  · intro T hT
    exact Int.le_trans (h.marks T hT) hup

/-- A step of a broadcast under the mutex: it may put its event into channels. -/
theorem Numbered.fanOut {ev : Hub.Event} (h : Numbered s) (hi : s.mutations[i]? = some m)
    (hev : m.event = some ev) (hmutations : s'.mutations = s.mutations.set i m')
    (hm : m'.event = m.event) (hrev : s'.hub.rev = s.hub.rev)
    (hchans : ∀ c, ∀ ev' ∈ s'.hub.chan c, ev' = ev ∨ ev' ∈ s.hub.chan c)
    (hconns : s'.conns = s.conns) (htabs : s'.tabs = s.tabs) : Numbered s' := by
  have hevents := events_set hi hm hmutations
  constructor
  · rw [hrev]
    exact h.counter
  · rw [hevents, hrev]
    exact h.revs
  · rw [hevents, hconns]
    exact h.frames
  · rw [hevents]
    intro c ev' hmem
    rcases hchans c ev' hmem with rfl | hold
    · exact mem_events.mpr ⟨i, m, hi, hev⟩
    · exact h.chans c ev' hold
  · rw [hrev, htabs]
    exact h.marks

/-- The numbering is kept by every step. -/
theorem numbered_step {a : Action} (h : Numbered s) (hs : step s a = some s') :
    Numbered s' := by
  cases a with
  | wait d =>
    simp only [step] at hs
    split at hs
    · cases hs
      exact h.move rfl rfl h.frames h.chans h.marks
    · cases hs
  | commit entity id action =>
    cases hs
    -- a mutation that is only committed has no event yet
    have hevents : Sys.events
        { s with mutations := s.mutations ++ [.committed entity id action] } = s.events := by
      rw [Sys.events, List.filterMap_append]
      exact List.append_nil _
    exact h.move hevents rfl h.frames h.chans h.marks
  | fail i =>
    obtain ⟨entity, id, action, hi, rfl⟩ := step_fail hs
    -- it has none, and never will
    have hnone : (Mutation.failed entity id action).event =
        (Mutation.committed entity id action).event := rfl
    exact h.move (events_set hi hnone rfl) rfl h.frames h.chans h.marks
  | assignRev i =>
    obtain ⟨entity, id, action, hi, rfl⟩ := step_assignRev hs
    -- the one step that takes a new revision
    exact h.assign hi
  | lock i =>
    obtain ⟨ev, hi, -, rfl⟩ := step_lock hs
    exact h.fanOut hi rfl rfl rfl rfl (fun _ _ hmem => Or.inr hmem) rfl rfl
  | send i c =>
    obtain ⟨ev, todo, hi, -, rfl⟩ := step_send hs
    exact h.fanOut hi rfl rfl rfl Hub.offer_rev (fun _ _ hmem => Hub.mem_chan_offer hmem)
      rfl rfl
  | unlock i =>
    obtain ⟨ev, hi, rfl⟩ := step_unlock hs
    exact h.fanOut hi rfl rfl rfl rfl (fun _ _ hmem => Or.inr hmem) rfl rfl
  | accept k =>
    obtain ⟨K, hk, hK, rfl⟩ := step_accept hs
    refine h.move rfl rfl (h.frames_pass hk ?_) h.chans h.marks
    rw [hK]
    exact List.Subset.refl _
  | refuse k =>
    obtain ⟨K, hk, hK, rfl⟩ := step_refuse hs
    refine h.move rfl rfl (h.frames_pass hk ?_) h.chans h.marks
    rw [hK]
    exact List.Subset.refl _
  | register k =>
    obtain ⟨K, hk, hK, -, hcase⟩ := step_register hs
    -- a connection that registers has nothing in hand yet
    have hframes : K.wire ++ [] ⊆ K.wire ++ K.handler.hand := by
      rw [hK]
      exact List.Subset.refl _
    rcases hcase with rfl | ⟨hub, hr, rfl⟩
    · exact h.move rfl rfl (h.frames_pass hk hframes) h.chans h.marks
    · obtain ⟨-, -, -, -, hrev⟩ := Hub.register_some hr
      refine h.move rfl hrev (h.frames_pass hk hframes) ?_ h.marks
      intro c ev hev
      have hsame := Hub.chan_register (h := s.hub) (c := c) K.user
      rw [hr] at hsame
      exact h.chans c ev (hsame ▸ hev)
  | take k =>
    obtain ⟨K, c, ev, rest, hk, hK, hc, rfl⟩ := step_take hs
    have hframes := h.frames K (List.mem_of_getElem? hk)
    refine h.move rfl rfl (h.frames_set ?_) (fun _ _ hmem => h.chans _ _
      (Hub.mem_chan_receive hmem)) h.marks
    intro ev' hev'
    rcases List.mem_append.mp hev' with hwire | hhand
    · exact hframes ev' (List.mem_append_left _ hwire)
    · -- the event was at the head of the channel
      rw [List.mem_singleton.mp hhand]
      exact h.chans c ev (hc ▸ List.mem_cons_self)
  | write k =>
    obtain ⟨K, c, ev, hk, hK, rfl⟩ := step_write hs
    refine h.move rfl rfl (h.frames_pass hk fun ev' hev' => ?_) h.chans h.marks
    rw [hK]
    exact (List.append_nil _).subst hev'
  | leave k =>
    obtain ⟨K, c, hand, hk, hK, rfl⟩ := step_leave hs
    refine h.move rfl rfl (h.frames_pass hk ?_) h.chans h.marks
    rw [hK]
    exact List.Subset.refl _
  | unregister k =>
    obtain ⟨K, c, hand, hk, -, -, rfl⟩ := step_unregister hs
    refine h.move rfl Hub.unregister_rev (h.frames_pass hk fun ev hev => ?_) ?_ h.marks
    · exact List.mem_append_left _ ((List.append_nil _).subst hev)
    · intro d ev hev
      exact h.chans d ev (Hub.chan_unregister ▸ hev)
  | load user random ok =>
    cases hs
    refine h.move rfl rfl h.frames_dial h.chans ?_
    intro T hT
    rcases List.mem_append.mp hT with hold | hnew
    · exact h.marks T hold
    · -- the mark of a tab just loaded is 0
      rw [List.mem_singleton.mp hnew, LiveService.connect_new, LiveService.openSocket_lastRev]
      exact h.counter
  | opened k =>
    obtain ⟨K, hk, rfl⟩ := step_opened hs
    exact h.move rfl rfl (h.frames_pass hk (List.Subset.refl _)) h.chans
      (h.marks_modify fun _ hle => hle)
  | message k =>
    obtain ⟨K, ev, rest, hk, hwire, rfl⟩ := step_message hs
    have hframes := h.frames K (List.mem_of_getElem? hk)
    refine h.move rfl rfl (h.frames_pass hk fun ev' hev' => ?_) h.chans (h.marks_modify ?_)
    · rw [hwire]
      exact List.mem_cons_of_mem _ hev'
    · -- an accepted frame's revision becomes the mark
      intro live hle
      rw [LiveService.onmessage_toJson]
      split
      · exact hle
      · refine (h.revs ev (hframes ev (List.mem_append_left _ ?_))).2
        rw [hwire]
        exact List.mem_cons_self
  | dropped k random =>
    obtain ⟨K, hk, rfl⟩ := step_dropped hs
    refine h.move rfl rfl (h.frames_pass hk (List.Subset.refl _)) h.chans
      (h.marks_modify fun live hle => ?_)
    rwa [LiveService.handleDrop_lastRev]
  | fireBump t handle =>
    obtain ⟨T, ht, rfl⟩ := step_fireBump hs
    exact h.move rfl rfl h.frames h.chans
      (h.marks_set (h.marks T (List.mem_of_getElem? ht)))
  | fireReconnect t handle random ok =>
    obtain ⟨T, ht, -, rfl⟩ := step_fireReconnect hs
    refine h.move rfl rfl h.frames_dial h.chans (h.marks_set ?_)
    -- a new socket starts from the mark 0
    show (LiveService.openSocket _ _ _ _).lastRev ≤ s.hub.rev
    rw [LiveService.openSocket_lastRev]
    exact h.counter
  | fireStable t handle =>
    obtain ⟨T, ht, rfl⟩ := step_fireStable hs
    exact h.move rfl rfl h.frames h.chans
      (h.marks_set (h.marks T (List.mem_of_getElem? ht)))
  | bump t =>
    obtain ⟨T, ht, rfl⟩ := step_bump hs
    exact h.move rfl rfl h.frames h.chans
      (h.marks_set (h.marks T (List.mem_of_getElem? ht)))
  | disconnect t =>
    obtain ⟨T, ht, rfl⟩ := step_disconnect hs
    exact h.move rfl rfl h.frames h.chans
      (h.marks_set (h.marks T (List.mem_of_getElem? ht)))

end Numbering

end Live

end ReleaseRadar
