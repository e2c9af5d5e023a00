import Mathlib.Data.Int.Order.Basic
import ReleaseRadar.Live.Wiring

/-!
# Live updates: when nothing is lost

`CaughtUp`: once every mutation has been broadcast, a tab that is live on a registered
socket, with nothing queued for it and no refetch pending, has refetched since the
last commit. Two steps break it (`updates_missed`). A socket the browser has already
seen open is not yet in the registry, so an event fanned out before `Register` never
reaches it; and an event dropped on a full buffer is made up for only if a queued
frame is not thrown away as stale. Nothing disconnects the client in either case, so
nothing makes it catch up.

`Heard` is the condition that neither happens where it matters, and
`no_update_lost` says that nothing else goes wrong: out-of-order fan-out, stale
frames, reconnects and the debounce included. Each tab is a `Reader` of the
database, woken by revisions (`Tab.reader`); the invariant is `Awaiting`.
-/

namespace ReleaseRadar

open Lib

namespace Live

/-- What the mutation still has to send to client `c`: nothing (`none`), an event whose
revision is not assigned yet (`some none`), or the event of a revision. What a failed mutation
owes its clients stays open. -/
def Mutation.signal (c : Nat) : Mutation → Option (Option Int)
  | committed _ _ _ | failed _ _ _ => some none
  | assigned ev => some (some ev.rev)
  | sending ev todo => if c ∈ todo then some (some ev.rev) else none
  | done _ => none

/-- The end of the mutation's `Broadcast`. -/
def Mutation.isDone : Mutation → Bool
  | done _ => true
  | committed _ _ _ | failed _ _ _ | assigned _ | sending _ _ => false

/-- What the mutations still have to send to client `c`. -/
def unsent (ms : List Mutation) (c : Nat) : List (Option Int) := ms.filterMap (Mutation.signal c)

/-- The tab as a reader of the database that revisions wake. -/
def Tab.reader (T : Tab) : Reader Int := ⟨T.refetched, T.live.BumpPending, T.live.lastRev⟩

namespace Sys

/-- The frames on their way to the socket `K`, whose client is `c`. -/
def queued (s : Sys) (K : Conn) (c : Nat) : List Hub.Event :=
  K.wire ++ K.handler.hand ++ s.hub.chan c

/-- The signals on their way to the socket `K`, whose client is `c`. -/
def onWay (s : Sys) (K : Conn) (c : Nat) : List (Option Int) :=
  (s.queued K c).map (fun ev => some ev.rev) ++ unsent s.mutations c

end Sys

/-- When every mutation has been broadcast, whoever is live on a registered socket, with nothing on
its way and no refetch pending, has refetched since the last commit. -/
def CaughtUp (s : Sys) : Prop :=
  (∀ m ∈ s.mutations, m.isDone) →
    ∀ T ∈ s.tabs, T.live.status = .live →
      ∀ k ∈ T.live.socket, ∀ K ∈ s.conns[k]?, ∀ c ∈ K.handler.client,
        s.queued K c = [] → ¬T.live.BumpPending → s.commits ≤ T.refetched

/-- The condition on a step. A socket is registered only while its tab, if live, has
refetched since the last commit, has a refetch pending, or has a broadcast still to
come; and where a full buffer drops an event, the client's tab, if live on it, has
refetched since the last commit, has a refetch pending, or has another frame to
come that it will not throw away as stale. -/
def Heard (s : Sys) : Action → Prop
  | .register k =>
    ∀ K ∈ s.conns[k]?, s.hub.count K.user < Hub.maxPerUser →
      ∀ T ∈ s.tabs, T.live.status = .live → T.live.socket = some k →
        T.reader.Awaits s.commits (unsent s.mutations s.hub.heap.length)
  | .send i c =>
    s.hub.Full c →
      ∀ T ∈ s.tabs, T.live.status = .live →
        ∀ k ∈ T.live.socket, ∀ K ∈ s.conns[k]?, K.handler.client = some c →
          T.reader.Awaits s.commits
            ((s.queued K c).map (fun ev => some ev.rev) ++ unsent (s.mutations.eraseIdx i) c)
  | _ => True

instance : DecidablePred CaughtUp := fun _ => inferInstanceAs (Decidable (_ → _))

instance (s : Sys) : ∀ a, Decidable (Heard s a)
  | .register _ => inferInstanceAs (Decidable (∀ _ ∈ _, _ → _))
  | .send _ _ => inferInstanceAs (Decidable (_ → _))
  | .wait _ | .commit _ _ _ | .fail _ | .assignRev _ | .lock _ | .unlock _ | .accept _ | .refuse _
  | .take _ | .write _ | .leave _ | .unregister _ | .load _ _ _ | .opened _ | .message _
  | .dropped _ _ | .fireBump _ _ | .fireReconnect _ _ _ _ | .fireStable _ _ | .bump _
  | .disconnect _ => isTrue trivial

/-! ## What the mutations still have to send -/

section Unsent

variable {ms : List Mutation} {m m' : Mutation} {i c : Nat} {σ : Option Int}

theorem mem_unsent_iff :
    σ ∈ unsent ms c ↔ ∃ (i : Nat) (m : Mutation), ms[i]? = some m ∧ m.signal c = some σ :=
  mem_filterMap_getElem?

theorem mem_unsent_set (hi : ms[i]? = some m) (hm : m'.signal c = some σ) :
    σ ∈ unsent (ms.set i m') c :=
  mem_unsent_iff.mpr
    ⟨i, m', List.getElem?_set_self (List.getElem?_eq_some_iff.mp hi).1, hm⟩

/-- A step of one mutation leaves what the others have to send. -/
theorem mem_unsent_cases (hi : ms[i]? = some m) (hσ : σ ∈ unsent ms c) :
    m.signal c = some σ ∨ σ ∈ unsent (ms.set i m') c := by
  obtain ⟨j, n, hj, hn⟩ := mem_unsent_iff.mp hσ
  by_cases hij : i = j
  · rw [← hij, hi] at hj
    cases hj
    exact Or.inl hn
  · exact Or.inr (mem_unsent_iff.mpr ⟨j, n, by rw [List.getElem?_set_ne hij]; exact hj, hn⟩)

theorem unsent_eraseIdx_subset : unsent (ms.eraseIdx i) c ⊆ unsent (ms.set i m') c := by
  intro σ hσ
  rw [unsent, List.mem_filterMap] at hσ
  obtain ⟨n, hmem, hn⟩ := hσ
  obtain ⟨j, hne, hj⟩ := List.mem_eraseIdx_iff_getElem?.mp hmem
  exact mem_unsent_iff.mpr ⟨j, n, by rw [List.getElem?_set_ne hne.symm]; exact hj, hn⟩

end Unsent

/-! ## The invariant -/

/-- Whoever is live on a registered socket is up to date, has a refetch pending, or has a
fresh frame on its way. -/
def Awaiting (s : Sys) : Prop :=
  ∀ (t : Nat) (T : Tab) (k : Nat) (K : Conn) (c : Nat), s.tabs[t]? = some T →
    T.live.status = .live → T.live.socket = some k → s.conns[k]? = some K →
    K.handler.client = some c → T.reader.Awaits s.commits (s.onWay K c)

section Steps

variable {s s' : Sys} {k t c i : Nat} {K K' : Conn} {T T' : Tab} {m m' : Mutation}

theorem mem_onWay {σ : Option Int} :
    σ ∈ s.onWay K c ↔ (∃ ev ∈ s.queued K c, σ = some ev.rev) ∨ σ ∈ unsent s.mutations c := by
  rw [Sys.onWay, List.mem_append, List.mem_map]
  constructor
  · intro h
    rcases h with ⟨ev, hev, rfl⟩ | h
    · exact Or.inl ⟨ev, hev, rfl⟩
    · exact Or.inr h
  · intro h
    rcases h with ⟨ev, hev, rfl⟩ | h
    · exact Or.inl ⟨ev, hev, rfl⟩
    · exact Or.inr h

/-- One mutation takes a step that leaves the queues: what it had to send, if it would be
heeded, it still has. -/
theorem awaits_mutation (h : T.reader.Awaits s.commits (s.onWay K c))
    (hi : s.mutations[i]? = some m) (hmutations : s'.mutations = s.mutations.set i m')
    (hqueued : s.queued K c ⊆ s'.queued K c)
    (hstay : ∀ σ, m.signal c = some σ → T.reader.Fresh σ →
      ∃ σ' ∈ s'.onWay K c, T.reader.Fresh σ') : T.reader.Awaits s'.commits (s'.onWay K c) := by
  have hcommits : s'.commits = s.commits := by
    rw [Sys.commits, hmutations, List.length_set, Sys.commits]
  rw [hcommits]
  refine h.mono fun σ hσ hf => ?_
  rcases mem_onWay.mp hσ with ⟨ev, hev, rfl⟩ | hσ
  · exact ⟨_, mem_onWay.mpr (Or.inl ⟨ev, hqueued hev, rfl⟩), hf⟩
  · have hcases : m.signal c = some σ ∨ σ ∈ unsent (s.mutations.set i m') c :=
      mem_unsent_cases hi hσ
    rcases hcases with hm | hother
    · exact hstay σ hm hf
    · exact ⟨σ, mem_onWay.mpr (Or.inr (hmutations ▸ hother)), hf⟩

/-- What a failed mutation has not sent stays unsent. -/
theorem awaiting_fail {entity id action : String} (hA : Awaiting s)
    (hi : s.mutations[i]? = some (.committed entity id action)) :
    Awaiting { s with mutations := s.mutations.set i (.failed entity id action) } := by
  intro t T k K c ht hlive hk hK hc
  refine awaits_mutation (hA t T k K c ht hlive hk hK hc) hi rfl (List.Subset.refl _) ?_
  intro σ hσ hf
  cases hσ
  exact ⟨none, mem_onWay.mpr (Or.inr (mem_unsent_set hi rfl)), hf⟩

/-- The revision a broadcast takes is above everything a tab has acted on. -/
theorem awaiting_assign {entity id action : String} (hA : Awaiting s) (hN : Numbered s)
    (hi : s.mutations[i]? = some (.committed entity id action)) :
    Awaiting { s with
      hub := { s.hub with rev := s.hub.nextRev }
      mutations := s.mutations.set i (.assigned ⟨entity, id, action, s.hub.nextRev⟩) } := by
  intro t T k K c ht hlive hk hK hc
  refine awaits_mutation (hA t T k K c ht hlive hk hK hc) hi rfl (List.Subset.refl _) ?_
  intro σ _ _
  refine ⟨some s.hub.nextRev, mem_onWay.mpr (Or.inr (mem_unsent_set hi rfl)), ?_⟩
  have := hN.marks T (List.mem_iff_getElem?.mpr ⟨t, ht⟩)
  show T.live.lastRev < s.hub.nextRev
  unfold Hub.nextRev
  omega

/-- The clients a broadcast will send to are all that are registered. -/
theorem awaiting_lock {ev : Hub.Event} (hA : Awaiting s) (hW : Wired s)
    (hi : s.mutations[i]? = some (.assigned ev)) :
    Awaiting { s with
      locked := true
      mutations := s.mutations.set i (.sending ev s.hub.clients) } := by
  intro t T k K c ht hlive hk hK hc
  refine awaits_mutation (hA t T k K c ht hlive hk hK hc) hi rfl (List.Subset.refl _) ?_
  intro σ hσ hf
  have hreg : c ∈ s.hub.clients := hW.registered k c ((clientAt_of (s := s) hK).trans hc)
  cases hσ
  exact ⟨_, mem_onWay.mpr (Or.inr (mem_unsent_set hi (if_pos hreg))), hf⟩

/-- A send: the event is queued, or a full buffer drops it. -/
theorem awaiting_send {ev : Hub.Event} {todo : List Nat} {d : Nat} (hA : Awaiting s)
    (hW : Wired s) (hG : Heard s (.send i d))
    (hi : s.mutations[i]? = some (.sending ev todo)) :
    Awaiting { s with
      hub := s.hub.offer d ev
      mutations := s.mutations.set i (.sending ev (todo.filter fun x => x ≠ d)) } := by
  intro t T k K c ht hlive hk hK hc
  have hold := hA t T k K c ht hlive hk hK hc
  by_cases hdc : d = c
  · subst hdc
    by_cases hfull : s.hub.Full d
    · -- dropped: the condition says what else is on its way
      have hrest := hG hfull T (List.mem_iff_getElem?.mpr ⟨t, ht⟩) hlive k hk K hK hc
      rw [Hub.chan_offer_full hfull]
      have hcommits : Sys.commits { s with
          hub := s.hub
          mutations := s.mutations.set i (.sending ev (todo.filter fun x => x ≠ d)) }
          = s.commits := List.length_set
      rw [hcommits]
      refine hrest.subset fun σ hσ => ?_
      rcases List.mem_append.mp hσ with hqueued | hothers
      · exact List.mem_append_left _ hqueued
      · exact List.mem_append_right _ (unsent_eraseIdx_subset hothers)
    · have hmade : d < s.hub.heap.length :=
        hW.made d (hW.registered k d ((clientAt_of (s := s) hK).trans hc))
      have hchan : (s.hub.offer d ev).chan d = s.hub.chan d ++ [ev] :=
        Hub.chan_offer_self hmade hfull
      refine awaits_mutation hold hi rfl ?_ ?_
      · intro e he
        rcases List.mem_append.mp he with hleft | hright
        · exact List.mem_append_left _ hleft
        · refine List.mem_append_right _ ?_
          show e ∈ (s.hub.offer d ev).chan d
          rw [hchan]
          exact List.mem_append_left _ hright
      · intro σ hσ hf
        rw [Mutation.signal] at hσ
        split at hσ
        · cases hσ
          refine ⟨_, mem_onWay.mpr (Or.inl ⟨ev, List.mem_append_right _ ?_, rfl⟩), hf⟩
          show ev ∈ (s.hub.offer d ev).chan d
          rw [hchan]
          exact List.mem_append_right _ (List.mem_singleton.mpr rfl)
        · cases hσ
  · refine awaits_mutation hold hi rfl ?_ ?_
    · intro e he
      show e ∈ _ ++ (s.hub.offer d ev).chan c
      rw [Hub.chan_offer_ne hdc]
      exact he
    · intro σ hσ hf
      rw [Mutation.signal] at hσ
      split at hσ
      · next hmem =>
        refine ⟨σ, mem_onWay.mpr (Or.inr (mem_unsent_set hi ?_)), hf⟩
        rw [Mutation.signal, if_pos (List.mem_filter.mpr ⟨hmem, by simpa using Ne.symm hdc⟩)]
        exact hσ
      · cases hσ

theorem awaiting_unlock {ev : Hub.Event} (hA : Awaiting s)
    (hi : s.mutations[i]? = some (.sending ev [])) :
    Awaiting { s with locked := false, mutations := s.mutations.set i (.done ev) } := by
  intro t T k K c ht hlive hk hK hc
  refine awaits_mutation (hA t T k K c ht hlive hk hK hc) hi rfl (List.Subset.refl _) ?_
  intro σ hσ _
  cases hσ

/-- A step of the handler of socket `k`: its own queue keeps its frames or is let go,
and no other client's channel changes. -/
theorem awaiting_handler (hA : Awaiting s) (hk : s.conns[k]? = some K)
    (hconns : s'.conns = s.conns.set k K') (htabs : s'.tabs = s.tabs)
    (hmutations : s'.mutations = s.mutations)
    (hother : ∀ j J c, j ≠ k → s.conns[j]? = some J → J.handler.client = some c →
      s'.hub.chan c = s.hub.chan c)
    (hself : ∀ T ∈ s.tabs, T.live.status = .live → T.live.socket = some k →
      ∀ c, K'.handler.client = some c →
        (K.handler.client = some c → T.reader.Awaits s.commits (s.onWay K c)) →
        T.reader.Awaits s.commits (s'.onWay K' c)) : Awaiting s' := by
  intro t T j J c ht hlive hj hJ hc
  rw [htabs] at ht
  rw [show s'.commits = s.commits by rw [Sys.commits, hmutations, Sys.commits]]
  rw [hconns] at hJ
  rcases of_getElem?_set hJ with ⟨rfl, rfl⟩ | ⟨hne, hold⟩
  · exact hself T (List.mem_iff_getElem?.mpr ⟨t, ht⟩) hlive hj c hc
      fun hcK => hA t T k K c ht hlive hj hk hcK
  · have hsame : s'.onWay J c = s.onWay J c := by
      rw [Sys.onWay, Sys.queued, hother j J c (Ne.symm hne) hold hc, hmutations, Sys.onWay,
        Sys.queued]
    rw [hsame]
    exact hA t T j J c ht hlive hj hold hc

/-- A frame of the hub is received as its revision. -/
theorem reader_onmessage (now : Rat) (T : Tab) (ev : Hub.Event) :
    Tab.reader { T with live := LiveService.onmessage now (some ev.toJson) T.live } =
      T.reader.receive ev.rev := by
  rw [LiveService.onmessage_toJson, Reader.receive]
  by_cases hle : ev.rev ≤ T.live.lastRev
  · rw [if_pos hle, if_pos (show ev.rev ≤ T.reader.mark from hle)]
  · rw [if_neg hle, if_neg (show ¬ev.rev ≤ T.reader.mark from hle), Tab.reader,
      decide_eq_true LiveService.scheduleBump_pending]
    rfl

/-- A callback of the socket `k` runs in its tab, and its connection keeps its frames: the
callback keeps the tab as a reader, or arms it, or gives the socket up. -/
theorem awaiting_browser {f : LiveService → LiveService} (hA : Awaiting s)
    (hk : s.conns[k]? = some K) (hconns : s'.conns = s.conns.set k K')
    (htabs : s'.tabs = s.tabs.modify K.tab (Tab.on k f)) (hmutations : s'.mutations = s.mutations)
    (hhub : s'.hub = s.hub) (hwire : K'.wire = K.wire) (hhandler : K'.handler = K.handler)
    (hf : ∀ live : LiveService, (f live).BumpPending ∨ (f live).socket = none) :
    Awaiting s' := by
  intro t T' j J c ht hlive hj hJ hc
  rw [show s'.commits = s.commits by rw [Sys.commits, hmutations, Sys.commits]]
  -- the connection is one of before, up to what the browser makes of it
  have hbefore : ∃ J₀, s.conns[j]? = some J₀ ∧ J₀.handler.client = some c ∧
      s'.onWay J c = s.onWay J₀ c := by
    rw [hconns] at hJ
    rcases of_getElem?_set hJ with ⟨rfl, rfl⟩ | ⟨-, hold⟩
    · refine ⟨K, hk, hhandler ▸ hc, ?_⟩
      rw [Sys.onWay, Sys.queued, hwire, hhandler, hhub, hmutations, Sys.onWay, Sys.queued]
    · refine ⟨J, hold, hc, ?_⟩
      rw [Sys.onWay, Sys.queued, hhub, hmutations, Sys.onWay, Sys.queued]
  obtain ⟨J₀, hJ₀, hc₀, hsame⟩ := hbefore
  rw [hsame]
  rw [htabs] at ht
  obtain ⟨T, hT, ⟨-, rfl⟩ | ⟨-, rfl⟩⟩ := of_getElem?_modify ht
  · rcases Tab.on_cases k f T with ⟨-, heq⟩ | ⟨-, heq⟩
    · rw [heq] at hlive hj ⊢
      exact hA t T j J₀ c hT hlive hj hJ₀ hc₀
    · rw [heq] at hj ⊢
      rcases hf T.live with harmed | hnone
      · exact Reader.awaits_of_armed (decide_eq_true harmed)
      · rw [hnone] at hj
        cases hj
  · exact hA t T' j J₀ c hT hlive hj hJ₀ hc₀

/-- A callback of a tab: the new tab is covered on the connection it was on. -/
theorem awaiting_callback (hA : Awaiting s) (htabs : s'.tabs = s.tabs.set t T')
    (hconns : s'.conns = s.conns) (hmutations : s'.mutations = s.mutations)
    (hhub : s'.hub = s.hub)
    (hT' : T'.live.status = .live → ∀ k K c, T'.live.socket = some k →
      s.conns[k]? = some K → K.handler.client = some c →
        T'.reader.Awaits s.commits (s.onWay K c)) : Awaiting s' := by
  intro t₁ T₁ k K c ht hlive hk hK hc
  rw [show s'.commits = s.commits by rw [Sys.commits, hmutations, Sys.commits],
    show s'.onWay K c = s.onWay K c by
      rw [Sys.onWay, Sys.queued, hhub, hmutations, Sys.onWay, Sys.queued]]
  rw [htabs] at ht
  rw [hconns] at hK
  rcases of_getElem?_set ht with ⟨rfl, rfl⟩ | ⟨-, hold⟩
  · exact hT' hlive k K c hk hK hc
  · exact hA t₁ T₁ k K c hold hlive hk hK hc

/-- A socket is opened: nobody is registered on it yet. -/
theorem awaiting_dial {ok : Bool} {user : String} (hA : Awaiting s)
    (hconns : s'.conns = s.dial ok t user) (hmutations : s'.mutations = s.mutations)
    (hhub : s'.hub = s.hub)
    (htabs : ∀ (t' : Nat) (T' : Tab), s'.tabs[t']? = some T' →
      s.tabs[t']? = some T' ∨ T'.live.socket = s.made ok) : Awaiting s' := by
  intro t' T' k K c ht hlive hk hK hc
  rw [show s'.commits = s.commits by rw [Sys.commits, hmutations, Sys.commits],
    show s'.onWay K c = s.onWay K c by
      rw [Sys.onWay, Sys.queued, hhub, hmutations, Sys.onWay, Sys.queued]]
  rw [hconns] at hK
  rcases of_getElem?_dial hK with hold | ⟨-, -, rfl⟩
  · rcases htabs t' T' ht with hT | hsocket
    · exact hA t' T' k K c hT hlive hk hold hc
    · -- the factory's socket is not among the connections before
      have hlt := (List.getElem?_eq_some_iff.mp hold).1
      rw [hsocket, Sys.made] at hk
      split at hk
      · cases hk
        exact absurd hlt (Nat.lt_irrefl _)
      · cases hk
  · cases hc

/-- A frame arrives: whoever holds the socket acts on it or finds it stale. -/
theorem awaiting_message {ev : Hub.Event} {rest : List Hub.Event} (hA : Awaiting s)
    (hW : Wired s) (hk : s.conns[k]? = some K) (hwire : K.wire = ev :: rest) :
    Awaiting { s with
      conns := s.conns.set k { K with wire := rest }
      tabs := s.tabs.modify K.tab
        (Tab.on k (LiveService.onmessage s.now (some ev.toJson))) } := by
  intro t T' j J c ht hlive hj hJ hc
  obtain ⟨T, hT, hcase⟩ := of_getElem?_modify ht
  -- the tab as a reader, its socket and its status
  have htab : T'.live.status = T.live.status ∧ T'.live.socket = T.live.socket ∧
      (T'.reader = T.reader ∧ (K.tab ≠ t ∨ k ∉ T.live.attached) ∨
        T'.reader = T.reader.receive ev.rev) := by
    rcases hcase with ⟨hKt, rfl⟩ | ⟨hne, rfl⟩
    · rcases Tab.on_cases k (LiveService.onmessage s.now (some ev.toJson)) T with
        ⟨hnot, heq⟩ | ⟨-, heq⟩
      · rw [heq]
        exact ⟨rfl, rfl, Or.inl ⟨rfl, Or.inr hnot⟩⟩
      · rw [heq]
        have hreader := reader_onmessage s.now T ev
        rw [LiveService.onmessage_toJson] at hreader ⊢
        by_cases hle : ev.rev ≤ T.live.lastRev
        · rw [if_pos hle] at hreader ⊢
          exact ⟨rfl, rfl, Or.inr hreader⟩
        · rw [if_neg hle] at hreader ⊢
          exact ⟨rfl, rfl, Or.inr hreader⟩
    · exact ⟨rfl, rfl, Or.inl ⟨rfl, Or.inl hne⟩⟩
  obtain ⟨hstatus, hsocket, hreader⟩ := htab
  rw [hstatus] at hlive
  rw [hsocket] at hj
  rcases of_getElem?_set hJ with ⟨rfl, rfl⟩ | ⟨-, hold⟩
  · have hbefore := hA t T k K c hT hlive hj hk hc
    obtain ⟨hattached, htabAt⟩ := hW.socket t T k hT hj
    rw [tabAt_of hk] at htabAt
    rcases hreader with ⟨-, hnot | hnot⟩ | hreceived
    · exact absurd (Option.some.inj htabAt) hnot
    · exact absurd hattached hnot
    · rw [hreceived]
      refine hbefore.receive fun σ hσ => ?_
      rcases mem_onWay.mp hσ with ⟨e, he, rfl⟩ | hunsent
      · rw [Sys.queued, hwire] at he
        rcases List.mem_cons.mp he with rfl | he
        · exact Or.inl rfl
        · exact Or.inr (mem_onWay.mpr (Or.inl ⟨e, he, rfl⟩))
      · exact Or.inr (mem_onWay.mpr (Or.inr hunsent))
  · have hbefore := hA t T j J c hT hlive hj hold hc
    rcases hreader with ⟨hsame, -⟩ | hreceived
    · rw [hsame]
      exact hbefore
    · rw [hreceived]
      exact hbefore.receive fun σ hσ => Or.inr hσ

theorem awaiting_step {a : Action} (hA : Awaiting s) (hW : Wired s) (hN : Numbered s)
    (hG : Heard s a) (hs : step s a = some s') : Awaiting s' := by
  cases a with
  | wait d =>
    simp only [step] at hs
    split at hs
    · cases hs
      exact hA
    · cases hs
  | commit entity id action =>
    cases hs
    intro t T k K c _ _ _ _ _
    -- the new mutation has yet to broadcast
    refine Reader.awaits_of_published (mem_onWay.mpr (Or.inr (mem_unsent_iff.mpr ?_)))
    exact ⟨s.mutations.length, _, List.getElem?_concat_length, rfl⟩
  | fail i =>
    obtain ⟨entity, id, action, hi, rfl⟩ := step_fail hs
    exact awaiting_fail hA hi
  | assignRev i =>
    obtain ⟨entity, id, action, hi, rfl⟩ := step_assignRev hs
    exact awaiting_assign hA hN hi
  | lock i =>
    obtain ⟨ev, hi, -, rfl⟩ := step_lock hs
    exact awaiting_lock hA hW hi
  | send i c =>
    obtain ⟨ev, todo, hi, -, rfl⟩ := step_send hs
    exact awaiting_send hA hW hG hi
  | unlock i =>
    obtain ⟨ev, hi, rfl⟩ := step_unlock hs
    exact awaiting_unlock hA hi
  | accept k =>
    obtain ⟨K, hk, -, rfl⟩ := step_accept hs
    exact awaiting_handler hA hk rfl rfl rfl (fun _ _ _ _ _ _ => rfl)
      fun T _ _ _ c hc _ => by cases hc
  | refuse k =>
    obtain ⟨K, hk, -, rfl⟩ := step_refuse hs
    exact awaiting_handler hA hk rfl rfl rfl (fun _ _ _ _ _ _ => rfl)
      fun T _ _ _ c hc _ => by cases hc
  | register k =>
    obtain ⟨K, hk, -, -, rfl | ⟨hub, hr, rfl⟩⟩ := step_register hs
    · exact awaiting_handler hA hk rfl rfl rfl (fun _ _ _ _ _ _ => rfl)
        fun T _ _ _ c hc _ => by cases hc
    · have hchan : ∀ c, hub.chan c = s.hub.chan c := by
        intro c
        have hsame := Hub.chan_register (h := s.hub) (c := c) K.user
        rwa [hr] at hsame
      refine awaiting_handler hA hk rfl rfl rfl (fun _ _ c _ _ _ => hchan c) ?_
      intro T hT hlive hsocket c hc _
      -- the condition covers the socket the browser has already seen open
      cases hc
      have hcap := (Hub.register_some hr).1
      refine (hG K hk hcap T hT hlive hsocket).subset fun σ hσ => ?_
      exact mem_onWay.mpr (Or.inr hσ)
  | take k =>
    obtain ⟨K, c, ev, rest, hk, hK, hc, rfl⟩ := step_take hs
    have hmine : s.clientAt k = some c := by
      rw [clientAt_of hk, hK]
      rfl
    refine awaiting_handler hA hk rfl rfl rfl ?_ ?_
    · intro j J d hne hJ hd
      refine Hub.chan_receive_ne fun he => hne ?_
      exact hW.single j k c ((clientAt_of hJ).trans (he ▸ hd)) hmine
    · intro T _ _ _ d hd hbefore
      cases hd
      refine (hbefore (by rw [hK]; rfl)).subset fun σ hσ => ?_
      rcases mem_onWay.mp hσ with ⟨e, he, rfl⟩ | hunsent
      · refine mem_onWay.mpr (Or.inl ⟨e, ?_, rfl⟩)
        rw [Sys.queued, hK, hc] at he
        show e ∈ K.wire ++ [ev] ++ (s.hub.receive c).chan c
        rw [Hub.chan_receive_self, hc]
        simpa [Handler.hand] using he
      · exact mem_onWay.mpr (Or.inr hunsent)
  | write k =>
    obtain ⟨K, c, ev, hk, hK, rfl⟩ := step_write hs
    refine awaiting_handler hA hk rfl rfl rfl (fun _ _ _ _ _ _ => rfl) ?_
    intro T _ _ _ d hd hbefore
    cases hd
    refine (hbefore (by rw [hK]; rfl)).subset fun σ hσ => ?_
    rcases mem_onWay.mp hσ with ⟨e, he, rfl⟩ | hunsent
    · refine mem_onWay.mpr (Or.inl ⟨e, ?_, rfl⟩)
      rw [Sys.queued, hK] at he
      simpa [Sys.queued, Handler.hand] using he
    · exact mem_onWay.mpr (Or.inr hunsent)
  | leave k =>
    obtain ⟨K, c, hand, hk, hK, rfl⟩ := step_leave hs
    refine awaiting_handler hA hk rfl rfl rfl (fun _ _ _ _ _ _ => rfl) ?_
    intro T _ _ _ d hd hbefore
    have hsame : s.onWay { K with handler := .closing c hand } d = s.onWay K d := by
      rw [Sys.onWay, Sys.queued, Sys.onWay, Sys.queued, hK]
      rfl
    show T.reader.Awaits s.commits (s.onWay { K with handler := .closing c hand } d)
    rw [hsame]
    exact hbefore (by rw [hK]; exact hd)
  | unregister k =>
    obtain ⟨K, c, hand, hk, hK, -, rfl⟩ := step_unregister hs
    exact awaiting_handler hA hk rfl rfl rfl (fun _ _ _ _ _ _ => Hub.chan_unregister)
      fun T _ _ _ c hc _ => by cases hc
  | load user random ok =>
    cases hs
    refine awaiting_dial hA rfl rfl rfl fun t' T' ht => ?_
    rcases of_getElem?_concat ht with hT | ⟨-, rfl⟩
    · exact Or.inl hT
    · rw [LiveService.connect_new]
      exact Or.inr (opened_socket rfl rfl Timer.single_new).2.1
  | opened k =>
    obtain ⟨K, hk, rfl⟩ := step_opened hs
    exact awaiting_browser hA hk rfl rfl rfl rfl rfl rfl
      fun live => Or.inl LiveService.onopen_pending
  | message k =>
    obtain ⟨K, ev, rest, hk, hwire, rfl⟩ := step_message hs
    exact awaiting_message hA hW hk hwire
  | dropped k random =>
    obtain ⟨K, hk, rfl⟩ := step_dropped hs
    exact awaiting_browser hA hk rfl rfl rfl rfl rfl rfl
      fun live => Or.inr LiveService.handleDrop_socket
  | fireBump t handle =>
    obtain ⟨T, ht, rfl⟩ := step_fireBump hs
    exact awaiting_callback hA rfl rfl rfl rfl
      fun _ k K c _ _ _ => Reader.awaits_of_read (Nat.le_refl _)
  | fireReconnect t handle random ok =>
    obtain ⟨T, ht, hdue, rfl⟩ := step_fireReconnect hs
    refine awaiting_dial hA rfl rfl rfl fun t' T' ht' => ?_
    rcases of_getElem?_set ht' with ⟨rfl, rfl⟩ | ⟨-, hT⟩
    · exact Or.inr (reconnected_socket (hW.waiting _ T ht) hdue).2.1
    · exact Or.inl hT
  | fireStable t handle =>
    obtain ⟨T, ht, rfl⟩ := step_fireStable hs
    exact awaiting_callback hA rfl rfl rfl rfl
      fun hlive k K c hk hK hc => hA t T k K c ht hlive hk hK hc
  | bump t =>
    obtain ⟨T, ht, rfl⟩ := step_bump hs
    exact awaiting_callback hA rfl rfl rfl rfl
      fun _ k K c _ _ _ => Reader.awaits_of_read (Nat.le_refl _)
  | disconnect t =>
    obtain ⟨T, ht, rfl⟩ := step_disconnect hs
    refine awaiting_callback hA rfl rfl rfl rfl fun hlive => ?_
    cases hlive

end Steps

/-- What holds in every state a run along `Heard` reaches. -/
structure LiveInv (s : Sys) : Prop where
  wired : Wired s
  numbered : Numbered s
  awaiting : Awaiting s

theorem liveInv_step {s s' : Sys} {a : Action} (h : LiveInv s) (hG : Heard s a)
    (hs : step s a = some s') : LiveInv s' where
  wired := wired_step h.wired hs
  numbered := numbered_step h.numbered hs
  awaiting := awaiting_step h.awaiting h.wired h.numbered hG hs

theorem liveInv_start : LiveInv start where
  wired := wired_start
  numbered := numbered_start
  awaiting t T k K c ht _ _ _ _ := by cases ht

/-- Nothing on the way and nothing pending: the tab has caught up. -/
theorem caughtUp_of_awaiting {s : Sys} (h : Awaiting s) : CaughtUp s := by
  intro hdone T hT hlive k hk K hK c hc hqueued hbump
  obtain ⟨t, ht⟩ := List.mem_iff_getElem?.mp hT
  have hunsent : unsent s.mutations c = [] := by
    refine List.eq_nil_iff_forall_not_mem.mpr fun σ hσ => ?_
    obtain ⟨i, m, hi, hm⟩ := mem_unsent_iff.mp hσ
    have hfinished := hdone m (List.mem_iff_getElem?.mpr ⟨i, hi⟩)
    cases m with
    | done ev => cases hm
    | committed entity id action => cases hfinished
    | failed entity id action => cases hfinished
    | assigned ev => cases hfinished
    | sending ev todo => cases hfinished
  have hawaits := h t T k K c ht hlive hk hK hc
  rw [Sys.onWay, hqueued, hunsent] at hawaits
  exact hawaits.current (decide_eq_false hbump)

/-- **No update is lost** along a run that meets `Heard`: whenever every mutation has been
broadcast, each tab that is live on a registered socket, with no frame on its way and no refetch
pending, has refetched since the last commit. -/
theorem no_update_lost {as : List Action} {s : Sys} (hG : system.Along Heard start as)
    (he : system.exec start as = some s) : CaughtUp s :=
  caughtUp_of_awaiting
    (system.exec_invariant_along (fun _ _ _ h hg hs => liveInv_step h hg hs) liveInv_start hG
      he).awaiting

/-- A tab opens its socket while a mutation is broadcast to nobody, registers with the
refetch still pending, and is told of the next mutation. -/
def told : List Action :=
  [.load "ann" 0 true, .accept 0, .opened 0,
    .commit "rollout" "r1" "create", .assignRev 0, .lock 0, .unlock 0,
    .register 0, .wait 150, .fireBump 0 0,
    .commit "lock" "l1" "update", .assignRev 1, .lock 1, .send 1 0, .unlock 1,
    .take 0, .write 0, .message 0, .wait 150, .fireBump 0 1]

theorem no_update_lost_told : ∃ s, system.exec start told = some s ∧ CaughtUp s := by
  have hruns : ∃ s, system.exec start told = some s ∧ s.commits = 2 := by decide +kernel
  obtain ⟨s, he, -⟩ := hruns
  exact ⟨s, he, no_update_lost (by decide +kernel) he⟩

/-- The browser sees the socket open and refetches; a mutation commits and is broadcast;
only then does the handler register. -/
def lateRegister : List Action :=
  [.load "ann" 0 true, .accept 0, .opened 0, .wait 150, .fireBump 0 0,
    .commit "rollout" "r1" "update", .assignRev 0, .lock 0, .unlock 0, .register 0]

/-- The locked half of a `Broadcast`, with client 0 registered. -/
def fanOut (i : Nat) : List Action := [.lock i, .send i 0, .unlock i]

/-- A frame goes from the channel to the browser. -/
def deliver : List Action := [.take 0, .write 0, .message 0]

/-- Of 33 broadcasts the last to take its revision is the first to take the mutex; its
frame is delivered and the tab refetches. The other 32 fill the buffer with frames
that are now stale, and the event of one more mutation is dropped behind them. -/
def droppedBehindStale : List Action :=
  [Action.load "ann" 0 true, .accept 0, .opened 0, .register 0]
    ++ List.replicate 33 (Action.commit "rollout" "r1" "update")
    ++ (List.range 33).map Action.assignRev
    ++ fanOut 32 ++ deliver ++ [Action.wait 150, .fireBump 0 1]
    ++ (List.range 32).flatMap fanOut
    ++ [Action.commit "rollout" "r1" "update", .assignRev 33] ++ fanOut 33
    ++ (List.replicate 32 deliver).flatten

/-- Both kinds of loss. -/
theorem updates_missed :
    (∃ s, system.exec start lateRegister = some s ∧ ¬CaughtUp s) ∧
      ∃ s, system.exec start droppedBehindStale = some s ∧ ¬CaughtUp s := by
  constructor <;> decide +kernel

end Live

end ReleaseRadar
