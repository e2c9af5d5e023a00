import ReleaseRadar.Live.NoUpdateLost

/-!
# Throwing stale frames away is safe

`onmessage` ignores a frame whose revision is not above `lastRev`, and frames do
arrive out of order: a broadcast takes its revision before the mutex. The mutation
of an ignored frame is nevertheless seen. Its revision is at most the last one the
tab acted on, revisions are taken after commits, so the bump scheduled then was
scheduled after the mutation had committed; it is still pending, or it has fired
since (`stale_frame_seen`).

The invariant (`Heeded`) says this of every revision up to `lastRev`, received or not.
-/

namespace ReleaseRadar

open Lib

namespace Live

/-- The event is the `i`-th mutation's. -/
def Sys.Carries (s : Sys) (i : Nat) (ev : Hub.Event) : Prop :=
  ∃ m ∈ s.mutations[i]?, m.event = some ev

/-- The tab will refetch, or has refetched since the `i`-th commit. -/
def Tab.Sees (T : Tab) (i : Nat) : Prop := T.live.BumpPending ∨ i < T.refetched

/-- The tab sees every mutation whose revision is at most its `lastRev`, until it is
disconnected. -/
def Tab.Heeds (s : Sys) (T : Tab) : Prop :=
  T.live.stopped = false → ∀ i ev, s.Carries i ev → ev.rev ≤ T.live.lastRev → T.Sees i

def Heeded (s : Sys) : Prop := ∀ T ∈ s.tabs, T.Heeds s

section Steps

variable {s s' : Sys} {k t i : Nat} {K K' : Conn} {T T' : Tab} {m m' : Mutation}

/-- What is carried has been numbered. -/
theorem Sys.Carries.mem_events {ev : Hub.Event} (h : s.Carries i ev) : ev ∈ s.events := by
  obtain ⟨m, hi, hm⟩ := h
  exact Live.mem_events.mpr ⟨i, m, hi, hm⟩

/-- A step of a broadcast that has its revision changes nobody's event. -/
theorem carries_set {j : Nat} {ev : Hub.Event} (hi : s.mutations[i]? = some m)
    (h : s'.Carries j ev) (hmutations : s'.mutations = s.mutations.set i m')
    (hm : m'.event = m.event) : s.Carries j ev := by
  obtain ⟨n, hj, hn⟩ := h
  rw [hmutations] at hj
  rcases of_getElem?_set hj with ⟨rfl, rfl⟩ | ⟨-, hold⟩
  · exact ⟨m, hi, hm ▸ hn⟩
  · exact ⟨n, hold, hn⟩

/-- The tab is as much a reader as it was: its mark is no higher, and what was pending or
read still is. -/
structure Keeps (T T' : Tab) : Prop where
  stopped : T'.live.stopped = T.live.stopped
  mark : T'.live.lastRev ≤ T.live.lastRev
  bump : T'.live.bumpTimer = T.live.bumpTimer
  refetched : T'.refetched = T.refetched

/-- A tab that has seen no less heeds what it did. -/
theorem Keeps.heeds (h : Keeps T T') (hT : T.Heeds s) : T'.Heeds s := by
  intro hrunning i ev hcarries hle
  have hsees := hT (h.stopped ▸ hrunning) i ev hcarries (Int.le_trans hle h.mark)
  unfold Tab.Sees LiveService.BumpPending at hsees ⊢
  rwa [h.bump, h.refetched]

/-- A pending bump covers whatever has committed. -/
theorem heeds_of_pending (h : T.live.BumpPending) : T.Heeds s :=
  fun _ _ _ _ _ => Or.inl h

/-- A refetch covers whatever has committed. -/
theorem heeds_of_refetched (h : T.refetched = s.commits) : T.Heeds s := by
  intro _ i ev ⟨m, hi, _⟩ _
  have hlt := (List.getElem?_eq_some_iff.mp hi).1
  refine Or.inr ?_
  rw [h]
  exact hlt

/-- A fresh socket has acted on nothing. -/
theorem heeds_of_fresh (hN : Numbered s) (h : T.live.lastRev = 0) : T.Heeds s := by
  intro _ i ev hcarries hle
  have := (hN.revs ev hcarries.mem_events).1
  omega

/-- The mutations' events are as they were. -/
theorem Heeded.tabs (hmutations : s'.mutations = s.mutations)
    (h : ∀ T' ∈ s'.tabs, T'.Heeds s) : Heeded s' := by
  intro T' hT' hrunning i ev hcarries hle
  refine h T' hT' hrunning i ev ?_ hle
  rwa [Sys.Carries, hmutations] at hcarries

theorem Heeded.set (h : Heeded s) (hT' : T'.Heeds s) :
    ∀ T ∈ s.tabs.set t T', T.Heeds s := by
  intro T₁ hT₁
  rcases List.mem_or_eq_of_mem_set hT₁ with hold | rfl
  · exact h T₁ hold
  · exact hT'

theorem Heeded.modify {f : LiveService → LiveService} (h : Heeded s)
    (hf : ∀ T ∈ s.tabs, T.Heeds s → Tab.Heeds s { T with live := f T.live }) :
    ∀ T ∈ s.tabs.modify t (Tab.on k f), T.Heeds s := by
  intro T' hT'
  obtain ⟨j, hj⟩ := List.mem_iff_getElem?.mp hT'
  obtain ⟨T, hT, hcase⟩ := of_getElem?_modify hj
  have hmem := List.mem_iff_getElem?.mpr ⟨j, hT⟩
  rcases hcase with ⟨-, rfl⟩ | ⟨-, rfl⟩
  · rcases Tab.on_cases k f T with ⟨-, heq⟩ | ⟨-, heq⟩
    · rw [heq]
      exact h T hmem
    · rw [heq]
      exact hf T hmem (h T hmem)
  · exact h T' hmem

/-- Every step keeps what the tabs have heeded. -/
theorem heeded_step {a : Action} (h : Heeded s) (hN : Numbered s) (hs : step s a = some s') :
    Heeded s' := by
  cases a with
  | wait d =>
    simp only [step] at hs
    split at hs
    · cases hs
      exact h
    · cases hs
  | commit entity id action =>
    cases hs
    rintro T hT hrunning i ev ⟨m, hi, hm⟩ hle
    -- the new mutation has no event yet
    rcases of_getElem?_concat hi with hold | ⟨-, rfl⟩
    · exact h T hT hrunning i ev ⟨m, hold, hm⟩ hle
    · cases hm
  | fail i =>
    obtain ⟨entity, id, action, hi, rfl⟩ := step_fail hs
    intro T hT hrunning j e hcarries hle
    exact h T hT hrunning j e (carries_set hi hcarries rfl rfl) hle
  | assignRev i =>
    obtain ⟨entity, id, action, hi, rfl⟩ := step_assignRev hs
    rintro T hT hrunning j ev ⟨m, hj, hm⟩ hle
    rcases of_getElem?_set hj with ⟨-, rfl⟩ | ⟨-, hold⟩
    · -- the revision taken is above what any tab has acted on
      cases hm
      have := hN.marks T hT
      have hup : s.hub.rev < s.hub.nextRev := by
        unfold Hub.nextRev
        omega
      have hle' : s.hub.nextRev ≤ T.live.lastRev := hle
      omega
    · exact h T hT hrunning j ev ⟨m, hold, hm⟩ hle
  | lock i =>
    obtain ⟨ev, hi, -, rfl⟩ := step_lock hs
    intro T hT hrunning j e hcarries hle
    exact h T hT hrunning j e (carries_set hi hcarries rfl rfl) hle
  | send i c =>
    obtain ⟨ev, todo, hi, -, rfl⟩ := step_send hs
    intro T hT hrunning j e hcarries hle
    exact h T hT hrunning j e (carries_set hi hcarries rfl rfl) hle
  | unlock i =>
    obtain ⟨ev, hi, rfl⟩ := step_unlock hs
    intro T hT hrunning j e hcarries hle
    exact h T hT hrunning j e (carries_set hi hcarries rfl rfl) hle
  | accept k =>
    obtain ⟨K, -, -, rfl⟩ := step_accept hs
    exact h
  | refuse k =>
    obtain ⟨K, -, -, rfl⟩ := step_refuse hs
    exact h
  | register k =>
    obtain ⟨K, -, -, -, rfl | ⟨hub, -, rfl⟩⟩ := step_register hs
    · exact h
    · exact h
  | take k =>
    obtain ⟨K, c, ev, rest, -, -, -, rfl⟩ := step_take hs
    exact h
  | write k =>
    obtain ⟨K, c, ev, -, -, rfl⟩ := step_write hs
    exact h
  | leave k =>
    obtain ⟨K, c, hand, -, -, rfl⟩ := step_leave hs
    exact h
  | unregister k =>
    obtain ⟨K, c, hand, -, -, -, rfl⟩ := step_unregister hs
    exact h
  | load user random ok =>
    cases hs
    refine Heeded.tabs (s := s) rfl fun T hT => ?_
    rcases List.mem_append.mp hT with hold | hnew
    · exact h T hold
    · rw [List.mem_singleton.mp hnew, LiveService.connect_new]
      exact heeds_of_fresh hN LiveService.openSocket_lastRev
  | opened k =>
    obtain ⟨K, -, rfl⟩ := step_opened hs
    exact Heeded.tabs (s := s) rfl
      (h.modify fun T _ _ => heeds_of_pending LiveService.onopen_pending)
  | message k =>
    obtain ⟨K, ev, rest, -, -, rfl⟩ := step_message hs
    refine Heeded.tabs (s := s) rfl (h.modify fun T _ hT => ?_)
    rw [LiveService.onmessage_toJson]
    split
    · exact hT
    · exact heeds_of_pending LiveService.scheduleBump_pending
  | dropped k random =>
    obtain ⟨K, -, rfl⟩ := step_dropped hs
    refine Heeded.tabs (s := s) rfl (h.modify fun T _ hT => ?_)
    obtain ⟨_, _, _, hdrop⟩ := LiveService.handleDrop_only s.now random T.live
    rw [hdrop]
    exact Keeps.heeds ⟨rfl, Int.le_refl _, rfl, rfl⟩ hT
  | fireBump t handle =>
    obtain ⟨T, -, rfl⟩ := step_fireBump hs
    exact Heeded.tabs (s := s) rfl (h.set (heeds_of_refetched rfl))
  | fireReconnect t handle random ok =>
    obtain ⟨T, -, -, rfl⟩ := step_fireReconnect hs
    exact Heeded.tabs (s := s) rfl (h.set (heeds_of_fresh hN LiveService.openSocket_lastRev))
  | fireStable t handle =>
    obtain ⟨T, ht, rfl⟩ := step_fireStable hs
    exact Heeded.tabs (s := s) rfl (h.set (Keeps.heeds ⟨rfl, Int.le_refl _, rfl, rfl⟩
      (h T (List.mem_iff_getElem?.mpr ⟨t, ht⟩))))
  | bump t =>
    obtain ⟨T, -, rfl⟩ := step_bump hs
    exact Heeded.tabs (s := s) rfl (h.set (heeds_of_refetched rfl))
  | disconnect t =>
    obtain ⟨T, -, rfl⟩ := step_disconnect hs
    refine Heeded.tabs (s := s) rfl (h.set fun hrunning => ?_)
    cases hrunning

end Steps

/-- At the start there is no tab. -/
theorem heeded_start : Heeded start := fun _ hT => absurd hT List.not_mem_nil

/-- **Ignoring stale frames is safe**: when a tab that has not been disconnected gets a
frame it throws away, the frame is some mutation's, and whichever mutation has its
event, the tab's bump is pending or has fired since that mutation committed. -/
theorem stale_frame_seen {as : List Action} {s : Sys} (he : system.exec start as = some s)
    {k : Nat} {K : Conn} {T : Tab} {ev : Hub.Event} {rest : List Hub.Event}
    (hK : s.conns[k]? = some K) (hwire : K.wire = ev :: rest)
    (hT : s.tabs[K.tab]? = some T) (hrunning : T.live.stopped = false)
    (hstale : ev.rev ≤ T.live.lastRev) :
    (∃ i, s.Carries i ev) ∧ ∀ i, s.Carries i ev → T.Sees i := by
  have hinv : Numbered s ∧ Heeded s :=
    system.exec_invariant (I := fun s => Numbered s ∧ Heeded s)
      (fun _ _ _ h hs => ⟨numbered_step h.1 hs, heeded_step h.2 h.1 hs⟩)
      ⟨numbered_start, heeded_start⟩ he
  obtain ⟨hN, hH⟩ := hinv
  constructor
  · have hframe : ev ∈ K.wire ++ K.handler.hand := by
      rw [hwire]
      exact List.mem_cons_self
    obtain ⟨i, m, hi, hm⟩ :=
      mem_events.mp (hN.frames K (List.mem_iff_getElem?.mpr ⟨k, hK⟩) ev hframe)
    exact ⟨i, m, hi, hm⟩
  · intro i hcarries
    exact hH T (List.mem_iff_getElem?.mpr ⟨_, hT⟩) hrunning i ev hcarries hstale

/-- Two broadcasts overlap and fan out in the wrong order; the first frame is acted on,
the second is about to be thrown away. -/
def overtaken : List Action :=
  [.load "ann" 0 true, .accept 0, .opened 0, .register 0, .wait 150, .fireBump 0 0,
    .commit "rollout" "r1" "create", .assignRev 0, .commit "lock" "l1" "update", .assignRev 1,
    .lock 1, .send 1 0, .unlock 1, .lock 0, .send 0 0, .unlock 0,
    .take 0, .write 0, .take 0, .write 0, .message 0]

theorem stale_frame_seen_overtaken :
    ∃ s T, system.exec start overtaken = some s ∧ s.tabs[0]? = some T ∧
      (∃ i, s.Carries i ⟨"rollout", "r1", "create", 1⟩) ∧
      ∀ i, s.Carries i ⟨"rollout", "r1", "create", 1⟩ → T.Sees i := by
  have hruns : ∃ s, system.exec start overtaken = some s ∧ ∃ K ∈ s.conns[0]?, ∃ T ∈ s.tabs[K.tab]?,
      K.tab = 0 ∧ K.wire = [⟨"rollout", "r1", "create", 1⟩] ∧ T.live.stopped = false ∧
        T.live.lastRev = 2 := by decide +kernel
  obtain ⟨s, he, K, hK, T, hT, htab, hwire, hrunning, hmark⟩ := hruns
  exact ⟨s, T, he, htab ▸ hT, stale_frame_seen he hK hwire hT hrunning (by rw [hmark]; decide)⟩

end Live

end ReleaseRadar
