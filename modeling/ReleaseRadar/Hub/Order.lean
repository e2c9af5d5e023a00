import ReleaseRadar.Hub.Registry

/-!
# The order of revisions on a channel

A `Broadcast` takes its revision before the mutex, so two calls may fan out in the
other order than they took their revisions in (`enqueued_out_of_order`). That is the
only way a channel gets out of order: `enqueued_order` says that no channel has a
revision twice, and that if a smaller one comes after a larger one, its call was
already under way when the other took its revision. Calls that do not overlap are
enqueued in the order of their revisions.
-/

namespace ReleaseRadar

open Lib

namespace Hub

/-- The event of the call, once it has a revision. -/
def Call.event : Call → Option Event
  | called _ _ _ => none
  | assigned ev | sending ev _ | returned ev => some ev

/-- The call has dealt with the client: it has returned, or is past it in its loop. -/
def Call.Past (c : Nat) : Call → Prop
  | called _ _ _ | assigned _ => False
  | sending _ todo => c ∉ todo
  | returned _ => True

/-- When `x` took its revision, the call of `y` had its own and had not returned. -/
def Use.Overlapped (s : Use) (x y : Event) : Prop :=
  ∃ others, (x, others) ∈ s.begun ∧ y ∈ others

/-- `x` may come before `y` on a channel. -/
def Use.Ordered (s : Use) (x y : Event) : Prop :=
  x.rev < y.rev ∨ y.rev < x.rev ∧ s.Overlapped x y

structure OrderInv (s : Use) : Prop where
  counter : ∀ (i : Nat) (call : Call) (ev : Event), s.calls[i]? = some call → call.event = some ev →
    ev.rev ≤ s.hub.rev
  begun : ∀ (i : Nat) (call : Call) (ev : Event), s.calls[i]? = some call → call.event = some ev →
    ∃ others, (ev, others) ∈ s.begun
  bounded : ∀ x ∈ s.begun, x.1.rev ≤ s.hub.rev
  distinct : ∀ (i j : Nat) (call call' : Call) (ev ev' : Event), s.calls[i]? = some call →
    s.calls[j]? = some call' → call.event = some ev → call'.event = some ev' →
    ev.rev = ev'.rev → i = j
  overlap : ∀ (i : Nat) (call : Call) (ev : Event), s.calls[i]? = some call →
    call.underWay = some ev →
    ∀ x ∈ s.begun, ev.rev < x.1.rev → ev ∈ x.2
  logged : ∀ c ev, (c, ev) ∈ s.log →
    ∃ (i : Nat) (call : Call), s.calls[i]? = some call ∧ call.event = some ev ∧ call.Past c
  order : ∀ c, (s.enqueued c).Pairwise s.Ordered

section Steps

variable {s s' : Use} {i c : Nat} {call call' : Call} {ev : Event}

theorem event_of_underWay (h : call.underWay = some ev) : call.event = some ev := by
  cases call with
  | called entity id action => cases h
  | assigned e => exact h
  | sending e todo => exact h
  | returned e => cases h

theorem orderInv_unused : OrderInv unused where
  counter _ _ _ hi := by cases hi
  begun _ _ _ hi := by cases hi
  bounded _ hx := absurd hx List.not_mem_nil
  distinct _ _ _ _ _ _ hi := by cases hi
  overlap _ _ _ hi := by cases hi
  logged _ _ hmem := absurd hmem List.not_mem_nil
  order _ := List.Pairwise.nil

/-- A step that adds no call, takes no revision and enqueues nothing. -/
theorem OrderInv.keep (h : OrderInv s) (hcalls : s'.calls = s.calls)
    (hrev : s'.hub.rev = s.hub.rev) (hlog : s'.log = s.log) (hbegun : s'.begun = s.begun) :
    OrderInv s' := by
  constructor
  · rw [hcalls, hrev]
    exact h.counter
  · rw [hcalls, hbegun]
    exact h.begun
  · rw [hbegun, hrev]
    exact h.bounded
  · rw [hcalls]
    exact h.distinct
  · rw [hcalls, hbegun]
    exact h.overlap
  · rw [hcalls, hlog]
    exact h.logged
  · intro c
    rw [Use.enqueued, hlog]
    refine (h.order c).imp fun hxy => ?_
    rwa [Use.Ordered, Use.Overlapped, hbegun]

/-- A call that has its revision goes on: its event stays its event, and what it is past it
stays past. -/
theorem OrderInv.goOn (h : OrderInv s) (hi : s.calls[i]? = some call)
    (hcalls : s'.calls = s.calls.set i call') (hevent : call'.event = call.event)
    (hunder : ∀ ev, call'.underWay = some ev → call.underWay = some ev)
    (hpast : ∀ c, call.Past c → call'.Past c) (hrev : s'.hub.rev = s.hub.rev)
    (hbegun : s'.begun = s.begun)
    (hlogged : ∀ c ev, (c, ev) ∈ s'.log → (c, ev) ∈ s.log ∨ call'.event = some ev ∧ call'.Past c)
    (horder : ∀ c, (s'.enqueued c).Pairwise s.Ordered) : OrderInv s' := by
  -- an entry found after the step was one before, with the same event
  have hwho : ∀ {j : Nat} {n : Call}, s'.calls[j]? = some n → ∃ n₀, s.calls[j]? = some n₀ ∧
      n.event = n₀.event ∧ ∀ ev, n.underWay = some ev → n₀.underWay = some ev := by
    intro j n hj
    rw [hcalls] at hj
    rcases of_getElem?_set hj with ⟨rfl, rfl⟩ | ⟨-, hold⟩
    · exact ⟨call, hi, hevent, hunder⟩
    · exact ⟨n, hold, rfl, fun _ hu => hu⟩
  constructor
  · intro j n e hj hn
    obtain ⟨n₀, hj₀, heq, -⟩ := hwho hj
    rw [hrev]
    exact h.counter j n₀ e hj₀ (heq ▸ hn)
  · intro j n e hj hn
    obtain ⟨n₀, hj₀, heq, -⟩ := hwho hj
    rw [hbegun]
    exact h.begun j n₀ e hj₀ (heq ▸ hn)
  · rw [hbegun, hrev]
    exact h.bounded
  · intro j k n m e e' hj hk hn hm hee'
    obtain ⟨n₀, hj₀, heq, -⟩ := hwho hj
    obtain ⟨m₀, hk₀, heq', -⟩ := hwho hk
    exact h.distinct j k n₀ m₀ e e' hj₀ hk₀ (heq ▸ hn) (heq' ▸ hm) hee'
  · intro j n e hj hn
    obtain ⟨n₀, hj₀, -, hu⟩ := hwho hj
    rw [hbegun]
    exact h.overlap j n₀ e hj₀ (hu e hn)
  · intro c e hmem
    have hself : s'.calls[i]? = some call' := by
      rw [hcalls]
      exact List.getElem?_set_self (List.getElem?_eq_some_iff.mp hi).1
    rcases hlogged c e hmem with hold | ⟨he, hc⟩
    · obtain ⟨j, n, hj, hn, hp⟩ := h.logged c e hold
      by_cases hij : i = j
      · rw [← hij, hi] at hj
        cases hj
        exact ⟨i, call', hself, hevent ▸ hn, hpast c hp⟩
      · exact ⟨j, n, by rw [hcalls, List.getElem?_set_ne hij]; exact hj, hn, hp⟩
    · exact ⟨i, call', hself, he, hc⟩
  · intro c
    refine (horder c).imp fun hxy => ?_
    rwa [Use.Ordered, Use.Overlapped, hbegun]

/-- A call takes its revision, which is above every other. -/
theorem OrderInv.assign {entity id action : String} (h : OrderInv s)
    (hi : s.calls[i]? = some (.called entity id action)) :
    OrderInv { s with
      hub := { s.hub with rev := s.hub.nextRev }
      calls := s.calls.set i (.assigned ⟨entity, id, action, s.hub.nextRev⟩)
      begun := s.begun ++
        [(⟨entity, id, action, s.hub.nextRev⟩, s.calls.filterMap Call.underWay)] } := by
  have hup : s.hub.rev < s.hub.nextRev := by
    unfold nextRev
    omega
  constructor
  · intro j n e hj hn
    show e.rev ≤ s.hub.nextRev
    rcases of_getElem?_set hj with ⟨-, rfl⟩ | ⟨-, hold⟩
    · cases hn
      exact Int.le_refl _
    · have := h.counter j n e hold hn
      omega
  · intro j n e hj hn
    rcases of_getElem?_set hj with ⟨-, rfl⟩ | ⟨-, hold⟩
    · cases hn
      exact ⟨_, List.mem_append_right _ (List.mem_singleton.mpr rfl)⟩
    · obtain ⟨others, hmem⟩ := h.begun j n e hold hn
      exact ⟨others, List.mem_append_left _ hmem⟩
  · intro x hx
    show x.1.rev ≤ s.hub.nextRev
    rcases List.mem_append.mp hx with hold | hnew
    · have := h.bounded x hold
      omega
    · obtain rfl := List.mem_singleton.mp hnew
      exact Int.le_refl _
  · intro j k n m e e' hj hk hn hm hee'
    rcases of_getElem?_set hj with ⟨hij, rfl⟩ | ⟨-, hj'⟩
    · rcases of_getElem?_set hk with ⟨hik, -⟩ | ⟨-, hk'⟩
      · -- two calls with the new revision are one call
        exact hij.symm.trans hik
      · cases hn
        have := h.counter k m e' hk' hm
        have hee : s.hub.nextRev = e'.rev := hee'
        omega
    · rcases of_getElem?_set hk with ⟨-, rfl⟩ | ⟨-, hk'⟩
      · cases hm
        have := h.counter j n e hj' hn
        have hee : e.rev = s.hub.nextRev := hee'
        omega
      · exact h.distinct j k n m e e' hj' hk' hn hm hee'
  · intro j n e hj hn x hx hlt
    rcases of_getElem?_set hj with ⟨-, rfl⟩ | ⟨-, hold⟩
    · -- nothing that has begun is above the new revision
      cases hn
      have hlt' : s.hub.nextRev < x.1.rev := hlt
      rcases List.mem_append.mp hx with hx | hx
      · have := h.bounded x hx
        omega
      · rw [List.mem_singleton.mp hx] at hlt'
        exact absurd hlt' (Int.lt_irrefl _)
    · rcases List.mem_append.mp hx with hx | hx
      · exact h.overlap j n e hold hn x hx hlt
      · rw [List.mem_singleton.mp hx]
        -- the call is under way when the new revision is taken
        exact List.mem_filterMap.mpr ⟨n, List.mem_of_getElem? hold, hn⟩
  · intro c e hmem
    obtain ⟨j, n, hj, hn, hp⟩ := h.logged c e hmem
    -- what is in a channel has been sent, so it is another call
    have hij : i ≠ j := by
      intro he
      rw [← he, hi] at hj
      cases hj
      cases hn
    exact ⟨j, n, by rw [List.getElem?_set_ne hij]; exact hj, hn, hp⟩
  · intro c
    refine (h.order c).imp fun hxy => ?_
    rcases hxy with hlt | ⟨hlt, others, hmem, hy⟩
    · exact Or.inl hlt
    · exact Or.inr ⟨hlt, others, List.mem_append_left _ hmem, hy⟩

/-- An event goes into a channel that does not have it: what is there is below it, or had
begun while it was under way. -/
theorem OrderInv.enqueue {todo : List Nat} (h : OrderInv s)
    (hi : s.calls[i]? = some (.sending ev todo)) (hc : c ∈ todo) :
    ∀ x ∈ s.enqueued c, s.Ordered x ev := by
  intro x hx
  obtain ⟨⟨c', x'⟩, hmem, rfl⟩ := List.mem_map.mp hx
  obtain ⟨hlog, hc'⟩ := List.mem_filter.mp hmem
  obtain rfl : c' = c := of_decide_eq_true hc'
  obtain ⟨j, n, hj, hn, hp⟩ := h.logged c' x' hlog
  have hne : x'.rev ≠ ev.rev := by
    intro heq
    obtain rfl := h.distinct j i n _ x' ev hj hi hn rfl heq
    rw [hi] at hj
    cases hj
    exact hp hc
  rcases Int.lt_or_gt_of_ne hne with hlt | hgt
  · exact Or.inl hlt
  · obtain ⟨others, hbegun⟩ := h.begun j n x' hj hn
    exact Or.inr ⟨hgt, others, hbegun, h.overlap i _ ev hi rfl _ hbegun hgt⟩

theorem orderInv_step {a : UseAction} (h : OrderInv s) (hs : useStep s a = some s') :
    OrderInv s' := by
  cases a with
  | call entity id action =>
    cases hs
    -- the call that is new has no event
    have hwho : ∀ {j : Nat} {n : Call} {e : Event},
        (s.calls ++ [.called entity id action])[j]? = some n → n.event = some e →
        s.calls[j]? = some n := by
      intro j n e hj hn
      rcases of_getElem?_concat hj with hold | ⟨-, rfl⟩
      · exact hold
      · cases hn
    constructor
    · exact fun j n e hj hn => h.counter j n e (hwho hj hn) hn
    · exact fun j n e hj hn => h.begun j n e (hwho hj hn) hn
    · exact h.bounded
    · exact fun j k n m e e' hj hk hn hm =>
        h.distinct j k n m e e' (hwho hj hn) (hwho hk hm) hn hm
    · exact fun j n e hj hn => h.overlap j n e (hwho hj (event_of_underWay hn)) hn
    · intro c e hmem
      obtain ⟨j, n, hj, hn, hp⟩ := h.logged c e hmem
      refine ⟨j, n, ?_, hn, hp⟩
      exact (List.getElem?_append_left (List.getElem?_eq_some_iff.mp hj).1).trans hj
    · exact h.order
  | assignRev i =>
    obtain ⟨entity, id, action, hi, rfl⟩ := useStep_assignRev hs
    exact h.assign hi
  | lock i =>
    obtain ⟨ev, hi, -, rfl⟩ := useStep_lock hs
    exact h.goOn hi rfl rfl (fun _ hu => hu) (fun _ hp => hp.elim) rfl rfl
      (fun _ _ hmem => Or.inl hmem) h.order
  | send i c =>
    obtain ⟨ev, todo, hi, hc, rfl⟩ := useStep_send hs
    refine h.goOn hi rfl rfl (fun _ hu => hu) ?_ offer_rev rfl ?_ ?_
    · intro d hp hmem
      exact hp (List.mem_filter.mp hmem).1
    · intro d e hmem
      by_cases hfull : s.hub.Full c
      · rw [if_pos hfull] at hmem
        exact Or.inl hmem
      · rw [if_neg hfull] at hmem
        rcases List.mem_append.mp hmem with hold | hnew
        · exact Or.inl hold
        · cases List.mem_singleton.mp hnew
          refine Or.inr ⟨rfl, fun hin => ?_⟩
          -- the channel is no longer among those to be sent to
          exact absurd rfl (of_decide_eq_true (List.mem_filter.mp hin).2)
    · intro d
      by_cases hfull : s.hub.Full c
      · rw [Use.enqueued, if_pos hfull]
        exact h.order d
      · rw [Use.enqueued, if_neg hfull, List.filter_append, List.map_append]
        by_cases hdc : c = d
        · subst hdc
          rw [List.filter_cons_of_pos (by simp), List.filter_nil]
          refine List.pairwise_append.mpr ⟨h.order c, List.pairwise_singleton _ _, ?_⟩
          intro x hx y hy
          rw [List.mem_singleton.mp hy]
          -- what is in the channel comes before the event
          exact h.enqueue hi hc x hx
        · rw [List.filter_cons_of_neg (by simpa using hdc), List.filter_nil, List.map_nil,
            List.append_nil]
          exact h.order d
  | unlock i =>
    obtain ⟨ev, hi, rfl⟩ := useStep_unlock hs
    exact h.goOn hi rfl rfl (fun _ hu => by cases hu) (fun _ _ => trivial) rfl rfl
      (fun _ _ hmem => Or.inl hmem) h.order
  | register user =>
    obtain ⟨-, rfl⟩ := useStep_register hs
    refine h.keep rfl ?_ rfl rfl
    show (s.hub.register user).2.rev = s.hub.rev
    unfold register
    split <;> rfl
  | unregister c =>
    obtain ⟨-, rfl⟩ := useStep_unregister hs
    exact h.keep rfl unregister_rev rfl rfl
  | receive c =>
    rw [useStep_receive hs]
    exact h.keep rfl rfl rfl rfl

end Steps

/-- **The order on a channel**: in every run, no client's channel gets a revision twice, and
a smaller revision comes after a larger one only if its call was under way when the
larger one was taken. -/
theorem enqueued_order {as : List UseAction} {s : Use}
    (he : hubMachine.exec unused as = some s) (c : Nat) : (s.enqueued c).Pairwise s.Ordered :=
  (hubMachine.exec_invariant (fun _ _ _ h hs => orderInv_step h hs) orderInv_unused he).order c

/-- Two overlapping calls; the second takes the mutex first. -/
def overtaking : List UseAction :=
  [.register "ann", .call "rollout" "r1" "update", .call "lock" "l1" "update",
    .assignRev 0, .assignRev 1, .lock 1, .send 1 0, .unlock 1, .lock 0, .send 0 0, .unlock 0]

theorem enqueued_order_overtaking :
    ∃ s, hubMachine.exec unused overtaking = some s ∧ (s.enqueued 0).Pairwise s.Ordered := by
  have hruns : ∃ s, hubMachine.exec unused overtaking = some s ∧ s.hub.rev = 2 := by
    decide
  obtain ⟨s, he, -⟩ := hruns
  exact ⟨s, he, enqueued_order he 0⟩

theorem enqueued_out_of_order :
    ∃ s, hubMachine.exec unused overtaking = some s ∧
      ¬(s.enqueued 0).Pairwise fun x y => x.rev < y.rev := by decide

end Hub

end ReleaseRadar
