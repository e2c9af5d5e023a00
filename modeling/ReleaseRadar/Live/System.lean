import ReleaseRadar.Lib.Lookup
import ReleaseRadar.Lib.Machine
import ReleaseRadar.Lib.Wakeup
import ReleaseRadar.Live.LiveService

/-!
# Live updates, end to end

Mutation requests, the hub, the `ws` handlers (`backend/internal/api/ws.go`), the
frames on their way and any number of browser tabs, interleaved:

* a mutation commits (`commit`), its `Broadcast` takes a revision (`assignRev`),
  takes the mutex (`lock`), sends to the registered clients one by one in any order
  (`send`), and releases the mutex (`unlock`); or its handler answers 500 although it has
  committed (`fail`: the answer to the `COMMIT` is lost, or a rollout is not read back), and
  there is no `Broadcast`;
* a `ws` handler accepts the upgrade, registers, and then its write pump takes events
  off the channel (`take`) and writes them to the peer (`write`), until it returns
  (`leave`: a failed write or ping, the peer gone) and unregisters;
* a browser sees a socket open, a frame arrive, a socket drop, and the timers of its
  tab's `LiveService` fire when they are due. A view that has written bumps the bus
  itself (`bump`).

The `i`-th mutation is the `i`-th commit. `refetched` is how many commits there were
when the tab last bumped its bus; no step reads it. A frame is in flight from the
moment the pump takes it until the browser gets it: one whose write failed stays in
the handler's hand until the handler has unregistered.
-/

namespace ReleaseRadar

open Lib

namespace Live

/-- A mutation request from its commit to the end of its `Broadcast`, which a failed one does not
have. -/
inductive Mutation
  | committed (entity id action : String)
  | failed (entity id action : String)
  | assigned (ev : Hub.Event)
  | sending (ev : Hub.Event) (todo : List Nat)
  | done (ev : Hub.Event)
deriving DecidableEq, Repr

/-- Where a `ws` handler is. -/
inductive Handler
  | upgrading
  | accepted
  | pumping (client : Nat) (hand : Option Hub.Event)
  | closing (client : Nat) (hand : Option Hub.Event)
  | returned
deriving DecidableEq, Repr

namespace Handler

/-- The handler's registered client: between `Register` and `Unregister`. -/
def client : Handler → Option Nat
  | pumping c _ | closing c _ => some c
  | upgrading | accepted | returned => none

/-- The event the write pump has taken and not yet written. -/
def hand : Handler → List Hub.Event
  | pumping _ ev | closing _ ev => ev.toList
  | upgrading | accepted | returned => []

end Handler

/-- What the browser makes of a socket. -/
inductive ReadyState
  | connecting
  | open_
  | closed
deriving DecidableEq, Repr

/-- A WebSocket: the tab that created it, its handler, the frames written and not yet
received, oldest first. `upgraded`: the 101 response has been written. -/
structure Conn where
  tab : Nat
  user : String
  handler : Handler
  upgraded : Bool
  ready : ReadyState
  wire : List Hub.Event
deriving DecidableEq, Repr

structure Tab where
  user : String
  live : LiveService
  bus : RefreshBus
  refetched : Nat
deriving DecidableEq

structure Sys where
  now : Rat
  mutations : List Mutation
  hub : Hub
  locked : Bool
  tabs : List Tab
  conns : List Conn

inductive Action
  | wait (d : Rat)
  | commit (entity id action : String)
  | fail (i : Nat)
  | assignRev (i : Nat)
  | lock (i : Nat)
  | send (i c : Nat)
  | unlock (i : Nat)
  | accept (k : Nat)
  | refuse (k : Nat)
  | register (k : Nat)
  | take (k : Nat)
  | write (k : Nat)
  | leave (k : Nat)
  | unregister (k : Nat)
  | load (user : String) (random : Rat) (made : Bool)
  | opened (k : Nat)
  | message (k : Nat)
  | dropped (k : Nat) (random : Rat)
  | fireBump (t handle : Nat)
  | fireReconnect (t handle : Nat) (random : Rat) (made : Bool)
  | fireStable (t handle : Nat)
  | bump (t : Nat)
  | disconnect (t : Nat)

namespace Tab

/-- `bus.bump()`: every open view starts a refetch. -/
def refetch (commits : Nat) (T : Tab) : Tab := { T with bus := T.bus.bump, refetched := commits }

/-- A callback of the socket `k` runs if the socket's slot still holds it. -/
def on (k : Nat) (f : LiveService → LiveService) (T : Tab) : Tab :=
  if k ∈ T.live.attached then { T with live := f T.live } else T

end Tab

namespace Sys

/-- How many mutations have committed. -/
def commits (s : Sys) : Nat := s.mutations.length

/-- The socket the factory returns, if it does. -/
def made (s : Sys) (ok : Bool) : Option Nat := if ok then some s.conns.length else none

/-- The connections with the one the factory has just opened, if it has. -/
def dial (s : Sys) (ok : Bool) (t : Nat) (user : String) : List Conn :=
  if ok then s.conns ++ [⟨t, user, .upgrading, false, .connecting, []⟩] else s.conns

end Sys

def step (s : Sys) : Action → Option Sys
  | .wait d => if 0 ≤ d then some { s with now := s.now + d } else none
  | .commit entity id action =>
    some { s with mutations := s.mutations ++ [.committed entity id action] }
  | .fail i =>
    match s.mutations[i]? with
    | some (.committed entity id action) =>
      some { s with mutations := s.mutations.set i (.failed entity id action) }
    | _ => none
  | .assignRev i =>
    match s.mutations[i]? with
    | some (.committed entity id action) => some { s with
        hub := { s.hub with rev := s.hub.nextRev }
        mutations := s.mutations.set i (.assigned ⟨entity, id, action, s.hub.nextRev⟩) }
    | _ => none
  | .lock i =>
    match s.mutations[i]?, s.locked with
    | some (.assigned ev), false => some { s with
        locked := true
        mutations := s.mutations.set i (.sending ev s.hub.clients) }
    | _, _ => none
  | .send i c =>
    match s.mutations[i]? with
    | some (.sending ev todo) =>
      if c ∈ todo then some { s with
        hub := s.hub.offer c ev
        mutations := s.mutations.set i (.sending ev (todo.filter fun d => d ≠ c)) }
      else none
    | _ => none
  | .unlock i =>
    match s.mutations[i]? with
    | some (.sending ev []) => some { s with
        locked := false
        mutations := s.mutations.set i (.done ev) }
    | _ => none
  | .accept k =>
    match s.conns[k]? with
    | some K =>
      if K.handler = .upgrading then some { s with
        conns := s.conns.set k { K with handler := .accepted, upgraded := true } }
      else none
    | none => none
  | .refuse k =>
    match s.conns[k]? with
    | some K =>
      if K.handler = .upgrading then some { s with
        conns := s.conns.set k { K with handler := .returned } }
      else none
    | none => none
  | .register k =>
    match s.conns[k]?, s.locked with
    | some K, false =>
      if K.handler = .accepted then
        match s.hub.register K.user with
        | (some c, hub) => some { s with
            hub := hub
            conns := s.conns.set k { K with handler := .pumping c none } }
        | (none, hub) => some { s with
            hub := hub
            conns := s.conns.set k { K with handler := .returned } }
      else none
    | _, _ => none
  | .take k =>
    match s.conns[k]? with
    | some K =>
      match K.handler with
      | .pumping c none =>
        match s.hub.chan c with
        | ev :: _ => some { s with
            hub := s.hub.receive c
            conns := s.conns.set k { K with handler := .pumping c (some ev) } }
        | [] => none
      | _ => none
    | none => none
  | .write k =>
    match s.conns[k]? with
    | some K =>
      match K.handler with
      | .pumping c (some ev) => some { s with
          conns := s.conns.set k { K with handler := .pumping c none, wire := K.wire ++ [ev] } }
      | _ => none
    | none => none
  | .leave k =>
    match s.conns[k]? with
    | some K =>
      match K.handler with
      | .pumping c hand => some { s with
          conns := s.conns.set k { K with handler := .closing c hand } }
      | _ => none
    | none => none
  | .unregister k =>
    match s.conns[k]?, s.locked with
    | some K, false =>
      match K.handler with
      | .closing c _ => some { s with
          hub := s.hub.unregister c
          conns := s.conns.set k { K with handler := .returned } }
      | _ => none
    | _, _ => none
  | .load user random ok =>
    let live := LiveService.new.connect s.now random (s.made ok)
    some { s with
      tabs := s.tabs ++ [⟨user, live, ⟨0⟩, 0⟩]
      conns := s.dial ok s.tabs.length user }
  | .opened k =>
    match s.conns[k]? with
    | some K =>
      if K.upgraded ∧ K.ready = .connecting then some { s with
        conns := s.conns.set k { K with ready := .open_ }
        tabs := s.tabs.modify K.tab (Tab.on k (LiveService.onopen s.now)) }
      else none
    | none => none
  | .message k =>
    match s.conns[k]? with
    | some K =>
      match K.wire, K.ready with
      | ev :: rest, .open_ => some { s with
          conns := s.conns.set k { K with wire := rest }
          tabs := s.tabs.modify K.tab (Tab.on k (LiveService.onmessage s.now (some ev.toJson))) }
      | _, _ => none
    | none => none
  | .dropped k random =>
    match s.conns[k]? with
    | some K =>
      if K.ready ≠ .closed then some { s with
        conns := s.conns.set k { K with ready := .closed }
        tabs := s.tabs.modify K.tab (Tab.on k (LiveService.handleDrop s.now random)) }
      else none
    | none => none
  | .fireBump t handle =>
    match s.tabs[t]? with
    | some T =>
      if T.live.bumpTimer.Due s.now handle then some { s with
        tabs := s.tabs.set t ({ T with live := T.live.fireBump handle }.refetch s.commits) }
      else none
    | none => none
  | .fireReconnect t handle random ok =>
    match s.tabs[t]? with
    | some T =>
      if T.live.reconnectTimer.Due s.now handle then some { s with
        tabs := s.tabs.set t
          { T with live := T.live.fireReconnect s.now random (s.made ok) handle }
        conns := s.dial ok t T.user }
      else none
    | none => none
  | .fireStable t handle =>
    match s.tabs[t]? with
    | some T =>
      if T.live.stableTimer.Due s.now handle then some { s with
        tabs := s.tabs.set t { T with live := T.live.fireStable handle } }
      else none
    | none => none
  | .bump t =>
    match s.tabs[t]? with
    | some T => some { s with tabs := s.tabs.set t (T.refetch s.commits) }
    | none => none
  | .disconnect t =>
    match s.tabs[t]? with
    | some T => some { s with tabs := s.tabs.set t { T with live := T.live.disconnect } }
    | none => none

/-- The system. -/
def system : Machine Sys Action := ⟨step⟩

/-- The server has just started and no page is open. -/
def start : Sys := ⟨0, [], Hub.new, false, [], []⟩

/-! ## What each step can do -/

section Steps

variable {s s' : Sys}

-- the equations of `step` are made here, once for all the proofs below
attribute [local simp] step

/-- A handler that fails after its commit leaves the write without a broadcast. -/
theorem step_fail {i : Nat} (h : step s (.fail i) = some s') :
    ∃ entity id action, s.mutations[i]? = some (.committed entity id action) ∧
      s' = { s with mutations := s.mutations.set i (.failed entity id action) } := by
  simp only [step] at h
  split at h
  · next entity id action hi => exact ⟨entity, id, action, hi, (Option.some.inj h).symm⟩
  · cases h

/-- Broadcast takes the next revision before it has the lock of the hub. -/
theorem step_assignRev {i : Nat} (h : step s (.assignRev i) = some s') :
    ∃ entity id action, s.mutations[i]? = some (.committed entity id action) ∧
      s' = { s with
        hub := { s.hub with rev := s.hub.nextRev }
        mutations := s.mutations.set i (.assigned ⟨entity, id, action, s.hub.nextRev⟩) } := by
  simp only [step] at h
  split at h
  · next entity id action hi => exact ⟨entity, id, action, hi, (Option.some.inj h).symm⟩
  · cases h

/-- The lock is taken when nobody has it, and the recipients are the clients of that moment. -/
theorem step_lock {i : Nat} (h : step s (.lock i) = some s') :
    ∃ ev, s.mutations[i]? = some (.assigned ev) ∧ s.locked = false ∧
      s' = { s with
        locked := true
        mutations := s.mutations.set i (.sending ev s.hub.clients) } := by
  simp only [step] at h
  split at h
  · next ev hi hfree => exact ⟨ev, hi, hfree, (Option.some.inj h).symm⟩
  · cases h

/-- The event is offered to one of the clients that are left, and to no other. -/
theorem step_send {i c : Nat} (h : step s (.send i c) = some s') :
    ∃ ev todo, s.mutations[i]? = some (.sending ev todo) ∧ c ∈ todo ∧
      s' = { s with
        hub := s.hub.offer c ev
        mutations := s.mutations.set i (.sending ev (todo.filter fun d => d ≠ c)) } := by
  simp only [step] at h
  split at h
  · next ev todo hi =>
    split at h
    · next hc => exact ⟨ev, todo, hi, hc, (Option.some.inj h).symm⟩
    · cases h
  · cases h

/-- The broadcast is over when it has been offered to every client. -/
theorem step_unlock {i : Nat} (h : step s (.unlock i) = some s') :
    ∃ ev, s.mutations[i]? = some (.sending ev []) ∧
      s' = { s with locked := false, mutations := s.mutations.set i (.done ev) } := by
  simp only [step] at h
  split at h
  · next ev hi => exact ⟨ev, hi, (Option.some.inj h).symm⟩
  · cases h

/-- The upgrade has succeeded; nothing is registered yet. -/
theorem step_accept {k : Nat} (h : step s (.accept k) = some s') :
    ∃ K, s.conns[k]? = some K ∧ K.handler = .upgrading ∧
      s' = { s with
        conns := s.conns.set k { K with handler := .accepted, upgraded := true } } := by
  simp only [step] at h
  split at h
  · next K hk =>
    split at h
    · next hK => exact ⟨K, hk, hK, (Option.some.inj h).symm⟩
    · cases h
  · cases h

/-- A handler whose upgrade fails returns. -/
theorem step_refuse {k : Nat} (h : step s (.refuse k) = some s') :
    ∃ K, s.conns[k]? = some K ∧ K.handler = .upgrading ∧
      s' = { s with conns := s.conns.set k { K with handler := .returned } } := by
  simp only [step] at h
  split at h
  · next K hk =>
    split at h
    · next hK => exact ⟨K, hk, hK, (Option.some.inj h).symm⟩
    · cases h
  · cases h

/-- `Register` needs the lock; it gives the handler a new client, or none when the hub is full. -/
theorem step_register {k : Nat} (h : step s (.register k) = some s') :
    ∃ K, s.conns[k]? = some K ∧ K.handler = .accepted ∧ s.locked = false ∧
      (s' = { s with conns := s.conns.set k { K with handler := .returned } } ∨
        ∃ hub, s.hub.register K.user = (some s.hub.heap.length, hub) ∧
          s' = { s with
            hub := hub
            conns := s.conns.set k { K with handler := .pumping s.hub.heap.length none } }) := by
  simp only [step] at h
  split at h
  · next K hk hfree =>
    split at h
    · next hK =>
      refine ⟨K, hk, hK, hfree, ?_⟩
      split at h
      · next c hub hr =>
        obtain ⟨-, rfl, -⟩ := Hub.register_some hr
        exact Or.inr ⟨hub, hr, (Option.some.inj h).symm⟩
      · next hub hr =>
        rw [Hub.register_none hr] at h
        exact Or.inl (Option.some.inj h).symm
    · cases h
  · cases h

/-- The pump takes the oldest event from the channel of its client. -/
theorem step_take {k : Nat} (h : step s (.take k) = some s') :
    ∃ K c ev rest, s.conns[k]? = some K ∧ K.handler = .pumping c none ∧
      s.hub.chan c = ev :: rest ∧
      s' = { s with
        hub := s.hub.receive c
        conns := s.conns.set k { K with handler := .pumping c (some ev) } } := by
  simp only [step] at h
  split at h
  · next K hk =>
    split at h
    · next c hK =>
      split at h
      · next ev rest hc => exact ⟨K, c, ev, rest, hk, hK, hc, (Option.some.inj h).symm⟩
      · cases h
    · cases h
  · cases h

/-- What the pump has in hand goes to the wire, unless the socket is gone. -/
theorem step_write {k : Nat} (h : step s (.write k) = some s') :
    ∃ K c ev, s.conns[k]? = some K ∧ K.handler = .pumping c (some ev) ∧
      s' = { s with
        conns := s.conns.set k { K with
          handler := .pumping c none, wire := K.wire ++ [ev] } } := by
  simp only [step] at h
  split at h
  · next K hk =>
    split at h
    · next c ev hK => exact ⟨K, c, ev, hk, hK, (Option.some.inj h).symm⟩
    · cases h
  · cases h

/-- The pump stops, whatever it has in hand. -/
theorem step_leave {k : Nat} (h : step s (.leave k) = some s') :
    ∃ K c hand, s.conns[k]? = some K ∧ K.handler = .pumping c hand ∧
      s' = { s with conns := s.conns.set k { K with handler := .closing c hand } } := by
  simp only [step] at h
  split at h
  · next K hk =>
    split at h
    · next c hand hK => exact ⟨K, c, hand, hk, hK, (Option.some.inj h).symm⟩
    · cases h
  · cases h

/-- The deferred `Unregister` needs the lock and takes the client out of the hub. -/
theorem step_unregister {k : Nat} (h : step s (.unregister k) = some s') :
    ∃ K c hand, s.conns[k]? = some K ∧ K.handler = .closing c hand ∧ s.locked = false ∧
      s' = { s with
        hub := s.hub.unregister c
        conns := s.conns.set k { K with handler := .returned } } := by
  simp only [step] at h
  split at h
  · next K hk hfree =>
    split at h
    · next c hand hK => exact ⟨K, c, hand, hk, hK, hfree, (Option.some.inj h).symm⟩
    · cases h
  · cases h

/-- `onopen` runs in the tab that has made the socket. -/
theorem step_opened {k : Nat} (h : step s (.opened k) = some s') :
    ∃ K, s.conns[k]? = some K ∧
      s' = { s with
        conns := s.conns.set k { K with ready := .open_ }
        tabs := s.tabs.modify K.tab (Tab.on k (LiveService.onopen s.now)) } := by
  simp only [step] at h
  split at h
  · next K hk =>
    split at h
    · exact ⟨K, hk, (Option.some.inj h).symm⟩
    · cases h
  · cases h

/-- The oldest frame of the wire is delivered to the tab of the socket. -/
theorem step_message {k : Nat} (h : step s (.message k) = some s') :
    ∃ K ev rest, s.conns[k]? = some K ∧ K.wire = ev :: rest ∧
      s' = { s with
        conns := s.conns.set k { K with wire := rest }
        tabs := s.tabs.modify K.tab
          (Tab.on k (LiveService.onmessage s.now (some ev.toJson))) } := by
  simp only [step] at h
  split at h
  · next K hk =>
    split at h
    · next ev rest hw hr => exact ⟨K, ev, rest, hk, hw, (Option.some.inj h).symm⟩
    · cases h
  · cases h

/-- `onclose` or `onerror` runs in the tab of the socket. -/
theorem step_dropped {k : Nat} {random : Rat} (h : step s (.dropped k random) = some s') :
    ∃ K, s.conns[k]? = some K ∧
      s' = { s with
        conns := s.conns.set k { K with ready := .closed }
        tabs := s.tabs.modify K.tab (Tab.on k (LiveService.handleDrop s.now random)) } := by
  simp only [step] at h
  split at h
  · next K hk =>
    split at h
    · exact ⟨K, hk, (Option.some.inj h).symm⟩
    · cases h
  · cases h

/-- The debounced bump is due, and the tab refetches. -/
theorem step_fireBump {t handle : Nat} (h : step s (.fireBump t handle) = some s') :
    ∃ T, s.tabs[t]? = some T ∧
      s' = { s with
        tabs := s.tabs.set t
          ({ T with live := T.live.fireBump handle }.refetch s.commits) } := by
  simp only [step] at h
  split at h
  · next T ht =>
    split at h
    · exact ⟨T, ht, (Option.some.inj h).symm⟩
    · cases h
  · cases h

/-- The reconnect timer is due, and the tab makes a socket or schedules the next try. -/
theorem step_fireReconnect {t handle : Nat} {random : Rat} {ok : Bool}
    (h : step s (.fireReconnect t handle random ok) = some s') :
    ∃ T, s.tabs[t]? = some T ∧ T.live.reconnectTimer.Due s.now handle ∧
      s' = { s with
        tabs := s.tabs.set t
          { T with live := T.live.fireReconnect s.now random (s.made ok) handle }
        conns := s.dial ok t T.user } := by
  simp only [step] at h
  split at h
  · next T ht =>
    split at h
    · next hdue => exact ⟨T, ht, hdue, (Option.some.inj h).symm⟩
    · cases h
  · cases h

/-- The stable timer is due, and the backoff starts over. -/
theorem step_fireStable {t handle : Nat} (h : step s (.fireStable t handle) = some s') :
    ∃ T, s.tabs[t]? = some T ∧
      s' = { s with tabs := s.tabs.set t { T with live := T.live.fireStable handle } } := by
  simp only [step] at h
  split at h
  · next T ht =>
    split at h
    · exact ⟨T, ht, (Option.some.inj h).symm⟩
    · cases h
  · cases h

/-- A bump from elsewhere on the page makes the tab refetch. -/
theorem step_bump {t : Nat} (h : step s (.bump t) = some s') :
    ∃ T, s.tabs[t]? = some T ∧ s' = { s with tabs := s.tabs.set t (T.refetch s.commits) } := by
  simp only [step] at h
  split at h
  · next T ht => exact ⟨T, ht, (Option.some.inj h).symm⟩
  · cases h

/-- The service of the tab lets its socket and its timers go. -/
theorem step_disconnect {t : Nat} (h : step s (.disconnect t) = some s') :
    ∃ T, s.tabs[t]? = some T ∧
      s' = { s with tabs := s.tabs.set t { T with live := T.live.disconnect } } := by
  simp only [step] at h
  split at h
  · next T ht => exact ⟨T, ht, (Option.some.inj h).symm⟩
  · cases h

end Steps

end Live

end ReleaseRadar
