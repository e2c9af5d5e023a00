import ReleaseRadar.Lib.Machine
import ReleaseRadar.Live.LiveService

/-!
# One service, one channel

A page with one `LiveService`, on its own: whoever calls `connect()` and
`disconnect()`, whatever the sockets and the factory do, and whenever a pending
timer fires. An event of a socket runs the handler in its slot, if there is one.

`SingleChannel`: only the current socket has handlers, at most one reconnect is
pending, and none while a socket is current. One call breaks it: `connect()` looks
at the socket and at `connecting`, not at the reconnect timer, so between a drop and
its retry it opens a socket of its own, and the retry opens a second
(`two_channels`). `single_channel`: without such a call the channel is single, and a
service that was disconnected opens no socket and bumps nothing until the next
`connect()`.
-/

namespace ReleaseRadar

open Lib

namespace Live

/-- A page: its service, how many sockets were created, and the bus. -/
structure Page where
  live : LiveService
  created : Nat
  bus : RefreshBus
deriving DecidableEq

/-- What happens on the page. `made`: the factory, if it is called, returns a socket. -/
inductive PageEvent
  | connect (random : Rat) (made : Bool)
  | disconnect
  | opened (k : Nat)
  | message (k : Nat) (data : Option Json)
  | errored (k : Nat) (random : Rat)
  | closed (k : Nat) (random : Rat)
  | bump (handle : Nat)
  | reconnect (handle : Nat) (random : Rat) (made : Bool)
  | stable (handle : Nat)

/-- An event and its time. -/
structure Callback where
  now : Rat
  event : PageEvent

namespace Page

/-- The socket the factory returns, if it does. -/
def made (p : Page) (ok : Bool) : Option Nat := if ok then some p.created else none

/-- The handler in the slot of the socket `k`, if there is one. -/
def on (p : Page) (k : Nat) (f : LiveService → LiveService) : Option Page :=
  if k < p.created then
    some (if k ∈ p.live.attached then { p with live := f p.live } else p)
  else none

end Page

def pageStep (p : Page) (c : Callback) : Option Page :=
  match c.event with
  | .connect random ok =>
    if p.live.socket.isSome ∨ p.live.connecting then
      some { p with live := p.live.connect c.now random none }
    else some { p with
      live := p.live.connect c.now random (p.made ok)
      created := p.created + ok.toNat }
  | .disconnect => some { p with live := p.live.disconnect }
  | .opened k => p.on k (LiveService.onopen c.now)
  | .message k data => p.on k (LiveService.onmessage c.now data)
  | .errored k random => p.on k (LiveService.handleDrop c.now random)
  | .closed k random => p.on k (LiveService.handleDrop c.now random)
  | .bump handle =>
    if p.live.bumpTimer.Pending handle then
      some { p with live := p.live.fireBump handle, bus := p.bus.bump }
    else none
  | .reconnect handle random ok =>
    if p.live.reconnectTimer.Pending handle then some { p with
      live := p.live.fireReconnect c.now random (p.made ok) handle
      created := p.created + ok.toNat }
    else none
  | .stable handle =>
    if p.live.stableTimer.Pending handle then
      some { p with live := p.live.fireStable handle }
    else none

/-- The page. -/
def page : Machine Page Callback := ⟨pageStep⟩

/-- A page whose service has just been constructed. -/
def newPage : Page := ⟨.new, 0, ⟨0⟩⟩

/-- Only the current socket has the service's handlers; at most one reconnect is pending,
and none while a socket is current. -/
structure SingleChannel (p : Page) : Prop where
  attached : ∀ k ∈ p.live.attached, p.live.socket = some k
  reconnect : p.live.reconnectTimer.pending.length ≤ 1
  waiting : p.live.socket.isSome → p.live.reconnectTimer.pending = []

/-- `connect()` opens no socket while a reconnect is pending. -/
def Unhurried (p : Page) (c : Callback) : Prop :=
  match c.event with
  | .connect _ true => p.live.reconnectTimer.pending = []
  | _ => True

def PageEvent.isConnect : PageEvent → Bool
  | connect _ _ => true
  | disconnect | opened _ | message _ _ | errored _ _ | closed _ _ | bump _ | reconnect _ _ _
  | stable _ => false

instance (p : Page) (c : Callback) : Decidable (Unhurried p c) := by
  unfold Unhurried
  split <;> infer_instance

instance (p : Page) : Decidable (SingleChannel p) :=
  decidable_of_iff ((∀ k ∈ p.live.attached, p.live.socket = some k) ∧
      p.live.reconnectTimer.pending.length ≤ 1 ∧
      (p.live.socket.isSome → p.live.reconnectTimer.pending = []))
    ⟨fun ⟨h₁, h₂, h₃⟩ => ⟨h₁, h₂, h₃⟩, fun h => ⟨h.attached, h.reconnect, h.waiting⟩⟩

/-! ## The invariant -/

/-- The timers hold no timeout their field does not name, the handlers are those of the
current socket, and a stopped service has nothing left that could run. -/
structure PageInv (live : LiveService) : Prop where
  bump : live.bumpTimer.Single
  stable : live.stableTimer.Single
  waiting : live.Waiting
  attached : live.attached = live.socket.toList
  stopped : live.stopped → live.socket = none ∧ live.reconnectTimer.pending = [] ∧
    live.bumpTimer.pending = [] ∧ live.stableTimer.pending = []

namespace PageInv

variable {live : LiveService} {now random : Rat} {made : Option Nat} {handle k : Nat}
  {data : Option Json}

/-- A page that has not started has no channel. -/
theorem new : PageInv .new where
  bump := Timer.single_new
  stable := Timer.single_new
  waiting := ⟨Timer.single_new, fun h => absurd rfl h⟩
  attached := rfl
  stopped h := by cases h

/-- A service with an attached socket is not stopped. -/
theorem running (h : PageInv live) (hk : k ∈ live.attached) : live.stopped = false := by
  rw [Bool.eq_false_iff]
  intro hstopped
  rw [h.attached, (h.stopped hstopped).1] at hk
  cases hk

/-- A socket is let go of before the next one is made. -/
theorem detached (h : PageInv live) : live.detach = [] := by
  refine List.filter_eq_nil_iff.mpr fun k hk => ?_
  rw [h.attached] at hk
  simp [Option.mem_toList.mp hk]

/-- A bump touches its timer only. -/
theorem scheduleBump (h : PageInv live) (hrunning : live.stopped = false) :
    PageInv (live.scheduleBump now) where
  bump := Timer.single_start h.bump.clear_pending
  stable := h.stable
  waiting := ⟨h.waiting.single, h.waiting.socket⟩
  attached := h.attached
  stopped hstopped := absurd hstopped (Bool.eq_false_iff.mp hrunning)

/-- `onopen` starts two timers and no socket. -/
theorem onopen (h : PageInv live) (hrunning : live.stopped = false) :
    PageInv (live.onopen now) := by
  refine scheduleBump ?_ hrunning
  exact {
    bump := h.bump
    stable := Timer.single_start h.stable.clear_pending
    waiting := ⟨h.waiting.single, h.waiting.socket⟩
    attached := h.attached
    stopped := fun hstopped => absurd hstopped (Bool.eq_false_iff.mp hrunning) }

/-- A message schedules a bump at most. -/
theorem onmessage (h : PageInv live) (hrunning : live.stopped = false) :
    PageInv (live.onmessage now data) := by
  unfold LiveService.onmessage
  split
  · exact h
  · split
    · exact h
    · split
      · exact h
      · refine scheduleBump ?_ hrunning
        exact ⟨h.bump, h.stable, ⟨h.waiting.single, h.waiting.socket⟩, h.attached, h.stopped⟩

/-- A drop detaches the current socket, which is the only one with handlers. -/
theorem handleDrop (h : PageInv live) (hrunning : live.stopped = false) :
    PageInv (live.handleDrop now random) := by
  have hwaiting : (live.handleDrop now random).Waiting := h.waiting.handleDrop
  obtain ⟨backoff, timer, status, heq⟩ := LiveService.handleDrop_only now random live
  rw [heq] at hwaiting ⊢
  exact {
    bump := h.bump
    stable := h.stable.clear
    waiting := hwaiting
    attached := h.detached
    stopped := fun hstopped => absurd hstopped (Bool.eq_false_iff.mp hrunning) }

/-- `disconnect` lets everything go. -/
theorem disconnect (h : PageInv live) : PageInv live.disconnect where
  bump := h.bump.clear
  stable := h.stable.clear
  waiting := h.waiting.disconnect
  attached := h.detached
  stopped _ := ⟨rfl, h.waiting.single.clear_pending, h.bump.clear_pending,
    h.stable.clear_pending⟩

/-- The bump is the only one that was pending. -/
theorem fireBump (h : PageInv live) (hp : live.bumpTimer.Pending handle) :
    PageInv (live.fireBump handle) where
  bump := h.bump.fire hp
  stable := h.stable
  waiting := ⟨h.waiting.single, h.waiting.socket⟩
  attached := h.attached
  stopped hstopped :=
    have hold := h.stopped hstopped
    ⟨hold.1, hold.2.1, h.bump.fire_pending hp, hold.2.2.2⟩

/-- The stable timer too. -/
theorem fireStable (h : PageInv live) (hp : live.stableTimer.Pending handle) :
    PageInv (live.fireStable handle) where
  bump := h.bump
  stable := h.stable.fire hp
  waiting := ⟨h.waiting.single, h.waiting.socket⟩
  attached := h.attached
  stopped hstopped :=
    have hold := h.stopped hstopped
    ⟨hold.1, hold.2.1, hold.2.2.1, h.stable.fire_pending hp⟩

/-- A socket is opened by a service that runs and has none. -/
theorem openSocket (h : PageInv live) (hrunning : live.stopped = false)
    (hsocket : live.socket = none) (hwaiting : (live.openSocket now random made).Waiting) :
    PageInv (live.openSocket now random made) := by
  have hattached := h.attached
  rw [hsocket] at hattached
  obtain ⟨backoff, timer, connecting, status, heq⟩ :=
    LiveService.openSocket_only now random made live
  rw [heq] at hwaiting ⊢
  exact {
    bump := h.bump
    stable := h.stable
    waiting := hwaiting
    attached := by
      show live.attached ++ made.toList = (made.or live.socket).toList
      rw [hattached, hsocket, Option.or_none]
      rfl
    stopped := fun hstopped => absurd hstopped (Bool.eq_false_iff.mp hrunning) }

/-- A reconnect that is pending belongs to a running service without a socket. -/
theorem fireReconnect (h : PageInv live) (hp : live.reconnectTimer.Pending handle) :
    PageInv (live.fireReconnect now random made handle) := by
  have hrunning : live.stopped = false := by
    rw [Bool.eq_false_iff]
    intro hstopped
    obtain ⟨o, ho, -⟩ := hp
    rw [(h.stopped hstopped).2.1] at ho
    cases ho
  have hfired : PageInv { live with reconnectTimer := live.reconnectTimer.fire handle } := {
    bump := h.bump
    stable := h.stable
    waiting := ⟨h.waiting.single.fire hp, fun hpending =>
      absurd (h.waiting.single.fire_pending hp) hpending⟩
    attached := h.attached
    stopped := fun hstopped => absurd hstopped (Bool.eq_false_iff.mp hrunning) }
  exact hfired.openSocket hrunning (h.waiting.no_socket hp) (h.waiting.fireReconnect hp)

/-- `connect()` while a reconnect is pending does no harm if the factory throws: the
reconnect stays the only one. -/
theorem connect (h : PageInv live)
    (hunhurried : made.isSome → live.reconnectTimer.pending = []) :
    PageInv (live.connect now random made) := by
  unfold LiveService.connect
  split
  · exact h
  · next hguard =>
    have hsocket : live.socket = none := by
      cases hs : live.socket with
      | none => rfl
      | some k => exact absurd (Or.inl (by rw [hs]; rfl)) hguard
    have hstarted : PageInv { live with stopped := false } := {
      bump := h.bump
      stable := h.stable
      waiting := ⟨h.waiting.single, h.waiting.socket⟩
      attached := h.attached
      stopped := fun hstopped => by cases hstopped }
    refine hstarted.openSocket rfl hsocket ?_
    cases made with
    | none => exact .scheduleReconnect h.waiting.single hsocket
    | some k => exact .openSocket (hunhurried rfl) h.waiting.single hsocket

end PageInv

section Steps

variable {p p' : Page} {c : Callback} {k : Nat} {f : LiveService → LiveService}

/-- A handler runs on the attached socket or not at all. -/
theorem of_on (hs : p.on k f = some p') :
    p' = p ∨ k ∈ p.live.attached ∧ p' = { p with live := f p.live } := by
  unfold Page.on at hs
  split at hs
  · split at hs
    · next hk => exact Or.inr ⟨hk, (Option.some.inj hs).symm⟩
    · exact Or.inl (Option.some.inj hs).symm
  · cases hs

/-- So the invariant is kept if the handler keeps it. -/
theorem pageInv_on (h : PageInv p.live) (hs : p.on k f = some p')
    (hf : p.live.stopped = false → PageInv (f p.live)) : PageInv p'.live := by
  rcases of_on hs with rfl | ⟨hk, rfl⟩
  · exact h
  · exact hf (h.running hk)

/-- Every callback of an unhurried page keeps it. -/
theorem pageInv_step (h : PageInv p.live) (hG : Unhurried p c) (hs : pageStep p c = some p') :
    PageInv p'.live := by
  obtain ⟨now, event⟩ := c
  cases event with
  | connect random ok =>
    simp only [pageStep] at hs
    split at hs
    · cases hs
      exact h.connect fun hnone => by cases hnone
    · cases hs
      refine h.connect fun hmade => ?_
      cases ok with
      | false => cases hmade
      | true => exact hG
  | disconnect =>
    cases hs
    exact h.disconnect
  | opened k => exact pageInv_on h hs h.onopen
  | message k data => exact pageInv_on h hs h.onmessage
  | errored k random => exact pageInv_on h hs h.handleDrop
  | closed k random => exact pageInv_on h hs h.handleDrop
  | bump handle =>
    simp only [pageStep] at hs
    split at hs
    · next hp =>
      cases hs
      exact h.fireBump hp
    · cases hs
  | reconnect handle random ok =>
    simp only [pageStep] at hs
    split at hs
    · next hp =>
      cases hs
      exact h.fireReconnect hp
    · cases hs
  | stable handle =>
    simp only [pageStep] at hs
    split at hs
    · next hp =>
      cases hs
      exact h.fireStable hp
    · cases hs

/-- What it says of the page. -/
theorem singleChannel_of_inv (h : PageInv p.live) : SingleChannel p where
  attached k hk := by
    rw [h.attached] at hk
    exact Option.mem_toList.mp hk
  reconnect := by
    have hlength := congrArg List.length h.waiting.single
    rw [List.length_map, Option.length_toList] at hlength
    split at hlength <;> omega
  waiting hsome := by
    by_contra hpending
    rw [h.waiting.socket hpending] at hsome
    cases hsome

/-! ## After a disconnect -/

/-- A stopped service whose page has created `n` sockets and bumped to `bus`. -/
structure Still (n : Nat) (bus : RefreshBus) (p : Page) : Prop where
  inv : PageInv p.live
  stopped : p.live.stopped = true
  created : p.created = n
  bus : p.bus = bus

/-- Without a connect a stopped page makes no socket and bumps nothing. -/
theorem still_step {n : Nat} {bus : RefreshBus} (h : Still n bus p)
    (hc : c.event.isConnect = false) (hs : pageStep p c = some p') : Still n bus p' := by
  obtain ⟨hsocket, hreconnect, hbump, hstable⟩ := h.inv.stopped h.stopped
  have hnone : ∀ k, k ∉ p.live.attached := by
    intro k hk
    rw [h.inv.attached, hsocket] at hk
    cases hk
  have hon : ∀ {k f}, p.on k f = some p' → Still n bus p' := by
    intro k f hs
    rcases of_on hs with rfl | ⟨hk, -⟩
    · exact h
    · exact absurd hk (hnone k)
  obtain ⟨now, event⟩ := c
  cases event with
  | connect random ok => cases hc
  | disconnect =>
    cases hs
    exact ⟨h.inv.disconnect, rfl, h.created, h.bus⟩
  | opened k => exact hon hs
  | message k data => exact hon hs
  | errored k random => exact hon hs
  | closed k random => exact hon hs
  | bump handle =>
    simp only [pageStep, Timer.Pending, hbump] at hs
    simp at hs
  | reconnect handle random ok =>
    simp only [pageStep, Timer.Pending, hreconnect] at hs
    simp at hs
  | stable handle =>
    simp only [pageStep, Timer.Pending, hstable] at hs
    simp at hs

/-- Not in any run. -/
theorem still_exec {n : Nat} {bus : RefreshBus} :
    ∀ {cs : List Callback} {p q : Page}, Still n bus p →
      (∀ c ∈ cs, c.event.isConnect = false) → page.exec p cs = some q → Still n bus q := by
  intro cs
  induction cs with
  | nil =>
    intro p q h _ he
    cases he
    exact h
  | cons c cs ih =>
    intro p q h hcs he
    obtain ⟨p', hs, he'⟩ := page.exec_cons_some he
    have hstill := still_step h (hcs c List.mem_cons_self) hs
    exact ih hstill (fun c' hc' => hcs c' (List.mem_cons_of_mem _ hc')) he'

end Steps

/-- **A single channel**: in every run in which `connect()` opens no socket while a
reconnect is pending, only the current socket has handlers, at most one reconnect is
pending and none while a socket is current; and from a `disconnect()` to the next
`connect()` no socket is created and the bus is not bumped. -/
theorem single_channel {cs : List Callback} {p : Page} (hG : page.Along Unhurried newPage cs)
    (he : page.exec newPage cs = some p) :
    SingleChannel p ∧
      ∀ before now rest, cs = before ++ ⟨now, .disconnect⟩ :: rest →
        (∀ c ∈ rest, c.event.isConnect = false) →
          ∃ q, page.exec newPage (before ++ [⟨now, .disconnect⟩]) = some q ∧
            p.created = q.created ∧ p.bus = q.bus := by
  have hinv : ∀ {cs p}, page.Along Unhurried newPage cs → page.exec newPage cs = some p →
      PageInv p.live := fun hG he =>
    page.exec_invariant_along (I := fun p => PageInv p.live)
      (fun _ _ _ h hg hs => pageInv_step h hg hs) PageInv.new hG he
  refine ⟨singleChannel_of_inv (hinv hG he), ?_⟩
  intro before now rest hcs hrest
  rw [hcs, List.append_cons] at hG he
  rw [page.exec_append] at he
  obtain ⟨q, hq, he'⟩ := Option.bind_eq_some_iff.mp he
  have hqinv := hinv (page.along_append hG) hq
  have hstopped : q.live.stopped = true := by
    rw [page.exec_append] at hq
    obtain ⟨q₀, -, hlast⟩ := Option.bind_eq_some_iff.mp hq
    cases hlast
    rfl
  have hstill := still_exec ⟨hqinv, hstopped, rfl, rfl⟩ hrest he'
  exact ⟨q, hq, hstill.created, hstill.bus⟩

/-- A socket opens, a frame comes, the socket drops and is replaced; the page logs out
with a bump pending, and a late event of the last socket is not heard. -/
def loggedOut : List Callback :=
  [⟨0, .connect 0 true⟩, ⟨10, .opened 0⟩, ⟨160, .bump 0⟩,
    ⟨200, .closed 0 0⟩, ⟨700, .reconnect 0 0 true⟩, ⟨710, .opened 1⟩,
    ⟨720, .disconnect⟩, ⟨730, .message 1 (some (.obj [("rev", .num 1)]))⟩]

theorem single_channel_loggedOut :
    ∃ p, page.exec newPage loggedOut = some p ∧ SingleChannel p ∧
      ∃ q, page.exec newPage (loggedOut.take 6 ++ [⟨720, .disconnect⟩]) = some q ∧
        p.created = q.created ∧ p.bus = q.bus := by
  have hruns : ∃ p, page.exec newPage loggedOut = some p ∧ p.created = 2 := by decide
  obtain ⟨p, he, -⟩ := hruns
  obtain ⟨hsingle, hquiet⟩ := single_channel (by decide) he
  exact ⟨p, he, hsingle, hquiet (loggedOut.take 6) 720
    [⟨730, .message 1 (some (.obj [("rev", .num 1)]))⟩] rfl (by simp [PageEvent.isConnect])⟩

/-- The socket drops; before the retry is due `connect()` is called again; the retry
opens another socket over the one it opened. -/
def hurried : List Callback :=
  [⟨0, .connect 0 true⟩, ⟨10, .opened 0⟩, ⟨200, .closed 0 0⟩, ⟨300, .connect 0 true⟩,
    ⟨700, .reconnect 0 0 true⟩]

theorem two_channels :
    ∃ p, page.exec newPage hurried = some p ∧ p.live.attached = [1, 2] ∧ ¬SingleChannel p := by
  decide

end Live

end ReleaseRadar
