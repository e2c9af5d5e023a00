import ReleaseRadar.Hub.Hub
import ReleaseRadar.Lib.Double

/-!
# The live service of the browser

`frontend/src/app/core/live.service.ts`, callback by callback, and the counter of
`refresh.bus.ts`. The event loop runs one callback at a time, so each is a function
from the service's fields to their new values. Sockets are numbered as they are
created; `attached` are those whose handler slots hold this service's closures.

A `Timer` is one of the three timer fields together with the timeouts that were
started through it and that the event loop still holds. That there is at most the
one the field names (`Timer.Single`) is a theorem: each `setTimeout` of the source
comes after a `clearTimeout` or a check of the field.

`now` is the time of the callback in milliseconds, `random` what `Math.random()`
gives, `made` the socket the factory returns, `none` when it throws. The delay of a
reconnect is computed as the source computes it, in doubles: each product and the sum
are rounded to the nearest one.
-/

namespace ReleaseRadar

/-- What views pipe their fetches off: the number of bumps. -/
structure RefreshBus where
  n : Nat
deriving DecidableEq, Repr

def RefreshBus.bump (b : RefreshBus) : RefreshBus := ⟨b.n + 1⟩

inductive LiveStatus
  | connecting
  | live
  | reconnecting
  | offline
deriving DecidableEq, Repr

/-- A `setTimeout` that has neither fired nor been cleared, and the time it is due. -/
structure Timeout where
  handle : Nat
  due : Rat
deriving DecidableEq

structure Timer where
  field : Option Nat
  pending : List Timeout
  started : Nat
deriving DecidableEq

namespace Timer

def new : Timer := ⟨none, [], 0⟩

/-- `this.timer = setTimeout(…)`. -/
def start (due : Rat) (t : Timer) : Timer :=
  ⟨some t.started, t.pending ++ [⟨t.started, due⟩], t.started + 1⟩

/-- `if (this.timer) { clearTimeout(this.timer); this.timer = null; }` -/
def clear (t : Timer) : Timer :=
  { t with field := none, pending := t.pending.filter fun o => t.field ≠ some o.handle }

/-- The timeout fires; its callback begins with `this.timer = null`. -/
def fire (handle : Nat) (t : Timer) : Timer :=
  { t with field := none, pending := t.pending.filter fun o => o.handle ≠ handle }

/-- The timeout has neither fired nor been cleared. -/
def Pending (handle : Nat) (t : Timer) : Prop := ∃ o ∈ t.pending, o.handle = handle

instance (handle : Nat) (t : Timer) : Decidable (t.Pending handle) :=
  inferInstanceAs (Decidable (∃ o ∈ t.pending, _))

/-- The timeout is pending and due. -/
def Due (now : Rat) (handle : Nat) (t : Timer) : Prop :=
  ∃ o ∈ t.pending, o.handle = handle ∧ o.due ≤ now

instance (now : Rat) (handle : Nat) (t : Timer) : Decidable (t.Due now handle) :=
  inferInstanceAs (Decidable (∃ o ∈ t.pending, _))

/-- The timeout the field names is the only one pending. -/
def Single (t : Timer) : Prop := t.pending.map Timeout.handle = t.field.toList

section Single

variable {t : Timer} {now due : Rat} {handle : Nat}

/-- A new timer has no timeout. -/
theorem single_new : Single new := rfl

/-- Without a handle nothing is pending. -/
theorem Single.idle (h : t.Single) (hfield : t.field = none) : t.pending = [] := by
  rw [Single, hfield] at h
  exact List.map_eq_nil_iff.mp h

/-- What is pending is what the field names. -/
theorem Single.named (h : t.Single) {o : Timeout} (ho : o ∈ t.pending) :
    t.field = some o.handle := by
  have hmem : o.handle ∈ t.field.toList := h ▸ List.mem_map_of_mem ho
  exact Option.mem_toList.mp hmem

/-- `clearTimeout` leaves nothing pending. -/
theorem Single.clear_pending (h : t.Single) : t.clear.pending = [] := by
  refine List.filter_eq_nil_iff.mpr fun o ho => ?_
  simp [h.named ho]

/-- A timeout that is due is pending. -/
theorem Due.pending (h : t.Due now handle) : t.Pending handle := by
  obtain ⟨o, ho, rfl, -⟩ := h
  exact ⟨o, ho, rfl⟩

/-- The one timeout that fires was the only one. -/
theorem Single.fire_pending (h : t.Single) (hp : t.Pending handle) :
    (t.fire handle).pending = [] := by
  obtain ⟨o₀, ho₀, rfl⟩ := hp
  refine List.filter_eq_nil_iff.mpr fun o ho => ?_
  have heq := (h.named ho).symm.trans (h.named ho₀)
  simp [Option.some.inj heq]

/-- Clearing keeps the timer single. -/
theorem Single.clear (h : t.Single) : t.clear.Single := by
  rw [Single, h.clear_pending]
  rfl

/-- Firing does. -/
theorem Single.fire (h : t.Single) (hp : t.Pending handle) : (t.fire handle).Single := by
  rw [Single, h.fire_pending hp]
  rfl

/-- A timer that has nothing pending may be started. -/
theorem single_start (h : t.pending = []) : (t.start due).Single := by
  rw [Single, start, h]
  rfl

/-- What was just started is pending. -/
theorem start_pending : (t.start due).pending ≠ [] :=
  List.append_ne_nil_of_right_ne_nil _ (List.cons_ne_nil _ _)

end Single

end Timer

structure LiveService where
  status : LiveStatus
  socket : Option Nat
  connecting : Bool
  stopped : Bool
  backoff : Nat
  lastRev : Int
  reconnectTimer : Timer
  bumpTimer : Timer
  stableTimer : Timer
  attached : List Nat
deriving DecidableEq

namespace LiveService

def backoffStart : Nat := 500
def backoffCap : Nat := 8000
def debounceMs : Rat := 150
def stableAfterMs : Rat := 3000

/-- `Math.random() * backoff * 0.3`, where `0.3` is the double nearest to it. -/
def jitter (random : Rat) (backoff : Nat) : Rat :=
  Lib.nearest (Lib.nearest (random * backoff) * Lib.nearest (3 / 10))

/-- `Math.min(this.backoff, BACKOFF_CAP) + jitter` -/
def delay (random : Rat) (backoff : Nat) : Rat :=
  Lib.nearest ((min backoff backoffCap : Nat) + jitter random backoff)

def new : LiveService :=
  ⟨.offline, none, false, false, backoffStart, 0, .new, .new, .new, []⟩

/-- Coalesce a burst of events into one refetch: the timer starts anew. -/
def scheduleBump (now : Rat) (s : LiveService) : LiveService :=
  { s with bumpTimer := s.bumpTimer.clear.start (now + debounceMs) }

def scheduleReconnect (now random : Rat) (s : LiveService) : LiveService :=
  if s.stopped then s
  else if s.reconnectTimer.field.isSome then s
  else
    { s with
      backoff := min (s.backoff * 2) backoffCap
      reconnectTimer := s.reconnectTimer.start (now + delay random s.backoff) }

def openSocket (now random : Rat) (made : Option Nat) (s : LiveService) : LiveService :=
  let s : LiveService := { s with
    connecting := true
    status := if s.status = LiveStatus.offline then .connecting else s.status
    lastRev := 0 }
  match made with
  | none => scheduleReconnect now random { s with connecting := false }
  | some k => { s with socket := some k, attached := s.attached ++ [k] }

/-- Open the live channel; ignored if already up or opening. -/
def connect (now random : Rat) (made : Option Nat) (s : LiveService) : LiveService :=
  if s.socket.isSome ∨ s.connecting then s
  else openSocket now random made { s with stopped := false }

def onopen (now : Rat) (s : LiveService) : LiveService :=
  scheduleBump now { s with
    connecting := false
    status := .live
    stableTimer := s.stableTimer.clear.start (now + stableAfterMs) }

/-- `msg?.rev` when it is a number. -/
def msgRev : Json → Option Int
  | .obj fields =>
    match fields.reverse.find? (fun f => f.1 = "rev") with
    | some (_, .num rev) => some rev
    | _ => none
  | _ => none

/-- `data` is what `JSON.parse` makes of the frame, `none` when it throws. -/
def onmessage (now : Rat) (data : Option Json) (s : LiveService) : LiveService :=
  match data with
  | none => s
  | some msg =>
    match msgRev msg with
    | none => s
    | some rev =>
      if rev ≤ s.lastRev then s
      else scheduleBump now { s with lastRev := rev }

/-- `this.socket`'s handler slots are emptied. -/
def detach (s : LiveService) : List Nat := s.attached.filter fun k => s.socket ≠ some k

/-- Socket closed or errored: mark reconnecting and schedule a retry. -/
def handleDrop (now random : Rat) (s : LiveService) : LiveService :=
  let s : LiveService := { s with
    connecting := false
    attached := s.detach
    socket := none
    stableTimer := s.stableTimer.clear }
  if s.stopped then s
  else scheduleReconnect now random { s with status := .reconnecting }

/-- The callback of the bump timer, up to its `bus.bump()`. -/
def fireBump (handle : Nat) (s : LiveService) : LiveService :=
  { s with bumpTimer := s.bumpTimer.fire handle }

def fireReconnect (now random : Rat) (made : Option Nat) (handle : Nat) (s : LiveService) :
    LiveService :=
  openSocket now random made { s with reconnectTimer := s.reconnectTimer.fire handle }

def fireStable (handle : Nat) (s : LiveService) : LiveService :=
  { s with stableTimer := s.stableTimer.fire handle, backoff := backoffStart }

def disconnect (s : LiveService) : LiveService :=
  { s with
    stopped := true
    connecting := false
    reconnectTimer := s.reconnectTimer.clear
    bumpTimer := s.bumpTimer.clear
    stableTimer := s.stableTimer.clear
    attached := s.detach
    socket := none
    status := .offline }

/-- A bump is scheduled. -/
def BumpPending (s : LiveService) : Prop := s.bumpTimer.pending ≠ []

instance (s : LiveService) : Decidable s.BumpPending := inferInstanceAs (Decidable (_ ≠ _))

/-! ## What the callbacks leave alone -/

section Fields

variable {now random : Rat} {made : Option Nat} {s : LiveService}

/-- A bump that was scheduled is pending. -/
theorem scheduleBump_pending : (scheduleBump now s).BumpPending := Timer.start_pending

/-- `onopen` schedules one. -/
theorem onopen_pending : (onopen now s).BumpPending := Timer.start_pending

/-- A retry changes the backoff and the reconnect timer at most. -/
theorem scheduleReconnect_only (now random : Rat) (s : LiveService) : ∃ backoff timer,
    scheduleReconnect now random s = { s with backoff := backoff, reconnectTimer := timer } := by
  unfold scheduleReconnect
  split
  · exact ⟨_, _, rfl⟩
  · split
    · exact ⟨_, _, rfl⟩
    · exact ⟨_, _, rfl⟩

/-- Opening a socket, field by field, up to the backoff and the timers. -/
theorem openSocket_only (now random : Rat) (made : Option Nat) (s : LiveService) :
    ∃ backoff timer connecting status,
    openSocket now random made s = { s with
      backoff := backoff
      reconnectTimer := timer
      connecting := connecting
      status := status
      lastRev := 0
      socket := made.or s.socket
      attached := s.attached ++ made.toList } := by
  cases made with
  | none =>
    obtain ⟨backoff, timer, h⟩ := scheduleReconnect_only now random { s with
      connecting := false
      status := if s.status = LiveStatus.offline then .connecting else s.status
      lastRev := 0 }
    refine ⟨backoff, timer, false,
      if s.status = LiveStatus.offline then .connecting else s.status, ?_⟩
    rw [Option.none_or, Option.toList_none, List.append_nil]
    exact h
  | some k => exact ⟨s.backoff, s.reconnectTimer, true, _, rfl⟩

/-- A drop, field by field, up to the backoff and the reconnect timer. -/
theorem handleDrop_only (now random : Rat) (s : LiveService) : ∃ backoff timer status,
    handleDrop now random s = { s with
      backoff := backoff
      reconnectTimer := timer
      connecting := false
      status := status
      socket := none
      attached := s.detach
      stableTimer := s.stableTimer.clear } := by
  unfold handleDrop
  simp only
  split
  · exact ⟨_, _, _, rfl⟩
  · obtain ⟨backoff, timer, h⟩ := scheduleReconnect_only now random { s with
      connecting := false
      attached := s.detach
      socket := none
      stableTimer := s.stableTimer.clear
      status := .reconnecting }
    exact ⟨backoff, timer, _, h⟩

/-- A new socket starts without a revision. -/
@[simp] theorem openSocket_lastRev : (openSocket now random made s).lastRev = 0 := by
  obtain ⟨_, _, _, _, h⟩ := openSocket_only now random made s
  rw [h]

/-- Opening a socket attaches it; a factory that throws attaches nothing. -/
theorem openSocket_attached :
    (openSocket now random made s).attached = s.attached ++ made.toList := by
  obtain ⟨_, _, _, _, h⟩ := openSocket_only now random made s
  rw [h]

/-- The socket is the new one, if one could be made. -/
theorem openSocket_socket : (openSocket now random made s).socket = made.or s.socket := by
  obtain ⟨_, _, _, _, h⟩ := openSocket_only now random made s
  rw [h]

/-- A drop lets the socket go. -/
@[simp] theorem handleDrop_socket : (handleDrop now random s).socket = none := by
  obtain ⟨_, _, _, h⟩ := handleDrop_only now random s
  rw [h]

/-- It keeps the revision. -/
@[simp] theorem handleDrop_lastRev : (handleDrop now random s).lastRev = s.lastRev := by
  obtain ⟨_, _, _, h⟩ := handleDrop_only now random s
  rw [h]

/-- A service that has just been constructed opens a socket. -/
theorem connect_new : connect now random made new = openSocket now random made new :=
  if_neg (by decide)

/-- The hub's own frames are read back: `onmessage` sees the revision `Broadcast` gave. -/
theorem msgRev_toJson (ev : Hub.Event) : msgRev ev.toJson = some ev.rev := rfl

/-- A frame of the hub is thrown away if it is stale; otherwise it schedules a bump. -/
theorem onmessage_toJson (ev : Hub.Event) :
    onmessage now (some ev.toJson) s =
      if ev.rev ≤ s.lastRev then s else scheduleBump now { s with lastRev := ev.rev } := by
  simp only [onmessage, msgRev_toJson]

/-- At most one reconnect is pending, and only while there is no socket. -/
structure Waiting (s : LiveService) : Prop where
  single : s.reconnectTimer.Single
  socket : s.reconnectTimer.pending ≠ [] → s.socket = none

/-- Without a socket the retry is pending. -/
theorem Waiting.scheduleReconnect (hsingle : s.reconnectTimer.Single) (hsocket : s.socket = none) :
    (scheduleReconnect now random s).Waiting := by
  have hafter : (LiveService.scheduleReconnect now random s).socket = none := by
    obtain ⟨_, _, h⟩ := scheduleReconnect_only now random s
    rw [h]
    exact hsocket
  refine ⟨?_, fun _ => hafter⟩
  unfold LiveService.scheduleReconnect
  split
  · exact hsingle
  · split
    · exact hsingle
    · next hfield =>
      exact Timer.single_start (hsingle.idle (Option.not_isSome_iff_eq_none.mp hfield))

/-- Opening a socket while there is none and no reconnect is pending. -/
theorem Waiting.openSocket (hpending : s.reconnectTimer.pending = [])
    (hsingle : s.reconnectTimer.Single) (hsocket : s.socket = none) :
    (openSocket now random made s).Waiting := by
  cases made with
  | none => exact Waiting.scheduleReconnect hsingle hsocket
  | some k => exact ⟨hsingle, fun h => absurd hpending h⟩

/-- After a drop the service waits or is stopped. -/
theorem Waiting.handleDrop (h : s.Waiting) : (handleDrop now random s).Waiting := by
  unfold LiveService.handleDrop
  simp only
  split
  · exact ⟨h.single, fun _ => rfl⟩
  · exact Waiting.scheduleReconnect h.single rfl

/-- A reconnect that fires finds no socket. -/
theorem Waiting.no_socket {handle : Nat} (h : s.Waiting)
    (hp : s.reconnectTimer.Pending handle) : s.socket = none := by
  obtain ⟨o, ho, -⟩ := hp
  exact h.socket (List.ne_nil_of_mem ho)

/-- A reconnect that fires leaves no other pending. -/
theorem Waiting.fireReconnect {handle : Nat} (h : s.Waiting)
    (hp : s.reconnectTimer.Pending handle) :
    (fireReconnect now random made handle s).Waiting :=
  .openSocket (h.single.fire_pending hp) (h.single.fire hp) (h.no_socket hp)

/-- A stopped service waits for nothing. -/
theorem Waiting.disconnect (h : s.Waiting) : s.disconnect.Waiting :=
  ⟨h.single.clear, fun _ => rfl⟩

end Fields

end LiveService

end ReleaseRadar
