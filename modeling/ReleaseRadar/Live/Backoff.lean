import Mathlib.Tactic.Linarith
import ReleaseRadar.Live.SingleChannel

/-!
# Reconnects cannot storm

A page under the clock: time does not run backwards, a timer fires when it is due, and
`Math.random()` gives a number in `[0, 1)`. Beside the page stands what is seen of it from
outside: the delays of the reconnects it schedules, read off the timer, and the socket that
is open, from its `onopen` to the first event that ends it.

A delay is the backoff and a jitter of up to three tenths of it. Both bounds are doubles, so
the rounding does not pass them (`delayFor_delay`); but it reaches the upper one
(`no_storm_reaches_bound`).

The backoff doubles with every reconnect that is scheduled, whoever schedules it, a drop or a
factory that throws (`Retries`). It falls back in one place, the callback of the stability
timer, and that timer only ever waits for the socket that is open: a drop clears it before
anything else (`Paced.stable`). So an accept-then-drop server sees delays that double up to the
cap (`no_storm`).
-/

namespace ReleaseRadar

open Lib

namespace Live

/-- A page under the clock. -/
structure Watched where
  page : Page
  now : Rat
  /-- The socket that is open, and since when. -/
  opened : Option (Nat × Rat)
  /-- The delays scheduled since the backoff was last reset, the latest first. -/
  delays : List Rat

/-- A timer fires when it is due; of the delay of a reconnect `setTimeout` drops the fraction of
a millisecond. -/
def Timely (p : Page) (c : Callback) : Prop :=
  match c.event with
  | .bump handle => p.live.bumpTimer.Due c.now handle
  | .reconnect handle _ _ => p.live.reconnectTimer.Due (c.now + 1) handle
  | .stable handle => p.live.stableTimer.Due c.now handle
  | .connect _ _ | .disconnect | .opened _ | .message _ _ | .errored _ _ | .closed _ _ => True

/-- What `Math.random()` gives. -/
def Jitter (c : Callback) : Prop :=
  match c.event with
  | .connect random _ | .errored _ random | .closed _ random | .reconnect _ random _ =>
    0 ≤ random ∧ random < 1
  | .disconnect | .opened _ | .message _ _ | .bump _ | .stable _ => True

instance (p : Page) : (c : Callback) → Decidable (Timely p c)
  | ⟨now, .bump handle⟩ => inferInstanceAs (Decidable (p.live.bumpTimer.Due now handle))
  | ⟨now, .reconnect handle _ _⟩ =>
    inferInstanceAs (Decidable (p.live.reconnectTimer.Due (now + 1) handle))
  | ⟨now, .stable handle⟩ => inferInstanceAs (Decidable (p.live.stableTimer.Due now handle))
  | ⟨_, .connect _ _⟩ | ⟨_, .disconnect⟩ | ⟨_, .opened _⟩ | ⟨_, .message _ _⟩ | ⟨_, .errored _ _⟩
  | ⟨_, .closed _ _⟩ => isTrue trivial

instance : (c : Callback) → Decidable (Jitter c)
  | ⟨_, .connect random _⟩ | ⟨_, .errored _ random⟩ | ⟨_, .closed _ random⟩
  | ⟨_, .reconnect _ random _⟩ => inferInstanceAs (Decidable (0 ≤ random ∧ random < 1))
  | ⟨_, .disconnect⟩ | ⟨_, .opened _⟩ | ⟨_, .message _ _⟩ | ⟨_, .bump _⟩ | ⟨_, .stable _⟩ =>
    isTrue trivial

/-- The event ends the socket `k`. -/
def PageEvent.ends (k : Nat) : PageEvent → Bool
  | errored i _ | closed i _ => i == k
  | disconnect => true
  | connect _ _ | opened _ | message _ _ | bump _ | reconnect _ _ _ | stable _ => false

/-- The socket that is open after the callback: one that opens and is heard, or the one that
was and has not ended. -/
def heard (p : Page) (c : Callback) (opened : Option (Nat × Rat)) : Option (Nat × Rat) :=
  match c.event with
  | .opened k => if k ∈ p.live.attached then some (k, c.now) else opened
  | event => opened.filter fun o => !event.ends o.1

/-- The delay the callback has scheduled, if it has. -/
def scheduled (now : Rat) (before after : Timer) : List Rat :=
  if before.started < after.started then (after.pending.getLast?.map fun o => o.due - now).toList
  else []

def delaysAfter (p p' : Page) (c : Callback) (delays : List Rat) : List Rat :=
  match c.event with
  | .stable _ => []
  | _ => scheduled c.now p.live.reconnectTimer p'.live.reconnectTimer ++ delays

def watchStep (w : Watched) (c : Callback) : Option Watched :=
  if w.now ≤ c.now ∧ Timely w.page c ∧ Jitter c then
    (pageStep w.page c).map fun p =>
      ⟨p, c.now, heard w.page c w.opened, delaysAfter w.page p c w.delays⟩
  else none

def watch : Machine Watched Callback := ⟨watchStep⟩

def startWatch : Watched := ⟨newPage, 0, none, []⟩

/-- The `k`-th backoff after a reset. -/
def backoffAt (k : Nat) : Nat := min (500 * 2 ^ k) 8000

/-- The backoff is capped. -/
theorem backoffAt_le (k : Nat) : backoffAt k ≤ 8000 := Nat.min_le_right _ _

/-- It starts at 500 ms. -/
theorem le_backoffAt (k : Nat) : 500 ≤ backoffAt k := by
  have hpow : 1 ≤ 2 ^ k := Nat.one_le_two_pow
  unfold backoffAt
  omega

/-- Each try doubles it, up to the cap. -/
theorem backoffAt_succ (k : Nat) : min (backoffAt k * 2) 8000 = backoffAt (k + 1) := by
  unfold backoffAt
  rw [Nat.pow_succ]
  omega

/-- A delay for the backoff `b`: the backoff and up to three tenths of it. -/
def DelayFor (b : Nat) (d : Rat) : Prop := (b : Rat) ≤ d ∧ d ≤ 13 / 10 * b

/-- The backoffs are whole tens, so that three tenths of one are a whole number. -/
def Tens (b : Nat) : Prop := 10 ∣ b ∧ 500 ≤ b ∧ b ≤ 8000

/-- All of its values are whole tens. -/
theorem tens_backoffAt (k : Nat) : Tens (backoffAt k) := by
  refine ⟨?_, le_backoffAt k, backoffAt_le k⟩
  unfold backoffAt
  rcases le_total (500 * 2 ^ k) 8000 with h | h
  · rw [min_eq_left h]
    exact Dvd.dvd.mul_right (by decide) _
  · rw [min_eq_right h]
    decide

/-- The double of the source's `0.3` is not above it. -/
theorem nearest_three_tenths : 0 ≤ nearest (3 / 10) ∧ nearest (3 / 10) ≤ 3 / 10 := by
  refine ⟨le_nearest (onGrid_intCast (n := 0) (by decide)) (by norm_num), ?_⟩
  have hdouble : nearest (3 / 10) ≤ ((5404319552844595 : Int) : Rat) * 2 ^ (-54 : Int) :=
    (nearest_le_iff (by decide) (by decide) (by decide)).mpr (.inl (by norm_num))
  refine hdouble.trans ?_
  norm_num

/-- **The rounding passes neither bound of a delay.** -/
theorem delayFor_delay {random : Rat} {b : Nat} (hrandom : 0 ≤ random ∧ random < 1) (hb : Tens b) :
    DelayFor b (LiveService.delay random b) := by
  obtain ⟨⟨n, rfl⟩, -, hcap⟩ := hb
  -- a whole number of this size is a double
  have hgrid : ∀ m : Nat, m ≤ 13 * n → OnGrid (m : Rat) := fun m hm => by
    have h := onGrid_intCast (n := m) (by rw [abs_of_nonneg (by omega)]; omega)
    rwa [Int.cast_natCast] at h
  have hnonneg : (0 : Rat) ≤ (10 * n : Nat) := Nat.cast_nonneg _
  obtain ⟨hthree, hthree'⟩ := nearest_three_tenths
  have hshare : 0 ≤ nearest (random * (10 * n : Nat)) ∧
      nearest (random * (10 * n : Nat)) ≤ (10 * n : Nat) :=
    ⟨by simpa using le_nearest (hgrid 0 (by omega)) (by simpa using mul_nonneg hrandom.1 hnonneg),
      nearest_le (hgrid _ (by omega)) (mul_le_of_le_one_left hnonneg hrandom.2.le)⟩
  have hjitter : 0 ≤ LiveService.jitter random (10 * n) ∧
      LiveService.jitter random (10 * n) ≤ (3 * n : Nat) := by
    unfold LiveService.jitter
    have hpositive : 0 ≤ nearest (random * (10 * n : Nat)) * nearest (3 / 10) :=
      mul_nonneg hshare.1 hthree
    refine ⟨by simpa using le_nearest (hgrid 0 (by omega)) (by simpa using hpositive),
      nearest_le (hgrid _ (by omega)) ?_⟩
    calc nearest (random * (10 * n : Nat)) * nearest (3 / 10)
        ≤ (10 * n : Nat) * (3 / 10) := mul_le_mul hshare.2 hthree' hthree hnonneg
      _ = (3 * n : Nat) := by push_cast; ring
  unfold LiveService.delay
  rw [min_eq_left (show 10 * n ≤ LiveService.backoffCap from hcap)]
  constructor
  · exact le_nearest (hgrid _ (by omega)) (le_add_of_nonneg_right hjitter.1)
  · have hsum : 13 / 10 * ((10 * n : Nat) : Rat) = (13 * n : Nat) := by push_cast; ring
    rw [hsum]
    refine nearest_le (hgrid _ le_rfl) ?_
    calc ((10 * n : Nat) : Rat) + LiveService.jitter random (10 * n)
        ≤ (10 * n : Nat) + (3 * n : Nat) := by linarith [hjitter.2]
      _ = (13 * n : Nat) := by push_cast; ring

/-! ## What a callback does to the backoff -/

/-- Between the two the backoff and the count of reconnects stay, or one reconnect is
scheduled and the backoff doubles. -/
def Retries (now : Rat) (live live' : LiveService) : Prop :=
  live'.backoff = live.backoff ∧ live'.reconnectTimer.started = live.reconnectTimer.started ∨
    ∃ d, DelayFor live.backoff d ∧ live'.backoff = min (live.backoff * 2) 8000 ∧
      live'.reconnectTimer.started = live.reconnectTimer.started + 1 ∧
      live'.reconnectTimer.pending.getLast?.map (·.due) = some (now + d)

section Retries

variable {live live' : LiveService} {now random : Rat} {made : Option Nat} {handle : Nat}

/-- Nothing was scheduled. -/
theorem Retries.refl : Retries now live live := Or.inl ⟨rfl, rfl⟩

/-- A retry is scheduled within the jitter of the backoff, and the backoff goes on. -/
theorem retries_scheduleReconnect (hrandom : 0 ≤ random ∧ random < 1) (htens : Tens live.backoff) :
    Retries now live (live.scheduleReconnect now random) := by
  unfold LiveService.scheduleReconnect
  split
  · exact Retries.refl
  · split
    · exact Retries.refl
    · refine Or.inr ⟨LiveService.delay random live.backoff, delayFor_delay hrandom htens,
        rfl, rfl, ?_⟩
      simp [Timer.start]

/-- A socket that cannot be made schedules one. -/
theorem retries_openSocket (hrandom : 0 ≤ random ∧ random < 1) (htens : Tens live.backoff) :
    Retries now live (live.openSocket now random made) := by
  cases made with
  | some k => exact Or.inl ⟨rfl, rfl⟩
  | none =>
    exact @retries_scheduleReconnect
      { live with
        connecting := false
        status := if live.status = LiveStatus.offline then .connecting else live.status
        lastRev := 0 } now random hrandom htens

/-- A drop schedules one. -/
theorem retries_handleDrop (hrandom : 0 ≤ random ∧ random < 1) (htens : Tens live.backoff) :
    Retries now live (live.handleDrop now random) := by
  unfold LiveService.handleDrop
  dsimp only
  split
  · exact Retries.refl
  · exact @retries_scheduleReconnect
      { live with
        connecting := false
        attached := live.detach
        socket := none
        stableTimer := live.stableTimer.clear
        status := .reconnecting } now random hrandom htens

/-- `connect` does as `openSocket`. -/
theorem retries_connect (hrandom : 0 ≤ random ∧ random < 1) (htens : Tens live.backoff) :
    Retries now live (live.connect now random made) := by
  unfold LiveService.connect
  split
  · exact Retries.refl
  · exact @retries_openSocket { live with stopped := false } now random made hrandom htens

/-- A message schedules none. -/
theorem retries_onmessage {data : Option Json} : Retries now live (live.onmessage now data) := by
  unfold LiveService.onmessage
  split
  · exact Retries.refl
  · split
    · exact Retries.refl
    · split
      · exact Retries.refl
      · exact Or.inl ⟨rfl, rfl⟩

end Retries

section Steps

variable {p p' : Page} {c : Callback} {k : Nat}

/-- A handler of a socket the service has let go of does nothing. -/
theorem retries_on {f : LiveService → LiveService} {now : Rat} (hs : p.on k f = some p')
    (hf : Retries now p.live (f p.live)) : Retries now p.live p'.live := by
  rcases of_on hs with rfl | ⟨-, rfl⟩
  · exact Retries.refl
  · exact hf

/-- **Every callback but the stability timer's** leaves the backoff or doubles it with the
reconnect it schedules; and that one resets it. -/
theorem backoff_step (hc : Jitter c) (htens : Tens p.live.backoff)
    (hs : pageStep p c = some p') :
    (∃ handle, c.event = .stable handle ∧ p.live.stableTimer.Pending handle ∧
      p'.live = p.live.fireStable handle) ∨
    (∀ handle, c.event ≠ .stable handle) ∧ Retries c.now p.live p'.live := by
  obtain ⟨now, event⟩ := c
  cases event with
  | stable handle =>
    simp only [pageStep] at hs
    split at hs
    · next hp =>
      cases hs
      exact Or.inl ⟨handle, rfl, hp, rfl⟩
    · cases hs
  | connect random ok =>
    refine Or.inr ⟨fun _ he => (by cases he), ?_⟩
    simp only [pageStep] at hs
    split at hs <;>
    · cases hs
      exact retries_connect hc htens
  | disconnect =>
    cases hs
    exact Or.inr ⟨fun _ he => (by cases he), Or.inl ⟨rfl, rfl⟩⟩
  | opened k => exact Or.inr ⟨fun _ he => (by cases he), retries_on hs (Or.inl ⟨rfl, rfl⟩)⟩
  | message k data => exact Or.inr ⟨fun _ he => (by cases he), retries_on hs retries_onmessage⟩
  | errored k random =>
    exact Or.inr ⟨fun _ he => (by cases he), retries_on hs (retries_handleDrop hc htens)⟩
  | closed k random =>
    exact Or.inr ⟨fun _ he => (by cases he), retries_on hs (retries_handleDrop hc htens)⟩
  | bump handle =>
    refine Or.inr ⟨fun _ he => (by cases he), ?_⟩
    simp only [pageStep] at hs
    split at hs
    · cases hs
      exact Or.inl ⟨rfl, rfl⟩
    · cases hs
  | reconnect handle random ok =>
    refine Or.inr ⟨fun _ he => (by cases he), ?_⟩
    simp only [pageStep] at hs
    split at hs
    · cases hs
      exact @retries_openSocket
        { p.live with reconnectTimer := p.live.reconnectTimer.fire handle } _ random _ hc htens
    · cases hs

/-- The handler runs if the socket is still attached. -/
theorem on_cases {f : LiveService → LiveService} (hs : p.on k f = some p') :
    k ∈ p.live.attached ∧ p' = { p with live := f p.live } ∨ k ∉ p.live.attached ∧ p' = p := by
  unfold Page.on at hs
  split at hs
  · split at hs
    · next hk => exact Or.inl ⟨hk, (Option.some.inj hs).symm⟩
    · next hk => exact Or.inr ⟨hk, (Option.some.inj hs).symm⟩
  · cases hs

/-- The stability timer, if it is pending, waits for the socket that is open, from its
`onopen` on. -/
def Steady (live : LiveService) (opened : Option (Nat × Rat)) : Prop :=
  ∀ o ∈ live.stableTimer.pending, ∃ k t, live.socket = some k ∧ opened = some (k, t) ∧
    o.due = t + 3000

variable {opened : Option (Nat × Rat)} {live : LiveService}

/-- Without the stable timer there is nothing to wait for. -/
theorem steady_nil (h : live.stableTimer.pending = []) : Steady live opened := by
  intro o ho
  rw [h] at ho
  cases ho

/-- Without a socket no stability timer is pending. -/
theorem Steady.no_socket (h : Steady live opened) (hsocket : live.socket = none) :
    live.stableTimer.pending = [] := by
  refine List.eq_nil_iff_forall_not_mem.mpr fun o ho => ?_
  obtain ⟨k, t, hk, -⟩ := h o ho
  rw [hsocket] at hk
  cases hk

/-- A drop that is heard clears the stability timer. -/
theorem steady_drop {now random : Rat} (h : PageInv p.live) (hst : Steady p.live opened)
    (hs : p.on k (LiveService.handleDrop now random) = some p') :
    Steady p'.live (opened.filter fun o => !(k == o.1)) := by
  rcases on_cases hs with ⟨-, rfl⟩ | ⟨hk, rfl⟩
  · refine steady_nil ?_
    obtain ⟨backoff, timer, status, heq⟩ := LiveService.handleDrop_only now random p.live
    show (p.live.handleDrop now random).stableTimer.pending = []
    rw [heq]
    exact h.stable.clear_pending
  · -- the open socket is attached, so it is another one
    intro o ho
    obtain ⟨i, t, hsocket, hopened, hdue⟩ := hst o ho
    refine ⟨i, t, hsocket, ?_, hdue⟩
    have hne : (k == i) = false := by
      rw [beq_eq_false_iff_ne]
      rintro rfl
      rw [h.attached, hsocket] at hk
      exact hk (List.mem_singleton_self k)
    rw [hopened]
    show Option.filter _ (some (i, t)) = _
    simp [Option.filter, hne]

/-- The stable timer belongs to the last socket that has opened. -/
theorem steady_step (h : PageInv p.live) (hst : Steady p.live opened)
    (hs : pageStep p c = some p') : Steady p'.live (heard p c opened) := by
  obtain ⟨now, event⟩ := c
  -- no event but `opened` and a drop changes the socket that counts as open
  have hquiet : opened.filter (fun _ => true) = opened := by cases opened <;> rfl
  cases event with
  | connect random ok =>
    show Steady p'.live (opened.filter fun _ => true)
    rw [hquiet]
    simp only [pageStep] at hs
    split at hs
    · -- there is a socket or one is being opened: nothing happens
      next hguard =>
      cases hs
      show Steady (p.live.connect now random none) opened
      rw [LiveService.connect, if_pos hguard]
      exact hst
    · next hguard =>
      cases hs
      -- no socket before the call, so no stability timer runs
      refine steady_nil ?_
      have hsocket : p.live.socket = none :=
        Option.not_isSome_iff_eq_none.mp fun hsome => hguard (Or.inl hsome)
      show (p.live.connect now random (p.made ok)).stableTimer.pending = []
      rw [LiveService.connect, if_neg hguard]
      obtain ⟨_, _, _, _, heq⟩ :=
        LiveService.openSocket_only now random (p.made ok) { p.live with stopped := false }
      rw [heq]
      exact hst.no_socket hsocket
  | disconnect =>
    cases hs
    exact steady_nil h.stable.clear_pending
  | opened k =>
    rcases on_cases hs with ⟨hk, rfl⟩ | ⟨hk, rfl⟩
    · show Steady _ (if k ∈ p.live.attached then some (k, now) else opened)
      rw [if_pos hk]
      intro o ho
      refine ⟨k, now, ?_, rfl, ?_⟩
      · rw [h.attached] at hk
        exact Option.mem_toList.mp hk
      · -- `onopen` clears the timer before it starts it
        have hpending : (p.live.onopen now).stableTimer.pending =
            p.live.stableTimer.clear.pending ++
              [⟨p.live.stableTimer.clear.started, now + 3000⟩] := rfl
        have ho : o ∈ (p.live.onopen now).stableTimer.pending := ho
        rw [hpending, h.stable.clear_pending] at ho
        rw [List.mem_singleton.mp ho]
    · show Steady _ (if k ∈ p'.live.attached then some (k, now) else opened)
      rw [if_neg hk]
      exact hst
  | message k data =>
    show Steady p'.live (opened.filter fun _ => true)
    rw [hquiet]
    rcases on_cases hs with ⟨-, rfl⟩ | ⟨-, rfl⟩
    · show Steady (p.live.onmessage now data) opened
      unfold LiveService.onmessage
      split
      · exact hst
      · split
        · exact hst
        · split
          · exact hst
          · exact hst
    · exact hst
  | errored k random => exact steady_drop h hst hs
  | closed k random => exact steady_drop h hst hs
  | bump handle =>
    show Steady p'.live (opened.filter fun _ => true)
    rw [hquiet]
    simp only [pageStep] at hs
    split at hs
    · cases hs
      exact hst
    · cases hs
  | reconnect handle random ok =>
    simp only [pageStep] at hs
    split at hs
    · next hp =>
      cases hs
      -- a pending retry means there is no socket
      refine steady_nil ?_
      obtain ⟨_, _, _, _, heq⟩ := LiveService.openSocket_only now random (p.made ok)
        { p.live with reconnectTimer := p.live.reconnectTimer.fire handle }
      show (p.live.fireReconnect now random (p.made ok) handle).stableTimer.pending = []
      rw [LiveService.fireReconnect, heq]
      exact hst.no_socket (h.waiting.no_socket hp)
    · cases hs
  | stable handle =>
    simp only [pageStep] at hs
    split at hs
    · next hp =>
      cases hs
      exact steady_nil (h.stable.fire_pending hp)
    · cases hs

end Steps

/-! ## Runs -/

/-- The backoff is the one the number of delays calls for, and each delay was one for the
backoff of its time. -/
structure Paced (w : Watched) : Prop where
  inv : PageInv w.page.live
  steady : Steady w.page.live w.opened
  backoff : w.page.live.backoff = backoffAt w.delays.length
  delays : ∀ newer d older, w.delays = newer ++ d :: older → DelayFor (backoffAt older.length) d

/-- The watch starts with a new page. -/
theorem paced_start : Paced startWatch where
  inv := PageInv.new
  steady := steady_nil rfl
  backoff := rfl
  delays newer d older h := by
    have hnil : startWatch.delays = [] := rfl
    rw [hnil] at h
    simp at h

section Runs

variable {w w' : Watched} {c : Callback}

/-- What one step of the watch does. -/
theorem watchStep_some (hs : watchStep w c = some w') :
    w.now ≤ c.now ∧ Timely w.page c ∧ Jitter c ∧ ∃ p, pageStep w.page c = some p ∧
      w' = ⟨p, c.now, heard w.page c w.opened, delaysAfter w.page p c w.delays⟩ := by
  unfold watchStep at hs
  split at hs
  · next h =>
    obtain ⟨p, hp, rfl⟩ := Option.map_eq_some_iff.mp hs
    exact ⟨h.1, h.2.1, h.2.2, p, hp, rfl⟩
  · cases hs

/-- What a callback does to the backoff and to the delays. -/
theorem delays_step (h : Paced w) (hs : watchStep w c = some w') :
    (∃ handle, c.event = .stable handle ∧ w'.page.live.backoff = 500 ∧ w'.delays = []) ∨
    (w'.page.live.backoff = w.page.live.backoff ∧ w'.delays = w.delays) ∨
    ∃ d, DelayFor w.page.live.backoff d ∧
      w'.page.live.backoff = min (w.page.live.backoff * 2) 8000 ∧
      w'.delays = d :: w.delays := by
  obtain ⟨-, -, hjitter, p, hp, rfl⟩ := watchStep_some hs
  have htens : Tens w.page.live.backoff := h.backoff ▸ tens_backoffAt _
  rcases backoff_step hjitter htens hp with ⟨handle, hevent, -, hfired⟩ | ⟨hother, hretries⟩
  · refine Or.inl ⟨handle, hevent, ?_, ?_⟩
    · show p.live.backoff = 500
      rw [hfired]
      rfl
    · show delaysAfter w.page p c w.delays = []
      unfold delaysAfter
      rw [hevent]
  · have hdelays : delaysAfter w.page p c w.delays =
        scheduled c.now w.page.live.reconnectTimer p.live.reconnectTimer ++ w.delays := by
      unfold delaysAfter
      split
      · next handle hevent => exact absurd hevent (hother handle)
      · rfl
    rcases hretries with ⟨hb, hstarted⟩ | ⟨d, hd, hb, hstarted, hdue⟩
    · refine Or.inr (Or.inl ⟨hb, ?_⟩)
      show delaysAfter w.page p c w.delays = w.delays
      rw [hdelays, scheduled, if_neg (by omega)]
      rfl
    · refine Or.inr (Or.inr ⟨d, hd, hb, ?_⟩)
      show delaysAfter w.page p c w.delays = d :: w.delays
      obtain ⟨o, ho, hodue⟩ := Option.map_eq_some_iff.mp hdue
      rw [hdelays, scheduled, if_pos (by omega), ho]
      show [o.due - c.now] ++ w.delays = d :: w.delays
      rw [hodue, add_sub_cancel_left]
      rfl

/-- A step keeps the delays within the pace. -/
theorem paced_step (h : Paced w) (hG : Unhurried w.page c) (hs : watchStep w c = some w') :
    Paced w' := by
  have hdelays := delays_step h hs
  obtain ⟨-, -, hjitter, p, hp, rfl⟩ := watchStep_some hs
  refine ⟨pageInv_step h.inv hG hp, steady_step h.inv h.steady hp, ?_, ?_⟩
  · rcases hdelays with ⟨handle, -, hb, hd⟩ | ⟨hb, hd⟩ | ⟨d, -, hb, hd⟩
    · rw [hb, hd]
      rfl
    · rw [hb, hd]
      exact h.backoff
    · rw [hb, hd, h.backoff]
      exact backoffAt_succ _
  · intro newer d older heq
    rcases hdelays with ⟨handle, -, -, hd⟩ | ⟨-, hd⟩ | ⟨d', hd', -, hd⟩
    · rw [hd] at heq
      simp at heq
    · exact h.delays newer d older (hd ▸ heq)
    · rw [hd] at heq
      cases newer with
      | nil =>
        obtain ⟨rfl, rfl⟩ := List.cons.inj heq
        rw [← h.backoff]
        exact hd'
      | cons first newer => exact h.delays newer d older (List.cons.inj heq).2

/-- The open socket opened in the run, and nothing has ended it since. -/
theorem opened_since {k : Nat} {since : Rat} :
    ∀ {cs : List Callback} {w w' : Watched}, watch.exec w cs = some w' →
      w'.opened = some (k, since) →
      (w.opened = some (k, since) ∧ ∀ c ∈ cs, c.event.ends k = false) ∨
      ∃ before after, cs = before ++ ⟨since, .opened k⟩ :: after ∧
        ∀ c ∈ after, c.event.ends k = false := by
  intro cs
  induction cs with
  | nil =>
    intro w w' he hopened
    obtain rfl := Option.some.inj he
    exact Or.inl ⟨hopened, fun c hc => by cases hc⟩
  | cons c cs ih =>
    intro w w' he hopened
    obtain ⟨w₁, hs, he'⟩ := watch.exec_cons_some he
    obtain ⟨-, -, -, p, -, hw₁⟩ := watchStep_some hs
    rcases ih he' hopened with ⟨hw, hquiet⟩ | ⟨before, after, rfl, hquiet⟩
    · have hheard : heard w.page c w.opened = some (k, since) := by
        rw [← hw, hw₁]
      obtain ⟨now, event⟩ := c
      -- heard from this callback on, or from before and not ended by it
      have hbefore : w.opened.filter (fun o => !event.ends o.1) = some (k, since) →
          w.opened = some (k, since) ∧ ∀ c ∈ (⟨now, event⟩ :: cs : List Callback),
            c.event.ends k = false := by
        intro hfilter
        obtain ⟨hold, hends⟩ := Option.filter_eq_some_iff.mp hfilter
        refine ⟨hold, fun c hc => ?_⟩
        rcases List.mem_cons.mp hc with rfl | hc
        · simpa using hends
        · exact hquiet c hc
      cases event with
      | opened i =>
        have hheard : (if i ∈ w.page.live.attached then some (i, now) else w.opened) =
            some (k, since) := hheard
        by_cases hi : i ∈ w.page.live.attached
        · rw [if_pos hi] at hheard
          obtain ⟨rfl, rfl⟩ := Prod.mk.inj (Option.some.inj hheard)
          exact Or.inr ⟨[], cs, rfl, hquiet⟩
        · rw [if_neg hi] at hheard
          refine Or.inl ⟨hheard, fun c hc => ?_⟩
          rcases List.mem_cons.mp hc with rfl | hc
          · rfl
          · exact hquiet c hc
      | connect random ok => exact Or.inl (hbefore hheard)
      | disconnect => exact Or.inl (hbefore hheard)
      | message i data => exact Or.inl (hbefore hheard)
      | errored i random => exact Or.inl (hbefore hheard)
      | closed i random => exact Or.inl (hbefore hheard)
      | bump handle => exact Or.inl (hbefore hheard)
      | reconnect handle random ok => exact Or.inl (hbefore hheard)
      | stable handle => exact Or.inl (hbefore hheard)
    · exact Or.inr ⟨c :: before, after, rfl, hquiet⟩

end Runs

/-- **Reconnects cannot storm**: in every run after one `connect()` and without a
`disconnect()`. The backoff stays in its bounds; the delay with `k` older ones since the last
reset is one for the `k`-th backoff; and each callback leaves the backoff, or doubles it with
the reconnect it schedules, or resets it for a socket that has been open for 3000 ms. -/
theorem no_storm {t random : Rat} {ok : Bool} {rest : List Callback} {w : Watched}
    (hrest : ∀ c ∈ rest, c.event.isConnect = false ∧ c.event ≠ .disconnect)
    (hrun : watch.exec startWatch (⟨t, .connect random ok⟩ :: rest) = some w) :
    (500 ≤ w.page.live.backoff ∧ w.page.live.backoff ≤ 8000) ∧
    (∀ newer d older, w.delays = newer ++ d :: older →
      ((min (500 * 2 ^ older.length) 8000 : Nat) : Rat) ≤ d ∧
        d ≤ 13 / 10 * ((min (500 * 2 ^ older.length) 8000 : Nat) : Rat)) ∧
    ∀ c w', watchStep w c = some w' →
      (w'.page.live.backoff = w.page.live.backoff ∧ w'.delays = w.delays) ∨
      (w'.page.live.backoff = min (w.page.live.backoff * 2) 8000 ∧
        ∃ d, w'.delays = d :: w.delays) ∨
      (w'.page.live.backoff = 500 ∧ w'.delays = [] ∧ ∃ k since before after,
        w.page.live.socket = some k ∧
        (⟨t, .connect random ok⟩ :: rest : List Callback) = before ++ ⟨since, .opened k⟩ :: after ∧
        (∀ c' ∈ after, c'.event.ends k = false) ∧ since + 3000 ≤ c.now) := by
  have halong : watch.Along (fun w c => Unhurried w.page c) startWatch
      (⟨t, .connect random ok⟩ :: rest) := by
    refine watch.along_cons ?_ fun w₁ _ => watch.along_of_forall (fun c hc w₂ => ?_) w₁
    · cases ok
      · trivial
      · rfl
    · obtain ⟨now, event⟩ := c
      cases event with
      | connect random ok =>
        have hconnect : true = false := (hrest _ hc).1
        cases hconnect
      | _ => trivial
  have hpaced : Paced w := watch.exec_invariant_along
    (fun _ _ _ h hG hs => paced_step h hG hs) paced_start halong hrun
  refine ⟨⟨hpaced.backoff ▸ le_backoffAt _, hpaced.backoff ▸ backoffAt_le _⟩, hpaced.delays, ?_⟩
  intro c w' hs
  rcases delays_step hpaced hs with ⟨handle, hevent, hb, hd⟩ | hsame | ⟨d, -, hb, hd⟩
  · refine Or.inr (Or.inr ⟨hb, hd, ?_⟩)
    obtain ⟨-, htimely, -, -⟩ := watchStep_some hs
    unfold Timely at htimely
    rw [hevent] at htimely
    obtain ⟨o, ho, -, hdue⟩ := htimely
    obtain ⟨k, since, hsocket, hopened, hsince⟩ := hpaced.steady o ho
    rcases opened_since hrun hopened with ⟨hnone, -⟩ | ⟨before, after, hsplit, hquiet⟩
    · cases hnone
    · exact ⟨k, since, before, after, hsocket, hsplit, hquiet, hsince ▸ hdue⟩
  · exact Or.inl hsame
  · exact Or.inr (Or.inl ⟨hb, d, hd⟩)

/-- The factory throws once, a socket opens and drops after 90 ms, and the next one opens. -/
def shaky : List Callback :=
  [⟨0, .connect 0 false⟩, ⟨500, .reconnect 0 (1 / 2) true⟩, ⟨510, .opened 0⟩,
    ⟨600, .closed 0 (1 / 2)⟩, ⟨660, .bump 0⟩, ⟨1750, .reconnect 1 0 true⟩, ⟨1800, .opened 1⟩]

/-- Two reconnects, and the backoff is reset when the last socket has been open for 3000 ms. -/
theorem no_storm_shaky :
    ∃ w, watch.exec startWatch shaky = some w ∧ w.delays = [1150, 500] ∧
      (500 ≤ w.page.live.backoff ∧ w.page.live.backoff ≤ 8000) ∧
      (((1000 : Nat) : Rat) ≤ 1150 ∧ 1150 ≤ 13 / 10 * ((1000 : Nat) : Rat)) ∧
      ∃ w', watchStep w ⟨4800, .stable 1⟩ = some w' ∧ w'.delays = [] ∧
        ∃ k since, w.page.live.socket = some k ∧ Callback.mk since (.opened k) ∈ shaky ∧
          since + 3000 ≤ 4800 := by
  have hruns : ∃ w, watch.exec startWatch shaky = some w ∧ w.delays = [1150, 500] ∧
      ((watchStep w ⟨4800, .stable 1⟩).map (·.delays)) = some [] := by decide +kernel
  obtain ⟨w, hw, hdelays, hstable⟩ := hruns
  obtain ⟨w', hs, hreset⟩ := Option.map_eq_some_iff.mp hstable
  obtain ⟨hbounds, hrange, hsteps⟩ := no_storm (by
    intro c hc
    simp only [List.mem_cons, List.not_mem_nil, or_false] at hc
    rcases hc with rfl | rfl | rfl | rfl | rfl | rfl <;> exact ⟨rfl, nofun⟩) hw
  refine ⟨w, hw, hdelays, hbounds, hrange [] 1150 [500] hdelays, w', hs, hreset, ?_⟩
  rcases hsteps _ w' hs with ⟨-, hsame⟩ | ⟨-, d, hmore⟩ | ⟨-, -, k, since, before, after, h⟩
  · rw [hreset, hdelays] at hsame
    cases hsame
  · rw [hreset] at hmore
    cases hmore
  · obtain ⟨hsocket, hsplit, -, hdue⟩ := h
    refine ⟨k, since, hsocket, ?_, hdue⟩
    rw [show shaky = _ from hsplit]
    exact List.mem_append_right _ List.mem_cons_self

/-- The largest number that `Math.random()` gives. -/
def almostOne : Rat := 1 - 1 / 2 ^ 53

/-- A first delay of three tenths above the backoff: the sum is rounded up to the bound. -/
theorem no_storm_reaches_bound :
    OnGrid almostOne ∧ ∃ w, watch.exec startWatch [⟨0, .connect almostOne false⟩] = some w ∧
      w.delays = [13 / 10 * ((min (500 * 2 ^ 0) 8000 : Nat) : Rat)] := by
  refine ⟨⟨2 ^ 53 - 1, -53, by norm_num [almostOne], by decide, by decide⟩, ?_⟩
  decide +kernel

end Live

end ReleaseRadar
