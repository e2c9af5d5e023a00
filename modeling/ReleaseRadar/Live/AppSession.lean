import ReleaseRadar.Live.SingleChannel

/-!
# The page's session and its live channel

Who calls `connect()` and `disconnect()` in the application: the initializer of
`app.config.ts`, which loads the session of `session.store.ts` from `/api/me` and then opens
the channel for a user; `auth.interceptor.ts`, which drops the session and the channel when a
request of a signed-in page fails with a 401; and the service's own `onDestroy`. Everything
else that happens on the page is a callback of `SingleChannel`'s page.

The initializer goes on after its `await` in a step of its own (`resume`), so the application
may be destroyed in between (`App.early`), and then it opens the channel all the same, and nobody
closes it: `onDestroy` has been called already.

* `session_channel`: the channel is single in every run (the one call of `connect()` never
  finds a reconnect pending), it is kept up as long as the user is signed in, and once the
  session is gone, or the application is destroyed after it has started, nothing is left of it and
  nothing comes back.
-/

namespace ReleaseRadar

open Lib

namespace Live

/-- `SessionUser`, as far as the session store reads it. -/
structure SessionUser where
  email : String
  role : String
deriving DecidableEq, Repr

/-- How far the initializer has come, and then the application: `destroyed` is one that had
started. -/
inductive Phase
  | loading
  | resolved
  | started
  | destroyed
deriving DecidableEq, Repr

/-- The application: the page, the fields of `SessionStore`, and the phase. -/
structure App where
  page : Page
  user : Option SessionUser
  loaded : Bool
  phase : Phase
  /-- destroyed before the initializer was through -/
  early : Bool
deriving DecidableEq

inductive AppEvent
  | me (answer : Option SessionUser)
  | resume (random : Rat) (made : Bool)
  | failed (url : String) (status : Nat)
  | destroy
  | callback (event : PageEvent)

/-- An event of the application and its time. -/
structure AppStep where
  now : Rat
  event : AppEvent

/-- `url.split(/[?#]/)[0]`. -/
def urlPath (url : String) : List Char := url.toList.takeWhile fun c => c ≠ '?' ∧ c ≠ '#'

namespace App

/-- The interceptor's condition on a failed request. -/
def Degrades (a : App) (url : String) (status : Nat) : Prop :=
  status = 401 ∧ a.user.isSome ∧ ¬"/api/me".toList <:+ urlPath url ∧
    ¬"/auth/".toList <:+: urlPath url

instance (a : App) (url : String) (status : Nat) : Decidable (a.Degrades url status) :=
  inferInstanceAs (Decidable (_ ∧ _ ∧ _ ∧ _))

def disconnect (a : App) : App := { a with page := { a.page with live := a.page.live.disconnect } }

/-- `authInterceptor`: `session.clear()`, `live.disconnect()`. -/
def intercept (a : App) (url : String) (status : Nat) : App :=
  if a.Degrades url status then { a with user := none }.disconnect else a

end App

/-- An event that is not a call of the service's two public methods. -/
def PageEvent.isCallback : PageEvent → Bool
  | connect _ _ | disconnect => false
  | opened _ | message _ _ | errored _ _ | closed _ _ | bump _ | reconnect _ _ _ | stable _ => true

def appStep (a : App) (s : AppStep) : Option App :=
  match s.event with
  | .me answer =>
    if a.phase = .loading then some { a with user := answer, loaded := true, phase := .resolved }
    else none
  | .resume random made =>
    if a.phase = .resolved then
      if a.user.isSome then
        (pageStep a.page ⟨s.now, .connect random made⟩).map fun page =>
          { a with page := page, phase := .started }
      else some { a with phase := .started }
    else none
  | .failed url status => some (a.intercept url status)
  | .destroy =>
    -- an application is destroyed once
    if a.phase = .destroyed ∨ a.early then none
    else if a.phase = .started then some { a.disconnect with phase := .destroyed }
    -- the initializer goes on
    else some { a.disconnect with early := true }
  | .callback event =>
    if event.isCallback then
      (pageStep a.page ⟨s.now, event⟩).map fun page => { a with page := page }
    else none

/-- The application. -/
def app : Machine App AppStep := ⟨appStep⟩

/-- The bundle has just been loaded; `/api/me` is on its way. -/
def newApp : App := ⟨newPage, none, false, .loading, false⟩

/-! ## A service that is off, and one that is on -/

/-- No socket has handlers and no timer is pending. -/
structure Idle (live : LiveService) : Prop where
  socket : live.socket = none
  connecting : live.connecting = false
  attached : live.attached = []
  reconnect : live.reconnectTimer.pending = []
  bump : live.bumpTimer.pending = []
  stable : live.stableTimer.pending = []
  status : live.status = .offline

/-- The service runs, and has a socket or is about to retry. -/
structure Alive (live : LiveService) : Prop where
  running : live.stopped = false
  channel : live.socket.isSome ∨ live.reconnectTimer.pending ≠ []

section Service

variable {live : LiveService} {now random : Rat} {made : Option Nat} {handle : Nat}
  {data : Option Json}

theorem idle_new : Idle .new := ⟨rfl, rfl, rfl, rfl, rfl, rfl, rfl⟩

/-- `disconnect` leaves the service idle. -/
theorem idle_disconnect (h : PageInv live) : Idle live.disconnect where
  socket := rfl
  connecting := rfl
  attached := h.detached
  reconnect := h.waiting.single.clear_pending
  bump := h.bump.clear_pending
  stable := h.stable.clear_pending
  status := rfl

/-- A timer whose field is set has its timeout pending. -/
theorem pending_of_field {t : Timer} (h : t.Single) (hfield : t.field.isSome) :
    t.pending ≠ [] := by
  intro hnil
  rw [Timer.Single, hnil, List.map_nil] at h
  rw [Option.isSome_iff_exists] at hfield
  obtain ⟨n, hn⟩ := hfield
  rw [hn] at h
  cases h

/-- A running service that schedules a retry has one pending, this or an earlier one. -/
theorem alive_scheduleReconnect (hsingle : live.reconnectTimer.Single)
    (hrunning : live.stopped = false) : Alive (live.scheduleReconnect now random) := by
  unfold LiveService.scheduleReconnect
  rw [if_neg (by rw [hrunning]; exact Bool.false_ne_true)]
  split
  · next hfield => exact ⟨hrunning, Or.inr (pending_of_field hsingle hfield)⟩
  · exact ⟨hrunning, Or.inr Timer.start_pending⟩

/-- After `openSocket` there is a socket or a retry. -/
theorem alive_openSocket (hsingle : live.reconnectTimer.Single) (hrunning : live.stopped = false) :
    Alive (live.openSocket now random made) := by
  cases made with
  | some k => exact ⟨hrunning, Or.inl rfl⟩
  | none => exact alive_scheduleReconnect hsingle hrunning

/-- After a drop there is a retry. -/
theorem alive_handleDrop (hsingle : live.reconnectTimer.Single) (hrunning : live.stopped = false) :
    Alive (live.handleDrop now random) := by
  unfold LiveService.handleDrop
  simp only
  rw [if_neg (by rw [hrunning]; exact Bool.false_ne_true)]
  exact alive_scheduleReconnect hsingle hrunning

/-- A message changes neither. -/
theorem alive_onmessage (h : Alive live) : Alive (live.onmessage now data) := by
  unfold LiveService.onmessage
  split
  · exact h
  · split
    · exact h
    · split
      · exact h
      · exact ⟨h.running, h.channel⟩

/-- `connect()` of a service that is off. -/
theorem alive_connect (hidle : Idle live) (h : PageInv live) :
    Alive (live.connect now random made) := by
  unfold LiveService.connect
  rw [if_neg]
  · exact alive_openSocket h.waiting.single rfl
  · rw [hidle.socket, hidle.connecting]
    decide

end Service

section Steps

variable {p p' : Page} {c : Callback}

/-- Nothing happens to a service that is off. -/
theorem idle_callback (h : Idle p.live) (hc : c.event.isCallback)
    (hs : pageStep p c = some p') : p' = p := by
  have hon : ∀ {k f}, p.on k f = some p' → p' = p := by
    intro k f hs
    rcases of_on hs with rfl | ⟨hk, -⟩
    · rfl
    · rw [h.attached] at hk
      cases hk
  obtain ⟨now, event⟩ := c
  cases event with
  | connect random ok => cases hc
  | disconnect => cases hc
  | opened k => exact hon hs
  | message k data => exact hon hs
  | errored k random => exact hon hs
  | closed k random => exact hon hs
  | bump handle =>
    simp only [pageStep, Timer.Pending, h.bump] at hs
    simp at hs
  | reconnect handle random ok =>
    simp only [pageStep, Timer.Pending, h.reconnect] at hs
    simp at hs
  | stable handle =>
    simp only [pageStep, Timer.Pending, h.stable] at hs
    simp at hs

/-- A service that is on stays on. -/
theorem alive_callback (hinv : PageInv p.live) (h : Alive p.live) (hc : c.event.isCallback)
    (hs : pageStep p c = some p') : Alive p'.live := by
  have hon : ∀ {k f}, p.on k f = some p' → Alive (f p.live) → Alive p'.live := by
    intro k f hs hf
    rcases of_on hs with rfl | ⟨-, rfl⟩
    · exact h
    · exact hf
  obtain ⟨now, event⟩ := c
  cases event with
  | connect random ok => cases hc
  | disconnect => cases hc
  | opened k => exact hon hs ⟨h.running, h.channel⟩
  | message k data => exact hon hs (alive_onmessage h)
  | errored k random => exact hon hs (alive_handleDrop hinv.waiting.single h.running)
  | closed k random => exact hon hs (alive_handleDrop hinv.waiting.single h.running)
  | bump handle =>
    simp only [pageStep] at hs
    split at hs
    · cases hs
      exact ⟨h.running, h.channel⟩
    · cases hs
  | reconnect handle random ok =>
    simp only [pageStep] at hs
    split at hs
    · next hp =>
      cases hs
      exact alive_openSocket (hinv.waiting.single.fire hp) h.running
    · cases hs
  | stable handle =>
    simp only [pageStep] at hs
    split at hs
    · cases hs
      exact ⟨h.running, h.channel⟩
    · cases hs

/-- An event that is not `connect()` needs no condition. -/
theorem unhurried_of_callback (hc : c.event.isCallback) : Unhurried p c := by
  obtain ⟨now, event⟩ := c
  cases event <;> trivial

end Steps

/-! ## The application -/

/-- The channel is on exactly for a started application with a user. -/
structure AppInv (a : App) : Prop where
  page : PageInv a.page.live
  off : a.phase ≠ .started ∨ a.user = none → Idle a.page.live
  on : a.phase = .started → a.user.isSome → Alive a.page.live

section App

variable {a a' : App} {s : AppStep}

/-- It holds of a page just loaded. -/
theorem appInv_new : AppInv newApp where
  page := .new
  off _ := idle_new
  on h := by cases h

/-- It holds after the channel has been let go. -/
theorem appInv_disconnect (h : AppInv a) (user : Option SessionUser) (phase : Phase) (early : Bool)
    (hoff : phase ≠ .started ∨ user = none) :
    AppInv { a.disconnect with user := user, phase := phase, early := early } where
  page := h.page.disconnect
  off _ := idle_disconnect h.page
  on hstarted hsome := by
    rcases hoff with hphase | rfl
    · exact absurd hstarted hphase
    · cases hsome

/-- The interceptor keeps it. -/
theorem appInv_intercept (h : AppInv a) (url : String) (status : Nat) :
    AppInv (a.intercept url status) := by
  unfold App.intercept
  split
  · exact appInv_disconnect h none a.phase a.early (Or.inr rfl)
  · exact h

/-- Every step keeps it. -/
theorem appInv_step (h : AppInv a) (hs : appStep a s = some a') : AppInv a' := by
  obtain ⟨now, event⟩ := s
  cases event with
  | me answer =>
    simp only [appStep] at hs
    split at hs
    · next hphase =>
      cases hs
      exact {
        page := h.page
        off := fun _ => h.off (Or.inl (by rw [hphase]; decide))
        on := fun hstarted => by cases hstarted }
    · cases hs
  | resume random made =>
    simp only [appStep] at hs
    split at hs
    · next hphase =>
      have hidle : Idle a.page.live := h.off (Or.inl (by rw [hphase]; decide))
      split at hs
      · next huser =>
        obtain ⟨page, hpage, rfl⟩ := Option.map_eq_some_iff.mp hs
        have hunhurried : Unhurried a.page ⟨now, .connect random made⟩ := by
          cases made
          · trivial
          · exact hidle.reconnect
        refine ⟨pageInv_step h.page hunhurried hpage, fun hoff => ?_, fun _ _ => ?_⟩
        · rcases hoff with hne | hnone
          · exact absurd rfl hne
          · rw [hnone] at huser
            cases huser
        · simp only [pageStep] at hpage
          split at hpage
          · cases hpage
            exact alive_connect hidle h.page
          · cases hpage
            exact alive_connect hidle h.page
      · next huser =>
        cases hs
        exact ⟨h.page, fun _ => hidle, fun _ hsome => absurd hsome huser⟩
    · cases hs
  | failed url status =>
    cases hs
    exact appInv_intercept h url status
  | destroy =>
    simp only [appStep] at hs
    split at hs
    · cases hs
    · split at hs
      · cases hs
        exact appInv_disconnect h a.user .destroyed a.early (Or.inl (by decide))
      · next hphase =>
        cases hs
        exact appInv_disconnect h a.user a.phase true (Or.inl hphase)
  | callback event =>
    simp only [appStep] at hs
    split at hs
    · next hc =>
      obtain ⟨page, hpage, rfl⟩ := Option.map_eq_some_iff.mp hs
      refine ⟨pageInv_step h.page (unhurried_of_callback hc) hpage, fun hoff => ?_,
        fun hstarted hsome => alive_callback h.page (h.on hstarted hsome) hc hpage⟩
      have hidle := h.off hoff
      rw [idle_callback hidle hc hpage]
      exact hidle
    · cases hs

/-! ## After the session -/

/-- The application has started, and is destroyed or has no user. -/
def App.Over (a : App) : Prop := a.phase = .destroyed ∨ a.phase = .started ∧ a.user = none

instance (a : App) : Decidable a.Over := inferInstanceAs (Decidable (_ ∨ _))

/-- An application without a session, whose page has created `n` sockets and whose live
channel has bumped to `bus`. -/
structure Ended (n : Nat) (bus : RefreshBus) (a : App) : Prop where
  inv : AppInv a
  isOver : a.Over
  created : a.page.created = n
  bus : a.page.bus = bus

/-- What is over has no channel. -/
theorem App.Over.idle (h : a.Over) (hinv : AppInv a) : Idle a.page.live := by
  refine hinv.off ?_
  rcases h with hphase | ⟨-, huser⟩
  · exact Or.inl (by rw [hphase]; decide)
  · exact Or.inr huser

/-- What has ended stays so. -/
theorem ended_step {n : Nat} {bus : RefreshBus} (h : Ended n bus a)
    (hs : appStep a s = some a') : Ended n bus a' := by
  have hinv : AppInv a' := appInv_step h.inv hs
  obtain ⟨now, event⟩ := s
  cases event with
  | me answer =>
    simp only [appStep] at hs
    split at hs
    · next hphase =>
      rcases h.isOver with hover | ⟨hover, -⟩ <;> rw [hphase] at hover <;> cases hover
    · cases hs
  | resume random made =>
    simp only [appStep] at hs
    split at hs
    · next hphase =>
      rcases h.isOver with hover | ⟨hover, -⟩ <;> rw [hphase] at hover <;> cases hover
    · cases hs
  | failed url status =>
    simp only [appStep, App.intercept] at hs
    split at hs
    · cases hs
      refine ⟨hinv, ?_, h.created, h.bus⟩
      rcases h.isOver with hphase | ⟨hphase, -⟩
      · exact Or.inl hphase
      · exact Or.inr ⟨hphase, rfl⟩
    · cases hs
      exact h
  | destroy =>
    simp only [appStep] at hs
    split at hs
    · cases hs
    · next hfirst =>
      split at hs
      · cases hs
        exact ⟨hinv, Or.inl rfl, h.created, h.bus⟩
      · next hphase =>
        -- an application that is over has started, or has been destroyed before
        rcases h.isOver with hover | ⟨hover, -⟩
        · exact absurd (Or.inl hover) hfirst
        · exact absurd hover hphase
  | callback event =>
    simp only [appStep] at hs
    split at hs
    · next hc =>
      obtain ⟨page, hpage, rfl⟩ := Option.map_eq_some_iff.mp hs
      rw [idle_callback (h.isOver.idle h.inv) hc hpage]
      exact h
    · cases hs

end App

/-- **The channel follows the session**, in every run of the application: the channel is
single; a started application has a socket or a pending retry exactly when it has a user; and
once it is destroyed after its start, or without a user after it, no socket has handlers, no
timer is pending, and whatever happens next creates no socket and makes no live bump. -/
theorem session_channel {as : List AppStep} {a : App} (he : app.exec newApp as = some a) :
    SingleChannel a.page ∧
      (a.phase = .started →
        (a.user.isSome ↔
          a.page.live.socket.isSome ∨ a.page.live.reconnectTimer.pending ≠ [])) ∧
      (a.Over → Idle a.page.live ∧ ∀ rest b, app.exec a rest = some b →
        b.page.created = a.page.created ∧ b.page.bus = a.page.bus) := by
  have hinv : AppInv a := app.exec_invariant (fun _ _ _ h hs => appInv_step h hs) appInv_new he
  refine ⟨singleChannel_of_inv hinv.page, fun hstarted => ⟨fun hsome => ?_, fun hchannel => ?_⟩,
    fun hover => ⟨hover.idle hinv, fun rest b hb => ?_⟩⟩
  · exact (hinv.on hstarted hsome).channel
  · by_contra hnone
    have hidle := hinv.off (Or.inr (Option.not_isSome_iff_eq_none.mp hnone))
    rw [hidle.socket, hidle.reconnect] at hchannel
    rcases hchannel with hsocket | hpending
    · cases hsocket
    · exact hpending rfl
  · have hended : Ended a.page.created a.page.bus b :=
      app.exec_invariant (fun _ _ _ h hs => ended_step h hs) ⟨hinv, hover, rfl, rfl⟩ hb
    exact ⟨hended.created, hended.bus⟩

/-- Ann's channel drops and is retried; her session expires with a refetch pending. -/
def expired : List AppStep :=
  [⟨0, .me (some ⟨"ann@x.de", "admin"⟩)⟩, ⟨0, .resume 0 true⟩, ⟨10, .callback (.opened 0)⟩,
    ⟨160, .callback (.bump 0)⟩, ⟨200, .callback (.closed 0 0)⟩,
    ⟨700, .callback (.reconnect 0 0 true)⟩, ⟨710, .callback (.opened 1)⟩,
    ⟨720, .failed "/api/rollouts" 401⟩]

theorem session_channel_expired : ∃ a, app.exec newApp expired = some a ∧
    SingleChannel a.page ∧ Idle a.page.live ∧ ∀ rest b, app.exec a rest = some b →
      b.page.created = 2 ∧ b.page.bus = ⟨1⟩ := by
  have hruns : ∃ a, app.exec newApp expired = some a ∧ a.Over ∧ a.page.created = 2 ∧
      a.page.bus = ⟨1⟩ := by decide
  obtain ⟨a, he, hover, hcreated, hbus⟩ := hruns
  obtain ⟨hsingle, -, hquiet⟩ := session_channel he
  obtain ⟨hidle, hrest⟩ := hquiet hover
  refine ⟨a, he, hsingle, hidle, fun rest b hb => ?_⟩
  rw [← hcreated, ← hbus]
  exact hrest rest b hb

end Live

end ReleaseRadar
