import ReleaseRadar.Auth.Callback
import ReleaseRadar.Lib.Machine

/-!
# Logins across browsers

The handlers of `Auth/Callback` with any number of browsers, the provider and an
attacker. A browser keeps the OIDC cookies it was sent (`Jar`); the `Set-Cookie` lines
of all its responses are processed one by one, in any order, and a cookie can go at any
time. A request is sent with the cookies of that moment and answered later.

The attacker makes a browser open any callback URL and gets the provider to authorize
any request, with any code, any nonce and any state but one that a browser was given:
those it can neither read nor guess (`World.secret`). A login draws a state that no one
has used before (`World.seen`). The provider answers for a code with the nonce of the
authorization request that produced it, or not at all. Requests of other clients, the
attacker's own among them, are no steps: the server keeps nothing between two requests,
and what such a client learns is a state that no browser was given.

`login_not_forced`: a session is issued to a browser only when that browser has made the
login with the state of the callback URL and the nonce of the ID token.
-/

namespace ReleaseRadar.Auth

open Lib Ldap
open Api (Env)

/-! ## The parties -/

/-- A browser's OIDC cookies, as it sends them. -/
abbrev Jar := List (String × String)

/-- A `Set-Cookie` line is processed. -/
def Jar.process (jar : Jar) (c : Cookie) : Jar :=
  let others := jar.filter fun kv => kv.1 != c.name
  if c.maxAge < 0 then others else (c.name, c.value) :: others

/-- The cookie expires or is deleted. -/
def Jar.evict (jar : Jar) (name : String) : Jar := jar.filter fun kv => kv.1 != name

/-- What has happened: a login was answered, or a session was issued in answer to a callback URL
with the state, on an ID token with the nonce. -/
inductive Event where
  | login (browser : Nat) (state nonce : String)
  | issued (browser : Nat) (sess : Session) (state : String) (nonce : Option String)
deriving DecidableEq

/-- The event is a login that was given the state. -/
def Event.gives (state : String) : Event → Bool
  | .login _ state' _ => state' == state
  | .issued .. => false

/-- The event is a login that made the authorization request. -/
def Event.asks (state nonce : String) : Event → Bool
  | .login _ state' nonce' => state' == state && nonce' == nonce
  | .issued .. => false

/-- An authorization request and the code it produced. -/
structure Authorization where
  code : String
  state : String
  nonce : String

/-- `lines` are the `Set-Cookie` lines on their way, `pending` the callbacks on theirs;
`log` has the latest event first. -/
structure World where
  jar : Nat → Jar
  lines : List (Nat × Cookie)
  pending : List (Nat × CallbackRequest)
  codes : List Authorization
  seen : List String
  log : List Event

def World.init : World := ⟨fun _ => [], [], [], [], [], []⟩

/-- A browser was given the state, and no one else knows it. -/
def World.secret (s : World) (state : String) : Bool := s.log.any (Event.gives state)

inductive Action where
  /-- The browser opens `/auth/login`, the two values being drawn. -/
  | login (browser : Nat) (oidc : Option Provider) (state nonce : String)
  /-- A `Set-Cookie` line on its way is processed. -/
  | process (i : Nat)
  | evict (browser : Nat) (name : String)
  /-- The provider authorizes a request and redirects with the code. -/
  | authorize (code state nonce : String)
  /-- The browser opens a callback URL. -/
  | send (browser : Nat) (state code : String)
  /-- The server answers a callback on its way. -/
  | serve (i : Nat) (env : Env) (oidc : Option Provider) (dir : Directory)

/-! ## The steps -/

/-- The login a reply starts. -/
def started (browser : Nat) : AuthBody → List Event
  | .authorize state nonce => [.login browser state nonce]
  | _ => []

/-- The provider's answer for the code carries the nonce of the request that produced it. -/
def honest (codes : List Authorization) (code : String) : Option IDToken → Bool
  | none => true
  | some tok => codes.any fun a => a.code == code && a.nonce == tok.nonce

def issuedTo (browser : Nat) (req : CallbackRequest) (tok : Option IDToken) :
    Option Session → List Event
  | none => []
  | some sess => [.issued browser sess req.state (tok.map IDToken.nonce)]

def World.step (cfg : LDAPConfig) (s : World) : Action → Option World
  | .login b oidc state nonce =>
    if s.seen.contains state then none
    else
      let reply := login oidc state nonce
      some { s with
        seen := state :: s.seen
        lines := s.lines ++ reply.cookies.map (b, ·)
        log := started b reply.body ++ s.log }
  | .process i =>
    match s.lines[i]? with
    | none => none
    | some (b, c) =>
      some { s with
        jar := fun b' => if b' = b then (s.jar b).process c else s.jar b'
        lines := s.lines.eraseIdx i }
  | .evict b name =>
    some { s with jar := fun b' => if b' = b then (s.jar b).evict name else s.jar b' }
  | .authorize code state nonce =>
    -- a browser follows its own redirect, or the request is the attacker's
    if s.codes.any (·.code == code) || (s.secret state && !s.log.any (Event.asks state nonce)) then
      none
    else some { s with codes := ⟨code, state, nonce⟩ :: s.codes, seen := state :: s.seen }
  | .send b state code =>
    -- the URL is a redirect of the provider's, or the attacker's
    if s.secret state && !s.codes.any (fun a => a.state == state && a.code == code) then none
    else
      some { s with
        pending := s.pending ++ [(b, ⟨s.jar b, state, code⟩)]
        seen := state :: s.seen }
  | .serve i env oidc dir =>
    match s.pending[i]? with
    | none => none
    | some (b, req) =>
      let tok := oidc.bind (·.idToken req.code)
      if honest s.codes req.code tok then
        let reply := callback env oidc cfg dir req
        some { s with
          pending := s.pending.eraseIdx i
          lines := s.lines ++ reply.cookies.map (b, ·)
          log := issuedTo b req tok reply.session ++ s.log }
      else none

def loginProtocol (cfg : LDAPConfig) : Machine World Action := ⟨World.step cfg⟩

/-! ## The invariant -/

/-- The browser has made a login that was given the state. -/
def World.Owns (s : World) (b : Nat) (state : String) : Prop :=
  ∃ nonce, Event.login b state nonce ∈ s.log

/-- Every session in the log has its login before it. -/
def Answered : List Event → Prop
  | [] => True
  | .login .. :: older => Answered older
  | .issued b _ state nonce :: older =>
    (∃ n, nonce = some n ∧ Event.login b state n ∈ older) ∧ Answered older

/-- A state is given once (`seen`, `unique`). A browser's state cookie is of one of its
own logins, on its way, in the jar or in a request (`lines`, `jar`, `sent`). A code that
comes with a state given to a browser is of the login's own authorization request
(`url`, `codes`, `single`). -/
structure World.Inv (s : World) : Prop where
  seen : ∀ b state nonce, Event.login b state nonce ∈ s.log → state ∈ s.seen
  unique : ∀ b state nonce b' nonce', Event.login b state nonce ∈ s.log →
    Event.login b' state nonce' ∈ s.log → nonce = nonce'
  lines : ∀ b c, (b, c) ∈ s.lines → c.name = "rr_oidc_state" → 0 ≤ c.maxAge → s.Owns b c.value
  jar : ∀ b state, cookieOf (s.jar b) "rr_oidc_state" = some state → s.Owns b state
  sent : ∀ b req state, (b, req) ∈ s.pending → cookieOf req.cookies "rr_oidc_state" = some state →
    s.Owns b state
  url : ∀ b req, (b, req) ∈ s.pending → req.state ∈ s.seen ∧
    (s.secret req.state → ∃ a ∈ s.codes, a.state = req.state ∧ a.code = req.code)
  codes : ∀ a ∈ s.codes, a.state ∈ s.seen ∧
    ∀ b nonce, Event.login b a.state nonce ∈ s.log → a.nonce = nonce
  single : ∀ a ∈ s.codes, ∀ a' ∈ s.codes, a.code = a'.code → a = a'
  answered : Answered s.log

/-- It holds before anybody has logged in. -/
theorem inv_init : World.init.Inv where
  seen _ _ _ h := nomatch h
  unique _ _ _ _ _ h := nomatch h
  lines _ _ h := nomatch h
  jar _ _ h := nomatch h
  sent _ _ _ h := nomatch h
  url _ _ h := nomatch h
  codes _ h := nomatch h
  single _ h := nomatch h
  answered := trivial

/-- A state is a secret once a login has drawn it. -/
theorem secret_iff {s : World} {state : String} :
    s.secret state ↔ ∃ b nonce, Event.login b state nonce ∈ s.log := by
  simp only [World.secret, List.any_eq_true]
  constructor
  · rintro ⟨e, he, hg⟩
    cases e with
    | login b state' nonce =>
      obtain rfl : state' = state := by simpa [Event.gives] using hg
      exact ⟨b, nonce, he⟩
    | issued => cases hg
  · rintro ⟨b, nonce, he⟩
    exact ⟨_, he, by simp [Event.gives]⟩

/-- The provider was asked exactly if some browser was sent there. -/
theorem asks_iff {log : List Event} {state nonce : String} :
    log.any (Event.asks state nonce) ↔ ∃ b, Event.login b state nonce ∈ log := by
  simp only [List.any_eq_true]
  constructor
  · rintro ⟨e, he, ha⟩
    cases e with
    | login b state' nonce' =>
      obtain ⟨rfl, rfl⟩ : state' = state ∧ nonce' = nonce := by simpa [Event.asks] using ha
      exact ⟨b, he⟩
    | issued => cases ha
  · rintro ⟨b, he⟩
    exact ⟨_, he, by simp [Event.asks]⟩

/-- Dropping one cookie leaves the others. -/
theorem cookieOf_filter_ne {jar : Jar} {name name' : String} (h : name' ≠ name) :
    cookieOf (jar.filter fun kv => kv.1 != name') name = cookieOf jar name := by
  unfold cookieOf
  rw [List.find?_filter]
  congr 2
  funext kv
  by_cases hk : kv.1 = name
  · simp [hk, h.symm]
  · simp [hk]

/-- The dropped one is gone. -/
theorem cookieOf_filter_self {jar : Jar} {name : String} :
    cookieOf (jar.filter fun kv => kv.1 != name) name = none := by
  unfold cookieOf
  rw [List.find?_filter, List.find?_eq_none.mpr]
  · rfl
  · intro kv _
    simp

/-- What a jar holds after a line: the line's own value, or what it held. -/
theorem cookieOf_process {jar : Jar} {c : Cookie} {name value : String}
    (h : cookieOf (jar.process c) name = some value) :
    (c.name = name ∧ 0 ≤ c.maxAge ∧ c.value = value) ∨ cookieOf jar name = some value := by
  unfold Jar.process at h
  dsimp only at h
  by_cases hname : c.name = name
  · subst hname
    split at h
    · rw [cookieOf_filter_self] at h
      cases h
    · next hage =>
      left
      refine ⟨rfl, by omega, ?_⟩
      simpa [cookieOf] using h
  · right
    split at h
    · rwa [cookieOf_filter_ne hname] at h
    · have hcons : cookieOf ((c.name, c.value) :: jar.filter fun kv => kv.1 != c.name) name =
          cookieOf (jar.filter fun kv => kv.1 != c.name) name := by
        simp [cookieOf, hname]
      rwa [hcons, cookieOf_filter_ne hname] at h

/-- A cookie that is left after an eviction was there. -/
theorem cookieOf_evict {jar : Jar} {name name' value : String}
    (h : cookieOf (jar.evict name') name = some value) : cookieOf jar name = some value := by
  unfold Jar.evict at h
  by_cases hname : name' = name
  · subst hname
    rw [cookieOf_filter_self] at h
    cases h
  · rwa [cookieOf_filter_ne hname] at h

/-! ## What a step preserves -/

/-- The login and its two cookies, or nothing when there is no provider. -/
theorem login_reply (oidc : Option Provider) (b : Nat) (state nonce : String) :
    ((login oidc state nonce).cookies = [] ∧ started b (login oidc state nonce).body = []) ∨
      ((login oidc state nonce).cookies = writeOIDCCookies state nonce ∧
        started b (login oidc state nonce).body = [.login b state nonce]) := by
  cases oidc with
  | none => exact .inl ⟨rfl, rfl⟩
  | some p => exact .inr ⟨rfl, rfl⟩

/-- A callback sets no OIDC cookie. -/
theorem callback_cookies {env : Env} {oidc : Option Provider} {cfg : LDAPConfig} {dir : Directory}
    {req : CallbackRequest} : ∀ c ∈ (callback env oidc cfg dir req).cookies, c.maxAge < 0 := by
  have hclear : ∀ c ∈ clearOIDCCookies, c.maxAge < 0 := by decide
  unfold callback
  split
  · intro c hc
    cases hc
  · dsimp only
    split
    · exact hclear
    · split
      · exact hclear
      · split <;> exact hclear

variable {cfg : LDAPConfig} {s s' : World}

/-- A state that is drawn is new. -/
theorem inv_drawn {b : Nat} {state nonce : String} (hi : s.Inv) (hfresh : state ∉ s.seen) :
    World.Inv { s with
      seen := state :: s.seen
      lines := s.lines ++ (writeOIDCCookies state nonce).map (b, ·)
      log := .login b state nonce :: s.log } := by
  -- a login in the new log is this one or an old one, and those two differ in the state
  have hlogin : ∀ {b' st n}, Event.login b' st n ∈ Event.login b state nonce :: s.log →
      (b' = b ∧ st = state ∧ n = nonce) ∨ Event.login b' st n ∈ s.log ∧ st ≠ state := by
    intro b' st n h
    rcases List.mem_cons.mp h with h | h
    · cases h
      exact .inl ⟨rfl, rfl, rfl⟩
    · refine .inr ⟨h, fun he => hfresh ?_⟩
      exact he ▸ hi.seen _ _ _ h
  have hmono : ∀ {b' st}, s.Owns b' st →
      World.Owns { s with log := .login b state nonce :: s.log } b' st :=
    fun ⟨n, hn⟩ => ⟨n, List.mem_cons_of_mem _ hn⟩
  constructor
  case seen =>
    intro b' st n h
    rcases hlogin h with ⟨-, rfl, -⟩ | ⟨h, -⟩
    · exact List.mem_cons_self ..
    · exact List.mem_cons_of_mem _ (hi.seen _ _ _ h)
  case unique =>
    intro b' st n b'' n' h h'
    rcases hlogin h with ⟨-, hst, rfl⟩ | ⟨h, hst⟩ <;> rcases hlogin h' with
      ⟨-, hst', rfl⟩ | ⟨h', hst'⟩
    · rfl
    · exact absurd hst hst'
    · exact absurd hst' hst
    · exact hi.unique _ _ _ _ _ h h'
  case lines =>
    intro b' c h hname hage
    rcases List.mem_append.mp h with h | h
    · exact hmono (hi.lines b' c h hname hage)
    · obtain ⟨c, hc, he⟩ := List.mem_map.mp h
      cases he
      have hc : c = ⟨"rr_oidc_state", state, 300⟩ ∨ c = ⟨"rr_oidc_nonce", nonce, 300⟩ := by
        simpa [writeOIDCCookies] using hc
      rcases hc with rfl | rfl
      · exact ⟨nonce, List.mem_cons_self ..⟩
      · exact absurd hname (show "rr_oidc_nonce" ≠ "rr_oidc_state" by decide)
  case jar => exact fun b' st h => hmono (hi.jar b' st h)
  case sent => exact fun b' req st h hst => hmono (hi.sent b' req st h hst)
  case url =>
    intro b' req h
    obtain ⟨hseen, hurl⟩ := hi.url b' req h
    refine ⟨List.mem_cons_of_mem _ hseen, fun hsecret => hurl ?_⟩
    obtain ⟨b'', n, hl⟩ := secret_iff.mp hsecret
    rcases hlogin hl with ⟨-, hst, -⟩ | ⟨hl, -⟩
    · exact absurd (hst ▸ hseen) hfresh
    · exact secret_iff.mpr ⟨b'', n, hl⟩
  case codes =>
    intro a ha
    obtain ⟨hseen, hcode⟩ := hi.codes a ha
    refine ⟨List.mem_cons_of_mem _ hseen, ?_⟩
    intro b' n hl
    rcases hlogin hl with ⟨-, hst, -⟩ | ⟨hl, -⟩
    · exact absurd (hst ▸ hseen) hfresh
    · exact hcode b' n hl
  case single => exact hi.single
  case answered => exact hi.answered

/-- More strings have been used. -/
theorem inv_seen (state : String) (hi : s.Inv) :
    World.Inv { s with seen := state :: s.seen } :=
  { hi with
    seen := fun b st n h => List.mem_cons_of_mem _ (hi.seen b st n h)
    url := fun b req h => ⟨List.mem_cons_of_mem _ (hi.url b req h).1, (hi.url b req h).2⟩
    codes := fun a ha => ⟨List.mem_cons_of_mem _ (hi.codes a ha).1, (hi.codes a ha).2⟩ }

/-- A login binds its state to the browser. -/
theorem inv_login {b : Nat} {oidc : Option Provider} {state nonce : String} (hi : s.Inv)
    (h : World.step cfg s (.login b oidc state nonce) = some s') : s'.Inv := by
  simp only [World.step] at h
  split at h
  · cases h
  · next hseen =>
    have hfresh : state ∉ s.seen := by simpa using hseen
    cases h
    rcases login_reply oidc b state nonce with ⟨hc, hb⟩ | ⟨hc, hb⟩
    · rw [hc, hb, List.map_nil, List.append_nil, List.nil_append]
      exact inv_seen state hi
    · rw [hc, hb]
      exact inv_drawn hi hfresh

/-- An answer of the provider keeps it. -/
theorem inv_process {i : Nat} (hi : s.Inv) (h : World.step cfg s (.process i) = some s') :
    s'.Inv := by
  simp only [World.step] at h
  split at h
  · cases h
  · next b c hline =>
    cases h
    have hmem : (b, c) ∈ s.lines := List.mem_of_getElem? hline
    refine { hi with lines := ?_, jar := ?_ }
    · intro b' c' hc
      exact hi.lines b' c' (List.mem_of_mem_eraseIdx hc)
    · intro b' st hst
      dsimp only at hst
      split at hst
      · next hb =>
        subst hb
        rcases cookieOf_process hst with ⟨hname, hage, rfl⟩ | hst
        · exact hi.lines b' c hmem hname hage
        · exact hi.jar b' st hst
      · exact hi.jar b' st hst

/-- Losing a cookie does. -/
theorem inv_evict {b : Nat} {name : String} (hi : s.Inv)
    (h : World.step cfg s (.evict b name) = some s') : s'.Inv := by
  cases h
  refine { hi with jar := ?_ }
  intro b' st hst
  dsimp only at hst
  split at hst
  · next hb =>
    subst hb
    exact hi.jar b' st (cookieOf_evict hst)
  · exact hi.jar b' st hst

/-- So does a code the provider gives out. -/
theorem inv_authorize {code state nonce : String} (hi : s.Inv)
    (h : World.step cfg s (.authorize code state nonce) = some s') : s'.Inv := by
  simp only [World.step] at h
  split at h
  · cases h
  · next hguard =>
    cases h
    have hi := inv_seen state hi
    simp only [Bool.or_eq_true, not_or, Bool.not_eq_true] at hguard
    have hnew : ∀ a ∈ s.codes, a.code ≠ code := by
      simpa using hguard.1
    have hown : s.secret state → ∃ b, Event.login b state nonce ∈ s.log := by
      intro hsecret
      have hasks : s.log.any (Event.asks state nonce) = true := by simpa [hsecret] using hguard.2
      exact asks_iff.mp hasks
    refine { hi with url := ?_, codes := ?_, single := ?_ }
    · intro b req hreq
      refine ⟨(hi.url b req hreq).1, fun hsecret => ?_⟩
      obtain ⟨a, ha, hurl⟩ := (hi.url b req hreq).2 hsecret
      exact ⟨a, List.mem_cons_of_mem _ ha, hurl⟩
    · intro a ha
      rcases List.mem_cons.mp ha with rfl | ha
      · refine ⟨List.mem_cons_self .., ?_⟩
        intro b n hl
        obtain ⟨b', hl'⟩ := hown (secret_iff.mpr ⟨b, n, hl⟩)
        exact hi.unique _ _ _ _ _ hl' hl
      · exact hi.codes a ha
    · intro a ha a' ha' hcode
      rcases List.mem_cons.mp ha with rfl | ha <;> rcases List.mem_cons.mp ha' with rfl | ha'
      · rfl
      · exact absurd hcode.symm (hnew a' ha')
      · exact absurd hcode (hnew a ha)
      · exact hi.single a ha a' ha' hcode

/-- So does a callback, wherever it was made up. -/
theorem inv_send {b : Nat} {state code : String} (hi : s.Inv)
    (h : World.step cfg s (.send b state code) = some s') : s'.Inv := by
  simp only [World.step] at h
  split at h
  · cases h
  · next hguard =>
    cases h
    have hi := inv_seen state hi
    refine { hi with sent := ?_, url := ?_ }
    · intro b' req st hreq hst
      rcases List.mem_append.mp hreq with hreq | hreq
      · exact hi.sent b' req st hreq hst
      · cases List.mem_singleton.mp hreq
        exact hi.jar b st hst
    · intro b' req hreq
      rcases List.mem_append.mp hreq with hreq | hreq
      · exact hi.url b' req hreq
      · cases List.mem_singleton.mp hreq
        refine ⟨List.mem_cons_self .., fun hsecret => ?_⟩
        have hsecret : s.secret state = true := hsecret
        simpa [hsecret] using hguard

/-- Issuing a session is no login. -/
theorem mem_issuedTo {b b' : Nat} {req : CallbackRequest} {tok : Option IDToken}
    {sess : Option Session} {state nonce : String} {log : List Event} :
    Event.login b' state nonce ∈ issuedTo b req tok sess ++ log ↔
      Event.login b' state nonce ∈ log := by
  cases sess <;> simp [issuedTo]

/-- A session is issued on the state of one of the browser's logins, and on an ID token. -/
theorem callback_issued {env : Env} {oidc : Option Provider} {dir : Directory}
    {req : CallbackRequest} {sess : Session}
    (h : (callback env oidc cfg dir req).session = some sess) :
    cookieOf req.cookies "rr_oidc_state" = some req.state ∧
      ∃ tok, (oidc.bind fun p => p.idToken req.code) = some tok := by
  obtain ⟨p, claims, rfl, hstate, hex, -⟩ := callback_session h
  obtain ⟨tok, htok, -⟩ := exchange_idToken hex
  exact ⟨hstate, tok, htok⟩

/-- **The step that issues a session.** -/
theorem inv_serve {i : Nat} {env : Env} {oidc : Option Provider} {dir : Directory} (hi : s.Inv)
    (h : World.step cfg s (.serve i env oidc dir) = some s') : s'.Inv := by
  simp only [World.step] at h
  split at h
  · cases h
  · next b req hpending =>
    split at h
    · next hhonest =>
      cases h
      have hmem : (b, req) ∈ s.pending := List.mem_of_getElem? hpending
      constructor
      case seen => exact fun b' st n hl => hi.seen b' st n (mem_issuedTo.mp hl)
      case unique =>
        exact fun b' st n b'' n' hl hl' =>
          hi.unique b' st n b'' n' (mem_issuedTo.mp hl) (mem_issuedTo.mp hl')
      case lines =>
        intro b' c hc hname hage
        rcases List.mem_append.mp hc with hc | hc
        · obtain ⟨n, hl⟩ := hi.lines b' c hc hname hage
          exact ⟨n, mem_issuedTo.mpr hl⟩
        · obtain ⟨c, hclear, he⟩ := List.mem_map.mp hc
          cases he
          have := callback_cookies c hclear
          omega
      case jar =>
        intro b' st hst
        obtain ⟨n, hl⟩ := hi.jar b' st hst
        exact ⟨n, mem_issuedTo.mpr hl⟩
      case sent =>
        intro b' req' st hreq hst
        obtain ⟨n, hl⟩ := hi.sent b' req' st (List.mem_of_mem_eraseIdx hreq) hst
        exact ⟨n, mem_issuedTo.mpr hl⟩
      case url =>
        intro b' req' hreq
        obtain ⟨hseen, hurl⟩ := hi.url b' req' (List.mem_of_mem_eraseIdx hreq)
        refine ⟨hseen, fun hsecret => hurl ?_⟩
        obtain ⟨b'', n, hl⟩ := secret_iff.mp hsecret
        exact secret_iff.mpr ⟨b'', n, mem_issuedTo.mp hl⟩
      case codes =>
        intro a ha
        refine ⟨(hi.codes a ha).1, fun b' n hl => (hi.codes a ha).2 b' n (mem_issuedTo.mp hl)⟩
      case single => exact hi.single
      case answered =>
        cases hsess : (callback env oidc cfg dir req).session with
        | none => exact hi.answered
        | some sess =>
          obtain ⟨hstate, tok, htok⟩ := callback_issued hsess
          -- the state is of a login of the browser's, and so not the attacker's to use
          obtain ⟨n, hlogin⟩ := hi.sent b req req.state hmem hstate
          obtain ⟨a, ha, hastate, hacode⟩ := (hi.url b req hmem).2 (secret_iff.mpr ⟨b, n, hlogin⟩)
          have hnonce : a.nonce = n := (hi.codes a ha).2 b n (hastate ▸ hlogin)
          -- the code is of that login's request, and the token carries its nonce
          rw [htok] at hhonest
          obtain ⟨a', ha', hcode', htoken⟩ : ∃ a' ∈ s.codes, a'.code = req.code ∧
            a'.nonce = tok.nonce := by simpa [honest] using hhonest
          obtain rfl := hi.single a ha a' ha' (hacode.trans hcode'.symm)
          refine ⟨⟨tok.nonce, by rw [htok]; rfl, ?_⟩, hi.answered⟩
          rwa [← htoken, hnonce]
    · cases h

/-- **The invariant holds after every step.** -/
theorem inv_step (hi : s.Inv) {a : Action} (h : World.step cfg s a = some s') : s'.Inv := by
  cases a with
  | login => exact inv_login hi h
  | process => exact inv_process hi h
  | evict => exact inv_evict hi h
  | authorize => exact inv_authorize hi h
  | send => exact inv_send hi h
  | serve => exact inv_serve hi h

/-- So it holds in every run. -/
theorem inv_of_run {as : List Action} (h : (loginProtocol cfg).exec .init as = some s) : s.Inv :=
  (loginProtocol cfg).exec_invariant (fun _ _ _ hi hs => inv_step hi hs) inv_init h

/-! ## No login is forced -/

/-- An answered login was started before, in the same browser. -/
theorem login_of_answered {newer older : List Event} {b : Nat} {sess : Session} {state : String}
    {nonce : Option String} (h : Answered (newer ++ .issued b sess state nonce :: older)) :
    ∃ n, nonce = some n ∧ Event.login b state n ∈ older := by
  induction newer with
  | nil => exact h.1
  | cons e newer ih =>
    cases e with
    | login => exact ih h
    | issued => exact ih h.2

/-- **A login cannot be forced or replayed across browsers.** -/
theorem login_not_forced {as : List Action} (h : (loginProtocol cfg).exec .init as = some s)
    {newer older : List Event} {b : Nat} {sess : Session} {state : String} {nonce : Option String}
    (hlog : s.log = newer ++ .issued b sess state nonce :: older) :
    ∃ n, nonce = some n ∧ Event.login b state n ∈ older :=
  login_of_answered (hlog ▸ (inv_of_run h).answered)

private def unconfigured : LDAPConfig := ⟨"", "", "", "", "", "", "", "", [], []⟩

private def idp : Provider where
  token _ := .ok (some "raw")
  verify _ := .ok ⟨"nonce", .ok ⟨"sub", "ann@example.com", "Ann", ""⟩⟩

/-- Browser 1 logs in; browser 2 is sent to the same redirect first, without success. -/
private def visits : List Action :=
  [.login 1 (some idp) "state" "nonce", .process 1, .process 0, .authorize "code" "state" "nonce",
    .send 2 "state" "code", .serve 0 ⟨0, 0, "", Char.toUpper, Char.toLower, fun _ => 0⟩ (some idp)
      (served []),
    .send 1 "state" "code", .serve 0 ⟨0, 0, "", Char.toUpper, Char.toLower, fun _ => 0⟩ (some idp)
      (served [])]

private def annReadonly : Session :=
  ⟨"ann@example.com", "ann@example.com", "Ann", roleReadOnly, none, 0⟩

theorem login_not_forced_visits :
    ∃ s, (loginProtocol unconfigured).exec .init visits = some s ∧
      s.log = [.issued 1 annReadonly "state" (some "nonce"), .login 1 "state" "nonce"] ∧
      ∃ n, some "nonce" = some n ∧ Event.login 1 "state" n ∈ [Event.login 1 "state" "nonce"] := by
  have hrun : ∃ s, (loginProtocol unconfigured).exec .init visits = some s ∧
      s.log = [.issued 1 annReadonly "state" (some "nonce"), .login 1 "state" "nonce"] := by
    decide +kernel
  obtain ⟨s, hs, hlog⟩ := hrun
  have hsplit : s.log = [] ++ .issued 1 annReadonly "state" (some "nonce") ::
      [.login 1 "state" "nonce"] := hlog
  exact ⟨s, hs, hlog, login_not_forced hs hsplit⟩

end ReleaseRadar.Auth
