import ReleaseRadar.Api.Readonly
import ReleaseRadar.Api.Requests
import ReleaseRadar.Auth.Callback
import ReleaseRadar.Auth.SessionCookie
import ReleaseRadar.Store.Locks

/-!
# Who may change what

The site end to end: `callback` logs people in (provider, directory, the actor's row, the
cookie), `middleware.Authenticate` reads the session of every request from its cookies, and the
routes answer. Anyone may send anything, and every call to the database may fail.

`authorization`: what is written to the rollouts, their parts, the locks and the master data,
what the hub is told and what is shown of the internal texts all go back to a cookie that was
issued, not more than eight hours before, at a login whose directory had the entry in an admin
group. A cookie's tag is taken to be unforgeable in the ideal sense of `Unforged`.
-/

namespace ReleaseRadar

open Lib

namespace Repository

/-- The roles the `actors` table admits. -/
def actorRoles : List String := [roleAdmin, roleReadOnly]

/-- The statement of `UpsertActor`; the initials and the hue of a row that is there stay. -/
def storeActor (a : Auth.Actor) (s : Store) : Except Err (Unit × Store) := do
  constraint (actorRoles.contains a.role) checkViolation
  constraint (!s.actors.any fun r => r.email == a.email && r.id != a.id) uniqueViolation
  let row : ActorRow := ⟨a.id, a.email, a.name, a.role⟩
  if s.hasActor a.id then
    pure ((), { s with actors := s.actors.map fun r => if r.id = a.id then row else r })
  else
    pure ((), { s with actors := s.actors ++ [row] })

def upsertActor (a : Auth.Actor) : Repo Unit :=
  stmt [a.id, a.email, a.name, a.initials, a.role] (storeActor a)

/-- A login touches the actors only, and no row of theirs goes. -/
def loginFrame : Db.Frame Store where
  allows s t := (∃ actors, t = { s with actors := actors }) ∧
    ∀ id, s.hasActor id = true → t.hasActor id = true
  refl s := ⟨⟨s.actors, rfl⟩, fun _ h => h⟩
  trans := by
    rintro s t u ⟨⟨xs, rfl⟩, hst⟩ ⟨⟨ys, rfl⟩, htu⟩
    exact ⟨⟨ys, rfl⟩, fun id h => htu id (hst id h)⟩

theorem storeActor_ok {a : Auth.Actor} {s t : Store} {u : Unit} (h : storeActor a s = .ok (u, t)) :
    loginFrame.allows s t ∧ t.hasActor a.id = true := by
  obtain ⟨-, h⟩ := constraint_bind_ok h
  obtain ⟨-, h⟩ := constraint_bind_ok h
  dsimp only at h
  split at h
  · next hold =>
    obtain rfl := congrArg Prod.snd (Except.ok.inj h)
    have hids : ∀ id, Store.hasActor { s with
        actors := s.actors.map fun r => if r.id = a.id then ⟨a.id, a.email, a.name, a.role⟩ else r }
        id = s.hasActor id := by
      intro id
      have hid : ((fun r : ActorRow => r.id == id) ∘
          fun r => if r.id = a.id then ⟨a.id, a.email, a.name, a.role⟩ else r) = fun r =>
            r.id == id := by
        funext r
        simp only [Function.comp]
        split
        · next heq => rw [heq]
        · rfl
      simp only [Store.hasActor, List.any_map, hid]
    exact ⟨⟨⟨_, rfl⟩, fun id hid => (hids id).trans hid⟩, (hids _).trans hold⟩
  · obtain rfl := congrArg Prod.snd (Except.ok.inj h)
    refine ⟨⟨⟨_, rfl⟩, fun id hid => ?_⟩, ?_⟩
    · unfold Store.hasActor at hid ⊢
      rw [List.any_append, hid]
      rfl
    · simp [Store.hasActor]

theorem within_upsertActor (a : Auth.Actor) : Db.Within loginFrame (upsertActor a) :=
  within_stmt fun _ _ _ h => (storeActor_ok h).1

/-- A login that went through has its row. -/
theorem upsertActor_ok {a : Auth.Actor} {F : Faults Err} {c c' : Conn Store}
    (h : upsertActor a F c = (.ok (), c')) : c'.store.hasActor a.id = true :=
  (storeActor_ok (stmt_ok h)).2

end Repository

namespace Auth

open Lib Ldap Api Repository

/-! ## The site -/

/-- A login: the cookie it was given, with the session and the time, the case mapping and the
directory of the call, and whether the actor's row was written. -/
structure Login where
  grant : Grant
  toLower : Char → Char
  dir : Directory
  stored : Bool

structure Site where
  sessions : SessionStore
  store : Store
  logins : List Login

/-- A request as it comes in. -/
structure Call where
  env : Env
  method : String
  path : List String
  cookies : List (String × String)
  body : Decodings
  refused : Option (Nat × String)

inductive SiteAction
  | wait (seconds : Nat)
  | callback (env : Env) (oidc : Option Provider) (dir : Directory) (req : CallbackRequest)
      (faults : Faults Err)
  | call (c : Call) (hbody : ∀ t, c.body.rolloutType = some t → t.Sized) (faults : Faults Err)
  | marked (now : Int) (id : Nat) (err : String)

section

variable (hmac : List UInt8 → List UInt8) (cfg : LDAPConfig)

/-- `middleware.Authenticate`. -/
def authenticate (now : Int) (cookies : List (String × String)) : Option Session :=
  (read hmac now cookies).toOption

/-- What the routes get of the call. -/
def Call.request (c : Call) (now : Int) : Request :=
  ⟨c.method, c.path, authenticate hmac now c.cookies, c.body, c.refused⟩

/-- The call, answered from a database. -/
def Call.answer (c : Call) (now : Int) (F : Faults Err) (store : Store) : Reply × Conn Store :=
  respond c.env (c.request hmac now) F ⟨store, 0⟩

/-- The callback's writes, where it issues a session: an actor that cannot be stored is
logged. -/
def Site.logIn (s : Site) (env : Env) (dir : Directory) (faults : Faults Err) (actor : Actor)
    (sess : Session) : Site :=
  let res := upsertActor actor faults ⟨s.store, 0⟩
  let grant : Grant := ⟨(issue hmac s.sessions.now sess).value, s.sessions.now, sess⟩
  { sessions := { s.sessions with grants := grant :: s.sessions.grants }
    store := res.2.store
    logins := ⟨grant, env.toLower, dir, res.1.toOption.isSome⟩ :: s.logins }

def siteStep (s : Site) : SiteAction → Option Site
  | .wait seconds => some { s with sessions := { s.sessions with now := s.sessions.now + seconds } }
  | .callback env oidc dir req faults =>
    let reply := callback env oidc cfg dir req
    match reply.actor, reply.session with
    | some actor, some sess => some (s.logIn hmac env dir faults actor sess)
    | _, _ => some s
  | .call c _ faults => some { s with
      store := (c.answer hmac s.sessions.now faults s.store).2.store }
  | .marked now id err => some { s with
      store := { s.store with notifications := s.store.notifications.markSent now id err } }

def site : Machine Site SiteAction := ⟨siteStep hmac cfg⟩

/-! ## What a request is entitled to -/

/-- The call's session cookie is no forgery. -/
def Honest (s : Site) (c : Call) : Prop :=
  ∀ v, cookieOf c.cookies sessionCookie = some v → Unforged hmac s.sessions v

/-- The call carries the cookie of the login, and it has not expired. -/
structure Carries (s : Site) (c : Call) (L : Login) : Prop where
  login : L ∈ s.logins
  cookie : cookieOf c.cookies sessionCookie = some L.grant.value
  issued : L.grant.issuedAt ≤ s.sessions.now
  fresh : s.sessions.now ≤ L.grant.issuedAt + sessionMaxAge

/-- The directory had the entry of the login's email in an admin group. -/
def Login.Admin (L : Login) : Prop :=
  ∃ e, Selected cfg L.dir L.grant.session.email e ∧ InAdminGroup L.toLower cfg L.dir e

def Entitled (s : Site) (c : Call) : Prop := ∃ L, Carries s c L ∧ L.Admin cfg

end

/-- The tables with the site's data: all but the actors and the dispatcher's queue. -/
def dataTables (s : Store) :
    List ProductRow × List RolloutTypeRow × List TypeTaskRow × List RolloutRow × List StageRow ×
      List PairRow × List TaskRow × List LockRow :=
  (s.products, s.rolloutTypes, s.rolloutTypeTasks, s.rollouts, s.rolloutStages, s.rolloutActors,
    s.rolloutTasks, s.locks)

/-! ## Requests without a session -/

/-- Whoever has no session is answered without a look at the database. -/
theorem route_anonymous (env : Env) (req : Request) (h : req.session = none) :
    ∃ reply, route env req = pure reply := by
  unfold route
  cases resolve (patternMethod req.method) req.path with
  | none => exact ⟨_, rfl⟩
  | some r =>
    cases r <;> refine ⟨httpError 401 "unauthenticated", ?_⟩ <;>
      simp only [Route.handler, h] <;> rfl

theorem respond_anonymous (env : Env) (req : Request) (h : req.session = none) (F : Faults Err)
    (c c' : Conn Store) : (respond env req F c).1 = (respond env req F c').1 := by
  obtain ⟨reply, hroute⟩ := route_anonymous env req h
  have hserve : ∀ c : Conn Store, serve (route env req) F c = (reply, c) := by
    intro c
    rw [hroute]
    rfl
  unfold respond
  rw [hserve, hserve]
  split <;> rfl

/-- The server's answer where the handler only reads. -/
theorem respond_readOnly {env : Env} {req : Request} (h : ReadOnly (route env req)) (F : Faults Err)
    (s : Store) :
    (respond env req F ⟨s, 0⟩).2.store = s ∧ (respond env req F ⟨s, 0⟩).1.broadcasts = [] ∧
      ∀ t, SamePublic s t → (respond env req F ⟨s, 0⟩).1 = (respond env req F ⟨t, 0⟩).1 := by
  have hblind : ∀ t, SamePublic s t →
      (serve (route env req) F ⟨s, 0⟩).1 = (serve (route env req) F ⟨t, 0⟩).1 :=
    fun t hS => h.blind F ⟨s, 0⟩ ⟨t, 0⟩ hS rfl
  unfold respond
  by_cases hhead : req.method = "HEAD"
  · simp only [if_pos hhead]
    refine ⟨h.store F _, h.silent F _, fun t hS => ?_⟩
    rw [hblind t hS]
  · simp only [if_neg hhead]
    exact ⟨h.store F _, h.silent F _, hblind⟩

/-! ## The invariant -/

section

variable {hmac : List UInt8 → List UInt8} {cfg : LDAPConfig} {s s' : Site}

/-- The cookies are those of the logins; an admin's login found the entry in an admin group;
and an actor that was stored is still there. -/
structure SiteInv (hmac : List UInt8 → List UInt8) (cfg : LDAPConfig) (s : Site) : Prop where
  sessions : s.sessions.Inv hmac
  grants : ∀ g ∈ s.sessions.grants, ∃ L ∈ s.logins, L.grant = g
  admin : ∀ L ∈ s.logins, L.grant.session.role = roleAdmin → L.Admin cfg
  actor : ∀ L ∈ s.logins, L.stored = true → s.store.hasActor L.grant.session.id = true

/-- No write touches the actors. -/
theorem admits_actors : Admits (Db.Frame.keeps Store.actors) :=
  AllowsEffects.admits {
    product := fun _ _ => rfl
    rolloutType := fun _ _ => rfl
    create := fun _ _ _ _ _ => rfl
    update := fun _ _ _ _ => rfl
    delete := fun _ _ => rfl
    task := fun _ _ _ _ _ _ _ => rfl
    createLock := fun _ _ _ _ => rfl
    lock := fun _ _ => rfl
    deleteLock := fun _ _ => rfl
    reschedule := fun id items =>
      within_rescheduleNotifications (p := Store.actors) (fun _ _ => rfl) id items }

theorem hasActor_congr {s t : Store} (h : t.actors = s.actors) (id : String) :
    t.hasActor id = s.hasActor id := by
  unfold Store.hasActor
  rw [h]

/-- The actor of a callback is the session's. -/
theorem callback_actor {env : Env} {oidc : Option Provider} {dir : Directory}
    {req : CallbackRequest} {actor : Actor} {sess : Session}
    (hactor : (callback env oidc cfg dir req).actor = some actor)
    (hsess : (callback env oidc cfg dir req).session = some sess) : actor.id = sess.id := by
  unfold callback at hactor hsess
  cases oidc with
  | none => cases hactor
  | some p =>
    dsimp only at hactor hsess
    by_cases hstate : cookieOf req.cookies "rr_oidc_state" ≠ some req.state
    · rw [if_pos hstate] at hactor
      cases hactor
    · rw [if_neg hstate] at hactor hsess
      by_cases hcode : req.code = ""
      · rw [if_pos hcode] at hactor
        cases hactor
      · rw [if_neg hcode] at hactor hsess
        cases hex : exchange p req.code ((cookieOf req.cookies "rr_oidc_nonce").getD "") with
        | error e =>
          rw [hex] at hactor
          cases hactor
        | ok claims =>
          rw [hex] at hactor hsess
          cases hactor
          cases hsess
          rfl

/-- An admin session is for an entry that the directory had in an admin group. -/
theorem callback_admin {env : Env} {oidc : Option Provider} {dir : Directory}
    {req : CallbackRequest} {sess : Session}
    (h : (callback env oidc cfg dir req).session = some sess) (hrole : sess.role = roleAdmin) :
    ∃ e, Selected cfg dir sess.email e ∧ InAdminGroup env.toLower cfg dir e := by
  obtain ⟨p, claims, -, -, -, rfl⟩ := callback_session h
  rcases sessionFor_role env cfg dir claims with ⟨groups, hr⟩ | ⟨-, hread⟩
  · exact (resolve_admin_iff hr).mp hrole
  · rw [hread] at hrole
    exact absurd hrole (by decide)

theorem siteInv_logIn {env : Env} {dir : Directory} {faults : Faults Err} {actor : Actor}
    {sess : Session} (h : SiteInv hmac cfg s) (hid : actor.id = sess.id)
    (hadmin : sess.role = roleAdmin →
      ∃ e, Selected cfg dir sess.email e ∧ InAdminGroup env.toLower cfg dir e) :
    SiteInv hmac cfg (s.logIn hmac env dir faults actor sess) where
  sessions := store_step h.sessions (a := .issue sess) rfl
  grants g hg := by
    rcases List.mem_cons.mp hg with rfl | hold
    · exact ⟨_, List.mem_cons_self, rfl⟩
    · obtain ⟨L, hL, heq⟩ := h.grants g hold
      exact ⟨L, List.mem_cons_of_mem _ hL, heq⟩
  admin L hL hrole := by
    rcases List.mem_cons.mp hL with rfl | hold
    · exact hadmin hrole
    · exact h.admin L hold hrole
  actor L hL hstored := by
    rcases List.mem_cons.mp hL with rfl | hold
    · show (upsertActor actor faults ⟨s.store, 0⟩).2.store.hasActor sess.id = true
      rcases hr : upsertActor actor faults ⟨s.store, 0⟩ with ⟨r, c'⟩
      have hsome : r.toOption.isSome = true := by
        have hs' : (upsertActor actor faults ⟨s.store, 0⟩).1.toOption.isSome = true := hstored
        rwa [hr] at hs'
      cases r with
      | ok u => exact hid ▸ upsertActor_ok hr
      | error e => cases hsome
    · exact (within_upsertActor actor faults ⟨s.store, 0⟩).2 _ (h.actor L hold hstored)

theorem siteInv_step {a : SiteAction} (h : SiteInv hmac cfg s)
    (hs : siteStep hmac cfg s a = some s') : SiteInv hmac cfg s' := by
  cases a with
  | wait seconds =>
    cases hs
    exact ⟨store_step h.sessions (a := .wait seconds) rfl, h.grants, h.admin, h.actor⟩
  | callback env oidc dir req faults =>
    simp only [siteStep] at hs
    split at hs
    · next actor sess hactor hsess =>
      cases hs
      exact siteInv_logIn h (callback_actor hactor hsess) (callback_admin hsess)
    · cases hs
      exact h
  | call c hbody faults =>
    cases hs
    have hsized : ∀ t, (c.request hmac s.sessions.now).body.rolloutType = some t → t.Sized := hbody
    have hkeeps : (respond c.env (c.request hmac s.sessions.now) faults
      ⟨s.store, 0⟩).2.store.actors =
        s.store.actors :=
      respond_allows admits_actors c.env hsized faults ⟨s.store, 0⟩
    exact ⟨h.sessions, h.grants, h.admin, fun L hL hstored =>
      (hasActor_congr hkeeps _).trans (h.actor L hL hstored)⟩
  | marked now id err =>
    cases hs
    exact ⟨h.sessions, h.grants, h.admin, h.actor⟩

theorem siteInv_start (now : Int) (store : Store) : SiteInv hmac cfg ⟨⟨now, []⟩, store, []⟩ where
  sessions _ hg := by cases hg
  grants _ hg := by cases hg
  admin _ hL := by cases hL
  actor _ hL := by cases hL

/-! ## What a session is worth -/

/-- A session that is read, of a cookie that is no forgery, is that of a login. -/
theorem carries_of_authenticate {c : Call} {sess : Session} (h : SiteInv hmac cfg s)
    (hhonest : Honest hmac s c) (hsess : authenticate hmac s.sessions.now c.cookies = some sess) :
    ∃ L, Carries s c L ∧ sess = carried L.grant.issuedAt L.grant.session := by
  unfold authenticate at hsess
  cases hcookie : cookieOf c.cookies sessionCookie with
  | none =>
    rw [Auth.read, hcookie] at hsess
    cases hsess
  | some v =>
    have hsame : Auth.read hmac s.sessions.now c.cookies =
        Auth.read hmac s.sessions.now [(sessionCookie, v)] := by
      have hone : cookieOf [(sessionCookie, v)] sessionCookie = some v := by simp [cookieOf]
      rw [Auth.read, hcookie, Auth.read, hone]
    rw [hsame] at hsess
    have hread : Auth.read hmac s.sessions.now [(sessionCookie, v)] = .ok sess := by
      cases hr : Auth.read hmac s.sessions.now [(sessionCookie, v)] with
      | error e => rw [hr] at hsess; cases hsess
      | ok sess' => rw [hr] at hsess; exact congrArg Except.ok (Option.some.inj hsess)
    obtain ⟨g, hg, hvalue, hpast, hage, rfl⟩ :=
      accepted_issued h.sessions (hhonest v hcookie) hread
    obtain ⟨L, hL, rfl⟩ := h.grants g hg
    exact ⟨L, ⟨hL, by rw [hcookie, hvalue], hpast, hage⟩, rfl⟩

/-- Who is not entitled has no admin session. -/
theorem not_admin_of_not_entitled {c : Call} (h : SiteInv hmac cfg s) (hhonest : Honest hmac s c)
    (hnot : ¬Entitled cfg s c) :
    ∀ sess ∈ (c.request hmac s.sessions.now).session, sess.role ≠ roleAdmin := by
  intro sess hsess hrole
  obtain ⟨L, hcarries, rfl⟩ := carries_of_authenticate h hhonest hsess
  exact hnot ⟨L, hcarries, h.admin L hcarries.login hrole⟩

/-- The step is no request that is entitled to change anything. -/
def Harmless (hmac : List UInt8 → List UInt8) (cfg : LDAPConfig) (s : Site) : SiteAction → Prop
  | .call c _ _ => Honest hmac s c ∧ ¬Entitled cfg s c
  | _ => True

theorem data_step {a : SiteAction} (h : SiteInv hmac cfg s) (hG : Harmless hmac cfg s a)
    (hs : siteStep hmac cfg s a = some s') : dataTables s'.store = dataTables s.store := by
  cases a with
  | wait seconds =>
    cases hs
    rfl
  | callback env oidc dir req faults =>
    simp only [siteStep] at hs
    split at hs
    · next actor sess _ _ =>
      cases hs
      obtain ⟨⟨actors, hstore⟩, -⟩ := within_upsertActor actor faults ⟨s.store, 0⟩
      show dataTables (upsertActor actor faults ⟨s.store, 0⟩).2.store = _
      rw [hstore]
      rfl
    · cases hs
      rfl
  | call c hbody faults =>
    cases hs
    have hread := readOnly_route c.env (not_admin_of_not_entitled h hG.1 hG.2)
    exact congrArg dataTables (respond_readOnly hread faults s.store).1
  | marked now id err =>
    cases hs
    rfl

/-- A cookie that was issued is no forgery. -/
theorem unforged_of_grant {sessions : SessionStore} {g : Grant} (hi : sessions.Inv hmac)
    (hg : g ∈ sessions.grants) : Unforged hmac sessions g.value := by
  intro body hbody
  refine ⟨g, hg, ?_⟩
  have hsplit : splitDot g.value =
      some (bodyOf g.issuedAt g.session, sign hmac (bodyOf g.issuedAt g.session)) := by
    rw [(hi g hg).2]
    exact splitDot_dot (dot_not_mem_body g.issuedAt g.session)
  exact (Prod.ext_iff.mp (Option.some.inj (hsplit.symm.trans hbody))).1

end

/-- **Only a real admin changes anything**, in every run of the site. A request without the
unexpired cookie of a login that found its entry in an admin group changes nothing, tells the
hub nothing and is shown nothing internal; one without the unexpired cookie of any login is
answered without a look at the database. So the data is as at the start if no request was
entitled to more. The row of an actor that was stored at a login is there ever after. -/
theorem authorization (hmac : List UInt8 → List UInt8) (cfg : LDAPConfig) {now₀ : Int}
    {store : Store} {as : List SiteAction} {s : Site}
    (he : (site hmac cfg).exec ⟨⟨now₀, []⟩, store, []⟩ as = some s) :
    (∀ c, Honest hmac s c → ¬Entitled cfg s c → ∀ F,
      (c.answer hmac s.sessions.now F s.store).2.store = s.store ∧
        (c.answer hmac s.sessions.now F s.store).1.broadcasts = [] ∧
          ∀ t, SamePublic s.store t → (c.answer hmac s.sessions.now F s.store).1 =
            (c.answer hmac s.sessions.now F t).1) ∧
      (∀ c, Honest hmac s c → (∀ L, ¬Carries s c L) → ∀ F t,
        (c.answer hmac s.sessions.now F s.store).1 = (c.answer hmac s.sessions.now F t).1) ∧
      ((site hmac cfg).Along (Harmless hmac cfg) ⟨⟨now₀, []⟩, store, []⟩ as →
        dataTables s.store = dataTables store) ∧
      ∀ L ∈ s.logins, L.stored = true → s.store.hasActor L.grant.session.id = true := by
  have hinv : SiteInv hmac cfg s :=
    (site hmac cfg).exec_invariant (fun _ _ _ h hs => siteInv_step h hs)
      (siteInv_start now₀ store) he
  refine ⟨fun c hhonest hnot F => ?_, fun c hhonest hnone F t => ?_, fun hG => ?_, hinv.actor⟩
  · have hread := readOnly_route c.env (not_admin_of_not_entitled hinv hhonest hnot)
    exact respond_readOnly hread F s.store
  · refine respond_anonymous c.env (c.request hmac s.sessions.now) ?_ F _ _
    cases hsess : (c.request hmac s.sessions.now).session with
    | none => rfl
    | some sess =>
      obtain ⟨L, hcarries, -⟩ := carries_of_authenticate hinv hhonest hsess
      exact absurd hcarries (hnone L)
  · exact ((site hmac cfg).exec_invariant_along
      (I := fun t => SiteInv hmac cfg t ∧ dataTables t.store = dataTables store)
      (fun _ _ _ h hg hs => ⟨siteInv_step h.1 hs, (data_step h.1 hg hs).trans h.2⟩)
      ⟨siteInv_start now₀ store, rfl⟩ hG he).2

private def noDirectory : LDAPConfig := ⟨"", "", "", "", "", "", "", "", [], []⟩

private def annsProvider : Provider where
  token _ := .ok (some "raw")
  verify _ := .ok ⟨"nonce", .ok ⟨"sub", "ann@x.de", "Ann", ""⟩⟩

/-- HMAC-SHA256 of the one body below, under `0123456789abcdef`. -/
private def annsTag (_ : List UInt8) : List UInt8 :=
  [131, 70, 24, 229, 101, 158, 96, 87, 239, 232, 38, 152, 107, 251, 46, 93, 148, 239, 174, 44, 229,
    197, 77, 35, 51, 90, 156, 129, 81, 99, 202, 206]

private def annsCookie : String :=
  "eyJpZCI6ImFubkB4LmRlIiwiZW1haWwiOiJhbm5AeC5kZSIsIm5hbWUiOiJBbm4iLCJyb2xlIjoicmVhZG9ubHkiLC" ++
    "JleHAiOjE3MDAwMjg4MDB9.g0YY5WWeYFfv6CaYa_suXZTvrizlxU0jM1qcgVFjys4"

private def anyEnvironment : Env := ⟨0, 0, "01234567", Char.toUpper, Char.toLower, fun _ => 0⟩

/-- Ann logs in where no directory is configured. -/
private def annLogsIn : List SiteAction :=
  [.callback anyEnvironment (some annsProvider) (served [])
    ⟨[("rr_oidc_state", "state"), ("rr_oidc_nonce", "nonce")], "state", "code"⟩ Db.noFaults,
    .wait 60]

private def annDeletes : Call :=
  ⟨anyEnvironment, "DELETE", ["api", "rollouts", "r1"], [(sessionCookie, annsCookie)],
    ⟨none, none, none, none, none, ⟨0, 0, 0⟩⟩, none⟩

/-- A minute later she tries to delete a rollout, in vain; her row is stored. -/
theorem authorization_readonly : ∃ s,
    (site annsTag noDirectory).exec ⟨⟨1700000000, []⟩, Store.empty, []⟩ annLogsIn = some s ∧
      (∀ F, (annDeletes.answer annsTag s.sessions.now F s.store).2.store = s.store) ∧
      ∀ L ∈ s.logins, L.stored = true → s.store.hasActor L.grant.session.id = true := by
  have hrun : ∃ s,
      (site annsTag noDirectory).exec ⟨⟨1700000000, []⟩, Store.empty, []⟩ annLogsIn = some s ∧
        s.sessions.grants.map (·.value) = [annsCookie] ∧
          s.logins.map (·.stored) = [true] := by decide +kernel
  obtain ⟨s, he, hgrants, -⟩ := hrun
  have hinv : SiteInv annsTag noDirectory s :=
    (site annsTag noDirectory).exec_invariant (fun _ _ _ h hs => siteInv_step h hs)
      (siteInv_start _ _) he
  obtain ⟨hreadonly, -, -, hactor⟩ := authorization annsTag noDirectory he
  refine ⟨s, he, fun F => (hreadonly annDeletes ?_ ?_ F).1, hactor⟩
  · intro v hv
    have hvalue : annsCookie = v := Option.some.inj hv
    have hmem : v ∈ s.sessions.grants.map (·.value) := by
      rw [hgrants, hvalue]
      exact List.mem_singleton_self v
    obtain ⟨g, hg, rfl⟩ := List.mem_map.mp hmem
    exact unforged_of_grant hinv.sessions hg
  · rintro ⟨L, -, e, hselected, -⟩
    exact hselected.configured rfl

end Auth

end ReleaseRadar
