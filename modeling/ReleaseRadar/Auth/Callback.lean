import ReleaseRadar.Auth.Ldap
import ReleaseRadar.Auth.Oidc

/-!
# The login handlers

`login` and `callback` of `backend/internal/api/handlers.go`. A reply carries the
OIDC cookies it sets or evicts and, when there is one, the session handed to
`Sessions.Issue` and the actor handed to `Repo.UpsertActor`. The error of the latter is
only logged; the former fails when `json.Marshal` does, which on a session it never
does.

`callback_session` is what a callback that issues a session has checked. On it rests
`session_admin_iff`: the admin role is for an entry that satisfies the user filter and
is in an admin group, and for no other case.
-/

namespace ReleaseRadar.Auth

open Lib Lib.SearchFilter Ldap
open Api (Env)

/-! ## The handlers -/

inductive AuthBody where
  | text (msg : String)
  /-- The redirect to `AuthCodeURL`. -/
  | authorize (state nonce : String)
  /-- The redirect to `/`. -/
  | home
deriving DecidableEq, Repr

structure AuthReply where
  status : Nat
  body : AuthBody
  cookies : List Cookie
  actor : Option Actor
  session : Option Session
deriving DecidableEq, Repr

/-- `http.Error` after the cookies were set. -/
def refuse (status : Nat) (msg : String) (cookies : List Cookie) : AuthReply :=
  ⟨status, .text msg, cookies, none, none⟩

/-- `state` and `nonce` are the two fresh values of `RandomState`. -/
def login (oidc : Option Provider) (state nonce : String) : AuthReply :=
  match oidc with
  | none => refuse 503 "OIDC not configured" []
  | some _ => ⟨302, .authorize state nonce, writeOIDCCookies state nonce, none, none⟩

/-- A request to the callback; a query parameter that is missing is empty. -/
structure CallbackRequest where
  cookies : List (String × String)
  state : String
  code : String
deriving DecidableEq, Repr

/-- The session for the verified claims; a directory that fails makes it readonly. -/
def sessionFor (env : Env) (cfg : LDAPConfig) (dir : Directory) (claims : Claims) :
    Actor × Session :=
  let (role, groups) :=
    match resolve env.toLower cfg dir claims.email with
    | .ok r => r
    | .error _ => (roleReadOnly, none)
  let actor := { actorFromClaims env claims with role }
  (actor, { id := actor.id, email := actor.email, name := actor.name, role, groups, exp := 0 })

def callback (env : Env) (oidc : Option Provider) (cfg : LDAPConfig) (dir : Directory)
    (req : CallbackRequest) : AuthReply :=
  match oidc with
  | none => refuse 503 "OIDC not configured" []
  | some p =>
    let expectedNonce := (cookieOf req.cookies "rr_oidc_nonce").getD ""
    if cookieOf req.cookies "rr_oidc_state" ≠ some req.state then
      refuse 400 "invalid state" clearOIDCCookies
    else if req.code = "" then refuse 400 "missing code" clearOIDCCookies
    else
      match exchange p req.code expectedNonce with
      | .error _ => refuse 401 "auth exchange failed" clearOIDCCookies
      | .ok claims =>
        let (actor, sess) := sessionFor env cfg dir claims
        ⟨302, .home, clearOIDCCookies, some actor, some sess⟩

variable {env : Env} {oidc : Option Provider} {cfg : LDAPConfig} {dir : Directory}
  {req : CallbackRequest} {sess : Session}

/-- **What a callback that issues a session has checked.** -/
theorem callback_session (h : (callback env oidc cfg dir req).session = some sess) :
    ∃ p claims, oidc = some p ∧ cookieOf req.cookies "rr_oidc_state" = some req.state ∧
      exchange p req.code ((cookieOf req.cookies "rr_oidc_nonce").getD "") = .ok claims ∧
      sess = (sessionFor env cfg dir claims).2 := by
  unfold callback at h
  split at h
  · cases h
  · next p =>
    dsimp only at h
    split at h
    · cases h
    · next hstate =>
      split at h
      · cases h
      · split at h
        · cases h
        · next claims hex =>
            exact ⟨p, claims, rfl, by simpa using hstate, hex, (Option.some.inj h).symm⟩

/-- A callback whose checks hold issues the session of the verified claims. -/
theorem callback_issues {p : Provider} {claims : Claims}
    (hstate : cookieOf req.cookies "rr_oidc_state" = some req.state) (hcode : req.code ≠ "")
    (hex : exchange p req.code ((cookieOf req.cookies "rr_oidc_nonce").getD "") = .ok claims) :
    (callback env (some p) cfg dir req).session = some (sessionFor env cfg dir claims).2 := by
  unfold callback
  dsimp only
  rw [if_neg fun hne => hne hstate, if_neg hcode, hex]

/-! ## The role of a session -/

theorem sessionFor_of_resolve {claims : Claims} {role : String} {groups : Slice String}
    (h : resolve env.toLower cfg dir claims.email = .ok (role, groups)) :
    (sessionFor env cfg dir claims).2 =
      ⟨claims.email.map env.toLower, claims.email,
        if claims.name = "" then claims.email else claims.name, role, groups, 0⟩ := by
  unfold sessionFor
  rw [h]
  rfl

/-- The role is the one resolved for the session's email, readonly when that failed. -/
theorem sessionFor_role (env : Env) (cfg : LDAPConfig) (dir : Directory) (claims : Claims) :
    (∃ groups, resolve env.toLower cfg dir (sessionFor env cfg dir claims).2.email =
        .ok ((sessionFor env cfg dir claims).2.role, groups)) ∨
      (∃ err, resolve env.toLower cfg dir (sessionFor env cfg dir claims).2.email = .error err) ∧
        (sessionFor env cfg dir claims).2.role = roleReadOnly := by
  have hemail : (sessionFor env cfg dir claims).2.email = claims.email := rfl
  rw [hemail]
  unfold sessionFor
  cases h : resolve env.toLower cfg dir claims.email with
  | ok r => exact .inl ⟨r.2, rfl⟩
  | error err => exact .inr ⟨⟨err, rfl⟩, rfl⟩

/-- The entry answers to the email: the text sent is the filter of the template with the
email as the literal value of its assertion, the entry satisfies that filter, and it
satisfies the assertion itself unless the template lets it be selected otherwise. -/
structure AnswersTo (cfg : LDAPConfig) (dir : Directory) (t : Test) (ctx : Context) (email : String)
    (e : Entry) : Prop where
  reads : parse (userRequest cfg email).filter = some (ctx.fill (.item (literally t email)))
  satisfied : evaluate (dir.holds (userRequest cfg email) e)
    (ctx.fill (.item (literally t email))) =
    some true
  matched : ctx.Demands → dir.holds (userRequest cfg email) e (literally t email) = some true

theorem answersTo {t : Test} {ctx : Context} {email : String} {e : Entry}
    (hformat : FilterFormat cfg.userFilter t ctx) (hdir : dir.Answers)
    (h : Selected cfg dir email e) : AnswersTo cfg dir t ctx email e := by
  have hsat := h.satisfies hdir hformat
  refine ⟨parse_template hformat email, hsat, ?_⟩
  intro hd
  have hitem := Context.evaluate_of_demands hd hsat
  rwa [evaluate] at hitem

/-- **Only a real admin gets the admin role.** -/
theorem session_admin_iff {attr : String} {ctx : Context}
    (hformat : FilterFormat cfg.userFilter (.simple attr .equality) ctx) (hdir : dir.Answers)
    (h : (callback env oidc cfg dir req).session = some sess) :
    (sess.role = roleAdmin ↔
      ∃ r e, resolve env.toLower cfg dir sess.email = .ok r ∧ Selected cfg dir sess.email e ∧
        AnswersTo cfg dir (.simple attr .equality) ctx sess.email e ∧
        InAdminGroup env.toLower cfg dir e) ∧
      (sess.role ≠ roleAdmin → sess.role = roleReadOnly) ∧
      ∀ t ctx', FilterFormat cfg.groupFilter t ctx' → ∀ e : Entry,
        parse (groupRequest cfg e.dn).filter = some (ctx'.fill (.item (literally t e.dn))) := by
  obtain ⟨p, claims, -, -, -, rfl⟩ := callback_session h
  refine ⟨?_, ?_, fun t ctx' hgroup e => parse_template hgroup e.dn⟩
  · rcases sessionFor_role env cfg dir claims with ⟨groups, hr⟩ | ⟨⟨err, hr⟩, hrole⟩
    · rw [resolve_admin_iff hr]
      constructor
      · rintro ⟨e, hsel, hadmin⟩
        exact ⟨_, e, hr, hsel, answersTo hformat hdir hsel, hadmin⟩
      · rintro ⟨-, e, -, hsel, -, hadmin⟩
        exact ⟨e, hsel, hadmin⟩
    · refine iff_of_false (by rw [hrole]; decide) ?_
      rintro ⟨r, -, hok, -⟩
      rw [hr] at hok
      cases hok
  · intro hne
    rcases sessionFor_role env cfg dir claims with ⟨groups, hr⟩ | ⟨-, hrole⟩
    · exact (resolve_role hr).resolve_left hne
    · exact hrole

/-! ### Two directories -/

private def ann : Entry where
  dn := "cn=ann(x),dc=example"
  attributes := [("objectClass", ["person"]), ("mail", ["a*n@example.com"])]

private def admins : Entry where
  dn := "cn=Admins,dc=example"
  attributes := [("member", ["cn=ann(x),dc=example"])]

private def eve : Entry where
  dn := "cn=eve,dc=example"
  attributes := [("objectClass", ["person"]), ("mail", ["axn@example.com"])]

private def root : Entry where
  dn := "cn=root,dc=example"
  attributes := [("uid", ["root"]), ("memberOf", ["cn=admins,dc=example"])]

private def groupSearch : LDAPConfig where
  url := "ldap://ldap"
  bindDN := "cn=reader"
  bindPass := "secret"
  baseDN := "dc=example"
  userFilter := "(&(objectClass=person)(mail=%s))"
  groupAttr := ""
  groupBaseDN := ""
  groupFilter := "(member=%s)"
  adminGroups := ["cn=admins,dc=example"]
  readGroups := []

private def disjunction : LDAPConfig :=
  { groupSearch with
    userFilter := "(|(mail=%s)(uid=root))"
    groupAttr := "memberOf"
    groupFilter := "" }

private def provider (email : String) : Provider where
  token _ := .ok (some "raw")
  verify _ := .ok ⟨"n", .ok ⟨"sub", email, "", ""⟩⟩

private def environment : Env := ⟨0, 0, "", Char.toUpper, Char.toLower, fun _ => 0⟩

private def returning : CallbackRequest where
  cookies := [("rr_oidc_state", "s"), ("rr_oidc_nonce", "n")]
  state := "s"
  code := "c"

private def personTemplate : Context :=
  .and [.item (.value (.simple "objectClass" .equality) (encodeUtf8 "person".toList))] .hole []

private theorem groupSearch_format :
    FilterFormat groupSearch.userFilter (.simple "mail" .equality) personTemplate := by
  refine ⟨"(&(objectClass=person)(mail=".toList, "))".toList, by decide, by decide, by decide, ?_⟩
  have hleft : Reads "(objectClass=person)".toList
      (.item (.value (.simple "objectClass" .equality) (encodeUtf8 "person".toList))) := by
    intro frames
    rfl
  exact .and (.cons hleft .nil) (@Template.item "mail".toList _ rfl) .nil

private def annSession : Session :=
  ⟨"a*n@example.com", "a*n@example.com", "a*n@example.com", roleAdmin,
    some ["cn=Admins,dc=example"], 0⟩

private theorem ann_selected :
    Selected groupSearch (served [eve, ann, admins]) "a*n@example.com" ann where
  configured := by decide
  dialled := rfl
  bound _ := rfl
  found := ⟨[], by decide⟩
  named := by decide

private theorem annSession_issued :
    (callback environment (some (provider "a*n@example.com")) groupSearch
      (served [eve, ann, admins]) returning).session = some annSession := by
  have hgroups : memberships groupSearch (served [eve, ann, admins]) ann.dn
      (attributeGroups groupSearch ann) = .ok (some [admins.dn]) := by decide
  have hrole : classify environment.toLower [admins.dn] groupSearch.adminGroups
      groupSearch.readGroups = roleAdmin := by
    refine classify_admin_iff.mpr
      ⟨_, List.mem_singleton.mpr rfl, _, List.mem_singleton.mpr rfl, ?_⟩
    -- the two names differ in case
    simp only [lower, String.map_eq_internal]
    decide
  have hresolve : resolve environment.toLower groupSearch (served [eve, ann, admins])
      "a*n@example.com" = .ok (roleAdmin, some [admins.dn]) := by
    rw [resolve_of_selected ann_selected hgroups, Slice.items_some, hrole]
  have hclaims : exchange (provider "a*n@example.com") "c" "n" =
      .ok ⟨"sub", "a*n@example.com", "", ""⟩ := rfl
  rw [callback_issues rfl (by decide) hclaims, sessionFor_of_resolve hresolve,
    String.map_eq_internal]
  decide

/-- A claim with a `*` selects its own entry, not the first that the `*` would match. -/
theorem session_admin_iff_ann :
    annSession.role = roleAdmin ∧
      ∃ r e, resolve environment.toLower groupSearch (served [eve, ann, admins]) annSession.email =
          .ok r ∧
        Selected groupSearch (served [eve, ann, admins]) annSession.email e ∧
        AnswersTo groupSearch (served [eve, ann, admins]) (.simple "mail" .equality) personTemplate
          annSession.email e ∧
        InAdminGroup environment.toLower groupSearch (served [eve, ann, admins]) e :=
  ⟨rfl, (session_admin_iff groupSearch_format (served_answers _) annSession_issued).1.mp rfl⟩

private theorem disjunction_format :
    FilterFormat disjunction.userFilter (.simple "mail" .equality)
      (.or [] .hole [.item (literally (.simple "uid" .equality) "root")]) := by
  refine ⟨"(|(mail=".toList, ")(uid=root))".toList, by decide, by decide, by decide, ?_⟩
  have hright : Reads "(uid=root)".toList (.item (literally (.simple "uid" .equality) "root")) := by
    intro frames
    rfl
  exact .or .nil (@Template.item "mail".toList _ rfl) (.cons hright .nil)

/-- Below a disjunction the assertion on the email need not hold of the entry selected. -/
theorem admin_elsewhere :
    ∃ (cfg : LDAPConfig) (dir : Directory) (attr : String) (ctx : Context) (p : Provider)
      (sess : Session), FilterFormat cfg.userFilter (.simple attr .equality) ctx ∧ dir.Answers ∧
      (callback environment (some p) cfg dir returning).session = some sess ∧
      sess.role = roleAdmin ∧
      ∀ e, Selected cfg dir sess.email e →
        dir.holds (userRequest cfg sess.email) e (literally (.simple attr .equality) sess.email) =
          some false := by
  have hsearch : (served [eve, root]).search (userRequest disjunction "mallory@example.com") =
      .ok [root] := by decide
  have hselected : Selected disjunction (served [eve, root]) "mallory@example.com" root :=
    ⟨⟨by decide, rfl, fun _ => rfl⟩, ⟨[], hsearch⟩, by decide⟩
  have hclaims : exchange (provider "mallory@example.com") "c" "n" =
      .ok ⟨"sub", "mallory@example.com", "", ""⟩ := rfl
  have hgroups : memberships disjunction (served [eve, root]) root.dn
      (attributeGroups disjunction root) = .ok (some ["cn=admins,dc=example"]) := by decide
  have hrole : classify environment.toLower ["cn=admins,dc=example"] disjunction.adminGroups
      disjunction.readGroups = roleAdmin :=
    classify_admin_iff.mpr ⟨_, List.mem_singleton.mpr rfl, _, List.mem_singleton.mpr rfl, rfl⟩
  have hresolve : resolve environment.toLower disjunction (served [eve, root])
      "mallory@example.com" = .ok (roleAdmin, some ["cn=admins,dc=example"]) := by
    rw [resolve_of_selected hselected hgroups, Slice.items_some, hrole]
  refine ⟨disjunction, served [eve, root], "mail", _, provider "mallory@example.com", _,
    disjunction_format, served_answers _, callback_issues rfl (by decide) hclaims, ?_, ?_⟩
  · rw [sessionFor_of_resolve hresolve]
  · intro e he
    rw [sessionFor_of_resolve hresolve] at he ⊢
    obtain rfl := he.unique hselected
    decide

end ReleaseRadar.Auth
