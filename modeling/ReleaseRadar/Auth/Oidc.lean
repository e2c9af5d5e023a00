import ReleaseRadar.Api.Handlers

/-!
# Login with the provider

`backend/internal/auth/oidc.go`. What the provider answers is a parameter
(`Provider`): the token response to a code, and what verifying an ID token's signature,
issuer and audience yields. `exchange_ok` is what an exchange that succeeds has checked.
-/

namespace ReleaseRadar.Auth

open Api (Env initials)

/-- The claims of an ID token. -/
structure Claims where
  subject : String
  email : String
  name : String
  preferredUsername : String
deriving DecidableEq, Repr

/-- A verified ID token; its other claims may fail to decode. -/
structure IDToken where
  nonce : String
  claims : Except String Claims

/-- The provider during one call. `token` is the `id_token` of the token response, `none`
when that has none. -/
structure Provider where
  token : String → Except String (Option String)
  verify : String → Except String IDToken

/-- An empty email falls back to the preferred username. -/
def Claims.filled (c : Claims) : Claims :=
  if c.email = "" then { c with email := c.preferredUsername } else c

/-- `OIDC.Exchange`. -/
def exchange (p : Provider) (code expectedNonce : String) : Except String Claims :=
  if expectedNonce = "" then .error "missing nonce"
  else
    match p.token code with
    | .error err => .error ("oauth exchange: " ++ err)
    | .ok none => .error "missing id_token"
    | .ok (some raw) =>
      match p.verify raw with
      | .error err => .error ("verify id_token: " ++ err)
      | .ok idTok =>
        if idTok.nonce ≠ expectedNonce then .error "nonce mismatch"
        else
          match idTok.claims with
          | .error err => .error ("decode claims: " ++ err)
          | .ok c => .ok c.filled

/-- **An exchange that succeeds has seen the nonce**, in a token verified for the code. -/
theorem exchange_ok {p : Provider} {code expectedNonce : String} {c : Claims}
    (h : exchange p code expectedNonce = .ok c) :
    expectedNonce ≠ "" ∧ ∃ raw idTok, p.token code = .ok (some raw) ∧ p.verify raw = .ok idTok ∧
      idTok.nonce = expectedNonce ∧ ∃ c₀, idTok.claims = .ok c₀ ∧ c = c₀.filled := by
  unfold exchange at h
  split at h
  · cases h
  · next hne =>
    refine ⟨hne, ?_⟩
    split at h
    · cases h
    · cases h
    · next raw hraw =>
      split at h
      · cases h
      · next idTok htok =>
        split at h
        · cases h
        · next hnonce =>
          split at h
          · cases h
          · next c₀ hc =>
            cases h
            exact ⟨raw, idTok, hraw, htok, by simpa using hnonce, c₀, hc, rfl⟩

/-- The verified ID token for a code, when there is one. -/
def Provider.idToken (p : Provider) (code : String) : Option IDToken :=
  match p.token code with
  | .ok (some raw) => (p.verify raw).toOption
  | _ => none

theorem exchange_idToken {p : Provider} {code expectedNonce : String} {c : Claims}
    (h : exchange p code expectedNonce = .ok c) :
    ∃ tok, p.idToken code = some tok ∧ tok.nonce = expectedNonce := by
  obtain ⟨-, raw, tok, hraw, htok, hnonce, -⟩ := exchange_ok h
  refine ⟨tok, ?_, hnonce⟩
  simp only [Provider.idToken, hraw, htok]
  rfl

/-! ## The actor -/

/-- `domain.Actor`. -/
structure Actor where
  id : String
  email : String
  name : String
  initials : String
  hue : Nat
  role : String
deriving DecidableEq, Repr

def hueOf (s : String) : Nat := s.toList.foldl (fun h r => (h * 31 + r.toNat) % 360) 0

/-- `ActorFromClaims`; `initialsOf` is the same function as `initials`. -/
def actorFromClaims (env : Env) (c : Claims) : Actor :=
  let name := if c.name = "" then c.email else c.name
  { id := c.email.map env.toLower
    email := c.email
    name
    initials := initials env name
    hue := hueOf c.email
    role := roleReadOnly }

/-! ## Cookies -/

/-- A `Set-Cookie` line: a negative `Max-Age` evicts the cookie. -/
structure Cookie where
  name : String
  value : String
  maxAge : Int
deriving DecidableEq, Repr

/-- `r.Cookie`: the first of the name. -/
def cookieOf (cookies : List (String × String)) (name : String) : Option String :=
  (cookies.find? fun c => c.1 == name).map Prod.snd

def writeOIDCCookies (state nonce : String) : List Cookie :=
  [⟨"rr_oidc_state", state, 300⟩, ⟨"rr_oidc_nonce", nonce, 300⟩]

def clearOIDCCookies : List Cookie :=
  [⟨"rr_oidc_state", "", -1⟩, ⟨"rr_oidc_nonce", "", -1⟩]

end ReleaseRadar.Auth
