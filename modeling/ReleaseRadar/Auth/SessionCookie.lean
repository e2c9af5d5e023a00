import ReleaseRadar.Auth.Oidc
import ReleaseRadar.Lib.Base64
import ReleaseRadar.Lib.JsonText
import ReleaseRadar.Lib.Machine
import ReleaseRadar.Lib.Utf8

/-!
# The session cookie

`backend/internal/auth/session.go`, with what `encoding/json` and `encoding/base64` do
to a session. The clock is read in seconds of the Unix epoch. HMAC-SHA256 under the
secret is a parameter: a function from octets to octets.

`read_issue` is the round trip, up to the second of the expiry. The converse is about
the cookies the store has issued (`SessionStore`) and anything a client may come up with, a
valid tag for a body never signed excepted (`Unforged`). `session_cookie_exact` is both.
-/

namespace ReleaseRadar.Auth

open Lib Lib.JsonText

/-! ## The session as JSON -/

def member (key : String) (text : List Char) : List Char := quote key ++ ':' :: text

/-- `groups` is tagged `omitempty`. -/
def groupsMember (groups : List String) : List (List Char) :=
  if groups.isEmpty then []
  else [member "groups" ('[' :: joined (groups.map quote) ++ [']'])]

/-- `json.Marshal`. -/
def marshal (s : Session) : List Char :=
  '\x7b' :: joined ([member "id" (quote s.id), member "email" (quote s.email),
    member "name" (quote s.name), member "role" (quote s.role)] ++ groupsMember s.groups.items ++
    [member "exp" (decimal s.exp)]) ++ ['\x7d']

inductive Field where
  | id
  | email
  | name
  | role
  | groups
  | exp
deriving DecidableEq

def fieldNames : List (String × Field) :=
  [("id", .id), ("email", .email), ("name", .name), ("role", .role), ("groups", .groups),
    ("exp", .exp)]

/-- The case folding of a key: two characters beyond ASCII fold to letters. -/
def foldName (key : String) : List Char :=
  key.toList.map fun c => if c = '\u017f' then 'S' else if c = '\u212a' then 'K' else c.toUpper

def fieldOf (key : String) : Option Field :=
  (fieldNames.find? fun f => foldName f.1 == foldName key).map Prod.snd

/-- An element of a `[]string`. -/
def stringItem : Value → Option String
  | .str s => some s
  | .null => some ""
  | _ => none

/-- A member is stored in its field; `none` is an `UnmarshalTypeError`. -/
def setField (s : Session) : Field → Value → Option Session
  | .groups, .null => some { s with groups := none }
  | _, .null => some s
  | .id, .str x => some { s with id := x }
  | .email, .str x => some { s with email := x }
  | .name, .str x => some { s with name := x }
  | .role, .str x => some { s with role := x }
  | .groups, .arr items => (items.mapM stringItem).map fun gs => { s with groups := some gs }
  | .exp, .num literal => (Api.atoi (String.ofList literal)).map fun n => { s with exp := n }
  | _, _ => none

/-- A member without a field is skipped. -/
def setMember (s : Session) (m : String × Value) : Option Session :=
  match fieldOf m.1 with
  | none => some s
  | some f => setField s f m.2

/-- `json.Unmarshal` into a zero session. -/
def unmarshal (raw : List UInt8) : Option Session :=
  match parse (decodeLossy raw) with
  | some .null => some ⟨"", "", "", "", none, 0⟩
  | some (.obj members) => members.foldlM setMember ⟨"", "", "", "", none, 0⟩
  | _ => none

/-! ## The cookie -/

def sessionCookie : String := "rr_session"

/-- Eight hours, in seconds. -/
def sessionMaxAge : Int := 28800

inductive ReadError where
  | noCookie
  | malformed
  | badSignature
  | base64
  | json
  | expired
deriving DecidableEq, Repr

/-- `strings.SplitN(v, ".", 2)`, when it has two parts. -/
def splitDot (v : String) : Option (String × String) :=
  match v.toList.dropWhile (· != '.') with
  | [] => none
  | _ :: rest => some (String.ofList (v.toList.takeWhile (· != '.')), String.ofList rest)

section

variable (hmac : List UInt8 → List UInt8)

def sign (body : String) : String :=
  String.ofList (Base64.encode (hmac (encodeUtf8 body.toList)))

/-- The part of the cookie that is signed. -/
def bodyOf (now : Int) (sess : Session) : String :=
  String.ofList (Base64.encode (encodeUtf8 (marshal { sess with exp := now + sessionMaxAge })))

def issue (now : Int) (sess : Session) : Cookie where
  name := sessionCookie
  value := bodyOf now sess ++ "." ++ sign hmac (bodyOf now sess)
  maxAge := sessionMaxAge

/-- `Read`, for the cookies of a request. -/
def read (now : Int) (cookies : List (String × String)) : Except ReadError Session :=
  match cookieOf cookies sessionCookie with
  | none => .error .noCookie
  | some v =>
    match splitDot v with
    | none => .error .malformed
    | some (body, mac) =>
      if sign hmac body ≠ mac then .error .badSignature
      else
        match Base64.decode body.toList with
        | none => .error .base64
        | some raw =>
          match unmarshal raw with
          | none => .error .json
          | some sess => if sess.exp < now then .error .expired else .ok sess

end

/-! ## What is read back -/

/-- The session a cookie carries: its expiry set, and no groups when there are none. -/
def carried (now : Int) (sess : Session) : Session :=
  { sess with
    groups := if sess.groups.items.isEmpty then none else some sess.groups.items
    exp := now + sessionMaxAge }

/-- The values of an `int64`. -/
def IsInt64 (n : Int) : Prop := -9223372036854775808 ≤ n ∧ n ≤ 9223372036854775807

instance (n : Int) : Decidable (IsInt64 n) := inferInstanceAs (Decidable (_ ∧ _))

theorem foldl_digits {cs : List Char} (h : ∀ c ∈ cs, c.isDigit) (n : Nat) :
    cs.foldl (fun (n : Int) c => n * 10 + (c.toNat - '0'.toNat)) n = Nat.ofDigitChars 10 cs n := by
  induction cs generalizing n with
  | nil => rfl
  | cons c cs ih =>
    have hc : '0'.toNat ≤ c.toNat := by
      have hd := h c (List.mem_cons_self ..)
      simp only [Char.isDigit, Bool.and_eq_true, decide_eq_true_eq] at hd
      exact hd.1
    have hcast : (n : Int) * 10 + (c.toNat - '0'.toNat) =
      ((10 * n + (c.toNat - '0'.toNat) : Nat) : Int) := by
      omega
    rw [List.foldl_cons, hcast, ih fun d hd => h d (List.mem_cons_of_mem _ hd),
      Nat.ofDigitChars_cons]

/-- A decimal integer is read back, if it fits. -/
theorem atoi_decimal (n : Int) :
    Api.atoi (String.ofList (decimal n)) = if IsInt64 n then some n else none := by
  have hdigits : ∀ m, ∀ c ∈ Nat.toDigits 10 m, c.isDigit := fun m c hc =>
    Nat.isDigit_of_mem_toDigits (by decide) (by decide) hc
  have hguard : ∀ m,
    ((Nat.toDigits 10 m).isEmpty || !(Nat.toDigits 10 m).all Char.isDigit) = false := by
    intro m
    simp [Nat.toDigits_ne_nil, List.all_eq_true.mpr (hdigits m)]
  have hvalue : ∀ m : Nat, (Nat.toDigits 10 m).foldl
      (fun (n : Int) c => n * 10 + (c.toNat - '0'.toNat)) (0 : Nat) = m := by
    intro m
    rw [foldl_digits (hdigits m), Nat.ofDigitChars_toDigits (by decide) (by decide)]
  cases n with
  | ofNat m =>
    -- the text starts with a digit, so it has no sign
    have hsign : ∀ cs, Nat.toDigits 10 m ≠ '-' :: cs ∧ Nat.toDigits 10 m ≠ '+' :: cs := by
      intro cs
      constructor
      · intro he
        exact absurd (hdigits m '-' (he ▸ List.mem_cons_self ..)) (by decide)
      · intro he
        exact absurd (hdigits m '+' (he ▸ List.mem_cons_self ..)) (by decide)
    simp only [Api.atoi, decimal, String.toList_ofList]
    split
    · next cs he => exact absurd he (hsign cs).1
    · next cs he => exact absurd he (hsign cs).2
    · simp only [hguard, hvalue, Bool.false_eq_true, if_false]
      rfl
  | negSucc m =>
    simp only [Api.atoi, decimal, String.toList_ofList, hguard, hvalue,
      Bool.false_eq_true, if_false,
      if_true]
    have hneg : Int.negSucc m = -((m + 1 : Nat) : Int) := rfl
    rw [hneg]
    rfl

/-- The members of a marshalled session. -/
def membersOf (s : Session) : List (String × Value) :=
  [("id", Value.str s.id), ("email", .str s.email), ("name", .str s.name), ("role", .str s.role)] ++
    (if s.groups.items.isEmpty then [] else [("groups", Value.arr (s.groups.items.map .str))]) ++
    [("exp", Value.num (decimal s.exp))]

theorem parse_marshal (s : Session) : parse (marshal s) = some (.obj (membersOf s)) := by
  have hstr : ∀ x : String, Reads 1 (quote x) (.str x) := fun x => (reads_str x).deeper
  have hexp : ReadsMembers 1 (member "exp" (decimal s.exp)) [("exp", .num (decimal s.exp))] :=
    .one "exp" (reads_decimal s.exp).deeper
  have hgroups : ReadsMembers 1
      (joined (groupsMember s.groups.items ++ [member "exp" (decimal s.exp)]))
      ((if s.groups.items.isEmpty then [] else [("groups", .arr (s.groups.items.map .str))]) ++
        [("exp", .num (decimal s.exp))]) := by
    unfold groupsMember
    split
    · exact hexp
    · next hne =>
      refine .cons "groups" (reads_arr (readsItems_quotes ?_)) hexp
      simpa using hne
  have hall : ReadsMembers 1 _ (membersOf s) :=
    .cons "id" (hstr s.id) (.cons "email" (hstr s.email) (.cons "name" (hstr s.name)
      (.cons "role" (hstr s.role) hgroups)))
  have htext : joined ([member "id" (quote s.id), member "email" (quote s.email),
      member "name" (quote s.name), member "role" (quote s.role)] ++ groupsMember s.groups.items ++
      [member "exp" (decimal s.exp)]) =
      member "id" (quote s.id) ++ ',' :: (member "email" (quote s.email) ++ ',' ::
        (member "name" (quote s.name) ++ ',' :: (member "role" (quote s.role) ++ ',' ::
          joined (groupsMember s.groups.items ++ [member "exp" (decimal s.exp)])))) := by
    simp only [List.cons_append, List.nil_append]
    rw [joined_cons, joined_cons, joined_cons, joined_cons] <;> simp
  rw [marshal, htext]
  exact parse_obj hall (by decide)

/-- **What was marshalled unmarshals to itself**, if the expiry fits. -/
theorem unmarshal_marshal (s : Session) :
    unmarshal (encodeUtf8 (marshal s)) =
      if IsInt64 s.exp then
        some { s with groups := if s.groups.items.isEmpty then none else some s.groups.items }
      else none := by
  have hitems : ∀ ss : List String, (ss.map Value.str).mapM stringItem = some ss := by
    intro ss
    induction ss with
    | nil => rfl
    | cons x ss ih =>
      rw [List.map_cons, List.mapM_cons, ih]
      rfl
  have hfields : fieldOf "id" = some .id ∧ fieldOf "email" = some .email ∧
      fieldOf "name" = some .name ∧ fieldOf "role" = some .role ∧ fieldOf "groups" = some .groups ∧
      fieldOf "exp" = some .exp := by decide
  obtain ⟨hid, hemail, hname, hrole, hgroups, hexp⟩ := hfields
  rw [unmarshal, decodeLossy_encodeUtf8, parse_marshal]
  show (membersOf s).foldlM setMember ⟨"", "", "", "", none, 0⟩ = _
  unfold membersOf
  split
  · simp [setMember, hid, hemail, hname, hrole, hexp, setField, atoi_decimal]
  · simp [setMember, hid, hemail, hname, hrole, hgroups, hexp, setField, hitems, atoi_decimal]

/-! ## What a cookie is read as -/

variable {hmac : List UInt8 → List UInt8}

theorem splitDot_dot {body mac : String} (h : '.' ∉ body.toList) :
    splitDot (body ++ "." ++ mac) = some (body, mac) := by
  have hne : ∀ c ∈ body.toList, (c != '.') = true := by
    intro c hc
    refine bne_iff_ne.mpr ?_
    rintro rfl
    exact h hc
  have htext : (body ++ "." ++ mac).toList = body.toList ++ '.' :: mac.toList := by
    simp
  unfold splitDot
  rw [htext, List.dropWhile_append_of_pos hne, List.takeWhile_append_of_pos hne]
  simp

/-- The dot is where the value was split. -/
theorem eq_of_splitDot {v body mac : String} (h : splitDot v = some (body, mac)) :
    v = body ++ "." ++ mac := by
  unfold splitDot at h
  split at h
  · cases h
  · next c rest hrest =>
    cases h
    have hc : c = '.' := by
      have hhead := List.head?_dropWhile_not (· != '.') v.toList
      rw [hrest] at hhead
      simpa using hhead
    have hparts : v.toList.takeWhile (· != '.') ++ v.toList.dropWhile (· != '.') = v.toList :=
      List.takeWhile_append_dropWhile
    rw [hrest, hc] at hparts
    apply String.toList_inj.mp
    simpa using hparts.symm

theorem dot_not_mem_body (now : Int) (sess : Session) : '.' ∉ (bodyOf now sess).toList := by
  intro h
  rw [bodyOf, String.toList_ofList] at h
  exact (Base64.mem_encode h).2 rfl

/-- What becomes of a body that carries a valid tag. -/
def readBody (now : Int) (body : String) : Except ReadError Session :=
  match Base64.decode body.toList with
  | none => .error .base64
  | some raw =>
    match unmarshal raw with
    | none => .error .json
    | some sess => if sess.exp < now then .error .expired else .ok sess

theorem readBody_bodyOf (now t : Int) (sess : Session) :
    readBody now (bodyOf t sess) =
      if IsInt64 (t + sessionMaxAge) then
        if now ≤ t + sessionMaxAge then .ok (carried t sess) else .error .expired
      else .error .json := by
  rw [readBody, bodyOf, String.toList_ofList, Base64.decode_encode]
  dsimp only
  rw [unmarshal_marshal]
  by_cases hfits : IsInt64 (t + sessionMaxAge)
  · rw [if_pos hfits, if_pos hfits]
    dsimp only
    by_cases hnow : now ≤ t + sessionMaxAge
    · rw [if_neg (by omega), if_pos hnow]
      rfl
    · rw [if_pos (by omega), if_neg hnow]
  · rw [if_neg hfits, if_neg hfits]

/-- What passes the signature is read from its body. -/
theorem read_signed {now : Int} {body : String} (h : '.' ∉ body.toList) :
    read hmac now [(sessionCookie, body ++ "." ++ sign hmac body)] = readBody now body := by
  have hcookie : cookieOf [(sessionCookie, body ++ "." ++ sign hmac body)] sessionCookie =
      some (body ++ "." ++ sign hmac body) := by
    simp [cookieOf]
  rw [read, hcookie]
  dsimp only
  rw [splitDot_dot h]
  simp only [ne_eq, not_true_eq_false, if_false]
  rfl

/-- **The round trip**, up to the second of the expiry. -/
theorem read_issue (t : Int) (sess : Session) (hfits : IsInt64 (t + sessionMaxAge)) (now : Int) :
    read hmac now [(sessionCookie, (issue hmac t sess).value)] =
      if now ≤ t + sessionMaxAge then .ok (carried t sess) else .error .expired := by
  show read hmac now [(sessionCookie, bodyOf t sess ++ "." ++ sign hmac (bodyOf t sess))] = _
  rw [read_signed (dot_not_mem_body t sess), readBody_bodyOf, if_pos hfits]

/-- What is accepted carries the tag of its body. -/
theorem read_ok {now : Int} {v : String} {sess : Session}
    (h : read hmac now [(sessionCookie, v)] = .ok sess) :
    ∃ body, splitDot v = some (body, sign hmac body) ∧ readBody now body = .ok sess := by
  have hcookie : cookieOf [(sessionCookie, v)] sessionCookie = some v := by
    simp [cookieOf]
  rw [read, hcookie] at h
  dsimp only at h
  cases hs : splitDot v with
  | none =>
    rw [hs] at h
    cases h
  | some parts =>
    obtain ⟨body, mac⟩ := parts
    rw [hs] at h
    dsimp only at h
    by_cases hmac' : sign hmac body = mac
    · rw [if_neg (by simpa using hmac')] at h
      exact ⟨body, by rw [hmac'], h⟩
    · rw [if_pos hmac'] at h
      cases h

/-! ## The cookies of a store -/

/-- A cookie that was issued. -/
structure Grant where
  value : String
  issuedAt : Int
  session : Session

/-- A store over time: its clock and the cookies it has issued. -/
structure SessionStore where
  now : Int
  grants : List Grant

inductive StoreAction where
  | issue (sess : Session)
  | wait (seconds : Nat)

variable (hmac) in
def SessionStore.step (s : SessionStore) : StoreAction → Option SessionStore
  | .issue sess =>
    some { s with grants := ⟨(issue hmac s.now sess).value, s.now, sess⟩ :: s.grants }
  | .wait seconds => some { s with now := s.now + seconds }

variable (hmac) in
def sessionStore : Machine SessionStore StoreAction := ⟨SessionStore.step hmac⟩

/-- The value is not a forgery of the ideal kind: where it carries a valid tag, the store
has signed the body. -/
def Unforged (hmac : List UInt8 → List UInt8) (s : SessionStore) (v : String) : Prop :=
  ∀ body, splitDot v = some (body, sign hmac body) →
    ∃ g ∈ s.grants, bodyOf g.issuedAt g.session = body

/-- Every grant is of the past and holds the cookie issued then. -/
def SessionStore.Inv (hmac : List UInt8 → List UInt8) (s : SessionStore) : Prop :=
  ∀ g ∈ s.grants, g.issuedAt ≤ s.now ∧ g.value = (issue hmac g.issuedAt g.session).value

theorem store_step {s s' : SessionStore} {a : StoreAction} (hi : s.Inv hmac)
    (h : SessionStore.step hmac s a = some s') : s'.Inv hmac := by
  cases a with
  | issue sess =>
    cases h
    intro g hg
    rcases List.mem_cons.mp hg with rfl | hg
    · exact ⟨Int.le_refl _, rfl⟩
    · exact hi g hg
  | wait seconds =>
    cases h
    intro g hg
    obtain ⟨hpast, hvalue⟩ := hi g hg
    exact ⟨by dsimp only; omega, hvalue⟩

theorem store_inv {start : Int} {as : List StoreAction} {s : SessionStore}
    (h : (sessionStore hmac).exec ⟨start, []⟩ as = some s) : s.Inv hmac :=
  (sessionStore hmac).exec_invariant (fun _ _ _ hi hs => store_step hi hs)
    (by intro g hg; cases hg) h

/-- **What is accepted was issued**, not more than the maximal age ago. -/
theorem accepted_issued {s : SessionStore} {v : String} {sess : Session} (hi : s.Inv hmac)
    (hv : Unforged hmac s v) (h : read hmac s.now [(sessionCookie, v)] = .ok sess) :
    ∃ g ∈ s.grants, g.value = v ∧ g.issuedAt ≤ s.now ∧ s.now ≤ g.issuedAt + sessionMaxAge ∧
      sess = carried g.issuedAt g.session := by
  obtain ⟨body, hsplit, hbody⟩ := read_ok h
  obtain ⟨g, hg, rfl⟩ := hv body hsplit
  obtain ⟨hpast, hvalue⟩ := hi g hg
  rw [readBody_bodyOf] at hbody
  refine ⟨g, hg, ?_, hpast, ?_⟩
  · rw [hvalue, eq_of_splitDot hsplit]
    rfl
  · split at hbody
    · split at hbody
      · next hnow => exact ⟨hnow, (Except.ok.inj hbody).symm⟩
      · cases hbody
    · cases hbody

/-- **Session cookies are exactly what was issued.** -/
theorem session_cookie_exact (hmac : List UInt8 → List UInt8) :
    (∀ (t : Int) (sess : Session), IsInt64 (t + sessionMaxAge) → ∀ now,
      read hmac now [(sessionCookie, (issue hmac t sess).value)] =
        if now ≤ t + sessionMaxAge then .ok (carried t sess) else .error .expired) ∧
      ∀ (start : Int) (as : List StoreAction) (s : SessionStore),
        (sessionStore hmac).exec ⟨start, []⟩ as = some s →
        ∀ (v : String) (sess : Session), Unforged hmac s v →
        read hmac s.now [(sessionCookie, v)] = .ok sess →
        ∃ g ∈ s.grants, g.value = v ∧ g.issuedAt ≤ s.now ∧ s.now ≤ g.issuedAt + sessionMaxAge ∧
          sess = carried g.issuedAt g.session :=
  ⟨read_issue, fun _ _ _ hs _ _ hv h => accepted_issued (store_inv hs) hv h⟩

private def annAdmin : Session :=
  ⟨"ann", "ann@example.com", "Ann <A>", roleAdmin, some ["cn=admins"], 0⟩

/-- HMAC-SHA256 of the one body below, under `0123456789abcdef`. -/
private def annTag (_ : List UInt8) : List UInt8 :=
  [243, 36, 109, 21, 90, 222, 39, 86, 184, 167, 63, 183, 58, 140, 166, 206, 159, 201, 130, 82, 6,
    60, 243, 223, 144, 122, 207, 192, 225, 241, 73, 93]

private def annCookie : String :=
  "eyJpZCI6ImFubiIsImVtYWlsIjoiYW5uQGV4YW1wbGUuY29tIiwibmFtZSI6IkFubiBcdTAwM2NBXHUwMDNlIiwicm" ++
    "9sZSI6ImFkbWluIiwiZ3JvdXBzIjpbImNuPWFkbWlucyJdLCJleHAiOjE3MDAwMjg4MDB9.8yRtFVreJ1a4pz-3Ooy" ++
    "mzp_JglIGPPPfkHrPwOHxSV0"

theorem session_cookie_exact_ann :
    (issue annTag 1700000000 annAdmin).value = annCookie ∧
      read annTag 1700028800 [(sessionCookie, annCookie)] = .ok (carried 1700000000 annAdmin) ∧
      read annTag 1700028801 [(sessionCookie, annCookie)] = .error .expired ∧
      ∃ g : Grant, g.value = annCookie ∧ g.issuedAt ≤ 1700028800 ∧
        1700028800 ≤ g.issuedAt + sessionMaxAge := by
  have hvalue : (issue annTag 1700000000 annAdmin).value = annCookie := by decide +kernel
  obtain ⟨hread, haccept⟩ := session_cookie_exact annTag
  have hat := hread 1700000000 annAdmin (by decide) 1700028800
  have hlate := hread 1700000000 annAdmin (by decide) 1700028801
  rw [hvalue] at hat hlate
  refine ⟨hvalue, hat, hlate, ?_⟩
  have hrun : (sessionStore annTag).exec ⟨1700000000, []⟩ [.issue annAdmin, .wait 28800] =
      some ⟨1700028800, [⟨(issue annTag 1700000000 annAdmin).value, 1700000000, annAdmin⟩]⟩ := rfl
  have hunforged : Unforged annTag
      ⟨1700028800, [⟨(issue annTag 1700000000 annAdmin).value, 1700000000, annAdmin⟩]⟩
        annCookie := by
    intro body hbody
    refine ⟨_, List.mem_cons_self .., ?_⟩
    have hsplit : splitDot (issue annTag 1700000000 annAdmin).value =
        some (bodyOf 1700000000 annAdmin, sign annTag (bodyOf 1700000000 annAdmin)) :=
      splitDot_dot (dot_not_mem_body 1700000000 annAdmin)
    rw [← hvalue] at hbody
    exact (Prod.ext_iff.mp (Option.some.inj (hsplit.symm.trans hbody))).1
  obtain ⟨g, -, hg, hpast, hage, -⟩ := haccept _ _ _ hrun annCookie _ hunforged hat
  exact ⟨g, hg, hpast, hage⟩

end ReleaseRadar.Auth
