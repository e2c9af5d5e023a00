import ReleaseRadar.Domain
import ReleaseRadar.Lib.SearchFilter

/-!
# The role of a user

`backend/internal/ldap/ldap.go`. The directory is a parameter: how dialing and binding
end and what each search answers (`Directory`). What is relied on is that an answer
holds entries for which the filter sent is true (`Directory.Answers`), the filter being
the RFC 4515 reading of the text.

`resolve_ok` says what a resolved role rests on: the entry found (`Selected`) and its
groups (`Groups`). `parse_template` is why an email or a DN cannot do more than fill
its place in a filter.
-/

namespace ReleaseRadar.Ldap

open Lib Lib.SearchFilter

/-! ## Formatting -/

/-- What a verb prints. The verbs are plain: no flags, no width, and those a string
admits beside `%s` are not told from unknown ones. -/
def formatted (verb : Char) (arg : Option (List Char)) : List Char :=
  if verb = '%' then ['%']
  else
    match arg with
    | none => ['%', '!', verb] ++ "(MISSING)".toList
    | some arg =>
      if verb = 's' then arg
      else ['%', '!', verb] ++ "(string=".toList ++ arg ++ [')']

/-- An operand no verb has used. -/
def extra : Option (List Char) → List Char
  | none => []
  | some arg => "%!(EXTRA string=".toList ++ arg ++ [')']

/-- `fmt.Sprintf` with one string operand, `none` once it is used. -/
def sprintf : List Char → Option (List Char) → List Char
  | [], arg => extra arg
  | '%' :: verb :: format, arg =>
    formatted verb arg ++ sprintf format (if verb = '%' then arg else none)
  | c :: format, arg =>
    if c = '%' then "%!(NOVERB)".toList ++ extra arg
    else c :: sprintf format arg

theorem sprintf_cons {c : Char} (hc : c ≠ '%') (format : List Char) (arg : Option (List Char)) :
    sprintf (c :: format) arg = c :: sprintf format arg := by
  rw [sprintf.eq_3 arg c format fun _ _ he => (hc he).elim, if_neg hc]

/-- Text without a percent sign is copied. -/
theorem sprintf_append {text : List Char} (h : '%' ∉ text) (format : List Char)
    (arg : Option (List Char)) : sprintf (text ++ format) arg = text ++ sprintf format arg := by
  induction text with
  | nil => rfl
  | cons c text ih =>
    have hc : c ≠ '%' := fun he => h (he ▸ List.mem_cons_self ..)
    rw [List.cons_append, sprintf_cons hc, ih fun hm => h (List.mem_cons_of_mem _ hm),
      List.cons_append]

/-- A format with one `%s` puts the operand there. -/
theorem sprintf_template {pre post : List Char} (hpre : '%' ∉ pre) (hpost : '%' ∉ post)
    (arg : List Char) : sprintf (pre ++ '%' :: 's' :: post) (some arg) = pre ++ arg ++ post := by
  have hend : sprintf (post ++ []) none = post ++ [] := sprintf_append hpost [] none
  rw [List.append_nil] at hend
  rw [sprintf_append hpre, sprintf, if_neg (by decide), hend, List.append_assoc]
  rfl

/-! ## Escaping -/

/-- One replacement of `escape`. -/
def escapeChar (c : Char) : List Char :=
  if c = '\\' then ['\\', '5', 'c']
  else if c = '*' then ['\\', '2', 'a']
  else if c = '(' then ['\\', '2', '8']
  else if c = ')' then ['\\', '2', '9']
  else if c = '\x00' then ['\\', '0', '0']
  else [c]

def escape (s : String) : List Char := s.toList.flatMap escapeChar

/-- An escaped character is decoded to itself. -/
theorem decode_escapeChar (c : Char) (rest : List Char) :
    decode (escapeChar c ++ rest) = (decode rest).map (String.utf8EncodeChar c ++ ·) := by
  by_cases hspecial : isSpecial c
  · -- each special character has its own replacement
    have hc : c = '\x00' ∨ c = '(' ∨ c = ')' ∨ c = '*' ∨ c = '\\' := by
      simpa [isSpecial] using hspecial
    rcases hc with rfl | rfl | rfl | rfl | rfl <;> rfl
  · have hplain : escapeChar c = [c] := by
      have hne : ∀ d, isSpecial d → c ≠ d := fun d hd he => hspecial (he ▸ hd)
      simp only [escapeChar, if_neg (hne '\\' rfl), if_neg (hne '*' rfl), if_neg (hne '(' rfl),
        if_neg (hne ')' rfl), if_neg (hne '\x00' rfl)]
    rw [hplain]
    exact decode_plain (by simpa using hspecial) rest

/-- **An escaped string is the string, taken literally.** -/
theorem decode_escape (s : String) : decode (escape s) = some (encodeUtf8 s.toList) :=
  decode_encode decode_escapeChar s.toList

/-- A format with one `%s`, in the place of the value of one assertion. -/
def FilterFormat (format : String) (t : Test) (ctx : Context) : Prop :=
  ∃ pre post : List Char, format.toList = pre ++ '%' :: 's' :: post ∧ '%' ∉ pre ∧ '%' ∉ post ∧
    Template pre post t ctx

/-- The assertion that the attribute has the string as its value, taken literally. -/
def literally (t : Test) (s : String) : Assertion := .value t (encodeUtf8 s.toList)

/-- **A template's filter is not the user's to write.** Whatever string is formatted into
a template, the text reads as the template's filter with the string as the literal
value of the one assertion. -/
theorem parse_template {format : String} {t : Test} {ctx : Context} (h : FilterFormat format t ctx)
    (s : String) :
    parse (String.ofList (sprintf format.toList (some (escape s)))) =
      some (ctx.fill (.item (literally t s))) := by
  obtain ⟨pre, post, hformat, hpre, hpost, ht⟩ := h
  rw [hformat, sprintf_template hpre hpost]
  refine parse_of_reads ?_
  rw [String.toList_ofList]
  exact ht.reads (decode_escape s)

/-! ## The directory -/

/-- `config.LDAPConfig`, less the timeout and the TLS switch. -/
structure LDAPConfig where
  url : String
  bindDN : String
  bindPass : String
  baseDN : String
  userFilter : String
  groupAttr : String
  groupBaseDN : String
  groupFilter : String
  adminGroups : List String
  readGroups : List String

/-- `goldap.Entry`. -/
structure Entry where
  dn : String
  attributes : List (String × List String)
deriving DecidableEq, Repr

/-- `GetAttributeValues`: the name as spelt. -/
def Entry.getAttributeValues (e : Entry) (name : String) : List String :=
  match e.attributes.find? fun a => a.1 == name with
  | some a => a.2
  | none => []

/-- A whole-subtree search; a size limit of 0 is none. -/
structure SearchRequest where
  baseDN : String
  sizeLimit : Nat
  filter : String
  attributes : List String
deriving DecidableEq, Repr

/-- The directory during one call: how dialing and binding end, what each search answers,
and what was true of each entry when it did. -/
structure Directory where
  dial : LDAPConfig → Except String Unit
  bind : String → String → Except String Unit
  search : SearchRequest → Except String (List Entry)
  holds : SearchRequest → Entry → Assertion → Option Bool

/-- A search answers with entries its filter selects. -/
def Directory.Answers (dir : Directory) : Prop :=
  ∀ req f entries, parse req.filter = some f → dir.search req = .ok entries →
    ∀ e ∈ entries, evaluate (dir.holds req e) f = some true

/-! ## Resolving -/

section

variable (toLower : Char → Char) (cfg : LDAPConfig) (dir : Directory)

/-- `strings.ToLower`. -/
def lower (s : String) : String := s.map toLower

def classify (groups adminGroups readGroups : List String) : String :=
  let set := groups.map (lower toLower)
  if adminGroups.any fun ag => set.contains (lower toLower ag) then roleAdmin
  else if readGroups.any fun rg => set.contains (lower toLower rg) then roleReadOnly
  else roleReadOnly

def userRequest (email : String) : SearchRequest where
  baseDN := cfg.baseDN
  sizeLimit := 1
  filter := String.ofList (sprintf cfg.userFilter.toList (some (escape email)))
  attributes := "dn" :: (if cfg.groupAttr ≠ "" then [cfg.groupAttr] else [])

/-- The groups named by the entry itself. -/
def attributeGroups (e : Entry) : Slice String :=
  if cfg.groupAttr ≠ "" then some (e.getAttributeValues cfg.groupAttr) else none

def findUser (email : String) : Except String (String × Slice String) :=
  match dir.search (userRequest cfg email) with
  | .error err => .error ("ldap user search: " ++ err)
  | .ok [] => .ok ("", none)
  | .ok (e :: _) => .ok (e.dn, attributeGroups cfg e)

def groupRequest (userDN : String) : SearchRequest where
  baseDN := if cfg.groupBaseDN = "" then cfg.baseDN else cfg.groupBaseDN
  sizeLimit := 0
  filter := String.ofList (sprintf cfg.groupFilter.toList (some (escape userDN)))
  attributes := ["dn"]

def searchGroups (userDN : String) : Except String (List String) :=
  match dir.search (groupRequest cfg userDN) with
  | .error err => .error ("ldap group search: " ++ err)
  | .ok entries => .ok (entries.map Entry.dn)

/-- `append(xs, ys...)`. -/
def appendAll (xs : Slice String) (ys : List String) : Slice String :=
  if ys = [] then xs else some (xs.items ++ ys)

/-- The groups of the user found. -/
def memberships (userDN : String) (attrGroups : Slice String) : Except String (Slice String) :=
  if cfg.groupFilter ≠ "" then (searchGroups cfg dir userDN).map (appendAll attrGroups)
  else .ok attrGroups

/-- `Resolve` on an open connection. -/
def lookup (email : String) : Except String (String × Slice String) :=
  match findUser cfg dir email with
  | .error err => .error err
  | .ok (userDN, attrGroups) =>
    if userDN = "" then .ok (roleReadOnly, none)
    else
      match memberships cfg dir userDN attrGroups with
      | .error err => .error err
      | .ok groups =>
        .ok (classify toLower groups.items cfg.adminGroups cfg.readGroups, groups)

def resolve (email : String) : Except String (String × Slice String) :=
  if cfg.url = "" then .ok (roleReadOnly, none)
  else
    match dir.dial cfg with
    | .error err => .error ("ldap dial: " ++ err)
    | .ok () =>
      if cfg.bindDN ≠ "" then
        match dir.bind cfg.bindDN cfg.bindPass with
        | .error err => .error ("ldap bind: " ++ err)
        | .ok () => lookup toLower cfg dir email
      else lookup toLower cfg dir email

/-! ## What a role rests on -/

/-- The connection is open and bound. -/
structure Connected : Prop where
  configured : cfg.url ≠ ""
  dialled : dir.dial cfg = .ok ()
  bound : cfg.bindDN ≠ "" → dir.bind cfg.bindDN cfg.bindPass = .ok ()

/-- The entry the directory answers the email with. -/
structure Selected (email : String) (e : Entry) : Prop extends Connected cfg dir where
  found : ∃ more, dir.search (userRequest cfg email) = .ok (e :: more)
  named : e.dn ≠ ""

/-- The groups of an entry: those it names, and those that name it. -/
inductive HasGroup (e : Entry) : String → Prop where
  | attr {g : String} (h : cfg.groupAttr ≠ "") (hg : g ∈ e.getAttributeValues cfg.groupAttr) :
      HasGroup e g
  | search {found : List Entry} {group : Entry} (h : cfg.groupFilter ≠ "")
      (hs : dir.search (groupRequest cfg e.dn) = .ok found) (hg : group ∈ found) :
      HasGroup e group.dn

/-- Some group of the entry is an admin group. -/
def InAdminGroup (e : Entry) : Prop :=
  ∃ g, HasGroup cfg dir e g ∧ ∃ ag ∈ cfg.adminGroups, lower toLower g = lower toLower ag

end

variable {toLower : Char → Char} {cfg : LDAPConfig} {dir : Directory}

/-- An admin is who is in an admin group, case aside. -/
theorem classify_admin_iff {groups adminGroups readGroups : List String} :
    classify toLower groups adminGroups readGroups = roleAdmin ↔
      ∃ g ∈ groups, ∃ ag ∈ adminGroups, lower toLower g = lower toLower ag := by
  have hany : (adminGroups.any fun ag => (groups.map (lower toLower)).contains (lower toLower ag)) =
      true ↔ ∃ g ∈ groups, ∃ ag ∈ adminGroups, lower toLower g = lower toLower ag := by
    simp only [List.any_eq_true, List.contains_iff_mem, List.mem_map]
    constructor
    · rintro ⟨ag, hag, g, hg, he⟩
      exact ⟨g, hg, ag, hag, he⟩
    · rintro ⟨g, hg, ag, hag, he⟩
      exact ⟨ag, hag, g, hg, he⟩
  rw [← hany]
  unfold classify
  dsimp only
  split
  · next h => exact iff_of_true rfl h
  · next h =>
    refine iff_of_false ?_ h
    split <;> decide

/-- There is no third role. -/
theorem classify_role (groups adminGroups readGroups : List String) :
    classify toLower groups adminGroups readGroups = roleAdmin ∨
      classify toLower groups adminGroups readGroups = roleReadOnly := by
  unfold classify
  dsimp only
  split
  · exact .inl rfl
  · right
    split <;> rfl

theorem mem_appendAll {xs : Slice String} {ys : List String} {g : String} :
    g ∈ (appendAll xs ys).items ↔ g ∈ xs.items ∨ g ∈ ys := by
  unfold appendAll
  split
  · next h => simp [h]
  · simp

/-- The groups of the attribute, if one is configured. -/
theorem mem_attributeGroups {e : Entry} {g : String} :
    g ∈ (attributeGroups cfg e).items ↔
      cfg.groupAttr ≠ "" ∧ g ∈ e.getAttributeValues cfg.groupAttr := by
  unfold attributeGroups
  split
  · next h => simp [h]
  · next h => simp [h, Slice.items]

/-- All groups of an entry, searched ones and those of its attribute. -/
theorem mem_memberships {e : Entry} {groups : Slice String} {g : String}
    (h : memberships cfg dir e.dn (attributeGroups cfg e) = .ok groups) :
    g ∈ groups.items ↔ HasGroup cfg dir e g := by
  have hattr : HasGroup cfg dir e g ↔
    (cfg.groupAttr ≠ "" ∧ g ∈ e.getAttributeValues cfg.groupAttr) ∨
      cfg.groupFilter ≠ "" ∧ ∃ found, dir.search (groupRequest cfg e.dn) = .ok found ∧
        g ∈ found.map Entry.dn := by
    constructor
    · intro hg
      cases hg with
      | attr h hg => exact .inl ⟨h, hg⟩
      | search h hs hg => exact .inr ⟨h, _, hs, List.mem_map_of_mem hg⟩
    · rintro (⟨h, hg⟩ | ⟨h, found, hs, hg⟩)
      · exact .attr h hg
      · obtain ⟨group, hgroup, rfl⟩ := List.mem_map.mp hg
        exact .search h hs hgroup
  rw [hattr, ← mem_attributeGroups]
  unfold memberships at h
  split at h
  · next hf =>
    unfold searchGroups at h
    cases hs : dir.search (groupRequest cfg e.dn) with
    | error err =>
      rw [hs] at h
      cases h
    | ok found =>
      rw [hs] at h
      obtain rfl : appendAll (attributeGroups cfg e) (found.map Entry.dn) = groups := by
        simpa [Except.map] using h
      simp [mem_appendAll, hf]
  · next hf =>
    obtain rfl : attributeGroups cfg e = groups := by simpa using h
    simp [hf]

/-- Without a directory everybody is a reader. -/
theorem resolve_connected {email : String} {r : String × Slice String}
    (h : resolve toLower cfg dir email = .ok r) :
    (cfg.url = "" ∧ r = (roleReadOnly, none)) ∨
      (Connected cfg dir ∧ lookup toLower cfg dir email = .ok r) := by
  unfold resolve at h
  split at h
  · next hurl => exact .inl ⟨hurl, (Except.ok.inj h).symm⟩
  · next hurl =>
    right
    split at h
    · cases h
    · next hdial =>
      split at h
      · split at h
        · cases h
        · next hbind => exact ⟨⟨hurl, hdial, fun _ => hbind⟩, h⟩
      · next hdn => exact ⟨⟨hurl, hdial, fun hne => absurd hne hdn⟩, h⟩

/-- What a call that did not fail has done on its connection. -/
theorem lookup_ok {email : String} {role : String} {groups : Slice String}
    (hconn : Connected cfg dir) (h : lookup toLower cfg dir email = .ok (role, groups)) :
    (role = roleReadOnly ∧ ∀ e, ¬Selected cfg dir email e) ∨
      ∃ e, Selected cfg dir email e ∧
        memberships cfg dir e.dn (attributeGroups cfg e) = .ok groups ∧
        role = classify toLower groups.items cfg.adminGroups cfg.readGroups := by
  unfold lookup findUser at h
  cases hs : dir.search (userRequest cfg email) with
  | error err =>
    rw [hs] at h
    cases h
  | ok entries =>
    -- an entry selected is the first of the answer
    have hfirst : ∀ e, Selected cfg dir email e → entries.head? = some e ∧ e.dn ≠ "" := by
      intro e he
      obtain ⟨more, hmore⟩ := he.found
      rw [hs] at hmore
      cases hmore
      exact ⟨rfl, he.named⟩
    rw [hs] at h
    cases entries with
    | nil =>
      left
      refine ⟨(Prod.ext_iff.mp (Except.ok.inj h)).1.symm, ?_⟩
      intro e he
      cases (hfirst e he).1
    | cons e more =>
      dsimp only at h
      split at h
      · next hdn =>
        left
        refine ⟨(Prod.ext_iff.mp (Except.ok.inj h)).1.symm, ?_⟩
        intro e' he
        obtain ⟨hhead, hnamed⟩ := hfirst e' he
        cases hhead
        exact hnamed hdn
      · next hdn =>
        right
        cases hm : memberships cfg dir e.dn (attributeGroups cfg e) with
        | error err =>
          rw [hm] at h
          cases h
        | ok gs =>
          rw [hm] at h
          obtain ⟨rfl, rfl⟩ := Prod.ext_iff.mp (Except.ok.inj h)
          exact ⟨e, ⟨hconn, ⟨more, hs⟩, hdn⟩, hm, rfl⟩

/-- What a call that did not fail has done. -/
theorem resolve_ok {email : String} {role : String} {groups : Slice String}
    (h : resolve toLower cfg dir email = .ok (role, groups)) :
    (role = roleReadOnly ∧ ∀ e, ¬Selected cfg dir email e) ∨
      ∃ e, Selected cfg dir email e ∧
        memberships cfg dir e.dn (attributeGroups cfg e) = .ok groups ∧
        role = classify toLower groups.items cfg.adminGroups cfg.readGroups := by
  rcases resolve_connected h with ⟨hurl, hr⟩ | ⟨hconn, h⟩
  · exact .inl ⟨(Prod.ext_iff.mp hr).1, fun e he => he.configured hurl⟩
  · exact lookup_ok hconn h

/-- The call does not fail once the entry is selected and its groups could be read. -/
theorem resolve_of_selected {email : String} {e : Entry} {groups : Slice String}
    (h : Selected cfg dir email e)
    (hm : memberships cfg dir e.dn (attributeGroups cfg e) = .ok groups) :
    resolve toLower cfg dir email =
      .ok (classify toLower groups.items cfg.adminGroups cfg.readGroups, groups) := by
  obtain ⟨more, hs⟩ := h.found
  have hlookup : lookup toLower cfg dir email =
      .ok (classify toLower groups.items cfg.adminGroups cfg.readGroups, groups) := by
    unfold lookup findUser
    rw [hs]
    dsimp only
    rw [if_neg h.named, hm]
  unfold resolve
  rw [if_neg h.configured, h.dialled]
  dsimp only
  split
  · next hdn =>
    rw [h.bound hdn]
    exact hlookup
  · exact hlookup

/-- The entry selected is one. -/
theorem Selected.unique {email : String} {e e' : Entry} (h : Selected cfg dir email e)
    (h' : Selected cfg dir email e') : e = e' := by
  obtain ⟨more, hs⟩ := h.found
  obtain ⟨more', hs'⟩ := h'.found
  rw [hs] at hs'
  cases hs'
  rfl

/-- **The admin role, when the directory could be asked.** -/
theorem resolve_admin_iff {email : String} {role : String} {groups : Slice String}
    (h : resolve toLower cfg dir email = .ok (role, groups)) :
    role = roleAdmin ↔ ∃ e, Selected cfg dir email e ∧ InAdminGroup toLower cfg dir e := by
  obtain ⟨rfl, hnone⟩ | ⟨e, hsel, hm, rfl⟩ := resolve_ok h
  · exact iff_of_false (by decide) fun ⟨e, he, _⟩ => hnone e he
  · rw [classify_admin_iff]
    constructor
    · rintro ⟨g, hg, hag⟩
      exact ⟨e, hsel, g, (mem_memberships hm).mp hg, hag⟩
    · rintro ⟨e', hsel', g, hg, hag⟩
      obtain rfl := hsel.unique hsel'
      exact ⟨g, (mem_memberships hm).mpr hg, hag⟩

/-- Whoever is resolved is an admin or a reader. -/
theorem resolve_role {email : String} {role : String} {groups : Slice String}
    (h : resolve toLower cfg dir email = .ok (role, groups)) :
    role = roleAdmin ∨ role = roleReadOnly := by
  obtain ⟨rfl, -⟩ | ⟨e, -, -, rfl⟩ := resolve_ok h
  · exact .inr rfl
  · exact classify_role _ _ _

/-- The entry selected satisfies the filter of the template, with the email as the
literal value of the assertion. -/
theorem Selected.satisfies {email : String} {e : Entry} {t : Test} {ctx : Context}
    (h : Selected cfg dir email e) (hdir : dir.Answers) (hf : FilterFormat cfg.userFilter t ctx) :
    evaluate (dir.holds (userRequest cfg email) e) (ctx.fill (.item (literally t email))) =
      some true := by
  obtain ⟨more, hs⟩ := h.found
  exact hdir (userRequest cfg email) _ _ (parse_template hf email) hs e (List.mem_cons_self ..)

/-! ## A directory that compares octets -/

def Entry.holds (e : Entry) : Assertion → Option Bool
  | .value (.simple attr .equality) octets =>
    some ((e.getAttributeValues attr).any fun v => encodeUtf8 v.toList == octets)
  | .present attr => some (!(e.getAttributeValues attr).isEmpty)
  | _ => none

/-- The directory that holds the entries and answers every search over them. -/
def served (entries : List Entry) : Directory where
  dial _ := .ok ()
  bind _ _ := .ok ()
  search req :=
    match parse req.filter with
    | none => .error "filter"
    | some f => .ok (entries.filter fun e => evaluate e.holds f == some true)
  holds _ e := e.holds

theorem served_answers (entries : List Entry) : (served entries).Answers := by
  intro req f found hf hs e he
  simp only [served, hf] at hs
  cases hs
  show evaluate e.holds f = some true
  simpa using (List.mem_filter.mp he).2

end ReleaseRadar.Ldap
