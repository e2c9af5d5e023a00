import Mathlib.Data.List.TakeDrop
import ReleaseRadar.Lib.Utf8

/-!
# Content lines

The iCalendar object of RFC 5545, chapter 3, as a reader sees it: octets are
unfolded (`unfolded`), cut into lines at each CRLF (`lines`), decoded as UTF-8 and
read by the content-line grammar (`contentLine`: a name, parameters, a value
without control characters); the lines nest into components by BEGIN and END
(`assemble`). `decodeText` reads a value of type TEXT.

For a writer the rules are: `unfolded_folded` (a folded line unfolds to itself when
no chunk holds a CR), `lines_cons`, `contentLine_property` and the `assemble_`
lemmas. For what a reader can have got: `contentLine_value` and `has_assemble`
(every property is one of the lines read).
-/

namespace ReleaseRadar.Lib.ContentLine

/-! ## Octets -/

def cr : UInt8 := 13
def lf : UInt8 := 10
def space : UInt8 := 32
def htab : UInt8 := 9

/-- Unfolding: each CRLF before a white space goes, with the white space. -/
def unfolded : List UInt8 → List UInt8
  | 13 :: 10 :: 32 :: bs => unfolded bs
  | 13 :: 10 :: 9 :: bs => unfolded bs
  | b :: bs => b :: unfolded bs
  | [] => []

/-- The lines of a stream, each ended by CRLF. -/
def lines : List UInt8 → Option (List (List UInt8))
  | [] => some []
  | 13 :: 10 :: bs => (lines bs).map ([] :: ·)
  | b :: bs =>
    match lines bs with
    | some (l :: ls) => some ((b :: l) :: ls)
    | _ => none

/-- A line folded into the chunks. -/
def folded : List (List UInt8) → List UInt8
  | [] => []
  | [chunk] => chunk ++ [cr, lf]
  | chunk :: chunks => chunk ++ [cr, lf, space] ++ folded chunks

/-- What follows is not the rest of a folded line. -/
def Begins (bs : List UInt8) : Prop := ∀ b ∈ bs.head?, b ≠ space ∧ b ≠ htab

theorem unfolded_cons {b : UInt8} {bs : List UInt8} (h : b ≠ cr) :
    unfolded (b :: bs) = b :: unfolded bs :=
  unfolded.eq_3 b bs (fun _ hb _ => h hb) (fun _ hb _ => h hb)

/-- A line without a carriage return is as it stands. -/
theorem unfolded_append {bs rest : List UInt8} (h : cr ∉ bs) :
    unfolded (bs ++ rest) = bs ++ unfolded rest := by
  induction bs with
  | nil => rfl
  | cons b bs ih =>
    rw [List.cons_append, unfolded_cons (fun he => h (he ▸ List.mem_cons_self ..)),
      ih fun hm => h (List.mem_cons_of_mem _ hm), List.cons_append]

theorem unfolded_crlf {rest : List UInt8} (h : Begins rest) :
    unfolded ([cr, lf] ++ rest) = [cr, lf] ++ unfolded rest := by
  show unfolded (cr :: lf :: rest) = cr :: lf :: unfolded rest
  rw [unfolded.eq_3, unfolded_cons (by decide)]
  · intro bs _ he
    obtain rfl := (List.cons.inj he).2
    exact (h 32 rfl).1 rfl
  · intro bs _ he
    obtain rfl := (List.cons.inj he).2
    exact (h 9 rfl).2 rfl

/-- **A folded line unfolds to itself.** -/
theorem unfolded_folded {chunks : List (List UInt8)} {rest : List UInt8} (hne : chunks ≠ [])
    (hcr : ∀ chunk ∈ chunks, cr ∉ chunk) (hrest : Begins rest) :
    unfolded (folded chunks ++ rest) = chunks.flatten ++ [cr, lf] ++ unfolded rest := by
  induction chunks with
  | nil => exact absurd rfl hne
  | cons chunk chunks ih =>
    have hchunk : cr ∉ chunk := hcr chunk (List.mem_cons_self ..)
    cases chunks with
    | nil =>
      rw [folded, List.append_assoc, unfolded_append hchunk, unfolded_crlf hrest]
      simp
    | cons next chunks =>
      have ih := ih (by simp) fun c hc => hcr c (List.mem_cons_of_mem _ hc)
      have hmore : unfolded ([cr, lf, space] ++ (folded (next :: chunks) ++ rest)) =
          unfolded (folded (next :: chunks) ++ rest) := rfl
      rw [folded, List.append_assoc, List.append_assoc, unfolded_append hchunk, hmore, ih]
      · simp
      · simp

/-- A line ends at its CRLF. -/
theorem lines_cons {l rest : List UInt8} (h : cr ∉ l) :
    lines (l ++ [cr, lf] ++ rest) = (lines rest).map (l :: ·) := by
  induction l with
  | nil => rfl
  | cons b l ih =>
    have hb : b ≠ 13 := fun he => h (he ▸ List.mem_cons_self ..)
    have ih := ih fun hm => h (List.mem_cons_of_mem _ hm)
    rw [List.cons_append, List.cons_append, lines.eq_3 b _ fun _ he _ => hb he, ih]
    cases lines rest <;> rfl

/-- UTF-8 has the octet of the carriage return for it only. -/
theorem cr_not_mem_encodeUtf8 {cs : List Char} (h : '\r' ∉ cs) : cr ∉ encodeUtf8 cs := by
  intro hm
  obtain ⟨c, hc, hb⟩ := List.mem_flatMap.mp hm
  have hcr : c = '\r' := Char.ext (UInt32.toNat.inj (toNat_of_mem_utf8EncodeChar (by decide) hb))
  exact h (hcr ▸ hc)

/-! ## The grammar of a line -/

def dquote : Char := '\x22'

/-- CONTROL: all the controls except HTAB. -/
def isControl (c : Char) : Bool := (decide (c.toNat < 0x20) && c != '\t') || c.toNat == 0x7f

/-- VALUE-CHAR. -/
def isValueChar (c : Char) : Bool := !isControl c

/-- A character of `iana-token` or `x-name`. -/
def isNameChar (c : Char) : Bool := c.isAlphanum || c == '-'

/-- SAFE-CHAR. -/
def isSafeChar (c : Char) : Bool :=
  isValueChar c && c != dquote && c != ';' && c != ':' && c != ','

/-- QSAFE-CHAR. -/
def isQSafeChar (c : Char) : Bool := isValueChar c && c != dquote

/-- A property: its name, which is not case-sensitive, its parameters and its value. -/
structure Property where
  name : String
  params : List (String × List String)
  value : String
deriving DecidableEq, Repr

def nameOf (cs : List Char) : String := String.ofList (cs.map Char.toUpper)

/-- `param-value`: text, or a quoted string. -/
def paramValue : List Char → Option (String × List Char)
  | [] => some ("", [])
  | c :: cs =>
    if c = dquote then
      match cs.span isQSafeChar with
      | (v, c' :: rest) => if c' = dquote then some (String.ofList v, rest) else none
      | (_, []) => none
    else
      let (v, rest) := (c :: cs).span isSafeChar
      some (String.ofList v, rest)

/-- `param-value *("," param-value)`. -/
def paramValues : Nat → List Char → Option (List String × List Char)
  | 0, _ => none
  | fuel + 1, cs => do
    let (v, rest) ← paramValue cs
    match rest with
    | ',' :: rest =>
      let (vs, rest) ← paramValues fuel rest
      pure (v :: vs, rest)
    | _ => pure ([v], rest)

/-- `*(";" param) ":"`. Each parameter takes a character at least, so the length of the
line is fuel enough. -/
def params : Nat → List Char → Option (List (String × List String) × List Char)
  | 0, _ => none
  | fuel + 1, cs =>
    match cs with
    | ':' :: value => some ([], value)
    | ';' :: cs =>
      match cs.span isNameChar with
      | (name, '=' :: rest) =>
        if name = [] then none
        else do
          let (vs, rest) ← paramValues (rest.length + 1) rest
          let (ps, value) ← params fuel rest
          pure ((nameOf name, vs) :: ps, value)
      | _ => none
    | _ => none

/-- `contentline = name *(";" param ) ":" value`, without its CRLF. -/
def contentLine (cs : List Char) : Option Property :=
  match cs.span isNameChar with
  | (name, rest) =>
    if name = [] then none
    else
      match params (rest.length + 1) rest with
      | some (ps, value) =>
        if value.all isValueChar then some ⟨nameOf name, ps, String.ofList value⟩ else none
      | none => none

/-- A name, a colon and a value are a content line. -/
theorem contentLine_property {name : List Char} {value : String} (hne : name ≠ [])
    (hname : ∀ c ∈ name, isNameChar c) (hvalue : ∀ c ∈ value.toList, isValueChar c) :
    contentLine (name ++ ':' :: value.toList) = some ⟨nameOf name, [], value⟩ := by
  have hspan : (name ++ ':' :: value.toList).span isNameChar = (name, ':' :: value.toList) := by
    rw [List.span_eq_takeWhile_dropWhile, List.takeWhile_append_of_pos hname,
      List.dropWhile_append_of_pos hname]
    simp [isNameChar]
  unfold contentLine
  rw [hspan]
  simp only [if_neg hne, params]
  rw [if_pos (List.all_eq_true.mpr hvalue), String.ofList_toList]

/-- A value read by the grammar has no control characters. -/
theorem contentLine_value {cs : List Char} {p : Property} (h : contentLine cs = some p) :
    ∀ c ∈ p.value.toList, isValueChar c := by
  unfold contentLine at h
  split at h
  split at h
  · cases h
  · split at h
    · split at h
      · next hall =>
        obtain rfl := Option.some.inj h
        simpa using hall
      · cases h
    · cases h

/-! ## TEXT -/

/-- A value of type TEXT, decoded: `\\`, `\;`, `\,`, `\n` and `\N` are escapes, and the
characters escaped so do not stand alone. -/
def decodeText : List Char → Option (List Char)
  | [] => some []
  | '\\' :: 'n' :: cs => (decodeText cs).map ('\n' :: ·)
  | '\\' :: 'N' :: cs => (decodeText cs).map ('\n' :: ·)
  | '\\' :: '\\' :: cs => (decodeText cs).map ('\\' :: ·)
  | '\\' :: ',' :: cs => (decodeText cs).map (',' :: ·)
  | '\\' :: ';' :: cs => (decodeText cs).map (';' :: ·)
  | '\\' :: _ => none
  | ',' :: _ => none
  | ';' :: _ => none
  | c :: cs => (decodeText cs).map (c :: ·)

/-- A decoded text has the value's characters, and line breaks. -/
theorem mem_decodeText {cs ds : List Char} (h : decodeText cs = some ds) :
    ∀ c ∈ ds, c ∈ cs ∨ c = '\n' := by
  fun_induction decodeText cs generalizing ds with
  | case1 =>
    obtain rfl := Option.some.inj h
    simp
  | case2 cs ih | case3 cs ih | case4 cs ih | case5 cs ih | case6 cs ih =>
    obtain ⟨es, he, rfl⟩ := Option.map_eq_some_iff.mp h
    intro c hc
    rcases List.mem_cons.mp hc with rfl | hc
    · simp
    · exact (ih he c hc).imp_left fun hm => by simp [hm]
  | case7 | case8 | case9 => cases h
  | case10 c cs _ _ _ _ _ _ _ _ ih =>
    obtain ⟨es, he, rfl⟩ := Option.map_eq_some_iff.mp h
    intro d hd
    rcases List.mem_cons.mp hd with rfl | hd
    · exact Or.inl (List.mem_cons_self ..)
    · exact (ih he d hd).imp_left (List.mem_cons_of_mem _)

/-! ## Components -/

/-- What a component contains: properties and further components, in order. -/
inductive Item
  | property (p : Property)
  | component (name : String) (items : List Item)

/-- The nesting of BEGIN and END: `enclosing` are the components that are open, with what
came before them, `items` the contents of the innermost so far, latest first. -/
def assemble : List (String × List Item) → List Item → List Property → Option (List Item)
  | [], items, [] => some items.reverse
  | _ :: _, _, [] => none
  | enclosing, items, p :: ps =>
    if p.name = "BEGIN" then assemble ((p.value, items) :: enclosing) [] ps
    else if p.name = "END" then
      match enclosing with
      | [] => none
      | (name, before) :: enclosing =>
        if p.value = name then assemble enclosing (.component name items.reverse :: before) ps
        else none
    else assemble enclosing (.property p :: items) ps

/-- The properties of a stream's lines. -/
def properties : List (List UInt8) → Option (List Property)
  | [] => some []
  | l :: ls =>
    match (decodeUtf8 l).bind contentLine, properties ls with
    | some p, some ps => some (p :: ps)
    | _, _ => none

/-- The items of an iCalendar stream. -/
def parse (octets : List UInt8) : Option (List Item) :=
  match lines (unfolded octets) with
  | none => none
  | some ls =>
    match properties ls with
    | none => none
    | some ps => assemble [] [] ps

/-- Lines are read one by one. -/
theorem properties_cons {l : List UInt8} {ls : List (List UInt8)} {p : Property}
    {ps : List Property} (hl : (decodeUtf8 l).bind contentLine = some p)
    (hls : properties ls = some ps) : properties (l :: ls) = some (p :: ps) := by
  simp only [properties, hl, hls]

theorem mem_properties {ls : List (List UInt8)} {ps : List Property}
    (h : properties ls = some ps) {p : Property} (hp : p ∈ ps) :
    ∃ l, (decodeUtf8 l).bind contentLine = some p := by
  induction ls generalizing ps with
  | nil =>
    obtain rfl := Option.some.inj h
    cases hp
  | cons l ls ih =>
    simp only [properties] at h
    split at h
    · next q qs hq hqs =>
      obtain rfl := Option.some.inj h
      rcases List.mem_cons.mp hp with rfl | hp
      · exact ⟨l, hq⟩
      · exact ih hqs hp
    · cases h

theorem assemble_begin {enclosing : List (String × List Item)} {items : List Item} {name : String}
    {ps : List Property} :
    assemble enclosing items (⟨"BEGIN", [], name⟩ :: ps) =
      assemble ((name, items) :: enclosing) [] ps := by
  cases enclosing <;> simp [assemble]

theorem assemble_end {enclosing : List (String × List Item)} {before items : List Item}
    {name : String} {ps : List Property} :
    assemble ((name, before) :: enclosing) items (⟨"END", [], name⟩ :: ps) =
      assemble enclosing (.component name items.reverse :: before) ps := by
  simp [assemble]

/-- Properties go to the component they stand in. -/
theorem assemble_properties {enclosing : List (String × List Item)} {rest : List Property}
    (ps : List Property) (h : ∀ p ∈ ps, p.name ≠ "BEGIN" ∧ p.name ≠ "END") (items : List Item) :
    assemble enclosing items (ps ++ rest) =
      assemble enclosing ((ps.map .property).reverse ++ items) rest := by
  induction ps generalizing items with
  | nil => rfl
  | cons p ps ih =>
    obtain ⟨hbegin, hend⟩ := h p (List.mem_cons_self ..)
    have hstep : assemble enclosing items (p :: (ps ++ rest)) =
        assemble enclosing (.property p :: items) (ps ++ rest) := by
      cases enclosing <;> simp [assemble, hbegin, hend]
    rw [List.cons_append, hstep, ih fun q hq => h q (List.mem_cons_of_mem _ hq)]
    simp

/-- A component of properties only. -/
theorem assemble_component {enclosing : List (String × List Item)} {rest : List Property}
    (name : String) (ps : List Property) (h : ∀ p ∈ ps, p.name ≠ "BEGIN" ∧ p.name ≠ "END")
    (items : List Item) :
    assemble enclosing items (⟨"BEGIN", [], name⟩ :: (ps ++ ⟨"END", [], name⟩ :: rest)) =
      assemble enclosing (.component name (ps.map .property) :: items) rest := by
  rw [assemble_begin, assemble_properties ps h, assemble_end]
  simp

/-- The property is somewhere in the item. -/
inductive Has (p : Property) : Item → Prop
  | here : Has p (.property p)
  | inside {name : String} {items : List Item} {it : Item} (hit : it ∈ items) (h : Has p it) :
      Has p (.component name items)

/-- **Every property is one of the lines read.** -/
theorem has_assemble {p : Property} {ps : List Property} {enclosing : List (String × List Item)}
    {items result : List Item} (h : assemble enclosing items ps = some result) {it : Item}
    (hit : it ∈ result) (hp : Has p it) :
    p ∈ ps ∨ (∃ x ∈ items, Has p x) ∨ ∃ e ∈ enclosing, ∃ x ∈ e.2, Has p x := by
  induction ps generalizing enclosing items with
  | nil =>
    cases enclosing with
    | nil =>
      obtain rfl := Option.some.inj h
      exact Or.inr (Or.inl ⟨it, List.mem_reverse.mp hit, hp⟩)
    | cons e enclosing => cases h
  | cons q ps ih =>
    by_cases hbegin : q.name = "BEGIN"
    · have h' : assemble ((q.value, items) :: enclosing) [] ps = some result := by
        cases enclosing <;> simpa [assemble, hbegin] using h
      rcases ih h' with hm | ⟨x, hx, -⟩ | ⟨e, he, x, hx, hhas⟩
      · exact Or.inl (List.mem_cons_of_mem _ hm)
      · cases hx
      · rcases List.mem_cons.mp he with rfl | he
        · exact Or.inr (Or.inl ⟨x, hx, hhas⟩)
        · exact Or.inr (Or.inr ⟨e, he, x, hx, hhas⟩)
    · by_cases hend : q.name = "END"
      · cases enclosing with
        | nil => simp [assemble, hend] at h
        | cons e enclosing =>
          obtain ⟨name, before⟩ := e
          have h' : q.value = name ∧
              assemble enclosing (.component name items.reverse :: before) ps = some result := by
            simpa [assemble, hbegin, hend] using h
          rcases ih h'.2 with hm | ⟨x, hx, hhas⟩ | ⟨e, he, x, hx, hhas⟩
          · exact Or.inl (List.mem_cons_of_mem _ hm)
          · rcases List.mem_cons.mp hx with rfl | hx
            · cases hhas with
              | inside hy hhas => exact Or.inr (Or.inl ⟨_, List.mem_reverse.mp hy, hhas⟩)
            · exact Or.inr (Or.inr ⟨_, List.mem_cons_self .., x, hx, hhas⟩)
          · exact Or.inr (Or.inr ⟨e, List.mem_cons_of_mem _ he, x, hx, hhas⟩)
      · have h' : assemble enclosing (.property q :: items) ps = some result := by
          cases enclosing <;> simpa [assemble, hbegin, hend] using h
        rcases ih h' with hm | ⟨x, hx, hhas⟩ | hrest
        · exact Or.inl (List.mem_cons_of_mem _ hm)
        · rcases List.mem_cons.mp hx with rfl | hx
          · cases hhas with
            | here => exact Or.inl (List.mem_cons_self ..)
          · exact Or.inr (Or.inl ⟨x, hx, hhas⟩)
        · exact Or.inr (Or.inr hrest)

/-- The value of the first property of that name in a component. -/
def Item.value (name : String) : Item → Option String
  | .property _ => none
  | .component _ items => items.findSome? fun it =>
      match it with
      | .property p => if p.name = name then some p.value else none
      | .component _ _ => none

theorem Item.exists_of_value {name v : String} {it : Item} (h : it.value name = some v) :
    ∃ p, Has p it ∧ p.value = v := by
  cases it with
  | property p => cases h
  | component n items =>
    obtain ⟨x, hx, hv⟩ := List.exists_of_findSome?_eq_some h
    cases x with
    | component n' items' => cases hv
    | property p =>
      dsimp only at hv
      split at hv
      · exact ⟨p, .inside hx .here, Option.some.inj hv⟩
      · cases hv

/-- No value of a parsed stream has a control character. -/
theorem parse_value {octets : List UInt8} {result : List Item} (h : parse octets = some result)
    {it : Item} (hit : it ∈ result) {p : Property} (hp : Has p it) :
    ∀ c ∈ p.value.toList, isValueChar c := by
  unfold parse at h
  split at h
  · cases h
  · split at h
    · cases h
    · next ps hps =>
      rcases has_assemble h hit hp with hm | ⟨x, hx, -⟩ | ⟨e, he, -⟩
      · obtain ⟨l, hl⟩ := mem_properties hps hm
        obtain ⟨cs, -, hcs⟩ := Option.bind_eq_some_iff.mp hl
        exact contentLine_value hcs
      · cases hx
      · cases he

end ReleaseRadar.Lib.ContentLine
