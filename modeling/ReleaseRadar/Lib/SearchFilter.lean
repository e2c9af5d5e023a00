import ReleaseRadar.Lib.Hex
import ReleaseRadar.Lib.Utf8

/-!
# Search filters

The string form of an LDAP search filter (RFC 4515) and what it selects
(RFC 4511, 4.5.1.7). `parse` reads the text one character at a time over a stack of
the open lists, `evaluate` is the three-valued reading of a filter, given what the
server says of each assertion.

A writer that assembles a filter from parts uses `Reads`: the text reads as the
filter wherever a filter may stand. `Template` is a text with a gap where the value of
one assertion goes. The rule is `Template.reads`: whatever well-formed value is put in
the gap, the text reads as the same filter, with the value that was encoded. What an
encoder has to do for that is `decode_encode`.
-/

namespace ReleaseRadar.Lib.SearchFilter

/-! ## Filters -/

/-- The relation a simple item asserts between an attribute and a value. -/
inductive Relation where
  | equality
  | approx
  | greaterOrEqual
  | lessOrEqual
deriving DecidableEq, Repr

/-- What stands left of the `=` of an item. -/
inductive Test where
  | simple (attr : String) (relation : Relation)
  | extensible (attr : Option String) (dnAttrs : Bool) (rule : Option String)
deriving DecidableEq, Repr

/-- A filter without connectives. -/
inductive Assertion where
  | value (test : Test) (octets : List UInt8)
  | present (attr : String)
  | substrings (attr : String) (pieces : List (List UInt8))
deriving DecidableEq, Repr

inductive Filter where
  | item (a : Assertion)
  | and (fs : List Filter)
  | or (fs : List Filter)
  | not (f : Filter)

/-! ## What a filter selects -/

/-- `none` is Undefined. -/
def both : Option Bool → Option Bool → Option Bool
  | some true, b => b
  | some false, _ => some false
  | none, some false => some false
  | none, _ => none

def either : Option Bool → Option Bool → Option Bool
  | some false, b => b
  | some true, _ => some true
  | none, some true => some true
  | none, _ => none

mutual

/-- The value of a filter for an entry, of which `asserts` says what holds. -/
def evaluate (asserts : Assertion → Option Bool) : Filter → Option Bool
  | .item a => asserts a
  | .and fs => evaluateAll asserts fs
  | .or fs => evaluateAny asserts fs
  | .not f => (evaluate asserts f).map (!·)

def evaluateAll (asserts : Assertion → Option Bool) : List Filter → Option Bool
  | [] => some true
  | f :: fs => both (evaluate asserts f) (evaluateAll asserts fs)

def evaluateAny (asserts : Assertion → Option Bool) : List Filter → Option Bool
  | [] => some false
  | f :: fs => either (evaluate asserts f) (evaluateAny asserts fs)

end

/-- A conjunction is true if both parts are. -/
theorem both_eq_true {a b : Option Bool} (h : both a b = some true) :
    a = some true ∧ b = some true := by
  cases a with
  | none => cases b with
    | none => cases h
    | some b => cases b <;> cases h
  | some a => cases a with
    | true => exact ⟨rfl, h⟩
    | false => cases h

/-- A conjunction that is true is true in each part. -/
theorem evaluate_of_mem {asserts : Assertion → Option Bool} {f : Filter} {fs : List Filter}
    (h : evaluateAll asserts fs = some true) (hmem : f ∈ fs) : evaluate asserts f = some true := by
  induction fs with
  | nil => cases hmem
  | cons g fs ih =>
    rw [evaluateAll] at h
    obtain ⟨hg, hfs⟩ := both_eq_true h
    cases hmem with
    | head => exact hg
    | tail _ hmem => exact ih hfs hmem

/-! ## The text of an item -/

/-- The characters of a left-hand side; the checks below say which may stand where. -/
def isTestChar (c : Char) : Bool :=
  c.isAlphanum || ['-', '.', ';', ':', '~', '<', '>'].contains c

/-- `keychar`. -/
def isKeyChar (c : Char) : Bool := c.isAlphanum || c == '-'

/-- `descr`. -/
def isDescr : List Char → Bool
  | [] => false
  | c :: cs => c.isAlpha && cs.all isKeyChar

/-- `number`. -/
def isNumber : List Char → Bool
  | [] => false
  | c :: cs => c.isDigit && cs.all Char.isDigit && (c != '0' || cs.isEmpty)

/-- `numericoid`. -/
def isNumericOid (cs : List Char) : Bool :=
  decide (2 ≤ (cs.splitOn '.').length) && (cs.splitOn '.').all isNumber

/-- `oid`. -/
def isOid (cs : List Char) : Bool := isDescr cs || isNumericOid cs

/-- `attributedescription`: a type and its options. -/
def isAttributeDescription (cs : List Char) : Bool :=
  match cs.splitOn ';' with
  | [] => false
  | type :: options => isOid type && options.all fun o => !o.isEmpty && o.all isKeyChar

def simple (relation : Relation) (cs : List Char) : Option Test :=
  if isAttributeDescription cs then some (.simple (String.ofList cs) relation) else none

/-- `dnattrs`, and what follows it. -/
def dnAttrs : List (List Char) → Bool × List (List Char)
  | [] => (false, [])
  | p :: ps => if p.map Char.toLower = ['d', 'n'] then (true, ps) else (false, p :: ps)

/-- `extensible`, less its `:=`. -/
def extensible (cs : List Char) : Option Test :=
  match cs.splitOn ':' with
  | [] => none
  | attr :: ps =>
    match (dnAttrs ps).2 with
    | [] =>
      if isAttributeDescription attr then
        some (.extensible (some (String.ofList attr)) (dnAttrs ps).1 none)
      else none
    | [rule] =>
      if attr.isEmpty && isOid rule then
        some (.extensible none (dnAttrs ps).1 (some (String.ofList rule)))
      else if isAttributeDescription attr && isOid rule then
        some (.extensible (some (String.ofList attr)) (dnAttrs ps).1 (some (String.ofList rule)))
      else none
    | _ => none

/-- The left-hand side of an item; its last character tells the kind of item. -/
def test (lhs : List Char) : Option Test :=
  if lhs.all isTestChar then
    match lhs.getLast? with
    | some '~' => simple .approx lhs.dropLast
    | some '>' => simple .greaterOrEqual lhs.dropLast
    | some '<' => simple .lessOrEqual lhs.dropLast
    | some ':' => extensible lhs.dropLast
    | _ => simple .equality lhs
  else none

/-- The characters that stand for themselves in no value. -/
def isSpecial (c : Char) : Bool := ['\x00', '(', ')', '*', '\\'].contains c

/-- `assertionvalue`: octets, each character its UTF-8 encoding unless escaped. -/
def decode : List Char → Option (List UInt8)
  | [] => some []
  | '\\' :: a :: b :: cs =>
    match hexValue a, hexValue b with
    | some h, some l => (decode cs).map (UInt8.ofNat (16 * h + l) :: ·)
    | _, _ => none
  | c :: cs => if isSpecial c then none else (decode cs).map (String.utf8EncodeChar c ++ ·)

/-- The right-hand side of an equality, where a `*` has its own meaning. -/
def equality (attr : String) (value : List Char) : Option Filter :=
  if value = ['*'] then some (.item (.present attr))
  else if '*' ∈ value then
    ((value.splitOn '*').mapM decode).map fun pieces => .item (.substrings attr pieces)
  else (decode value).map fun octets => .item (.value (.simple attr .equality) octets)

/-- `item`. -/
def item (text : List Char) : Option Filter :=
  match text.dropWhile (· != '=') with
  | [] => none
  | _ :: value =>
    match test (text.takeWhile (· != '=')) with
    | none => none
    | some (.simple attr .equality) => equality attr value
    | some t => (decode value).map fun octets => .item (.value t octets)

/-! ## The text of a filter -/

/-- A list or a negation the text has opened, with the filters it holds so far. -/
inductive Frame where
  | and (done : List Filter)
  | or (done : List Filter)
  | not

inductive Mode where
  /-- A filter has to start here. -/
  | filter
  /-- Its parenthesis is open. -/
  | opened
  | item (text : List Char)
  /-- A list may go on or end. -/
  | more
  /-- A negation has to end. -/
  | negated (f : Filter)
  | finished (f : Filter)

structure State where
  frames : List Frame
  mode : Mode

/-- A filter has been read. -/
def complete : List Frame → Filter → State
  | [], f => ⟨[], .finished f⟩
  | .and done :: frames, f => ⟨.and (done ++ [f]) :: frames, .more⟩
  | .or done :: frames, f => ⟨.or (done ++ [f]) :: frames, .more⟩
  | .not :: frames, f => ⟨frames, .negated f⟩

/-- The innermost list ends. -/
def close : List Frame → Option State
  | .and done :: frames => some (complete frames (.and done))
  | .or done :: frames => some (complete frames (.or done))
  | _ => none

def openFilter (frames : List Frame) (c : Char) : Option State :=
  if c = '&' then some ⟨.and [] :: frames, .filter⟩
  else if c = '|' then some ⟨.or [] :: frames, .filter⟩
  else if c = '!' then some ⟨.not :: frames, .filter⟩
  else if c = '(' ∨ c = ')' then none
  else some ⟨frames, .item [c]⟩

def step (s : State) (c : Char) : Option State :=
  match s.mode with
  | .filter => if c = '(' then some ⟨s.frames, .opened⟩ else none
  | .opened => openFilter s.frames c
  | .item text =>
    if c = ')' then (item text).map (complete s.frames)
    else if c = '(' then none
    else some ⟨s.frames, .item (text ++ [c])⟩
  | .more =>
    if c = '(' then some ⟨s.frames, .opened⟩
    else if c = ')' then close s.frames
    else none
  | .negated f => if c = ')' then some (complete s.frames (.not f)) else none
  | .finished _ => none

def run (s : State) : List Char → Option State
  | [] => some s
  | c :: cs => (step s c).bind fun s' => run s' cs

/-- The filter a text denotes. -/
def parse (text : String) : Option Filter :=
  match run ⟨[], .filter⟩ text.toList with
  | some ⟨_, .finished f⟩ => some f
  | _ => none

theorem run_cons {s s' : State} {c : Char} {cs : List Char} (h : step s c = some s') :
    run s (c :: cs) = run s' cs := by
  rw [run, h]
  rfl

/-- One text after the other. -/
theorem run_append (s : State) (xs ys : List Char) :
    run s (xs ++ ys) = (run s xs).bind fun s' => run s' ys := by
  induction xs generalizing s with
  | nil => rfl
  | cons x xs ih =>
    cases h : step s x with
    | none => simp [run, h]
    | some s' => simpa [run, h] using ih s'

/-! ## Assembling a filter -/

/-- The text reads as the filter wherever a filter may stand. -/
def Reads (text : List Char) (f : Filter) : Prop :=
  ∀ frames, run ⟨frames, .filter⟩ text = some (complete frames f)

/-- A text that reads as a filter is parsed as it. -/
theorem parse_of_reads {text : String} {f : Filter} (h : Reads text.toList f) :
    parse text = some f := by
  rw [parse, h]
  rfl

theorem Reads.head {text : List Char} {f : Filter} (h : Reads text f) :
    ∃ rest, text = '(' :: rest ∧ ∀ frames,
      run ⟨frames, .opened⟩ rest = some (complete frames f) := by
  cases text with
  | nil =>
    have h : some (⟨[], .filter⟩ : State) = some (complete [] f) := h []
    cases h
  | cons c rest =>
    by_cases hc : c = '('
    · subst hc
      exact ⟨rest, rfl, h⟩
    · have h := h []
      simp [run, step, hc] at h

/-- In a list that may go on, a filter reads as it does at its start. -/
theorem Reads.more {text : List Char} {f : Filter} (h : Reads text f) (frames : List Frame) :
    run ⟨frames, .more⟩ text = some (complete frames f) := by
  obtain ⟨rest, rfl, hrest⟩ := h.head
  exact hrest frames

/-- The texts of a list of filters, one after the other. -/
inductive ReadsAll : List Char → List Filter → Prop where
  | nil : ReadsAll [] []
  | cons {text rest : List Char} {f : Filter} {fs : List Filter} (h : Reads text f)
      (more : ReadsAll rest fs) : ReadsAll (text ++ rest) (f :: fs)

/-- One list of filters after the other. -/
theorem ReadsAll.append {xs ys : List Char} {fs gs : List Filter} (h : ReadsAll xs fs)
    (hys : ReadsAll ys gs) : ReadsAll (xs ++ ys) (fs ++ gs) := by
  induction h with
  | nil => exact hys
  | cons h _ ih =>
    rw [List.append_assoc]
    exact ReadsAll.cons h ih

/-- The text of an item. -/
theorem run_item {frames : List Frame} {text : List Char} (h : '(' ∉ text ∧ ')' ∉ text)
    (start rest : List Char) :
    run ⟨frames, .item start⟩ (text ++ ')' :: rest) =
      ((item (start ++ text)).map (complete frames)).bind fun s => run s rest := by
  induction text generalizing start with
  | nil =>
    rw [List.append_nil]
    rfl
  | cons c text ih =>
    have hopen : c ≠ '(' := fun he => h.1 (he ▸ List.mem_cons_self ..)
    have hclose : c ≠ ')' := fun he => h.2 (he ▸ List.mem_cons_self ..)
    have hstep : step ⟨frames, .item start⟩ c = some ⟨frames, .item (start ++ [c])⟩ := by
      simp only [step, if_neg hopen, if_neg hclose]
    rw [List.cons_append, run_cons hstep, ih, List.append_assoc, List.singleton_append]
    exact ⟨fun hm => h.1 (List.mem_cons_of_mem _ hm), fun hm => h.2 (List.mem_cons_of_mem _ hm)⟩

/-- An item in parentheses. -/
theorem reads_item {c : Char} {text : List Char} {f : Filter} (hitem : item (c :: text) = some f)
    (h : '(' ∉ c :: text ∧ ')' ∉ c :: text) (hc : c ≠ '&' ∧ c ≠ '|' ∧ c ≠ '!') :
    Reads ('(' :: c :: text ++ [')']) f := by
  intro frames
  have hopen : c ≠ '(' := fun he => h.1 (he ▸ List.mem_cons_self ..)
  have hclose : c ≠ ')' := fun he => h.2 (he ▸ List.mem_cons_self ..)
  have hstep : step ⟨frames, .opened⟩ c = some ⟨frames, .item [c]⟩ := by
    simp [step, openFilter, hc.1, hc.2.1, hc.2.2, hopen, hclose]
  show run ⟨frames, .filter⟩ ('(' :: c :: (text ++ [')'])) = _
  have hparen : step ⟨frames, .filter⟩ '(' = some ⟨frames, .opened⟩ := rfl
  rw [run_cons hparen, run_cons hstep, run_item, List.singleton_append, hitem]
  · rfl
  · exact ⟨fun hm => h.1 (List.mem_cons_of_mem _ hm), fun hm => h.2 (List.mem_cons_of_mem _ hm)⟩

/-- The rest of a conjunction. -/
theorem ReadsAll.and {text : List Char} {fs : List Filter} (h : ReadsAll text fs)
    (done : List Filter) (frames : List Frame) :
    run ⟨.and done :: frames, .more⟩ (text ++ [')']) =
      some (complete frames (.and (done ++ fs))) := by
  induction h generalizing done with
  | nil =>
    rw [List.append_nil]
    rfl
  | @cons text rest f fs h _ ih =>
    rw [List.append_assoc, run_append, h.more]
    show run ⟨.and (done ++ [f]) :: frames, .more⟩ (rest ++ [')']) = _
    rw [ih, List.append_assoc, List.singleton_append]

theorem ReadsAll.or {text : List Char} {fs : List Filter} (h : ReadsAll text fs)
    (done : List Filter) (frames : List Frame) :
    run ⟨.or done :: frames, .more⟩ (text ++ [')']) =
      some (complete frames (.or (done ++ fs))) := by
  induction h generalizing done with
  | nil =>
    rw [List.append_nil]
    rfl
  | @cons text rest f fs h _ ih =>
    rw [List.append_assoc, run_append, h.more]
    show run ⟨.or (done ++ [f]) :: frames, .more⟩ (rest ++ [')']) = _
    rw [ih, List.append_assoc, List.singleton_append]

/-- A conjunction of what is read. -/
theorem reads_and {text : List Char} {fs : List Filter} (h : ReadsAll text fs) (hne : fs ≠ []) :
    Reads ('(' :: '&' :: text ++ [')']) (.and fs) := by
  intro frames
  cases h with
  | nil => exact absurd rfl hne
  | @cons text rest f fs h more =>
    show run ⟨.and [] :: frames, .filter⟩ (text ++ rest ++ [')']) = _
    rw [List.append_assoc, run_append, h]
    show run ⟨.and [f] :: frames, .more⟩ (rest ++ [')']) = _
    rw [more.and]
    rfl

/-- A disjunction. -/
theorem reads_or {text : List Char} {fs : List Filter} (h : ReadsAll text fs) (hne : fs ≠ []) :
    Reads ('(' :: '|' :: text ++ [')']) (.or fs) := by
  intro frames
  cases h with
  | nil => exact absurd rfl hne
  | @cons text rest f fs h more =>
    show run ⟨.or [] :: frames, .filter⟩ (text ++ rest ++ [')']) = _
    rw [List.append_assoc, run_append, h]
    show run ⟨.or [f] :: frames, .more⟩ (rest ++ [')']) = _
    rw [more.or]
    rfl

/-- A negation. -/
theorem reads_not {text : List Char} {f : Filter} (h : Reads text f) :
    Reads ('(' :: '!' :: text ++ [')']) (.not f) := by
  intro frames
  show run ⟨.not :: frames, .filter⟩ (text ++ [')']) = _
  rw [run_append, h]
  rfl

/-! ## A filter with a gap -/

/-- A filter around one of its parts. -/
inductive Context where
  | hole
  | and (before : List Filter) (inner : Context) (after : List Filter)
  | or (before : List Filter) (inner : Context) (after : List Filter)
  | not (inner : Context)

def Context.fill (f : Filter) : Context → Filter
  | .hole => f
  | .and before inner after => .and (before ++ inner.fill f :: after)
  | .or before inner after => .or (before ++ inner.fill f :: after)
  | .not inner => .not (inner.fill f)

/-- Only conjunctions are around the part. -/
def Context.Demands : Context → Bool
  | .hole => true
  | .and _ inner _ => inner.Demands
  | _ => false

/-- What satisfies a filter satisfies each part it demands. -/
theorem Context.evaluate_of_demands {asserts : Assertion → Option Bool} {ctx : Context} {f : Filter}
    (hd : ctx.Demands) (h : evaluate asserts (ctx.fill f) = some true) :
    evaluate asserts f = some true := by
  induction ctx with
  | hole => exact h
  | and before inner after ih =>
    rw [Context.fill, evaluate] at h
    exact ih hd (evaluate_of_mem h (by simp))
  | or => cases hd
  | not => cases hd

/-- The text before and after the value of one assertion, the left-hand side of the
assertion, and the filter around it. -/
inductive Template : List Char → List Char → Test → Context → Prop where
  | item {lhs : List Char} {t : Test} (h : test lhs = some t) :
      Template ('(' :: lhs ++ ['=']) [')'] t .hole
  | and {left pre post right : List Char} {t : Test} {before after : List Filter} {ctx : Context}
      (hleft : ReadsAll left before) (h : Template pre post t ctx) (hright : ReadsAll right after) :
      Template ('(' :: '&' :: left ++ pre) (post ++ right ++ [')']) t (.and before ctx after)
  | or {left pre post right : List Char} {t : Test} {before after : List Filter} {ctx : Context}
      (hleft : ReadsAll left before) (h : Template pre post t ctx) (hright : ReadsAll right after) :
      Template ('(' :: '|' :: left ++ pre) (post ++ right ++ [')']) t (.or before ctx after)
  | not {pre post : List Char} {t : Test} {ctx : Context} (h : Template pre post t ctx) :
      Template ('(' :: '!' :: pre) (post ++ [')']) t (.not ctx)

theorem isTestChar_of_test {lhs : List Char} {t : Test} (h : test lhs = some t) :
    ∀ c ∈ lhs, isTestChar c := by
  unfold test at h
  split at h
  · next hall => exact List.all_eq_true.mp hall
  · cases h

/-- A decoded value holds none of the characters with a meaning of their own. -/
theorem not_special_of_decode {value : List Char} {octets : List UInt8}
    (h : decode value = some octets) : '(' ∉ value ∧ ')' ∉ value ∧ '*' ∉ value := by
  induction value using decode.induct generalizing octets with
  | case1 => simp
  | case2 a b cs x y ha hb ih =>
    rw [decode, ha, hb] at h
    obtain ⟨octets, hcs, -⟩ := Option.map_eq_some_iff.mp h
    have hdigit : ∀ {c : Char} {n : Nat}, hexValue c = some n → c ≠ '(' ∧ c ≠ ')' ∧ c ≠ '*' := by
      intro c n hc
      refine ⟨?_, ?_, ?_⟩ <;> (rintro rfl; cases hc)
    have := ih hcs
    have := hdigit ha
    have := hdigit hb
    grind
  | case3 a b cs hnone =>
    rw [decode.eq_2] at h
    split at h
    · next x y hx hy => exact (hnone x y hx hy).elim
    · cases h
  | case4 c cs hne hspecial =>
    rw [decode.eq_3 c cs hne, if_pos hspecial] at h
    cases h
  | case5 c cs hne hspecial ih =>
    rw [decode.eq_3 c cs hne, if_neg hspecial] at h
    obtain ⟨octets, hcs, -⟩ := Option.map_eq_some_iff.mp h
    have hc : c ≠ '(' ∧ c ≠ ')' ∧ c ≠ '*' := by
      refine ⟨?_, ?_, ?_⟩ <;> (rintro rfl; exact hspecial rfl)
    have := ih hcs
    grind

/-- The text of one assertion. -/
theorem item_value {lhs value : List Char} {t : Test} {octets : List UInt8} (ht : test lhs = some t)
    (hv : decode value = some octets) :
    item (lhs ++ '=' :: value) = some (.item (.value t octets)) := by
  have hne : ∀ c ∈ lhs, (c != '=') = true := by
    intro c hc
    have htest := isTestChar_of_test ht c hc
    refine bne_iff_ne.mpr ?_
    rintro rfl
    exact absurd htest (by decide)
  have hdrop : (lhs ++ '=' :: value).dropWhile (· != '=') = '=' :: value := by
    rw [List.dropWhile_append_of_pos hne]
    rfl
  have htake : (lhs ++ '=' :: value).takeWhile (· != '=') = lhs := by
    rw [List.takeWhile_append_of_pos hne]
    simp
  have hstar : '*' ∉ value := (not_special_of_decode hv).2.2
  unfold item
  rw [hdrop, htake, ht]
  cases t with
  | extensible => simp [hv]
  | simple attr relation =>
    cases relation with
    | equality =>
      have hany : value ≠ ['*'] := fun he => hstar (he ▸ List.mem_cons_self ..)
      show equality attr value = _
      rw [equality, if_neg hany, if_neg hstar, hv]
      rfl
    | approx => simp [hv]
    | greaterOrEqual => simp [hv]
    | lessOrEqual => simp [hv]

/-- **The gap cannot be left.** Whatever well-formed value stands in the gap, the text
reads as the filter of the template, the one assertion being of the octets encoded. -/
theorem Template.reads {pre post value : List Char} {t : Test} {ctx : Context} {octets : List UInt8}
    (h : Template pre post t ctx) (hv : decode value = some octets) :
    Reads (pre ++ value ++ post) (ctx.fill (.item (.value t octets))) := by
  induction h with
  | @item lhs t ht =>
    have hitem := item_value ht hv
    have hlhs := isTestChar_of_test ht
    have hvalue := not_special_of_decode hv
    cases lhs with
    | nil => cases ht
    | cons c lhs =>
      have hc : isTestChar c := hlhs c (List.mem_cons_self ..)
      have htext : '(' :: (c :: lhs) ++ ['='] ++ value ++ [')'] =
          '(' :: c :: (lhs ++ '=' :: value) ++ [')'] := by simp
      rw [htext]
      have hplain : ∀ d, isTestChar d = false → d ≠ '=' → d ∉ value →
          d ∉ c :: (lhs ++ '=' :: value) := by
        intro d htest heq hval hm
        have hm : d ∈ (c :: lhs) ++ '=' :: value := hm
        rcases List.mem_append.mp hm with hm | hm
        · exact Bool.false_ne_true (htest ▸ hlhs d hm)
        · rcases List.mem_cons.mp hm with hm | hm
          · exact heq hm
          · exact hval hm
      refine reads_item hitem ⟨?_, ?_⟩ ⟨?_, ?_, ?_⟩
      · exact hplain '(' (by decide) (by decide) hvalue.1
      · exact hplain ')' (by decide) (by decide) hvalue.2.1
      all_goals
        rintro rfl
        exact absurd hc (by decide)
  | and hleft h hright ih =>
    have hall := hleft.append (.cons ih hright)
    simpa [Context.fill] using reads_and hall (by simp)
  | or hleft h hright ih =>
    have hall := hleft.append (.cons ih hright)
    simpa [Context.fill] using reads_or hall (by simp)
  | not h ih => simpa [Context.fill] using reads_not ih

/-- **What an encoder has to do.** It is enough that each character, encoded, decodes to
the octets of the character. -/
theorem decode_encode {encode : Char → List Char}
    (h : ∀ c rest, decode (encode c ++ rest) = (decode rest).map (String.utf8EncodeChar c ++ ·))
    (cs : List Char) : decode (cs.flatMap encode) = some (encodeUtf8 cs) := by
  induction cs with
  | nil => rfl
  | cons c cs ih =>
    rw [List.flatMap_cons, h, ih]
    rfl

/-- A character that is not special encodes itself. -/
theorem decode_plain {c : Char} (h : isSpecial c = false) (rest : List Char) :
    decode (c :: rest) = (decode rest).map (String.utf8EncodeChar c ++ ·) := by
  rw [decode.eq_3 c rest, if_neg (by simp [h])]
  rintro a b cs rfl
  cases h

end ReleaseRadar.Lib.SearchFilter
