import ReleaseRadar.Lib.JsonText

/-!
# Writing JSON

`write` is the text of a value, without a space between its parts. `parse_write` is the round
trip for arrays and objects, whatever white space follows them: what a text has been written
for is what it reads as, if its numbers are numbers and it is not nested too deep. A reader that
takes the first value of a stream (`first`) finds it too.
-/

namespace ReleaseRadar.Lib.JsonText

mutual

def write : Value → List Char
  | .null => ['n', 'u', 'l', 'l']
  | .bool true => ['t', 'r', 'u', 'e']
  | .bool false => ['f', 'a', 'l', 's', 'e']
  | .num literal => literal
  | .str s => quote s
  | .arr items => '[' :: writeItems items ++ [']']
  | .obj members => '\x7b' :: writeMembers members ++ ['\x7d']

def writeItems : List Value → List Char
  | [] => []
  | [v] => write v
  | v :: w :: vs => write v ++ ',' :: writeItems (w :: vs)

def writeMembers : List (String × Value) → List Char
  | [] => []
  | [(key, v)] => quote key ++ ':' :: write v
  | (key, v) :: m :: ms => quote key ++ ':' :: write v ++ ',' :: writeMembers (m :: ms)

end

/-- A number as texts have them. -/
structure IsLiteral (literal : List Char) : Prop where
  head : ∀ c ∈ literal.head?, c.isDigit || c == '-'
  chars : ∀ c ∈ literal, isNumberChar c
  number : isNumber literal

mutual

/-- The value can be written: its numbers are literals, and it is nested at most so deep. -/
inductive Writable : Nat → Value → Prop
  | null {depth : Nat} : Writable depth .null
  | bool {depth : Nat} (b : Bool) : Writable depth (.bool b)
  | num {depth : Nat} {literal : List Char} (h : IsLiteral literal) : Writable depth (.num literal)
  | str {depth : Nat} (s : String) : Writable depth (.str s)
  | arr {depth : Nat} {items : List Value} (h : WritableItems depth items) :
      Writable (depth + 1) (.arr items)
  | obj {depth : Nat} {members : List (String × Value)} (h : WritableMembers depth members) :
      Writable (depth + 1) (.obj members)

inductive WritableItems : Nat → List Value → Prop
  | nil {depth : Nat} : WritableItems depth []
  | cons {depth : Nat} {v : Value} {vs : List Value} (h : Writable depth v)
      (more : WritableItems depth vs) : WritableItems depth (v :: vs)

inductive WritableMembers : Nat → List (String × Value) → Prop
  | nil {depth : Nat} : WritableMembers depth []
  | cons {depth : Nat} {key : String} {v : Value} {ms : List (String × Value)}
      (h : Writable depth v) (more : WritableMembers depth ms) :
        WritableMembers depth ((key, v) :: ms)

end

/-! ## What is written is read -/

theorem reads_null (depth : Nat) : Reads depth (write .null) .null where
  start := ⟨'n', _, rfl, by decide⟩
  run _ _ _ _ _ := rfl

/-- A literal of the language is read back. -/
theorem reads_bool (depth : Nat) (b : Bool) : Reads depth (write (.bool b)) (.bool b) := by
  cases b with
  | true => exact ⟨⟨'t', _, rfl, by decide⟩, fun _ _ _ _ _ => rfl⟩
  | false => exact ⟨⟨'f', _, rfl, by decide⟩, fun _ _ _ _ _ => rfl⟩

/-- What fits a depth fits a greater one. -/
theorem Reads.le {depth depth' : Nat} {text : List Char} {v : Value} (h : Reads depth text v)
    (hle : depth ≤ depth') : Reads depth' text v where
  start := h.start
  run frames c rest hroom hc := h.run frames c rest (by omega) hc

/-- A number literal is read back. -/
theorem reads_literal {literal : List Char} (h : IsLiteral literal) :
    Reads 0 literal (.num literal) := by
  cases literal with
  | nil => exact absurd h.number (by decide)
  | cons c cs =>
    exact reads_num (h.head c rfl) (fun d hd => h.chars d (List.mem_cons_of_mem _ hd)) h.number

/-- The text of an array or an object closes by itself: anything may follow it. -/
def Closes (depth : Nat) (text : List Char) (v : Value) : Prop :=
  ∀ frames rest, frames.length + depth ≤ maxDepth →
    run ⟨frames, .value⟩ (text ++ rest) = run (complete frames v) rest

/-- The empty array is read up to its bracket. -/
theorem closes_nil {depth : Nat} : Closes (depth + 1) ['[', ']'] (.arr []) := by
  intro frames rest hroom
  have hopen : step ⟨frames, .value⟩ '[' = some ⟨.arr [] :: frames, .item⟩ := by
    show push frames (.arr []) .item = _
    rw [push, if_pos (by omega)]
  rw [List.cons_append, run_cons hopen]
  exact run_cons rfl

/-- The empty object is read up to its brace. -/
theorem closes_empty {depth : Nat} : Closes (depth + 1) ['\x7b', '\x7d'] (.obj []) := by
  intro frames rest hroom
  have hopen : step ⟨frames, .value⟩ '\x7b' = some ⟨.obj [] "" :: frames, .member⟩ := by
    show push frames (.obj [] "") .member = _
    rw [push, if_pos (by omega)]
  rw [List.cons_append, run_cons hopen]
  exact run_cons rfl

/-- An array is read up to its bracket. -/
theorem closes_arr {depth : Nat} {text : List Char} {vs : List Value}
    (h : ReadsItems depth text vs) : Closes (depth + 1) ('[' :: text ++ [']']) (.arr vs) := by
  intro frames rest hroom
  have hopen : step ⟨frames, .value⟩ '[' = some ⟨.arr [] :: frames, .item⟩ := by
    show push frames (.arr []) .item = _
    rw [push, if_pos (by omega)]
  obtain ⟨c, cs, rfl, hc⟩ := h.start
  -- at its first item an array is where a value may stand
  have hfirst : step ⟨.arr [] :: frames, .item⟩ c = step ⟨.arr [] :: frames, .value⟩ c := by
    have hplain : isSpace c = false ∧ c ≠ ']' := by
      simp only [isStart, Bool.not_eq_true', Bool.or_eq_false_iff] at hc
      refine ⟨hc.1, fun he => ?_⟩
      rw [he] at hc
      exact absurd hc.2 (by decide)
    simp only [step, stepPlain, hplain.1, Bool.false_eq_true, if_false, if_neg hplain.2]
  have hroom' : frames.length + 1 + depth ≤ maxDepth := by omega
  have hitems := h.run hroom' [] rest
  rw [List.cons_append, List.cons_append, run_cons hopen, List.append_assoc, List.cons_append,
    run, hfirst]
  exact hitems

/-- An object is read up to its brace. -/
theorem closes_obj {depth : Nat} {text : List Char} {ms : List (String × Value)}
    (h : ReadsMembers depth text ms) :
    Closes (depth + 1) ('\x7b' :: text ++ ['\x7d']) (.obj ms) := by
  intro frames rest hroom
  rw [List.append_assoc]
  exact run_obj h (by omega) rest

/-- Where a value may stand in an array or an object, so may a text that closes. -/
theorem Closes.reads {depth : Nat} {c : Char} {cs : List Char} {v : Value}
    (h : Closes depth (c :: cs) v) (hc : isStart c) : Reads depth (c :: cs) v where
  start := ⟨c, cs, rfl, hc⟩
  run frames d rest hroom _ := h frames (d :: rest) hroom

mutual

/-- **The text of a value reads as the value.** -/
theorem reads_write : ∀ {depth : Nat} (v : Value), Writable depth v → Reads depth (write v) v
  | depth, .null, _ => reads_null depth
  | depth, .bool b, _ => reads_bool depth b
  | _, .num _, .num h => (reads_literal h).le (Nat.zero_le _)
  | _, .str s, _ => (reads_str s).le (Nat.zero_le _)
  | _, .arr [], .arr _ => closes_nil.reads (by decide)
  | _, .arr (v :: vs), .arr h =>
    (closes_arr (readsItems_write v vs h)).reads (by decide)
  | _, .obj [], .obj _ => closes_empty.reads (by decide)
  | _, .obj ((key, v) :: ms), .obj h =>
    (closes_obj (readsMembers_write key v ms h)).reads (by decide)
termination_by depth => (depth, 0)

/-- Items are read one by one. -/
theorem readsItems_write : ∀ {depth : Nat} (v : Value) (vs : List Value),
    WritableItems depth (v :: vs) → ReadsItems depth (writeItems (v :: vs)) (v :: vs)
  | _, v, [], .cons h _ => .one (reads_write v h)
  | _, v, w :: vs, .cons h more => .cons (reads_write v h) (readsItems_write w vs more)
termination_by depth _ vs => (depth, vs.length + 1)

/-- Members are, each with its key. -/
theorem readsMembers_write :
    ∀ {depth : Nat} (key : String) (v : Value) (ms : List (String × Value)),
    WritableMembers depth ((key, v) :: ms) →
      ReadsMembers depth (writeMembers ((key, v) :: ms)) ((key, v) :: ms)
  | _, key, v, [], .cons h _ => .one key (reads_write v h)
  | _, key, v, (key', w) :: ms, .cons h more =>
    .cons key (reads_write v h) (readsMembers_write key' w ms more)
termination_by depth _ _ ms => (depth, ms.length + 1)

end

/-! ## Whole texts -/

def isContainer : Value → Bool
  | .arr _ | .obj _ => true
  | .null | .bool _ | .num _ | .str _ => false

/-- A container is read up to where it closes. -/
theorem closes_write {depth : Nat} {v : Value} (hv : isContainer v) (h : Writable depth v) :
    Closes depth (write v) v := by
  cases h with
  | null | bool | num | str => cases hv
  | @arr depth items h =>
    cases items with
    | nil => exact closes_nil
    | cons v vs => exact closes_arr (readsItems_write v vs h)
  | @obj depth members h =>
    cases members with
    | nil => exact closes_empty
    | cons m ms => exact closes_obj (readsMembers_write m.1 m.2 ms h)

/-- So a container is read whole, whatever follows. -/
theorem run_write {depth : Nat} {v : Value} (hv : isContainer v) (h : Writable depth v)
    (hdepth : depth ≤ maxDepth) (rest : List Char) :
    run ⟨[], .value⟩ (write v ++ rest) = run ⟨[], .finished v⟩ rest :=
  closes_write hv h [] rest (by rw [List.length_nil]; omega)

/-- White space after it changes nothing. -/
theorem run_spaces {frames : List Frame} {v : Value} {cs : List Char} (h : ∀ c ∈ cs, isSpace c) :
    run ⟨frames, .finished v⟩ cs = some ⟨frames, .finished v⟩ := by
  induction cs with
  | nil => rfl
  | cons c cs ih =>
    have hstep : step ⟨frames, .finished v⟩ c = some ⟨frames, .finished v⟩ :=
      if_pos (h c (List.mem_cons_self ..))
    rw [run_cons hstep]
    exact ih fun d hd => h d (List.mem_cons_of_mem _ hd)

/-- **What was written is parsed**, with white space behind it. -/
theorem parse_write {depth : Nat} {v : Value} (hv : isContainer v) (h : Writable depth v)
    (hdepth : depth ≤ maxDepth) {cs : List Char} (hcs : ∀ c ∈ cs, isSpace c) :
    parse (write v ++ cs) = some v := by
  rw [parse, run_write hv h hdepth, run_spaces hcs]

/-- A reader that stops behind the first value. -/
def firstFrom (s : State) : List Char → Option Value
  | [] =>
    match s with
    | ⟨_, .finished v⟩ => some v
    | ⟨[], .number literal⟩ => if isNumber literal then some (.num literal) else none
    | _ => none
  | c :: cs =>
    match s.mode with
    | .finished v => some v
    | _ => (step s c).bind fun s' => firstFrom s' cs

/-- The first value of a stream. -/
def first (cs : List Char) : Option Value := firstFrom ⟨[], .value⟩ cs

/-- The decoder stops after the first value. -/
theorem firstFrom_finished (frames : List Frame) (v : Value) (cs : List Char) :
    firstFrom ⟨frames, .finished v⟩ cs = some v := by
  cases cs <;> rfl

/-- Behind a value there is only white space. -/
theorem finished_of_run {frames frames' : List Frame} {v w : Value} {cs : List Char}
    (h : run ⟨frames, .finished v⟩ cs = some ⟨frames', .finished w⟩) : v = w := by
  induction cs with
  | nil => cases h; rfl
  | cons c cs ih =>
    by_cases hc : isSpace c
    · have hstep : step ⟨frames, .finished v⟩ c = some ⟨frames, .finished v⟩ := if_pos hc
      rw [run_cons hstep] at h
      exact ih h
    · have hstep : step ⟨frames, .finished v⟩ c = none := if_neg hc
      rw [run, hstep] at h
      cases h

/-- A value that has ended is the first one, whatever follows. -/
theorem firstFrom_of_run {s : State} {frames : List Frame} {v : Value} {cs : List Char}
    (h : run s cs = some ⟨frames, .finished v⟩) (rest : List Char) :
    firstFrom s (cs ++ rest) = some v := by
  induction cs generalizing s with
  | nil =>
    obtain rfl := Option.some.inj h
    exact firstFrom_finished frames v rest
  | cons c cs ih =>
    obtain ⟨s', hstep, hrun⟩ := Option.bind_eq_some_iff.mp h
    obtain ⟨frames₀, mode⟩ := s
    have hnext : firstFrom s' (cs ++ rest) = some v := ih hrun
    cases mode with
    | finished w =>
      rw [firstFrom_finished]
      exact congrArg some (finished_of_run h)
    | _ =>
      show (step _ c).bind _ = _
      rw [hstep]
      exact hnext

/-- **What was written is the first value**, whatever follows it. -/
theorem first_write {depth : Nat} {v : Value} (hv : isContainer v) (h : Writable depth v)
    (hdepth : depth ≤ maxDepth) (rest : List Char) : first (write v ++ rest) = some v := by
  have hrun := run_write hv h hdepth []
  rw [List.append_nil] at hrun
  exact firstFrom_of_run hrun rest

/-- An integer can be written. -/
theorem isLiteral_decimal (n : Int) : IsLiteral (decimal n) := by
  have hdigits : ∀ m, ∀ c ∈ Nat.toDigits 10 m, c.isDigit := fun m c hc =>
    Nat.isDigit_of_mem_toDigits (by decide) (by decide) hc
  have hchars : ∀ m, ∀ c ∈ Nat.toDigits 10 m, isNumberChar c := fun m c hc => by
    rw [isNumberChar, hdigits m c hc]
    rfl
  cases n with
  | ofNat m =>
    have hhead : ∀ c ∈ (Nat.toDigits 10 m).head?, c.isDigit := fun c hc =>
      hdigits m c (List.mem_of_mem_head? hc)
    have hnumber : isNumber (Nat.toDigits 10 m) := by
      -- the digits have no sign in front
      have hsign : ∀ cs, Nat.toDigits 10 m ≠ '-' :: cs := fun cs he => by
        rw [he] at hhead
        exact absurd (hhead '-' rfl) (by decide)
      rw [isNumber.eq_2 _ hsign]
      exact isMagnitude_toDigits m
    exact ⟨fun c hc => by rw [hhead c hc]; rfl, hchars m, hnumber⟩
  | negSucc m =>
    refine ⟨fun c hc => ?_, fun c hc => ?_, isMagnitude_toDigits (m + 1)⟩
    · obtain rfl := Option.some.inj hc
      decide
    · rcases List.mem_cons.mp hc with rfl | hc
      · decide
      · exact hchars (m + 1) c hc

end ReleaseRadar.Lib.JsonText
