import ReleaseRadar.Lib.Hex

/-!
# JSON texts

The texts of RFC 8259, read one character at a time over a stack of the open arrays and
objects, with a limit on their nesting. A number keeps its literal, an object its
members in order; `unquote` puts the escapes of a string together, a lone surrogate
being U+FFFD.

For a writer: `quote` writes a string with the characters escaped that may not stand in
it or that HTML would read, and `Reads` is the rule for putting texts together, where
what a text reads as does not depend on what it stands in.
-/

namespace ReleaseRadar.Lib.JsonText

inductive Value where
  | null
  | bool (b : Bool)
  | num (literal : List Char)
  | str (s : String)
  | arr (items : List Value)
  | obj (members : List (String × Value))

/-! ## Strings -/

/-- A part of a string: a character that stands for itself, or a `\u` escape. -/
inductive Piece where
  | char (c : Char)
  | unit (n : Nat)
deriving DecidableEq, Repr

def isHigh (n : Nat) : Bool := decide (0xD800 ≤ n ∧ n < 0xDC00)
def isLow (n : Nat) : Bool := decide (0xDC00 ≤ n ∧ n < 0xE000)

/-- A code unit by itself. -/
def lone (n : Nat) : Char := if isHigh n || isLow n then '\ufffd' else Char.ofNat n

def pair (high low : Nat) : Char := Char.ofNat (0x10000 + (high - 0xD800) * 0x400 + (low - 0xDC00))

/-- The characters of a string; `high` is a high surrogate that waits for a low one. -/
def unquoteFrom (high : Option Nat) : List Piece → List Char
  | [] =>
    match high with
    | none => []
    | some _ => ['\ufffd']
  | .char c :: ps =>
    match high with
    | none => c :: unquoteFrom none ps
    | some _ => '\ufffd' :: c :: unquoteFrom none ps
  | .unit n :: ps =>
    match high with
    | none => if isHigh n then unquoteFrom (some n) ps else lone n :: unquoteFrom none ps
    | some h =>
      if isLow n then pair h n :: unquoteFrom none ps
      else if isHigh n then '\ufffd' :: unquoteFrom (some n) ps
      else '\ufffd' :: lone n :: unquoteFrom none ps

def unquote (ps : List Piece) : String := String.ofList (unquoteFrom none ps)

/-- The character an escape of two characters stands for. -/
def escaped (c : Char) : Option Char :=
  if c = '"' then some '"'
  else if c = '\\' then some '\\'
  else if c = '/' then some '/'
  else if c = 'b' then some '\x08'
  else if c = 'f' then some '\x0c'
  else if c = 'n' then some '\n'
  else if c = 'r' then some '\r'
  else if c = 't' then some '\t'
  else none

/-! ## Numbers -/

/-- The characters a number may hold; `isNumber` says in which order. -/
def isNumberChar (c : Char) : Bool := c.isDigit || ['-', '+', '.', 'e', 'E'].contains c

def isExponent : List Char → Bool
  | [] => true
  | e :: cs =>
    (e == 'e' || e == 'E') &&
      match cs with
      | '+' :: ds => !ds.isEmpty && ds.all Char.isDigit
      | '-' :: ds => !ds.isEmpty && ds.all Char.isDigit
      | ds => !ds.isEmpty && ds.all Char.isDigit

def isFraction : List Char → Bool
  | '.' :: d :: cs => d.isDigit && isExponent (cs.dropWhile Char.isDigit)
  | cs => isExponent cs

def isMagnitude : List Char → Bool
  | [] => false
  | c :: cs =>
    if c = '0' then isFraction cs else c.isDigit && isFraction (cs.dropWhile Char.isDigit)

def isNumber : List Char → Bool
  | '-' :: cs => isMagnitude cs
  | cs => isMagnitude cs

/-! ## Texts -/

/-- An open array or object with what it holds so far; an object also has the key its
next value is for. -/
inductive Frame where
  | arr (done : List Value)
  | obj (done : List (String × Value)) (key : String)

inductive Mode where
  /-- A value has to start. -/
  | value
  /-- An array has opened: a value, or its end. -/
  | item
  /-- A key has to start. -/
  | key
  /-- An object has opened: a key, or its end. -/
  | member
  | colon
  /-- A value has ended in an array or an object. -/
  | after
  | text (isKey : Bool) (ps : List Piece)
  | escape (isKey : Bool) (ps : List Piece)
  | hex (isKey : Bool) (ps : List Piece) (digits : Nat) (n : Nat)
  | number (literal : List Char)
  | word (rest : List Char) (v : Value)
  | finished (v : Value)

structure State where
  frames : List Frame
  mode : Mode

/-- The nesting a reader admits. -/
def maxDepth : Nat := 10000

def isSpace (c : Char) : Bool := [' ', '\t', '\r', '\n'].contains c

/-- A value has been read. -/
def complete : List Frame → Value → State
  | [], v => ⟨[], .finished v⟩
  | .arr done :: frames, v => ⟨.arr (done ++ [v]) :: frames, .after⟩
  | .obj done key :: frames, v => ⟨.obj (done ++ [(key, v)]) key :: frames, .after⟩

/-- A string has been read. -/
def endText (frames : List Frame) (isKey : Bool) (ps : List Piece) : Option State :=
  if isKey then
    match frames with
    | .obj done _ :: frames => some ⟨.obj done (unquote ps) :: frames, .colon⟩
    | _ => none
  else some (complete frames (.str (unquote ps)))

def push (frames : List Frame) (f : Frame) (mode : Mode) : Option State :=
  if frames.length < maxDepth then some ⟨f :: frames, mode⟩ else none

def startValue (frames : List Frame) (c : Char) : Option State :=
  if c = '"' then some ⟨frames, .text false []⟩
  else if c = '[' then push frames (.arr []) .item
  else if c = '\x7b' then push frames (.obj [] "") .member
  else if c = 't' then some ⟨frames, .word ['r', 'u', 'e'] (.bool true)⟩
  else if c = 'f' then some ⟨frames, .word ['a', 'l', 's', 'e'] (.bool false)⟩
  else if c = 'n' then some ⟨frames, .word ['u', 'l', 'l'] .null⟩
  else if c.isDigit || c == '-' then some ⟨frames, .number [c]⟩
  else none

/-- The innermost array or object goes on or ends. -/
def delimit (frames : List Frame) (c : Char) : Option State :=
  match frames with
  | .arr done :: frames =>
    if c = ',' then some ⟨.arr done :: frames, .value⟩
    else if c = ']' then some (complete frames (.arr done))
    else none
  | .obj done key :: frames =>
    if c = ',' then some ⟨.obj done key :: frames, .key⟩
    else if c = '\x7d' then some (complete frames (.obj done))
    else none
  | [] => none

/-- A character that does not belong to a number. -/
def stepPlain (s : State) (c : Char) : Option State :=
  match s.mode with
  | .value => if isSpace c then some s else startValue s.frames c
  | .item =>
    if isSpace c then some s
    else if c = ']' then delimit s.frames c
    else startValue s.frames c
  | .key =>
    if isSpace c then some s
    else if c = '"' then some ⟨s.frames, .text true []⟩
    else none
  | .member =>
    if isSpace c then some s
    else if c = '"' then some ⟨s.frames, .text true []⟩
    else if c = '\x7d' then delimit s.frames c
    else none
  | .colon =>
    if isSpace c then some s
    else if c = ':' then some ⟨s.frames, .value⟩
    else none
  | .after => if isSpace c then some s else delimit s.frames c
  | .text isKey ps =>
    if c = '"' then endText s.frames isKey ps
    else if c = '\\' then some ⟨s.frames, .escape isKey ps⟩
    else if c.toNat < 0x20 then none
    else some ⟨s.frames, .text isKey (ps ++ [.char c])⟩
  | .escape isKey ps =>
    if c = 'u' then some ⟨s.frames, .hex isKey ps 0 0⟩
    else (escaped c).map fun d => ⟨s.frames, .text isKey (ps ++ [.char d])⟩
  | .hex isKey ps digits n =>
    (hexValue c).map fun d =>
      if digits = 3 then ⟨s.frames, .text isKey (ps ++ [.unit (n * 16 + d)])⟩
      else ⟨s.frames, .hex isKey ps (digits + 1) (n * 16 + d)⟩
  | .word rest v =>
    match rest with
    | [] => none
    | [d] => if c = d then some (complete s.frames v) else none
    | d :: ds => if c = d then some ⟨s.frames, .word ds v⟩ else none
  | .number _ => none
  | .finished _ => if isSpace c then some s else none

def step (s : State) (c : Char) : Option State :=
  match s.mode with
  | .number literal =>
    if isNumberChar c then some ⟨s.frames, .number (literal ++ [c])⟩
    else if isNumber literal then stepPlain (complete s.frames (.num literal)) c
    else none
  | _ => stepPlain s c

def run (s : State) : List Char → Option State
  | [] => some s
  | c :: cs => (step s c).bind fun s' => run s' cs

/-- The value a text denotes. -/
def parse (cs : List Char) : Option Value :=
  match run ⟨[], .value⟩ cs with
  | some ⟨_, .finished v⟩ => some v
  | some ⟨[], .number literal⟩ => if isNumber literal then some (.num literal) else none
  | _ => none

/-- The reader goes on after a character. -/
theorem run_cons {s s' : State} {c : Char} {cs : List Char} (h : step s c = some s') :
    run s (c :: cs) = run s' cs := by
  rw [run, h]
  rfl

/-! ## Writing a string -/

/-- A `\u` escape. -/
def unicodeEscape (n : Nat) : List Char :=
  ['\\', 'u', hexDigit (n / 4096 % 16), hexDigit (n / 256 % 16), hexDigit (n / 16 % 16),
    hexDigit (n % 16)]

/-- The characters written as a `\u` escape: controls without a short escape, the three
that HTML would read, and the two line separators of JavaScript. -/
def isEscaped (c : Char) : Bool :=
  decide (c.toNat < 0x20) || ['<', '>', '&', '\u2028', '\u2029'].contains c

def quoteChar (c : Char) : List Char :=
  if c = '"' then ['\\', '"']
  else if c = '\\' then ['\\', '\\']
  else if c = '\x08' then ['\\', 'b']
  else if c = '\x0c' then ['\\', 'f']
  else if c = '\n' then ['\\', 'n']
  else if c = '\r' then ['\\', 'r']
  else if c = '\t' then ['\\', 't']
  else if isEscaped c then unicodeEscape c.toNat
  else [c]

def quote (s : String) : List Char := '"' :: (s.toList.flatMap quoteChar ++ ['"'])

/-- An escape adds its code unit to the string. -/
theorem run_unicodeEscape {frames : List Frame} {isKey : Bool} {ps : List Piece} {n : Nat}
    (h : n < 65536) (rest : List Char) :
    run ⟨frames, .text isKey ps⟩ (unicodeEscape n ++ rest) =
      run ⟨frames, .text isKey (ps ++ [.unit n])⟩ rest := by
  have hdigit : ∀ {digits m d : Nat} {cs : List Char}, d < 16 → digits < 3 →
      run ⟨frames, .hex isKey ps digits m⟩ (hexDigit d :: cs) =
        run ⟨frames, .hex isKey ps (digits + 1) (m * 16 + d)⟩ cs := by
    intro digits m d cs hd hlt
    refine run_cons ?_
    simp only [step, stepPlain, hexValue_hexDigit hd, Option.map_some]
    rw [if_neg (by omega)]
  have hlast : ∀ {m d : Nat} {cs : List Char}, d < 16 →
      run ⟨frames, .hex isKey ps 3 m⟩ (hexDigit d :: cs) =
        run ⟨frames, .text isKey (ps ++ [.unit (m * 16 + d)])⟩ cs := by
    intro m d cs hd
    refine run_cons ?_
    simp only [step, stepPlain, hexValue_hexDigit hd, Option.map_some, if_true]
  show run ⟨frames, .hex isKey ps 0 0⟩ (hexDigit (n / 4096 % 16) :: hexDigit (n / 256 % 16) ::
    hexDigit (n / 16 % 16) :: hexDigit (n % 16) :: rest) = _
  rw [hdigit (by omega) (by omega), hdigit (by omega) (by omega), hdigit (by omega) (by omega),
    hlast (by omega)]
  have hn : (((0 * 16 + n / 4096 % 16) * 16 + n / 256 % 16) * 16 + n / 16 % 16) * 16 +
    n % 16 = n := by
    omega
  rw [hn]

/-- The part of a string a quoted character is read as. -/
def pieceOf (c : Char) : Piece :=
  if ['"', '\\', '\x08', '\x0c', '\n', '\r', '\t'].contains c then .char c
  else if isEscaped c then .unit c.toNat
  else .char c

/-- **A quoted character is read as itself.** -/
theorem run_quoteChar {frames : List Frame} {isKey : Bool} {ps : List Piece} (c : Char)
    (rest : List Char) :
    run ⟨frames, .text isKey ps⟩ (quoteChar c ++ rest) =
      run ⟨frames, .text isKey (ps ++ [pieceOf c])⟩ rest := by
  by_cases hshort : ['"', '\\', '\x08', '\x0c', '\n', '\r', '\t'].contains c
  · have hc : c = '"' ∨ c = '\\' ∨ c = '\x08' ∨ c = '\x0c' ∨ c = '\n' ∨ c = '\r' ∨ c = '\t' := by
      simpa using hshort
    rcases hc with rfl | rfl | rfl | rfl | rfl | rfl | rfl <;> rfl
  · have hne : ∀ d, ['"', '\\', '\x08', '\x0c', '\n', '\r', '\t'].contains d → c ≠ d :=
      fun d hd he => hshort (he ▸ hd)
    have hquote : quoteChar c = if isEscaped c then unicodeEscape c.toNat else [c] := by
      simp only [quoteChar, if_neg (hne '"' rfl), if_neg (hne '\\' rfl), if_neg (hne '\x08' rfl),
        if_neg (hne '\x0c' rfl), if_neg (hne '\n' rfl), if_neg (hne '\r' rfl),
          if_neg (hne '\t' rfl)]
    have hpiece : pieceOf c = if isEscaped c then .unit c.toNat else .char c := by
      simp only [pieceOf, if_neg hshort]
    rw [hquote, hpiece]
    by_cases hesc : isEscaped c
    · rw [if_pos hesc, if_pos hesc]
      refine run_unicodeEscape ?_ rest
      have hcases : c.toNat < 0x20 ∨ c = '<' ∨ c = '>' ∨ c = '&' ∨ c = '\u2028' ∨ c = '\u2029' := by
        simpa [isEscaped] using hesc
      rcases hcases with h | rfl | rfl | rfl | rfl | rfl
      · omega
      all_goals decide
    · rw [if_neg hesc, if_neg hesc]
      refine run_cons ?_
      have hprint : ¬c.toNat < 0x20 := fun h => hesc (by simp [isEscaped, h])
      simp only [step, stepPlain, if_neg (hne '"' rfl), if_neg (hne '\\' rfl), if_neg hprint]

/-- A character is no surrogate. -/
theorem not_surrogate (c : Char) : isHigh c.toNat = false ∧ isLow c.toNat = false := by
  have hvalid : c.toNat < 0xD800 ∨ 0xDFFF < c.toNat ∧ c.toNat < 0x110000 := c.valid
  simp only [isHigh, isLow, decide_eq_false_iff_not]
  omega

/-- A character that is written is read. -/
theorem unquoteFrom_pieceOf (c : Char) (ps : List Piece) :
    unquoteFrom none (pieceOf c :: ps) = c :: unquoteFrom none ps := by
  have hunit : unquoteFrom none (.unit c.toNat :: ps) = c :: unquoteFrom none ps := by
    obtain ⟨hhigh, hlow⟩ := not_surrogate c
    have hlone : lone c.toNat = c := by
      rw [lone, hhigh, hlow]
      exact Char.ofNat_toNat c
    simp only [unquoteFrom, hhigh, hlone]
    rfl
  unfold pieceOf
  split
  · rfl
  · split
    · exact hunit
    · rfl

/-- So is a whole text. -/
theorem unquote_pieces (s : String) : unquote (s.toList.map pieceOf) = s := by
  have hall : ∀ cs : List Char, unquoteFrom none (cs.map pieceOf) = cs := by
    intro cs
    induction cs with
    | nil => rfl
    | cons c cs ih => rw [List.map_cons, unquoteFrom_pieceOf, ih]
  rw [unquote, hall, String.ofList_toList]

/-- The characters of a string are collected. -/
theorem run_quoteChars {frames : List Frame} {isKey : Bool} {ps : List Piece}
    (cs rest : List Char) :
    run ⟨frames, .text isKey ps⟩ (cs.flatMap quoteChar ++ rest) =
      run ⟨frames, .text isKey (ps ++ cs.map pieceOf)⟩ rest := by
  induction cs generalizing ps with
  | nil => simp
  | cons c cs ih =>
    rw [List.flatMap_cons, List.append_assoc, run_quoteChar, ih, List.map_cons, List.append_assoc,
      List.singleton_append]

/-- **A quoted string reads as the string**, up to its closing quote. -/
theorem run_quote {frames : List Frame} {isKey : Bool} {s' : State} (s : String) (rest : List Char)
    (h : endText frames isKey (s.toList.map pieceOf) = some s') :
    run ⟨frames, .text isKey []⟩ (s.toList.flatMap quoteChar ++ '"' :: rest) = run s' rest := by
  rw [run_quoteChars, List.nil_append]
  exact run_cons h

/-! ## Putting texts together -/

/-- What may follow a value in an array or an object. -/
def isDelimiter (c : Char) : Bool := [',', ']', '\x7d'].contains c

/-- What a value may start with. -/
def isStart (c : Char) : Bool := !(isSpace c || isDelimiter c)

/-- The text, nested to the depth, reads as the value wherever a value may stand and is
followed by a delimiter. -/
structure Reads (depth : Nat) (text : List Char) (v : Value) : Prop where
  start : ∃ c cs, text = c :: cs ∧ isStart c
  run : ∀ frames c rest, frames.length + depth ≤ maxDepth → isDelimiter c →
    run ⟨frames, .value⟩ (text ++ c :: rest) = run (complete frames v) (c :: rest)

/-- A limit that is not reached may be lower. -/
theorem Reads.deeper {depth : Nat} {text : List Char} {v : Value} (h : Reads depth text v) :
    Reads (depth + 1) text v where
  start := h.start
  run frames c rest hdepth hc := h.run frames c rest (by omega) hc

/-- A string is read back. -/
theorem reads_str (s : String) : Reads 0 (quote s) (.str s) where
  start := ⟨'"', _, rfl, by decide⟩
  run frames c rest _ _ := by
    have hend : endText frames false (s.toList.map pieceOf) = some (complete frames (.str s)) := by
      show some (complete frames (.str (unquote _))) = _
      rw [unquote_pieces]
    show run ⟨frames, .text false []⟩ (s.toList.flatMap quoteChar ++ ['"'] ++ c :: rest) = _
    rw [List.append_assoc]
    exact run_quote s (c :: rest) hend

/-- The characters of a number are collected. -/
theorem run_number {frames : List Frame} {cs : List Char} (h : ∀ c ∈ cs, isNumberChar c)
    (literal rest : List Char) :
    run ⟨frames, .number literal⟩ (cs ++ rest) = run ⟨frames, .number (literal ++ cs)⟩ rest := by
  induction cs generalizing literal with
  | nil => simp
  | cons c cs ih =>
    have hstep : step ⟨frames, .number literal⟩ c = some ⟨frames, .number (literal ++ [c])⟩ := by
      simp only [step, if_pos (h c (List.mem_cons_self ..))]
    rw [List.cons_append, run_cons hstep, ih fun d hd => h d (List.mem_cons_of_mem _ hd),
      List.append_assoc, List.singleton_append]

/-- A digit or a minus starts a number. -/
theorem number_start {c : Char} (hc : c.isDigit || c == '-') (frames : List Frame) :
    isStart c ∧ step ⟨frames, .value⟩ c = some ⟨frames, .number [c]⟩ := by
  have hne : ∀ d : Char, (d.isDigit || d == '-') = false → c ≠ d := by
    rintro d hd rfl
    exact Bool.false_ne_true (hd ▸ hc)
  have hspace : isSpace c = false := by
    simp [isSpace, hne ' ' rfl, hne '\t' rfl, hne '\r' rfl, hne '\n' rfl]
  have hdelim : isDelimiter c = false := by
    simp [isDelimiter, hne ',' rfl, hne ']' rfl, hne '\x7d' rfl]
  constructor
  · simp [isStart, hspace, hdelim]
  · simp only [step, stepPlain, hspace, Bool.false_eq_true, if_false, startValue,
      if_neg (hne '"' rfl), if_neg (hne '[' rfl), if_neg (hne '\x7b' rfl), if_neg (hne 't' rfl),
      if_neg (hne 'f' rfl), if_neg (hne 'n' rfl), hc, if_true]

/-- A number is read back as its literal. -/
theorem reads_num {c : Char} {cs : List Char} (hc : c.isDigit || c == '-')
    (hcs : ∀ d ∈ cs, isNumberChar d) (hnum : isNumber (c :: cs)) :
    Reads 0 (c :: cs) (.num (c :: cs)) where
  start := ⟨c, cs, rfl, (number_start hc []).1⟩
  run frames d rest _ hd := by
    have hchar : isNumberChar d = false := by
      have hcases : d = ',' ∨ d = ']' ∨ d = '\x7d' := by simpa [isDelimiter] using hd
      rcases hcases with rfl | rfl | rfl <;> rfl
    -- the delimiter ends the number and is then read after it
    have hend : step ⟨frames, .number (c :: cs)⟩ d = step (complete frames (.num (c :: cs))) d := by
      have hplain : step ⟨frames, .number (c :: cs)⟩ d =
          stepPlain (complete frames (.num (c :: cs))) d := by
        simp only [step, hchar, hnum, Bool.false_eq_true, if_false, if_true]
      rw [hplain]
      cases frames with
      | nil => rfl
      | cons f frames => cases f <;> rfl
    rw [List.cons_append, run_cons (number_start hc frames).2, run_number hcs,
      List.singleton_append,
      JsonText.run, hend]
    rfl

/-- An integer, in decimal. -/
def decimal : Int → List Char
  | .ofNat n => Nat.toDigits 10 n
  | .negSucc n => '-' :: Nat.toDigits 10 (n + 1)

/-- Only zero has a leading zero. -/
theorem head_toDigits {n : Nat} (h : 0 < n) : ∀ c ∈ (Nat.toDigits 10 n).head?, c ≠ '0' := by
  induction n using Nat.strongRecOn with
  | ind n ih =>
    rw [Nat.toDigits_eq_if (by decide)]
    split
    · next hlt =>
      have hall : ∀ m, m < 10 → 0 < m → Nat.digitChar m ≠ '0' := by decide
      intro c hc
      obtain rfl : Nat.digitChar n = c := by simpa using hc
      exact hall n hlt h
    · next hge =>
      intro c hc
      refine ih (n / 10) (by omega) (by omega) c ?_
      rw [List.head?_append] at hc
      cases hcs : Nat.toDigits 10 (n / 10) with
      | nil => exact absurd hcs Nat.toDigits_ne_nil
      | cons d ds =>
        rw [hcs] at hc
        exact hc

/-- The digits of a number have no leading zero. -/
theorem isMagnitude_toDigits (n : Nat) : isMagnitude (Nat.toDigits 10 n) := by
  have hdigits : ∀ c ∈ Nat.toDigits 10 n, c.isDigit := fun c hc =>
    Nat.isDigit_of_mem_toDigits (by decide) (by decide) hc
  by_cases hn : n = 0
  · subst hn
    decide
  · have hhead := head_toDigits (Nat.pos_of_ne_zero hn)
    cases hcs : Nat.toDigits 10 n with
    | nil => exact absurd hcs Nat.toDigits_ne_nil
    | cons c cs =>
      rw [hcs] at hdigits hhead
      have hzero : c ≠ '0' := hhead c rfl
      have hrest : (cs ++ []).dropWhile Char.isDigit = [] :=
        List.dropWhile_append_of_pos fun d hd => hdigits d (List.mem_cons_of_mem _ hd)
      rw [List.append_nil] at hrest
      simp only [isMagnitude, if_neg hzero, hdigits c (List.mem_cons_self ..), hrest, Bool.true_and]
      rfl

/-- An integer is read back as its digits. -/
theorem reads_decimal (n : Int) : Reads 0 (decimal n) (.num (decimal n)) := by
  have hdigits : ∀ m, ∀ c ∈ Nat.toDigits 10 m, c.isDigit := fun m c hc =>
    Nat.isDigit_of_mem_toDigits (by decide) (by decide) hc
  have hchars : ∀ m, ∀ c ∈ Nat.toDigits 10 m, isNumberChar c := by
    intro m c hc
    rw [isNumberChar, hdigits m c hc]
    rfl
  cases n with
  | ofNat m =>
    have hnum := isMagnitude_toDigits m
    show Reads 0 (Nat.toDigits 10 m) (.num (Nat.toDigits 10 m))
    cases hcs : Nat.toDigits 10 m with
    | nil => exact absurd hcs Nat.toDigits_ne_nil
    | cons c cs =>
      have hc : c.isDigit = true := hdigits m c (by rw [hcs]; exact List.mem_cons_self ..)
      have hdash : c ≠ '-' := by
        rintro rfl
        exact absurd hc (by decide)
      refine reads_num (by rw [hc]; rfl) ?_ ?_
      · exact fun d hd => hchars m d (by rw [hcs]; exact List.mem_cons_of_mem _ hd)
      · rw [hcs] at hnum
        rw [isNumber.eq_2 (c :: cs) fun ds he => hdash (List.cons.inj he).1]
        exact hnum
  | negSucc m => exact reads_num rfl (hchars (m + 1)) (isMagnitude_toDigits (m + 1))

/-- Only a negative number starts with a dash. -/
theorem head_decimal {n : Int} : (decimal n).head? = some '-' ↔ n < 0 := by
  cases n with
  | ofNat m =>
    have hdigits : ∀ c ∈ Nat.toDigits 10 m, c.isDigit := fun c hc =>
      Nat.isDigit_of_mem_toDigits (by decide) (by decide) hc
    refine iff_of_false ?_ (Int.not_lt.mpr (Int.natCast_nonneg m))
    intro hhead
    exact absurd (hdigits '-' (List.mem_of_mem_head? hhead)) (by decide)
  | negSucc m => exact iff_of_true rfl (Int.negSucc_lt_zero m)

theorem decimal_ne_nil (n : Int) : decimal n ≠ [] := by
  cases n with
  | ofNat m => exact Nat.toDigits_ne_nil
  | negSucc m => exact List.cons_ne_nil _ _

/-- The texts of the items of an array, between commas. -/
inductive ReadsItems (depth : Nat) : List Char → List Value → Prop where
  | one {text : List Char} {v : Value} (h : Reads depth text v) : ReadsItems depth text [v]
  | cons {text rest : List Char} {v : Value} {vs : List Value} (h : Reads depth text v)
      (more : ReadsItems depth rest vs) : ReadsItems depth (text ++ ',' :: rest) (v :: vs)

/-- The texts with commas between them. -/
def joined : List (List Char) → List Char
  | [] => []
  | [text] => text
  | text :: texts => text ++ ',' :: joined texts

/-- A comma stands between items. -/
theorem joined_cons (text : List Char) {texts : List (List Char)} (h : texts ≠ []) :
    joined (text :: texts) = text ++ ',' :: joined texts := by
  cases texts with
  | nil => exact absurd rfl h
  | cons => rfl

/-- Strings are read as items. -/
theorem readsItems_quotes {ss : List String} (h : ss ≠ []) :
    ReadsItems 0 (joined (ss.map quote)) (ss.map .str) := by
  induction ss with
  | nil => exact absurd rfl h
  | cons s ss ih =>
    cases ss with
    | nil => exact .one (reads_str s)
    | cons s' ss => exact .cons (reads_str s) (ih (List.cons_ne_nil _ _))

/-- Items are read up to the bracket. -/
theorem ReadsItems.run {depth : Nat} {text : List Char} {vs : List Value}
    (h : ReadsItems depth text vs) {frames : List Frame}
    (hdepth : frames.length + 1 + depth ≤ maxDepth)
    (done : List Value) (rest : List Char) :
    JsonText.run ⟨.arr done :: frames, .value⟩ (text ++ ']' :: rest) =
      JsonText.run (complete frames (.arr (done ++ vs))) rest := by
  induction h generalizing done with
  | one h =>
    rw [h.run (.arr done :: frames) ']' rest hdepth rfl]
    exact run_cons rfl
  | @cons text rest' v vs h _ ih =>
    have hcomma : step (complete (.arr done :: frames) v) ',' =
        some ⟨.arr (done ++ [v]) :: frames, .value⟩ := rfl
    rw [List.append_assoc, List.cons_append, h.run (.arr done :: frames) ',' _ hdepth rfl,
      run_cons hcomma, ih, List.append_assoc, List.singleton_append]

/-- A text that opens an array starts its first item. -/
theorem ReadsItems.start {depth : Nat} {text : List Char} {vs : List Value}
    (h : ReadsItems depth text vs) : ∃ c cs, text = c :: cs ∧ isStart c := by
  cases h with
  | one h => exact h.start
  | cons h _ =>
    obtain ⟨c, cs, rfl, hc⟩ := h.start
    exact ⟨c, _, rfl, hc⟩

/-- An array is read back. -/
theorem reads_arr {depth : Nat} {text : List Char} {vs : List Value}
    (h : ReadsItems depth text vs) :
    Reads (depth + 1) ('[' :: text ++ [']']) (.arr vs) where
  start := ⟨'[', _, rfl, by decide⟩
  run frames d rest hdepth _ := by
    have hopen : step ⟨frames, .value⟩ '[' = some ⟨.arr [] :: frames, .item⟩ := by
      show push frames (.arr []) .item = _
      rw [push, if_pos (by omega)]
    obtain ⟨c, cs, rfl, hc⟩ := h.start
    -- at its first item an array is where a value may stand
    have hfirst : step ⟨.arr [] :: frames, .item⟩ c = step ⟨.arr [] :: frames, .value⟩ c := by
      have hplain : isSpace c = false ∧ c ≠ ']' := by
        simp only [isStart, Bool.not_eq_true', Bool.or_eq_false_iff] at hc
        refine ⟨hc.1, ?_⟩
        rintro rfl
        exact absurd hc.2 (by decide)
      simp only [step, stepPlain, hplain.1, Bool.false_eq_true, if_false, if_neg hplain.2]
    have hroom : frames.length + 1 + depth ≤ maxDepth := by omega
    have hitems := h.run hroom [] (d :: rest)
    rw [List.cons_append, List.cons_append, run_cons hopen, List.append_assoc, List.cons_append,
      JsonText.run, hfirst]
    exact hitems

/-- The texts of the members of an object, between commas. -/
inductive ReadsMembers (depth : Nat) : List Char → List (String × Value) → Prop where
  | one {text : List Char} {v : Value} (key : String) (h : Reads depth text v) :
      ReadsMembers depth (quote key ++ ':' :: text) [(key, v)]
  | cons {text rest : List Char} {v : Value} {vs : List (String × Value)} (key : String)
      (h : Reads depth text v) (more : ReadsMembers depth rest vs) :
      ReadsMembers depth (quote key ++ ':' :: text ++ ',' :: rest) ((key, v) :: vs)

/-- A key is read up to its colon. -/
theorem run_key {frames : List Frame} {done : List (String × Value)} {last : String} (key : String)
    (rest : List Char) :
    run ⟨.obj done last :: frames, .key⟩ (quote key ++ ':' :: rest) =
      run ⟨.obj done key :: frames, .value⟩ rest := by
  have hend : endText (.obj done last :: frames) true (key.toList.map pieceOf) =
      some ⟨.obj done key :: frames, .colon⟩ := by
    show some (⟨.obj done (unquote _) :: frames, .colon⟩ : State) = _
    rw [unquote_pieces]
  show run ⟨.obj done last :: frames, .text true []⟩
    (key.toList.flatMap quoteChar ++ ['"'] ++ ':' :: rest) = _
  rw [List.append_assoc]
  exact run_quote key (':' :: rest) hend

/-- Members are read up to the brace. -/
theorem ReadsMembers.run {depth : Nat} {text : List Char} {vs : List (String × Value)}
    (h : ReadsMembers depth text vs) {frames : List Frame}
    (hdepth : frames.length + 1 + depth ≤ maxDepth) (done : List (String × Value)) (last : String)
    (rest : List Char) :
    JsonText.run ⟨.obj done last :: frames, .key⟩ (text ++ '\x7d' :: rest) =
      JsonText.run (complete frames (.obj (done ++ vs))) rest := by
  induction h generalizing done last with
  | one key h =>
    rw [List.append_assoc, List.cons_append, run_key,
      h.run (.obj done key :: frames) '\x7d' rest hdepth rfl]
    exact run_cons rfl
  | @cons text rest' v vs key h _ ih =>
    have hcomma : step (complete (.obj done key :: frames) v) ',' =
        some ⟨.obj (done ++ [(key, v)]) key :: frames, .key⟩ := rfl
    have htext : quote key ++ ':' :: text ++ ',' :: rest' ++ '\x7d' :: rest =
        quote key ++ ':' :: (text ++ ',' :: (rest' ++ '\x7d' :: rest)) := by simp
    rw [htext, run_key, h.run (.obj done key :: frames) ',' _ hdepth rfl, run_cons hcomma, ih,
      List.append_assoc, List.singleton_append]

/-- An object is read back, whatever the last key before it was. -/
theorem run_obj {depth : Nat} {text : List Char} {vs : List (String × Value)}
    (h : ReadsMembers depth text vs) {frames : List Frame}
    (hdepth : frames.length + 1 + depth ≤ maxDepth)
    (rest : List Char) :
    run ⟨frames, .value⟩ ('\x7b' :: text ++ '\x7d' :: rest) =
      run (complete frames (.obj vs)) rest := by
  have hopen : step ⟨frames, .value⟩ '\x7b' = some ⟨.obj [] "" :: frames, .member⟩ := by
    show push frames (.obj [] "") .member = _
    rw [push, if_pos (by omega)]
  -- at its first member an object is where a key may stand
  have hfirst : run ⟨.obj [] "" :: frames, .member⟩ (text ++ '\x7d' :: rest) =
      run ⟨.obj [] "" :: frames, .key⟩ (text ++ '\x7d' :: rest) := by
    cases h with
    | one => rfl
    | cons => rfl
  rw [List.cons_append, run_cons hopen]
  exact hfirst.trans (h.run hdepth [] "" rest)

/-- **An object put together reads as the members put together.** -/
theorem parse_obj {depth : Nat} {text : List Char} {vs : List (String × Value)}
    (h : ReadsMembers depth text vs) (hdepth : depth < maxDepth) :
    parse ('\x7b' :: text ++ ['\x7d']) = some (.obj vs) := by
  have hroom : ([] : List Frame).length + 1 + depth ≤ maxDepth := by
    rw [List.length_nil]
    omega
  rw [parse, run_obj h hroom []]
  rfl

end ReleaseRadar.Lib.JsonText
