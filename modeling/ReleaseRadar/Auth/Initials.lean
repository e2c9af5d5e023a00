import ReleaseRadar.Auth.Oidc
import ReleaseRadar.Lib.Utf8

/-!
# Initials

`initials` of `handlers.go` and `initialsOf` of `oidc.go` are one text twice: `len(s)`,
`s[:2]` and `parts[0][0]` are about octets, and `initialsOf` here follows them octet by octet.
The `initials` of the handlers says what comes of that character by character, and the two are
the same function (`initials_eq_initialsOf`).

The initials of a name are about its characters (`properInitials`). `initials_iff` says when
the two agree: where the octets that are read are characters of the name. In two words the
first octet of a longer character is read as a character of Latin-1, and upper-cased it is
that of the name for `Ã` and `ã` only; in one word the second octet may cut a character, or
stand for none.
-/

namespace ReleaseRadar.Auth

open Lib Api

/-! ## The source -/

/-- `strings.ToUpper`, of a string that need not be text: what is no character is U+FFFD. -/
def toUpperOctets (env : Env) (s : List UInt8) : String :=
  String.ofList ((decodeLossy s).map env.toUpper)

/-- `string(s[0])`: the octet as a code point. -/
def octetString (s : List UInt8) : List UInt8 := encodeUtf8 [Char.ofNat (s.headD 0).toNat]

def initialsOf (env : Env) (name : String) : String :=
  match (fields name).map encodeUtf8 with
  | [] => "??"
  | [s] => if 2 ≤ s.length then toUpperOctets env (s.take 2) else toUpperOctets env s
  | first :: rest => toUpperOctets env (octetString first ++ octetString (rest.getLastD []))

/-! ## Words -/

/-- What is no separator stands in a word. -/
theorem exists_word {p : Char → Bool} {cs : List Char} {c : Char} (hc : p c = false) (h : c ∈ cs) :
    ∃ word ∈ cs.splitOnP p, c ∈ word := by
  induction cs with
  | nil => cases h
  | cons d cs ih =>
    rw [List.splitOnP_cons_eq_if_modifyHead]
    split
    · next hd =>
      rcases List.mem_cons.mp h with rfl | h
      · rw [hc] at hd
        cases hd
      · obtain ⟨word, hword, hmem⟩ := ih h
        exact ⟨word, List.mem_cons_of_mem _ hword, hmem⟩
    · obtain ⟨first, words, hwords⟩ := List.exists_cons_of_ne_nil (List.splitOnP_ne_nil p cs)
      rw [hwords] at ih ⊢
      rw [List.modifyHead_cons]
      rcases List.mem_cons.mp h with rfl | h
      · exact ⟨c :: first, List.mem_cons_self .., List.mem_cons_self ..⟩
      · obtain ⟨word, hword, hmem⟩ := ih h
        rcases List.mem_cons.mp hword with rfl | hword
        · exact ⟨d :: word, List.mem_cons_self .., List.mem_cons_of_mem _ hmem⟩
        · exact ⟨word, List.mem_cons_of_mem _ hword, hmem⟩

/-- What stands in a word stands in the text. -/
theorem mem_of_mem_word {p : Char → Bool} {cs word : List Char} {c : Char}
    (hword : word ∈ cs.splitOnP p) (hc : c ∈ word) : c ∈ cs := by
  induction cs generalizing word with
  | nil =>
    rw [List.splitOnP_nil, List.mem_singleton] at hword
    exact hword ▸ hc
  | cons d cs ih =>
    rw [List.splitOnP_cons_eq_if_modifyHead] at hword
    split at hword
    · rcases List.mem_cons.mp hword with rfl | hword
      · cases hc
      · exact List.mem_cons_of_mem _ (ih hword hc)
    · obtain ⟨first, words, hwords⟩ := List.exists_cons_of_ne_nil (List.splitOnP_ne_nil p cs)
      rw [hwords, List.modifyHead_cons] at hword
      rw [hwords] at ih
      rcases List.mem_cons.mp hword with rfl | hword
      · rcases List.mem_cons.mp hc with rfl | hc
        · exact List.mem_cons_self ..
        · exact List.mem_cons_of_mem _ (ih (List.mem_cons_self ..) hc)
      · exact List.mem_cons_of_mem _ (ih (List.mem_cons_of_mem _ hword) hc)

/-- `strings.Fields` has no empty word. -/
theorem word_ne_nil {name : String} {word : List Char} (h : word ∈ fields name) : word ≠ [] := by
  have := (List.mem_filter.mp h).2
  rintro rfl
  cases this

/-- A name that is not blank has a word. -/
theorem fields_ne_nil {name : String} (h : ∃ c ∈ name.toList, isSpace c = false) :
    fields name ≠ [] := by
  obtain ⟨c, hc, hspace⟩ := h
  obtain ⟨word, hword, hmem⟩ := exists_word hspace hc
  refine List.ne_nil_of_mem (a := word) (List.mem_filter.mpr ⟨hword, ?_⟩)
  cases word with
  | nil => cases hmem
  | cons => rfl

/-! ## The octets that are read -/

/-- A character of one octet. -/
def isAscii (c : Char) : Bool := decide (c.toNat < 0x80)

/-- One octet: ASCII. -/
theorem utf8Size_eq_one_iff (c : Char) : c.utf8Size = 1 ↔ isAscii c = true := by
  rw [Char.utf8Size_eq_one_iff, UInt32.le_iff_toNat_le, isAscii, decide_eq_true_eq]
  show c.toNat ≤ 127 ↔ _
  omega

/-- An ASCII character is its octet. -/
theorem utf8EncodeChar_ascii {c : Char} (h : isAscii c = true) :
    ∃ b : UInt8, String.utf8EncodeChar c = [b] ∧ Char.ofNat b.toNat = c := by
  have hsize := (utf8Size_eq_one_iff c).mpr h
  obtain ⟨b, hb⟩ := List.length_eq_one_iff.mp ((String.length_utf8EncodeChar c).trans hsize)
  refine ⟨b, hb, ?_⟩
  have hc : c.toNat < 0x80 := of_decide_eq_true h
  have hlt : b.toNat < 0x80 := by
    rw [String.utf8EncodeChar_eq_singleton hsize] at hb
    rw [← (List.cons.inj hb).1]
    have : c.val.toUInt8.toNat = c.toNat % 256 := UInt32.toNat_toUInt8 c.val
    omega
  rw [← toNat_of_mem_utf8EncodeChar hlt (hb ▸ List.mem_singleton_self b)]
  exact Char.ofNat_toNat c

/-- The octet of `s[1:2]`. -/
theorem decodeLossy_one (d : Char) (ds : List Char) :
    decodeLossy ((encodeUtf8 (d :: ds)).take 1) = [if d.utf8Size = 1 then d else '\ufffd'] := by
  have hlen : (String.utf8EncodeChar d).length = d.utf8Size := String.length_utf8EncodeChar d
  have henc : encodeUtf8 (d :: ds) = String.utf8EncodeChar d ++ encodeUtf8 ds := List.flatMap_cons
  obtain ⟨y, ys, hd, -⟩ := utf8EncodeChar_octets d
  rw [hd, List.length_cons] at hlen
  rw [henc, hd]
  show decodeLossy [y] = _
  split
  · next hsize =>
    have hys : ys = [] := List.length_eq_zero_iff.mp (by omega)
    have hone : [y] = encodeUtf8 [d] := by
      rw [encodeUtf8, List.flatMap_cons, hd, hys]
      rfl
    rw [hone, decodeLossy_encodeUtf8]
  · next hsize =>
    have hys : ys ≠ [] := fun he => hsize (by rw [← hlen, he]; rfl)
    have hcut : String.utf8EncodeChar d = [y] ++ ys := hd
    exact decodeLossy_cut hcut hys

/-- The two octets of `s[:2]`. -/
theorem decodeLossy_two (word : List Char) :
    decodeLossy ((encodeUtf8 word).take 2) = firstTwoOctets word := by
  cases word with
  | nil => rfl
  | cons c cs =>
    have hlen : (String.utf8EncodeChar c).length = c.utf8Size := String.length_utf8EncodeChar c
    have henc : encodeUtf8 (c :: cs) = String.utf8EncodeChar c ++ encodeUtf8 cs := List.flatMap_cons
    have hself : String.utf8EncodeChar c = encodeUtf8 [c] := (List.append_nil _).symm
    rw [henc]
    match hsize : c.utf8Size, c.utf8Size_pos, c.utf8Size_le_four with
    | 1, _, _ =>
      have htake : (String.utf8EncodeChar c ++ encodeUtf8 cs).take 2 =
          encodeUtf8 [c] ++ (encodeUtf8 cs).take 1 := by
        rw [List.take_append, hlen, hsize, List.take_of_length_le (by omega), ← hself]
      rw [htake, decodeLossy_append]
      cases cs with
      | nil => simp [firstTwoOctets, hsize, encodeUtf8, decodeLossy, decodeLossyFrom]
      | cons d ds => simp [firstTwoOctets, hsize, decodeLossy_one]
    | 2, _, _ =>
      rw [List.take_append_of_le_length (by omega), List.take_of_length_le (by omega), hself,
        decodeLossy_encodeUtf8]
      simp [firstTwoOctets, hsize]
    | 3, _, _ | 4, _, _ =>
      -- the character goes on behind the two
      have hrest : (String.utf8EncodeChar c).drop 2 ≠ [] := by
        refine List.ne_nil_of_length_pos ?_
        rw [List.length_drop]
        omega
      have hcut := decodeLossy_cut (List.take_append_drop 2 (String.utf8EncodeChar c)).symm hrest
      rw [List.take_append_of_le_length (by omega), hcut, List.length_take, hlen, hsize]
      simp [firstTwoOctets, hsize]

/-- The first octet of a word, read as a string. -/
theorem octetString_word {word : List Char} (h : word ≠ []) :
    octetString (encodeUtf8 word) = encodeUtf8 (firstOctet word) := by
  obtain ⟨c, cs, rfl⟩ := List.exists_cons_of_ne_nil h
  obtain ⟨b, bs, hb, -⟩ := utf8EncodeChar_octets c
  have henc : encodeUtf8 (c :: cs) = String.utf8EncodeChar c ++ encodeUtf8 cs := List.flatMap_cons
  rw [octetString, henc, firstOctet, hb]
  rfl

/-- **The two sources are one function.** -/
theorem initials_eq_initialsOf (env : Env) (name : String) :
    initials env name = initialsOf env name := by
  unfold initials initialsOf
  cases hwords : fields name with
  | nil => rfl
  | cons word words =>
    have hne : ∀ w ∈ word :: words, w ≠ [] := fun w hw => word_ne_nil (hwords ▸ hw)
    cases words with
    | nil =>
      show String.ofList _ = if _ then _ else _
      have hshort : ¬ 2 ≤ (encodeUtf8 word).length → (encodeUtf8 word).take 2 = encodeUtf8 word :=
        fun h => List.take_of_length_le (by omega)
      split
      · rw [toUpperOctets, decodeLossy_two]
      · next h => rw [toUpperOctets, ← hshort h, decodeLossy_two]
    | cons next words =>
      have hlast : (next :: words).getLastD [] ≠ [] := by
        rw [List.getLastD_eq_getLast?, List.getLast?_eq_some_getLast (List.cons_ne_nil next words)]
        exact hne _ (List.mem_cons_of_mem _ (List.getLast_mem _))
      have hmap : ((next :: words).map encodeUtf8).getLastD [] =
          encodeUtf8 ((next :: words).getLastD []) := by
        rw [List.getLastD_eq_getLast?, List.getLast?_map, List.getLastD_eq_getLast?,
          List.getLast?_eq_some_getLast (List.cons_ne_nil next words)]
        rfl
      show String.ofList _ = toUpperOctets env
        (_ ++ octetString (((next :: words).map encodeUtf8).getLastD []))
      rw [hmap, octetString_word (hne word (List.mem_cons_self ..)), octetString_word hlast,
        toUpperOctets,
        ← decodeLossy_encodeUtf8 (firstOctet word ++ firstOctet ((next :: words).getLastD []))]
      simp only [encodeUtf8, List.flatMap_append]

/-! ## The initials of a name -/

/-- Two words give the first character of the first and of the last, one word its first two. -/
def properInitials (env : Env) (name : String) : String :=
  match fields name with
  | [] => ""
  | [word] => String.ofList ((word.take 2).map env.toUpper)
  | word :: words => String.ofList ((word.take 1 ++ (words.getLastD []).take 1).map env.toUpper)

/-- The text is the initials of the name, of characters of its own. -/
structure IsInitials (env : Env) (name out : String) : Prop where
  proper : out = properInitials env name
  noReplacement : '\ufffd' ∉ out.toList
  own : ∀ c ∈ out.toList, ∃ d ∈ name.toList, c = env.toUpper d

/-- The upper case of a code point of Latin-1, in the Unicode data. -/
def latin1Upper (n : Nat) : Nat :=
  if 0x61 ≤ n ∧ n ≤ 0x7A ∨ 0xE0 ≤ n ∧ n ≤ 0xFE ∧ n ≠ 0xF7 then n - 0x20
  else if n = 0xB5 then 0x39C
  else if n = 0xFF then 0x178
  else n

/-- What the Unicode data say of simple upper-casing: Latin-1 is as tabled, no character
beyond it has its upper case in the second half of Latin-1, and U+FFFD has no case. -/
structure SimpleUpper (toUpper : Char → Char) : Prop where
  latin1 : ∀ c : Char, c.toNat < 0x100 → (toUpper c).toNat = latin1Upper c.toNat
  beyond : ∀ c : Char, 0x100 ≤ c.toNat → (toUpper c).toNat < 0x80 ∨ 0x100 ≤ (toUpper c).toNat
  replacement : ∀ c, toUpper c = '\ufffd' ↔ c = '\ufffd'

/-- A first character whose first octet, as a character of Latin-1, has its upper case. -/
def leadsWord (c : Char) : Bool := isAscii c || c == 'Ã' || c == 'ã'

/-- The octets that are read are characters of the word. -/
def readable : List (List Char) → Bool
  | [] => false
  | [word] =>
    match word with
    | [] => false
    | [c] => decide (c.utf8Size ≤ 2)
    | c :: d :: _ => isAscii c && isAscii d
  | word :: words => word.head?.any leadsWord && (words.getLastD []).head?.any leadsWord

/-! ## Two words -/

/-- The first octet of a character that is not ASCII. -/
theorem firstOctet_long {c : Char} (cs : List Char) (h : isAscii c = false) :
    ∃ n, firstOctet (c :: cs) = [Char.ofNat n] ∧ 0xC2 ≤ n ∧ n < 0xF5 ∧
      (c.toNat < 0x100 → n = 0xC0 + c.toNat / 64) := by
  have hc : 0x80 ≤ c.toNat := by simpa [isAscii] using h
  have hvalid : c.toNat < 0x110000 := by
    have := c.valid
    simp only [UInt32.isValidChar, Nat.isValidChar] at this
    change c.val.toNat < _
    omega
  have hread : ∀ {n : Nat} {bs : List UInt8}, n < 256 →
      (((UInt8.ofNat n :: bs).head?).map fun b => Char.ofNat b.toNat).toList = [Char.ofNat n] := by
    intro n bs hn
    have hoctet : (UInt8.ofNat n).toNat = n := UInt8.toNat_ofNat_of_lt' (by simpa using hn)
    rw [List.head?_cons, Option.map_some, Option.toList_some, hoctet]
  have hval : c.val.toNat = c.toNat := rfl
  unfold firstOctet String.utf8EncodeChar
  dsimp only
  rw [hval]
  split
  · omega
  · split
    · refine ⟨_, hread (by omega), ?_⟩
      omega
    · split
      · refine ⟨_, hread (by omega), ?_⟩
        omega
      · refine ⟨_, hread (by omega), ?_⟩
        omega

/-- Latin-1 characters are their code points. -/
theorem toNat_ofNat_latin1 : ∀ n < 0x100, (Char.ofNat n).toNat = n := by decide +kernel

theorem char_eq_iff {c d : Char} : c = d ↔ c.toNat = d.toNat :=
  ⟨fun h => h ▸ rfl, fun h => Char.ext (UInt32.toNat.inj h)⟩

section Iff

variable {env : Env}

/-- **The first octet is right** for ASCII, and for the two letters it happens to stand for. -/
theorem firstOctet_upper (hU : SimpleUpper env.toUpper) (c : Char) (cs : List Char) :
    (firstOctet (c :: cs)).map env.toUpper = [env.toUpper c] ↔ leadsWord c = true := by
  cases hascii : isAscii c with
  | true =>
    obtain ⟨b, hb, hc⟩ := utf8EncodeChar_ascii hascii
    refine iff_of_true ?_ (by simp [leadsWord, hascii])
    rw [firstOctet, hb]
    show [env.toUpper (Char.ofNat b.toNat)] = _
    rw [hc]
  | false =>
    obtain ⟨n, hn, hlow, hhigh, hlatin⟩ := firstOctet_long cs hascii
    have hc : 0x80 ≤ c.toNat := by simpa [isAscii] using hascii
    have hnat : (Char.ofNat n).toNat = n := toNat_ofNat_latin1 n (by omega)
    have hupper : (env.toUpper (Char.ofNat n)).toNat = latin1Upper n := by
      rw [hU.latin1 _ (by omega), hnat]
    rw [hn, List.map_singleton, List.singleton_inj, char_eq_iff, hupper]
    have hleads : leadsWord c = true ↔ c.toNat = 0xC3 ∨ c.toNat = 0xE3 := by
      simp only [leadsWord, hascii, Bool.false_or, Bool.or_eq_true, beq_iff_eq, char_eq_iff]
      rfl
    rw [hleads]
    rcases Nat.lt_or_ge c.toNat 0x100 with hsmall | hlarge
    · rw [hU.latin1 c hsmall]
      have := hlatin hsmall
      unfold latin1Upper
      split_ifs <;> omega
    · have := hU.beyond c hlarge
      unfold latin1Upper
      split_ifs <;> omega

/-- A character is upper-cased to U+FFFD only if it is U+FFFD. -/
theorem replacement_mem_map (hU : SimpleUpper env.toUpper) {cs : List Char} :
    '\ufffd' ∈ cs.map env.toUpper ↔ '\ufffd' ∈ cs := by
  rw [List.mem_map]
  constructor
  · rintro ⟨c, hc, he⟩
    rwa [(hU.replacement c).mp he] at hc
  · exact fun h => ⟨_, h, (hU.replacement _).mpr rfl⟩

/-- One octet is one character, a replacement if need be. -/
theorem length_firstOctet (c : Char) (cs : List Char) : (firstOctet (c :: cs)).length = 1 := by
  obtain ⟨b, bs, hb, -⟩ := utf8EncodeChar_octets c
  rw [firstOctet, hb]
  rfl

/-- A character that may lead a word is no replacement. -/
theorem ne_replacement_of_leadsWord {c : Char} (h : leadsWord c = true) : c ≠ '\ufffd' := by
  rintro rfl
  exact absurd h (by decide)

/-- Two words give their first letters exactly if both letters may lead. -/
theorem firstOctets_iff (hU : SimpleUpper env.toUpper) (c d : Char) (cs ds : List Char) :
    ((firstOctet (c :: cs) ++ firstOctet (d :: ds)).map env.toUpper =
        ((c :: cs).take 1 ++ (d :: ds).take 1).map env.toUpper ∧
      '\ufffd' ∉ (c :: cs).take 1 ++ (d :: ds).take 1) ↔ (leadsWord c && leadsWord d) = true := by
  have htake : ∀ (x : Char) (xs : List Char), (x :: xs).take 1 = [x] := fun _ _ => rfl
  rw [htake, htake, List.map_append, List.map_append, Bool.and_eq_true, ← firstOctet_upper hU c cs,
    ← firstOctet_upper hU d ds]
  constructor
  · rintro ⟨h, -⟩
    exact List.append_inj h (by rw [List.length_map, length_firstOctet]; rfl)
  · rintro ⟨hc, hd⟩
    refine ⟨by rw [hc, hd]; rfl, ?_⟩
    have hcne := ne_replacement_of_leadsWord ((firstOctet_upper hU c cs).mp hc)
    have hdne := ne_replacement_of_leadsWord ((firstOctet_upper hU d ds).mp hd)
    simp [hcne.symm, hdne.symm]

/-- Characters of the name, upper-cased, are the initials where they are what is asked for. -/
theorem isInitials_map_iff (hU : SimpleUpper env.toUpper) {name : String} {got proper : List Char}
    (hproper : properInitials env name = String.ofList (proper.map env.toUpper))
    (hown : ∀ c ∈ proper, c ∈ name.toList) :
    IsInitials env name (String.ofList (got.map env.toUpper)) ↔
      got.map env.toUpper = proper.map env.toUpper ∧ '\ufffd' ∉ proper := by
  constructor
  · intro h
    have heq : got.map env.toUpper = proper.map env.toUpper :=
      String.ofList_inj.mp (h.proper.trans hproper)
    refine ⟨heq, fun hm => h.noReplacement ?_⟩
    rw [String.toList_ofList, heq]
    exact (replacement_mem_map hU).mpr hm
  · rintro ⟨heq, hno⟩
    refine ⟨by rw [hproper, heq], ?_, ?_⟩
    · rw [String.toList_ofList, heq, replacement_mem_map hU]
      exact hno
    · rw [String.toList_ofList, heq]
      intro c hc
      obtain ⟨d, hd, rfl⟩ := List.mem_map.mp hc
      exact ⟨d, hown d hd, rfl⟩

/-! ## One word -/

/-- An ASCII character is no replacement. -/
theorem ne_replacement_of_isAscii {c : Char} (h : isAscii c = true) : c ≠ '\ufffd' := by
  rintro rfl
  exact absurd h (by decide)

/-- A single letter is kept if it has at most two octets. -/
theorem firstTwoOctets_single_iff (c : Char) :
    ((firstTwoOctets [c]).map env.toUpper = [c].map env.toUpper ∧ '\ufffd' ∉ [c]) ↔
      c.utf8Size ≤ 2 := by
  match hsize : c.utf8Size, c.utf8Size_pos, c.utf8Size_le_four with
  | 1, _, _ | 2, _, _ =>
    have hne : c ≠ '\ufffd' := by
      rintro rfl
      exact absurd hsize (by decide)
    simp [firstTwoOctets, hsize, hne.symm]
  | 3, _, _ | 4, _, _ => simp [firstTwoOctets, hsize]

/-- The first two letters are kept if both are ASCII. -/
theorem firstTwoOctets_pair_iff (hU : SimpleUpper env.toUpper) (c d : Char) (cs : List Char) :
    ((firstTwoOctets (c :: d :: cs)).map env.toUpper = [c, d].map env.toUpper ∧ '\ufffd' ∉ [c, d]) ↔
      (isAscii c && isAscii d) = true := by
  have hc := utf8Size_eq_one_iff c
  have hd := utf8Size_eq_one_iff d
  match hsize : c.utf8Size, c.utf8Size_pos, c.utf8Size_le_four with
  | 1, _, _ =>
    have hascii : isAscii c = true := hc.mp hsize
    have hne := ne_replacement_of_isAscii hascii
    by_cases hone : d.utf8Size = 1
    · have hne' := ne_replacement_of_isAscii (hd.mp hone)
      simp [firstTwoOctets, hsize, hone, hascii, hd.mp hone, hne.symm, hne'.symm]
    · -- the second octet stands for no character
      have hlong : isAscii d = false := Bool.eq_false_iff.mpr fun h => hone (hd.mpr h)
      have hup : env.toUpper '\ufffd' = '\ufffd' := (hU.replacement _).mpr rfl
      simp only [firstTwoOctets, hsize, hone, if_false, hascii, hlong, List.map_cons, List.map_nil,
        List.cons.injEq, true_and, and_true, hup, Bool.true_and, Bool.false_eq_true, iff_false]
      rintro ⟨he, hno⟩
      exact hno (by rw [(hU.replacement d).mp he.symm]; simp)
  | 2, _, _ =>
    have hlong : isAscii c = false := Bool.eq_false_iff.mpr fun h => by
      have := hc.mpr h
      omega
    simp [firstTwoOctets, hsize, hlong]
  | 3, _, _ | 4, _, _ =>
    have hlong : isAscii c = false := Bool.eq_false_iff.mpr fun h => by
      have := hc.mpr h
      omega
    have hup : env.toUpper '\ufffd' = '\ufffd' := (hU.replacement _).mpr rfl
    simp only [firstTwoOctets, hsize, List.map_cons, List.map_nil, hup, hlong, Bool.false_and,
      Bool.false_eq_true, iff_false]
    rintro ⟨he, hno⟩
    exact hno (by rw [(hU.replacement c).mp (List.cons.inj he).1.symm]; simp)

/-! ## The law -/

/-- **The initials are the initials** where the octets that are read are characters of the
name. -/
theorem initials_iff (env : Env) (hU : SimpleUpper env.toUpper) (name : String)
    (hname : ∃ c ∈ name.toList, isSpace c = false) :
    initials env name = initialsOf env name ∧
      (IsInitials env name (initials env name) ↔ readable (fields name) = true) := by
  refine ⟨initials_eq_initialsOf env name, ?_⟩
  have hne := fields_ne_nil hname
  have hwords : ∀ word ∈ fields name, ∀ c ∈ word, c ∈ name.toList := fun word hword c hc =>
    mem_of_mem_word (List.mem_filter.mp hword).1 hc
  have hnil : ∀ word ∈ fields name, word ≠ [] := fun word => word_ne_nil
  unfold initials
  have hproper : properInitials env name = properInitials env name := rfl
  conv at hproper => rhs; unfold properInitials
  cases hfields : fields name with
  | nil => exact absurd hfields hne
  | cons word words =>
    rw [hfields] at hwords hnil hproper
    cases words with
    | nil =>
      have hword := hwords word (List.mem_cons_self ..)
      refine (isInitials_map_iff hU hproper fun c hc => hword c (List.mem_of_mem_take hc)).trans ?_
      match word with
      | [] => exact absurd rfl (hnil [] (List.mem_cons_self ..))
      | [c] =>
        rw [show readable [[c]] = decide (c.utf8Size ≤ 2) from rfl, decide_eq_true_eq]
        exact firstTwoOctets_single_iff c
      | c :: d :: cs => exact firstTwoOctets_pair_iff hU c d cs
    | cons next words =>
      have hmem : (next :: words).getLastD [] ∈ word :: next :: words := by
        rw [List.getLastD_eq_getLast?, List.getLast?_eq_some_getLast (List.cons_ne_nil next words)]
        exact List.mem_cons_of_mem _ (List.getLast_mem _)
      have hword := hwords word (List.mem_cons_self ..)
      have hlast := hwords _ hmem
      refine (isInitials_map_iff hU hproper fun c hc => ?_).trans ?_
      · exact (List.mem_append.mp hc).elim (fun h => hword c (List.mem_of_mem_take h))
          fun h => hlast c (List.mem_of_mem_take h)
      · show _ ↔ (word.head?.any leadsWord &&
          ((next :: words).getLastD []).head?.any leadsWord) = true
        obtain ⟨c, cs, rfl⟩ := List.exists_cons_of_ne_nil (hnil word (List.mem_cons_self ..))
        obtain ⟨d, ds, hd⟩ := List.exists_cons_of_ne_nil (hnil _ hmem)
        rw [hd]
        exact firstOctets_iff hU c d cs ds

end Iff

/-! ## Names -/

/-- Upper-casing in Latin-1, which is all that the names below need. -/
def latin1ToUpper (c : Char) : Char :=
  if c.toNat < 0x100 then Char.ofNat (latin1Upper c.toNat) else c

private def latin1Env : Env := ⟨0, 0, "01234567", latin1ToUpper, id, fun _ => 0⟩

theorem simpleUpper_latin1ToUpper : SimpleUpper latin1ToUpper where
  latin1 c hc := by
    have hall : ∀ n < 0x100, (Char.ofNat (latin1Upper n)).toNat = latin1Upper n := by decide +kernel
    rw [latin1ToUpper, if_pos hc]
    exact hall _ hc
  beyond c hc := by
    rw [latin1ToUpper, if_neg (by omega)]
    exact Or.inr hc
  replacement c := by
    have hall : ∀ n < 0x100, Char.ofNat (latin1Upper n) ≠ '\ufffd' := by decide +kernel
    unfold latin1ToUpper
    split
    · next hc =>
      refine iff_of_false (hall _ hc) ?_
      rintro rfl
      exact absurd hc (by decide)
    · rfl

/-- Umlauts inside a name do no harm. -/
theorem initials_iff_inside : IsInitials latin1Env "ann müller" (initials latin1Env "ann müller") :=
  (initials_iff latin1Env simpleUpper_latin1ToUpper "ann müller" ⟨'a', by decide, by decide⟩).2.mpr
    (by decide)

/-- **An umlaut in front**: the first octet of `Ö` is read as `Ã`. -/
theorem umlaut_in_front :
    initials latin1Env "Örs Émile" = "ÃÃ" ∧ initialsOf latin1Env "Örs Émile" = "ÃÃ" ∧
      properInitials latin1Env "Örs Émile" = "ÖÉ" ∧
      ¬ IsInitials latin1Env "Örs Émile" (initials latin1Env "Örs Émile") := by
  have h : initials latin1Env "Örs Émile" = "ÃÃ" := by decide
  have hproper : properInitials latin1Env "Örs Émile" = "ÖÉ" := by decide
  refine ⟨h, by rw [← initials_eq_initialsOf, h], hproper, fun hi => ?_⟩
  have := hi.proper
  rw [h, hproper] at this
  exact absurd this (by decide)

end ReleaseRadar.Auth
