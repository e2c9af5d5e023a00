import Mathlib.Data.List.DropRight
import Mathlib.Data.List.Flatten
import ReleaseRadar.Lib.Hex
import ReleaseRadar.Lib.Utf8

/-!
# The path of a URL

What becomes of the path of a URL between the text that a page puts together and the segments
that a server reads. The browser takes the text apart as the URL standard says: control
characters at the ends and tabs and line breaks go, `?` and `#` end the path, a backslash is a
slash, dot segments are resolved, and what may not stand in a path is percent-encoded, but not
the percent sign. The server (`net/url` and the `ServeMux` of `net/http`) turns a path down whose
percent signs are no escapes, sends a client elsewhere whose path is not clean, and reads the
segments of the others without their escapes.

`received_ofSegments_iff` says which segments, put into a path as they are, come through. The
URL is relative to the origin of the page: its text starts with one slash.
-/

namespace ReleaseRadar.Lib.Url

/-- A path of these segments, each as it is. -/
def ofSegments {α : Type} (slash : α) (segs : List (List α)) : List α :=
  segs.flatMap (slash :: ·)

/-! ## What the browser makes of it -/

/-- A C0 control or a space. -/
def isMargin (c : Char) : Bool := c.toNat ≤ 0x20

def isTabOrNewline (c : Char) : Bool := c == '\t' || c == '\n' || c == '\r'

/-- The text without the margin at its ends, and without tabs and line breaks. -/
def cleaned (text : List Char) : List Char :=
  ((text.dropWhile isMargin).rdropWhile isMargin).filter fun c => !isTabOrNewline c

/-- Here a query or a fragment begins. -/
def endsPath (c : Char) : Bool := c == '?' || c == '#'

def pathText (text : List Char) : List Char := (cleaned text).takeWhile fun c => !endsPath c

/-- In the URL of a web page both slashes are one. -/
def slashed (c : Char) : Char := if c = '\\' then '/' else c

/-- A dot as a URL may spell it. -/
def dots : List (List Char) := [['.'], ['%', '2', 'e'], ['%', '2', 'E']]

def isSingleDot (seg : List Char) : Bool := dots.contains seg

def isDoubleDot (seg : List Char) : Bool := dots.any fun a => dots.any fun b => seg == a ++ b

/-- The path state: the segments so far, and those to come. A dot segment at the end leaves an
empty one. -/
def resolveDots (path : List (List Char)) : List (List Char) → List (List Char)
  | [] => path
  | [seg] =>
    if isDoubleDot seg then path.dropLast ++ [[]]
    else if isSingleDot seg then path ++ [[]]
    else path ++ [seg]
  | seg :: segs =>
    if isDoubleDot seg then resolveDots path.dropLast segs
    else if isSingleDot seg then resolveDots path segs
    else resolveDots (path ++ [seg]) segs

/-- The path percent-encode set. -/
def inPathSet (c : Char) : Bool :=
  c.toNat < 0x20 || 0x7e < c.toNat || [' ', '"', '#', '<', '>', '?', '^', '`', '{', '}'].contains c

def percent (b : UInt8) : List Char :=
  ['%', (hexDigit (b.toNat / 16)).toUpper, (hexDigit (b.toNat % 16)).toUpper]

def encodeChar (c : Char) : List Char :=
  if inPathSet c then (String.utf8EncodeChar c).flatMap percent else [c]

/-- The segments of the path, before they are encoded. -/
def segments (text : List Char) : List (List Char) :=
  resolveDots [] ((((pathText text).map slashed).splitOn '/').drop 1)

/-- The segments of the path in the request. -/
def sent (text : List Char) : List (List Char) := (segments text).map (·.flatMap encodeChar)

/-! ## What the server reads -/

/-- The octets of a path without its escapes. -/
def unescape : List Char → Option (List UInt8)
  | [] => some []
  | '%' :: a :: b :: cs =>
    match hexValue a, hexValue b with
    | some h, some l => (unescape cs).map (UInt8.ofNat (16 * h + l) :: ·)
    | _, _ => none
  | c :: cs => if c = '%' then none else (unescape cs).map (String.utf8EncodeChar c ++ ·)

/-- A character that `validEncoded` leaves in a path. -/
def isValid (c : Char) : Bool :=
  c.isAlphanum || "-_.~$&+,/:;=@!'()*[]%".toList.contains c

/-- The octet of a slash. -/
def slash : UInt8 := 0x2F

/-- `cleanPath` does not change a path of these segments. -/
def isClean (segs : List (List UInt8)) : Bool :=
  segs.all (fun seg => seg ≠ [0x2E] ∧ seg ≠ [0x2E, 0x2E]) && segs.dropLast.all (· ≠ [])

/-- The segments as the multiplexer reads them. A path that holds what it may not is escaped
anew, so that its segments are those of the octets. -/
def read (segs : List (List Char)) : Option (List (List UInt8)) :=
  (unescape (ofSegments '/' segs)).bind fun path =>
    if (ofSegments '/' segs).all isValid then
      if isClean (segs.map encodeUtf8) then segs.mapM unescape else none
    else if isClean ((path.splitOn slash).drop 1) then some ((path.splitOn slash).drop 1) else none

/-- What a server reads of a URL. -/
def received (text : List Char) : Option (List (List UInt8)) := read (sent text)

/-! ## Segments -/

section Segments

variable {α : Type} {sep : α}

/-- Segments one after the other. -/
theorem ofSegments_append (segs segs' : List (List α)) :
    ofSegments sep (segs ++ segs') = ofSegments sep segs ++ ofSegments sep segs' :=
  List.flatMap_append

/-- A slash between segments is a slash before each but the first. -/
theorem intercalate_cons (first : List α) (segs : List (List α)) :
    [sep].intercalate (first :: segs) = first ++ ofSegments sep segs := by
  induction segs generalizing first with
  | nil =>
    rw [List.intercalate_singleton]
    exact (List.append_nil first).symm
  | cons seg segs ih =>
    rw [List.intercalate_cons_cons, ih]
    simp [ofSegments]

/-- Segments without a slash are found again. -/
theorem splitOn_ofSegments [BEq α] [LawfulBEq α] {segs : List (List α)}
    (h : ∀ seg ∈ segs, sep ∉ seg) : (ofSegments sep segs).splitOn sep = [] :: segs := by
  have hnot : ∀ seg ∈ [] :: segs, sep ∉ seg := by
    intro seg hseg
    rcases List.mem_cons.mp hseg with rfl | hseg
    · exact List.not_mem_nil
    · exact h seg hseg
  have hsplit := List.splitOn_intercalate sep hnot (List.cons_ne_nil _ _)
  rw [intercalate_cons, List.nil_append] at hsplit
  exact hsplit

/-- What comes before the first slash is the first piece, and the others are the segments. -/
theorem exists_splitOn [BEq α] [LawfulBEq α] (sep : α) (cs : List α) :
    ∃ first segs, cs.splitOn sep = first :: segs ∧ first ++ ofSegments sep segs = cs := by
  obtain ⟨first, segs, hsplit⟩ := List.exists_cons_of_ne_nil (List.splitOn_ne_nil sep cs)
  refine ⟨first, segs, hsplit, ?_⟩
  rw [← intercalate_cons, ← hsplit, List.intercalate_splitOn]

/-- A segment that was found has no slash. -/
theorem not_mem_of_mem_splitOn [BEq α] [LawfulBEq α] {cs seg : List α} (h : seg ∈ cs.splitOn sep) :
    sep ∉ seg := by
  induction cs generalizing seg with
  | nil =>
    obtain rfl := List.mem_singleton.mp h
    exact List.not_mem_nil
  | cons c cs ih =>
    rw [List.splitOn_cons_eq_if_modifyHead] at h
    split at h
    · rcases List.mem_cons.mp h with rfl | h
      · exact List.not_mem_nil
      · exact ih h
    · next hne =>
      obtain ⟨first, segs, hsplit⟩ := List.exists_cons_of_ne_nil (List.splitOn_ne_nil sep cs)
      rw [hsplit] at h ih
      rcases List.mem_cons.mp h with rfl | h
      · intro hm
        rcases List.mem_cons.mp hm with rfl | hm
        · exact hne (beq_self_eq_true _)
        · exact ih List.mem_cons_self hm
      · exact ih (List.mem_cons_of_mem _ h)

end Segments

/-! ## Octets -/

/-- The length of a text in octets. -/
def weight (cs : List Char) : Nat := (encodeUtf8 cs).length

@[simp] theorem weight_append (a b : List Char) : weight (a ++ b) = weight a + weight b := by
  unfold weight encodeUtf8
  rw [List.flatMap_append, List.length_append]

/-- Two texts with the same octets are the same. -/
theorem encodeUtf8_injective {a b : List Char} (h : encodeUtf8 a = encodeUtf8 b) : a = b := by
  have ha := decodeUtf8_encodeUtf8 a
  rw [h, decodeUtf8_encodeUtf8] at ha
  exact (Option.some.inj ha).symm

/-- A part of a text is shorter, or all of it. -/
theorem weight_sublist {a b : List Char} (h : a.Sublist b) :
    weight a ≤ weight b ∧ (weight a = weight b → a = b) := by
  have hoctets : (encodeUtf8 a).Sublist (encodeUtf8 b) := h.flatMap _
  exact ⟨hoctets.length_le, fun he => encodeUtf8_injective (hoctets.eq_of_length he)⟩

/-- Both slashes are one octet. -/
theorem weight_slashed (cs : List Char) : weight (cs.map slashed) = weight cs := by
  induction cs with
  | nil => rfl
  | cons c cs ih =>
    have hc : weight [slashed c] = weight [c] := by
      unfold slashed
      split
      · next he =>
        rw [he]
        rfl
      · rfl
    have hcons := weight_append [slashed c] (cs.map slashed)
    rw [hc, ih, ← weight_append] at hcons
    exact hcons

/-- The octets of a path are those of its segments. -/
theorem encodeUtf8_ofSegments (segs : List (List Char)) :
    encodeUtf8 (ofSegments '/' segs) = ofSegments slash (segs.map encodeUtf8) := by
  unfold encodeUtf8 ofSegments
  rw [List.flatMap_assoc, List.flatMap_map]
  exact List.flatMap_congr fun seg _ => List.flatMap_cons

/-- UTF-8 has the octet of the slash for the slash only. -/
theorem slash_not_mem {seg : List Char} (h : '/' ∉ seg) : slash ∉ encodeUtf8 seg := by
  intro hm
  obtain ⟨c, hc, hb⟩ := List.mem_flatMap.mp hm
  have hcode : c.toNat = '/'.toNat := toNat_of_mem_utf8EncodeChar (by decide) hb
  obtain rfl : c = '/' := Char.toNat_inj.mp hcode
  exact h hc

/-! ## Escapes -/

/-- A digit is one octet, and no character with a meaning of its own. -/
theorem digit_of_hexValue {c : Char} {n : Nat} (h : hexValue c = some n) :
    c ≠ '%' ∧ c ≠ '/' ∧ weight [c] = 1 := by
  have hascii : c ≤ '9' ∨ c ≤ 'f' ∨ c ≤ 'F' := by
    unfold hexValue at h
    split at h
    · next hc => exact Or.inl hc.2
    · split at h
      · next hc => exact Or.inr (Or.inl hc.2)
      · split at h
        · next hc => exact Or.inr (Or.inr hc.2)
        · cases h
  refine ⟨?_, ?_, ?_⟩
  · rintro rfl
    cases h
  · rintro rfl
    cases h
  · have hsize : c.utf8Size = 1 := by
      have hval : c.val.toNat ≤ 0x7f := by
        rcases hascii with hc | hc | hc <;> exact Nat.le_trans hc (by decide)
      exact Char.utf8Size_eq_one_iff.mpr (UInt32.le_iff_toNat_le.mpr hval)
    rw [weight, encodeUtf8, List.flatMap_singleton, String.length_utf8EncodeChar, hsize]

/-- A percent sign that can be decoded has two hex digits behind it. -/
theorem unescape_percent {a b : Char} {cs : List Char} {octets : List UInt8}
    (h : unescape ('%' :: a :: b :: cs) = some octets) : ∃ x y rest, hexValue a = some x ∧
      hexValue b = some y ∧ unescape cs = some rest ∧
        octets = UInt8.ofNat (16 * x + y) :: rest := by
  rw [unescape] at h
  split at h
  · next x y hx hy =>
    obtain ⟨rest, hrest, rfl⟩ := Option.map_eq_some_iff.mp h
    exact ⟨x, y, rest, hx, hy, hrest, rfl⟩
  · cases h

/-- Anything else stands for itself. -/
theorem unescape_plain {c : Char} (h : c ≠ '%') (cs : List Char) :
    unescape (c :: cs) = (unescape cs).map (String.utf8EncodeChar c ++ ·) := by
  rw [unescape.eq_3 c cs (fun _ _ _ he => absurd he h), if_neg h]

/-- Every escape makes one octet of three. -/
theorem length_unescape {cs : List Char} {octets : List UInt8} (h : unescape cs = some octets) :
    octets.length + 2 * cs.count '%' = weight cs := by
  induction cs using unescape.induct generalizing octets with
  | case1 =>
    obtain rfl := Option.some.inj h
    rfl
  | case2 a b cs x y ha hb ih =>
    obtain ⟨x, y, rest, ha, hb, hrest, rfl⟩ := unescape_percent h
    have hlen := ih hrest
    obtain ⟨hane, -, haw⟩ := digit_of_hexValue ha
    obtain ⟨hbne, -, hbw⟩ := digit_of_hexValue hb
    have hweight : weight ('%' :: a :: b :: cs) = 3 + weight cs := by
      show weight (['%'] ++ ([a] ++ ([b] ++ cs))) = _
      simp only [weight_append, haw, hbw]
      rw [show weight ['%'] = 1 from rfl]
      omega
    rw [hweight, List.count_cons_self, List.count_cons_of_ne hane, List.count_cons_of_ne hbne,
      List.length_cons]
    omega
  | case3 a b cs hnone =>
    obtain ⟨x, y, -, ha, hb, -⟩ := unescape_percent h
    exact absurd hb (hnone x y ha)
  | case4 cs hne =>
    rw [unescape.eq_3 '%' cs hne, if_pos rfl] at h
    cases h
  | case5 c cs hne hc ih =>
    rw [unescape_plain hc] at h
    obtain ⟨rest, hrest, rfl⟩ := Option.map_eq_some_iff.mp h
    have hlen := ih hrest
    have hweight : weight (c :: cs) = (String.utf8EncodeChar c).length + weight cs :=
      List.length_append
    rw [hweight, List.count_cons_of_ne hc, List.length_append]
    omega

/-- What begins with no digit has no part in an escape before it. -/
theorem unescape_append {cs rest : List Char} (h : ∀ c ∈ rest.head?, hexValue c = none) :
    unescape (cs ++ rest) = (unescape cs).bind fun a => (unescape rest).map (a ++ ·) := by
  induction cs using unescape.induct with
  | case1 =>
    show unescape rest = (unescape rest).map _
    exact Option.map_id'.symm ▸ rfl
  | case2 a b cs x y ha hb ih =>
    show unescape ('%' :: a :: b :: (cs ++ rest)) = _
    rw [unescape, unescape, ha, hb, ih]
    cases unescape cs <;> cases unescape rest <;> rfl
  | case3 a b cs hnone =>
    have hdown : ∀ cs, unescape ('%' :: a :: b :: cs) = none := by
      intro cs
      refine Option.eq_none_iff_forall_ne_some.mpr fun octets he => ?_
      obtain ⟨x, y, -, ha, hb, -⟩ := unescape_percent he
      exact hnone x y ha hb
    rw [hdown cs]
    exact hdown (cs ++ rest)
  | case4 cs hne =>
    -- the rest does not make an escape of it
    have hcut : unescape ('%' :: (cs ++ rest)) = none := by
      refine Option.eq_none_iff_forall_ne_some.mpr fun octets he => ?_
      match cs, rest with
      | [], [] => cases he
      | [], [r] => cases he
      | [], r :: s :: rest =>
        obtain ⟨x, y, -, hr, -⟩ := unescape_percent he
        rw [h r rfl] at hr
        cases hr
      | [a], [] => cases he
      | [a], r :: rest =>
        obtain ⟨x, y, -, -, hr, -⟩ := unescape_percent he
        rw [h r rfl] at hr
        cases hr
      | a :: b :: cs, _ => exact hne a b cs rfl rfl
    rw [unescape.eq_3 '%' cs hne, if_pos rfl]
    exact hcut
  | case5 c cs hne hc ih =>
    rw [List.cons_append, unescape_plain hc, unescape_plain hc, ih]
    cases unescape cs <;> cases unescape rest <;> simp

/-- A path is decoded segment by segment. -/
theorem unescape_ofSegments (segs : List (List Char)) :
    unescape (ofSegments '/' segs) = (segs.mapM unescape).map (ofSegments slash) := by
  induction segs with
  | nil => rfl
  | cons seg segs ih =>
    have hhead : ∀ c ∈ (ofSegments '/' segs).head?, hexValue c = none := by
      cases segs with
      | nil => exact nofun
      | cons s segs =>
        intro c hc
        obtain rfl := Option.some.inj hc
        rfl
    show unescape ('/' :: (seg ++ ofSegments '/' segs)) = _
    rw [unescape_plain (by decide), unescape_append hhead, ih, List.mapM_cons]
    cases unescape seg with
    | none => rfl
    | some a => cases segs.mapM unescape <;> rfl

/-! ## What is encoded -/

/-- A path is percent-encoded segment by segment. -/
theorem ofSegments_encode (segs : List (List Char)) :
    ofSegments '/' (segs.map (·.flatMap encodeChar)) =
      (ofSegments '/' segs).flatMap encodeChar := by
  unfold ofSegments
  rw [List.flatMap_assoc, List.flatMap_map]
  exact List.flatMap_congr fun seg _ => rfl

/-- What an octet is encoded as stands for it. -/
theorem unescape_percent_append (b : UInt8) (rest : List Char) :
    unescape (percent b ++ rest) = (unescape rest).map (b :: ·) := by
  have hb := b.toNat_lt
  have hoctet : UInt8.ofNat (16 * (b.toNat / 16) + b.toNat % 16) = b := by
    rw [Nat.div_add_mod, UInt8.ofNat_toNat]
  show unescape ('%' :: _ :: _ :: rest) = _
  rw [unescape, hexValue_toUpper (by omega), hexValue_toUpper (by omega)]
  show (unescape rest).map _ = _
  rw [hoctet]

/-- An octet is encoded as three characters, one of them the percent sign. -/
theorem weight_percent (b : UInt8) : weight (percent b) = 3 ∧ (percent b).count '%' = 1 := by
  have hb := b.toNat_lt
  have hdiv : b.toNat / 16 < 16 := by omega
  have hmod : b.toNat % 16 < 16 := Nat.mod_lt _ (by decide)
  obtain ⟨hhigh, -, hhighw⟩ := digit_of_hexValue (hexValue_toUpper hdiv)
  obtain ⟨hlow, -, hloww⟩ := digit_of_hexValue (hexValue_toUpper hmod)
  constructor
  · show weight (['%'] ++ ([_] ++ [_])) = 3
    rw [weight_append, weight_append, hhighw, hloww]
    rfl
  · unfold percent
    rw [List.count_cons_self, List.count_cons_of_ne hhigh, List.count_cons_of_ne hlow]
    rfl

/-- Octets that are percent-encoded are decoded to what they were. -/
theorem unescape_flatMap_percent (bs : List UInt8) (rest : List Char) :
    unescape (bs.flatMap percent ++ rest) = (unescape rest).map (bs ++ ·) := by
  induction bs with
  | nil => exact Option.map_id'.symm
  | cons b bs ih =>
    rw [List.flatMap_cons, List.append_assoc, unescape_percent_append, ih, Option.map_map]
    rfl

theorem weight_flatMap_percent (bs : List UInt8) : weight (bs.flatMap percent) = 3 * bs.length ∧
    (bs.flatMap percent).count '%' = bs.length := by
  induction bs with
  | nil => exact ⟨rfl, rfl⟩
  | cons b bs ih =>
    obtain ⟨hweight, hcount⟩ := weight_percent b
    rw [List.flatMap_cons, weight_append, List.count_append, hweight, hcount, ih.1, ih.2,
      List.length_cons]
    omega

/-- A text without percent signs is read as it was. -/
theorem unescape_encode {cs : List Char} (h : '%' ∉ cs) :
    unescape (cs.flatMap encodeChar) = some (encodeUtf8 cs) := by
  induction cs with
  | nil => rfl
  | cons c cs ih =>
    have hc : c ≠ '%' := fun he => h (he ▸ List.mem_cons_self)
    have ih := ih fun hm => h (List.mem_cons_of_mem _ hm)
    rw [List.flatMap_cons]
    unfold encodeChar
    split
    · rw [unescape_flatMap_percent]
      exact congrArg (Option.map _) ih
    · show unescape (c :: cs.flatMap encodeChar) = _
      rw [unescape_plain hc, ih]
      rfl

/-- What encoding adds to a text: two octets for every new percent sign. -/
theorem weight_encode (cs : List Char) :
    weight (cs.flatMap encodeChar) + 2 * cs.count '%' =
      weight cs + 2 * (cs.flatMap encodeChar).count '%' := by
  induction cs with
  | nil => rfl
  | cons c cs ih =>
    have hcons : weight (c :: cs) = weight [c] + weight cs := weight_append [c] cs
    have hone : weight [c] = (String.utf8EncodeChar c).length :=
      congrArg List.length (List.flatMap_singleton _ c)
    have hchar : weight (encodeChar c) + 2 * [c].count '%' =
        weight [c] + 2 * (encodeChar c).count '%' := by
      unfold encodeChar
      split
      · next hset =>
        have hne : c ≠ '%' := by
          rintro rfl
          cases hset
        obtain ⟨hweight, hcount⟩ := weight_flatMap_percent (String.utf8EncodeChar c)
        rw [hweight, hcount, hone, List.count_cons_of_ne hne, List.count_nil]
        omega
      · rfl
    have hcount : ([c] ++ cs).count '%' = [c].count '%' + cs.count '%' := List.count_append
    rw [List.singleton_append] at hcount
    rw [List.flatMap_cons, weight_append, List.count_append, hcons, hcount]
    omega

/-! ## Dot segments -/

/-- A dot segment has octets, and without a percent sign it is one of two. -/
theorem of_isDots {seg : List Char} (h : isSingleDot seg = true ∨ isDoubleDot seg = true) :
    0 < weight seg ∧ ('%' ∉ seg → seg = ['.'] ∨ seg = ['.', '.']) := by
  have hdot : ∀ a ∈ dots, 0 < weight a ∧ ('%' ∉ a → a = ['.']) := by decide
  rcases h with h | h
  · obtain ⟨hweight, hplain⟩ := hdot seg (List.contains_iff_mem.mp h)
    exact ⟨hweight, fun hp => Or.inl (hplain hp)⟩
  · obtain ⟨a, ha, h⟩ := List.any_eq_true.mp h
    obtain ⟨b, hb, h⟩ := List.any_eq_true.mp h
    obtain rfl := beq_iff_eq.mp h
    obtain ⟨haw, hap⟩ := hdot a ha
    obtain ⟨-, hbp⟩ := hdot b hb
    rw [weight_append]
    refine ⟨by omega, fun hp => Or.inr ?_⟩
    rw [List.mem_append, not_or] at hp
    rw [hap hp.1, hbp hp.2]
    rfl

/-- Without dot segments nothing is taken out. -/
theorem resolveDots_eq {path segs : List (List Char)}
    (h : ∀ seg ∈ segs, isSingleDot seg = false ∧ isDoubleDot seg = false) :
    resolveDots path segs = path ++ segs := by
  induction segs generalizing path with
  | nil => exact (List.append_nil path).symm
  | cons seg segs ih =>
    obtain ⟨hsingle, hdouble⟩ := h seg List.mem_cons_self
    have ih := @ih (path ++ [seg]) fun s hs => h s (List.mem_cons_of_mem _ hs)
    cases segs with
    | nil => simp only [resolveDots, hsingle, hdouble, Bool.false_eq_true, if_false]
    | cons s segs =>
      rw [List.append_assoc] at ih
      rw [resolveDots.eq_3 path seg (s :: segs) nofun, hsingle, hdouble]
      exact ih

/-- Without dot segments nothing is resolved; with one, the path gets shorter. -/
theorem resolveDots_or (path segs : List (List Char)) :
    (∀ seg ∈ segs, isSingleDot seg = false ∧ isDoubleDot seg = false) ∨
      weight (ofSegments '/' (resolveDots path segs)) <
        weight (ofSegments '/' path) + weight (ofSegments '/' segs) := by
  have hone : ∀ seg : List Char, weight (ofSegments '/' [seg]) = 1 + weight seg := by
    intro seg
    show weight (['/'] ++ (seg ++ [])) = _
    rw [weight_append, List.append_nil]
    rfl
  have hcons : ∀ seg segs, weight (ofSegments '/' (seg :: segs)) =
      1 + weight seg + weight (ofSegments '/' segs) := by
    intro seg segs
    rw [← hone, ← weight_append, ← ofSegments_append]
    rfl
  have hdrop : ∀ path, weight (ofSegments '/' path.dropLast) ≤ weight (ofSegments '/' path) := by
    intro path
    exact (weight_sublist ((List.dropLast_sublist path).flatMap _)).1
  have hempty : weight ([] : List Char) = 0 := rfl
  induction path, segs using resolveDots.induct with
  | case1 path => exact Or.inl nofun
  | case2 path seg hdouble =>
    have hseg := (of_isDots (Or.inr hdouble)).1
    have hpath := hdrop path
    rw [resolveDots, if_pos hdouble, ofSegments_append, weight_append, hone, hone]
    exact Or.inr (by omega)
  | case3 path seg hdouble hsingle =>
    have hseg := (of_isDots (Or.inl hsingle)).1
    rw [resolveDots, if_neg hdouble, if_pos hsingle, ofSegments_append, weight_append, hone, hone]
    exact Or.inr (by omega)
  | case4 path seg hdouble hsingle =>
    refine Or.inl fun s hs => ?_
    obtain rfl := List.mem_singleton.mp hs
    exact ⟨Bool.eq_false_iff.mpr hsingle, Bool.eq_false_iff.mpr hdouble⟩
  | case5 path seg segs hne hdouble ih =>
    have hpath := hdrop path
    have hseg := (of_isDots (Or.inr hdouble)).1
    rw [resolveDots.eq_3 path seg segs hne, if_pos hdouble, hcons]
    rcases ih with hplain | hlt
    · rw [resolveDots_eq hplain, ofSegments_append, weight_append]
      exact Or.inr (by omega)
    · exact Or.inr (by omega)
  | case6 path seg segs hne hdouble hsingle ih =>
    rw [resolveDots.eq_3 path seg segs hne, if_neg hdouble, if_pos hsingle, hcons]
    rcases ih with hplain | hlt
    · rw [resolveDots_eq hplain, ofSegments_append, weight_append]
      exact Or.inr (by omega)
    · exact Or.inr (by omega)
  | case7 path seg segs hne hdouble hsingle ih =>
    rw [resolveDots.eq_3 path seg segs hne, if_neg hdouble, if_neg hsingle, hcons]
    rcases ih with hplain | hlt
    · refine Or.inl fun s hs => ?_
      rcases List.mem_cons.mp hs with rfl | hs
      · exact ⟨Bool.eq_false_iff.mpr hsingle, Bool.eq_false_iff.mpr hdouble⟩
      · exact hplain s hs
    · rw [ofSegments_append, weight_append, hone] at hlt
      exact Or.inr (by omega)

/-! ## What comes through -/

/-- A character that a segment of a URL cannot hold as it is. -/
def isReserved (c : Char) : Bool := ['/', '\\', '?', '#', '%', '\t', '\n', '\r'].contains c

/-- A path of these segments is read as it was put together. -/
structure Carried (segs : List (List Char)) : Prop where
  plain : ∀ seg ∈ segs, ∀ c ∈ seg, isReserved c = false
  dots : ∀ seg ∈ segs, seg ≠ ['.'] ∧ seg ≠ ['.', '.']
  inner : ∀ seg ∈ segs.dropLast, seg ≠ []
  ends : ∀ c ∈ (ofSegments '/' segs).getLast?, isMargin c = false

/-- No segment holds a reserved character. -/
theorem Carried.not_mem {segs : List (List Char)} (h : Carried segs) {seg : List Char}
    (hseg : seg ∈ segs) {c : Char} (hc : isReserved c = true) : c ∉ seg := by
  intro hm
  rw [h.plain seg hseg c hm] at hc
  cases hc

/-- What the multiplexer reads are the octets of the path. -/
theorem ofSegments_read {segs : List (List Char)} {octets : List (List UInt8)}
    (h : read segs = some octets) :
    unescape (ofSegments '/' segs) = some (ofSegments slash octets) := by
  obtain ⟨path, hpath, h⟩ := Option.bind_eq_some_iff.mp h
  split at h
  · obtain ⟨-, hsegs⟩ := Option.ite_none_right_eq_some.mp h
    rw [unescape_ofSegments, hsegs]
    rfl
  · next hinvalid =>
    obtain ⟨-, hsegs⟩ := Option.ite_none_right_eq_some.mp h
    obtain rfl := Option.some.inj hsegs
    cases segs with
    | nil => exact absurd rfl hinvalid
    | cons seg segs =>
      -- the path starts with a slash
      have hslash := hpath
      rw [show ofSegments '/' (seg :: segs) = '/' :: (seg ++ ofSegments '/' segs) from rfl,
        unescape_plain (by decide)] at hslash
      obtain ⟨rest, -, rfl⟩ := Option.map_eq_some_iff.mp hslash
      have hsplit : (slash :: rest).splitOn slash = [] :: rest.splitOn slash :=
        List.splitOn_append_cons_self [] rest
      obtain ⟨first, pieces, hpieces, hjoin⟩ := exists_splitOn slash (slash :: rest)
      obtain rfl : [] = first := (List.cons.inj (hsplit.symm.trans hpieces)).1
      rw [hpath]
      show some (slash :: rest) = some (ofSegments slash (((slash :: rest).splitOn slash).drop 1))
      rw [hpieces, List.drop_one, List.tail_cons]
      exact congrArg some hjoin.symm

/-- A decoded path is clean unless a segment is a dot segment or, before the last one, empty. -/
theorem isClean_map_iff {segs : List (List Char)} {octets : List Char → List UInt8} :
    isClean (segs.map octets) = true ↔
      (∀ seg ∈ segs, octets seg ≠ encodeUtf8 ['.'] ∧ octets seg ≠ encodeUtf8 ['.', '.']) ∧
        ∀ seg ∈ segs.dropLast, octets seg ≠ encodeUtf8 [] := by
  unfold isClean
  simp only [Bool.and_eq_true, List.all_eq_true, decide_eq_true_eq, ← List.map_dropLast,
    List.forall_mem_map]
  exact Iff.rfl

/-- Segments without percent signs and slashes are read as they were, if the path is clean. -/
theorem read_encode {segs : List (List Char)} (h : ∀ seg ∈ segs, '%' ∉ seg ∧ '/' ∉ seg) :
    read (segs.map (·.flatMap encodeChar)) =
      if isClean (segs.map encodeUtf8) then some (segs.map encodeUtf8) else none := by
  have hsegs : (segs.map (·.flatMap encodeChar)).mapM unescape = some (segs.map encodeUtf8) := by
    induction segs with
    | nil => rfl
    | cons seg segs ih =>
      have hseg := unescape_encode (h seg List.mem_cons_self).1
      have ih := ih fun s hs => h s (List.mem_cons_of_mem _ hs)
      rw [List.map_cons, List.mapM_cons, hseg, ih]
      rfl
  have hclean : isClean ((segs.map (·.flatMap encodeChar)).map encodeUtf8) =
      isClean (segs.map encodeUtf8) := by
    -- an encoded segment is a dot segment, or empty, only if it was one before
    have hsame : ∀ d : List Char, d.flatMap encodeChar = d → unescape d = some (encodeUtf8 d) →
        ∀ seg ∈ segs, encodeUtf8 (seg.flatMap encodeChar) = encodeUtf8 d ↔
          encodeUtf8 seg = encodeUtf8 d := by
      intro d hd hread seg hseg
      constructor
      · intro he
        have hseg := unescape_encode (h seg hseg).1
        rw [encodeUtf8_injective he, hread] at hseg
        exact (Option.some.inj hseg).symm
      · intro he
        rw [encodeUtf8_injective he, hd]
    have hdot := hsame ['.'] (by decide) (by decide)
    have hdots := hsame ['.', '.'] (by decide) (by decide)
    have hnil := hsame [] rfl rfl
    rw [List.map_map, Bool.eq_iff_iff, isClean_map_iff, isClean_map_iff]
    refine and_congr (forall₂_congr fun seg hseg => ?_) (forall₂_congr fun seg hseg => ?_)
    · exact and_congr (not_congr (hdot seg hseg)) (not_congr (hdots seg hseg))
    · exact not_congr (hnil seg (List.dropLast_subset segs hseg))
  have hsplit : (ofSegments slash (segs.map encodeUtf8)).splitOn slash =
      [] :: segs.map encodeUtf8 := by
    refine splitOn_ofSegments fun octets hm => ?_
    obtain ⟨seg, hseg, rfl⟩ := List.mem_map.mp hm
    exact slash_not_mem (h seg hseg).2
  unfold read
  rw [unescape_ofSegments, hsegs, Option.map_some, Option.bind_some, hclean, hsplit,
    List.drop_one, List.tail_cons]
  split <;> rfl

/-- The path of a URL is part of its text. -/
theorem pathText_sublist (text : List Char) : (pathText text).Sublist text := by
  have hmargins := (List.rdropWhile_prefix isMargin (l := text.dropWhile isMargin)).sublist.trans
    (List.dropWhile_sublist isMargin)
  exact (List.takeWhile_sublist _).trans (List.filter_sublist.trans hmargins)

/-- What the browser keeps of a text of which it drops nothing. -/
theorem pathText_eq_self_iff {text : List Char} (hstart : ∀ c ∈ text.head?, isMargin c = false) :
    pathText text = text ↔ (∀ c ∈ text, isTabOrNewline c = false ∧ endsPath c = false) ∧
      ∀ c ∈ text.getLast?, isMargin c = false := by
  have hhead : text.dropWhile isMargin = text := by
    cases text with
    | nil => rfl
    | cons c cs =>
      rw [List.dropWhile_cons_of_neg]
      rw [hstart c rfl]
      exact Bool.false_ne_true
  have hlast : text.rdropWhile isMargin = text ↔ ∀ c ∈ text.getLast?, isMargin c = false := by
    rw [List.rdropWhile_eq_self_iff]
    constructor
    · intro h c hc
      obtain ⟨hne, rfl⟩ := List.mem_getLast?_eq_getLast hc
      exact Bool.eq_false_iff.mpr (h hne)
    · intro h hne
      exact Bool.eq_false_iff.mp (h _ (List.getLast?_eq_some_getLast hne))
  unfold pathText cleaned
  rw [hhead, ← hlast]
  constructor
  · intro h
    have hstep := (List.takeWhile_sublist (fun c => !endsPath c)
      (l := (text.rdropWhile isMargin).filter fun c => !isTabOrNewline c))
    rw [h] at hstep
    have hall := hstep.trans List.filter_sublist
    have hkeep := (List.rdropWhile_prefix isMargin (l := text)).sublist.antisymm hall
    rw [hkeep] at h hstep
    have hfilter := List.filter_sublist.antisymm hstep
    rw [hfilter] at h
    refine ⟨fun c hc => ⟨?_, ?_⟩, hkeep⟩
    · have := List.filter_eq_self.mp hfilter c hc
      simpa using this
    · have := List.takeWhile_eq_self_iff.mp h c hc
      simpa using this
  · rintro ⟨hchars, hkeep⟩
    have hfilter : text.filter (fun c => !isTabOrNewline c) = text :=
      List.filter_eq_self.mpr fun c hc => by rw [(hchars c hc).1]; rfl
    rw [hkeep, hfilter]
    exact List.takeWhile_eq_self_iff.mpr fun c hc => by rw [(hchars c hc).2]; rfl

/-- A path begins with its slash. -/
theorem head_ofSegments (segs : List (List Char)) :
    ∀ c ∈ (ofSegments '/' segs).head?, isMargin c = false := by
  cases segs with
  | nil => exact nofun
  | cons seg segs =>
    intro c hc
    obtain rfl := Option.some.inj hc
    rfl

/-- What stands in a path is a slash or stands in a segment. -/
theorem mem_ofSegments {segs : List (List Char)} {c : Char} (h : c ∈ ofSegments '/' segs) :
    c = '/' ∨ ∃ seg ∈ segs, c ∈ seg := by
  obtain ⟨seg, hseg, hc⟩ := List.mem_flatMap.mp h
  exact (List.mem_cons.mp hc).imp_right fun hc => ⟨seg, hseg, hc⟩

/-- A path ends as its last segment does. -/
theorem getLast?_ofSegments (segs : List (List Char)) (seg : List Char) :
    (ofSegments '/' (segs ++ [seg])).getLast? = seg.getLast?.or (some '/') := by
  have hlast : ofSegments '/' [seg] = ['/'] ++ seg := List.append_nil _
  rw [ofSegments_append, hlast, ← List.append_assoc, List.getLast?_append,
    List.getLast?_concat]

/-- A text that a browser makes no change to. -/
theorem segments_of_carried {segs : List (List Char)} (h : Carried segs) :
    segments (ofSegments '/' segs) = segs := by
  have hchar : ∀ c ∈ ofSegments '/' segs, c = '/' ∨ isReserved c = false := by
    intro c hc
    exact (mem_ofSegments hc).imp_right fun ⟨seg, hseg, hc⟩ => h.plain seg hseg c hc
  have hkept : pathText (ofSegments '/' segs) = ofSegments '/' segs := by
    refine (pathText_eq_self_iff (head_ofSegments segs)).mpr ⟨fun c hc => ?_, h.ends⟩
    rcases hchar c hc with rfl | hplain
    · exact ⟨rfl, rfl⟩
    · constructor
      all_goals
        refine Bool.eq_false_iff.mpr fun hbad => ?_
        have hmem : isReserved c = true := by
          simp only [isTabOrNewline, endsPath, Bool.or_eq_true, beq_iff_eq] at hbad
          unfold isReserved
          rw [List.contains_iff_mem]
          grind
        rw [hplain] at hmem
        cases hmem
  have hslashed : (ofSegments '/' segs).map slashed = ofSegments '/' segs := by
    refine (List.map_congr_left fun c hc => ?_).trans (List.map_id _)
    refine if_neg ?_
    rintro rfl
    rcases hchar _ hc with he | hplain
    · cases he
    · cases hplain
  have hsplit : (ofSegments '/' segs).splitOn '/' = [] :: segs :=
    splitOn_ofSegments fun seg hseg => h.not_mem hseg rfl
  unfold segments
  rw [hkept, hslashed, hsplit, List.drop_one, List.tail_cons]
  refine resolveDots_eq fun seg hseg => ?_
  have hnone : ¬(isSingleDot seg = true ∨ isDoubleDot seg = true) := by
    intro hdot
    obtain ⟨hne, hne'⟩ := h.dots seg hseg
    exact ((of_isDots hdot).2 (h.not_mem hseg rfl)).elim hne hne'
  rw [not_or] at hnone
  exact ⟨Bool.eq_false_iff.mpr hnone.1, Bool.eq_false_iff.mpr hnone.2⟩

/-- What comes through as it was has not been changed by the browser. -/
theorem unchanged_of_unescape {text : List Char}
    (h : unescape (ofSegments '/' (sent text)) = some (encodeUtf8 text)) :
    pathText text = text ∧ text.map slashed = text ∧ segments text = (text.splitOn '/').drop 1 ∧
      (∀ seg ∈ (text.splitOn '/').drop 1, isSingleDot seg = false ∧ isDoubleDot seg = false) ∧
        '%' ∉ ofSegments '/' (segments text) := by
  obtain ⟨first, segs, hsplit, hjoin⟩ := exists_splitOn '/' ((pathText text).map slashed)
  have hsegs : segments text = resolveDots [] segs := by
    unfold segments
    rw [hsplit]
    rfl
  -- no step from the text to the octets makes it longer
  have hoctets := length_unescape h
  have hencode := weight_encode (ofSegments '/' (segments text))
  unfold sent at h hoctets
  rw [ofSegments_encode] at h hoctets
  have hkept := weight_sublist (pathText_sublist text)
  have hslashed := weight_slashed (pathText text)
  rw [← hjoin, weight_append] at hslashed
  have hlen : (encodeUtf8 text).length = weight text := rfl
  have hnil : weight (ofSegments '/' []) = 0 := rfl
  rcases resolveDots_or [] segs with hplain | hlt
  · have heq : segments text = segs := hsegs.trans (resolveDots_eq hplain)
    rw [heq] at h hoctets hencode
    have hcount : (ofSegments '/' segs).count '%' = 0 := by omega
    have hpercent : '%' ∉ ofSegments '/' segs := List.count_eq_zero.mp hcount
    have hwhole : pathText text = text := hkept.2 (by omega)
    have hfirst : weight [] = weight first := by
      show 0 = weight first
      omega
    rw [← (weight_sublist (List.nil_sublist first)).2 hfirst, List.nil_append, hwhole] at hjoin
    rw [unescape_encode hpercent] at h
    have htext : text.map slashed = text := by
      rw [← hjoin]
      exact encodeUtf8_injective (Option.some.inj h)
    rw [hwhole, htext] at hsplit
    rw [heq, hsplit]
    exact ⟨hwhole, htext, rfl, hplain, hpercent⟩
  · rw [← hsegs] at hlt
    omega

/-- A path whose segments arrive as they are is one that can carry them. -/
theorem carried_of_received {segs : List (List Char)}
    (h : received (ofSegments '/' segs) = some (segs.map encodeUtf8)) : Carried segs := by
  have hpath := ofSegments_read h
  rw [← encodeUtf8_ofSegments] at hpath
  obtain ⟨hkept, hslashed, hsegs, hdots, hpercent⟩ := unchanged_of_unescape hpath
  have hread : ∀ seg ∈ segments (ofSegments '/' segs), '%' ∉ seg ∧ '/' ∉ seg := by
    intro seg hseg
    refine ⟨fun hm => hpercent (List.mem_flatMap.mpr ⟨seg, hseg, List.mem_cons_of_mem _ hm⟩), ?_⟩
    rw [hsegs] at hseg
    exact not_mem_of_mem_splitOn (List.mem_of_mem_drop hseg)
  unfold received sent at h
  rw [read_encode hread] at h
  obtain ⟨hclean, hsame⟩ := Option.ite_none_right_eq_some.mp h
  have heq : segments (ofSegments '/' segs) = segs :=
    List.map_injective_iff.mpr (fun _ _ => encodeUtf8_injective) (Option.some.inj hsame)
  rw [heq] at hread hclean
  rw [← hsegs, heq] at hdots
  obtain ⟨hchars, hends⟩ := (pathText_eq_self_iff (head_ofSegments segs)).mp hkept
  obtain ⟨-, hinner⟩ := isClean_map_iff.mp hclean
  refine ⟨fun seg hseg c hc => ?_, fun seg hseg => ?_, fun seg hseg he => ?_, hends⟩
  · have hmem : c ∈ ofSegments '/' segs :=
      List.mem_flatMap.mpr ⟨seg, hseg, List.mem_cons_of_mem _ hc⟩
    obtain ⟨htab, hend⟩ := hchars c hmem
    have hback : slashed c = id c :=
      List.map_inj_left.mp (hslashed.trans (List.map_id _).symm) c hmem
    obtain ⟨hpercent, hslash⟩ := hread seg hseg
    refine Bool.eq_false_iff.mpr fun hbad => ?_
    have hmem := List.contains_iff_mem.mp hbad
    simp only [List.mem_cons, List.not_mem_nil, or_false] at hmem
    rcases hmem with rfl | rfl | rfl | rfl | rfl | rfl | rfl | rfl
    · exact hslash hc
    · cases hback
    · cases hend
    · cases hend
    · exact hpercent hc
    · cases htab
    · cases htab
    · cases htab
  · obtain ⟨hsingle, hdouble⟩ := hdots seg hseg
    constructor
    · rintro rfl
      cases hsingle
    · rintro rfl
      cases hdouble
  · exact hinner seg hseg (congrArg encodeUtf8 he)

/-- A path that can carry its segments does. -/
theorem received_of_carried {segs : List (List Char)} (h : Carried segs) :
    received (ofSegments '/' segs) = some (segs.map encodeUtf8) := by
  have hclean : isClean (segs.map encodeUtf8) = true := by
    refine isClean_map_iff.mpr ⟨fun seg hseg => ?_, fun seg hseg he => ?_⟩
    · obtain ⟨hdot, hdots⟩ := h.dots seg hseg
      exact ⟨fun he => hdot (encodeUtf8_injective he), fun he => hdots (encodeUtf8_injective he)⟩
    · exact h.inner seg hseg (encodeUtf8_injective he)
  unfold received sent
  rw [segments_of_carried h,
    read_encode (fun seg hseg => ⟨h.not_mem hseg rfl, h.not_mem hseg rfl⟩), if_pos hclean]

/-- **Which segments come through**: those without a character that means something in a URL, and
no dot segments, empty segments before the last or a margin at the end. -/
theorem received_ofSegments_iff {segs : List (List Char)} :
    received (ofSegments '/' segs) = some (segs.map encodeUtf8) ↔ Carried segs :=
  ⟨carried_of_received, received_of_carried⟩

end ReleaseRadar.Lib.Url
