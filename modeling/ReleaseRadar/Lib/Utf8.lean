/-!
# UTF-8 octets

Text as the octets of its UTF-8 encoding, and back.
-/

namespace ReleaseRadar.Lib

def encodeUtf8 (cs : List Char) : List UInt8 := cs.flatMap String.utf8EncodeChar

def decodeUtf8 (bs : List UInt8) : Option (List Char) :=
  (ByteArray.utf8Decode? bs.toByteArray).map Array.toList

theorem decodeUtf8_encodeUtf8 (cs : List Char) : decodeUtf8 (encodeUtf8 cs) = some cs := by
  have h : (encodeUtf8 cs).toByteArray.utf8Decode? = some cs.toArray :=
    List.utf8Decode?_utf8Encode
  rw [decodeUtf8, h]
  rfl

/-- An ASCII octet is an ASCII character. -/
theorem toNat_of_mem_utf8EncodeChar {b : UInt8} {c : Char} (hb : b.toNat < 0x80)
    (h : b ∈ String.utf8EncodeChar c) : c.toNat = b.toNat := by
  -- the octets of a longer encoding are 0x80 or more
  have hbyte : ∀ n, 0x80 ≤ n → n < 256 → b ≠ UInt8.ofNat n := by
    intro n hlow hhigh he
    have := congrArg UInt8.toNat he
    rw [UInt8.toNat_ofNat_of_lt' (by simpa using hhigh)] at this
    omega
  unfold String.utf8EncodeChar at h
  dsimp only at h
  split at h
  · next hle =>
    have := congrArg UInt8.toNat (List.mem_singleton.mp h)
    rw [UInt8.toNat_ofNat_of_lt' (by simp only [UInt8.size]; omega)] at this
    exact this.symm
  · split at h
    · simp only [List.mem_cons, List.not_mem_nil, or_false] at h
      rcases h with h | h <;> exact absurd h (hbyte _ (by omega) (by omega))
    · split at h
      · simp only [List.mem_cons, List.not_mem_nil, or_false] at h
        rcases h with h | h | h <;> exact absurd h (hbyte _ (by omega) (by omega))
      · simp only [List.mem_cons, List.not_mem_nil, or_false] at h
        rcases h with h | h | h | h <;> exact absurd h (hbyte _ (by omega) (by omega))

/-! ## Where a text can be cut -/

/-- An octet that goes on with a character: `10xxxxxx`. -/
def isContinuation (b : UInt8) : Bool := b &&& 0xC0 == 0x80

theorem isContinuation_ofNat :
    ∀ n < 256, isContinuation (UInt8.ofNat n) = (decide (0x80 ≤ n) && decide (n < 0xC0)) := by
  decide +kernel

/-- A character is one octet that starts it and at most three that go on with it. -/
theorem utf8EncodeChar_octets (c : Char) : ∃ b bs, String.utf8EncodeChar c = b :: bs ∧
    isContinuation b = false ∧ (∀ x ∈ bs, isContinuation x = true) ∧ bs.length ≤ 3 := by
  have hstart : ∀ n, n < 0x80 ∨ (0xC0 ≤ n ∧ n < 256) → isContinuation (UInt8.ofNat n) = false := by
    intro n hn
    rw [isContinuation_ofNat n (by omega)]
    simp only [Bool.and_eq_false_iff, decide_eq_false_iff_not]
    omega
  have hmore : ∀ n, 0x80 ≤ n → n < 0xC0 → isContinuation (UInt8.ofNat n) = true := by
    intro n h₁ h₂
    rw [isContinuation_ofNat n (by omega)]
    simp only [Bool.and_eq_true, decide_eq_true_eq]
    omega
  have hvalid : c.toNat < 0x110000 := by
    have := c.valid
    simp only [UInt32.isValidChar, Nat.isValidChar] at this
    show c.val.toNat < _
    omega
  unfold String.utf8EncodeChar
  dsimp only
  change c.val.toNat < _ at hvalid
  split
  · exact ⟨_, _, rfl, hstart _ (by omega), by simp, by simp⟩
  · split
    · refine ⟨_, _, rfl, hstart _ (by omega), ?_, by simp⟩
      simp only [List.mem_cons, List.not_mem_nil, or_false, forall_eq]
      exact hmore _ (by omega) (by omega)
    · split
      · refine ⟨_, _, rfl, hstart _ (by omega), ?_, by simp⟩
        simp only [List.mem_cons, List.not_mem_nil, or_false, forall_eq_or_imp, forall_eq]
        exact ⟨hmore _ (by omega) (by omega), hmore _ (by omega) (by omega)⟩
      · refine ⟨_, _, rfl, hstart _ (by omega), ?_, by simp⟩
        simp only [List.mem_cons, List.not_mem_nil, or_false, forall_eq_or_imp, forall_eq]
        exact ⟨hmore _ (by omega) (by omega), hmore _ (by omega) (by omega),
          hmore _ (by omega) (by omega)⟩

/-- **Before an octet that starts a character, a text can be cut.** -/
theorem cut_encodeUtf8 {cs : List Char} {k : Nat} {b : UInt8} (hb : (encodeUtf8 cs)[k]? = some b)
    (hstart : isContinuation b = false) :
    ∃ cs₁ cs₂, (encodeUtf8 cs).take k = encodeUtf8 cs₁ ∧
      (encodeUtf8 cs).drop k = encodeUtf8 cs₂ := by
  induction cs generalizing k with
  | nil => cases hb
  | cons c cs ih =>
    have henc : encodeUtf8 (c :: cs) = String.utf8EncodeChar c ++ encodeUtf8 cs := List.flatMap_cons
    rw [henc] at hb ⊢
    rcases Nat.lt_or_ge k (String.utf8EncodeChar c).length with hk | hk
    · -- inside the first character only its own first octet starts one
      obtain ⟨x, xs, hc, -, hmore, -⟩ := utf8EncodeChar_octets c
      rw [List.getElem?_append_left hk, hc] at hb
      cases k with
      | zero => exact ⟨[], c :: cs, rfl, henc.symm⟩
      | succ k =>
        have hcont := hmore b (List.mem_of_getElem? hb)
        rw [hstart] at hcont
        cases hcont
    · rw [List.getElem?_append_right hk] at hb
      obtain ⟨cs₁, cs₂, h₁, h₂⟩ := ih hb
      refine ⟨c :: cs₁, cs₂, ?_, ?_⟩
      · rw [List.take_append, List.take_of_length_le hk, h₁]
        rfl
      · rw [List.drop_append, List.drop_eq_nil_of_le hk, h₂]
        rfl

/-- Every fourth octet at least starts a character. -/
theorem exists_start {cs : List Char} {k : Nat} (hk : k < (encodeUtf8 cs).length) :
    ∃ j ≤ k, k ≤ j + 3 ∧ ∃ b, (encodeUtf8 cs)[j]? = some b ∧ isContinuation b = false := by
  induction cs generalizing k with
  | nil => exact absurd hk (Nat.not_lt_zero k)
  | cons c cs ih =>
    have henc : encodeUtf8 (c :: cs) = String.utf8EncodeChar c ++ encodeUtf8 cs := List.flatMap_cons
    obtain ⟨x, xs, hc, hx, -, hlen⟩ := utf8EncodeChar_octets c
    rw [henc, hc, List.length_append, List.length_cons] at hk
    rw [henc, hc]
    rcases Nat.lt_or_ge k (xs.length + 1) with hin | hout
    · exact ⟨0, Nat.zero_le k, by omega, x, rfl, hx⟩
    · obtain ⟨j, hj, hnear, b, hb, hstart⟩ := ih (k := k - (xs.length + 1)) (by omega)
      refine ⟨j + (xs.length + 1), by omega, by omega, b, ?_, hstart⟩
      rw [List.getElem?_append_right (by simp), List.length_cons, Nat.add_sub_cancel]
      exact hb

/-! ## Reading what may not be UTF-8 -/

/-- The characters after the next `skip` octets, an octet that starts none read as
U+FFFD. -/
def decodeLossyFrom : Nat → List UInt8 → List Char
  | _, [] => []
  | skip + 1, _ :: bs => decodeLossyFrom skip bs
  | 0, b :: bs =>
    match (b :: bs).toByteArray.utf8DecodeChar? 0 with
    | some c => c :: decodeLossyFrom (c.utf8Size - 1) bs
    | none => '\ufffd' :: decodeLossyFrom 0 bs

def decodeLossy (bs : List UInt8) : List Char := decodeLossyFrom 0 bs

theorem decodeLossyFrom_length (xs ys : List UInt8) :
    decodeLossyFrom xs.length (xs ++ ys) = decodeLossyFrom 0 ys := by
  induction xs with
  | nil => rfl
  | cons x xs ih => exact ih

/-- Text loses nothing, whatever comes after it. -/
theorem decodeLossy_append (cs : List Char) (bs : List UInt8) :
    decodeLossy (encodeUtf8 cs ++ bs) = cs ++ decodeLossy bs := by
  induction cs with
  | nil => rfl
  | cons c cs ih =>
    have hlen : (String.utf8EncodeChar c).length = c.utf8Size := String.length_utf8EncodeChar c
    have hread : (String.utf8EncodeChar c ++ (encodeUtf8 cs ++ bs)).toByteArray.utf8DecodeChar? 0 =
        some c := by
      rw [List.toByteArray_append]
      exact ByteArray.utf8DecodeChar?_utf8EncodeChar_append
    cases henc : String.utf8EncodeChar c with
    | nil =>
      rw [henc] at hlen
      exact absurd hlen (Nat.ne_of_lt c.utf8Size_pos)
    | cons x xs =>
      rw [henc] at hlen hread
      have hsize : c.utf8Size - 1 = xs.length := by
        rw [← hlen]
        rfl
      have hsplit : encodeUtf8 (c :: cs) ++ bs = x :: (xs ++ (encodeUtf8 cs ++ bs)) := by
        rw [encodeUtf8, List.flatMap_cons, henc, List.append_assoc]
        rfl
      rw [List.cons_append] at hread
      rw [hsplit, decodeLossy, decodeLossyFrom, hread]
      show c :: decodeLossyFrom (c.utf8Size - 1) (xs ++ (encodeUtf8 cs ++ bs)) =
        c :: (cs ++ decodeLossy bs)
      rw [hsize, decodeLossyFrom_length]
      exact congrArg (c :: ·) ih

theorem decodeLossy_encodeUtf8 (cs : List Char) : decodeLossy (encodeUtf8 cs) = cs := by
  have h := decodeLossy_append cs []
  rw [List.append_nil] at h
  exact h.trans (List.append_nil cs)

/-- The character read first is written first. -/
theorem utf8EncodeChar_of_decode {bs : List UInt8} {c : Char}
    (h : bs.toByteArray.utf8DecodeChar? 0 = some c) : String.utf8EncodeChar c <+: bs := by
  obtain ⟨l, hl⟩ := ByteArray.exists_of_utf8DecodeChar?_eq_some h
  refine ⟨l.data.toList, ?_⟩
  have hdata := congrArg (fun b : ByteArray => b.data.toList) hl
  simpa using hdata.symm

/-- **A character that is cut** is read as U+FFFD, octet by octet. -/
theorem decodeLossy_cut {c : Char} {bs rest : List UInt8} (h : String.utf8EncodeChar c = bs ++ rest)
    (hrest : rest ≠ []) : decodeLossy bs = List.replicate bs.length '\ufffd' := by
  -- an octet that goes on with a character starts none
  have hmore : ∀ xs : List UInt8, (∀ x ∈ xs, isContinuation x = true) →
      decodeLossy xs = List.replicate xs.length '\ufffd' := by
    intro xs
    induction xs with
    | nil => intro _; rfl
    | cons x xs ih =>
      intro hall
      have hnone : (x :: xs).toByteArray.utf8DecodeChar? 0 = none := by
        refine Option.eq_none_iff_forall_ne_some.mpr fun d hd => ?_
        obtain ⟨y, ys, hdy, hy, -, -⟩ := utf8EncodeChar_octets d
        obtain ⟨l, hl⟩ := utf8EncodeChar_of_decode hd
        rw [hdy] at hl
        obtain rfl : y = x := (List.cons.inj hl).1
        rw [hall y (List.mem_cons_self ..)] at hy
        cases hy
      rw [decodeLossy, decodeLossyFrom, hnone, List.length_cons, List.replicate_succ]
      exact congrArg (_ :: ·) (ih fun y hy => hall y (List.mem_cons_of_mem _ hy))
  obtain ⟨x, xs, hc, -, htail, -⟩ := utf8EncodeChar_octets c
  cases bs with
  | nil => rfl
  | cons b bs =>
    rw [hc, List.cons_append] at h
    obtain ⟨rfl, hxs⟩ := List.cons.inj h
    have hnone : (x :: bs).toByteArray.utf8DecodeChar? 0 = none := by
      refine Option.eq_none_iff_forall_ne_some.mpr fun d hd => ?_
      obtain ⟨l, hl⟩ := utf8EncodeChar_of_decode hd
      -- `d` would be read at the start of `c`
      have hsame : some d = some c := by
        have h₁ : (String.utf8EncodeChar d ++ (l ++ rest)).toByteArray.utf8DecodeChar? 0 =
          some d := by
          rw [List.toByteArray_append]
          exact ByteArray.utf8DecodeChar?_utf8EncodeChar_append
        have h₂ : (String.utf8EncodeChar c ++ []).toByteArray.utf8DecodeChar? 0 = some c := by
          rw [List.toByteArray_append]
          exact ByteArray.utf8DecodeChar?_utf8EncodeChar_append
        rw [← h₁, ← h₂, List.append_nil, ← List.append_assoc, hl, hc, hxs, List.cons_append]
      obtain rfl := Option.some.inj hsame
      rw [hc, hxs] at hl
      have hlen := congrArg List.length hl
      simp only [List.length_append, List.length_cons] at hlen
      exact hrest (List.length_eq_zero_iff.mp (by omega))
    rw [decodeLossy, decodeLossyFrom, hnone, List.length_cons, List.replicate_succ]
    refine congrArg (_ :: ·) (hmore bs fun y hy => htail y ?_)
    rw [hxs]
    exact List.mem_append_left _ hy

end ReleaseRadar.Lib
