/-!
# Base64 without padding

The URL alphabet of RFC 4648, section 5, without padding: three octets are four
characters, and what is left over is two or three. The decoder skips line breaks and
does not look at the bits that are left over, so it accepts more than the encoder
writes. `decode_encode` is the round trip; `mem_encode` says of which characters an
encoding consists.
-/

namespace ReleaseRadar.Lib.Base64

/-- The character for a value below 64. -/
def digit (n : Nat) : Char :=
  if n < 26 then Char.ofNat ('A'.toNat + n)
  else if n < 52 then Char.ofNat ('a'.toNat + (n - 26))
  else if n < 62 then Char.ofNat ('0'.toNat + (n - 52))
  else if n = 62 then '-'
  else '_'

def value (c : Char) : Option Nat :=
  if 'A' ≤ c ∧ c ≤ 'Z' then some (c.toNat - 'A'.toNat)
  else if 'a' ≤ c ∧ c ≤ 'z' then some (c.toNat - 'a'.toNat + 26)
  else if '0' ≤ c ∧ c ≤ '9' then some (c.toNat - '0'.toNat + 52)
  else if c = '-' then some 62
  else if c = '_' then some 63
  else none

/-- The values, below 64, of the octets. -/
def sextets : List UInt8 → List Nat
  | a :: b :: c :: bs =>
    let n := a.toNat * 65536 + b.toNat * 256 + c.toNat
    n / 262144 :: n / 4096 % 64 :: n / 64 % 64 :: n % 64 :: sextets bs
  | [a, b] =>
    let n := a.toNat * 65536 + b.toNat * 256
    [n / 262144, n / 4096 % 64, n / 64 % 64]
  | [a] =>
    let n := a.toNat * 65536
    [n / 262144, n / 4096 % 64]
  | [] => []

/-- The octets of the values; the bits left over are dropped. -/
def octets : List Nat → Option (List UInt8)
  | w :: x :: y :: z :: ns =>
    let n := w * 262144 + x * 4096 + y * 64 + z
    (octets ns).map fun bs =>
      UInt8.ofNat (n / 65536) :: UInt8.ofNat (n / 256) :: UInt8.ofNat n :: bs
  | [w, x, y] =>
    let n := w * 262144 + x * 4096 + y * 64
    some [UInt8.ofNat (n / 65536), UInt8.ofNat (n / 256)]
  | [w, x] => some [UInt8.ofNat ((w * 262144 + x * 4096) / 65536)]
  | [_] => none
  | [] => some []

def encode (bs : List UInt8) : List Char := (sextets bs).map digit

def isLineBreak (c : Char) : Bool := c == '\r' || c == '\n'

def decode (cs : List Char) : Option (List UInt8) :=
  ((cs.filter fun c => !isLineBreak c).mapM value).bind octets

/-! ## The round trip -/

/-- A digit has its value, and is neither a line break nor a dot. -/
theorem digit_facts {n : Nat} (h : n < 64) :
    value (digit n) = some n ∧ isLineBreak (digit n) = false ∧ digit n ≠ '.' := by
  have hall : ∀ m, m < 64 →
      value (digit m) = some m ∧ isLineBreak (digit m) = false ∧ digit m ≠ '.' := by decide
  exact hall n h

/-- Six bits. -/
theorem lt_of_mem_sextets {bs : List UInt8} {n : Nat} (h : n ∈ sextets bs) : n < 64 := by
  induction bs using sextets.induct with
  | case1 a b c bs ih =>
    have := a.toNat_lt
    have := b.toNat_lt
    have := c.toNat_lt
    simp only [sextets, List.mem_cons] at h
    rcases h with rfl | rfl | rfl | rfl | h
    · omega
    · omega
    · omega
    · omega
    · exact ih h
  | case2 a b =>
    have := a.toNat_lt
    have := b.toNat_lt
    simp only [sextets, List.mem_cons, List.not_mem_nil, or_false] at h
    omega
  | case3 a =>
    have := a.toNat_lt
    simp only [sextets, List.mem_cons, List.not_mem_nil, or_false] at h
    omega
  | case4 => cases h

theorem ofNat_eq {b : UInt8} {n : Nat} (h : n % 256 = b.toNat) : UInt8.ofNat n = b := by
  apply UInt8.toNat_inj.mp
  rw [UInt8.toNat_ofNat']
  exact h

/-- Octets are found again in their sextets. -/
theorem octets_sextets (bs : List UInt8) : octets (sextets bs) = some bs := by
  induction bs using sextets.induct with
  | case1 a b c bs ih =>
    have ha := a.toNat_lt
    have hb := b.toNat_lt
    have hc := c.toNat_lt
    simp only [sextets, octets, ih, Option.map_some, Option.some.injEq, List.cons.injEq, and_true]
    refine ⟨ofNat_eq ?_, ofNat_eq ?_, ofNat_eq ?_⟩ <;> omega
  | case2 a b =>
    have ha := a.toNat_lt
    have hb := b.toNat_lt
    simp only [sextets, octets, Option.some.injEq, List.cons.injEq, and_true]
    refine ⟨ofNat_eq ?_, ofNat_eq ?_⟩ <;> omega
  | case3 a =>
    have ha := a.toNat_lt
    simp only [sextets, octets, Option.some.injEq, List.cons.injEq, and_true]
    exact ofNat_eq (by omega)
  | case4 => rfl

/-- There is no line break and no dot in the encoding. -/
theorem mem_encode {bs : List UInt8} {c : Char} (h : c ∈ encode bs) :
    isLineBreak c = false ∧ c ≠ '.' := by
  obtain ⟨n, hn, rfl⟩ := List.mem_map.mp h
  exact (digit_facts (lt_of_mem_sextets hn)).2

/-- Digits are read one by one. -/
theorem mapM_digit {ns : List Nat} (h : ∀ n ∈ ns, n < 64) :
    (ns.map digit).mapM value = some ns := by
  induction ns with
  | nil => rfl
  | cons n ns ih =>
    rw [List.map_cons, List.mapM_cons, (digit_facts (h n (List.mem_cons_self ..))).1,
      ih fun m hm => h m (List.mem_cons_of_mem _ hm)]
    rfl

/-- **What was encoded decodes to itself.** -/
theorem decode_encode (bs : List UInt8) : decode (encode bs) = some bs := by
  have hfilter : (encode bs).filter (fun c => !isLineBreak c) = encode bs := by
    rw [List.filter_eq_self]
    intro c hc
    simp [(mem_encode hc).1]
  rw [decode, hfilter, encode, mapM_digit fun n hn => lt_of_mem_sextets hn]
  exact octets_sextets bs

end ReleaseRadar.Lib.Base64
