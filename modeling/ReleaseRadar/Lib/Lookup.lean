/-!
# Lookups after an update

A system's parties are lists, and a step replaces, adds or changes one entry. These say
what an entry found afterwards was before.
-/

namespace ReleaseRadar.Lib

variable {α β : Type} {l : List α} {i j : Nat} {a b x : α}

theorem of_getElem?_set (h : (l.set i b)[j]? = some x) : i = j ∧ x = b ∨ i ≠ j ∧
    l[j]? = some x := by
  rw [List.getElem?_set] at h
  by_cases hij : i = j
  · rw [if_pos hij] at h
    split at h
    · exact Or.inl ⟨hij, (Option.some.inj h).symm⟩
    · cases h
  · rw [if_neg hij] at h
    exact Or.inr ⟨hij, h⟩

theorem of_getElem?_concat (h : (l ++ [b])[j]? = some x) : l[j]? = some x ∨
    j = l.length ∧ x = b := by
  rcases Nat.lt_trichotomy j l.length with hlt | rfl | hgt
  · rw [List.getElem?_append_left hlt] at h
    exact Or.inl h
  · rw [List.getElem?_concat_length] at h
    exact Or.inr ⟨rfl, (Option.some.inj h).symm⟩
  · rw [List.getElem?_eq_none (by rw [List.length_append, List.length_singleton]; omega)] at h
    cases h

theorem of_getElem?_modify {f : α → α} (h : (l.modify i f)[j]? = some x) :
    ∃ y, l[j]? = some y ∧ (i = j ∧ x = f y ∨ i ≠ j ∧ x = y) := by
  rw [List.getElem?_modify] at h
  obtain ⟨y, hy, hx⟩ := Option.map_eq_some_iff.mp h
  refine ⟨y, hy, ?_⟩
  by_cases hij : i = j
  · rw [if_pos hij] at hx
    exact Or.inl ⟨hij, hx.symm⟩
  · rw [if_neg hij] at hx
    exact Or.inr ⟨hij, hx.symm⟩

/-- What `f` reads of the entries, by the place of the entry. -/
theorem mem_filterMap_getElem? {f : α → Option β} {y : β} :
    y ∈ l.filterMap f ↔ ∃ (i : Nat) (x : α), l[i]? = some x ∧ f x = some y := by
  rw [List.mem_filterMap]
  constructor
  · rintro ⟨x, hmem, hx⟩
    obtain ⟨i, hi⟩ := List.mem_iff_getElem?.mp hmem
    exact ⟨i, x, hi, hx⟩
  · rintro ⟨i, x, hi, hx⟩
    exact ⟨x, List.mem_iff_getElem?.mpr ⟨i, hi⟩, hx⟩

/-- A traversal that gets through has found a value at every entry. -/
theorem mapM_eq_some_iff {f : α → Option β} {ys : List β} :
    l.mapM f = some ys ↔ l.map f = ys.map some := by
  induction l generalizing ys with
  | nil => cases ys <;> simp
  | cons a l ih =>
    rw [List.mapM_cons, List.map_cons]
    cases ys with
    | nil => cases f a <;> cases l.mapM f <;> simp
    | cons y ys =>
      rw [List.map_cons, List.cons.injEq, ← ih]
      cases f a <;> cases l.mapM f <;> simp

theorem isSome_of_mapM {f : α → Option β} {ys : List β} (h : l.mapM f = some ys) (ha : a ∈ l) :
    (f a).isSome := by
  have hmem : f a ∈ ys.map some := mapM_eq_some_iff.mp h ▸ List.mem_map_of_mem ha
  obtain ⟨y, -, hy⟩ := List.mem_map.mp hmem
  rw [← hy]
  rfl

/-- An update that keeps what `f` reads is not seen through `f`. -/
theorem getElem?_set_bind (f : α → Option β) (hi : l[i]? = some a) (hf : f b = f a) :
    ((l.set i b)[j]?).bind f = (l[j]?).bind f := by
  rw [List.getElem?_set]
  by_cases hij : i = j
  · subst hij
    rw [if_pos rfl, if_pos (List.getElem?_eq_some_iff.mp hi).1, hi]
    exact hf
  · rw [if_neg hij]

end ReleaseRadar.Lib
