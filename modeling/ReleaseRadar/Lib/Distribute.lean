import Mathlib.Data.List.Sort

/-!
# One query for many owners

A batched read fetches the rows of all owners at once, ordered, and hands each row to its
owner through a map from the owner's key to its place. Two facts make that the same as one
query for each owner:

* sorting is stable, so the rows of one owner stand in the order in which sorting them
  alone puts them (`filter_insertionSort`);
* when the keys are different and the map is right about them, an owner ends up with
  exactly the rows that carry its key, one after the other (`foldl_distribute`).
-/

namespace ReleaseRadar.Lib

/-! ## Sorting -/

section Stable

variable {α : Type} {r : α → α → Prop} [DecidableRel r] [IsTrans α r]

private theorem filter_orderedInsert (p : α → Bool) (a : α) :
    ∀ {l : List α}, l.Pairwise r → (l.orderedInsert r a).filter p =
      if p a then (l.filter p).orderedInsert r a else l.filter p
  | [], _ => by
    rw [List.orderedInsert_nil]
    by_cases ha : p a
    · simp [ha]
    · simp [ha]
  | b :: l, h => by
    obtain ⟨hb, hl⟩ := List.pairwise_cons.mp h
    have ih := filter_orderedInsert p a hl
    by_cases hab : r a b
    · rw [List.orderedInsert_cons_of_le _ _ hab]
      by_cases ha : p a
      · -- everything kept of the list is above `a`
        have hall : ∀ c ∈ (b :: l).filter p, r a c := by
          intro c hc
          rcases List.mem_cons.mp (List.mem_filter.mp hc).1 with rfl | hc
          · exact hab
          · exact IsTrans.trans a b c hab (hb c hc)
        rw [List.filter_cons_of_pos ha, if_pos ha]
        cases hf : (b :: l).filter p with
        | nil => rfl
        | cons c cs =>
          rw [List.orderedInsert_cons_of_le _ _ (hall c (by rw [hf]; exact List.mem_cons_self ..))]
      · rw [List.filter_cons_of_neg ha, if_neg ha]
    · rw [List.orderedInsert_of_not_le _ _ hab]
      by_cases hpb : p b
      · rw [List.filter_cons_of_pos hpb, ih, List.filter_cons_of_pos hpb]
        by_cases ha : p a
        · rw [if_pos ha, if_pos ha, List.orderedInsert_of_not_le _ _ hab]
        · rw [if_neg ha, if_neg ha]
      · rw [List.filter_cons_of_neg hpb, ih, List.filter_cons_of_neg hpb]

/-- **The sort is stable**: what a filter keeps of it is what was kept, sorted. -/
theorem filter_insertionSort [Std.Total r] (p : α → Bool) (l : List α) :
    (l.insertionSort r).filter p = (l.filter p).insertionSort r := by
  induction l with
  | nil => rfl
  | cons a l ih =>
    rw [List.insertionSort_cons, filter_orderedInsert p a (List.pairwise_insertionSort r l), ih]
    by_cases ha : p a
    · rw [if_pos ha, List.filter_cons_of_pos ha, List.insertionSort_cons]
    · rw [if_neg ha, List.filter_cons_of_neg ha]

end Stable

/-! ## Handing the rows out -/

section Distribute

variable {α κ ρ : Type} [DecidableEq κ] {key : α → κ} {position : κ → Option Nat} {xs : List α}

/-- The map knows where every key stands. -/
def Locates (position : κ → Option Nat) (keys : List κ) : Prop :=
  ∀ k, match position k with
    | none => k ∉ keys
    | some i => keys[i]? = some k

/-- Changing the entry at a place is changing the one entry with its key. -/
theorem modify_of_nodup (hnodup : (xs.map key).Nodup) {i : Nat} {k : κ}
    (hi : (xs.map key)[i]? = some k) (f : α → α) :
    xs.modify i f = xs.map fun x => if key x = k then f x else x := by
  apply List.ext_getElem?
  intro j
  rw [List.getElem?_modify, List.getElem?_map]
  cases hj : xs[j]? with
  | none => rfl
  | some x =>
    have hkey : key x = k ↔ i = j := by
      have hjk : (xs.map key)[j]? = some (key x) := by rw [List.getElem?_map, hj]; rfl
      constructor
      · intro he
        obtain ⟨hlt, -⟩ := List.getElem?_eq_some_iff.mp hi
        exact (List.getElem?_inj hlt hnodup).mp (by rw [hi, hjk, he])
      · rintro rfl
        exact Option.some.inj (hjk.symm.trans hi)
    show some (if i = j then f x else x) = some (if key x = k then f x else x)
    by_cases he : i = j
    · rw [if_pos he, if_pos (hkey.mpr he)]
    · rw [if_neg he, if_neg (fun h => he (hkey.mp h))]

/-- A row changes the owner it names, if there is one. -/
theorem modify_located {k : κ} (hnodup : (xs.map key).Nodup) (hloc : Locates position (xs.map key))
    (f : α → α) :
    (position k).elim xs (fun i => xs.modify i f) = xs.map fun x =>
      if key x = k then f x else x := by
  have hk := hloc k
  split at hk
  · next hnone =>
    have hid : ∀ x ∈ xs, (if key x = k then f x else x) = x := by
      intro x hx
      rw [if_neg fun he : key x = k => hk (he ▸ List.mem_map_of_mem hx)]
    rw [hnone]
    exact ((List.map_congr_left hid).trans (List.map_id _)).symm
  · next i hsome =>
    rw [hsome]
    exact modify_of_nodup hnodup hk f

/-- **Every owner gets its rows**, in the order in which they come. -/
theorem foldl_distribute (rid : ρ → κ) (give : ρ → α → α) {step : List α → ρ → List α}
    (hgive : ∀ r x, key (give r x) = key x)
    (hstep : ∀ acc r, step acc r = (position (rid r)).elim acc fun i => acc.modify i (give r)) :
    ∀ (rows : List ρ) {xs : List α}, (xs.map key).Nodup → Locates position (xs.map key) →
      rows.foldl step xs =
        xs.map fun x => (rows.filter fun r => rid r == key x).foldl (fun x r => give r x) x := by
  intro rows
  induction rows with
  | nil => intro xs _ _; simp
  | cons r rows ih =>
    intro xs hnodup hloc
    have hkeys : (xs.map fun x => if key x = rid r then give r x else x).map key = xs.map key := by
      rw [List.map_map]
      refine List.map_congr_left fun x _ => ?_
      simp only [Function.comp]
      split
      · exact hgive r x
      · rfl
    rw [List.foldl_cons, hstep, modify_located hnodup hloc,
      ih (by rw [hkeys]; exact hnodup) (by rw [hkeys]; exact hloc), List.map_map]
    refine List.map_congr_left fun x _ => ?_
    simp only [Function.comp]
    by_cases he : key x = rid r
    · rw [if_pos he, hgive, List.filter_cons_of_pos (by simp [he]), List.foldl_cons]
    · rw [if_neg he, List.filter_cons_of_neg (by simpa using fun h => he h.symm)]

end Distribute

end ReleaseRadar.Lib
