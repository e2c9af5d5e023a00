import Mathlib.Data.List.Find
import Mathlib.Data.List.Nodup
import Mathlib.Logic.Function.Basic

/-!
# A table as a map

A table with a primary key is a list of rows; `rowAt` reads it as a map from keys. What a
statement does to the rows of one key, the map sees at that key alone, as a
`Function.update`: an insert under a new key (`rowAt_concat`), an update (`rowAt_modify`), a
delete (`rowAt_remove`). With unique keys the map says all there is to say about the rows
(`mem_iff_rowAt`).

A query for all the rows lists the map (`Lists`, `lists_of_perm`, `Lists.find_iff`).
-/

namespace ReleaseRadar.Lib

variable {ρ κ : Type} [DecidableEq κ] {key : ρ → κ} {rows : List ρ} {row r : ρ} {k : κ}

/-- The row of a key. -/
def rowAt (key : ρ → κ) (rows : List ρ) (k : κ) : Option ρ := rows.find? fun r => key r == k

theorem rowAt_some (h : rowAt key rows k = some r) : r ∈ rows ∧ key r = k :=
  ⟨List.mem_of_find?_eq_some h, eq_of_beq (List.find?_some (p := fun r => key r == k) h)⟩

theorem rowAt_eq_none : rowAt key rows k = none ↔ ∀ r ∈ rows, key r ≠ k := by
  unfold rowAt
  rw [List.find?_eq_none]
  simp only [beq_iff_eq]

/-- A key that some row has. -/
theorem isSome_rowAt : (rowAt key rows k).isSome = rows.any fun r => key r == k :=
  List.isSome_find?

theorem mem_iff_rowAt (h : (rows.map key).Nodup) : r ∈ rows ↔ rowAt key rows (key r) = some r := by
  refine ⟨fun hr => ?_, fun hr => (rowAt_some hr).1⟩
  cases hfound : rowAt key rows (key r) with
  | none => exact absurd rfl (rowAt_eq_none.mp hfound r hr)
  | some x =>
    obtain ⟨hx, hkey⟩ := rowAt_some hfound
    rw [List.inj_on_of_nodup_map h hx hr hkey]

/-- A row under a new key. -/
theorem rowAt_concat (h : rowAt key rows (key row) = none) :
    rowAt key (rows ++ [row]) = Function.update (rowAt key rows) (key row) (some row) := by
  funext k
  have hlast : rowAt key [row] k = if key row = k then some row else none := by
    unfold rowAt
    rw [List.find?_singleton]
    simp only [beq_iff_eq]
  have hsplit : rowAt key (rows ++ [row]) k = (rowAt key rows k).or (rowAt key [row] k) :=
    List.find?_append
  rw [hsplit, hlast]
  by_cases hk : key row = k
  · subst hk
    rw [if_pos rfl, h, Function.update_self]
    rfl
  · rw [if_neg hk, Option.or_none, Function.update_of_ne (Ne.symm hk)]

/-- An update of the rows of a key, which stay under it. -/
theorem rowAt_modify {f : ρ → ρ} (hf : ∀ r, key r = k → key (f r) = k) :
    rowAt key (rows.map fun r => if key r = k then f r else r) =
      Function.update (rowAt key rows) k ((rowAt key rows k).map f) := by
  funext k'
  have hkeys : ((fun r => key r == k') ∘ fun r => if key r = k then f r else r) =
      fun r => key r == k' := by
    funext r
    simp only [Function.comp]
    split
    · next hk => rw [hf r hk, hk]
    · rfl
  unfold rowAt
  rw [List.find?_map, hkeys]
  by_cases hk : k' = k
  · subst hk
    rw [Function.update_self]
    refine Option.map_congr fun r hr => ?_
    exact if_pos (rowAt_some hr).2
  · rw [Function.update_of_ne hk]
    refine (Option.map_congr fun r hr => ?_).trans Option.map_id'
    exact if_neg ((rowAt_some hr).2.symm ▸ hk)

/-- A delete by key. -/
theorem rowAt_remove :
    rowAt key (rows.filter fun r => !(key r == k)) = Function.update (rowAt key rows) k none := by
  funext k'
  unfold rowAt
  rw [List.find?_filter]
  by_cases hk : k' = k
  · subst hk
    rw [Function.update_self, List.find?_eq_none]
    intro r _
    simp
  · rw [Function.update_of_ne hk]
    refine List.find?_congr fun r _ => ?_
    by_cases hr : key r = k'
    · simp [hr, hk]
    · simp [hr]

/-- What is read of the rows, when one key's row changes and so does what is read under it. -/
theorem rowAt_update_congr {α : Type} {f g : κ → Option ρ} {F G : ρ → α} {x : Option ρ}
    {y : Option α} (hg : g = Function.update f k x) (hk : x.map G = y)
    (hne : ∀ k' r, k' ≠ k → f k' = some r → G r = F r) :
    (fun k' => (g k').map G) = Function.update (fun k' => (f k').map F) k y := by
  funext k'
  rw [hg]
  by_cases h : k' = k
  · subst h
    rw [Function.update_self, Function.update_self, hk]
  · rw [Function.update_of_ne h, Function.update_of_ne h]
    exact Option.map_congr fun r hr => hne k' r h hr

/-! ## Entry by entry -/

/-- What holds of every entry still does when one of them is written. -/
theorem forall_update {α : Type} {f : κ → Option α} {x : Option α} {P : κ → α → Prop}
    (h : ∀ k a, f k = some a → P k a) (hx : ∀ a, x = some a → P k a) :
    ∀ k' a, Function.update f k x k' = some a → P k' a := by
  intro k' a ha
  by_cases hk : k' = k
  · subst hk
    rw [Function.update_self] at ha
    exact hx a ha
  · rw [Function.update_of_ne hk] at ha
    exact h k' a ha

theorem isSome_update_self {α : Type} {f : κ → Option α} {a : α} :
    (Function.update f k (some a) k).isSome := by
  rw [Function.update_self]
  rfl

/-- An entry that is written stays there. -/
theorem isSome_update {α : Type} {f : κ → Option α} {a : α} {k' : κ} (h : (f k').isSome) :
    (Function.update f k (some a) k').isSome := by
  by_cases hk : k' = k
  · rw [hk]
    exact isSome_update_self
  · rwa [Function.update_of_ne hk]

/-! ## Listing a map -/

/-- The list has every entry of the map, each once. -/
structure Lists {α : Type} (K : κ → Option α) (id : α → κ) (xs : List α) : Prop where
  mem : ∀ x, x ∈ xs ↔ K (id x) = some x
  nodup : (xs.map id).Nodup

/-- A query for all the rows, in whatever order, lists what is read of them. -/
theorem lists_of_perm {α : Type} {id : α → κ} {scan : ρ → α} {xs : List ρ}
    (hid : ∀ r, id (scan r) = key r) (hkeys : (rows.map key).Nodup) (hperm : xs.Perm rows) :
    Lists (fun k => (rowAt key rows k).map scan) id (xs.map scan) where
  mem x := by
    rw [List.mem_map, Option.map_eq_some_iff]
    constructor
    · rintro ⟨r, hr, rfl⟩
      exact ⟨r, by rw [hid]; exact (mem_iff_rowAt hkeys).mp (hperm.mem_iff.mp hr), rfl⟩
    · rintro ⟨r, hr, rfl⟩
      exact ⟨r, hperm.mem_iff.mpr (rowAt_some hr).1, rfl⟩
  nodup := by
    rw [List.map_map, show id ∘ scan = key from funext hid]
    exact (hperm.map key).nodup_iff.mpr hkeys

/-- What is found in a list of the map under a key is the entry of the key. -/
theorem Lists.find_iff {α : Type} {K : κ → Option α} {id : α → κ} {xs : List α} (h : Lists K id xs)
    (hid : ∀ k x, K k = some x → id x = k) {k : κ} {x : α} :
    xs.find? (fun y => decide (id y = k)) = some x ↔ K k = some x := by
  constructor
  · intro hfind
    have hkey : id x = k :=
      of_decide_eq_true (List.find?_some (p := fun y => decide (id y = k)) hfind)
    exact hkey ▸ (h.mem x).mp (List.mem_of_find?_eq_some hfind)
  · intro hx
    have hkey := hid k x hx
    have hmem : x ∈ xs := (h.mem x).mpr (hkey ▸ hx)
    cases hfind : xs.find? (fun y => decide (id y = k)) with
    | none => exact absurd (decide_eq_true hkey) (List.find?_eq_none.mp hfind x hmem)
    | some y =>
      have hy : id y = k :=
        of_decide_eq_true (List.find?_some (p := fun y => decide (id y = k)) hfind)
      have hyx := (h.mem y).mp (List.mem_of_find?_eq_some hfind)
      rw [hy, hx] at hyx
      exact hyx.symm

end ReleaseRadar.Lib
