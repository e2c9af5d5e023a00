/-!
# Statements under READ COMMITTED

Row versions as a multi-version database keeps them: a version carries the
transaction that created it and, once it is deleted, the one that did. Any number
of transactions `τ` run statement by statement over one heap of versions.

* A statement sees the versions of a *snapshot*: those created, and not deleted,
  by a transaction that had committed when the statement started, or by its own
  (`Version.visible`).
* `DELETE` waits while a version it sees has been deleted by a transaction still
  under way, and skips it once that one has committed (`delete`).
* `INSERT ... ON CONFLICT DO NOTHING` goes by the unique index, which knows every
  version: it does nothing when a live version has the key, visible or not, and
  waits while whether one is live is still open (`insert`).

A statement that waits is not enabled (`none`). Transactions that abort are not
modelled: what is proved over this is about runs in which all of them commit.
-/

namespace ReleaseRadar.Lib.ReadCommitted

variable {τ ρ κ : Type} [DecidableEq τ] [DecidableEq κ]

/-- One version of a row. `xmin` created it (`none`: before the run), `xmax` deleted
it. -/
structure Version (τ ρ : Type) where
  row : ρ
  xmin : Option τ
  xmax : Option τ
deriving DecidableEq, Repr

namespace Version

/-- Created, and not deleted, by transactions of `S`. -/
def visible (S : List τ) (v : Version τ ρ) : Prop :=
  (∀ u ∈ v.xmin, u ∈ S) ∧ ∀ u ∈ v.xmax, u ∉ S

/-- Certainly there, to a transaction that knows the outcome of those in `S`. -/
def live (S : List τ) (v : Version τ ρ) : Prop := (∀ u ∈ v.xmin, u ∈ S) ∧ v.xmax = none

/-- Certainly gone. -/
def dead (S : List τ) (v : Version τ ρ) : Prop := ∃ u ∈ v.xmax, u ∈ S

instance (S : List τ) (v : Version τ ρ) : Decidable (v.visible S) :=
  inferInstanceAs (Decidable (_ ∧ _))

instance (S : List τ) (v : Version τ ρ) : Decidable (v.live S) :=
  inferInstanceAs (Decidable (_ ∧ _))

instance (S : List τ) (v : Version τ ρ) : Decidable (v.dead S) :=
  inferInstanceAs (Decidable (∃ u ∈ v.xmax, u ∈ S))

end Version

/-- The versions, and the transactions that have committed, the latest first. -/
structure Heap (τ ρ : Type) where
  versions : List (Version τ ρ)
  committed : List τ

namespace Heap

/-- A table before any of the transactions. -/
def ofRows (rows : List ρ) : Heap τ ρ := ⟨rows.map fun r => ⟨r, none, none⟩, []⟩

/-- `DELETE ... WHERE p` deletes a version it sees, unless another transaction has. -/
def deleteVersion (t : τ) (snap : List τ) (p : ρ → Bool) (v : Version τ ρ) : Version τ ρ :=
  if v.visible (t :: snap) ∧ p v.row ∧ v.xmax = none then { v with xmax := some t } else v

/-- The rest of a `DELETE ... WHERE p` of `t` that started on `snap`. -/
def delete (h : Heap τ ρ) (t : τ) (snap : List τ) (p : ρ → Bool) : Option (Heap τ ρ) :=
  if ∃ v ∈ h.versions, v.visible (t :: snap) ∧ p v.row ∧ ∃ u ∈ v.xmax, u ∉ h.committed then none
  else some { h with versions := h.versions.map (deleteVersion t snap p) }

/-- `INSERT ... ON CONFLICT DO NOTHING` of `t`, with a unique index on `key`. -/
def insert (h : Heap τ ρ) (t : τ) (key : ρ → κ) (r : ρ) : Option (Heap τ ρ) :=
  if ∃ v ∈ h.versions, key v.row = key r ∧ v.live (t :: h.committed) then some h
  else if ∃ v ∈ h.versions, key v.row = key r ∧ ¬v.dead (t :: h.committed) then none
  else some { h with versions := h.versions ++ [⟨r, some t, none⟩] }

def commit (h : Heap τ ρ) (t : τ) : Heap τ ρ := { h with committed := t :: h.committed }

/-- What a reader that starts now sees. -/
def rows (h : Heap τ ρ) : List ρ :=
  (h.versions.filter fun v => v.visible h.committed).map (·.row)

theorem mem_rows {h : Heap τ ρ} {r : ρ} :
    r ∈ h.rows ↔ ∃ v ∈ h.versions, v.visible h.committed ∧ v.row = r := by
  simp [rows, and_assoc]

/-! ## What the statements do -/

@[simp] theorem deleteVersion_row (t : τ) (snap : List τ) (p : ρ → Bool) (v : Version τ ρ) :
    (deleteVersion t snap p v).row = v.row := by
  unfold deleteVersion
  split <;> rfl

@[simp] theorem deleteVersion_xmin (t : τ) (snap : List τ) (p : ρ → Bool) (v : Version τ ρ) :
    (deleteVersion t snap p v).xmin = v.xmin := by
  unfold deleteVersion
  split <;> rfl

/-- A `DELETE` leaves a deleted version alone. -/
theorem deleteVersion_of_deleted {t : τ} {snap : List τ} {p : ρ → Bool} {v : Version τ ρ}
    (h : v.xmax ≠ none) : deleteVersion t snap p v = v := by
  unfold deleteVersion
  rw [if_neg fun hc => h hc.2.2]

/-- What a `DELETE` newly deletes, it saw and it matched. -/
theorem xmax_deleteVersion {t u : τ} {snap : List τ} {p : ρ → Bool} {v : Version τ ρ}
    (h : (deleteVersion t snap p v).xmax = some u) :
    v.xmax = some u ∨ (u = t ∧ v.visible (t :: snap) ∧ p v.row) := by
  unfold deleteVersion at h
  split at h
  · next hc => exact Or.inr ⟨(Option.some.inj h).symm, hc.1, hc.2.1⟩
  · exact Or.inl h

/-- After a `DELETE` every version of its snapshot that it matches is deleted. -/
theorem deleteVersion_deleted {t : τ} {snap : List τ} {p : ρ → Bool} {v : Version τ ρ}
    (hmin : ∀ u ∈ v.xmin, u ∈ t :: snap) (hp : p v.row) :
    (deleteVersion t snap p v).xmax ≠ none := by
  unfold deleteVersion
  split
  · exact Option.some_ne_none t
  · next hc =>
    intro hnone
    refine hc ⟨⟨hmin, fun u hu => ?_⟩, hp, hnone⟩
    rw [hnone] at hu
    cases hu

theorem delete_some {h h' : Heap τ ρ} {t : τ} {snap : List τ} {p : ρ → Bool}
    (hd : h.delete t snap p = some h') :
    h' = { h with versions := h.versions.map (deleteVersion t snap p) } := by
  unfold delete at hd
  split at hd
  · cases hd
  · exact (Option.some.inj hd).symm

/-- A `DELETE` waits for nobody while nothing is deleted. -/
theorem delete_of_undeleted {h : Heap τ ρ} {t : τ} {snap : List τ} {p : ρ → Bool}
    (hx : ∀ v ∈ h.versions, v.xmax = none) :
    h.delete t snap p = some { h with versions := h.versions.map (deleteVersion t snap p) } := by
  unfold delete
  rw [if_neg]
  intro hc
  obtain ⟨v, hv, -, -, u, hu, -⟩ := hc
  rw [hx v hv] at hu
  cases hu

/-- An `INSERT` that got through found a live version with its key, or none that may
turn out to be live. -/
theorem insert_some {h h' : Heap τ ρ} {t : τ} {key : ρ → κ} {r : ρ}
    (hi : h.insert t key r = some h') :
    (h' = h ∧ ∃ v ∈ h.versions, key v.row = key r ∧ v.live (t :: h.committed)) ∨
      (h' = { h with versions := h.versions ++ [⟨r, some t, none⟩] } ∧
        ∀ v ∈ h.versions, key v.row = key r → v.dead (t :: h.committed)) := by
  unfold insert at hi
  split at hi
  · next hlive => exact Or.inl ⟨(Option.some.inj hi).symm, hlive⟩
  · split at hi
    · cases hi
    · next hdoubt =>
      refine Or.inr ⟨(Option.some.inj hi).symm, fun v hv hk => ?_⟩
      by_cases hd : v.dead (t :: h.committed)
      · exact hd
      · exact absurd ⟨v, hv, hk, hd⟩ hdoubt

end Heap

end ReleaseRadar.Lib.ReadCommitted
