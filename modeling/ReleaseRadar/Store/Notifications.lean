import Mathlib.Data.List.Nodup
import ReleaseRadar.Domain

/-!
# The `notifications` table

The dispatch queue of `migrations/0001_init.sql` and `0004_notification_attempts.sql`
with the statements of `repository.go` that touch it: `RescheduleNotifications`,
`PendingNotifications`, `MarkNotificationSent`, and the cascade of
`DeleteRollout`.

The table carries its constraints: the serial primary key, and
`UNIQUE (rollout_id, stage_seq, fire_at, channel)`. Every statement below is an
operation on `NotificationTable`, so no later proof re-establishes them.

* `mem_reschedule` — what a reschedule leaves in the table: the old rows except
  the rollout's unsent ones, and fresh rows for items whose key was free;
* `reschedule_covers` — every item has a row afterwards, fresh or already there.
-/

namespace ReleaseRadar

/-- The two values the `channel` column admits. -/
inductive Channel
  | TMS_NP
  | TMS_PROD
deriving DecidableEq, Repr

/-- One advance warning to enqueue for a rollout stage. -/
structure ScheduledNotification where
  stageSeq : Nat
  channel : Channel
  fireAt : Int
deriving DecidableEq, Repr

/-- The item as the database stores it. -/
def ScheduledNotification.stored (it : ScheduledNotification) : ScheduledNotification :=
  { it with fireAt := pgTimestamp it.fireAt }

/-- A row of the table. -/
structure Notification where
  id : Nat
  rolloutId : String
  stageSeq : Nat
  channel : Channel
  fireAt : Int
  sentAt : Option Int
  lastError : Option String
  attempts : Nat
deriving DecidableEq, Repr

namespace Notification

/-- What the row announces: the columns an insert supplies. -/
def item (n : Notification) : ScheduledNotification := ⟨n.stageSeq, n.channel, n.fireAt⟩

/-- The unique key. -/
def key (n : Notification) : String × ScheduledNotification := (n.rolloutId, n.item)

/-- `sent_at IS NULL`. -/
def unsent (n : Notification) : Bool := n.sentAt.isNone

end Notification

/-- The table, with its primary key, its serial and its unique key. -/
structure NotificationTable where
  rows : List Notification
  nextId : Nat
  ids_lt : ∀ n ∈ rows, n.id < nextId
  ids_nodup : (rows.map (·.id)).Nodup
  keys_nodup : (rows.map (·.key)).Nodup

namespace NotificationTable

/-- The table of a fresh database. -/
def empty : NotificationTable := ⟨[], 0, by simp, by simp, by simp⟩

/-- A row is determined by its unique key. -/
theorem eq_of_key {t : NotificationTable} {m n : Notification} (hm : m ∈ t.rows) (hn : n ∈ t.rows)
    (h : m.key = n.key) : m = n :=
  List.inj_on_of_nodup_map t.keys_nodup hm hn h

/-- A row is determined by its id. -/
theorem eq_of_id {t : NotificationTable} {m n : Notification} (hm : m ∈ t.rows) (hn : n ∈ t.rows)
    (h : m.id = n.id) : m = n :=
  List.inj_on_of_nodup_map t.ids_nodup hm hn h

/-! ## Statements -/

/-- `DELETE ... WHERE NOT p`. -/
def keep (p : Notification → Bool) (t : NotificationTable) : NotificationTable where
  rows := t.rows.filter p
  nextId := t.nextId
  ids_lt n hn := t.ids_lt n (List.mem_filter.mp hn).1
  ids_nodup := t.ids_nodup.sublist (List.filter_sublist.map _)
  keys_nodup := t.keys_nodup.sublist (List.filter_sublist.map _)

/-- `UPDATE ... SET`, leaving the id and the key columns alone. -/
def update (f : Notification → Notification) (hid : ∀ n, (f n).id = n.id)
    (hkey : ∀ n, (f n).key = n.key) (t : NotificationTable) : NotificationTable where
  rows := t.rows.map f
  nextId := t.nextId
  ids_lt n hn := by
    obtain ⟨m, hm, rfl⟩ := List.mem_map.mp hn
    rw [hid]
    exact t.ids_lt m hm
  ids_nodup := by
    rw [List.map_map, show (fun n : Notification => n.id) ∘ f = (·.id) from funext hid]
    exact t.ids_nodup
  keys_nodup := by
    rw [List.map_map, show (fun n : Notification => n.key) ∘ f = (·.key) from funext hkey]
    exact t.keys_nodup

/-- The row an insert creates; the other columns take their defaults. -/
def newRow (id : Nat) (rolloutId : String) (it : ScheduledNotification) : Notification :=
  ⟨id, rolloutId, it.stageSeq, it.channel, pgTimestamp it.fireAt, none, none, 0⟩

/-- A new row has the key of its item as stored. -/
@[simp] theorem newRow_key (id : Nat) (rid : String) (it : ScheduledNotification) :
    (newRow id rid it).key = (rid, it.stored) := rfl

/-- `INSERT INTO notifications ... ON CONFLICT DO NOTHING`. The serial advances
even when the key was taken. -/
def insert (rolloutId : String) (t : NotificationTable) (it : ScheduledNotification) :
    NotificationTable :=
  if h : (rolloutId, it.stored) ∈ t.rows.map (·.key) then
    { t with
      nextId := t.nextId + 1
      ids_lt := fun n hn => Nat.lt_succ_of_lt (t.ids_lt n hn) }
  else
    { rows := t.rows ++ [newRow t.nextId rolloutId it]
      nextId := t.nextId + 1
      ids_lt := by
        intro n hn
        rcases List.mem_append.mp hn with h₁ | h₁
        · exact Nat.lt_succ_of_lt (t.ids_lt n h₁)
        · rw [List.mem_singleton.mp h₁]
          exact Nat.lt_succ_self _
      ids_nodup := by
        rw [List.map_append, List.map_singleton]
        refine t.ids_nodup.append (List.nodup_singleton _) ?_
        intro i hi hi'
        obtain ⟨n, hn, rfl⟩ := List.mem_map.mp hi
        rw [List.mem_singleton] at hi'
        exact absurd (t.ids_lt n hn) (by rw [hi']; exact Nat.lt_irrefl _)
      keys_nodup := by
        rw [List.map_append, List.map_singleton, newRow_key]
        refine t.keys_nodup.append (List.nodup_singleton _) ?_
        intro k hk hk'
        rw [List.mem_singleton] at hk'
        exact h (hk' ▸ hk) }

/-- `DELETE FROM notifications WHERE rollout_id=$1 AND sent_at IS NULL`. -/
def deleteUnsent (rolloutId : String) (t : NotificationTable) : NotificationTable :=
  t.keep fun n => !(n.rolloutId == rolloutId && n.unsent)

/-- The cascade of `DELETE FROM rollouts WHERE id=$1`. -/
def deleteRollout (rolloutId : String) (t : NotificationTable) : NotificationTable :=
  t.keep fun n => !(n.rolloutId == rolloutId)

/-- What the transaction of `RescheduleNotifications` does to the table. -/
def reschedule (rolloutId : String) (items : List ScheduledNotification) (t : NotificationTable) :
    NotificationTable :=
  items.foldl (insert rolloutId) (t.deleteUnsent rolloutId)

/-- `notifyMaxAttempts`. -/
def notifyMaxAttempts : Nat := 5

/-- `MarkNotificationSent` on one row, at database time `now`: `err = ""` marks
it sent, any other text counts a failed attempt and dead-letters the fifth. -/
def markRow (now : Int) (id : Nat) (err : String) (n : Notification) : Notification :=
  if n.id = id ∧ n.unsent then
    if err = "" then { n with sentAt := some (pgTimestamp now), lastError := none }
    else
      { n with
        lastError := some err
        attempts := n.attempts + 1
        sentAt := if n.attempts + 1 ≥ notifyMaxAttempts then some (pgTimestamp now) else n.sentAt }
  else n

/-- Marking leaves the id, -/
@[simp] theorem markRow_id (now : Int) (id : Nat) (err : String) (n : Notification) :
    (markRow now id err n).id = n.id := by
  unfold markRow
  split
  · split <;> rfl
  · rfl

/-- and the key. -/
@[simp] theorem markRow_key (now : Int) (id : Nat) (err : String) (n : Notification) :
    (markRow now id err n).key = n.key := by
  unfold markRow
  split
  · split <;> rfl
  · rfl

/-- `MarkNotificationSent`. -/
def markSent (now : Int) (id : Nat) (err : String) (t : NotificationTable) : NotificationTable :=
  t.update (markRow now id err) (markRow_id now id err) (markRow_key now id err)

/-- The rows `PendingNotifications` selects from, `now` being its parameter. -/
def due (now : Int) (t : NotificationTable) : List Notification :=
  t.rows.filter fun n => n.unsent && decide (n.fireAt ≤ pgTimestamp now)

/-- `LIMIT 100`. -/
def pendingLimit : Nat := 100

/-- `sorted` is an order in which the due rows may come back: `ORDER BY fire_at`
leaves the order among equal times to the database. -/
def DueOrder (now : Int) (t : NotificationTable) (sorted : List Notification) : Prop :=
  sorted.Perm (t.due now) ∧ sorted.Pairwise fun m n => m.fireAt ≤ n.fireAt

instance (now : Int) (t : NotificationTable) (sorted : List Notification) :
    Decidable (DueOrder now t sorted) :=
  inferInstanceAs (Decidable (_ ∧ _))

/-! ## What the statements do to the rows -/

/-- What is kept was there and is to be kept. -/
@[simp] theorem mem_keep {p : Notification → Bool} {t : NotificationTable} {n : Notification} :
    n ∈ (t.keep p).rows ↔ n ∈ t.rows ∧ p n = true :=
  List.mem_filter

/-- Only unsent rows of the rollout go. -/
theorem mem_deleteUnsent {rid : String} {t : NotificationTable} {n : Notification} :
    n ∈ (t.deleteUnsent rid).rows ↔ n ∈ t.rows ∧ ¬(n.rolloutId = rid ∧ n.unsent) := by
  unfold deleteUnsent
  rw [mem_keep]
  simp only [Bool.not_eq_true', Bool.and_eq_false_imp, beq_iff_eq, not_and, Bool.not_eq_true]

/-- All rows of the rollout go. -/
theorem mem_deleteRollout {rid : String} {t : NotificationTable} {n : Notification} :
    n ∈ (t.deleteRollout rid).rows ↔ n ∈ t.rows ∧ n.rolloutId ≠ rid := by
  unfold deleteRollout
  rw [mem_keep]
  simp

/-- Due is what is unsent and not in the future. -/
theorem mem_due {now : Int} {t : NotificationTable} {n : Notification} :
    n ∈ t.due now ↔ n ∈ t.rows ∧ n.unsent ∧ n.fireAt ≤ pgTimestamp now := by
  simp [due]

/-- An insert adds its row when the key is free, and nothing else. -/
theorem mem_insert {rid : String} {t : NotificationTable} {it : ScheduledNotification}
    {n : Notification} :
    n ∈ (insert rid t it).rows ↔
      n ∈ t.rows ∨ ((∀ m ∈ t.rows, m.key ≠ (rid, it.stored)) ∧ n = newRow t.nextId rid it) := by
  unfold insert
  split
  next h =>
    obtain ⟨m, hm, hk⟩ := List.mem_map.mp h
    constructor
    · exact Or.inl
    · rintro (h₁ | ⟨h₁, -⟩)
      · exact h₁
      · exact absurd hk (h₁ m hm)
  next h =>
    have hfree : ∀ m ∈ t.rows, m.key ≠ (rid, it.stored) :=
      fun m hm hk => h (List.mem_map.mpr ⟨m, hm, hk⟩)
    simp only [List.mem_append, List.mem_singleton]
    constructor
    · rintro (h₁ | h₁)
      · exact Or.inl h₁
      · exact Or.inr ⟨hfree, h₁⟩
    · rintro (h₁ | ⟨-, h₁⟩)
      · exact Or.inl h₁
      · exact Or.inr h₁

/-- After an insert some row has its key. -/
theorem insert_covers (rid : String) (t : NotificationTable) (it : ScheduledNotification) :
    ∃ n ∈ (insert rid t it).rows, n.key = (rid, it.stored) := by
  by_cases h : ∀ m ∈ t.rows, m.key ≠ (rid, it.stored)
  · exact ⟨newRow t.nextId rid it, mem_insert.mpr (Or.inr ⟨h, rfl⟩), rfl⟩
  · obtain ⟨m, hm, hk⟩ : ∃ m ∈ t.rows, m.key = (rid, it.stored) := by
      simpa using h
    exact ⟨m, mem_insert.mpr (Or.inl hm), hk⟩

/-- Every insert draws an id, a refused one too. -/
@[simp] theorem insert_nextId (rid : String) (t : NotificationTable) (it : ScheduledNotification) :
    (insert rid t it).nextId = t.nextId + 1 := by
  unfold insert
  split <;> rfl

/-- Inserts never remove a row. -/
theorem subset_insertAll {rid : String} {items : List ScheduledNotification} :
    ∀ {t : NotificationTable} {n : Notification}, n ∈ t.rows →
      n ∈ (items.foldl (insert rid) t).rows := by
  induction items with
  | nil => intro t n h; exact h
  | cons it items ih => intro t n h; exact ih (mem_insert.mpr (Or.inl h))

/-- A row the inserts of `items` added: unsent, untried, with a fresh id, for one
of the items, under a key no earlier row had. -/
structure Fresh (rid : String) (items : List ScheduledNotification) (t : NotificationTable)
    (n : Notification) : Prop where
  rolloutId : n.rolloutId = rid
  sentAt : n.sentAt = none
  lastError : n.lastError = none
  attempts : n.attempts = 0
  id : t.nextId ≤ n.id
  item : ∃ it ∈ items, n.item = it.stored
  key : ∀ m ∈ t.rows, m.key ≠ n.key

/-- What is there after the inserts was there or is new. -/
theorem mem_insertAll {rid : String} {items : List ScheduledNotification} :
    ∀ {t : NotificationTable} {n : Notification},
      n ∈ (items.foldl (insert rid) t).rows → n ∈ t.rows ∨ Fresh rid items t n := by
  induction items with
  | nil => intro t n h; exact Or.inl h
  | cons it items ih =>
    intro t n h
    rw [List.foldl_cons] at h
    rcases ih h with h₁ | h₁
    · rcases mem_insert.mp h₁ with h₂ | ⟨hfree, rfl⟩
      · exact Or.inl h₂
      · exact Or.inr ⟨rfl, rfl, rfl, rfl, Nat.le_refl _, ⟨it, List.mem_cons_self .., rfl⟩, hfree⟩
    · obtain ⟨it', hit', he⟩ := h₁.item
      refine Or.inr ⟨h₁.rolloutId, h₁.sentAt, h₁.lastError, h₁.attempts, ?_,
        ⟨it', List.mem_cons_of_mem _ hit', he⟩, fun m hm => h₁.key m (mem_insert.mpr (Or.inl hm))⟩
      have hid := h₁.id
      rw [insert_nextId] at hid
      omega

/-- **What a reschedule leaves in the table.** -/
theorem mem_reschedule {rid : String} {items : List ScheduledNotification} {t : NotificationTable}
    {n : Notification} (h : n ∈ (t.reschedule rid items).rows) :
    (n ∈ t.rows ∧ ¬(n.rolloutId = rid ∧ n.unsent)) ∨
      Fresh rid items (t.deleteUnsent rid) n := by
  rcases mem_insertAll h with h₁ | h₁
  · exact Or.inl (mem_deleteUnsent.mp h₁)
  · exact Or.inr h₁

/-- Sent rows and the rows of other rollouts survive a reschedule. -/
theorem reschedule_keeps {rid : String} {items : List ScheduledNotification}
    {t : NotificationTable} {n : Notification} (hn : n ∈ t.rows)
    (h : ¬(n.rolloutId = rid ∧ n.unsent)) : n ∈ (t.reschedule rid items).rows :=
  subset_insertAll (mem_deleteUnsent.mpr ⟨hn, h⟩)

/-- After a reschedule every item has a row. -/
theorem reschedule_covers {rid : String} {items : List ScheduledNotification}
    {it : ScheduledNotification} (hit : it ∈ items) (t : NotificationTable) :
    ∃ n ∈ (t.reschedule rid items).rows, n.key = (rid, it.stored) := by
  unfold reschedule
  generalize t.deleteUnsent rid = t
  induction items generalizing t with
  | nil => cases hit
  | cons it' items ih =>
    rw [List.foldl_cons]
    rcases List.mem_cons.mp hit with rfl | h
    · obtain ⟨n, hn, hk⟩ := insert_covers rid t it
      exact ⟨n, subset_insertAll hn, hk⟩
    · exact ih h (insert rid t it')

/-- An item's row after a reschedule is unsent, or was there, sent, before. -/
theorem reschedule_covers_unsent {rid : String} {items : List ScheduledNotification}
    {it : ScheduledNotification} (hit : it ∈ items) (t : NotificationTable) :
    (∃ n ∈ (t.reschedule rid items).rows, n.key = (rid, it.stored) ∧ n.unsent) ∨
      ∃ n ∈ t.rows, n.key = (rid, it.stored) ∧ ¬n.unsent := by
  obtain ⟨n, hn, hk⟩ : ∃ n ∈ (t.reschedule rid items).rows, n.key = (rid, it.stored) :=
    reschedule_covers hit t
  by_cases hu : n.unsent
  · exact Or.inl ⟨n, hn, hk, hu⟩
  · rcases mem_reschedule hn with ⟨hn', -⟩ | hf
    · exact Or.inr ⟨n, hn', hk, hu⟩
    · exact absurd (by simp [Notification.unsent, hf.sentAt]) hu

/-- Inserts of new, pairwise different items append a row for each, in their order. -/
theorem rows_insertAll {rid : String} {items : List ScheduledNotification} :
    ∀ {t : NotificationTable}, (items.map (·.stored)).Nodup →
      (∀ n ∈ t.rows, n.rolloutId = rid → ∀ it ∈ items, n.item ≠ it.stored) →
      (items.foldl (insert rid) t).rows =
        t.rows ++ (items.zipIdx t.nextId).map fun it => newRow it.2 rid it.1 := by
  induction items with
  | nil => intro t _ _; exact (List.append_nil _).symm
  | cons it items ih =>
    intro t hnodup hfree
    obtain ⟨hnew, hnodup⟩ := List.nodup_cons.mp hnodup
    -- the first key is free, so its row goes in
    have hkey : (rid, it.stored) ∉ t.rows.map (·.key) := by
      intro hk
      obtain ⟨n, hn, he⟩ := List.mem_map.mp hk
      exact hfree n hn (congrArg Prod.fst he) it (List.mem_cons_self ..) (congrArg Prod.snd he)
    have hrows : (insert rid t it).rows = t.rows ++ [newRow t.nextId rid it] := by
      unfold insert
      rw [dif_neg hkey]
    -- and it stands in the way of none of the others
    have hfree' : ∀ n ∈ (insert rid t it).rows, n.rolloutId = rid → ∀ it' ∈ items,
        n.item ≠ it'.stored := by
      intro n hn hr it' hit' he
      rw [hrows] at hn
      rcases List.mem_append.mp hn with hold | hlast
      · exact hfree n hold hr it' (List.mem_cons_of_mem _ hit') he
      · rw [List.mem_singleton.mp hlast] at he
        exact hnew (List.mem_map.mpr ⟨it', hit', he.symm⟩)
    rw [List.foldl_cons, ih hnodup hfree', hrows, insert_nextId, List.append_assoc]
    rfl

/-- The rollout has an unsent row for the item. -/
def Queues (t : NotificationTable) (rid : String) (it : ScheduledNotification) : Prop :=
  ∃ n ∈ t.rows, n.rolloutId = rid ∧ n.unsent ∧ n.item = it

/-- **A reschedule replaces the queue of its rollout**, when no sent row is in the
way of an item. -/
theorem queues_reschedule {rid : String} {items : List ScheduledNotification}
    {t : NotificationTable}
    (hfree : ∀ n ∈ t.rows, n.rolloutId = rid → ¬n.unsent → ∀ it ∈ items, n.item ≠ it.stored)
    (it : ScheduledNotification) :
    (t.reschedule rid items).Queues rid it ↔ ∃ it' ∈ items, it = it'.stored := by
  constructor
  · intro hq
    obtain ⟨n, hn, hr, hu, rfl⟩ := hq
    rcases mem_reschedule hn with ⟨-, hne⟩ | hf
    · exact absurd ⟨hr, hu⟩ hne
    · exact hf.item
  · intro hit
    obtain ⟨it', hit', rfl⟩ := hit
    rcases reschedule_covers_unsent hit' t with ⟨n, hn, hk, hu⟩ | ⟨n, hn, hk, hu⟩
    · exact ⟨n, hn, congrArg Prod.fst hk, hu, congrArg Prod.snd hk⟩
    · exact absurd (congrArg Prod.snd hk) (hfree n hn (congrArg Prod.fst hk) hu it' hit')

/-- A reschedule leaves the queue of every other rollout alone. -/
theorem queues_reschedule_ne {rid rid' : String} (h : rid' ≠ rid)
    {items : List ScheduledNotification} {t : NotificationTable} {it : ScheduledNotification} :
    (t.reschedule rid items).Queues rid' it ↔ t.Queues rid' it := by
  constructor
  · intro hq
    obtain ⟨n, hn, hr, hu, hit⟩ := hq
    rcases mem_reschedule hn with ⟨hn', -⟩ | hf
    · exact ⟨n, hn', hr, hu, hit⟩
    · exact absurd (hr.symm.trans hf.rolloutId) h
  · intro hq
    obtain ⟨n, hn, hr, hu, hit⟩ := hq
    exact ⟨n, reschedule_keeps hn fun hc => h (hr.symm.trans hc.1), hr, hu, hit⟩

/-- A row after the mark was a row before it. -/
theorem mem_markSent {now : Int} {id : Nat} {err : String} {t : NotificationTable}
    {n : Notification} :
    n ∈ (t.markSent now id err).rows ↔ ∃ m ∈ t.rows, markRow now id err m = n :=
  List.mem_map

/-! ## Rows and their ids -/

/-- How a table can change: a row keeps its id and its key, and a new row gets an
id that was never given out. -/
structure Evolves (t t' : NotificationTable) : Prop where
  nextId : t.nextId ≤ t'.nextId
  row : ∀ m ∈ t'.rows, (∃ m₀ ∈ t.rows, m₀.id = m.id ∧ m₀.key = m.key) ∨ t.nextId ≤ m.id

theorem evolves_refl (t : NotificationTable) : Evolves t t :=
  ⟨Nat.le_refl _, fun m hm => Or.inl ⟨m, hm, rfl, rfl⟩⟩

/-- A delete is one way the table changes. -/
theorem evolves_keep (p : Notification → Bool) (t : NotificationTable) : Evolves t (t.keep p) :=
  ⟨Nat.le_refl _, fun m hm => Or.inl ⟨m, (mem_keep.mp hm).1, rfl, rfl⟩⟩

/-- Ids only grow. -/
theorem nextId_le_insertAll (rid : String) (items : List ScheduledNotification) :
    ∀ t : NotificationTable, t.nextId ≤ (items.foldl (insert rid) t).nextId := by
  induction items with
  | nil => intro t; exact Nat.le_refl _
  | cons it items ih =>
    intro t
    have h := ih (insert rid t it)
    rw [insert_nextId] at h
    rw [List.foldl_cons]
    omega

/-- A reschedule is one. -/
theorem evolves_reschedule (rid : String) (items : List ScheduledNotification)
    (t : NotificationTable) : Evolves t (t.reschedule rid items) := by
  refine ⟨nextId_le_insertAll rid items (t.deleteUnsent rid), fun m hm => ?_⟩
  rcases mem_reschedule hm with ⟨hm', -⟩ | hf
  · exact Or.inl ⟨m, hm', rfl, rfl⟩
  · exact Or.inr hf.id

/-- A mark is one. -/
theorem evolves_markSent (now : Int) (id : Nat) (err : String) (t : NotificationTable) :
    Evolves t (t.markSent now id err) := by
  refine ⟨Nat.le_refl _, fun m hm => ?_⟩
  obtain ⟨m₀, hm₀, rfl⟩ := mem_markSent.mp hm
  exact Or.inl ⟨m₀, hm₀, (markRow_id ..).symm, (markRow_key ..).symm⟩

/-! ## Marking -/

/-- Marking leaves every other row alone. -/
theorem markRow_of_ne {now : Int} {id : Nat} {err : String} {n : Notification} (h : n.id ≠ id) :
    markRow now id err n = n := by
  unfold markRow
  rw [if_neg (fun hc => h hc.1)]

/-- Marking leaves a row that is already sent alone. -/
theorem markRow_of_sent {now : Int} {id : Nat} {err : String} {n : Notification}
    (h : ¬n.unsent) : markRow now id err n = n := by
  unfold markRow
  rw [if_neg (fun hc => h hc.2)]

/-- Marking without an error marks the row sent. -/
theorem markRow_sent {now : Int} {id : Nat} {n : Notification} (h : n.id = id) :
    ¬(markRow now id "" n).unsent := by
  unfold markRow
  split
  · simp [Notification.unsent]
  · next hc =>
    intro hu
    exact hc ⟨h, hu⟩

/-- Marking never changes the attempts of a row that succeeded. -/
theorem markRow_succeeded {now : Int} {id : Nat} {n : Notification} :
    (markRow now id "" n).attempts = n.attempts := by
  unfold markRow
  split <;> rfl

/-- A failure is counted, and the fifth marks the row. -/
theorem markRow_failed (now : Int) {id : Nat} {err : String} {n : Notification} (hid : n.id = id)
    (hu : n.unsent) (he : err ≠ "") :
    (markRow now id err n).attempts = n.attempts + 1 ∧
      ((markRow now id err n).unsent ↔ n.attempts + 1 < notifyMaxAttempts) := by
  have hs : n.sentAt = none := by simpa [Notification.unsent] using hu
  unfold markRow
  rw [if_pos ⟨hid, hu⟩, if_neg he]
  refine ⟨rfl, ?_⟩
  by_cases h : n.attempts + 1 ≥ notifyMaxAttempts
  · simp [Notification.unsent, h]
  · simp only [Notification.unsent, if_neg h, hs, Option.isNone_none, true_iff]
    omega

end NotificationTable

end ReleaseRadar
