import ReleaseRadar.Api.RolloutWrite
import ReleaseRadar.Lib.Machine

/-!
# An edit session on a rollout

The edit mode of `rollout-detail.component.ts`: `enterEdit` clones the loaded rollout
into a draft, the form edits the draft, `save` sends it as a `PATCH`. Meanwhile other
admins complete tasks through `updateTask`.

The `PATCH` carries the whole task list, and `UpdateRollout` replaces the stored one by
it. So after a save every task has the log it had when the draft was loaded, wherever
the edits have moved it (`saved_log_is_loaded`), and a completion recorded in between is
gone (`completion_overwritten`).
-/

namespace ReleaseRadar.Frontend

open Lib Repository Api

/-! ## The draft -/

/-- What `String.prototype.trim` strips. -/
def jsSpace (c : Char) : Bool :=
  (9 ≤ c.toNat && c.toNat ≤ 13) || (0x2000 ≤ c.toNat && c.toNat ≤ 0x200A) ||
    [0x20, 0xA0, 0x1680, 0x2028, 0x2029, 0x202F, 0x205F, 0x3000, 0xFEFF].contains c.toNat

def trim (cs : List Char) : String :=
  String.ofList ((cs.dropWhile jsSpace).reverse.dropWhile jsSpace).reverse

/-- What the form can do to the draft: the fields of `patchDraft`, `setPair`,
`addDraftTask`, `editDraftTask`, `removeDraftTask` and `moveDraftTask`. -/
inductive Edit
  | title (v : String)
  | descExt (v : String)
  | descInt (v : String)
  | risks (v : String)
  | setPair (v : String)
  | addTask (text : String)
  | editTask (i : Nat) (v : String)
  | removeTask (i : Nat)
  | moveTask (i : Nat) (dir : Int)
deriving DecidableEq, Repr

/-- Where `moveDraftTask` puts a task; `i` is the index of a task on the page. -/
def moveTarget (d : Rollout) (i : Nat) (dir : Int) : Option Nat :=
  let j := (i : Int) + dir
  if i < d.tasks.items.length ∧ 0 ≤ j ∧ j < d.tasks.items.length then some j.toNat else none

/-- `[tasks[i], tasks[j]] = [tasks[j], tasks[i]]`. -/
def swap {α : Type} (xs : List α) (i j : Nat) : List α :=
  match xs[i]?, xs[j]? with
  | some x, some y => (xs.set i y).set j x
  | _, _ => xs

/-- A task that `addDraftTask` appends. -/
def newTask (index : Nat) (description : String) : RolloutTask :=
  ⟨index, description, "", "", "", none⟩

def Edit.apply (d : Rollout) : Edit → Rollout
  | .title v => { d with title := v }
  | .descExt v => { d with descExt := v }
  | .descInt v => { d with descInt := v }
  | .risks v => { d with risks := v }
  | .setPair v =>
    { d with pair := some (((v.toList.splitOnP (· == ',')).map trim).filter (· ≠ "")) }
  | .addTask text =>
    if trim text.toList = "" then d
    else
      { d with
        tasks := some (d.tasks.items ++ [newTask d.tasks.items.length (trim text.toList)]) }
  | .editTask i v =>
    { d with tasks := some (d.tasks.items.modify i fun t => { t with description := v }) }
  | .removeTask i => { d with tasks := some (d.tasks.items.eraseIdx i) }
  | .moveTask i dir =>
    match moveTarget d i dir with
    | none => d
    | some j => { d with tasks := some (swap d.tasks.items i j) }

/-- Where an edit leaves the task at index `p`, `none` when it removes it. -/
def Edit.position (d : Rollout) (p : Nat) : Edit → Option Nat
  | .removeTask i => if i = p then none else if i < p then some (p - 1) else some p
  | .moveTask i dir =>
    match moveTarget d i dir with
    | none => some p
    | some j => some (if p = i then j else if p = j then i else p)
  | _ => some p

/-- Where a series of edits leaves it. -/
def position (d : Rollout) (p : Nat) : List Edit → Option Nat
  | [] => some p
  | e :: es => (e.position d p).bind fun p' => position (e.apply d) p' es

/-- `time.Time{}`, the year 1. -/
def zeroTime : Int := -62135596800 * second

/-- The body that `save` sends, as the handler decodes it. -/
def saveBody (d : Rollout) : Rollout :=
  ⟨"", "", "", d.title, d.descExt, d.descInt, d.risks, d.stages, d.pair, d.tasks, zeroTime,
    zeroTime, ""⟩

/-! ## The session -/

structure State where
  store : Store
  draft : Option Rollout

/-- A step of the session, or another admin's `updateTask`. -/
inductive Action
  | load
  | edit (e : Edit)
  | complete (env : Env) (sess : Session) (id seq : String) (body : Option TaskBody)
    (faults : Faults Err)
  | save (env : Env) (faults : Faults Err)

/-- The session on rollout `id`. A save that fails leaves the draft open. -/
def step (id : String) (s : State) : Action → Option State
  | .load =>
    match s.draft, (rollout id).run s.store with
    | none, (.ok ro, store) => some ⟨store, some ro⟩
    | _, _ => none
  | .edit e => s.draft.map fun d => { s with draft := some (e.apply d) }
  | .complete env sess rid seq body faults =>
    some { s with store := (serve (updateTask env sess rid seq body) faults ⟨s.store, 0⟩).2.store }
  | .save env faults =>
    s.draft.map fun d =>
      let res := serve (updateRollout env id (some (saveBody d))) faults ⟨s.store, 0⟩
      ⟨res.2.store, if res.1.status = 200 then none else s.draft⟩

def session (id : String) : Machine State Action := ⟨step id⟩

/-- The edits of a run. -/
def editsOf : List Action → List Edit
  | [] => []
  | .edit e :: as => e :: editsOf as
  | _ :: as => editsOf as

/-- Neither a load nor a save. -/
def Between : Action → Prop
  | .edit _ | .complete _ _ _ _ _ _ => True
  | .load | .save _ _ => False

instance : (a : Action) → Decidable (Between a)
  | .edit _ | .complete _ _ _ _ _ _ => isTrue trivial
  | .load | .save _ _ => isFalse nofun

/-- The completion log of a task. -/
structure Log where
  status : String
  reason : String
  by_ : String
  at_ : Option Int
deriving DecidableEq, Repr

def logOf (t : RolloutTask) : Log := ⟨t.status, t.reason, t.by_, t.at_⟩

/-- The log of a rollout's task at index `k`. -/
def storedLog (s : Store) (id : String) (k : Nat) : Option Log := (tasksOf s id)[k]?.map logOf

/-- What the columns of `rollout_tasks` admit: the statuses of its `CHECK`, and whole
microseconds. -/
def Admitted (r : TaskRow) : Prop :=
  clampStatus r.status = r.status ∧ ∀ t ∈ r.completedAt, pgTimestamp t = t

instance (r : TaskRow) : Decidable (Admitted r) := inferInstanceAs (Decidable (_ ∧ _))

/-! ## Edits keep the log -/

theorem getElem?_swap {α : Type} {xs : List α} {i j : Nat} (hi : i < xs.length) (hj : j < xs.length)
    (p : Nat) :
    (swap xs i j)[if p = i then j else if p = j then i else p]? = xs[p]? := by
  unfold swap
  rw [List.getElem?_eq_getElem hi, List.getElem?_eq_getElem hj]
  simp only
  by_cases hpi : p = i
  · subst hpi
    simp [hj, hi]
  · by_cases hpj : p = j
    · subst hpj
      have hne : ¬p = i := hpi
      simp [hpi, hi, hj]
    · simp [hpi, hpj, Ne.symm hpi, Ne.symm hpj]

theorem moveTarget_some {d : Rollout} {i j : Nat} {dir : Int} (h : moveTarget d i dir = some j) :
    i < d.tasks.items.length ∧ j < d.tasks.items.length := by
  simp only [moveTarget, Option.ite_none_right_eq_some, Option.some.injEq] at h
  omega

/-- **An edit moves the log of a task with the task.** -/
theorem log_apply {d : Rollout} {e : Edit} {p q : Nat} (hp : p < d.tasks.items.length)
    (hq : e.position d p = some q) :
    ((e.apply d).tasks.items[q]?).map logOf = (d.tasks.items[p]?).map logOf := by
  cases e with
  | title v | descExt v | descInt v | risks v | setPair v =>
    obtain rfl := Option.some.inj hq
    rfl
  | addTask text =>
    obtain rfl := Option.some.inj hq
    simp only [Edit.apply]
    split
    · rfl
    · rw [Slice.items_some, List.getElem?_append_left hp]
  | editTask i v =>
    obtain rfl := Option.some.inj hq
    simp only [Edit.apply, Slice.items_some, List.getElem?_modify]
    -- the description is no part of the log
    cases d.tasks.items[p]? with
    | none => rfl
    | some t => by_cases hi : i = p <;> simp [hi, logOf]
  | removeTask i =>
    simp only [Edit.position] at hq
    split at hq
    · cases hq
    · next hne =>
      simp only [Edit.apply, Slice.items_some, List.getElem?_eraseIdx]
      split at hq
      · next hlt =>
        obtain rfl := Option.some.inj hq
        rw [if_neg (by omega), Nat.sub_add_cancel (by omega)]
      · next hge =>
        obtain rfl := Option.some.inj hq
        rw [if_pos (by omega)]
  | moveTask i dir =>
    cases hm : moveTarget d i dir with
    | none =>
      simp only [Edit.position, Edit.apply, hm] at hq ⊢
      obtain rfl := Option.some.inj hq
      rfl
    | some j =>
      simp only [Edit.position, Edit.apply, hm, Slice.items_some] at hq ⊢
      obtain ⟨hi, hj⟩ := moveTarget_some hm
      rw [← Option.some.inj hq, getElem?_swap hi hj]

/-- Any series of edits does. -/
theorem log_edits {es : List Edit} {d : Rollout} {p q : Nat} (hp : p < d.tasks.items.length)
    (hq : position d p es = some q) :
    (((es.foldl Edit.apply d)).tasks.items[q]?).map logOf = (d.tasks.items[p]?).map logOf := by
  induction es generalizing d p with
  | nil =>
    obtain rfl := Option.some.inj hq
    rfl
  | cons e es ih =>
    obtain ⟨p', hp', hq'⟩ := Option.bind_eq_some_iff.mp hq
    have hone := log_apply hp hp'
    -- the task is still in the list
    have hlt : p' < (e.apply d).tasks.items.length := by
      rw [List.getElem?_eq_getElem hp] at hone
      by_contra hge
      rw [List.getElem?_eq_none (by omega)] at hone
      cases hone
    rw [List.foldl_cons, ih hlt hq', hone]

/-! ## The run -/

/-- Between load and save the draft has only had its edits. -/
theorem draft_between {id : String} {as : List Action} (has : ∀ a ∈ as, Between a) :
    ∀ {s s' : State} {d : Rollout}, s.draft = some d → (session id).exec s as = some s' →
      s'.draft = some ((editsOf as).foldl Edit.apply d) := by
  induction as with
  | nil =>
    intro s s' d hd he
    obtain rfl := Option.some.inj he
    exact hd
  | cons a as ih =>
    intro s s' d hd he
    obtain ⟨s₁, hs, he'⟩ := (session id).exec_cons_some he
    have hrest : ∀ b ∈ as, Between b := fun b hb => has b (List.mem_cons_of_mem _ hb)
    have ha := has a (List.mem_cons_self ..)
    cases a with
    | load => exact ha.elim
    | save env faults => exact ha.elim
    | edit e =>
      obtain ⟨d', hd', rfl⟩ := Option.map_eq_some_iff.mp hs
      obtain rfl := Option.some.inj (hd.symm.trans hd')
      exact ih hrest rfl he'
    | complete env sess rid seq body faults =>
      have hd₁ : s₁.draft = some d := by
        obtain rfl := Option.some.inj hs
        exact hd
      exact ih hrest hd₁ he'

/-- The log that `UpdateRollout` stores for a task of its body. -/
theorem storedLog_applyUpdate (now : Int) (ro : Rollout) (s : Store) (k : Nat) :
    storedLog (applyUpdate now ro s) ro.id k = (ro.tasks.items[k]?).map fun t =>
      ⟨clampStatus t.status, t.reason, t.by_, t.at_.map pgTimestamp⟩ := by
  unfold storedLog
  rw [tasksOf_applyUpdate, List.getElem?_map, List.getElem?_zipIdx, Option.map_map, Option.map_map]
  congr 1

/-- A stored log goes through a body unchanged. -/
theorem log_roundtrip {s : Store} {id : String} (hadmitted : ∀ r ∈ s.rolloutTasks, Admitted r)
    {t : RolloutTask} (ht : t ∈ tasksOf s id) :
    clampStatus t.status = t.status ∧ t.at_.map pgTimestamp = t.at_ := by
  obtain ⟨r, hr, rfl⟩ := List.mem_map.mp ht
  have hrow : r ∈ s.rolloutTasks := by
    have hsorted : r ∈ s.rolloutTasks.filter fun r => r.rolloutId == id :=
      (List.perm_insertionSort _ _).subset hr
    exact (List.mem_filter.mp hsorted).1
  obtain ⟨hstatus, hat⟩ := hadmitted r hrow
  refine ⟨hstatus, ?_⟩
  show r.completedAt.map pgTimestamp = r.completedAt
  cases hc : r.completedAt with
  | none => rfl
  | some t => rw [Option.map_some, hat t hc]

/-- A save that went through is an update with the draft. -/
theorem step_save {β : Type} {p : Store → β} (hp : ∀ s t, p { s with notifications := t } = p s)
    {id : String} {env : Env} {faults : Faults Err} {s s' : State} {d : Rollout}
    (hd : s.draft = some d) (h : (session id).step s (.save env faults) = some s')
    (hsaved : s'.draft = none) :
    p s'.store = p (applyUpdate env.dbNow { saveBody d with id := id } s.store) := by
  simp only [session, step, hd, Option.map_some, Option.some.injEq] at h
  subst h
  by_cases hok : (serve (updateRollout env id (some (saveBody d))) faults
    ⟨s.store, 0⟩).1.status = 200
  · exact updateRollout_answered hp hok
  · exact absurd hsaved (by simp [hok])

/-- **After a save every task has the log it had when the draft was loaded**, wherever
the edits have moved it, whatever other admins recorded in between. -/
theorem saved_log_is_loaded {id : String} {store : Store} {between : List Action} {env : Env}
    {faults : Faults Err} {s₁ s : State} {k q : Nat}
    (hadmitted : ∀ r ∈ store.rolloutTasks, Admitted r) (hbetween : ∀ a ∈ between, Between a)
    (hload : (session id).step ⟨store, none⟩ .load = some s₁)
    (hrun : (session id).exec s₁ (between ++ [.save env faults]) = some s) (hsaved : s.draft = none)
    (hk : k < (tasksOf store id).length)
    (hq : ∀ d ∈ s₁.draft, position d k (editsOf between) = some q) :
    storedLog s.store id q = storedLog store id k := by
  -- the draft is the rollout as stored
  simp only [session, step] at hload
  split at hload
  · next ro store' _ hread =>
    obtain rfl := Option.some.inj hload
    obtain ⟨r, -, hid, hro⟩ := rollout_run_ok hread
    have htasks : ro.tasks.items = tasksOf store id := by rw [hro, ← hid]; rfl
    rw [← htasks] at hk
    have hmoved := log_edits hk (hq ro rfl)
    -- the save sends it as it has been edited
    rw [Machine.exec_append] at hrun
    obtain ⟨s₂, hs₂, hlast⟩ := Option.bind_eq_some_iff.mp hrun
    have hdraft := draft_between hbetween rfl hs₂
    obtain ⟨s₃, hs₃, hend⟩ := (session id).exec_cons_some hlast
    obtain rfl := Option.some.inj hend
    have hsave := step_save (p := fun st => storedLog st id q) (fun _ _ => rfl) hdraft hs₃ hsaved
    refine hsave.trans ((storedLog_applyUpdate env.dbNow _ s₂.store q).trans ?_)
    -- a stored log goes through the body unchanged
    unfold storedLog
    rw [htasks] at hk hmoved
    rw [List.getElem?_eq_getElem hk] at hmoved ⊢
    obtain ⟨t, ht, hlog⟩ := Option.map_eq_some_iff.mp hmoved
    obtain ⟨hstatus, hat⟩ := log_roundtrip hadmitted (List.getElem_mem hk)
    simp only [logOf, Log.mk.injEq] at hlog
    show Option.map _ ((editsOf between).foldl Edit.apply ro).tasks.items[q]? = _
    rw [ht, Option.map_some, Option.map_some, hlog.1, hlog.2.1, hlog.2.2.1, hlog.2.2.2,
      hstatus, hat]
    rfl
  · cases hload

/-! ## A completion between load and save -/

private def bob : Session := ⟨"bob", "bob@example.com", "Bob", roleAdmin, none, 0⟩

private def at_ (t : Int) : Env := ⟨t, t, "01234567", Char.toUpper, Char.toLower, fun _ => 0⟩

/-- A rollout with two tasks, the second one done. -/
private def twoTasks : Store :=
  { Store.empty with
    actors := [⟨"bob", "bob@example.com", "Bob", roleAdmin⟩]
    products := [⟨"p1", "Product", none, []⟩]
    rolloutTypes := [⟨"t1", "Type", "T", "info", 0, 0, none, none, []⟩]
    rollouts := [⟨"r1", "p1", "t1", "Title", "", "", "", 0, 0, none⟩]
    rolloutTasks := [⟨"r1", 0, "Deploy", "", "", none, none⟩,
      ⟨"r1", 1, "Verify", "done", "", some "bob", some 0⟩] }

/-- Rename the rollout and swap its tasks while Bob completes the first. -/
private def meanwhile : List Action :=
  [.edit (.title "New"), .complete (at_ second) bob "r1" "0" (some ⟨"done", ""⟩) Db.noFaults,
    .edit (.moveTask 0 1)]

/-- The completion that was there when the draft was loaded moves with its task. -/
theorem saved_log_is_loaded_moved :
    ∃ s, (session "r1").exec ⟨twoTasks, none⟩
        (.load :: (meanwhile ++ [.save (at_ (2 * second)) Db.noFaults])) = some s ∧
      storedLog s.store "r1" 0 = storedLog twoTasks "r1" 1 := by
  have hrun : ∃ s₁, (session "r1").exec ⟨twoTasks, none⟩ [.load] = some s₁ ∧
      ((∀ d ∈ s₁.draft, position d 1 (editsOf meanwhile) = some 0) ∧
        ∃ s, (session "r1").exec s₁ (meanwhile ++ [.save (at_ (2 * second)) Db.noFaults]) = some s ∧
          s.draft = none) := by decide +kernel
  obtain ⟨s₁, hs₁, hpos, s, hs, hsaved⟩ := hrun
  obtain ⟨s₁', hload, hend⟩ := (session "r1").exec_cons_some hs₁
  obtain rfl := Option.some.inj hend
  refine ⟨s, ((session "r1").exec_cons hload).trans hs, ?_⟩
  exact saved_log_is_loaded (by decide) (by decide) hload hs hsaved (by decide) hpos

/-- **The save overwrites Bob's completion** of the task it left alone. -/
theorem completion_overwritten :
    ∃ s, (session "r1").exec ⟨twoTasks, none⟩
        [.load, .edit (.title "New"),
          .complete (at_ second) bob "r1" "0" (some ⟨"done", ""⟩) Db.noFaults] = some s ∧
      storedLog s.store "r1" 0 = some ⟨"done", "", "bob", some second⟩ ∧
      ∃ s', (session "r1").exec s [.save (at_ (2 * second)) Db.noFaults] = some s' ∧
        s'.draft = none ∧ storedLog s'.store "r1" 0 = some ⟨"", "", "", none⟩ := by
  decide +kernel

end ReleaseRadar.Frontend
