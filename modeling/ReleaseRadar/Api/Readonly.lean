import ReleaseRadar.Api.RolloutWrite
import ReleaseRadar.Api.Router
import ReleaseRadar.Lib.DbRelational

/-!
# What a readonly caller can do and learn

A caller without an admin session gets through to the reading handlers only. These
change nothing and tell the hub nothing, and what they answer is a function of
`publicView`, the database without the internal texts: two databases with one public
view give one answer to every request (`readonly_learns_nothing`).

`Alike` compares two runs of a repository program; each reading program is alike from
databases with one public view, up to `stripInternal`.
-/

namespace ReleaseRadar.Api

open Lib Repository

/-! ## The public view -/

def publicRollout (r : RolloutRow) : RolloutRow := { r with descInt := "", risks := "" }

def publicTask (r : TaskRow) : TaskRow := { r with description := "", reason := "" }

/-- The database without internal descriptions, risks, task descriptions and reasons. -/
def publicView (s : Store) : Store :=
  { s with
    rollouts := s.rollouts.map publicRollout
    rolloutTasks := s.rolloutTasks.map publicTask }

/-- The two databases differ in internal texts only. -/
def SamePublic (s s' : Store) : Prop := publicView s = publicView s'

/-- A readonly caller sees the same rollout. -/
def StripAlike (a b : Rollout) : Prop := stripInternal a = stripInternal b

/-- A readonly caller sees the same rollouts. -/
def AllStripAlike (xs ys : List Rollout) : Prop := xs.map stripInternal = ys.map stripInternal

/-- Stripping leaves the id. -/
theorem StripAlike.id_eq {a b : Rollout} (h : StripAlike a b) : a.id = b.id := by
  have hid : (stripInternal a).id = (stripInternal b).id := congrArg Rollout.id h
  exact hid

section SamePublic

variable {s s' : Store} (h : SamePublic s s')

include h

/-- Two stores with one public view agree in whatever is read of the view. -/
theorem SamePublic.field {β : Type} (p : Store → β) : p (publicView s) = p (publicView s') :=
  congrArg p h

/-- Products are public as they are. -/
theorem SamePublic.products : s.products = s'.products := h.field Store.products

/-- So are locks. -/
theorem SamePublic.locks : s.locks = s'.locks := h.field Store.locks

theorem SamePublic.stages : s.rolloutStages = s'.rolloutStages := h.field Store.rolloutStages

theorem SamePublic.pairs : s.rolloutActors = s'.rolloutActors := h.field Store.rolloutActors

/-- Of a rollout the view keeps what a reader may see of it. -/
theorem SamePublic.rollouts : s.rollouts.map publicRollout = s'.rollouts.map publicRollout :=
  h.field Store.rollouts

/-- Of a task too. -/
theorem SamePublic.tasks : s.rolloutTasks.map publicTask = s'.rolloutTasks.map publicTask :=
  h.field Store.rolloutTasks

end SamePublic

/-! ## Sorting and selecting see the public columns only -/

/-- A map that keeps the key keeps the order. -/
theorem map_orderBy {ρ κ : Type} [LE κ] [DecidableLE κ] (key : ρ → κ) (f : ρ → ρ)
    (hkey : ∀ r, key (f r) = key r) (rows : List ρ) :
    (orderBy key rows).map f = orderBy key (rows.map f) := by
  unfold orderBy
  refine List.map_insertionSort _ _ f rows fun a _ b _ => ?_
  rw [hkey, hkey]

/-- A map that keeps what is filtered by goes through the filter. -/
theorem map_filter_of {ρ : Type} {f : ρ → ρ} {p : ρ → Bool} (hp : ∀ r, p (f r) = p r)
    (rows : List ρ) : (rows.filter p).map f = (rows.map f).filter p := by
  rw [List.filter_map, show p ∘ f = p from funext hp]

/-- The task rows that a selection on public columns returns. -/
theorem publicTask_select {s s' : Store} (h : SamePublic s s') {p : TaskRow → Bool}
    (hp : ∀ r, p (publicTask r) = p r) :
    (s.rolloutTasks.filter p).map publicTask = (s'.rolloutTasks.filter p).map publicTask := by
  rw [map_filter_of hp, map_filter_of hp, h.tasks]

/-- A stripped task shows the public columns only. -/
theorem stripTask_scanTask (r : TaskRow) :
    stripTask (scanTask r) = stripTask (scanTask (publicTask r)) := rfl

/-- The tasks a reader gets are those of the public rows. -/
theorem stripTasks_of_public {rows rows' : List TaskRow}
    (h : rows.map publicTask = rows'.map publicTask) :
    (rows.map scanTask).map stripTask = (rows'.map scanTask).map stripTask := by
  have hmap : ∀ rows : List TaskRow, (rows.map scanTask).map stripTask =
      (rows.map publicTask).map fun r => stripTask (scanTask r) := by
    intro rows
    simp only [List.map_map]
    rfl
  rw [hmap, hmap, h]

/-! ## The reading programs -/

/-- Two results a reader cannot tell apart by `g`. -/
def AlikeBy {ρ γ : Type} (g : ρ → γ) (xs ys : List ρ) : Prop := xs.map g = ys.map g

/-- A query whose results look the same through `g`. -/
theorem alike_select {ρ γ : Type} {g : ρ → γ} {params params' : List String}
    {f f' : Store → List ρ} (hparams : params = params')
    (hf : ∀ s s', SamePublic s s' → AlikeBy g (f s) (f' s')) :
    Db.Alike SamePublic (fun rows rows' => rows.err = rows'.err ∧ AlikeBy g rows.seen rows'.seen)
      (select params f) (select params' f') := by
  refine Db.alike_query (fun k xs ys hxy => ?_) fun s s' hS => ?_
  · unfold AlikeBy at hxy ⊢
    rw [List.map_take, List.map_take, hxy]
  · rw [← hparams]
    by_cases hn : params.any hasNul = true
    · rw [if_pos hn, if_pos hn]
      exact rfl
    · rw [if_neg hn, if_neg hn]
      exact hf s s' hS

/-- A query of public columns. -/
theorem alike_select_eq {ρ : Type} {params params' : List String} {f f' : Store → List ρ}
    (hparams : params = params') (hf : ∀ s s', SamePublic s s' → f s = f' s') :
    Db.Alike SamePublic (fun rows rows' => rows = rows') (select params f) (select params' f') := by
  intro F c c' hS hcalls
  have hid := alike_select (g := id) hparams (fun s s' hS => congrArg (List.map id) (hf s s' hS))
    F c c' hS hcalls
  refine ⟨?_, hid.2⟩
  match hr : (select params f F c).1, hr' : (select params' f' F c').1 with
  | .ok rows, .ok rows' =>
    rw [hr, hr'] at hid
    obtain ⟨herr, hseen⟩ := hid.1
    simp only [AlikeBy, List.map_id] at hseen
    show rows = rows'
    cases rows
    cases rows'
    simp_all
  | .error e, .error e' =>
    rw [hr, hr'] at hid
    exact hid.1
  | .ok rows, .error e' => rw [hr, hr'] at hid; exact hid.1.elim
  | .error e, .ok rows' => rw [hr, hr'] at hid; exact hid.1.elim

/-- The products are read from the public view alone. -/
theorem alike_products : Db.Alike SamePublic (fun xs ys => xs = ys) products products := by
  refine Db.alike_bind (alike_select_eq rfl fun s s' hS => by rw [hS.products])
    fun rows rows' h => ?_
  subst h
  exact Db.alike_checked ⟨rfl, rfl⟩

/-- The locks too. -/
theorem alike_locks : Db.Alike SamePublic (fun xs ys => xs = ys) locks locks := by
  refine Db.alike_bind (alike_select_eq rfl fun s s' hS => by rw [hS.locks]) fun rows rows' h => ?_
  subst h
  exact Db.alike_checked ⟨rfl, rfl⟩

/-- The lists of one rollout are alike once the rollout itself is. -/
theorem alike_hydrate {ro ro' : Rollout} (h : StripAlike ro ro') :
    Db.Alike SamePublic StripAlike (hydrate ro) (hydrate ro') := by
  have hid : ro.id = ro'.id := h.id_eq
  unfold hydrate
  rw [← hid]
  refine Db.alike_bind (alike_select_eq rfl fun s s' hS => ?_) fun stages stages' hstages => ?_
  · unfold stageRows
    rw [hS.stages]
  refine Db.alike_bind (alike_select_eq rfl fun s s' hS => ?_) fun pair pair' hpair => ?_
  · unfold pairRows
    rw [hS.pairs]
  refine Db.alike_bind (alike_select (g := stripTask) rfl fun s s' hS => ?_)
    fun tasks tasks' htasks => ?_
  · refine stripTasks_of_public ?_
    unfold taskRows
    rw [map_orderBy (·.seq) publicTask fun _ => rfl, map_orderBy (·.seq) publicTask fun _ => rfl,
      publicTask_select hS fun _ => rfl]
  subst hstages hpair
  refine Db.alike_pure ?_
  have htask : tasks.seen.map stripTask = tasks'.seen.map stripTask := htasks.2
  unfold StripAlike at h ⊢
  simp only [stripInternal, Rollout.mk.injEq, Option.map_some] at h ⊢
  simp [h, htask]

/-- A rollout read by its id is the same to a reader, whatever is hidden of it. -/
theorem alike_rollout (id : String) : Db.Alike SamePublic StripAlike (rollout id) (rollout id) := by
  refine Db.alike_bind (R := StripAlike) (Db.alike_call fun s s' hS => ?_)
    fun ro ro' h => alike_hydrate h
  by_cases hn : [id].any hasNul = true
  · rw [if_pos hn, if_pos hn]
    exact rfl
  · rw [if_neg hn, if_neg hn]
    -- both find the row of the id, or neither does
    have hfind : (s.rollouts.find? fun r => r.id == id).map publicRollout =
        (s'.rollouts.find? fun r => r.id == id).map publicRollout := by
      have hview : ∀ rows : List RolloutRow, (rows.find? fun r => r.id == id).map publicRollout =
          (rows.map publicRollout).find? fun r => r.id == id := by
        intro rows
        rw [List.find?_map]
        rfl
      rw [hview, hview, hS.rollouts]
    simp only
    match hr : s.rollouts.find? (fun r => r.id == id),
      hr' : s'.rollouts.find? (fun r => r.id == id) with
    | none, none =>
      rw [hr, hr']
      exact rfl
    | some r, some r' =>
      rw [hr, hr'] at hfind ⊢
      have hrow : publicRollout r = publicRollout r' := Option.some.inj hfind
      have hscan : stripInternal (scanRollout (publicRollout r)) =
          stripInternal (scanRollout (publicRollout r')) := by rw [hrow]
      exact ⟨hscan, hS⟩
    | none, some r' => rw [hr, hr'] at hfind; cases hfind
    | some r, none => rw [hr, hr'] at hfind; cases hfind

/-! ## The list of rollouts -/

/-- Stripping commutes with an append at an index. -/
theorem strip_appendAt {f g : Rollout → Rollout}
    (hfg : ∀ r, stripInternal (f r) = g (stripInternal r))
    (idx : Option Nat) (rs : List Rollout) :
    (appendAt idx f rs).map stripInternal = appendAt idx g (rs.map stripInternal) := by
  cases idx with
  | none => rfl
  | some i =>
    refine List.ext_getElem? fun k => ?_
    simp only [appendAt, List.getElem?_map, List.getElem?_modify]
    cases rs[k]? with
    | none => rfl
    | some r => by_cases hik : i = k <;> simp [hik, hfg]

/-- `appendTask`, as it looks stripped. -/
def appendStripped (idx : String → Option Nat) (rs : List Rollout) (r : TaskRow) : List Rollout :=
  appendAt (idx r.rolloutId)
    (fun ro => { ro with tasks := some (ro.tasks.items ++ [stripTask (scanTask r)]) }) rs

/-- A stage is handed out to the stripped rollouts as to the rollouts. -/
theorem strip_appendStage (idx : String → Option Nat) (rows : List StageRow) (rs : List Rollout) :
    (rows.foldl (appendStage idx) rs).map stripInternal =
      rows.foldl (appendStage idx) (rs.map stripInternal) := by
  refine (List.foldl_hom (List.map stripInternal) fun rs r => ?_).symm
  unfold appendStage
  refine (strip_appendAt (fun ro => ?_) _ rs).symm
  rfl

/-- A member of a pair too. -/
theorem strip_appendPair (idx : String → Option Nat) (rows : List PairRow) (rs : List Rollout) :
    (rows.foldl (appendPair idx) rs).map stripInternal =
      rows.foldl (appendPair idx) (rs.map stripInternal) := by
  refine (List.foldl_hom (List.map stripInternal) fun rs r => ?_).symm
  unfold appendPair
  refine (strip_appendAt (fun ro => ?_) _ rs).symm
  rfl

/-- A task is stripped before or after it is handed out. -/
theorem strip_appendTask (idx : String → Option Nat) (rows : List TaskRow) (rs : List Rollout) :
    (rows.foldl (appendTask idx) rs).map stripInternal =
      (rows.map publicTask).foldl (appendStripped idx) (rs.map stripInternal) := by
  rw [List.foldl_map]
  refine (List.foldl_hom (List.map stripInternal) fun rs r => ?_).symm
  unfold appendTask appendStripped
  refine (strip_appendAt (fun ro => ?_) _ rs).symm
  cases hts : ro.tasks with
  | none => simp [stripInternal, hts, Slice.items, stripTask_scanTask r]
  | some ts => simp [stripInternal, hts, stripTask_scanTask r]

/-- Where a rollout stands is no secret. -/
theorem indexOf_strip (rs : List Rollout) : indexOf (rs.map stripInternal) = indexOf rs := by
  funext id
  unfold indexOf
  rw [List.zipIdx_map, List.foldl_map]
  rfl

/-- Rows cut at the same place, handed out alike, leave alike lists. -/
theorem alike_appendRows {ρ : Type} {append append' : List Rollout → ρ → List Rollout}
    {rows rows' : Rows ρ Err} {rs rs' : List Rollout} (herr : rows.err = rows'.err)
    (hfold : AllStripAlike (rows.seen.foldl append rs) (rows'.seen.foldl append' rs')) :
    Db.Alike SamePublic AllStripAlike (appendRows append rows rs)
      (appendRows append' rows' rs') := by
  unfold appendRows
  rw [← herr]
  cases rows.err with
  | none => exact Db.alike_pure hfold
  | some e => exact Db.alike_throw e

/-- The lists of all rollouts, in one read of each table. -/
theorem alike_hydrateAll {rs rs' : List Rollout} (h : AllStripAlike rs rs') :
    Db.Alike SamePublic AllStripAlike (hydrateAll rs) (hydrateAll rs') := by
  unfold hydrateAll
  simp only
  generalize hreset : (fun ro : Rollout =>
    { ro with stages := some [], pair := some [], tasks := some [] }) = reset
  have hcommute : ∀ rs : List Rollout,
      (rs.map reset).map stripInternal = (rs.map stripInternal).map reset := by
    intro rs
    rw [← hreset]
    simp only [List.map_map]
    rfl
  have h₀ : AllStripAlike (rs.map reset) (rs'.map reset) := by
    unfold AllStripAlike at h ⊢
    rw [hcommute, hcommute, h]
  generalize rs.map reset = xs at h₀ ⊢
  generalize rs'.map reset = ys at h₀ ⊢
  have hlen : xs.length = ys.length := by simpa using congrArg List.length h₀
  have hidx : indexOf xs = indexOf ys := by rw [← indexOf_strip xs, ← indexOf_strip ys, h₀]
  have hids : xs.map (·.id) = ys.map (·.id) := by
    have hstrip : ∀ zs : List Rollout, (zs.map stripInternal).map (·.id) = zs.map (·.id) := by
      intro zs
      simp only [List.map_map]
      rfl
    rw [← hstrip xs, ← hstrip ys, h₀]
  rw [← hidx, ← hids]
  have hempty : xs.isEmpty = ys.isEmpty := by
    cases xs with
    | nil => rw [List.eq_nil_of_length_eq_zero hlen.symm]
    | cons x xs =>
      cases ys with
      | nil => cases hlen
      | cons y ys => rfl
  rw [← hempty]
  split
  · exact Db.alike_pure h₀
  refine Db.alike_bind (alike_select_eq rfl fun s s' hS => by rw [hS.stages])
    fun rows rows' hrows => ?_
  subst hrows
  refine Db.alike_bind (R := AllStripAlike) (alike_appendRows rfl ?_) fun xs₁ ys₁ h₁ => ?_
  · unfold AllStripAlike
    rw [strip_appendStage, strip_appendStage, h₀]
  refine Db.alike_bind (alike_select_eq rfl fun s s' hS => by rw [hS.pairs])
    fun rows rows' hrows => ?_
  subst hrows
  refine Db.alike_bind (R := AllStripAlike) (alike_appendRows rfl ?_) fun xs₂ ys₂ h₂ => ?_
  · unfold AllStripAlike
    rw [strip_appendPair, strip_appendPair, h₁]
  refine Db.alike_bind (alike_select (g := publicTask) rfl fun s s' hS => ?_)
    fun rows rows' hrows => ?_
  · unfold AlikeBy
    rw [map_orderBy (·.rolloutId) publicTask fun _ => rfl,
      map_orderBy (·.rolloutId) publicTask fun _ => rfl, map_orderBy (·.seq) publicTask
        fun _ => rfl,
      map_orderBy (·.seq) publicTask fun _ => rfl, publicTask_select hS fun _ => rfl]
  refine alike_appendRows hrows.1 ?_
  have hseen : rows.seen.map publicTask = rows'.seen.map publicTask := hrows.2
  unfold AllStripAlike
  rw [strip_appendTask, strip_appendTask, h₂, hseen]

/-- The rollouts of the list are the same to a reader. -/
theorem alike_rollouts : Db.Alike SamePublic AllStripAlike rollouts rollouts := by
  refine Db.alike_bind (alike_select (g := stripInternal) rfl fun s s' hS => ?_)
    fun rows rows' hrows => ?_
  · unfold AlikeBy
    have hscan : ∀ rows : List RolloutRow,
      ((orderBy (-·.createdAt) rows).map scanRollout).map stripInternal
        = (orderBy (-·.createdAt) (rows.map publicRollout)).map (stripInternal ∘ scanRollout) := by
      intro rows
      rw [← map_orderBy (-·.createdAt) publicRollout fun _ => rfl, List.map_map, List.map_map]
      rfl
    rw [hscan, hscan, hS.rollouts]
  · exact Db.alike_bind (Db.alike_checked hrows) fun xs ys hxy => alike_hydrateAll hxy

/-! ## The reading programs change nothing -/

/-- Reading the products changes nothing. -/
theorem within_products (R : Db.Frame Store) : Db.Within R products :=
  Db.within_bind (within_select _ _) fun _ => Db.within_checked _

/-- Nor does reading the locks. -/
theorem within_locks (R : Db.Frame Store) : Db.Within R locks :=
  Db.within_bind (within_select _ _) fun _ => Db.within_checked _

/-- Nor does handing out rows that are read. -/
theorem within_appendRows {ρ : Type} (R : Db.Frame Store) (append : List Rollout → ρ → List Rollout)
    (rows : Rows ρ Err) (rs : List Rollout) : Db.Within R (appendRows append rows rs) := by
  unfold appendRows
  split
  · exact Db.within_pure _
  · exact Db.within_throw _

/-- Nor does reading the rollouts. -/
theorem within_rollouts (R : Db.Frame Store) : Db.Within R rollouts := by
  refine Db.within_bind (within_select _ _) fun _ => Db.within_bind (Db.within_checked _)
    fun rs => ?_
  unfold hydrateAll
  simp only
  split
  · exact Db.within_pure _
  · exact Db.within_bind (within_select _ _) fun _ =>
      Db.within_bind (within_appendRows R _ _ _) fun _ =>
      Db.within_bind (within_select _ _) fun _ =>
        Db.within_bind (within_appendRows R _ _ _) fun _ =>
        Db.within_bind (within_select _ _) fun _ => within_appendRows R _ _ _

/-! ## The handlers a readonly caller gets through to -/

/-- The handler changes nothing, tells the hub nothing, and answers by the public view. -/
structure ReadOnly (h : Repo Reply) : Prop where
  store : ∀ F c, (serve h F c).2.store = c.store
  silent : ∀ F c, (serve h F c).1.broadcasts = []
  blind : ∀ F c c', SamePublic c.store c'.store → c.calls = c'.calls →
    (serve h F c).1 = (serve h F c').1

/-- An answer given without a look at the database. -/
theorem readOnly_pure {r : Reply} (hr : r.broadcasts = []) : ReadOnly (pure r) where
  store _ _ := rfl
  silent _ _ := hr
  blind _ _ _ _ _ := rfl

/-- An answer made from what a reading program returns. -/
theorem readOnly_read {α : Type} {R : α → α → Prop} {m : Repo α} {f : α → Reply}
    (hwithin : Db.Within (Db.Frame.keeps fun s => s) m) (halike : Db.Alike SamePublic R m m)
    (hf : ∀ a b, R a b → f a = f b) (hsilent : ∀ a, (f a).broadcasts = []) :
    ReadOnly (m >>= fun a => pure (f a)) := by
  have hserve : ∀ F c, serve (m >>= fun a => pure (f a)) F c =
      (match (m F c).1 with
        | .ok a => f a
        | .error e => writeErr e, (m F c).2) := by
    intro F c
    unfold serve
    rw [Db.bind_def]
    match m F c with
    | (.ok a, c') => rfl
    | (.error e, c') => rfl
  refine ⟨fun F c => ?_, fun F c => ?_, fun F c c' hS hcalls => ?_⟩
  · rw [hserve]
    exact hwithin F c
  · rw [hserve]
    cases (m F c).1 with
    | ok a => exact hsilent a
    | error e => exact writeErr_silent e
  · have hout := (halike F c c' hS hcalls).1
    rw [hserve, hserve]
    match hr : (m F c).1, hr' : (m F c').1 with
    | .ok a, .ok b =>
      rw [hr, hr'] at hout
      exact hf a b hout
    | .error e, .error e' =>
      rw [hr, hr'] at hout
      exact congrArg writeErr hout
    | .ok a, .error e' => rw [hr, hr'] at hout; exact hout.elim
    | .error e, .ok b => rw [hr, hr'] at hout; exact hout.elim

/-- `GET /api/products` has nothing to hide. -/
theorem readOnly_listProducts : ReadOnly listProducts :=
  readOnly_read (within_products _) alike_products (fun a b h => by rw [h]) fun _ => rfl

/-- Nor has `GET /api/locks`. -/
theorem readOnly_listLocks (zone : Int → Int) : ReadOnly (listLocks zone) :=
  readOnly_read (within_locks _) alike_locks (fun a b h => by rw [h]) fun _ => rfl

/-- Without the role the list is stripped. -/
theorem readOnly_listRollouts (zone : Int → Int) {sess : Session} (h : sess.role ≠ roleAdmin) :
    ReadOnly (listRollouts zone sess) := by
  refine readOnly_read (within_rollouts _) alike_rollouts (fun a b hab => ?_) fun _ => rfl
  simp only [if_pos h]
  rw [show a.map stripInternal = b.map stripInternal from hab]

/-- So is the single rollout. -/
theorem readOnly_getRollout (zone : Int → Int) {sess : Session} (h : sess.role ≠ roleAdmin)
    (id : String) :
    ReadOnly (getRollout zone sess id) := by
  refine readOnly_read (within_rollout _ id) (alike_rollout id) (fun a b hab => ?_) fun _ => rfl
  simp only [if_pos h]
  rw [show stripInternal a = stripInternal b from hab]

/-- The feed shows nothing internal. -/
theorem writeICS_strip (now : Int) (rs : List Rollout) :
    Calendar.writeICS now (rs.map stripInternal) = Calendar.writeICS now rs := by
  unfold Calendar.writeICS Calendar.feed
  rw [List.flatMap_map]
  rfl

/-- The feed holds nothing of the tasks or the pair. -/
theorem readOnly_calendar (env : Env) : ReadOnly (calendar env) := by
  refine readOnly_read (within_rollouts _) alike_rollouts (fun a b hab => ?_) fun _ => rfl
  rw [← writeICS_strip env.clock a, ← writeICS_strip env.clock b,
    show a.map stripInternal = b.map stripInternal from hab]

/-- The upgrade reads no table. -/
theorem readOnly_ws (refused : Option (Nat × String)) : ReadOnly (ws refused) := by
  cases refused with
  | none => exact readOnly_pure rfl
  | some r => exact readOnly_pure rfl

/-- Behind `RequireSession`. -/
theorem readOnly_requireSession {session : Option Session} {next : Session → Repo Reply}
    (h : ∀ sess ∈ session, ReadOnly (next sess)) : ReadOnly (requireSession session next) := by
  cases session with
  | none => exact readOnly_pure rfl
  | some sess => exact h sess rfl

/-- `RequireAdmin` stops everybody else. -/
theorem readOnly_requireAdmin {session : Option Session}
    (h : ∀ sess ∈ session, sess.role ≠ roleAdmin)
    (next : Session → Repo Reply) : ReadOnly (requireAdmin session next) := by
  cases session with
  | none => exact readOnly_pure rfl
  | some sess =>
    have hrefused : requireAdmin (some sess) next = pure (httpError 403 "admin role required") :=
      if_pos (h sess rfl)
    rw [hrefused]
    exact readOnly_pure rfl

/-- The whole route table, for whoever has not the role of an admin. -/
theorem readOnly_route (env : Env) {req : Request}
    (h : ∀ sess ∈ req.session, sess.role ≠ roleAdmin) :
    ReadOnly (route env req) := by
  unfold route
  cases resolve (patternMethod req.method) req.path with
  | none =>
    refine readOnly_pure ?_
    unfold unmatched
    split <;> rfl
  | some r =>
    cases r with
    | me => exact readOnly_requireSession fun _ _ => readOnly_pure rfl
    | listProducts => exact readOnly_requireSession fun _ _ => readOnly_listProducts
    | listRollouts =>
      exact readOnly_requireSession fun sess hs => readOnly_listRollouts _ (h sess hs)
    | getRollout id =>
      exact readOnly_requireSession fun sess hs => readOnly_getRollout _ (h sess hs) id
    | listLocks => exact readOnly_requireSession fun _ _ => readOnly_listLocks _
    | calendar => exact readOnly_requireSession fun _ _ => readOnly_calendar env
    | ws => exact readOnly_requireSession fun _ _ => readOnly_ws req.refused
    | listRolloutTypes | upsertRolloutType | upsertProduct | createRollout | updateRollout _
    | deleteRollout _ | updateTask _ _ | createLock | updateLock _ | deleteLock _ =>
      exact readOnly_requireAdmin h _

/-- **A readonly caller changes nothing and learns nothing internal**: whatever the
request and whatever fails, the database is as before, the hub is told nothing, and the
answer is the one that any database with the same public view gives. -/
theorem readonly_learns_nothing (env : Env) (req : Request)
    (hrole : ∀ sess ∈ req.session, sess.role ≠ roleAdmin) (F : Faults Err) (s : Store)
    (calls : Nat) :
    (respond env req F ⟨s, calls⟩).2.store = s ∧ (respond env req F ⟨s, calls⟩).1.broadcasts = [] ∧
      ∀ s', SamePublic s s' →
        (respond env req F ⟨s, calls⟩).1 = (respond env req F ⟨s', calls⟩).1 := by
  have hread := readOnly_route env hrole
  unfold respond
  by_cases hhead : req.method = "HEAD"
  · simp only [if_pos hhead]
    refine ⟨hread.store F _, hread.silent F _, fun s' hS => ?_⟩
    rw [hread.blind F ⟨s, calls⟩ ⟨s', calls⟩ hS rfl]
  · simp only [if_neg hhead]
    exact ⟨hread.store F _, hread.silent F _, fun s' hS =>
      hread.blind F ⟨s, calls⟩ ⟨s', calls⟩ hS rfl⟩

private def reader : Session := ⟨"rea", "rea@example.com", "Rea Der", roleReadOnly, none, 0⟩

private def listing : Request :=
  ⟨"GET", ["api", "rollouts"], some reader, ⟨none, none, none, none, none, ⟨0, 0, 0⟩⟩, none⟩

/-- A database whose only rollout and task have the given internal texts. -/
private def secretStore (risks reason : String) : Store :=
  { Store.empty with
    rollouts := [⟨"r1", "p1", "t1", "Title", "", "", risks, 0, 0, none⟩]
    rolloutTasks := [⟨"r1", 0, "Deploy", "failed", reason, none, none⟩] }

/-- The list is the same whatever the risks and the reason. -/
theorem readonly_learns_nothing_listing :
    (respond ⟨0, 0, "", Char.toUpper, Char.toLower, fun _ => 0⟩ listing Db.noFaults
      ⟨secretStore "high" "disk full", 0⟩).1 =
      (respond ⟨0, 0, "", Char.toUpper, Char.toLower, fun _ => 0⟩ listing Db.noFaults
        ⟨secretStore "low" "no idea", 0⟩).1 :=
  (readonly_learns_nothing ⟨0, 0, "", Char.toUpper, Char.toLower, fun _ => 0⟩ listing
    (fun sess hs => by obtain rfl := Option.some.inj hs; decide) Db.noFaults _ 0).2.2 _ rfl

end ReleaseRadar.Api
