import ReleaseRadar.Lib.Distribute
import ReleaseRadar.Store.RolloutSpec

/-!
# Two ways to read a rollout

`Rollout` asks each child table for the rows of one id; `Rollouts` asks once for all of
them (`hydrateAll`), ordered by rollout, and hands the rows out through a map from id to
index. With the primary key of `rollouts` the map is right about every id
(`locates_indexOf`), and a rollout gets its own rows in the order in which the other path
reads them (`hydrated_of_batch`).

`hydrateAll` asks each of its queries for the error that ended it, so what it returns is
complete whatever fails (`rollouts_ok`).
-/

namespace ReleaseRadar

open Lib

/-- What the database promises of `rollouts`: its primary key, and that a text column holds
no U+0000. -/
structure RolloutKeys (s : Store) : Prop where
  ids : (s.rollouts.map (·.id)).Nodup
  text : ∀ r ∈ s.rollouts, hasNul r.id = false

namespace Repository

/-! ## The map `idx` -/

private theorem foldl_indexOf (id : String) :
    ∀ (rollouts : List Rollout) (k : Nat) (acc : Option Nat),
      let found :=
        (rollouts.zipIdx k).foldl (fun acc r => if r.1.id = id then some r.2 else acc) acc
      (found = acc ∧ id ∉ rollouts.map (·.id)) ∨
        ∃ i, found = some (k + i) ∧ (rollouts.map (·.id))[i]? = some id := by
  intro rollouts
  induction rollouts with
  | nil => intro k acc; exact Or.inl ⟨rfl, List.not_mem_nil⟩
  | cons ro rollouts ih =>
    intro k acc
    rw [List.zipIdx_cons, List.foldl_cons]
    -- the last of several wins
    rcases ih (k + 1) (if ro.id = id then some k else acc) with ⟨hfound, hnot⟩ | ⟨i, hfound, hi⟩
    · by_cases hid : ro.id = id
      · rw [if_pos hid] at hfound
        refine Or.inr ⟨0, ?_, by rw [← hid]; rfl⟩
        rw [if_pos hid]
        exact hfound
      · rw [if_neg hid] at hfound
        refine Or.inl ⟨by rw [if_neg hid]; exact hfound, ?_⟩
        rw [List.map_cons, List.mem_cons]
        rintro (he | hmem)
        · exact hid he.symm
        · exact hnot hmem
    · exact Or.inr ⟨i + 1, by rw [hfound]; congr 1; omega, hi⟩

/-- The map is right about every id. -/
theorem locates_indexOf (rollouts : List Rollout) :
    Locates (indexOf rollouts) (rollouts.map (·.id)) := by
  intro id
  rcases foldl_indexOf id rollouts 0 none with ⟨hfound, hnot⟩ | ⟨i, hfound, hi⟩
  · rw [show indexOf rollouts id = none from hfound]
    exact hnot
  · rw [show indexOf rollouts id = some (0 + i) from hfound, Nat.zero_add]
    exact hi

/-- A row without its rollout is handed to nobody. -/
theorem appendAt_eq (idx : Option Nat) (f : Rollout → Rollout) (rollouts : List Rollout) :
    appendAt idx f rollouts = idx.elim rollouts fun i => rollouts.modify i f := by
  cases idx <;> rfl

/-! ## The rows of one rollout among all -/

/-- The rows of one id, from a query for many. -/
theorem filter_owned {ρ : Type} (rid : ρ → String) {ids : List String} {id : String}
    (hid : id ∈ ids) {rows : List ρ} :
    (rows.filter fun r => ids.contains (rid r)).filter (fun r => rid r == id) =
      rows.filter fun r => rid r == id := by
  rw [List.filter_filter]
  refine List.filter_congr fun r _ => ?_
  by_cases he : rid r = id
  · simp [he, hid]
  · simp [he]

/-- The rows of one id, from a query for many ordered by id. -/
theorem filter_batch {ρ : Type} {rid : ρ → String} {seq : ρ → Nat} {ids : List String}
    {id : String} (hid : id ∈ ids) {rows : List ρ} :
    (orderBy rid (orderBy seq (rows.filter fun r => ids.contains (rid r)))).filter
        (fun r => rid r == id) =
      orderBy seq (rows.filter fun r => rid r == id) := by
  have hord : (orderBy seq (rows.filter fun r => ids.contains (rid r))).filter
      (fun r => rid r == id) = orderBy seq (rows.filter fun r => rid r == id) := by
    unfold orderBy
    have : Std.Total fun a b : ρ => seq a ≤ seq b := ⟨fun a b => Nat.le_total _ _⟩
    have : IsTrans ρ fun a b => seq a ≤ seq b := ⟨fun a b c => Nat.le_trans⟩
    rw [filter_insertionSort, filter_owned rid hid]
  -- all of them carry the same id, so ordering by it moves none
  have hsame : (orderBy seq (rows.filter fun r => rid r == id)).Pairwise
      fun a b => rid a ≤ rid b := by
    refine List.pairwise_of_forall_mem_list fun a ha b hb => ?_
    have hmem : ∀ r ∈ orderBy seq (rows.filter fun r => rid r == id), rid r = id := by
      intro r hr
      have := (List.mem_filter.mp ((List.mem_insertionSort _).mp hr)).2
      exact eq_of_beq this
    have hids : rid a = rid b := (hmem a ha).trans (hmem b hb).symm
    exact hids ▸ String.le_refl (rid a)
  rw [← hord] at hsame ⊢
  unfold orderBy at hsame ⊢
  have : Std.Total fun a b : ρ => rid a ≤ rid b := ⟨fun a b => String.le_total _ _⟩
  have : IsTrans ρ fun a b => rid a ≤ rid b := ⟨fun a b c => String.le_trans⟩
  rw [filter_insertionSort, List.Pairwise.insertionSort_eq hsame]

/-- A loop that appends to one list appends them all. -/
private theorem foldl_give {ρ β : Type} (get : Rollout → Slice β) (set : Rollout → List β → Rollout)
    (scan : ρ → β) (hget : ∀ ro l, get (set ro l) = some l)
    (hset : ∀ ro l l', set (set ro l) l' = set ro l') :
    ∀ (rows : List ρ) (ro : Rollout) (l : List β),
      rows.foldl (fun ro r => set ro ((get ro).items ++ [scan r])) (set ro l) =
        set ro (l ++ rows.map scan) := by
  intro rows
  induction rows with
  | nil => intro ro l; rw [List.foldl_nil, List.map_nil, List.append_nil]
  | cons r rows ih =>
    intro ro l
    rw [List.foldl_cons, hset, hget, Slice.items_some, ih, List.map_cons, List.append_assoc]
    rfl

/-- One child table handed out to rollouts whose lists are still empty. -/
private theorem foldl_appendAt {ρ β : Type} (rid : ρ → String) (get : Rollout → Slice β)
    (set : Rollout → List β → Rollout) (scan : ρ → β) {idx : String → Option Nat}
    (hget : ∀ ro l, get (set ro l) = some l) (hset : ∀ ro l l', set (set ro l) l' = set ro l')
    (hid : ∀ ro l, (set ro l).id = ro.id) (rows : List ρ) {rollouts : List Rollout}
    (hnodup : (rollouts.map (·.id)).Nodup) (hidx : Locates idx (rollouts.map (·.id)))
    (hempty : ∀ ro ∈ rollouts, set ro [] = ro) :
    rows.foldl (fun acc r =>
        appendAt (idx (rid r)) (fun ro => set ro ((get ro).items ++ [scan r])) acc) rollouts =
      rollouts.map fun ro => set ro ((rows.filter fun r => rid r == ro.id).map scan) := by
  have h : rows.foldl (fun acc r =>
        appendAt (idx (rid r)) (fun ro => set ro ((get ro).items ++ [scan r])) acc) rollouts =
      rollouts.map fun ro => (rows.filter fun r => rid r == ro.id).foldl
        (fun ro r => set ro ((get ro).items ++ [scan r])) ro :=
    foldl_distribute rid (fun r ro => set ro ((get ro).items ++ [scan r])) (fun r ro => hid ro _)
      (fun acc r => appendAt_eq _ _ acc) rows hnodup hidx
  rw [h]
  refine List.map_congr_left fun ro hro => ?_
  have hall := foldl_give get set scan hget hset (rows.filter fun r => rid r == ro.id) ro []
  rw [hempty ro hro, List.nil_append] at hall
  exact hall

section Children

variable {s : Store} {ids : List String} {rollouts : List Rollout} {idx : String → Option Nat}

/-- In one read of the table every rollout gets its stages, -/
private theorem read_stages (hids : rollouts.map (·.id) = ids) (hnodup : ids.Nodup)
    (hidx : Locates idx ids) (hempty : ∀ ro ∈ rollouts, ro.stages = some []) :
    (orderBy (·.rolloutId) (orderBy (·.seq) (s.rolloutStages.filter fun r =>
        ids.contains r.rolloutId))).foldl (appendStage idx) rollouts =
      rollouts.map fun ro => { ro with stages := some (stagesOf s ro.id) } := by
  subst hids
  refine (foldl_appendAt StageRow.rolloutId (·.stages) (fun ro l => { ro with stages := some l })
    scanStage (fun _ _ => rfl) (fun _ _ _ => rfl) (fun _ _ => rfl) _ hnodup hidx
    fun ro hro => by rw [← hempty ro hro]).trans (List.map_congr_left fun ro hro => ?_)
  rw [filter_batch (List.mem_map_of_mem hro)]
  rfl

/-- its pair, -/
private theorem read_pair (hids : rollouts.map (·.id) = ids) (hnodup : ids.Nodup)
    (hidx : Locates idx ids) (hempty : ∀ ro ∈ rollouts, ro.pair = some []) :
    (s.rolloutActors.filter fun r => ids.contains r.rolloutId).foldl (appendPair idx) rollouts =
      rollouts.map fun ro => { ro with pair := some ((pairRows s ro.id).map (·.actorId)) } := by
  subst hids
  refine (foldl_appendAt PairRow.rolloutId (·.pair) (fun ro l => { ro with pair := some l })
    PairRow.actorId (fun _ _ => rfl) (fun _ _ _ => rfl) (fun _ _ => rfl) _ hnodup hidx
    fun ro hro => by rw [← hempty ro hro]).trans (List.map_congr_left fun ro hro => ?_)
  rw [filter_owned PairRow.rolloutId (List.mem_map_of_mem hro)]
  rfl

/-- and its tasks. -/
private theorem read_tasks (hids : rollouts.map (·.id) = ids) (hnodup : ids.Nodup)
    (hidx : Locates idx ids) (hempty : ∀ ro ∈ rollouts, ro.tasks = some []) :
    (orderBy (·.rolloutId) (orderBy (·.seq) (s.rolloutTasks.filter fun r =>
        ids.contains r.rolloutId))).foldl (appendTask idx) rollouts =
      rollouts.map fun ro => { ro with tasks := some (tasksOf s ro.id) } := by
  subst hids
  refine (foldl_appendAt TaskRow.rolloutId (·.tasks) (fun ro l => { ro with tasks := some l })
    scanTask (fun _ _ => rfl) (fun _ _ _ => rfl) (fun _ _ => rfl) _ hnodup hidx
    fun ro hro => by rw [← hempty ro hro]).trans (List.map_congr_left fun ro hro => ?_)
  rw [filter_batch (List.mem_map_of_mem hro)]
  rfl

end Children

/-! ## `Rollouts` -/

/-- A child query and its loop: all the rows were seen, or there is an error. -/
theorem appendRows_ok {ρ : Type} {params : List String} {f : Store → List ρ}
    {append : List Rollout → ρ → List Rollout} {rollouts out : List Rollout} {F : Faults Err}
    {c c' : Conn Store} {rows : Rows ρ Err} {c₁ : Conn Store}
    (hrows : select params f F c = (.ok rows, c₁))
    (h : appendRows append rows rollouts F c₁ = (.ok out, c')) :
    c'.store = c.store ∧ out = (f c.store).foldl append rollouts := by
  obtain ⟨hstore, -⟩ := select_ok hrows
  obtain ⟨seen, err⟩ := rows
  cases err with
  | none =>
    obtain ⟨rfl, rfl⟩ : seen.foldl append rollouts = out ∧ c₁ = c' := by
      simpa [appendRows, Db.pure_def] using h
    exact ⟨hstore, congrArg (List.foldl append rollouts) (select_seen hrows rfl)⟩
  | some e => simp [appendRows, Db.throw] at h

/-- The three child tables handed out one after the other, each as the query for it has found
it. -/
theorem handOut_eq {rollouts base : List Rollout} (hnodup : (rollouts.map (·.id)).Nodup)
    (hbase : base = rollouts.map fun ro =>
      { ro with stages := some [], pair := some [], tasks := some [] }) (s₁ s₂ s₃ : Store) :
    (orderBy (·.rolloutId) (orderBy (·.seq) (s₃.rolloutTasks.filter fun r =>
        (base.map (·.id)).contains r.rolloutId))).foldl (appendTask (indexOf base))
      ((s₂.rolloutActors.filter fun r =>
          (base.map (·.id)).contains r.rolloutId).foldl (appendPair (indexOf base))
        ((orderBy (·.rolloutId) (orderBy (·.seq) (s₁.rolloutStages.filter fun r =>
          (base.map (·.id)).contains r.rolloutId))).foldl (appendStage (indexOf base)) base)) =
      rollouts.map fun ro =>
        { ro with
          stages := some (stagesOf s₁ ro.id)
          pair := some ((pairRows s₂ ro.id).map (·.actorId))
          tasks := some (tasksOf s₃ ro.id) } := by
  have hids : ∀ {f : Rollout → Rollout} (l : List Rollout), (∀ ro, (f ro).id = ro.id) →
      (l.map f).map (·.id) = l.map (·.id) := by
    intro f l hf
    rw [List.map_map]
    exact List.map_congr_left fun ro _ => hf ro
  have hids₀ : base.map (·.id) = rollouts.map (·.id) := by rw [hbase]; exact hids _ fun _ => rfl
  have hdistinct : (base.map (·.id)).Nodup := by rw [hids₀]; exact hnodup
  have hloc := locates_indexOf base
  -- each table goes to the rollouts the one before it has filled
  rw [read_stages rfl hdistinct hloc (by simp [hbase])]
  have hids₁ : (base.map fun ro => { ro with stages := some (stagesOf s₁ ro.id) }).map (·.id) =
      base.map (·.id) := hids _ fun _ => rfl
  rw [read_pair hids₁ hdistinct hloc (by simp [hbase])]
  have hids₂ :=
    (hids (f := fun ro => { ro with pair := some ((pairRows s₂ ro.id).map (·.actorId)) })
    (base.map fun ro => { ro with stages := some (stagesOf s₁ ro.id) }) fun _ => rfl).trans hids₁
  rw [read_tasks hids₂ hdistinct hloc (by simp [hbase]), hbase]
  simp [List.map_map]

/-- The lists of all rollouts at once are those of each. -/
theorem hydrateAll_ok {rollouts out : List Rollout} (hnodup : (rollouts.map (·.id)).Nodup)
    {F : Faults Err} {c c' : Conn Store} (h : hydrateAll rollouts F c = (.ok out, c')) :
    c'.store = c.store ∧ out = rollouts.map fun ro =>
      { ro with
        stages := some (stagesOf c.store ro.id)
        pair := some ((pairRows c.store ro.id).map (·.actorId))
        tasks := some (tasksOf c.store ro.id) } := by
  unfold hydrateAll at h
  split at h
  · next he =>
    obtain ⟨hout, rfl⟩ := Prod.mk.inj h
    obtain rfl := Except.ok.inj hout
    rw [List.isEmpty_iff, List.map_eq_nil_iff] at he
    subst he
    exact ⟨rfl, rfl⟩
  · obtain ⟨srows, c₁, hs, h⟩ := Db.bind_ok h
    obtain ⟨out₁, c₂, hs', h⟩ := Db.bind_ok h
    obtain ⟨arows, c₃, ha, h⟩ := Db.bind_ok h
    obtain ⟨out₂, c₄, ha', h⟩ := Db.bind_ok h
    obtain ⟨trows, c₅, ht, ht'⟩ := Db.bind_ok h
    obtain ⟨hc₂, rfl⟩ := appendRows_ok hs hs'
    obtain ⟨hc₄, rfl⟩ := appendRows_ok ha ha'
    obtain ⟨hc', rfl⟩ := appendRows_ok ht ht'
    refine ⟨hc'.trans (hc₄.trans hc₂), ?_⟩
    rw [hc₄, hc₂]
    exact handOut_eq hnodup rfl c.store c.store c.store

/-- What `Rollouts` returns for a store: every rollout hydrated, the latest first. -/
def hydratedAll (s : Store) : List Rollout := (orderBy (-·.createdAt) s.rollouts).map (hydrated s)

/-- **A list that is returned is complete**, whatever fails. -/
theorem rollouts_ok {F : Faults Err} {c c' : Conn Store} {rs : List Rollout}
    (hids : (c.store.rollouts.map (·.id)).Nodup) (h : rollouts F c = (.ok rs, c')) :
    c'.store = c.store ∧ rs = hydratedAll c.store := by
  unfold rollouts at h
  rw [← Db.bind_assoc] at h
  obtain ⟨out, c₂, hout, hall⟩ := Db.bind_ok h
  obtain ⟨hstore, hout⟩ := checked_select_ok hout
  have hnodup : (out.map (·.id)).Nodup := by
    rw [hout, List.map_map]
    exact ((List.perm_insertionSort _ _).map _).nodup_iff.mpr hids
  obtain ⟨hc', hrs⟩ := hydrateAll_ok hnodup hall
  refine ⟨hc'.trans hstore, ?_⟩
  rw [hrs, hout, List.map_map, hstore]
  rfl

private theorem total_appendRows {ρ : Type} {s : Store} {append : List Rollout → ρ → List Rollout}
    {rows : Rows ρ Err} {all : List ρ} {rollouts : List Rollout} :
    Db.Total (fun t => t = s ∧ rows = ⟨all, none⟩) (appendRows append rows rollouts)
      fun _ t => t = s := by
  rintro F c hF ⟨ht, rfl⟩
  exact ⟨_, c, rfl, hF, ht⟩

private theorem total_hydrateAll {s : Store} {rollouts : List Rollout}
    (htext : (rollouts.map (·.id)).any hasNul = false) :
    Db.Total (· = s) (hydrateAll rollouts) fun _ _ => True := by
  have hids : ((rollouts.map fun ro =>
      { ro with stages := some [], pair := some [], tasks := some [] }).map (·.id)).any hasNul =
      false := by
    rw [List.map_map]
    exact htext
  unfold hydrateAll
  dsimp only
  split
  · exact Db.total_pure fun _ _ => trivial
  · refine Db.total_bind (total_select hids) fun srows => ?_
    refine Db.total_bind total_appendRows fun out₁ => ?_
    refine Db.total_bind (total_select hids) fun arows => ?_
    refine Db.total_bind total_appendRows fun out₂ => ?_
    refine Db.total_bind (total_select hids) fun trows => ?_
    intro F c hF hs
    obtain ⟨out, c', h, hF', -⟩ := total_appendRows F c hF hs
    exact ⟨out, c', h, hF', trivial⟩

/-- Without faults the list is returned. -/
theorem rollouts_run {s : Store} (hk : RolloutKeys s) :
    rollouts.run s = (.ok (hydratedAll s), s) := by
  -- the ids of the table are texts a query can carry
  have htext : (((orderBy (-·.createdAt) s.rollouts).map scanRollout).map (·.id)).any hasNul =
      false := by
    rw [List.any_eq_false]
    intro id hid
    rw [List.map_map] at hid
    obtain ⟨r, hr, rfl⟩ := List.mem_map.mp hid
    have := hk.text r ((List.mem_insertionSort _).mp hr)
    exact Bool.eq_false_iff.mp this
  have htotal : Db.Total (· = s) rollouts fun _ _ => True := by
    refine Db.total_bind (total_select rfl) fun rows => ?_
    rintro F c hF ⟨hs, rfl⟩
    exact total_hydrateAll htext F c hF hs
  obtain ⟨rs, s', hrun, -⟩ := htotal.run rfl
  obtain ⟨c', hm, rfl⟩ := run_eq hrun
  obtain ⟨hs', rfl⟩ := rollouts_ok hk.ids hm
  rw [hrun, hs']

/-- A stored row is found by its id. -/
theorem find_of_mem {s : Store} (hk : RolloutKeys s) {r : RolloutRow} (hr : r ∈ s.rollouts) :
    s.rollouts.find? (fun r' => r'.id == r.id) = some r := by
  have hsome : (s.rollouts.find? fun r' => r'.id == r.id).isSome :=
    List.find?_isSome.mpr ⟨r, hr, beq_self_eq_true _⟩
  obtain ⟨r', hr'⟩ := Option.isSome_iff_exists.mp hsome
  have hsame : r' = r := List.inj_on_of_nodup_map hk.ids (List.mem_of_find?_eq_some hr') hr
    (by simpa using List.find?_some hr')
  rw [hr', hsame]

theorem rollout_run_of_mem {s : Store} (hk : RolloutKeys s) {r : RolloutRow} (hr : r ∈ s.rollouts) :
    (rollout r.id).run s = (.ok (hydrated s r), s) := by
  rw [rollout_run, hk.text r hr, if_neg (by simp), find_of_mem hk hr]

/-- **The two read paths agree**: `Rollouts` lists every stored rollout exactly once, and
each is the row with its own children, as `Rollout` returns it. -/
theorem read_paths_agree {s : Store} (hk : RolloutKeys s) :
    ∃ rs, rollouts.run s = (.ok rs, s) ∧ (rs.map (·.id)).Perm (s.rollouts.map (·.id)) ∧
      (rs.map (·.id)).Nodup ∧ ∀ ro ∈ rs, (rollout ro.id).run s = (.ok ro, s) ∧
        ∃ r ∈ s.rollouts, ro = hydrated s r := by
  have hids : (hydratedAll s).map (·.id) = (orderBy (-·.createdAt) s.rollouts).map (·.id) := by
    unfold hydratedAll
    rw [List.map_map]
    rfl
  have hperm : ((hydratedAll s).map (·.id)).Perm (s.rollouts.map (·.id)) := by
    rw [hids]
    exact (List.perm_insertionSort _ _).map _
  refine ⟨hydratedAll s, rollouts_run hk, hperm, hperm.nodup_iff.mpr hk.ids, fun ro hro => ?_⟩
  obtain ⟨r, hr, rfl⟩ := List.mem_map.mp hro
  have hr : r ∈ s.rollouts := (List.mem_insertionSort _).mp hr
  exact ⟨rollout_run_of_mem hk hr, r, hr, rfl⟩

/-- Two rollouts whose children stand in the tables in no particular order. -/
private def twoRollouts : Store :=
  { Store.empty with
    rollouts := [⟨"r1", "p1", "t1", "First", "", "", "", 0, 0, none⟩,
      ⟨"r2", "p1", "t1", "Second", "", "", "", hour, hour, some "ann"⟩]
    rolloutStages := [⟨"r2", 1, "prod1", 9 * hour, hour, "scheduled"⟩,
      ⟨"r1", 0, "non-prod", 5 * hour, hour, "done"⟩,
        ⟨"r2", 0, "non-prod", 7 * hour, hour, "active"⟩]
    rolloutActors := [⟨"r2", "ann"⟩, ⟨"r2", "ben"⟩]
    rolloutTasks := [⟨"r1", 1, "Deploy", "", "", none, none⟩,
      ⟨"r1", 0, "Announce", "done", "", some "ann", some hour⟩] }

theorem read_paths_agree_twoRollouts :
    ∃ rs, rollouts.run twoRollouts = (.ok rs, twoRollouts) ∧ rs.length = 2 ∧
      ∀ ro ∈ rs, (rollout ro.id).run twoRollouts = (.ok ro, twoRollouts) := by
  obtain ⟨rs, hrun, hperm, -, hall⟩ := read_paths_agree (s := twoRollouts)
    ⟨by decide, by decide⟩
  refine ⟨rs, hrun, ?_, fun ro hro => (hall ro hro).1⟩
  have := hperm.length_eq
  rw [List.length_map, List.length_map] at this
  exact this

end Repository

end ReleaseRadar
