import ReleaseRadar.Api.Reads
import ReleaseRadar.Live.NoUpdateLost

/-!
# What the open views show

The views of the tabs of `Live.system`, on top of it. Every data view pipes its fetch off
`tick$`: `startWith` fetches when the view opens, and a bump of its tab's bus starts the fetch
again with `switchMap`, which drops the one under way. A fetch sends its `GET`s together; each
answers with what its queries have found, at the moments they were asked. The list requests
`catchError` to an empty list, the detail page's to `null` on 404 and to nothing otherwise;
what a view shows is replaced when every request of the fetch has emitted.

`db n` is what the database holds for the views after `n` mutations have committed. No step of
the browser reads the `asked` of a request that has been answered.

`views_converge`: when every committed write has been broadcast and the tab of a view has nothing
to wait for, a view whose fetch has been answered shows what the server would answer now. A write
whose handler failed after its commit has no broadcast, and the views know nothing of it.
-/

namespace ReleaseRadar

open Lib Api

namespace Live

/-- The fetches of the views: `shell`, `contacts`, `timeline`, `list`, `master-data`,
`locks`, and the three of `rollout-detail`. The id of a detail page is the one the server reads
in its URL: that of the route, if the URL carries it. -/
inductive ViewKind
  | shell
  | contacts
  | timeline
  | list
  | masterData
  | locks
  | detail (id : String)
  | detailTypes
  | detailLocks
deriving DecidableEq, Repr

/-- The requests of one fetch. -/
def ViewKind.endpoints : ViewKind → List Endpoint
  | shell | contacts => [.products]
  | timeline => [.rollouts, .locks, .rolloutTypes]
  | list => [.rollouts, .products]
  | masterData => [.products, .rolloutTypes]
  | locks | detailLocks => [.locks]
  | detail id => [.rollout id]
  | detailTypes => [.rolloutTypes]

/-- What the browser gets of a request: a reply, or none when the connection was lost. -/
abbrev Outcome := Option Reply

/-- `HttpClient` emits the body of a 2xx; one without a body is `null`. -/
def Outcome.ok : Outcome → Option Body
  | some reply => if 200 ≤ reply.status ∧ reply.status < 300 then some reply.body else none
  | none => none

/-- What the request emits to the fetch: its body, or what its `catchError` makes of the error
(`some none`: the empty list, or `null`), or nothing (`EMPTY`). -/
def emits (e : Endpoint) (o : Outcome) : Option (Option Body) :=
  match o.ok, e, o with
  | some body, _, _ => some (some body)
  | none, .rollout _, some reply => if reply.status = 404 then some none else none
  | none, .rollout _, none => none
  | none, _, _ => some none

/-- A `GET` of a fetch: how many mutations had committed at each of its queries so far and how
the query failed, if it did, and what the browser has got of it. -/
structure Get where
  asked : List (Nat × Option (Fault Err))
  outcome : Option Outcome

/-- An open view: its tab, the session of its page's cookie, what it fetches, the fetch its
last tick started, and what it shows (`none`: the initial value). -/
structure View where
  tab : Nat
  session : Option Session
  kind : ViewKind
  fetch : List Get
  shown : Option (List (Option Body))

namespace View

/-- `switchMap`: the fetch of a new tick. -/
def restart (V : View) : View := { V with fetch := V.kind.endpoints.map fun _ => ⟨[], none⟩ }

/-- What the fetch emits: a value from every request, once all have answered. -/
def emission (V : View) : Option (List (Option Body)) :=
  (V.kind.endpoints.zip V.fetch).mapM fun p => p.2.outcome.bind (emits p.1)

/-- The browser gets the outcome of the `j`-th request. -/
def deliver (V : View) (j : Nat) (g : Get) (o : Outcome) : View :=
  let V := { V with fetch := V.fetch.set j { g with outcome := some o } }
  { V with shown := V.emission.or V.shown }

end View

/-- The live system and the views open in its tabs. -/
structure Site where
  sys : Sys
  views : List View

inductive ViewAction
  | live (a : Action)
  | openView (t : Nat) (session : Option Session) (kind : ViewKind)
  | navigate (v : Nat) (id : String)
  | query (v j : Nat) (fault : Option (Fault Err))
  | answer (v j : Nat)
  | lose (v j : Nat)
  | close (v : Nat)

/-- The tab whose bus the action bumps. -/
def Action.bumps : Action → Option Nat
  | .fireBump t _ | .bump t => some t
  | _ => none

section Machine

variable (db : Nat → Store) (zone : Int → Int)

/-- What the server has made of the request so far. -/
def View.replied (V : View) (e : Endpoint) (g : Get) : Option (Except Err Reply) :=
  (e.reading zone V.session).replay (g.asked.map fun a => (db a.1, a.2))

def viewStep (s : Site) : ViewAction → Option Site
  | .live a => do
    let sys ← step s.sys a
    some ⟨sys, s.views.map fun V => if a.bumps = some V.tab then V.restart else V⟩
  | .openView t session kind =>
    if t < s.sys.tabs.length then
      some { s with views := s.views ++ [View.restart ⟨t, session, kind, [], none⟩] }
    else none
  | .navigate v id =>
    match s.views[v]? with
    | some V =>
      match V.kind with
      | .detail _ => some { s with
          views := s.views.set v (View.restart { V with kind := .detail id }) }
      | _ => none
    | none => none
  | .query v j fault =>
    match s.views[v]? with
    | some V =>
      match V.kind.endpoints[j]?, V.fetch[j]? with
      | some e, some g =>
        if g.outcome.isNone ∧ (V.replied db zone e g).isNone then some { s with
          views := s.views.set v { V with
            fetch := V.fetch.set j { g with asked := g.asked ++ [(s.sys.commits, fault)] } } }
        else none
      | _, _ => none
    | none => none
  | .answer v j =>
    match s.views[v]? with
    | some V =>
      match V.kind.endpoints[j]?, V.fetch[j]? with
      | some e, some g =>
        match g.outcome, V.replied db zone e g with
        | none, some r => some { s with
            views := s.views.set v (V.deliver j g (some (answerOf r))) }
        | _, _ => none
      | _, _ => none
    | none => none
  | .lose v j =>
    match s.views[v]? with
    | some V =>
      match V.fetch[j]? with
      | some g =>
        if g.outcome.isNone then some { s with views := s.views.set v (V.deliver j g none) }
        else none
      | none => none
    | none => none
  | .close v => if v < s.views.length then some { s with views := s.views.eraseIdx v } else none

/-- The live system with its views. -/
def views : Machine Site ViewAction := ⟨viewStep db zone⟩

end Machine

/-- No page is open. -/
def Site.start : Site := ⟨Live.start, []⟩

/-! ## One view -/

/-- Every view asks for something. -/
theorem endpoints_ne_nil (kind : ViewKind) : kind.endpoints ≠ [] := by
  cases kind <;> exact List.cons_ne_nil _ _

namespace View

variable {V : View} {db : Nat → Store} {zone : Int → Int} {j : Nat} {e : Endpoint} {g g' : Get}
  {o : Outcome}

/-- A view and its fetch belong together: every request has its `Get`, what a request has been
answered is what its queries give, and what the fetch has emitted is shown. -/
structure Sound (db : Nat → Store) (zone : Int → Int) (V : View) : Prop where
  length : V.fetch.length = V.kind.endpoints.length
  replied : ∀ (j : Nat) (e : Endpoint) (g : Get) (reply : Reply), V.kind.endpoints[j]? = some e →
    V.fetch[j]? = some g → g.outcome = some (some reply) →
      ∃ r, V.replied db zone e g = some r ∧ reply = answerOf r
  shown : ∀ x, V.emission = some x → V.shown = some x

/-- A fetch with a request under way has not emitted. -/
theorem emission_none (he : V.kind.endpoints[j]? = some e) (hg : V.fetch[j]? = some g)
    (ho : g.outcome = none) : V.emission = none := by
  cases hx : V.emission with
  | none => rfl
  | some x =>
    have hmem : (e, g) ∈ V.kind.endpoints.zip V.fetch :=
      List.mem_iff_getElem?.mpr ⟨j, List.getElem?_zip_eq_some.mpr ⟨he, hg⟩⟩
    have hsome := isSome_of_mapM hx hmem
    rw [ho] at hsome
    cases hsome

/-- A view that has just asked has no answer to be wrong. -/
theorem sound_restart (V : View) : V.restart.Sound db zone where
  length := List.length_map _
  replied j e g reply _ hg ho := by
    obtain ⟨_, -, rfl⟩ := List.getElem?_map ▸ hg |> Option.map_eq_some_iff.mp
    cases ho
  shown x hx := by
    obtain ⟨e, es, he⟩ := List.exists_cons_of_ne_nil (endpoints_ne_nil V.kind)
    have hnone : V.restart.emission = none :=
      emission_none (j := 0) (e := e) (g := ⟨[], none⟩)
        (show V.kind.endpoints[0]? = some e by rw [he]; rfl)
        (show (V.kind.endpoints.map _)[0]? = some _ by rw [he]; rfl) rfl
    rw [hnone] at hx
    cases hx

/-- A request under way asks once more. -/
theorem sound_ask (h : V.Sound db zone) (he : V.kind.endpoints[j]? = some e)
    (hg : V.fetch[j]? = some g) (ho : g'.outcome = none) :
    Sound db zone { V with fetch := V.fetch.set j g' } where
  length := List.length_set.trans h.length
  replied i e' g₁ reply he' hg₁ ho₁ := by
    rcases of_getElem?_set hg₁ with ⟨-, rfl⟩ | ⟨-, hold⟩
    · rw [ho] at ho₁
      cases ho₁
    · exact h.replied i e' g₁ reply he' hold ho₁
  shown x hx := by
    have hset : (V.fetch.set j g')[j]? = some g' :=
      List.getElem?_set_self (List.getElem?_eq_some_iff.mp hg).1
    rw [emission_none (V := { V with fetch := V.fetch.set j g' }) he hset ho] at hx
    cases hx

/-- A request is answered with what its queries give, or its connection is lost. -/
theorem sound_deliver (h : V.Sound db zone)
    (ho : ∀ e reply, V.kind.endpoints[j]? = some e → o = some reply →
      ∃ r, V.replied db zone e g = some r ∧ reply = answerOf r) :
        (V.deliver j g o).Sound db zone where
  length := List.length_set.trans h.length
  replied i e' g₁ reply he' hg₁ ho₁ := by
    rcases of_getElem?_set hg₁ with ⟨rfl, rfl⟩ | ⟨-, hold⟩
    · exact ho e' reply he' (Option.some.inj ho₁)
    · exact h.replied i e' g₁ reply he' hold ho₁
  shown x hx := by
    have hx' : View.emission { V with fetch := V.fetch.set j { g with outcome := some o } } =
        some x := hx
    show Option.or (View.emission _) V.shown = some x
    rw [hx', Option.some_or]

end View

/-! ## The views and their tabs -/

section Steps

variable {s s' : Sys} {a : Action}

/-- What a step does to the tabs' refetches. -/
structure Refetches (s : Sys) (a : Action) (s' : Sys) : Prop where
  commits : s.commits ≤ s'.commits
  tabs : s.tabs.length ≤ s'.tabs.length
  refetched : ∀ (t : Nat) (T' : Tab), s'.tabs[t]? = some T' →
    (∃ T, s.tabs[t]? = some T ∧ T'.refetched = T.refetched) ∨
      (a.bumps = some t ∧ t < s.tabs.length ∧ T'.refetched = s.commits) ∨
        t = s.tabs.length ∧ T'.refetched = 0

/-- A step that touches no tab refetches nothing. -/
theorem refetches_of_tabs (hmutations : s.mutations.length ≤ s'.mutations.length)
    (htabs : s'.tabs = s.tabs) : Refetches s a s' where
  commits := hmutations
  tabs := by rw [htabs]
  refetched t T' ht := Or.inl ⟨T', htabs ▸ ht, rfl⟩

/-- A callback of a tab that bumps nothing. -/
theorem refetches_set {t : Nat} {T T' : Tab} (hmutations : s'.mutations = s.mutations)
    (htabs : s'.tabs = s.tabs.set t T') (ht : s.tabs[t]? = some T)
    (hT' : T'.refetched = T.refetched) : Refetches s a s' where
  commits := by rw [Sys.commits, Sys.commits, hmutations]
  tabs := by rw [htabs, List.length_set]
  refetched t₁ T₁ ht₁ := by
    rw [htabs] at ht₁
    rcases of_getElem?_set ht₁ with ⟨rfl, rfl⟩ | ⟨-, hold⟩
    · exact Or.inl ⟨T, ht, hT'⟩
    · exact Or.inl ⟨T₁, hold, rfl⟩

/-- A bump of a tab's bus. -/
theorem refetches_bump {t : Nat} {T T' : Tab} (ha : a.bumps = some t)
    (ht : s.tabs[t]? = some T) (hT' : T'.refetched = s.commits) :
    Refetches s a { s with tabs := s.tabs.set t T' } where
  commits := Nat.le_refl _
  tabs := by rw [List.length_set]
  refetched t₁ T₁ ht₁ := by
    rcases of_getElem?_set ht₁ with ⟨rfl, rfl⟩ | ⟨-, hold⟩
    · exact Or.inr (Or.inl ⟨ha, (List.getElem?_eq_some_iff.mp ht).1, hT'⟩)
    · exact Or.inl ⟨T₁, hold, rfl⟩

/-- A callback of a socket. -/
theorem refetches_modify {t k : Nat} {f : LiveService → LiveService}
    (hmutations : s'.mutations = s.mutations) (htabs : s'.tabs = s.tabs.modify t (Tab.on k f)) :
    Refetches s a s' where
  commits := by rw [Sys.commits, Sys.commits, hmutations]
  tabs := by rw [htabs, List.length_modify]
  refetched t₁ T₁ ht₁ := by
    rw [htabs] at ht₁
    obtain ⟨T, hT, ⟨-, rfl⟩ | ⟨-, rfl⟩⟩ := of_getElem?_modify ht₁
    · refine Or.inl ⟨T, hT, ?_⟩
      rcases Tab.on_cases k f T with ⟨-, heq⟩ | ⟨-, heq⟩ <;> rw [heq]
    · exact Or.inl ⟨T₁, hT, rfl⟩

/-- A tab refetches at a bump, and at nothing else. -/
theorem refetches_step (hs : step s a = some s') : Refetches s a s' := by
  cases a with
  | wait d =>
    simp only [step] at hs
    split at hs
    · cases hs
      exact refetches_of_tabs (Nat.le_refl _) rfl
    · cases hs
  | commit entity id action =>
    cases hs
    refine refetches_of_tabs ?_ rfl
    -- a commit is the one step that adds to the commits
    rw [List.length_append]
    exact Nat.le_add_right _ _
  | fail i =>
    obtain ⟨_, _, _, -, rfl⟩ := step_fail hs
    exact refetches_of_tabs (Nat.le_of_eq List.length_set.symm) rfl
  | assignRev i =>
    obtain ⟨_, _, _, -, rfl⟩ := step_assignRev hs
    exact refetches_of_tabs (Nat.le_of_eq List.length_set.symm) rfl
  | lock i =>
    obtain ⟨_, -, -, rfl⟩ := step_lock hs
    exact refetches_of_tabs (Nat.le_of_eq List.length_set.symm) rfl
  | send i c =>
    obtain ⟨_, _, -, -, rfl⟩ := step_send hs
    exact refetches_of_tabs (Nat.le_of_eq List.length_set.symm) rfl
  | unlock i =>
    obtain ⟨_, -, rfl⟩ := step_unlock hs
    exact refetches_of_tabs (Nat.le_of_eq List.length_set.symm) rfl
  | accept k =>
    obtain ⟨_, -, -, rfl⟩ := step_accept hs
    exact refetches_of_tabs (Nat.le_refl _) rfl
  | refuse k =>
    obtain ⟨_, -, -, rfl⟩ := step_refuse hs
    exact refetches_of_tabs (Nat.le_refl _) rfl
  | register k =>
    obtain ⟨_, -, -, -, rfl | ⟨_, -, rfl⟩⟩ := step_register hs
    · exact refetches_of_tabs (Nat.le_refl _) rfl
    · exact refetches_of_tabs (Nat.le_refl _) rfl
  | take k =>
    obtain ⟨_, _, _, _, -, -, -, rfl⟩ := step_take hs
    exact refetches_of_tabs (Nat.le_refl _) rfl
  | write k =>
    obtain ⟨_, _, _, -, -, rfl⟩ := step_write hs
    exact refetches_of_tabs (Nat.le_refl _) rfl
  | leave k =>
    obtain ⟨_, _, _, -, -, rfl⟩ := step_leave hs
    exact refetches_of_tabs (Nat.le_refl _) rfl
  | unregister k =>
    obtain ⟨_, _, _, -, -, -, rfl⟩ := step_unregister hs
    exact refetches_of_tabs (Nat.le_refl _) rfl
  | load user random ok =>
    cases hs
    refine ⟨Nat.le_refl _, ?_, fun t T' ht => ?_⟩
    · rw [List.length_append]
      exact Nat.le_add_right _ _
    · rcases of_getElem?_concat ht with hT | ⟨rfl, rfl⟩
      · exact Or.inl ⟨T', hT, rfl⟩
      · -- a tab that is loaded has fetched nothing yet
        exact Or.inr (Or.inr ⟨rfl, rfl⟩)
  | opened k =>
    obtain ⟨_, -, rfl⟩ := step_opened hs
    exact refetches_modify rfl rfl
  | message k =>
    obtain ⟨_, _, _, -, -, rfl⟩ := step_message hs
    exact refetches_modify rfl rfl
  | dropped k random =>
    obtain ⟨_, -, rfl⟩ := step_dropped hs
    exact refetches_modify rfl rfl
  | fireBump t handle =>
    obtain ⟨_, ht, rfl⟩ := step_fireBump hs
    exact refetches_bump rfl ht rfl
  | fireReconnect t handle random ok =>
    obtain ⟨_, ht, -, rfl⟩ := step_fireReconnect hs
    exact refetches_set rfl rfl ht rfl
  | fireStable t handle =>
    obtain ⟨_, ht, rfl⟩ := step_fireStable hs
    exact refetches_set rfl rfl ht rfl
  | bump t =>
    obtain ⟨_, ht, rfl⟩ := step_bump hs
    exact refetches_bump rfl ht rfl
  | disconnect t =>
    obtain ⟨_, ht, rfl⟩ := step_disconnect hs
    exact refetches_set rfl rfl ht rfl

end Steps

section ViewSteps

variable {db : Nat → Store} {zone : Int → Int} {s s' : Site}

/-- A step of the service restarts the views of a tab that refetches. -/
theorem viewStep_live {a : Action} (h : viewStep db zone s (.live a) = some s') :
    ∃ sys, step s.sys a = some sys ∧
      s' = ⟨sys, s.views.map fun V => if a.bumps = some V.tab then V.restart else V⟩ := by
  simp only [viewStep] at h
  cases hsys : step s.sys a with
  | none => rw [hsys] at h; cases h
  | some sys =>
    rw [hsys] at h
    exact ⟨sys, rfl, (Option.some.inj h).symm⟩

/-- A navigation restarts the view for its rollout. -/
theorem viewStep_navigate {v : Nat} {id : String}
    (h : viewStep db zone s (.navigate v id) = some s') :
    ∃ V, s.views[v]? = some V ∧
      s' = { s with views := s.views.set v (View.restart { V with kind := .detail id }) } := by
  simp only [viewStep] at h
  split at h
  · next V hV =>
    split at h
    · exact ⟨V, hV, (Option.some.inj h).symm⟩
    · cases h
  · cases h

/-- The server reads for a fetch that is under way. -/
theorem viewStep_query {v j : Nat} {fault : Option (Fault Err)}
    (h : viewStep db zone s (.query v j fault) = some s') :
    ∃ V e g, s.views[v]? = some V ∧ V.kind.endpoints[j]? = some e ∧ V.fetch[j]? = some g ∧
      g.outcome = none ∧
      s' = { s with views := s.views.set v { V with
        fetch := V.fetch.set j { g with asked := g.asked ++ [(s.sys.commits, fault)] } } } := by
  simp only [viewStep] at h
  split at h
  · next V hV =>
    split at h
    · next e g he hg =>
      split at h
      · next hasking =>
        exact ⟨V, e, g, hV, he, hg, Option.isNone_iff_eq_none.mp hasking.1,
          (Option.some.inj h).symm⟩
      · cases h
    · cases h
  · cases h

/-- The answer reaches the view. -/
theorem viewStep_answer {v j : Nat} (h : viewStep db zone s (.answer v j) = some s') :
    ∃ V e g r, s.views[v]? = some V ∧ V.kind.endpoints[j]? = some e ∧ V.fetch[j]? = some g ∧
      V.replied db zone e g = some r ∧
      s' = { s with views := s.views.set v (V.deliver j g (some (answerOf r))) } := by
  simp only [viewStep] at h
  split at h
  · next V hV =>
    split at h
    · next e g he hg =>
      split at h
      · next r _ hr => exact ⟨V, e, g, r, hV, he, hg, hr, (Option.some.inj h).symm⟩
      · cases h
    · cases h
  · cases h

/-- Or it is lost. -/
theorem viewStep_lose {v j : Nat} (h : viewStep db zone s (.lose v j) = some s') :
    ∃ V g, s.views[v]? = some V ∧ V.fetch[j]? = some g ∧
      s' = { s with views := s.views.set v (V.deliver j g none) } := by
  simp only [viewStep] at h
  split at h
  · next V hV =>
    split at h
    · next g hg =>
      split at h
      · exact ⟨V, g, hV, hg, (Option.some.inj h).symm⟩
      · cases h
    · cases h
  · cases h

/-! ## The invariant -/

/-- The tab's view was last restarted, or opened, when these many mutations had committed or
later: none of its queries is older. -/
def View.Since (s : Sys) (V : View) : Prop :=
  ∀ T, s.tabs[V.tab]? = some T → ∀ g ∈ V.fetch, ∀ a ∈ g.asked,
    T.refetched ≤ a.1 ∧ a.1 ≤ s.commits

/-- What holds of an open view. -/
structure View.Inv (db : Nat → Store) (zone : Int → Int) (s : Sys) (V : View) : Prop where
  sound : V.Sound db zone
  tab : V.tab < s.tabs.length
  since : V.Since s

/-- What holds in every state a run along `Heard` reaches. -/
structure SiteInv (db : Nat → Store) (zone : Int → Int) (s : Site) : Prop where
  live : LiveInv s.sys
  refetched : ∀ (t : Nat) (T : Tab), s.sys.tabs[t]? = some T → T.refetched ≤ s.sys.commits
  views : ∀ V ∈ s.views, V.Inv db zone s.sys

/-- The condition of `Heard`, on a step of the live system. -/
def HeardLive (s : Site) : ViewAction → Prop
  | .live a => Heard s.sys a
  | _ => True

/-- A restarted view has read nothing yet. -/
theorem since_restart {sys : Sys} (V : View) : V.restart.Since sys := by
  intro T _ g hg a ha
  obtain ⟨_, -, rfl⟩ := List.mem_map.mp hg
  cases ha

/-- It has its tab, and nothing else to keep. -/
theorem inv_restart {sys : Sys} {V : View} (htab : V.tab < sys.tabs.length) :
    V.restart.Inv db zone sys where
  sound := View.sound_restart V
  tab := htab
  since := since_restart V

/-- A tab has refetched after commits that have been made. -/
theorem refetched_live {sys : Sys} {a : Action} (h : SiteInv db zone s) (hr : Refetches s.sys a sys)
    (t : Nat) (T : Tab) (ht : sys.tabs[t]? = some T) : T.refetched ≤ sys.commits := by
  rcases hr.refetched t T ht with ⟨T₀, hT₀, heq⟩ | ⟨-, -, heq⟩ | ⟨-, heq⟩
  · exact heq ▸ (h.refetched t T₀ hT₀).trans hr.commits
  · exact heq ▸ hr.commits
  · exact heq ▸ Nat.zero_le _

/-- A step of the live system: a bump starts the tab's fetches again, and the queries of the
others were asked since their tab's last bump. -/
theorem inv_live {sys : Sys} {a : Action} {V : View} (h : V.Inv db zone s.sys)
    (hr : Refetches s.sys a sys) :
    (if a.bumps = some V.tab then V.restart else V).Inv db zone sys := by
  have htab : V.tab < sys.tabs.length := Nat.lt_of_lt_of_le h.tab hr.tabs
  by_cases hbump : a.bumps = some V.tab
  · rw [if_pos hbump]
    exact inv_restart htab
  · rw [if_neg hbump]
    refine ⟨h.sound, htab, fun T hT g hg b hb => ?_⟩
    rcases hr.refetched V.tab T hT with ⟨T₀, hT₀, heq⟩ | ⟨hb', -, -⟩ | ⟨hnew, -⟩
    · have hold := h.since T₀ hT₀ g hg b hb
      exact ⟨heq ▸ hold.1, hold.2.trans hr.commits⟩
    · exact absurd hb' hbump
    · exact absurd h.tab (hnew ▸ Nat.lt_irrefl _)

/-- One view takes a step of its own. -/
theorem inv_set {v : Nat} {V' : View} (h : SiteInv db zone s) (hV' : V'.Inv db zone s.sys) :
    SiteInv db zone { s with views := s.views.set v V' } where
  live := h.live
  refetched := h.refetched
  views V hV := by
    rcases List.mem_or_eq_of_mem_set hV with hold | rfl
    · exact h.views V hold
    · exact hV'

/-- The outcome of a request changes nothing about when its queries were asked. -/
theorem inv_deliver {V : View} {j : Nat} {g : Get} {o : Outcome} (h : V.Inv db zone s.sys)
    (hg : V.fetch[j]? = some g)
    (ho : ∀ e reply, V.kind.endpoints[j]? = some e → o = some reply →
      ∃ r, V.replied db zone e g = some r ∧ reply = answerOf r) : (V.deliver j g o).Inv db
        zone s.sys where
  sound := View.sound_deliver h.sound ho
  tab := h.tab
  since T hT g' hg' a ha := by
    rcases List.mem_or_eq_of_mem_set hg' with hold | rfl
    · exact h.since T hT g' hold a ha
    · exact h.since T hT g (List.mem_iff_getElem?.mpr ⟨j, hg⟩) a ha

/-- Every step keeps it. -/
theorem siteInv_step {a : ViewAction} (h : SiteInv db zone s) (hG : HeardLive s a)
    (hs : viewStep db zone s a = some s') : SiteInv db zone s' := by
  cases a with
  | live a =>
    obtain ⟨sys, hsys, rfl⟩ := viewStep_live hs
    have hr := refetches_step hsys
    refine ⟨liveInv_step h.live hG hsys, refetched_live h hr, fun V hV => ?_⟩
    obtain ⟨V₀, hV₀, rfl⟩ := List.mem_map.mp hV
    exact inv_live (h.views V₀ hV₀) hr
  | openView t session kind =>
    simp only [viewStep] at hs
    split at hs
    · next ht =>
      cases hs
      refine ⟨h.live, h.refetched, fun V hV => ?_⟩
      rcases List.mem_append.mp hV with hold | hnew
      · exact h.views V hold
      · rw [List.mem_singleton.mp hnew]
        exact inv_restart ht
    · cases hs
  | navigate v id =>
    obtain ⟨V, hV, rfl⟩ := viewStep_navigate hs
    have hinv := h.views V (List.mem_iff_getElem?.mpr ⟨v, hV⟩)
    exact inv_set h (inv_restart (V := { V with kind := .detail id }) hinv.tab)
  | query v j fault =>
    obtain ⟨V, e, g, hV, he, hg, ho, rfl⟩ := viewStep_query hs
    have hinv := h.views V (List.mem_iff_getElem?.mpr ⟨v, hV⟩)
    refine inv_set h ⟨View.sound_ask hinv.sound he hg ho, hinv.tab, fun T hT g' hg' a ha => ?_⟩
    rcases List.mem_or_eq_of_mem_set hg' with hold | rfl
    · exact hinv.since T hT g' hold a ha
    · rcases List.mem_append.mp ha with hbefore | hnow
      · exact hinv.since T hT g (List.mem_iff_getElem?.mpr ⟨j, hg⟩) a hbefore
      · rw [List.mem_singleton.mp hnow]
        exact ⟨h.refetched V.tab T hT, Nat.le_refl _⟩
  | answer v j =>
    obtain ⟨V, e, g, r, hV, he, hg, hr, rfl⟩ := viewStep_answer hs
    refine inv_set h (inv_deliver (h.views V (List.mem_iff_getElem?.mpr ⟨v, hV⟩)) hg ?_)
    intro e' reply he' ho
    obtain rfl := Option.some.inj (he.symm.trans he')
    exact ⟨r, hr, (Option.some.inj ho).symm⟩
  | lose v j =>
    obtain ⟨V, g, hV, hg, rfl⟩ := viewStep_lose hs
    exact inv_set h (inv_deliver (h.views V (List.mem_iff_getElem?.mpr ⟨v, hV⟩)) hg
      fun e reply _ ho => by cases ho)
  | close v =>
    simp only [viewStep] at hs
    split at hs
    · cases hs
      exact ⟨h.live, h.refetched, fun V hV => h.views V (List.mem_of_mem_eraseIdx hV)⟩
    · cases hs

/-- It holds before anything has happened. -/
theorem siteInv_start : SiteInv db zone Site.start where
  live := liveInv_start
  refetched _ _ ht := by cases ht
  views _ hV := by cases hV

end ViewSteps

/-! ## What a settled view shows -/

/-- The tab is live on a registered socket with nothing on its way, and no refetch is
pending. -/
def Quiet (s : Sys) (T : Tab) : Prop :=
  T.live.status = .live ∧
    (∃ k ∈ T.live.socket, ∃ K ∈ s.conns[k]?, ∃ c ∈ K.handler.client, s.queued K c = []) ∧
      ¬T.live.BumpPending

namespace View

/-- Every request of the view's fetch has been answered, and none of its queries failed. -/
def Served (V : View) : Prop :=
  ∀ g ∈ V.fetch, g.outcome.join.isSome ∧ ∀ a ∈ g.asked, a.2.isNone

/-- What a fetch of the view emits when the server answers it from the database `s`. -/
def current (V : View) (env : Env) (s : Store) : Option (List (Option Body)) :=
  V.kind.endpoints.mapM fun e =>
    emits e (some (respond env (e.request V.session) (fun _ => none) ⟨s, 0⟩).1)

/-- A served fetch whose queries were all asked at `n` has emitted what the server answers
from `db n`. -/
theorem emission_of_served {V : View} {db : Nat → Store} {n : Nat} (env : Env)
    (h : V.Sound db env.zone) (hserved : V.Served)
    (hasked : ∀ g ∈ V.fetch, ∀ a ∈ g.asked, a.1 = n) :
    V.emission = V.current env (db n) := by
  have hmap : (V.kind.endpoints.zip V.fetch).map (fun p => p.2.outcome.bind (emits p.1)) =
      V.kind.endpoints.map fun e => emits e (some (e.answer env.zone V.session (db n))) := by
    refine List.ext_getElem? fun j => ?_
    rw [List.getElem?_map, List.getElem?_map]
    cases he : V.kind.endpoints[j]? with
    | none =>
      have hnone : (V.kind.endpoints.zip V.fetch)[j]? = none := by
        rw [List.getElem?_eq_none_iff] at he ⊢
        rw [List.length_zip]
        omega
      rw [hnone]
      rfl
    | some e =>
      obtain ⟨hj, -⟩ := List.getElem?_eq_some_iff.mp he
      obtain ⟨g, hg⟩ : ∃ g, V.fetch[j]? = some g :=
        ⟨_, List.getElem?_eq_getElem (h.length ▸ hj)⟩
      have hmem : g ∈ V.fetch := List.mem_iff_getElem?.mpr ⟨j, hg⟩
      obtain ⟨hanswered, hfaults⟩ := hserved g hmem
      have hzip : (V.kind.endpoints.zip V.fetch)[j]? = some (e, g) :=
        List.getElem?_zip_eq_some.mpr ⟨he, hg⟩
      rw [hzip]
      cases ho : g.outcome.join with
      | none => rw [ho] at hanswered; cases hanswered
      | some reply =>
        have hout : g.outcome = some (some reply) := Option.join_eq_some_iff.mp ho
        obtain ⟨r, hr, rfl⟩ := h.replied j e g reply he hg hout
        have hnow : (e.reading env.zone V.session).now (db n) = r := by
          refine Reading.replay_now (fun c hc => ?_) hr
          obtain ⟨a, ha, rfl⟩ := List.mem_map.mp hc
          rw [hasked g hmem a ha, Option.isNone_iff_eq_none.mp (hfaults a ha)]
        show some (g.outcome.bind (emits e)) = some (emits e (some (answerOf _)))
        rw [hout, hnow]
        rfl
  unfold emission current
  simp only [respond_endpoint]
  have hmapM : ∀ ys, (V.kind.endpoints.zip V.fetch).mapM
      (fun p => p.2.outcome.bind (emits p.1)) = some ys ↔
        V.kind.endpoints.mapM (fun e => emits e (some (e.answer env.zone V.session (db n)))) =
          some ys := by
    intro ys
    rw [mapM_eq_some_iff, mapM_eq_some_iff, hmap]
  exact Option.ext hmapM

end View

/-- **The views converge** along a run that meets `Heard`: when every committed write has been
broadcast, a view of a tab that has nothing to wait for, whose fetch has been answered without a
failed query, shows what a fetch emits now. -/
theorem views_converge (db : Nat → Store) (env : Env) {as : List ViewAction} {s : Site}
    (hG : (views db env.zone).Along HeardLive Site.start as)
    (he : (views db env.zone).exec Site.start as = some s)
    (hdone : ∀ m ∈ s.sys.mutations, m.isDone) {V : View} (hV : V ∈ s.views) {T : Tab}
    (hT : s.sys.tabs[V.tab]? = some T) (hquiet : Quiet s.sys T) (hserved : V.Served) :
    ∀ x, V.current env (db s.sys.commits) = some x → V.shown = some x := by
  have hinv : SiteInv db env.zone s :=
    (views db env.zone).exec_invariant_along (fun _ _ _ h hg hs => siteInv_step h hg hs)
      siteInv_start hG he
  obtain ⟨hlive, ⟨k, hk, K, hK, c, hc, hqueued⟩, hpending⟩ := hquiet
  have hcaught : s.sys.commits ≤ T.refetched :=
    caughtUp_of_awaiting hinv.live.awaiting hdone T (List.mem_iff_getElem?.mpr ⟨V.tab, hT⟩) hlive
      k hk K hK c hc hqueued hpending
  have hview := hinv.views V hV
  have hasked : ∀ g ∈ V.fetch, ∀ a ∈ g.asked, a.1 = s.sys.commits := by
    intro g hg a ha
    obtain ⟨hle, hge⟩ := hview.since T hT g hg a ha
    exact Nat.le_antisymm hge (hcaught.trans hle)
  intro x hx
  rw [← View.emission_of_served env hview.sound hserved hasked] at hx
  exact hview.sound.shown x hx

instance (s : Site) : ∀ a, Decidable (HeardLive s a)
  | .live a => inferInstanceAs (Decidable (Heard s.sys a))
  | .openView _ _ _ | .navigate _ _ | .query _ _ _ | .answer _ _ | .lose _ _ | .close _ =>
    isTrue trivial

instance (s : Sys) (T : Tab) : Decidable (Quiet s T) := inferInstanceAs (Decidable (_ ∧ _ ∧ _))

instance (V : View) : Decidable V.Served := inferInstanceAs (Decidable (∀ _ ∈ _, _))

/-- A product is stored by the second mutation. -/
def toldDb (n : Nat) : Store :=
  { Store.empty with products := if n < 2 then [] else [⟨"p1", "Product", none, []⟩] }

/-- The sidebar is open while the tab is told of the two mutations of `told`. -/
def toldView : List ViewAction :=
  [.live (.load "ann" 0 true),
    .openView 0 (some ⟨"ann", "ann@x.de", "Ann", "admin", none, 0⟩) .shell,
    .live (.accept 0), .live (.opened 0), .query 0 0 none, .answer 0 0,
    .live (.commit "rollout" "r1" "create"), .live (.assignRev 0), .live (.lock 0),
    .live (.unlock 0), .live (.register 0), .live (.wait 150), .live (.fireBump 0 0),
    .live (.commit "product" "p1" "update"), .query 0 0 none, .live (.assignRev 1),
    .live (.lock 1), .live (.send 1 0), .live (.unlock 1), .live (.take 0), .live (.write 0),
    .live (.message 0), .live (.wait 150), .live (.fireBump 0 1), .query 0 0 none, .answer 0 0]

theorem views_converge_told :
    ∃ s, ∃ V ∈ s.views, (views toldDb fun _ => 0).exec Site.start toldView = some s ∧
      ∀ x, V.current ⟨0, 0, "", Char.toUpper, Char.toLower, fun _ => 0⟩ (toldDb s.sys.commits) =
        some x → V.shown = some x := by
  have hruns : ∃ s, (views toldDb fun _ => 0).exec Site.start toldView = some s ∧
      (∀ m ∈ s.sys.mutations, m.isDone) ∧ ∃ V ∈ s.views, ∃ T ∈ s.sys.tabs[V.tab]?,
        Quiet s.sys T ∧ V.Served := by decide +kernel
  obtain ⟨s, he, hdone, V, hV, T, hT, hquiet, hserved⟩ := hruns
  exact ⟨s, V, hV, he,
    views_converge toldDb ⟨0, 0, "", Char.toUpper, Char.toLower, fun _ => 0⟩
      (by decide +kernel) he hdone hV hT hquiet hserved⟩

end Live

end ReleaseRadar
