import ReleaseRadar.Frontend.ApiService
import ReleaseRadar.Frontend.EditSession

/-!
# The rollout detail page

`rollout-detail.component.ts` with its template. The page stays while the route goes from one
rollout to another. `switchMap` keeps at most one request in flight, the one for the id of the
route; what has been loaded stays on the page until it is answered, and beyond that if the
answer is an error other than 404.

The component resets `hadRollout` and `actionError` when the id changes, and nothing else. So
a failure form, a draft or a confirmation that is open goes over to the next rollout, and what
is started before the next rollout has been loaded is started on the old one. An id goes into
the URL of a request as it is, so an id that its URL does not carry is answered with another
rollout, and what is sent for it is sent for another one.

* `never_mixes` — in a run that avoids this, in which no error is answered while the page still
  shows the old rollout or calls it deleted, and no success without a body once a rollout has
  been loaded, the page never mixes two rollouts;
* `careless_mixes` — every step that is left out leads to a page that does.
-/

namespace ReleaseRadar.Frontend

open Lib

/-! ## The component -/

/-- What the page asks the server to change. -/
inductive Mutation
  | updateTask (id : String) (seq : Nat) (status reason : String)
  | updateRollout (id : String) (body : Rollout)
  | deleteRollout (id : String)
deriving DecidableEq, Repr

/-- The request for it. -/
def Mutation.call : Mutation → ApiService.Call
  | updateTask id seq _ _ => ApiService.updateTask id seq
  | updateRollout id _ => ApiService.updateRollout id
  | deleteRollout id => ApiService.deleteRollout id

/-- The path of such a request for a rollout. -/
def Mutation.path (id : String) : Mutation → List String
  | updateTask _ seq _ _ => ["api", "rollouts", id, "tasks", toString seq]
  | updateRollout .. | deleteRollout _ => ["api", "rollouts", id]

/-- What the server reads is the path for this rollout. -/
def Mutation.IsFor (m : Mutation) (id : String) : Prop := m.call.Reaches (m.path id)

instance (m : Mutation) (id : String) : Decidable (m.IsFor id) :=
  inferInstanceAs (Decidable (_ = _))

/-- The answer to the request for the rollout of the route; `HttpClient` makes `null` of a
success without a body. -/
inductive Response
  | loaded (ro : Rollout)
  | empty
  | notFound
  | failed
deriving DecidableEq, Repr

/-- The signals of the component, the request in flight and the mutations in flight.

The fields from `failingFor` on are for the statements, and no step reads them but to write
them: on which rollout the form, the draft and the confirmation were started, what has been
loaded, the latest answer since the route has its id, and what has been sent, each with the
rollout on which it was started. -/
structure Page where
  route : String
  inFlight : Bool
  rollout : Option Rollout
  hadRollout : Bool
  busy : Bool
  actionError : Option String
  failingIndex : Option Nat
  reasonDraft : String
  editing : Bool
  draft : Option Rollout
  newTaskDraft : String
  confirmingDelete : Bool
  mutations : List Mutation
  failingFor : Option String
  draftFor : Option String
  deletingFor : Option String
  loaded : List String
  latest : Option Response
  sent : List (Option String × Mutation)

namespace Page

/-- The page as it is opened. -/
def opened (id : String) : Page where
  route := id
  inFlight := true
  rollout := none
  hadRollout := false
  busy := false
  actionError := none
  failingIndex := none
  reasonDraft := ""
  editing := false
  draft := none
  newTaskDraft := ""
  confirmingDelete := false
  mutations := []
  failingFor := none
  draftFor := none
  deletingFor := none
  loaded := []
  latest := none
  sent := []

variable (p : Page)

/-- The rollout existed and is now gone. -/
def deleted : Bool := p.hadRollout && p.rollout.isNone

/-- The parameters of the route emit when they change. -/
def navigate (id : String) : Page :=
  if id = p.route then p
  else
    { p with
      route := id, hadRollout := false, actionError := none, inFlight := true, latest := none }

/-- `bus.tick$`: the request is sent again, and the one in flight is dropped. -/
def tick : Page := { p with inFlight := true }

/-- A 404 emits `null`, any other error nothing. Whose rollout is answered is not checked. -/
def respond : Response → Page
  | .loaded ro =>
    { p with
      inFlight := false, rollout := some ro, hadRollout := true
      loaded := p.route :: p.loaded, latest := some (.loaded ro) }
  | .empty => { p with inFlight := false, rollout := none, latest := some .empty }
  | .notFound => { p with inFlight := false, rollout := none, latest := some .notFound }
  | .failed => { p with inFlight := false, latest := some .failed }

def send (startedOn : Option String) (m : Mutation) : Page :=
  { p with
    busy := true, actionError := none, mutations := p.mutations ++ [m]
    sent := p.sent ++ [(startedOn, m)] }

def startFailing (r : Rollout) (t : RolloutTask) : Page :=
  { p with failingIndex := some t.index, reasonDraft := t.reason, failingFor := some r.id }

def toggleDone (r : Rollout) (t : RolloutTask) : Page :=
  p.send (some r.id) (.updateTask r.id t.index (if t.status = "done" then "" else "done") "")

def onFail (r : Rollout) (t : RolloutTask) : Page :=
  if t.status = "failed" then p.send (some r.id) (.updateTask r.id t.index "" "")
  else p.startFailing r t

def saveFailure (r : Rollout) (t : RolloutTask) : Page :=
  if trim p.reasonDraft.toList = "" then p
  else p.send p.failingFor (.updateTask r.id t.index "failed" (trim p.reasonDraft.toList))

def cancelFail : Page := { p with failingIndex := none, reasonDraft := "", failingFor := none }

def enterEdit (r : Rollout) : Page :=
  { p with draft := some r, editing := true, draftFor := some r.id }

def cancelEdit : Page :=
  { p with editing := false, draft := none, newTaskDraft := "", draftFor := none }

def patchDraft (e : Edit) : Page := { p with draft := p.draft.map e.apply }

def addDraftTask : Page :=
  if trim p.newTaskDraft.toList = "" then p
  else { p.patchDraft (.addTask p.newTaskDraft) with newTaskDraft := "" }

def save : Page :=
  match p.draft with
  | none => p
  | some d => p.send p.draftFor (.updateRollout d.id (saveBody d))

def requestDelete (r : Rollout) : Page :=
  { p with confirmingDelete := true, deletingFor := some r.id }

def cancelDelete : Page := { p with confirmingDelete := false, deletingFor := none }

def confirmDelete (r : Rollout) : Page := p.send p.deletingFor (.deleteRollout r.id)

/-- The answer to a mutation. After a delete the router is asked for the timeline, which is
where the run ends. -/
def answered (m : Mutation) (ok : Bool) : Page :=
  let p := { p with busy := false, mutations := p.mutations.erase m }
  match m, ok with
  | .updateTask .., true => p.cancelFail.tick
  | .updateRollout .., true => { p with editing := false, draft := none, draftFor := none }.tick
  | .deleteRollout _, true => p.cancelDelete.tick
  | .updateTask .., false =>
    { p with actionError := some "Could not update the task — please retry." }
  | .updateRollout .., false =>
    { p with actionError := some "Could not save changes — please retry." }
  | .deleteRollout _, false =>
    { p.cancelDelete with actionError := some "Could not delete the rollout — please retry." }

/-- The checklist is shown unless the page is being edited. -/
def checklist (r : Rollout) (t : RolloutTask) : Prop :=
  t ∈ r.tasks.items ∧ ¬(p.editing = true ∧ p.draft.isSome = true)

instance (r : Rollout) (t : RolloutTask) : Decidable (p.checklist r t) :=
  inferInstanceAs (Decidable (_ ∧ _))

end Page

/-- What can happen to the page. -/
inductive PageAction
  | navigate (id : String)
  | tick
  | respond (res : Response)
  | answered (m : Mutation) (ok : Bool)
  | toggleDone (t : RolloutTask)
  | onFail (t : RolloutTask)
  | editReason (t : RolloutTask)
  | typeReason (t : RolloutTask) (v : String)
  | saveFailure (t : RolloutTask)
  | cancelFail (t : RolloutTask)
  | enterEdit
  | cancelEdit
  | patchDraft (e : Edit)
  | typeNewTask (v : String)
  | addDraftTask
  | save
  | requestDelete
  | cancelDelete
  | confirmDelete

/-- A control of the template, which stands where the rollout `r` is shown. -/
def Page.control (p : Page) (enabled : Rollout → Prop) [DecidablePred enabled]
    (f : Rollout → Page) : Option Page :=
  p.rollout.bind fun r => if enabled r then some (f r) else none

namespace Page

def step (canEdit : Bool) (p : Page) : PageAction → Option Page
  | .navigate id => some (p.navigate id)
  | .tick => some p.tick
  | .respond res => if p.inFlight = true then some (p.respond res) else none
  | .answered m ok => if m ∈ p.mutations then some (p.answered m ok) else none
  | .toggleDone t =>
    p.control (fun r => p.checklist r t ∧ canEdit = true ∧ p.busy = false) fun r => p.toggleDone r t
  | .onFail t =>
    p.control (fun r => p.checklist r t ∧ canEdit = true ∧ p.busy = false) fun r => p.onFail r t
  | .editReason t =>
    p.control (fun r => p.checklist r t ∧ canEdit = true ∧ t.status = "failed" ∧
      p.failingIndex ≠ some t.index ∧ t.reason ≠ "") fun r => p.startFailing r t
  | .typeReason t v =>
    p.control (fun r => p.checklist r t ∧ p.failingIndex = some t.index)
      fun _ => { p with reasonDraft := v }
  | .saveFailure t =>
    p.control (fun r => p.checklist r t ∧ p.failingIndex = some t.index ∧
      trim p.reasonDraft.toList ≠ "" ∧ p.busy = false) fun r => p.saveFailure r t
  | .cancelFail t =>
    p.control (fun r => p.checklist r t ∧ p.failingIndex = some t.index) fun _ => p.cancelFail
  | .enterEdit => p.control (fun _ => canEdit = true ∧ p.editing = false) fun r => p.enterEdit r
  | .cancelEdit => p.control (fun _ => canEdit = true ∧ p.editing = true) fun _ => p.cancelEdit
  | .patchDraft e =>
    p.control (fun _ => p.editing = true ∧ p.draft.isSome = true) fun _ => p.patchDraft e
  | .typeNewTask v =>
    p.control (fun _ => p.editing = true ∧ p.draft.isSome = true) fun _ =>
      { p with newTaskDraft := v }
  | .addDraftTask =>
    p.control (fun _ => p.editing = true ∧ p.draft.isSome = true) fun _ => p.addDraftTask
  | .save =>
    p.control (fun _ => canEdit = true ∧ p.editing = true ∧ p.busy = false) fun _ => p.save
  | .requestDelete =>
    p.control (fun _ => canEdit = true ∧ p.editing = false) fun r => p.requestDelete r
  | .cancelDelete => p.control (fun _ => p.confirmingDelete = true) fun _ => p.cancelDelete
  | .confirmDelete =>
    p.control (fun _ => p.confirmingDelete = true ∧ p.busy = false) fun r => p.confirmDelete r

end Page

def detail (canEdit : Bool) : Machine Page PageAction := ⟨Page.step canEdit⟩

/-! ## What the page promises -/

namespace Page

/-- The last request for the id of the route has been answered. -/
def Settled (p : Page) : Prop := p.inFlight = false

instance (p : Page) : Decidable p.Settled := inferInstanceAs (Decidable (_ = _))

/-- A failure form, a draft or a confirmation is open. -/
def Pending (p : Page) : Prop :=
  p.failingIndex ≠ none ∨ p.draft ≠ none ∨ p.confirmingDelete = true

instance (p : Page) : Decidable p.Pending := inferInstanceAs (Decidable (_ ∨ _))

/-- What is shown is the rollout of the route, if any. -/
def OnRoute (p : Page) : Prop := ∀ r ∈ p.rollout, r.id = p.route

instance (p : Page) : Decidable p.OnRoute := inferInstanceAs (Decidable (∀ r ∈ p.rollout, _))

/-- The page does not mix rollouts. -/
structure Consistent (p : Page) : Prop where
  shown : p.Settled → p.OnRoute
  deleted : p.Settled → p.deleted = true → p.route ∈ p.loaded ∧ p.latest = some .notFound
  failing : p.Settled → p.failingIndex ≠ none → p.failingFor = some p.route
  draft : p.Settled → p.draft ≠ none → p.draftFor = some p.route
  deleting : p.Settled → p.confirmingDelete = true → p.deletingFor = some p.route
  sent : ∀ m ∈ p.sent, ∃ id, m.1 = some id ∧ m.2.IsFor id

/-- The steps that go wrong: leaving for another rollout with something open, starting
something on a rollout that is not the one of the route, an error while such a rollout or the
notice of a deleted one is shown, an answer with another rollout or, once one has been loaded,
with none, and sending something for an id that its URL does not carry. -/
def Careful (p : Page) : PageAction → Prop
  | .navigate id => id ≠ p.route → ¬p.Pending
  | .respond (.loaded ro) => ro.id = p.route
  | .respond .empty => p.hadRollout = false
  | .respond .failed => p.OnRoute ∧ p.deleted = false
  | .onFail t =>
    if t.status = "failed" then ∀ r ∈ p.rollout, ApiService.PlainInside r.id else p.OnRoute
  | .toggleDone _ | .saveFailure _ => ∀ r ∈ p.rollout, ApiService.PlainInside r.id
  | .confirmDelete => ∀ r ∈ p.rollout, ApiService.PlainAtEnd r.id
  | .save => ∀ d ∈ p.draft, ApiService.PlainAtEnd d.id
  | .editReason _ | .enterEdit | .requestDelete => p.OnRoute
  | _ => True

instance (p : Page) : (a : PageAction) → Decidable (p.Careful a)
  | .navigate id => inferInstanceAs (Decidable (id ≠ p.route → ¬p.Pending))
  | .respond (.loaded ro) => inferInstanceAs (Decidable (ro.id = p.route))
  | .respond .empty => inferInstanceAs (Decidable (p.hadRollout = false))
  | .respond .failed => inferInstanceAs (Decidable (p.OnRoute ∧ p.deleted = false))
  | .onFail t => inferInstanceAs (Decidable (if t.status = "failed" then _ else _))
  | .toggleDone _ | .saveFailure _ => inferInstanceAs (Decidable (∀ r ∈ p.rollout, _))
  | .confirmDelete => inferInstanceAs (Decidable (∀ r ∈ p.rollout, _))
  | .save => inferInstanceAs (Decidable (∀ d ∈ p.draft, _))
  | .editReason _ | .enterEdit | .requestDelete => inferInstanceAs (Decidable p.OnRoute)
  | .respond .notFound | .tick | .answered .. | .typeReason .. | .cancelFail _ | .cancelEdit
  | .patchDraft _ | .typeNewTask _ | .addDraftTask | .cancelDelete => isTrue trivial

/-- What is open was started on the rollout of the route, and while something is open that
rollout is the one that is shown. -/
structure Inv (p : Page) : Prop where
  shown : p.Settled ∨ p.Pending → p.OnRoute
  deleted : p.hadRollout = true → p.route ∈ p.loaded ∧
    (p.rollout = none → p.latest = some .notFound)
  failing : p.failingIndex ≠ none → p.failingFor = some p.route
  draft : ∀ d ∈ p.draft, d.id = p.route ∧ p.draftFor = some p.route
  deleting : p.confirmingDelete = true → p.deletingFor = some p.route
  sent : ∀ m ∈ p.sent, ∃ id, m.1 = some id ∧ m.2.IsFor id

/-- A page just opened has nothing on it. -/
theorem inv_opened (id : String) : Inv (opened id) where
  shown _ r hr := by cases hr
  deleted h := by cases h
  failing h := absurd rfl h
  draft d hd := by cases hd
  deleting h := by cases h
  sent m hm := by cases hm

variable {p p' : Page}

/-- What the invariant says of the requests and of the page. -/
theorem Inv.consistent (h : Inv p) : Consistent p where
  shown hs := h.shown (Or.inl hs)
  deleted _ hd := by
    unfold Page.deleted at hd
    rw [Bool.and_eq_true, Option.isNone_iff_eq_none] at hd
    obtain ⟨hloaded, hlatest⟩ := h.deleted hd.1
    exact ⟨hloaded, hlatest hd.2⟩
  failing _ := h.failing
  draft _ hd := by
    obtain ⟨d, hd⟩ := Option.ne_none_iff_exists'.mp hd
    exact (h.draft d hd).2
  deleting _ := h.deleting
  sent := h.sent

/-! ## One step -/

/-- Nothing is loaded, and what is open was open before. -/
structure Keeps (p p' : Page) : Prop where
  route : p'.route = p.route
  inFlight : p'.inFlight = false → p.inFlight = false
  rollout : p'.rollout = p.rollout
  hadRollout : p'.hadRollout = p.hadRollout
  loaded : p'.loaded = p.loaded
  latest : p'.latest = p.latest
  failing : p'.failingIndex ≠ none → p.failingIndex ≠ none ∧ p'.failingFor = p.failingFor
  draft : ∀ d' ∈ p'.draft, ∃ d ∈ p.draft, d'.id = d.id ∧ p'.draftFor = p.draftFor
  deleting : p'.confirmingDelete = true → p.confirmingDelete = true ∧ p'.deletingFor = p.deletingFor
  sent : ∀ m ∈ p'.sent, m ∈ p.sent ∨ ∃ id, m.1 = some id ∧ m.2.IsFor id

/-- What is pending afterwards was pending before. -/
theorem Keeps.pending (h : Keeps p p') (hp : p'.Pending) : p.Pending := by
  rcases hp with hp | hp | hp
  · exact Or.inl (h.failing hp).1
  · obtain ⟨d', hd'⟩ := Option.ne_none_iff_exists'.mp hp
    obtain ⟨d, hd, -⟩ := h.draft d' hd'
    exact Or.inr (Or.inl (by rw [Option.mem_def.mp hd]; exact nofun))
  · exact Or.inr (Or.inr (h.deleting hp).1)

/-- A control that takes nothing up keeps the invariant. -/
theorem Inv.keeps (hI : Inv p) (h : Keeps p p') : Inv p' where
  shown hs r hr := by
    rw [h.rollout] at hr
    rw [h.route]
    exact hI.shown (hs.imp h.inFlight h.pending) r hr
  deleted hh := by
    rw [h.hadRollout] at hh
    rw [h.route, h.loaded, h.rollout, h.latest]
    exact hI.deleted hh
  failing hf := by
    obtain ⟨hf, hfor⟩ := h.failing hf
    rw [hfor, h.route]
    exact hI.failing hf
  draft d' hd' := by
    obtain ⟨d, hd, hid, hfor⟩ := h.draft d' hd'
    rw [hid, hfor, h.route]
    exact hI.draft d hd
  deleting hd := by
    obtain ⟨hd, hfor⟩ := h.deleting hd
    rw [hfor, h.route]
    exact hI.deleting hd
  sent m hm := (h.sent m hm).elim (hI.sent m) id

theorem Keeps.refl (p : Page) : Keeps p p where
  route := rfl
  inFlight := id
  rollout := rfl
  hadRollout := rfl
  loaded := rfl
  latest := rfl
  failing h := ⟨h, rfl⟩
  draft d hd := ⟨d, hd, rfl, rfl⟩
  deleting h := ⟨h, rfl⟩
  sent _ := Or.inl

/-- A request for the rollout the page shows may be added to the log. -/
theorem keeps_send {id : String} {m : Mutation} (h : m.IsFor id) : Keeps p (p.send (some id) m) :=
  { Keeps.refl p with
    sent := fun m' hm' => by
      rcases List.mem_append.mp hm' with hm' | hm'
      · exact Or.inl hm'
      · obtain rfl := List.mem_singleton.mp hm'
        exact Or.inr ⟨id, rfl, h⟩ }

/-- Two controls one after the other. -/
theorem Keeps.trans {p'' : Page} (h : Keeps p p') (h' : Keeps p' p'') : Keeps p p'' where
  route := h'.route.trans h.route
  inFlight hs := h.inFlight (h'.inFlight hs)
  rollout := h'.rollout.trans h.rollout
  hadRollout := h'.hadRollout.trans h.hadRollout
  loaded := h'.loaded.trans h.loaded
  latest := h'.latest.trans h.latest
  failing hf := by
    obtain ⟨hf', hfor'⟩ := h'.failing hf
    obtain ⟨hf, hfor⟩ := h.failing hf'
    exact ⟨hf, hfor'.trans hfor⟩
  draft d'' hd'' := by
    obtain ⟨d', hd', hid', hfor'⟩ := h'.draft d'' hd''
    obtain ⟨d, hd, hid, hfor⟩ := h.draft d' hd'
    exact ⟨d, hd, hid'.trans hid, hfor'.trans hfor⟩
  deleting hd := by
    obtain ⟨hd', hfor'⟩ := h'.deleting hd
    obtain ⟨hd, hfor⟩ := h.deleting hd'
    exact ⟨hd, hfor'.trans hfor⟩
  sent m hm := (h'.sent m hm).elim (h.sent m) Or.inr

/-- The clock touches nothing of the rollout. -/
theorem keeps_tick (p : Page) : Keeps p p.tick :=
  { Keeps.refl p with inFlight := fun h => by cases h }

/-- Cancel closes the form. -/
theorem keeps_cancelFail (p : Page) : Keeps p p.cancelFail :=
  { Keeps.refl p with failing := fun h => absurd rfl h }

/-- Leaving the edit mode drops the draft. -/
theorem keeps_closeDraft (p : Page) (text : String) :
    Keeps p { p with editing := false, draft := none, newTaskDraft := text, draftFor := none } :=
  { Keeps.refl p with draft := fun d hd => by cases hd }

/-- Cancel closes the dialog. -/
theorem keeps_cancelDelete (p : Page) : Keeps p p.cancelDelete :=
  { Keeps.refl p with deleting := fun h => by cases h }

/-- The form does not change the id. -/
theorem id_apply (d : Rollout) (e : Edit) : (e.apply d).id = d.id := by
  cases e with
  | addTask text =>
    simp only [Edit.apply]
    split <;> rfl
  | moveTask i dir =>
    simp only [Edit.apply]
    split <;> rfl
  | _ => rfl

/-- An edit stays with the draft it is made in. -/
theorem keeps_patchDraft (p : Page) (e : Edit) (text : String) :
    Keeps p { p.patchDraft e with newTaskDraft := text } :=
  { Keeps.refl p with
    draft := fun d' hd' => by
      obtain ⟨d, hd, rfl⟩ := Option.map_eq_some_iff.mp hd'
      exact ⟨d, hd, id_apply d e, rfl⟩ }

/-- An answer closes what it is about, or sets the error line. -/
theorem keeps_answered (p : Page) (m : Mutation) (ok : Bool) : Keeps p (p.answered m ok) := by
  have hdone : Keeps p { p with busy := false, mutations := p.mutations.erase m } :=
    { Keeps.refl p with }
  have herror : ∀ (p : Page) (text : String), Keeps p { p with actionError := some text } :=
    fun p text => { Keeps.refl p with }
  cases m with
  | updateTask id seq status reason =>
    cases ok with
    | true => exact (hdone.trans (keeps_cancelFail _)).trans (keeps_tick _)
    | false => exact hdone.trans (herror _ _)
  | updateRollout id body =>
    cases ok with
    | true => exact (hdone.trans (keeps_closeDraft _ _)).trans (keeps_tick _)
    | false => exact hdone.trans (herror _ _)
  | deleteRollout id =>
    cases ok with
    | true => exact (hdone.trans (keeps_cancelDelete _)).trans (keeps_tick _)
    | false => exact (hdone.trans (keeps_cancelDelete _)).trans (herror _ _)

/-- A control of the page works where a rollout is shown and the control is there. -/
theorem control_some {enabled : Rollout → Prop} [DecidablePred enabled] {f : Rollout → Page}
    (h : p.control enabled f = some p') : ∃ r, p.rollout = some r ∧ enabled r ∧ p' = f r := by
  obtain ⟨r, hr, hf⟩ := Option.bind_eq_some_iff.mp h
  split at hf
  · next henabled => exact ⟨r, hr, henabled, (Option.some.inj hf).symm⟩
  · cases hf

/-! ### Starting something -/

/-- The form belongs to the rollout on the page. -/
theorem inv_startFailing (hI : Inv p) (hon : p.OnRoute) {r : Rollout} (hr : p.rollout = some r)
    (t : RolloutTask) : Inv (p.startFailing r t) :=
  { hI with
    shown := fun _ => hon
    failing := fun _ => congrArg some (hon r hr) }

/-- So does the draft. -/
theorem inv_enterEdit (hI : Inv p) (hon : p.OnRoute) {r : Rollout} (hr : p.rollout = some r) :
    Inv (p.enterEdit r) :=
  { hI with
    shown := fun _ => hon
    draft := fun d hd => by
      obtain rfl := Option.some.inj hd
      exact ⟨hon r hr, congrArg some (hon r hr)⟩ }

/-- So does the dialog. -/
theorem inv_requestDelete (hI : Inv p) (hon : p.OnRoute) {r : Rollout} (hr : p.rollout = some r) :
    Inv (p.requestDelete r) :=
  { hI with
    shown := fun _ => hon
    deleting := fun _ => congrArg some (hon r hr) }

/-! ### Sending what was started -/

/-- **The ids whose URLs carry them**, in each kind of request. -/
theorem isFor_updateTask_iff (id : String) (seq : Nat) (status reason : String) :
    (Mutation.updateTask id seq status reason).IsFor id ↔ ApiService.PlainInside id :=
  ApiService.reaches_updateTask_iff id seq

/-- The PATCH of a draft is for the rollout whose id its URL carries. -/
theorem isFor_updateRollout_iff (id : String) (body : Rollout) :
    (Mutation.updateRollout id body).IsFor id ↔ ApiService.PlainAtEnd id :=
  ApiService.reaches_entry_iff (by decide) id

/-- So is the DELETE. -/
theorem isFor_deleteRollout_iff (id : String) :
    (Mutation.deleteRollout id).IsFor id ↔ ApiService.PlainAtEnd id :=
  ApiService.reaches_entry_iff (by decide) id

/-- What is open concerns the rollout that is shown. -/
theorem keeps_saveFailure (hI : Inv p) {r : Rollout} (hr : p.rollout = some r) {t : RolloutTask}
    (hopen : p.failingIndex = some t.index) (hplain : ApiService.PlainInside r.id) :
    Keeps p (p.saveFailure r t) := by
  have hpending : p.failingIndex ≠ none := by
    rw [hopen]
    exact nofun
  have hid : r.id = p.route := hI.shown (Or.inr (Or.inl hpending)) r hr
  unfold saveFailure
  split
  · exact Keeps.refl p
  · rw [hI.failing hpending, ← hid]
    exact keeps_send ((isFor_updateTask_iff r.id _ _ _).mpr hplain)

/-- Save sends the draft to the rollout it was made from. -/
theorem keeps_save (hI : Inv p) (hplain : ∀ d ∈ p.draft, ApiService.PlainAtEnd d.id) :
    Keeps p p.save := by
  unfold save
  split
  · exact Keeps.refl p
  · next d hd =>
    obtain ⟨hid, hfor⟩ := hI.draft d hd
    rw [hfor, ← hid]
    exact keeps_send ((isFor_updateRollout_iff d.id _).mpr (hplain d hd))

/-- The dialog deletes the rollout it was opened for. -/
theorem keeps_confirmDelete (hI : Inv p) {r : Rollout} (hr : p.rollout = some r)
    (hopen : p.confirmingDelete = true) (hplain : ApiService.PlainAtEnd r.id) :
    Keeps p (p.confirmDelete r) := by
  have hid : r.id = p.route := hI.shown (Or.inr (Or.inr (Or.inr hopen))) r hr
  unfold confirmDelete
  rw [hI.deleting hopen, ← hid]
  exact keeps_send ((isFor_deleteRollout_iff r.id).mpr hplain)

/-! ### Navigation and answers -/

/-- A navigation with nothing open leaves nothing of the old rollout. -/
theorem inv_navigate (hI : Inv p) {id : String} (hc : p.Careful (.navigate id)) :
    Inv (p.navigate id) := by
  unfold navigate
  split
  · exact hI
  · next hne =>
    -- nothing is open, and nothing is settled
    have hclosed := hc hne
    refine ⟨fun hs => ?_, nofun, fun hf => ?_, fun d hd => ?_, fun hd => ?_, hI.sent⟩
    · rcases hs with hs | hs
      · cases hs
      · exact absurd hs hclosed
    · exact absurd (Or.inl hf) hclosed
    · exact absurd (Or.inr (Or.inl (by rw [show p.draft = some d from hd]; exact nofun))) hclosed
    · exact absurd (Or.inr (Or.inr hd)) hclosed

/-- An answer of the page that asked for it puts its rollout on the page. -/
theorem inv_respond (hI : Inv p) {res : Response} (hc : p.Careful (.respond res)) :
    Inv (p.respond res) := by
  cases res with
  | loaded ro =>
    refine { hI with shown := fun _ r hr => ?_, deleted := fun _ => ⟨List.mem_cons_self, nofun⟩ }
    obtain rfl := Option.some.inj hr
    exact hc
  | empty =>
    refine { hI with shown := fun _ r hr => (by cases hr), deleted := fun h => ?_ }
    -- nothing had been loaded
    have hnever : p.hadRollout = false := hc
    rw [show p.hadRollout = true from h] at hnever
    cases hnever
  | notFound =>
    exact { hI with
      shown := fun _ r hr => by cases hr
      deleted := fun h => ⟨(hI.deleted h).1, fun _ => rfl⟩ }
  | failed =>
    obtain ⟨hon, hshown⟩ := hc
    refine { hI with shown := fun _ => hon, deleted := fun h =>
      ⟨(hI.deleted h).1, fun hnone => ?_⟩ }
    -- the notice of a deleted rollout is not shown
    have hgone : p.deleted = true := by
      unfold Page.deleted
      rw [show p.hadRollout = true from h, show p.rollout = none from hnone]
      rfl
    rw [hshown] at hgone
    cases hgone

/-- A careful step keeps the invariant. -/
theorem inv_step {canEdit : Bool} {a : PageAction} (hI : Inv p) (hc : p.Careful a)
    (h : p.step canEdit a = some p') : Inv p' := by
  cases a with
  | navigate id =>
    obtain rfl := Option.some.inj h
    exact inv_navigate hI hc
  | tick =>
    obtain rfl := Option.some.inj h
    exact hI.keeps (keeps_tick p)
  | respond res =>
    obtain ⟨-, hp'⟩ := Option.ite_none_right_eq_some.mp h
    obtain rfl := Option.some.inj hp'
    exact inv_respond hI hc
  | answered m ok =>
    obtain ⟨-, hp'⟩ := Option.ite_none_right_eq_some.mp h
    obtain rfl := Option.some.inj hp'
    exact hI.keeps (keeps_answered p m ok)
  | toggleDone t =>
    obtain ⟨r, hr, -, rfl⟩ := control_some h
    exact hI.keeps (keeps_send ((isFor_updateTask_iff r.id _ _ _).mpr (hc r hr)))
  | onFail t =>
    obtain ⟨r, hr, -, rfl⟩ := control_some h
    unfold onFail
    change if t.status = "failed" then _ else _ at hc
    split
    · next hfailed =>
      rw [if_pos hfailed] at hc
      exact hI.keeps (keeps_send ((isFor_updateTask_iff r.id _ _ _).mpr (hc r hr)))
    · next hne =>
      rw [if_neg hne] at hc
      exact inv_startFailing hI hc hr t
  | editReason t =>
    obtain ⟨r, hr, -, rfl⟩ := control_some h
    exact inv_startFailing hI hc hr t
  | typeReason t v =>
    obtain ⟨r, hr, -, rfl⟩ := control_some h
    exact hI.keeps { Keeps.refl p with }
  | saveFailure t =>
    obtain ⟨r, hr, ⟨-, hopen, -⟩, rfl⟩ := control_some h
    exact hI.keeps (keeps_saveFailure hI hr hopen (hc r hr))
  | cancelFail t =>
    obtain ⟨r, hr, -, rfl⟩ := control_some h
    exact hI.keeps (keeps_cancelFail p)
  | enterEdit =>
    obtain ⟨r, hr, -, rfl⟩ := control_some h
    exact inv_enterEdit hI hc hr
  | cancelEdit =>
    obtain ⟨r, hr, -, rfl⟩ := control_some h
    exact hI.keeps (keeps_closeDraft p "")
  | patchDraft e =>
    obtain ⟨r, hr, -, rfl⟩ := control_some h
    exact hI.keeps (keeps_patchDraft p e p.newTaskDraft)
  | typeNewTask v =>
    obtain ⟨r, hr, -, rfl⟩ := control_some h
    exact hI.keeps { Keeps.refl p with }
  | addDraftTask =>
    obtain ⟨r, hr, -, rfl⟩ := control_some h
    unfold addDraftTask
    split
    · exact hI
    · exact hI.keeps (keeps_patchDraft p _ "")
  | save =>
    obtain ⟨r, hr, -, rfl⟩ := control_some h
    exact hI.keeps (keeps_save hI hc)
  | requestDelete =>
    obtain ⟨r, hr, -, rfl⟩ := control_some h
    exact inv_requestDelete hI hc hr
  | cancelDelete =>
    obtain ⟨r, hr, -, rfl⟩ := control_some h
    exact hI.keeps (keeps_cancelDelete p)
  | confirmDelete =>
    obtain ⟨r, hr, ⟨hopen, -⟩, rfl⟩ := control_some h
    exact hI.keeps (keeps_confirmDelete hI hr hopen (hc r hr))

/-! ## Runs -/

/-- **The page never mixes rollouts** in a run of careful steps, whatever is answered and in
whatever order. -/
theorem never_mixes {canEdit : Bool} {id : String} {run : List PageAction} {p : Page}
    (hcareful : (detail canEdit).Along Careful (opened id) run)
    (h : (detail canEdit).exec (opened id) run = some p) : Consistent p := by
  have hI : Inv p := (detail canEdit).exec_invariant_along
    (fun _ _ _ hI hc hs => inv_step hI hc hs) (inv_opened id) hcareful h
  exact hI.consistent

/-! ## The steps that are left out -/

/-- Something is open that was started on another rollout. -/
def Stray (p : Page) : Prop :=
  (p.failingIndex ≠ none ∧ p.failingFor ≠ some p.route) ∨
    (p.draft ≠ none ∧ p.draftFor ≠ some p.route) ∨
      (p.confirmingDelete = true ∧ p.deletingFor ≠ some p.route)

/-- It is still open when the request has been answered. -/
theorem stray_mixes {canEdit : Bool} (hflight : p.inFlight = true) (h : p.Stray) :
    ∃ p', p.step canEdit (.respond .notFound) = some p' ∧ ¬Consistent p' := by
  refine ⟨p.respond .notFound, if_pos hflight, fun hc => ?_⟩
  rcases h with ⟨hopen, hfor⟩ | ⟨hopen, hfor⟩ | ⟨hopen, hfor⟩
  · exact hfor (hc.failing rfl hopen)
  · exact hfor (hc.draft rfl hopen)
  · exact hfor (hc.deleting rfl hopen)

/-- What was started on a rollout is sent for another one. -/
theorem astray_mixes {id : String} {m : Mutation} (h : ¬m.IsFor id) :
    ¬Consistent (p.send (some id) m) := by
  intro hc
  obtain ⟨id', hid, hfor⟩ := hc.sent (some id, m) (List.mem_append_right _ List.mem_cons_self)
  obtain rfl := Option.some.inj hid
  exact h hfor

/-- A task update is sent for another rollout where its URL does not carry the id. -/
theorem updateTask_mixes {r : Rollout} (hr : p.rollout = some r)
    (hc : ¬∀ r ∈ p.rollout, ApiService.PlainInside r.id) (seq : Nat) (status reason : String) :
    ¬Consistent (p.send (some r.id) (.updateTask r.id seq status reason)) := by
  refine astray_mixes fun hfor => hc fun r' hr' => ?_
  obtain rfl := Option.some.inj (hr.symm.trans hr')
  exact (isFor_updateTask_iff r.id seq status reason).mp hfor

/-- Off the route, the request for the rollout of the route is in flight. -/
theorem Inv.offRoute (hI : Inv p) (hoff : ¬p.OnRoute) {r : Rollout} (hr : p.rollout = some r) :
    p.inFlight = true ∧ some r.id ≠ some p.route := by
  constructor
  · by_contra hflight
    exact hoff (hI.shown (Or.inl (Bool.eq_false_iff.mpr hflight)))
  · intro he
    refine hoff fun r' hr' => ?_
    obtain rfl := Option.some.inj (hr.symm.trans hr')
    exact Option.some.inj he

/-- **Every step that is left out leads to a page that mixes**, at once or with the next
answer. -/
theorem careless_mixes {canEdit : Bool} {a : PageAction} (hI : Inv p) (hc : ¬p.Careful a)
    (h : p.step canEdit a = some p') : ¬Consistent p' ∨
      ∃ p'', p'.step canEdit (.respond .notFound) = some p'' ∧ ¬Consistent p'' := by
  cases a with
  | navigate id =>
    obtain ⟨hne, hopen⟩ := Classical.not_imp.mp hc
    obtain rfl := Option.some.inj h
    have hroute : some p.route ≠ some id := fun he => hne (Option.some.inj he).symm
    unfold navigate
    rw [if_neg hne]
    refine Or.inr (stray_mixes rfl ?_)
    rcases Classical.not_not.mp hopen with hf | hd | hd
    · refine Or.inl ⟨hf, ?_⟩
      rw [show ({ p with route := id } : Page).failingFor = some p.route from hI.failing hf]
      exact hroute
    · obtain ⟨d, hd'⟩ := Option.ne_none_iff_exists'.mp hd
      refine Or.inr (Or.inl ⟨hd, ?_⟩)
      rw [show ({ p with route := id } : Page).draftFor = some p.route from (hI.draft d hd').2]
      exact hroute
    · refine Or.inr (Or.inr ⟨hd, ?_⟩)
      rw [show ({ p with route := id } : Page).deletingFor = some p.route from hI.deleting hd]
      exact hroute
  | respond res =>
    obtain ⟨-, hp'⟩ := Option.ite_none_right_eq_some.mp h
    obtain rfl := Option.some.inj hp'
    refine Or.inl fun hcons => ?_
    cases res with
    | loaded ro => exact hc (hcons.shown rfl ro rfl)
    | notFound => exact hc trivial
    | empty =>
      have hgone : (p.respond .empty).deleted = true := by
        show (p.hadRollout && true) = true
        rw [Bool.and_true]
        exact Bool.not_eq_false _ ▸ hc
      have hlatest := (hcons.deleted rfl hgone).2
      cases hlatest
    | failed =>
      refine hc ⟨hcons.shown rfl, ?_⟩
      by_contra hgone
      have hlatest := (hcons.deleted rfl (Bool.not_eq_false _ ▸ hgone)).2
      cases hlatest
  | toggleDone t =>
    obtain ⟨r, hr, -, rfl⟩ := control_some h
    exact Or.inl (updateTask_mixes hr hc _ _ _)
  | onFail t =>
    obtain ⟨r, hr, -, rfl⟩ := control_some h
    unfold onFail
    change ¬(if t.status = "failed" then _ else _) at hc
    split
    · next hfailed =>
      rw [if_pos hfailed] at hc
      exact Or.inl (updateTask_mixes hr hc _ _ _)
    · next hstatus =>
      rw [if_neg hstatus] at hc
      obtain ⟨hflight, hne⟩ := hI.offRoute hc hr
      exact Or.inr (stray_mixes hflight (Or.inl ⟨nofun, hne⟩))
  | saveFailure t =>
    obtain ⟨r, hr, ⟨-, hopen, hreason, -⟩, rfl⟩ := control_some h
    have hpending : p.failingIndex ≠ none := by
      rw [hopen]
      exact nofun
    have hid : r.id = p.route := hI.shown (Or.inr (Or.inl hpending)) r hr
    unfold saveFailure
    rw [if_neg hreason, hI.failing hpending, ← hid]
    exact Or.inl (updateTask_mixes hr hc _ _ _)
  | save =>
    obtain ⟨r, hr, -, rfl⟩ := control_some h
    obtain ⟨d, hd, hplain⟩ : ∃ d, p.draft = some d ∧ ¬ApiService.PlainAtEnd d.id := by
      by_contra hnone
      exact hc fun d hd => Classical.not_not.mp fun hplain => hnone ⟨d, hd, hplain⟩
    obtain ⟨hid, hfor⟩ := hI.draft d hd
    unfold save
    rw [hd]
    dsimp only
    rw [hfor, ← hid]
    exact Or.inl (astray_mixes fun hfor => hplain ((isFor_updateRollout_iff d.id _).mp hfor))
  | confirmDelete =>
    obtain ⟨r, hr, ⟨hopen, -⟩, rfl⟩ := control_some h
    have hid : r.id = p.route := hI.shown (Or.inr (Or.inr (Or.inr hopen))) r hr
    unfold confirmDelete
    rw [hI.deleting hopen, ← hid]
    refine Or.inl (astray_mixes fun hfor => hc fun r' hr' => ?_)
    obtain rfl := Option.some.inj (hr.symm.trans hr')
    exact (isFor_deleteRollout_iff r.id).mp hfor
  | editReason t =>
    obtain ⟨r, hr, -, rfl⟩ := control_some h
    obtain ⟨hflight, hne⟩ := hI.offRoute hc hr
    exact Or.inr (stray_mixes hflight (Or.inl ⟨nofun, hne⟩))
  | enterEdit =>
    obtain ⟨r, hr, -, rfl⟩ := control_some h
    obtain ⟨hflight, hne⟩ := hI.offRoute hc hr
    exact Or.inr (stray_mixes hflight (Or.inr (Or.inl ⟨nofun, hne⟩)))
  | requestDelete =>
    obtain ⟨r, hr, -, rfl⟩ := control_some h
    obtain ⟨hflight, hne⟩ := hI.offRoute hc hr
    exact Or.inr (stray_mixes hflight (Or.inr (Or.inr ⟨rfl, hne⟩)))
  | _ => exact absurd trivial hc

/-! ## Two rollouts -/

private def check : RolloutTask := ⟨0, "Check", "", "", "", none⟩

private def detailOf (id : String) : Rollout :=
  { id := id, productId := "p1", typeId := "t1", title := "Rollout", descExt := "", descInt := ""
    risks := "", stages := some [], pair := some [], tasks := some [check], createdAt := 0
    updatedAt := 0, createdBy := "" }

/-- A failure is recorded on the first rollout and a draft saved. The second one is deleted while
it is shown. -/
private def carefulRun : List PageAction :=
  [.respond (.loaded (detailOf "r1")), .onFail check, .typeReason check "broken",
    .saveFailure check, .answered (.updateTask "r1" 0 "failed" "broken") true,
    .respond .failed, .enterEdit, .patchDraft (.title "New"), .tick,
    .respond (.loaded (detailOf "r1")), .save,
    .answered (.updateRollout "r1" (saveBody { detailOf "r1" with title := "New" })) true,
    .navigate "r2", .tick, .respond (.loaded (detailOf "r2")), .requestDelete, .cancelDelete,
    .tick, .respond .notFound]

theorem never_mixes_twoRollouts : ∃ p, (detail true).exec (opened "r1") carefulRun = some p ∧
    p.deleted = true ∧ p.sent.length = 2 ∧ Consistent p := by
  have hrun : ∃ p, (detail true).exec (opened "r1") carefulRun = some p ∧
      p.deleted = true ∧ p.sent.length = 2 := by decide
  obtain ⟨p, hp, hdeleted, hsent⟩ := hrun
  exact ⟨p, hp, hdeleted, hsent, never_mixes (by decide) hp⟩

/-- The failure form of the first rollout is still open on the second one, and what it records
is sent for that one. -/
private def leftOpen : List PageAction :=
  [.respond (.loaded (detailOf "r1")), .onFail check, .typeReason check "broken", .navigate "r2",
    .respond (.loaded (detailOf "r2")), .saveFailure check]

/-- An error, and the page of the second rollout shows the first one. -/
private def errorOnTheWay : List PageAction :=
  [.respond (.loaded (detailOf "r1")), .navigate "r2", .respond .failed]

theorem left_open_mixes :
    (∃ p, (detail true).exec (opened "r1") leftOpen = some p ∧ p.Settled ∧ p.route = "r2" ∧
      p.failingFor = some "r1" ∧ p.sent = [(some "r1", .updateTask "r2" 0 "failed" "broken")]) ∧
    (∃ p, (detail true).exec (opened "r1") errorOnTheWay = some p ∧ p.Settled ∧ ¬p.OnRoute) ∧
    ¬∀ (canEdit : Bool) (id : String) (run : List PageAction) (p : Page),
      (detail canEdit).exec (opened id) run = some p → Consistent p := by
  have hopen : ∃ p, (detail true).exec (opened "r1") leftOpen = some p ∧ p.Settled ∧
      p.route = "r2" ∧ p.failingFor = some "r1" ∧
      p.sent = [(some "r1", .updateTask "r2" 0 "failed" "broken")] := by decide
  refine ⟨hopen, by decide, fun h => ?_⟩
  obtain ⟨p, hp, -, -, -, hsent⟩ := hopen
  obtain ⟨id, hid, hfor⟩ := (h true "r1" leftOpen p hp).sent
    (some "r1", .updateTask "r2" 0 "failed" "broken") (hsent ▸ List.mem_cons_self)
  obtain rfl := Option.some.inj hid
  exact absurd hfor (by decide)

end Page

end ReleaseRadar.Frontend
