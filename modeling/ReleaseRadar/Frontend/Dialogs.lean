import ReleaseRadar.Frontend.LockForm
import ReleaseRadar.Lib.Machine

/-!
# The dialogs of the page

`dialog.store.ts` says which dialog is open, the shell shows it, and the two forms send their
requests. An answer comes whenever it comes, to a form that may be gone by then: an error is shown
in the form it is for, a success closes the dialog, whichever is open.

A dialog is known by its number here: opening the kind that is shown keeps it, anything else shown
is a new one. A form whose `submit` threw waits for an answer that never comes.

* `submitted_once`: of one dialog there is never more than one request on its way, and never more
  than one success;
* `attended_iff`: which runs keep every request on its way to the dialog that is shown, so that a
  success closes the dialog that sent it and no other.
-/

namespace ReleaseRadar.Frontend.Dialogs

open Lib JsDate CreateForm

/-! ## The create form as the page has it -/

/-- The form and the ids of the loaded products. -/
structure CreateDialog where
  form : CreateForm.Form
  products : List String

namespace CreateDialog

/-- `new Date()` of tomorrow, cut to the day; `toISOString` throws where that is no date. -/
def defaultDate (env : Browser) : Option String :=
  (env.zone.addDays env.now 1).map fun d => String.ofList ((toISOString d.val).take 10)

/-- Nothing is loaded yet. -/
def opened (env : Browser) : Option CreateDialog :=
  (defaultDate env).map fun startDate =>
    ⟨⟨[], "", "", "", startDate, "10:00", .ofInt 2, "", "", "", "", false, none⟩, []⟩

/-- The effects of the constructor: what is not chosen is the first that is loaded. -/
def effects (d : CreateDialog) : CreateDialog :=
  { d with
    form :=
      { d.form with
        productId := if d.form.productId = "" then d.products.headD "" else d.form.productId
        typeId :=
          if d.form.typeId = "" then (d.form.types.map (·.id)).headD "" else d.form.typeId } }

/-- What the fields of the form do, and the lists it loads. -/
inductive Edit
  | products (ids : List String)
  | types (ts : List CreateForm.RolloutType)
  | productId (v : String)
  | typeId (v : String)
  | title (v : String)
  | startDate (v : String)
  | startTime (v : String)
  | durationHours (v : Double)
  | descExt (v : String)
  | descInt (v : String)
  | risks (v : String)
  | pairText (v : String)

def Edit.apply (d : CreateDialog) (e : Edit) : CreateDialog :=
  effects <| match e with
    | products ids => { d with products := ids }
    | types ts => { d with form := { d.form with types := ts } }
    | productId v => { d with form := { d.form with productId := v } }
    | typeId v => { d with form := { d.form with typeId := v } }
    | title v => { d with form := { d.form with title := v } }
    | startDate v => { d with form := { d.form with startDate := v } }
    | startTime v => { d with form := { d.form with startTime := v } }
    | durationHours v => { d with form := { d.form with durationHours := v } }
    | descExt v => { d with form := { d.form with descExt := v } }
    | descInt v => { d with form := { d.form with descInt := v } }
    | risks v => { d with form := { d.form with risks := v } }
    | pairText v => { d with form := { d.form with pairText := v } }

end CreateDialog

/-! ## Dialogs and requests -/

inductive Dialog
  | rollout (d : CreateDialog)
  | lock (form : LockForm.Form)

inductive Message
  | createRollout (body : CreateBody)
  | createLock (body : LockForm.LockBody)
  | updateLock (id : String) (body : LockForm.LockBody)

inductive Outcome
  | ignored
  | thrown
  | sent (m : Message)

def Outcome.ofCreate : CreateForm.Submission → Outcome
  | .ignored => ignored
  | .thrown => thrown
  | .sent body => sent (.createRollout body)

def Outcome.ofLock : LockForm.Submission → Outcome
  | .ignored => ignored
  | .thrown => thrown
  | .create body => sent (.createLock body)
  | .update id body => sent (.updateLock id body)

/-- The error of a request, as `extractError` sees it: the answer when it is a text, and the
message. -/
structure Failure where
  error : Option String
  message : Option String

def extractError (e : Failure) : String :=
  match e.error.filter fun s => decide (trim s.toList ≠ "") with
  | some s => trim s.toList
  | none => e.message.getD "Unexpected error"

namespace Dialog

def submitting : Dialog → Bool
  | rollout d => d.form.submitting
  | lock form => form.submitting

def submit (env : Browser) : Dialog → Dialog × Outcome
  | rollout d =>
    let res := CreateForm.submit env d.form
    (rollout { d with form := res.1 }, .ofCreate res.2)
  | lock form =>
    let res := LockForm.submit env form
    (lock res.1, .ofLock res.2)

/-- `submitting.set(false)` and `error.set(..)`. -/
def failed (e : Failure) : Dialog → Dialog
  | rollout d =>
    rollout { d with form := { d.form with submitting := false, error := some (extractError e) } }
  | lock form => lock { form with submitting := false, error := some (extractError e) }

end Dialog

/-! ## The page -/

/-- A request on its way, and the dialog that sent it. -/
structure Flight where
  dialog : Nat
  message : Message

structure Page where
  shown : Option (Nat × Dialog)
  opened : Nat
  inFlight : List Flight
  /-- what has been answered with a success -/
  answered : List Flight
  /-- the dialogs whose `submit` threw -/
  thrown : List Nat

inductive Event
  | openRollout (now : TimeValue)
  | openLock (now : TimeValue) (lock : Option LockForm.PageLock)
  | close
  | editRollout (e : CreateDialog.Edit)
  | editLock (e : LockForm.Edit)
  | submit
  | succeed (i : Nat)
  | fail (i : Nat) (e : Failure)

namespace Page

def start : Page := ⟨none, 0, [], [], []⟩

/-- A new dialog. -/
def present (p : Page) (d : Dialog) : Page :=
  { p with shown := some (p.opened, d), opened := p.opened + 1 }

/-- A new rollout dialog; on the last of all dates its constructor throws, and none is shown. -/
def presentRollout (p : Page) : Option CreateDialog → Page
  | some d => p.present (.rollout d)
  | none => { p with shown := none }

/-- What a submission of the dialog that is shown leaves. -/
def submitted (p : Page) (n : Nat) : Dialog × Outcome → Page
  | (d, .ignored) => { p with shown := some (n, d) }
  | (d, .thrown) => { p with shown := some (n, d), thrown := n :: p.thrown }
  | (d, .sent m) => { p with shown := some (n, d), inFlight := p.inFlight ++ [⟨n, m⟩] }

end Page

def step (env : Browser) (p : Page) : Event → Option Page
  | .openRollout now =>
    match p.shown with
    | some (_, .rollout _) => some p
    | _ => some (p.presentRollout (CreateDialog.opened { env with now := now }))
  | .openLock now lock =>
    -- the form has read `lockEdit` when it was made
    match p.shown with
    | some (_, .lock _) => some p
    | _ => some (p.present (.lock (LockForm.opened { env with now := now } lock)))
  | .close => some { p with shown := none }
  | .editRollout e =>
    match p.shown with
    | some (n, .rollout d) => some { p with shown := some (n, .rollout (e.apply d)) }
    | _ => none
  | .editLock e =>
    match p.shown with
    | some (n, .lock form) => some { p with shown := some (n, .lock (e.apply form)) }
    | _ => none
  | .submit => p.shown.map fun (n, d) => p.submitted n (d.submit env)
  | .succeed i =>
    p.inFlight[i]?.map fun f =>
      { p with shown := none, inFlight := p.inFlight.eraseIdx i, answered := p.answered ++ [f] }
  | .fail i e =>
    p.inFlight[i]?.map fun f =>
      { p with
        shown := p.shown.map fun (n, d) => (n, if n = f.dialog then d.failed e else d)
        inFlight := p.inFlight.eraseIdx i }

/-- The page, its user and its server. -/
def dialogs (env : Browser) : Machine Page Event := ⟨step env⟩

/-! ## What a submission does -/

/-- A body with all that `canSubmit` asks for, and stages with their dates. -/
structure CompleteRollout (b : CreateBody) : Prop where
  product : b.product ≠ ""
  typeId : b.typeId ≠ ""
  title : b.title ≠ ""
  stages : b.stages ≠ []
  starts : ∀ st ∈ b.stages, ∃ t : TimeValue, st.startAt = toISOString t.val

structure CompleteLock (b : LockForm.LockBody) : Prop where
  title : b.title ≠ ""
  products : b.products ≠ []
  start : ∃ t : TimeValue, b.startAt = toISOString t.val
  end_ : ∃ t : TimeValue, b.endAt = toISOString t.val

def Message.Complete : Message → Prop
  | createRollout b => CompleteRollout b
  | createLock b => CompleteLock b
  | updateLock id b => id ≠ "" ∧ CompleteLock b

/-- What has a length is not empty. -/
theorem ne_empty_of_length {s : String} (h : 0 < s.length) : s ≠ "" := by
  rintro rfl
  exact absurd h (by decide)

/-- The create dialog sends a complete rollout or nothing. -/
theorem create_submit (env : Browser) (form : CreateForm.Form) :
    CreateForm.submit env form = (form, .ignored) ∨
      form.submitting = false ∧ (CreateForm.submit env form).1.submitting = true ∧
        ((CreateForm.submit env form).2 = .thrown ∨
          ∃ b, CompleteRollout b ∧ (CreateForm.submit env form).2 = .sent b) := by
  by_cases hcan : CreateForm.canSubmit form
  · right
    have hfilled := hcan
    simp only [CreateForm.canSubmit, Bool.and_eq_true, Bool.not_eq_true',
      decide_eq_true_eq] at hfilled
    obtain ⟨⟨⟨hproduct, htype⟩, htitle⟩, hidle⟩ := hfilled
    unfold CreateForm.submit
    rw [if_pos hcan]
    refine ⟨hidle, rfl, ?_⟩
    dsimp only
    cases hpreview : CreateForm.preview env form with
    | none => exact .inl rfl
    | some stages =>
      obtain ⟨hne, hstages⟩ := preview_stages hpreview
      refine .inr ⟨_, ?_, rfl⟩
      exact ⟨hproduct, htype, ne_empty_of_length htitle, hne, fun st hst => (hstages st hst).1⟩
  · left
    unfold CreateForm.submit
    exact if_neg hcan

/-- The lock form sends complete locks. -/
theorem complete_bodyOf {form : LockForm.Form} (h : LockForm.canSubmit form)
    (start end_ : TimeValue) : CompleteLock (LockForm.bodyOf form start end_) := by
  simp only [LockForm.canSubmit, Bool.and_eq_true, decide_eq_true_eq] at h
  obtain ⟨⟨⟨⟨htitle, -⟩, -⟩, hproducts⟩, -⟩ := h
  exact ⟨ne_empty_of_length htitle, List.ne_nil_of_length_pos hproducts, ⟨start, rfl⟩, ⟨end_, rfl⟩⟩

/-- The lock dialog sends a complete lock or nothing. -/
theorem lock_submit (env : Browser) (form : LockForm.Form) :
    LockForm.submit env form = (form, .ignored) ∨
      form.submitting = false ∧ (LockForm.submit env form).1.submitting = true ∧
        ((LockForm.submit env form).2 = .thrown ∨
          ∃ b, CompleteLock b ∧ ((LockForm.submit env form).2 = .create b ∨
            ∃ id, id ≠ "" ∧ (LockForm.submit env form).2 = .update id b)) := by
  by_cases hcan : LockForm.canSubmit form
  · right
    have hidle : form.submitting = false := by
      simp only [LockForm.canSubmit, Bool.and_eq_true, Bool.not_eq_true'] at hcan
      exact hcan.2
    unfold LockForm.submit
    rw [if_pos hcan]
    refine ⟨hidle, rfl, ?_⟩
    dsimp only
    split
    · next start end_ _ _ =>
      refine .inr ⟨_, complete_bodyOf hcan start end_, ?_⟩
      split
      · next id _ =>
        by_cases hid : id ≠ ""
        · exact .inr ⟨id, hid, if_pos hid⟩
        · exact .inl (if_neg hid)
      · exact .inl rfl
    · exact .inl rfl
  · left
    unfold LockForm.submit
    exact if_neg hcan

/-- **A submission** is ignored, or the form was not submitting, is so now, and has thrown or sent
one request, a complete one. -/
theorem submit_cases (env : Browser) (d : Dialog) :
    d.submit env = (d, .ignored) ∨ d.submitting = false ∧ ∃ d', d'.submitting = true ∧
      (d.submit env = (d', .thrown) ∨
        ∃ m : Message, m.Complete ∧ d.submit env = (d', .sent m)) := by
  cases d with
  | rollout d =>
    rcases create_submit env d.form with h | ⟨hidle, hbusy, hsent⟩
    · left
      simp only [Dialog.submit, h, Outcome.ofCreate]
    · refine .inr ⟨hidle, .rollout { d with form := (CreateForm.submit env d.form).1 }, hbusy, ?_⟩
      simp only [Dialog.submit]
      rcases hsent with hsent | ⟨b, hcomplete, hsent⟩
      · exact .inl (by rw [hsent, Outcome.ofCreate])
      · exact .inr ⟨.createRollout b, hcomplete, by rw [hsent, Outcome.ofCreate]⟩
  | lock form =>
    rcases lock_submit env form with h | ⟨hidle, hbusy, hsent⟩
    · left
      simp only [Dialog.submit, h, Outcome.ofLock]
    · refine .inr ⟨hidle, .lock (LockForm.submit env form).1, hbusy, ?_⟩
      simp only [Dialog.submit]
      rcases hsent with hsent | ⟨b, hcomplete, hsent | ⟨id, hid, hsent⟩⟩
      · exact .inl (by rw [hsent, Outcome.ofLock])
      · exact .inr ⟨.createLock b, hcomplete, by rw [hsent, Outcome.ofLock]⟩
      · exact .inr ⟨.updateLock id b, ⟨hid, hcomplete⟩, by rw [hsent, Outcome.ofLock]⟩

/-! ## One request at a time -/

/-- The dialogs that have a request on its way. -/
def Page.waiting (p : Page) : List Nat := p.inFlight.map (·.dialog)

/-- The dialogs that have had a success. -/
def Page.succeeded (p : Page) : List Nat := p.answered.map (·.dialog)

/-- The dialog that is shown has had no success, and is submitting while it waits: for an answer,
or for nothing after an exception. -/
structure Shown (p : Page) (n : Nat) (d : Dialog) : Prop where
  old : n < p.opened
  unanswered : n ∉ p.succeeded
  submitting : d.submitting = true ↔ n ∈ p.waiting ∨ n ∈ p.thrown

structure Consistent (p : Page) : Prop where
  old : ∀ n, n ∈ p.waiting ∨ n ∈ p.succeeded ∨ n ∈ p.thrown → n < p.opened
  once : (p.waiting ++ p.succeeded).Nodup
  idle : ∀ n ∈ p.thrown, n ∉ p.waiting
  complete : ∀ f ∈ p.inFlight ++ p.answered, f.message.Complete
  shown : ∀ n d, p.shown = some (n, d) → Shown p n d

/-- A page without a dialog is consistent. -/
theorem consistent_start : Consistent Page.start where
  old _ h := by
    rcases h with h | h | h <;> exact absurd h List.not_mem_nil
  once := List.nodup_nil
  idle _ h := absurd h List.not_mem_nil
  complete _ h := absurd h List.not_mem_nil
  shown _ _ h := by cases h

variable {p p' : Page} {env : Browser}

/-- A dialog that is presented has not submitted anything. -/
theorem consistent_present (h : Consistent p) {d : Dialog} (hd : d.submitting = false) :
    Consistent (p.present d) := by
  refine ⟨fun n hn => Nat.lt_succ_of_lt (h.old n hn), h.once, h.idle, h.complete,
    fun n d' hshown => ?_⟩
  obtain ⟨rfl, rfl⟩ := Prod.mk.inj (Option.some.inj hshown)
  have hnew : ¬(p.opened ∈ p.waiting ∨ p.opened ∈ p.succeeded ∨ p.opened ∈ p.thrown) := fun hn =>
    Nat.lt_irrefl _ (h.old _ hn)
  refine ⟨Nat.lt_succ_self _, fun hn => hnew (.inr (.inl hn)), ?_⟩
  rw [hd]
  exact iff_of_false Bool.false_ne_true fun hn => hnew (hn.imp_right .inr)

/-- An edit leaves the number and what is on its way. -/
theorem consistent_edit (h : Consistent p) {n : Nat} {d d' : Dialog}
    (hshown : p.shown = some (n, d)) (hd : d'.submitting = d.submitting) :
    Consistent { p with shown := some (n, d') } := by
  refine ⟨h.old, h.once, h.idle, h.complete, fun m e he => ?_⟩
  obtain ⟨rfl, rfl⟩ := Prod.mk.inj (Option.some.inj he)
  obtain ⟨hold, hunanswered, hsubmitting⟩ := h.shown n d hshown
  exact ⟨hold, hunanswered, hd ▸ hsubmitting⟩

/-- A dialog that has submitted waits for its request. -/
theorem consistent_submitted (h : Consistent p) {n : Nat} {d : Dialog}
    (hshown : p.shown = some (n, d)) : Consistent (p.submitted n (d.submit env)) := by
  obtain ⟨hold, hunanswered, hsubmitting⟩ := h.shown n d hshown
  rcases submit_cases env d with hignored | ⟨hidle, d', hbusy, hthrown | ⟨m, hcomplete, hsent⟩⟩
  · rw [hignored]
    exact consistent_edit h hshown rfl
  · -- nothing was on its way, and nothing will be
    have hnone : n ∉ p.waiting := fun hn => by
      have hbusy := hsubmitting.mpr (.inl hn)
      rw [hidle] at hbusy
      cases hbusy
    rw [hthrown]
    refine ⟨fun k hk => ?_, h.once, fun k hk => ?_, h.complete, fun k e he => ?_⟩
    · rcases hk with hk | hk | hk
      · exact h.old k (.inl hk)
      · exact h.old k (.inr (.inl hk))
      · rcases List.mem_cons.mp hk with rfl | hk
        · exact hold
        · exact h.old k (.inr (.inr hk))
    · rcases List.mem_cons.mp hk with rfl | hk
      · exact hnone
      · exact h.idle k hk
    · obtain ⟨rfl, rfl⟩ := Prod.mk.inj (Option.some.inj he)
      exact ⟨hold, hunanswered, iff_of_true hbusy (.inr List.mem_cons_self)⟩
  · have hfree : ¬(n ∈ p.waiting ∨ n ∈ p.thrown) := fun hn => by
      have hbusy := hsubmitting.mpr hn
      rw [hidle] at hbusy
      cases hbusy
    have hwaiting : (p.submitted n (d', .sent m)).waiting = p.waiting ++ [n] := List.map_append
    rw [hsent]
    refine ⟨fun k hk => ?_, ?_, fun k hk => ?_, fun f hf => ?_, fun k e he => ?_⟩
    · rw [hwaiting, List.mem_append, List.mem_singleton] at hk
      rcases hk with (hk | rfl) | hk
      · exact h.old k (.inl hk)
      · exact hold
      · exact h.old k (.inr hk)
    · rw [hwaiting]
      have hperm : (p.waiting ++ [n] ++ p.succeeded).Perm (n :: (p.waiting ++ p.succeeded)) := by
        rw [List.append_assoc]
        exact List.perm_middle
      refine hperm.nodup_iff.mpr (List.nodup_cons.mpr ⟨fun hn => ?_, h.once⟩)
      rcases List.mem_append.mp hn with hn | hn
      · exact hfree (.inl hn)
      · exact hunanswered hn
    · rw [hwaiting, List.mem_append, List.mem_singleton, not_or]
      exact ⟨h.idle k hk, fun hkn => hfree (.inr (hkn ▸ hk))⟩
    · change f ∈ p.inFlight ++ [⟨n, m⟩] ++ p.answered at hf
      simp only [List.mem_append, List.mem_singleton] at hf
      rcases hf with (hf | rfl) | hf
      · exact h.complete f (List.mem_append_left _ hf)
      · exact hcomplete
      · exact h.complete f (List.mem_append_right _ hf)
    · obtain ⟨rfl, rfl⟩ := Prod.mk.inj (Option.some.inj he)
      refine ⟨hold, hunanswered, iff_of_true hbusy (.inl ?_)⟩
      rw [hwaiting]
      exact List.mem_append_right _ (List.mem_singleton_self _)

/-- The answer to a request takes it out of those that are on their way. -/
theorem waiting_eraseIdx {i : Nat} {f : Flight} (hf : p.inFlight[i]? = some f) :
    p.waiting.Perm (f.dialog :: (p.inFlight.eraseIdx i).map (·.dialog)) := by
  obtain ⟨hi, rfl⟩ := List.getElem?_eq_some_iff.mp hf
  have hperm := List.getElem_cons_eraseIdx_perm hi
  exact (hperm.map (·.dialog)).symm

/-- A success closes what is shown. -/
theorem consistent_succeed (h : Consistent p) {i : Nat} {f : Flight}
    (hf : p.inFlight[i]? = some f) : Consistent { p with
      shown := none, inFlight := p.inFlight.eraseIdx i, answered := p.answered ++ [f] } := by
  have hwaiting := waiting_eraseIdx hf
  have hsucceeded : (p.answered ++ [f]).map (·.dialog) = p.succeeded ++ [f.dialog] :=
    List.map_append
  refine ⟨fun n hn => ?_, ?_, fun n hn hwait => ?_, fun g hg => ?_, fun n d hd => by cases hd⟩
  · rcases hn with hn | hn | hn
    · exact h.old n (.inl (hwaiting.mem_iff.mpr (List.mem_cons_of_mem _ hn)))
    · rw [Page.succeeded, hsucceeded, List.mem_append, List.mem_singleton] at hn
      rcases hn with hn | rfl
      · exact h.old n (.inr (.inl hn))
      · exact h.old _ (.inl (hwaiting.mem_iff.mpr List.mem_cons_self))
    · exact h.old n (.inr (.inr hn))
  · -- its number moves from the one list to the other
    show ((p.inFlight.eraseIdx i).map (·.dialog) ++ (p.answered ++ [f]).map (·.dialog)).Nodup
    rw [hsucceeded, ← List.append_assoc]
    refine (List.perm_append_singleton _ _).nodup_iff.mpr ?_
    exact ((hwaiting.append_right p.succeeded).nodup_iff.mp h.once)
  · exact h.idle n hn (hwaiting.mem_iff.mpr (List.mem_cons_of_mem _ hwait))
  · refine h.complete g ?_
    simp only [List.mem_append, List.mem_singleton] at hg ⊢
    rcases hg with hg | hg | rfl
    · exact .inl (List.mem_of_mem_eraseIdx hg)
    · exact .inr hg
    · exact .inl (List.mem_of_getElem? hf)

/-- A failure goes to its own dialog. -/
theorem consistent_fail (h : Consistent p) {i : Nat} {f : Flight} (hf : p.inFlight[i]? = some f)
    (e : Failure) :
    Consistent { p with
      shown := p.shown.map fun (n, d) => (n, if n = f.dialog then d.failed e else d)
      inFlight := p.inFlight.eraseIdx i } := by
  have hwaiting := waiting_eraseIdx hf
  have hmem : ∀ {n}, n ∈ (p.inFlight.eraseIdx i).map (·.dialog) → n ∈ p.waiting := fun hn =>
    hwaiting.mem_iff.mpr (List.mem_cons_of_mem _ hn)
  have honce := (hwaiting.append_right p.succeeded).nodup_iff.mp h.once
  obtain ⟨hgone, honce⟩ := List.nodup_cons.mp honce
  refine ⟨fun n hn => h.old n (hn.imp_left hmem), honce, fun n hn hwait => h.idle n hn (hmem hwait),
    fun g hg => h.complete g ?_, fun n d hd => ?_⟩
  · exact List.mem_append.mpr ((List.mem_append.mp hg).imp_left List.mem_of_mem_eraseIdx)
  obtain ⟨⟨n', d'⟩, hshown, heq⟩ := Option.map_eq_some_iff.mp hd
  obtain ⟨rfl, rfl⟩ := Prod.mk.inj heq
  obtain ⟨hold, hunanswered, hsubmitting⟩ := h.shown n' d' hshown
  refine ⟨hold, hunanswered, ?_⟩
  by_cases hown : n' = f.dialog
  · -- it waits no more, and it has not thrown
    have hfailed : (d'.failed e).submitting = false := by cases d' <;> rfl
    have hthrown : n' ∉ p.thrown := fun hn =>
      h.idle n' hn (hown ▸ hwaiting.mem_iff.mpr List.mem_cons_self)
    have hleft : n' ∉ (p.inFlight.eraseIdx i).map (·.dialog) := fun hn =>
      hgone (hown ▸ List.mem_append_left _ hn)
    rw [if_pos hown, hfailed]
    exact iff_of_false Bool.false_ne_true (not_or.mpr ⟨hleft, hthrown⟩)
  · have hleft : n' ∈ (p.inFlight.eraseIdx i).map (·.dialog) ↔ n' ∈ p.waiting := by
      rw [hwaiting.mem_iff, List.mem_cons, or_iff_right hown]
    rw [if_neg hown, hsubmitting]
    exact or_congr_left hleft.symm

/-- An edit does not submit. -/
theorem lock_edit_submitting (form : LockForm.Form) (e : LockForm.Edit) :
    (e.apply form).submitting = form.submitting := by
  cases e <;> rfl

/-- Nor does one of the create dialog. -/
theorem create_edit_submitting (d : CreateDialog) (e : CreateDialog.Edit) :
    (e.apply d).form.submitting = d.form.submitting := by
  cases e <;> rfl

theorem consistent_hidden (h : Consistent p) : Consistent { p with shown := none } :=
  ⟨h.old, h.once, h.idle, h.complete, fun n d hd => by cases hd⟩

/-- A dialog opens without having submitted. -/
theorem create_opened_submitting {d : CreateDialog} (h : CreateDialog.opened env = some d) :
    d.form.submitting = false := by
  obtain ⟨startDate, -, rfl⟩ := Option.map_eq_some_iff.mp h
  rfl

/-- **Every step keeps the page consistent.** -/
theorem consistent_step (h : Consistent p) {a : Event} (hs : (dialogs env).step p a = some p') :
    Consistent p' := by
  cases a with
  | openRollout now =>
    simp only [dialogs, step] at hs
    split at hs
    · obtain rfl := Option.some.inj hs
      exact h
    · obtain rfl := Option.some.inj hs
      cases hopened : CreateDialog.opened { env with now := now } with
      | some d => exact consistent_present h (create_opened_submitting hopened)
      | none => exact consistent_hidden h
  | openLock now lock =>
    simp only [dialogs, step] at hs
    split at hs
    · obtain rfl := Option.some.inj hs
      exact h
    · obtain rfl := Option.some.inj hs
      exact consistent_present h rfl
  | close =>
    obtain rfl := Option.some.inj hs
    exact consistent_hidden h
  | editRollout e =>
    simp only [dialogs, step] at hs
    split at hs
    · next hshown =>
      obtain rfl := Option.some.inj hs
      exact consistent_edit h hshown (create_edit_submitting _ e)
    · cases hs
  | editLock e =>
    simp only [dialogs, step] at hs
    split at hs
    · next hshown =>
      obtain rfl := Option.some.inj hs
      exact consistent_edit h hshown (lock_edit_submitting _ e)
    · cases hs
  | submit =>
    obtain ⟨⟨n, d⟩, hshown, rfl⟩ := Option.map_eq_some_iff.mp hs
    exact consistent_submitted h hshown
  | succeed i =>
    obtain ⟨f, hf, rfl⟩ := Option.map_eq_some_iff.mp hs
    exact consistent_succeed h hf
  | fail i e =>
    obtain ⟨f, hf, rfl⟩ := Option.map_eq_some_iff.mp hs
    exact consistent_fail h hf e

/-- **Of one dialog there is one request at a time, and one success at most**: in every run, what is
on its way and what has succeeded is of different dialogs, all of it complete; and the dialog that
is shown has had no success and is submitting exactly while its request is on its way, or for good
when its `submit` threw. -/
theorem submitted_once {env : Browser} {es : List Event} {p : Page}
    (h : (dialogs env).exec Page.start es = some p) :
    (p.waiting ++ p.succeeded).Nodup ∧ (∀ f ∈ p.inFlight ++ p.answered, f.message.Complete) ∧
      ∀ n d, p.shown = some (n, d) → n ∉ p.succeeded ∧
        (d.submitting = true ↔ n ∈ p.waiting ∨ n ∈ p.thrown) := by
  have hconsistent : Consistent p :=
    (dialogs env).exec_invariant (fun _ _ _ hI hs => consistent_step hI hs) consistent_start h
  refine ⟨hconsistent.once, hconsistent.complete, fun n d hshown => ?_⟩
  obtain ⟨-, hunanswered, hsubmitting⟩ := hconsistent.shown n d hshown
  exact ⟨hunanswered, hsubmitting⟩

/-! ## Whose answer it is -/

/-- What is on its way is for the dialog that is shown. -/
def Attended (p : Page) : Prop := ∀ f ∈ p.inFlight, ∃ d, p.shown = some (f.dialog, d)

/-- The dialog that is shown goes, without an answer. -/
def Leaves (p : Page) : Event → Prop
  | .close => True
  | .openRollout _ => ∃ n form, p.shown = some (n, .lock form)
  | .openLock _ _ => ∃ n d, p.shown = some (n, .rollout d)
  | .editRollout _ | .editLock _ | .submit | .succeed _ | .fail _ _ => False

/-- No dialog goes while a request is on its way. -/
def Waits (p : Page) (a : Event) : Prop := Leaves p a → p.inFlight = []

/-- What changes neither the requests nor the dialog keeps the page attended. -/
theorem attended_of_shown (h : Attended p) (hflight : p'.inFlight = p.inFlight)
    (hshown : p'.shown.map (·.1) = p.shown.map (·.1)) : Attended p' := by
  intro f hf
  obtain ⟨d, hd⟩ := h f (hflight ▸ hf)
  rw [hd] at hshown
  obtain ⟨⟨n, d'⟩, hd', hn⟩ := Option.map_eq_some_iff.mp hshown
  obtain rfl : n = f.dialog := hn
  exact ⟨d', hd'⟩

/-- A new dialog has no request on its way, so nothing else may have one. -/
theorem attended_present_iff (h : Consistent p) (d : Dialog) :
    Attended (p.present d) ↔ p.inFlight = [] := by
  constructor
  · intro hattended
    refine List.eq_nil_iff_forall_not_mem.mpr fun f hf => ?_
    obtain ⟨d', hd'⟩ := hattended f hf
    have hnew : p.opened = f.dialog := (Prod.mk.inj (Option.some.inj hd')).1
    have hold := h.old f.dialog (.inl (List.mem_map_of_mem hf))
    exact absurd hnew.symm (Nat.ne_of_lt hold)
  · intro hnil f hf
    exact absurd (hnil ▸ hf : f ∈ []) List.not_mem_nil

/-- The same where the new dialog cannot be made. -/
theorem attended_presentRollout_iff (h : Consistent p) (d : Option CreateDialog) :
    Attended (p.presentRollout d) ↔ p.inFlight = [] := by
  cases d with
  | some d => exact attended_present_iff h _
  | none =>
    constructor
    · intro hattended
      refine List.eq_nil_iff_forall_not_mem.mpr fun f hf => ?_
      obtain ⟨d', hd'⟩ := hattended f hf
      cases hd'
    · intro hnil f hf
      exact absurd (hnil ▸ hf : f ∈ []) List.not_mem_nil

/-- Where nothing is shown, nothing is on its way. -/
theorem inFlight_of_none (h : Attended p) (hshown : p.shown = none) : p.inFlight = [] :=
  List.eq_nil_iff_forall_not_mem.mpr fun f hf => by
    obtain ⟨d, hd⟩ := h f hf
    rw [hshown] at hd
    cases hd

/-- The one request on its way. -/
theorem inFlight_eraseIdx (h : Consistent p) (hattended : Attended p) {i : Nat} {f : Flight}
    (hf : p.inFlight[i]? = some f) : p.inFlight.eraseIdx i = [] := by
  refine List.eq_nil_iff_forall_not_mem.mpr fun g hg => ?_
  obtain ⟨d, hd⟩ := hattended f (List.mem_of_getElem? hf)
  obtain ⟨d', hd'⟩ := hattended g (List.mem_of_mem_eraseIdx hg)
  have hsame : f.dialog = g.dialog := (Prod.mk.inj (Option.some.inj (hd.symm.trans hd'))).1
  have honce := (waiting_eraseIdx hf).nodup_iff.mp (List.nodup_append.mp h.once).1
  exact (List.nodup_cons.mp honce).1 (hsame ▸ List.mem_map_of_mem hg)

/-- A step keeps the page attended exactly if it waits for the request under way. -/
theorem attended_step (h : Consistent p) (hattended : Attended p) {a : Event}
    (hs : (dialogs env).step p a = some p') : Attended p' ↔ Waits p a := by
  cases a with
  | openRollout now =>
    simp only [dialogs, step] at hs
    cases hshown : p.shown with
    | none =>
      rw [hshown] at hs
      obtain rfl := Option.some.inj hs
      have hnil := inFlight_of_none hattended hshown
      exact iff_of_true ((attended_presentRollout_iff h _).mpr hnil) fun _ => hnil
    | some shown =>
      obtain ⟨n, d⟩ := shown
      rw [hshown] at hs
      -- the rollout dialog is opened over a dialog: of its own kind it is ignored
      cases d with
      | rollout d =>
        obtain rfl := Option.some.inj hs
        refine iff_of_true hattended fun ⟨n', form, hlock⟩ => ?_
        rw [hshown] at hlock
        cases hlock
      -- a lock form is replaced: a request of its is then nobody's
      | lock form =>
        obtain rfl := Option.some.inj hs
        rw [attended_presentRollout_iff h]
        exact ⟨fun hnil _ => hnil, fun hwaits => hwaits ⟨n, form, hshown⟩⟩
  | openLock now lock =>
    simp only [dialogs, step] at hs
    cases hshown : p.shown with
    | none =>
      rw [hshown] at hs
      obtain rfl := Option.some.inj hs
      have hnil := inFlight_of_none hattended hshown
      exact iff_of_true ((attended_present_iff h _).mpr hnil) fun _ => hnil
    | some shown =>
      obtain ⟨n, d⟩ := shown
      rw [hshown] at hs
      -- the same with the kinds exchanged
      cases d with
      | rollout d =>
        obtain rfl := Option.some.inj hs
        rw [attended_present_iff h]
        exact ⟨fun hnil _ => hnil, fun hwaits => hwaits ⟨n, d, hshown⟩⟩
      | lock form =>
        obtain rfl := Option.some.inj hs
        refine iff_of_true hattended fun ⟨n', d, hrollout⟩ => ?_
        rw [hshown] at hrollout
        cases hrollout
  | close =>
    obtain rfl := Option.some.inj hs
    constructor
    · intro hattended' _
      -- after `close` nothing is shown
      exact @inFlight_of_none { p with shown := none } hattended' rfl
    · intro hwaits f hf
      exact absurd (hwaits trivial ▸ hf : f ∈ []) List.not_mem_nil
  | editRollout e =>
    refine iff_of_true ?_ fun hleaves => hleaves.elim
    simp only [dialogs, step] at hs
    split at hs
    · next hshown =>
      obtain rfl := Option.some.inj hs
      exact attended_of_shown hattended rfl (by rw [hshown]; rfl)
    · cases hs
  | editLock e =>
    refine iff_of_true ?_ fun hleaves => hleaves.elim
    simp only [dialogs, step] at hs
    split at hs
    · next hshown =>
      obtain rfl := Option.some.inj hs
      exact attended_of_shown hattended rfl (by rw [hshown]; rfl)
    · cases hs
  | submit =>
    refine iff_of_true ?_ fun hleaves => hleaves.elim
    obtain ⟨⟨n, d⟩, hshown, rfl⟩ := Option.map_eq_some_iff.mp hs
    show Attended (p.submitted n (d.submit env))
    -- ignored, thrown while the request is made, or sent by the dialog shown
    rcases submit_cases env d with hignored | ⟨-, d', -, hthrown | ⟨m, -, hsent⟩⟩
    · rw [hignored]
      exact attended_of_shown hattended rfl (by rw [hshown]; rfl)
    · rw [hthrown]
      exact attended_of_shown hattended rfl (by rw [hshown]; rfl)
    · rw [hsent]
      intro f hf
      rcases List.mem_append.mp hf with hf | hf
      · obtain ⟨e, he⟩ := hattended f hf
        obtain ⟨rfl, -⟩ := Prod.mk.inj (Option.some.inj (hshown.symm.trans he))
        exact ⟨d', rfl⟩
      · obtain rfl := List.mem_singleton.mp hf
        exact ⟨d', rfl⟩
  | succeed i =>
    refine iff_of_true ?_ fun hleaves => hleaves.elim
    obtain ⟨f, hf, rfl⟩ := Option.map_eq_some_iff.mp hs
    -- nothing else was on its way
    intro g hg
    exact absurd (inFlight_eraseIdx h hattended hf ▸ hg : g ∈ []) List.not_mem_nil
  | fail i e =>
    refine iff_of_true ?_ fun hleaves => hleaves.elim
    obtain ⟨f, hf, rfl⟩ := Option.map_eq_some_iff.mp hs
    intro g hg
    exact absurd (inFlight_eraseIdx h hattended hf ▸ hg : g ∈ []) List.not_mem_nil

/-- A step that is not enabled leaves nothing. -/
theorem waits_of_none {a : Event} (hs : (dialogs env).step p a = none) : Waits p a := by
  cases a with
  | openRollout now | openLock now lock =>
    simp only [dialogs, step] at hs
    split at hs <;> cases hs
  | close => cases hs
  | editRollout e | editLock e | submit | succeed i | fail i e => exact fun hleaves => hleaves.elim

/-- **Whose answer it is**: every request on its way is for the dialog that is shown, in all the
states a run goes through, exactly when in that run no dialog is closed or replaced while a request
is on its way. Then a success closes the dialog it is for, and nothing else is on its way. -/
theorem attended_iff (env : Browser) (es : List Event) :
    ((∀ bs, bs <+: es → ∀ p, (dialogs env).exec Page.start bs = some p → Attended p) ↔
      (dialogs env).Along Waits Page.start es) ∧
    ∀ p i p', (dialogs env).Along Waits Page.start es → (dialogs env).exec Page.start es = some p →
      (dialogs env).step p (.succeed i) = some p' → ∃ (f : Flight) (d : Dialog),
        p'.answered = p.answered ++ [f] ∧ p.shown = some (f.dialog, d) ∧ p'.inFlight = [] := by
  have hstart : Consistent Page.start ∧ Attended Page.start :=
    ⟨consistent_start, fun _ hf => absurd hf List.not_mem_nil⟩
  have hstep : ∀ p a p', Consistent p ∧ Attended p → (dialogs env).step p a = some p' →
      (Consistent p' ∧ Attended p' ↔ Waits p a) := by
    intro p a p' ⟨hconsistent, hattended⟩ hs
    rw [attended_step hconsistent hattended hs, and_iff_right (consistent_step hconsistent hs)]
  have hall := @Machine.exec_prefix_iff_along Page Event (dialogs env) Waits _ hstep
    (fun _ _ hs => waits_of_none hs) es Page.start hstart
  have hconsistent : ∀ bs p, (dialogs env).exec Page.start bs = some p → Consistent p :=
    fun bs p hp => (dialogs env).exec_invariant (fun _ _ _ hI hs => consistent_step hI hs)
      consistent_start hp
  refine ⟨Iff.trans ?_ hall, fun p i p' halong hp hs => ?_⟩
  · constructor
    · exact fun h bs hbs p hp => ⟨hconsistent bs p hp, h bs hbs p hp⟩
    · exact fun h bs hbs p hp => (h bs hbs p hp).2
  · obtain ⟨f, hf, rfl⟩ := Option.map_eq_some_iff.mp hs
    have hattended := (hall.mpr halong es (List.prefix_refl es) p hp).2
    obtain ⟨d, hd⟩ := hattended f (List.mem_of_getElem? hf)
    exact ⟨f, d, rfl, hd, inFlight_eraseIdx (hconsistent es p hp) hattended hf⟩

/-! ### An answer that comes too late -/

private def page : Browser := ⟨Zone.fixed 0, fun _ => none, ⟨28800000, by decide⟩⟩

/-- A lock is submitted, and its dialog closed before the answer; a new one is filled in. -/
private def late : List Event :=
  [.openLock page.now none, .editLock (.title "Freeze"), .submit, .close, .openLock page.now none,
    .editLock (.title "Code freeze"), .submit]

/-- Both requests are on their way, each from its own dialog. -/
theorem submitted_once_late : ∃ p, (dialogs page).exec Page.start late = some p ∧
    p.waiting = [0, 1] ∧ (p.waiting ++ p.succeeded).Nodup := by
  have hrun : ∃ p, (dialogs page).exec Page.start late = some p ∧ p.waiting = [0, 1] := by
    decide +kernel
  obtain ⟨p, hp, hwaiting⟩ := hrun
  exact ⟨p, hp, hwaiting, (submitted_once hp).1⟩

/-- The answer to the first one closes the second dialog, before that has submitted. -/
example : ∃ p, (dialogs page).exec Page.start (late.dropLast ++ [.succeed 0]) = some p ∧
    p.shown.isNone = true ∧ p.opened = 2 ∧ p.succeeded = [0] := by
  decide

end ReleaseRadar.Frontend.Dialogs
