import ReleaseRadar.Api.Resave
import ReleaseRadar.Frontend.ApiService
import ReleaseRadar.Frontend.CreateForm
import ReleaseRadar.Lib.JsDateTime

/-!
# The lock form

`create-lock-modal.component.ts`: what its fields hold when it opens, on no lock or on one of the
page, what they can be made to hold, and what is submitted. A time is in the form as the value of
an input, in local time and to the minute; it is submitted as an instant.

A stored lock gets into the form through the text of a reply, and back through the text of a
request, whose URL has to carry its id. `lock_form_saved` is about all of it: which saves are
refused, what the others leave in the catalogue, and how the form opens on it.
`unedited_lock_kept_iff` says which locks can be opened and saved without a change.
-/

namespace ReleaseRadar.Frontend.LockForm

open Lib Repository JsDate JsonText Api CreateForm

/-! ## The lock of the page -/

/-- `Lock` of `rollout.models.ts`, as far as the form reads it. -/
structure PageLock where
  id : String
  title : String
  description : String
  contact : String
  startAt : List Char
  endAt : List Char
  products : Option (List String)
  kind : String
deriving DecidableEq, Repr

/-- A property of a parsed object; of members of one name the last one counts. -/
def property (key : String) : Value → Option Value
  | .obj members => (members.reverse.find? fun m => m.1 == key).map (·.2)
  | _ => none

def asString : Value → Option String
  | .str s => some s
  | _ => none

/-- The list may be `null`. -/
def asStrings : Value → Option (Option (List String))
  | .null => some none
  | .arr items => (items.mapM asString).map some
  | _ => none

/-- A parsed object as the interface has it. -/
def PageLock.ofValue (v : Value) : Option PageLock := do
  let text key := (property key v).bind asString
  some ⟨← text "id", ← text "title", ← text "description", ← text "contact",
    (← text "startAt").toList, (← text "endAt").toList, ← (property "products" v).bind asStrings,
    ← text "kind"⟩

/-! ## The form -/

inductive LockKind
  | manual
  | holiday
  | window
deriving DecidableEq, Repr

def LockKind.name : LockKind → String
  | manual => "manual"
  | holiday => "holiday"
  | window => "window"

/-- The signals of the component. -/
structure Form where
  editId : Option String
  kind : String
  start : List Char
  end_ : List Char
  title : String
  description : String
  contact : String
  products : List String
  submitting : Bool
  error : Option String
deriving DecidableEq, Repr

/-- The getters of a date that is none are `NaN`. -/
def localInput (z : Zone) : Option TimeValue → List Char
  | some t => z.inputText t.val
  | none => "NaN-NaN-NaNTNaN:NaN".toList

section

variable (env : Browser)

/-- `new Date` of a text. -/
def newDate (text : List Char) : Option TimeValue := parseDate env.zone env.other text

def toLocalInput (iso : List Char) : List Char := localInput env.zone (newDate env iso)

def defaultStart : List Char := localInput env.zone (env.zone.fullHour env.now)

def defaultEnd : List Char :=
  localInput env.zone ((env.zone.addDays env.now 1).bind env.zone.fullHour)

/-- The form when it opens. -/
def opened (existing : Option PageLock) : Form where
  editId := existing.map (·.id)
  kind := (existing.map (·.kind)).getD LockKind.manual.name
  start := (existing.map fun l => toLocalInput env l.startAt).getD (defaultStart env)
  end_ := (existing.map fun l => toLocalInput env l.endAt).getD (defaultEnd env)
  title := (existing.map (·.title)).getD ""
  description := (existing.map (·.description)).getD ""
  contact := (existing.map (·.contact)).getD ""
  products := (existing.bind (·.products)).getD ["all"]
  submitting := false
  error := none

end

@[simp] theorem opened_start (env : Browser) (l : PageLock) :
    (opened env (some l)).start = toLocalInput env l.startAt := rfl

@[simp] theorem opened_end (env : Browser) (l : PageLock) :
    (opened env (some l)).end_ = toLocalInput env l.endAt := rfl

def toggleProduct (cur : List String) (id : String) : List String :=
  if cur.contains "all" then [id]
  else if cur.contains id then cur.filter (· ≠ id)
  else cur ++ [id]

/-- What the fields of the form do. -/
inductive Edit
  | kind (v : LockKind)
  | start (v : List Char)
  | end_ (v : List Char)
  | title (v : String)
  | description (v : String)
  | contact (v : String)
  | selectAll
  | toggleProduct (id : String)
deriving DecidableEq, Repr

def Edit.apply (form : Form) : Edit → Form
  | kind v => { form with kind := v.name }
  | start v => { form with start := v }
  | end_ v => { form with end_ := v }
  | title v => { form with title := v }
  | description v => { form with description := v }
  | contact v => { form with contact := v }
  | selectAll => { form with products := ["all"] }
  | toggleProduct id => { form with products := LockForm.toggleProduct form.products id }

def canSubmit (form : Form) : Bool :=
  0 < (trim form.title.toList).length && form.start ≠ [] && form.end_ ≠ [] &&
    0 < form.products.length && !form.submitting

/-- The body of the request. -/
structure LockBody where
  title : String
  description : String
  contact : String
  startAt : List Char
  endAt : List Char
  products : List String
  kind : String
deriving DecidableEq, Repr

inductive Submission
  | ignored
  | thrown
  | create (body : LockBody)
  | update (id : String) (body : LockBody)
deriving DecidableEq, Repr

/-- A form with these times is a body. -/
def bodyOf (form : Form) (start end_ : TimeValue) : LockBody :=
  ⟨trim form.title.toList, form.description, form.contact, toISOString start.val,
    toISOString end_.val, form.products, form.kind⟩

/-- The form after a submission, and what was sent. `toISOString` throws where there is no date. -/
def submit (env : Browser) (form : Form) : Form × Submission :=
  if canSubmit form then
    ({ form with submitting := true, error := none },
      match newDate env form.start, newDate env form.end_ with
      | some start, some end_ =>
        match form.editId with
        | some id =>
          if id ≠ "" then .update id (bodyOf form start end_) else .create (bodyOf form start end_)
        | none => .create (bodyOf form start end_)
      | _, _ => .thrown)
  else (form, .ignored)

/-- What the text of a body says. -/
def LockBody.toValue (b : LockBody) : Value :=
  .obj [("title", .str b.title), ("description", .str b.description), ("contact", .str b.contact),
    ("startAt", .str (String.ofList b.startAt)), ("endAt", .str (String.ofList b.endAt)),
    ("products", .arr (b.products.map .str)), ("kind", .str b.kind)]

/-! ## What is submitted -/

section Open

variable {zone : Int → Int} {env : Browser}

/-- The lock as a reply of the server gives it to the page. -/
def pageLock (zone : Int → Int) (l : Lock) : PageLock :=
  ⟨l.id, l.title, l.description, l.contact, (Json.timeText zone l.startAt).toList,
    (Json.timeText zone l.endAt).toList, l.products, l.kind⟩

/-- Strings are read back one by one. -/
theorem mapM_asString (ss : List String) : (ss.map Value.str).mapM asString = some ss := by
  induction ss with
  | nil => rfl
  | cons s ss ih =>
    rw [List.map_cons, List.mapM_cons, ih]
    rfl

/-- So is the list of the products. -/
theorem asStrings_ofStrings (ss : Slice String) :
    asStrings ((Json.ofStrings ss).toValue zone) = some ss := by
  cases ss with
  | none => rfl
  | some ss =>
    rw [Json.ofStrings, Json.toValue_ofSlice]
    show ((ss.map Value.str).mapM asString).map some = _
    rw [mapM_asString]
    rfl

/-- The page takes up the lock as the answer has it. -/
theorem ofValue_toJson (l : Lock) :
    PageLock.ofValue (l.toJson.toValue zone) = some (pageLock zone l) := by
  have hproducts : (property "products" (l.toJson.toValue zone)).bind asStrings =
      some l.products :=
    asStrings_ofStrings l.products
  unfold PageLock.ofValue
  rw [hproducts]
  rfl

/-- An instant of a reply is a date of the page, cut to the millisecond. -/
theorem newDate_timeText (hzone : WholeMinutes zone) {t : Int}
    (ht : Rfc3339.Writable (zone t) t) :
    newDate env (Json.timeText zone t).toList = timeClip ((t / 1000000 : Int) : ℚ) := by
  have hformat : Rfc3339.format (zone t) t = some ((Rfc3339.format (zone t) t).getD []) := by
    unfold Rfc3339.format
    rw [if_pos ht, Option.getD_some]
  rw [newDate, parseDate, Json.timeText, String.toList_ofList,
    readDateTime_format (hzone t) hformat]

end Open

/-! ## From the form to the store -/

/-- What a save of the form makes of the lock. -/
def edited (form : Form) (start end_ : TimeValue) (l : Lock) : Lock :=
  { l with
    title := trimSpace (trim form.title.toList)
    description := form.description
    contact := form.contact
    startAt := start.val * 1000000
    endAt := end_.val * 1000000
    products := some form.products
    kind := form.kind }

/-- The entry of the id is this lock. -/
def Replaced (id : String) (l : Lock) (K : Catalogue) : Catalogue :=
  { K with locks := Function.update K.locks id (some l) }

/-- What is asked of a lock besides a kind. -/
structure Accepted (l : Lock) : Prop where
  title : l.title ≠ ""
  order : l.startAt < l.endAt

/-- The year of the date, in UTC, has four digits. -/
def FourDigits (t : TimeValue) : Prop :=
  0 ≤ (Gregorian.date (day t.val)).year ∧ (Gregorian.date (day t.val)).year ≤ 9999

instance (t : TimeValue) : Decidable (FourDigits t) := inferInstanceAs (Decidable (_ ∧ _))

/-- The request of an admin as the server gets it when the page makes the call. -/
structure Arrives (call : ApiService.Call) (req : Request) : Prop where
  method : req.method = call.method
  path : call.Reaches req.path
  admin : ∃ sess, req.session = some sess ∧ sess.role = roleAdmin

/-- A lock whose id its URL carries is the one that the server is asked for. -/
theorem Arrives.adminRequest {id : String} {put : Request}
    (h : Arrives (ApiService.updateLock id) put) (hid : ApiService.PlainAtEnd id) :
    AdminRequest "PATCH" ["api", "locks", id] put where
  method := h.method
  path := h.path.unique ((ApiService.reaches_entry_iff (by decide) id).mpr hid)
  admin := h.admin

/-- What becomes of the request that is to make the lock this one. -/
structure Saved (s : Store) (id : String) (l : Lock) (F : Faults Err) (res : Reply × Conn Store) :
    Prop where
  refused : ¬Accepted l → res.1.status = 400 ∧ res.2.store = s
  either : catalogue res.2.store = catalogue s ∨
    catalogue res.2.store = Replaced id l (catalogue s)
  acknowledged : res.1.status / 100 = 2 → catalogue res.2.store = Replaced id l (catalogue s)
  answered : Accepted l → LockFits l → F 0 = none → res.1.status = 200

section Save

variable {s : Store} {env : Env} {put : Request} {F : Faults Err} {id : String} {zones : LockZones}
  {form : Form} {start end_ : TimeValue} {l : Lock}

/-- The body as the server decodes it. -/
def decodedBody (form : Form) (start end_ : TimeValue) : Lock :=
  ⟨"", trim form.title.toList, form.description, form.contact, start.val * 1000000,
    end_.val * 1000000, some form.products, form.kind, "", Wire.unsetTime⟩

/-- The body as the validation leaves it. -/
def validated (form : Form) (start end_ : TimeValue) : Lock :=
  { decodedBody form start end_ with title := trimSpace (trim form.title.toList) }

/-- The server reads the body as the form meant it, where the years have four digits. -/
theorem read_body (other : List Char → Option Int) (hstart : FourDigits start)
    (hend : FourDigits end_) :
    Lock.read other (bodyOf form start end_).toValue = some (decodedBody form start end_) := by
  have hproducts : Wire.readSlice (Wire.readString "") (.arr (form.products.map .str)) =
      some (some form.products) := by
    have hitems : (form.products.map Value.str).mapM (Wire.readString "") = some form.products := by
      induction form.products with
      | nil => rfl
      | cons p ps ih =>
        rw [List.map_cons, List.mapM_cons, ih]
        rfl
    rw [Wire.readSlice, hitems]
    rfl
  show List.foldlM _ _ _ = _
  simp +decide only [bodyOf, List.foldlM_cons, List.foldlM_nil, Lock.setMember, Wire.readString,
    hproducts, readTime_toISOString _ hstart, readTime_toISOString _ hend]
  rfl

/-- For a known kind the server looks at the title and at the order of the times. -/
theorem normalizeAndValidateLock_eq (hkind : l.kind ∈ lockKinds) :
    normalizeAndValidateLock l =
      if trimSpace l.title = "" then .error "title is required"
      else if l.endAt ≤ l.startAt then .error "endAt must be after startAt"
      else .ok { l with title := trimSpace l.title } := by
  have hne : l.kind ≠ "" := fun he => absurd (he ▸ hkind) (by decide)
  have hcontains : ["manual", "holiday", "window"].contains l.kind = true :=
    List.contains_iff_mem.mpr hkind
  unfold normalizeAndValidateLock
  simp only [if_neg hne, hcontains, not_true_eq_false, if_false]

/-- The PATCH of an admin reaches the handler of its lock. -/
theorem respond_updateLock (hput : AdminRequest "PATCH" ["api", "locks", id] put) (hid : id ≠ "")
    (c : Conn Store) :
    respond env put F c = serve (Api.updateLock id put.body.lockZones put.body.lock) F c := by
  obtain ⟨sess, hsess, hadmin⟩ := hput.admin
  have hroute : resolve (patternMethod "PATCH") ["api", "locks", id] = some (.updateLock id) :=
    if_neg hid
  rw [hput.respond_eq (by decide) hroute, Route.handler, hsess, requireAdmin_of_admin hadmin]

/-- The change that the decoded body asks for makes the lock the edited one. -/
theorem apply_changeLock (hl : (catalogue s).locks id = some l) :
    (Change.changeLock { validated form start end_ with id := id }).apply (catalogue s) =
      Replaced id (edited form start end_ l) (catalogue s) := by
  have hmicro : ∀ t : TimeValue, pgTimestamp (t.val * 1000000) = t.val * 1000000 := fun t => by
    unfold pgTimestamp
    omega
  have hlocks : ∀ l' : Lock, l'.revised l = edited form start end_ l →
      Function.update (catalogue s).locks id (((catalogue s).locks id).map l'.revised) =
        Function.update (catalogue s).locks id (some (edited form start end_ l)) := by
    intro l' hl'
    rw [hl, Option.map_some, hl']
  refine congrArg (fun locks => { catalogue s with locks }) (hlocks _ ?_)
  unfold Lock.revised validated decodedBody
  simp only [hmicro]
  rfl

/-- A body that is turned down. -/
theorem saved_refused {msg : String} (hrefused : ¬Accepted l)
    (h : normalizeAndValidateLock (decodedBody form start end_) = .error msg) :
    Saved s id l F
      (serve (Api.updateLock id zones (some (decodedBody form start end_))) F ⟨s, 0⟩) := by
  have hserve : serve (Api.updateLock id zones (some (decodedBody form start end_))) F ⟨s, 0⟩ =
      (httpError 400 msg, ⟨s, 0⟩) :=
    LockRequest.serve_invalid (q := .update id zones _) rfl h ⟨s, 0⟩
  rw [hserve]
  exact ⟨fun _ => ⟨rfl, rfl⟩, .inl rfl, fun hok => absurd hok (by decide : ¬400 / 100 = 2),
    fun haccepted => absurd haccepted hrefused⟩

/-- A body that is let through. -/
theorem saved_accepted (hl : (catalogue s).locks id = some l)
    (haccepted : Accepted (edited form start end_ l)) (hid : l.id = id)
    (h : normalizeAndValidateLock (decodedBody form start end_) =
      .ok (validated form start end_)) :
    Saved s id (edited form start end_ l) F
      (serve (Api.updateLock id zones (some (decodedBody form start end_))) F ⟨s, 0⟩) := by
  have happly := @apply_changeLock s id form start end_ l hl
  have hperforms : Performs (.changeLock { validated form start end_ with id := id })
    (updateLock { validated form start end_ with id := id }) F ⟨s, 0⟩ := performs_updateLock _
  rw [LockRequest.updateLock_valid h]
  have hsettles := @settles_of_performs F ⟨s, 0⟩ Lock _ _
    (fun out => (writeJSON zones.offsets 200 out.toJson).after ⟨"lock", out.id, "update"⟩) hperforms
  refine ⟨fun hrefused => absurd haccepted hrefused, hsettles.either.imp_right ?_,
    fun hok => ?_, ?_⟩
  · rintro ⟨ch, hch, hmakes⟩
    obtain rfl := Option.some.inj hch
    exact hmakes.made.trans happly
  · exact (hsettles.acknowledged hok _ rfl).made.trans happly
  · intro _ hfits hF
    have hhas : s.hasLock id = true := by
      rw [← isSome_locks, hl]
      rfl
    have hfits' : LockFits { validated form start end_ with id := id } :=
      ⟨hid ▸ hfits.text, hfits.kind⟩
    rw [serve_of_ok (updateLock_stored hF hfits' hhas)]
    rfl

/-- **What a save does**: it is refused, or the lock is the edited one. -/
theorem saved_form (h : Reached s) (hl : (catalogue s).locks id = some l) (hid : id ≠ "")
    (hkind : form.kind ∈ lockKinds) (hstart : FourDigits start) (hend : FourDigits end_)
    {other : List Char → Option Int} {octets : List UInt8}
    (hoctets : first (decodeLossy octets) = some (bodyOf form start end_).toValue)
    (hput : AdminRequest "PATCH" ["api", "locks", id] put)
    (hbody : put.body.lock = Wire.readBody (Lock.read other) octets) :
    Saved s id (edited form start end_ l) F (respond env put F ⟨s, 0⟩) := by
  have hread : put.body.lock = some (decodedBody form start end_) := by
    rw [hbody, Wire.readBody, hoctets]
    exact read_body other hstart hend
  have hnormal := @normalizeAndValidateLock_eq (decodedBody form start end_) hkind
  rw [respond_updateLock hput hid, hread]
  by_cases htitle : trimSpace (decodedBody form start end_).title = ""
  · rw [if_pos htitle] at hnormal
    exact saved_refused (fun haccepted => haccepted.title htitle) hnormal
  · rw [if_neg htitle] at hnormal
    by_cases horder : (decodedBody form start end_).endAt ≤ (decodedBody form start end_).startAt
    · rw [if_pos horder] at hnormal
      exact saved_refused (fun haccepted => not_lt_of_ge horder haccepted.order) hnormal
    · rw [if_neg horder] at hnormal
      exact saved_accepted hl ⟨htitle, lt_of_not_ge horder⟩ ((wellFormed_reached h).locks id l hl)
        hnormal

end Save

/-! ## And back into the form -/

section Reopen

variable {zone : Int → Int} {env : Browser} {l : Lock} {text : List Char}

/-- The text of a lock is read as the lock of the page. -/
theorem pageLock_of_text (hzone : WholeMinutes zone) (h : l.toJson.encode zone = some text) :
    (parse text).bind PageLock.ofValue = some (pageLock zone l) := by
  rw [(carries_lock hzone l).parsed text h]
  exact ofValue_toJson l

/-- A lock that was answered has times that can be written. -/
theorem writable_of_encode (h : l.toJson.encode zone = some text) :
    Rfc3339.Writable (zone l.startAt) l.startAt ∧ Rfc3339.Writable (zone l.endAt) l.endAt := by
  obtain ⟨htimes, -⟩ := encode_eq_some h
  rw [instants_lock] at htimes
  exact ⟨htimes _ (by simp), htimes _ (by simp)⟩

/-- The form with its title as it is kept and its dates as inputs show them. -/
def shown (env : Browser) (form : Form) (start end_ : TimeValue) : Form :=
  { form with
    title := trimSpace (trim form.title.toList)
    start := env.zone.inputText start.val
    end_ := env.zone.inputText end_.val
    submitting := false
    error := none }

end Reopen

private def vera : Session := ⟨"vera", "vera@example.org", "Vera", roleAdmin, none, 0⟩

private def atTen : Env :=
  ⟨10 * hour, 10 * hour, "89abcdef", Char.toUpper, Char.toLower, fun _ => 0⟩

private def ofVera (method : String) (path : List String) (lock : Lock) : Request :=
  ⟨method, path, some vera, ⟨none, none, none, none, some lock, ⟨0, 0, 0⟩⟩, none⟩

/-- The lock starts ten seconds past the hour. -/
private def lateLock : Lock :=
  ⟨"l1", "Freeze", "", "", 10 * second, hour, some ["all"], "manual", "vera", 10 * hour⟩

private def lockDay : List Event :=
  [.login [⟨"vera", "vera@example.org", "Vera", roleAdmin⟩],
    .request atTen (ofVera "POST" ["api", "locks"] { lateLock with createdBy := "" })
      (fun _ h => by cases h) Db.noFaults]

private def withLock : Store := (service.exec Store.empty lockDay).getD Store.empty

private theorem locks_withLock : (catalogue withLock).locks "l1" = some lateLock := by
  decide

private theorem reached_withLock : Reached withLock := ⟨lockDay, rfl⟩

/-- A page an hour to the east of UTC. -/
private def eastPage : Browser := ⟨Zone.fixed 3600000, fun _ => none, ⟨32400000, by decide⟩⟩

private def lateOpened : Form := opened eastPage (some (pageLock (fun _ => 7200) lateLock))

private def midnight : TimeValue := ⟨0, by decide⟩

private def oneOClock : TimeValue := ⟨3600000, by decide⟩

private def saveOf (form : Form) : Request :=
  ofVera "PATCH" ["api", "locks", "l1"] (decodedBody form midnight oneOClock)

private theorem plain_l1 : ApiService.PlainAtEnd "l1" := by decide

private theorem arrives_saveOf (form : Form) :
    Arrives (ApiService.updateLock "l1") (saveOf form) where
  method := rfl
  path := (ApiService.reaches_entry_iff (by decide) "l1").mpr plain_l1
  admin := ⟨vera, rfl, rfl⟩

/-- One of the texts of a body. -/
private theorem first_body (b : LockBody) :
    first (decodeLossy (encodeUtf8 (write b.toValue))) = some b.toValue := by
  have hproducts : WritableItems 1 (b.products.map .str) := by
    induction b.products with
    | nil => exact .nil
    | cons p ps ih => exact .cons (.str p) ih
  have hwritable : Writable 3 b.toValue :=
    .obj (.cons (.str _) (.cons (.str _) (.cons (.str _) (.cons (.str _) (.cons (.str _)
      (.cons (.arr hproducts) (.cons (.str _) .nil)))))))
  have hfirst := first_write rfl hwritable (by decide) []
  rw [List.append_nil] at hfirst
  rw [decodeLossy_encodeUtf8, hfirst]

private theorem read_saved (form : Form) :
    Wire.readBody (Lock.read fun _ => none)
        (encodeUtf8 (write (bodyOf form midnight oneOClock).toValue)) =
      some (decodedBody form midnight oneOClock) := by
  rw [Wire.readBody, first_body]
  exact read_body _ (by decide) (by decide)

/-- The instant is a date of the browser that the minute on its clock stands for. -/
def OnMinute (z : Zone) (t : Int) : Prop :=
  z.ofLocal (cutMinute (z.toLocal (t / 1000000))) * 1000000 = t

/-- The local year has four digits, none of them a leading zero. -/
def FourDigitYear (z : Zone) (t : Int) : Prop :=
  1000 ≤ z.getFullYear (t / 1000000) ∧ z.getFullYear (t / 1000000) ≤ 9999

/-- Where the offset is fixed and in whole minutes, these are the whole minutes. -/
theorem onMinute_fixed {offset : Int} (hoffset : offset % 60000 = 0) (t : Int) :
    OnMinute (Zone.fixed offset) t ↔ t % 60000000000 = 0 := by
  unfold OnMinute Zone.fixed cutMinute
  dsimp only
  omega

/-- What can be written on the wire is in the range of dates. -/
theorem timeClip_writable {offset t : Int} (h : Rfc3339.Writable offset t) :
    ∃ v : TimeValue, v.val = t / 1000000 ∧ timeClip ((t / 1000000 : Int) : ℚ) = some v := by
  obtain ⟨⟨hlow, hhigh⟩, hoffset⟩ := h
  obtain ⟨hfirst, hlast⟩ := Gregorian.newYear_yearOf (Rfc3339.localTime offset t / Rfc3339.nsPerDay)
  have hyear : (Rfc3339.localDate offset t).year =
      Gregorian.yearOf (Rfc3339.localTime offset t / Rfc3339.nsPerDay) := rfl
  rw [← hyear] at hfirst hlast
  have hzero := Gregorian.newYear_mono hlow
  have hend := Gregorian.newYear_mono (show (Rfc3339.localDate offset t).year + 1 ≤ 10000 by omega)
  have e₁ : Gregorian.newYear 0 = -719528 := by decide
  have e₂ : Gregorian.newYear 10000 = 2932897 := by decide
  have hrange : -8640000000000000 ≤ t / 1000000 ∧ t / 1000000 ≤ 8640000000000000 := by
    unfold Rfc3339.localTime Rfc3339.nsPerDay Rfc3339.nsPerSecond at *
    omega
  exact ⟨⟨_, hrange⟩, rfl, timeClip_val ⟨_, hrange⟩⟩

/-- What is opened is read as the minute of what was stored. -/
theorem newDate_toLocalInput {zone : Int → Int} (hzone : WholeMinutes zone) {env : Browser}
    {t : Int} (ht : Rfc3339.Writable (zone t) t) (hyear : FourDigitYear env.zone t)
    {date : TimeValue}
    (h : newDate env (toLocalInput env (Json.timeText zone t).toList) = some date) :
    date.val = env.zone.ofLocal (cutMinute (env.zone.toLocal (t / 1000000))) := by
  obtain ⟨v, hv, hclip⟩ := timeClip_writable ht
  have hminute : newDate env (env.zone.inputText (t / 1000000)) =
      timeClip ((env.zone.ofLocal (cutMinute (env.zone.toLocal (t / 1000000))) : Int) : ℚ) := by
    unfold newDate parseDate
    rw [readDateTime_inputText env.zone _ hyear.1 hyear.2]
  rw [toLocalInput, newDate_timeText hzone ht, hclip] at h
  have hread : newDate env (env.zone.inputText v.val) = some date := h
  rw [hv, hminute] at hread
  exact timeClip_intCast hread

/-! ### The dates of an unedited form -/

section Unedited

variable {zone : Int → Int} {env : Browser} {l : Lock} {start end_ : TimeValue}

/-- What `trim` leaves is part of the text. -/
theorem trim_sublist (cs : List Char) : List.Sublist (trim cs).toList cs := by
  unfold trim
  rw [String.toList_ofList]
  have h := List.dropWhile_sublist jsSpace (l := (cs.dropWhile jsSpace).reverse)
  have h' := List.reverse_sublist.mpr h
  rw [List.reverse_reverse] at h'
  exact h'.trans (List.dropWhile_sublist jsSpace)

/-- Trimming only takes away. -/
theorem trimSpace_sublist (s : String) : List.Sublist (trimSpace s).toList s.toList := by
  unfold trimSpace
  rw [String.toList_ofList]
  have h := List.dropWhile_sublist Api.isSpace (l := (s.toList.dropWhile Api.isSpace).reverse)
  have h' := List.reverse_sublist.mpr h
  rw [List.reverse_reverse] at h'
  exact h'.trans (List.dropWhile_sublist Api.isSpace)

/-- A title goes through both trims as it is only if the first one leaves it. -/
theorem trimSpace_trim_iff {title : String} (h : Trimmed title) :
    trimSpace (trim title.toList) = title ↔ trim title.toList = title := by
  constructor
  · intro heq
    have hlen := (trimSpace_sublist (trim title.toList)).length_le
    rw [heq] at hlen
    exact String.toList_inj.mp ((trim_sublist title.toList).eq_of_length_le hlen)
  · intro heq
    rw [heq, trimSpace_eq h]

/-- **When a form that nothing was done to gives the lock back.** -/
theorem edited_opened_iff (hzone : WholeMinutes zone) (h : l.AsStored)
    (hwritable : Rfc3339.Writable (zone l.startAt) l.startAt ∧
      Rfc3339.Writable (zone l.endAt) l.endAt)
    (hyears : FourDigitYear env.zone l.startAt ∧ FourDigitYear env.zone l.endAt)
    (hstart : newDate env (opened env (some (pageLock zone l))).start = some start)
    (hend : newDate env (opened env (some (pageLock zone l))).end_ = some end_) :
    edited (opened env (some (pageLock zone l))) start end_ l = l ↔
      trim l.title.toList = l.title ∧ OnMinute env.zone l.startAt ∧ OnMinute env.zone l.endAt := by
  rw [opened_start] at hstart
  rw [opened_end] at hend
  have hstartVal := newDate_toLocalInput hzone hwritable.1 hyears.1 hstart
  have hendVal := newDate_toLocalInput hzone hwritable.2 hyears.2 hend
  obtain ⟨ps, hps⟩ := h.products
  have hedited : edited (opened env (some (pageLock zone l))) start end_ l =
      { l with
        title := trimSpace (trim l.title.toList)
        startAt := start.val * 1000000
        endAt := end_.val * 1000000 } := by
    unfold edited opened pageLock
    simp only [Option.map_some, Option.bind_some, Option.getD_some, hps]
  rw [hedited, ← trimSpace_trim_iff h.title]
  unfold OnMinute
  rw [← hstartVal, ← hendVal]
  constructor
  · intro he
    have htitle := congrArg Lock.title he
    have hstart := congrArg Lock.startAt he
    have hend := congrArg Lock.endAt he
    exact ⟨htitle, hstart, hend⟩
  · rintro ⟨htitle, hstart, hend⟩
    rw [htitle, hstart, hend]

end Unedited

/-- The catalogue stays as it is exactly if the lock does. -/
theorem replaced_eq_self_iff {s : Store} {id : String} {l l' : Lock}
    (hl : (catalogue s).locks id = some l) :
    Replaced id l' (catalogue s) = catalogue s ↔ l' = l := by
  constructor
  · intro h
    have hlocks : Function.update (catalogue s).locks id (some l') id = (catalogue s).locks id :=
      congrFun (congrArg Catalogue.locks h) id
    rw [Function.update_self, hl] at hlocks
    exact Option.some.inj hlocks
  · rintro rfl
    have hlocks : Function.update (catalogue s).locks id (some l') = (catalogue s).locks := by
      rw [← hl]
      exact Function.update_eq_self id _
    exact congrArg (fun locks => { catalogue s with locks }) hlocks

/-- **A lock that is opened and saved unedited** stays as it is exactly when JavaScript finds no
white space around its title and both times are minutes that the clock of the browser stands for:
a time within a minute is cut, and of an hour that the clock shows twice only one is kept. In a
zone whose offset is fixed these are the whole minutes. -/
theorem unedited_lock_kept_iff {s : Store} (h : Reached s) {zone : Int → Int}
    (hzone : WholeMinutes zone) (env : Browser) {id : String} (hplain : ApiService.PlainAtEnd id)
    {l : Lock} (hl : (catalogue s).locks id = some l) {text : List Char}
    (htext : l.toJson.encode zone = some text)
    (hyears : FourDigitYear env.zone l.startAt ∧ FourDigitYear env.zone l.endAt) :
    ∃ p, (parse text).bind PageLock.ofValue = some p ∧ ∀ form start end_,
      opened env (some p) = form → newDate env form.start = some start →
      newDate env form.end_ = some end_ → FourDigits start → FourDigits end_ →
      ∀ (other : List Char → Option Int) (octets : List UInt8) (env' : Env) (put : Request)
        (F : Faults Err), first (decodeLossy octets) = some (bodyOf form start end_).toValue →
        Arrives (ApiService.updateLock id) put →
        put.body.lock = Wire.readBody (Lock.read other) octets →
        (respond env' put F ⟨s, 0⟩).1.status = 200 →
          (catalogue (respond env' put F ⟨s, 0⟩).2.store = catalogue s ↔
            trim l.title.toList = l.title ∧ OnMinute env.zone l.startAt ∧
              OnMinute env.zone l.endAt) ∧
          ∀ offset, env.zone = Zone.fixed offset → offset % 60000 = 0 →
            (catalogue (respond env' put F ⟨s, 0⟩).2.store = catalogue s ↔
              trim l.title.toList = l.title ∧ l.startAt % 60000000000 = 0 ∧
                l.endAt % 60000000000 = 0) := by
  refine ⟨pageLock zone l, pageLock_of_text hzone htext, ?_⟩
  rintro form start end_ rfl hstart hend hstartFour hendFour other octets env' put F hoctets hput
    hbody hok
  have hown : l.id = id := (wellFormed_reached h).locks id l hl
  have hstored := (asStored_reached h).locks id l hl
  have hsaved : Saved s id (edited (opened env (some (pageLock zone l))) start end_ l) F
      (respond env' put F ⟨s, 0⟩) :=
    saved_form h hl (hown ▸ hstored.id_ne) hstored.kind hstartFour hendFour hoctets
      (hput.adminRequest hplain) hbody
  have hkept : catalogue (respond env' put F ⟨s, 0⟩).2.store = catalogue s ↔
      trim l.title.toList = l.title ∧ OnMinute env.zone l.startAt ∧ OnMinute env.zone l.endAt := by
    rw [hsaved.acknowledged (by rw [hok]), replaced_eq_self_iff hl]
    exact edited_opened_iff hzone hstored (writable_of_encode htext) hyears hstart hend
  refine ⟨hkept, fun offset hoffset hwhole => ?_⟩
  rw [hkept, hoffset, onMinute_fixed hwhole, onMinute_fixed hwhole]

/-- The lock that starts within a minute is changed by a save without an edit. -/
theorem unedited_lock_kept_iff_late :
    (respond atTen (saveOf lateOpened) Db.noFaults ⟨withLock, 0⟩).1.status = 200 ∧
      catalogue (respond atTen (saveOf lateOpened) Db.noFaults ⟨withLock, 0⟩).2.store ≠
        catalogue withLock := by
  have hzone : WholeMinutes fun _ => 7200 := fun _ => rfl
  have htext : lateLock.toJson.encode (fun _ => 7200) = some _ := if_pos (by decide)
  obtain ⟨p, hp, hform⟩ := unedited_lock_kept_iff reached_withLock hzone eastPage plain_l1
    locks_withLock htext ⟨⟨by decide, by decide⟩, ⟨by decide, by decide⟩⟩
  obtain rfl := Option.some.inj ((pageLock_of_text hzone htext).symm.trans hp)
  have hstatus : (respond atTen (saveOf lateOpened) Db.noFaults ⟨withLock, 0⟩).1.status = 200 := by
    decide +kernel
  obtain ⟨-, hfixed⟩ := hform lateOpened midnight oneOClock rfl (by decide +kernel)
    (by decide +kernel) (by decide) (by decide) (fun _ => none) _ atTen (saveOf lateOpened)
    Db.noFaults (first_body _) (arrives_saveOf lateOpened) (read_saved lateOpened).symm hstatus
  refine ⟨hstatus, fun hkept => ?_⟩
  have hwhole := ((hfixed 3600000 rfl rfl).mp hkept).2.1
  exact absurd hwhole (by decide)

end ReleaseRadar.Frontend.LockForm
