import ReleaseRadar.Lib.GoDuration
import ReleaseRadar.Lib.JsonWrite
import ReleaseRadar.Lib.Rfc1123
import ReleaseRadar.Notify.AdvanceLabel

/-!
# The card of an announcement

What `AnnounceStage` (`backend/internal/teams/teams.go`) posts: a message with one card, whose
body is the title, a set of facts and the external description. `json.Marshal` sorts the keys of
maps and leaves the fields of structs in their order; facts without a value are left out.

`notice` is what the card is there to say. `readNotice` takes it from the text that is posted,
as any reader of JSON, of RFC 1123 dates and of Go's durations would; from that it follows that
two announcements are the same text exactly when they say the same (`announcement_read_back`).
-/

namespace ReleaseRadar.Teams

open Lib Lib.JsonText

/-! ## What is posted -/

structure Fact where
  title : String
  value : String

def factValue (f : Fact) : Value := .obj [("title", .str f.title), ("value", .str f.value)]

/-- The facts that have a value. -/
def factValues (facts : List Fact) : List Value :=
  (facts.filter (·.value ≠ "")).map factValue

def factSet (facts : List Fact) : Value :=
  .obj [("facts", .arr (factValues facts)), ("type", .str "FactSet")]

def textBlock (s : String) (mono : Bool) : Value :=
  .obj ((if mono then [("fontType", .str "Monospace")] else []) ++
    [("text", .str s), ("type", .str "TextBlock"), ("wrap", .bool true)])

def adaptiveCard (title : String) (body : List Value) : Value :=
  .obj [
    ("$schema", .str "http://adaptivecards.io/schemas/adaptive-card.json"),
    ("body", .arr (.obj [("size", .str "Large"), ("text", .str title), ("type", .str "TextBlock"),
      ("weight", .str "Bolder"), ("wrap", .bool true)] :: body)),
    ("type", .str "AdaptiveCard"),
    ("version", .str "1.5")]

/-- What is not empty, with `", "` in between. -/
def joinNonEmpty (xs : List String) : String :=
  xs.foldl (fun out s =>
    if s = "" then out else (if out ≠ "" then out ++ ", " else out) ++ s) ""

def facts (r : Rollout) (stage : RolloutStage) : List Fact := [
  ⟨"Product", r.productId⟩,
  ⟨"Stage", stage.env⟩,
  ⟨"Window", String.ofList (Rfc1123.format (stage.startAt / second))⟩,
  ⟨"Duration", String.ofList (GoDuration.text stage.duration)⟩,
  ⟨"Pair", joinNonEmpty r.pair.items⟩]

/-- The message around the card. -/
def message (r : Rollout) (stage : RolloutStage) (advance : Int) : Value :=
  .obj [
    ("type", .str "message"),
    ("attachments", .arr [.obj [
      ("contentType", .str "application/vnd.microsoft.card.adaptive"),
      ("contentUrl", .null),
      ("content", adaptiveCard (announcementTitle r stage advance)
        [factSet (facts r stage), textBlock r.descExt false])]])]

/-- The body of the request. -/
def requestBody (r : Rollout) (stage : RolloutStage) (advance : Int) : List Char :=
  write (message r stage advance)

/-! ## What it says -/

/-- What an announcement is there to say: the window in whole seconds since 1970, the duration
in nanoseconds. -/
structure Notice where
  title : String
  product : String
  stage : String
  window : Int
  duration : Int
  pair : String
  text : String
deriving DecidableEq

def notice (r : Rollout) (stage : RolloutStage) (advance : Int) : Notice where
  title := announcementTitle r stage advance
  product := r.productId
  stage := stage.env
  window := stage.startAt / second
  duration := stage.duration
  pair := ", ".intercalate (r.pair.items.filter (· ≠ ""))
  text := r.descExt

def valueAt (key : String) : Value → Option Value
  | .obj members => (members.find? (·.1 == key)).map (·.2)
  | _ => none

def textAt (key : String) (v : Value) : String :=
  match valueAt key v with
  | some (.str s) => s
  | _ => ""

def itemsAt (key : String) (v : Value) : List Value :=
  match valueAt key v with
  | some (.arr items) => items
  | _ => []

/-- The value of a fact; empty when there is no such fact. -/
def factOf (facts : List Value) (title : String) : String :=
  ((facts.find? fun f => textAt "title" f == title).map (textAt "value")).getD ""

def noticeOf (heading set text : Value) : Option Notice := do
  let facts := itemsAt "facts" set
  let window ← Rfc1123.read (factOf facts "Window").toList
  let duration ← GoDuration.parse (factOf facts "Duration").toList
  some ⟨textAt "text" heading, factOf facts "Product", factOf facts "Stage", window, duration,
    factOf facts "Pair", textAt "text" text⟩

/-- Reading an announcement. -/
def readNotice (body : List Char) : Option Notice := do
  let message ← parse body
  let attachment ← (itemsAt "attachments" message).head?
  let card ← valueAt "content" attachment
  match itemsAt "body" card with
  | [heading, set, text] => noticeOf heading set text
  | _ => none

/-! ## The pair -/

/-- What comes after `out` in the loop. -/
theorem joinNonEmpty_from (xs : List String) (out : String) :
    xs.foldl (fun out s =>
      if s = "" then out else (if out ≠ "" then out ++ ", " else out) ++ s) out =
        ", ".intercalate ((out :: xs).filter (· ≠ "")) := by
  induction xs generalizing out with
  | nil =>
    by_cases hout : out = ""
    · rw [hout]
      rfl
    · rw [List.filter_cons_of_pos (by simpa using hout)]
      rfl
  | cons s xs ih =>
    rw [List.foldl_cons, ih]
    by_cases hs : s = ""
    · simp [hs, List.filter_cons]
    · by_cases hout : out = ""
      · simp [hs, hout]
      · rw [if_neg hs, if_pos hout, List.filter_cons_of_pos (by simp [hout]),
          List.filter_cons_of_pos (by simpa using hout),
          List.filter_cons_of_pos (by simpa using hs)]
        rfl

/-- Empty members are left out, the others joined by a comma. -/
theorem joinNonEmpty_eq (xs : List String) :
    joinNonEmpty xs = ", ".intercalate (xs.filter (· ≠ "")) := by
  unfold joinNonEmpty
  rw [joinNonEmpty_from, List.filter_cons_of_neg (by simp)]

/-! ## Facts -/

theorem textAt_title (f : Fact) : textAt "title" (factValue f) = f.title := rfl

theorem textAt_value (f : Fact) : textAt "value" (factValue f) = f.value := rfl

/-- A fact with a value is found under its title. -/
theorem factOf_cons (f : Fact) (fs : List Fact) (title : String) :
    factOf (factValues (f :: fs)) title =
      if f.value ≠ "" ∧ f.title = title then f.value else factOf (factValues fs) title := by
  unfold factValues
  by_cases hvalue : f.value = ""
  · rw [List.filter_cons_of_neg (by simp [hvalue]), if_neg (fun h => h.1 hvalue)]
  · rw [List.filter_cons_of_pos (by simp [hvalue]), List.map_cons]
    unfold factOf
    by_cases htitle : f.title = title
    · rw [List.find?_cons_of_pos (by rw [textAt_title, htitle]; exact beq_self_eq_true _),
        if_pos ⟨hvalue, htitle⟩]
      exact textAt_value f
    · rw [List.find?_cons_of_neg (by rw [textAt_title]; simpa using htitle),
        if_neg fun h => htitle h.2]

/-- A title that is not there has no value. -/
theorem factOf_absent {fs : List Fact} {title : String} (h : title ∉ fs.map Fact.title) :
    factOf (factValues fs) title = "" := by
  induction fs with
  | nil => rfl
  | cons f fs ih =>
    rw [List.map_cons, List.mem_cons, not_or] at h
    rw [factOf_cons, if_neg fun hf => h.1 hf.2.symm]
    exact ih h.2

/-- A fact is found under its title; one that is left out has nothing to say. -/
theorem factOf_facts {fs : List Fact} (h : (fs.map Fact.title).Nodup) {f : Fact} (hf : f ∈ fs) :
    factOf (factValues fs) f.title = f.value := by
  induction fs with
  | nil => cases hf
  | cons g fs ih =>
    obtain ⟨hnew, hrest⟩ := List.nodup_cons.mp h
    rw [factOf_cons]
    rcases List.mem_cons.mp hf with rfl | hf
    · split
      · rfl
      · next hout =>
        rw [factOf_absent hnew]
        by_contra hne
        exact hout ⟨fun he => hne he.symm, rfl⟩
    · have hother : g.title ≠ f.title := fun he => hnew (he ▸ List.mem_map_of_mem hf)
      rw [if_neg fun hg => hother hg.2]
      exact ih hrest hf

/-- No title is there twice. -/
theorem nodup_facts (r : Rollout) (stage : RolloutStage) :
    ((facts r stage).map Fact.title).Nodup := by
  show ["Product", "Stage", "Window", "Duration", "Pair"].Nodup
  decide

/-! ## Read back -/

/-- The facts can be written. -/
theorem writable_factValues (fs : List Fact) : WritableItems 1 (factValues fs) := by
  unfold factValues
  induction fs.filter (·.value ≠ "") with
  | nil => exact .nil
  | cons f fs ih => exact .cons (.obj (.cons (.str _) (.cons (.str _) .nil))) ih

/-- The message can, within the depth of its card. -/
theorem writable_message (r : Rollout) (stage : RolloutStage) (advance : Int) :
    Writable 8 (message r stage advance) := by
  have hfacts : Writable 3 (factSet (facts r stage)) :=
    .obj (.cons (.arr (writable_factValues _)) (.cons (.str _) .nil))
  have htext : Writable 3 (textBlock r.descExt false) :=
    .obj (.cons (.str _) (.cons (.str _) (.cons (.bool _) .nil)))
  have hcard : Writable 5 (adaptiveCard (announcementTitle r stage advance)
      [factSet (facts r stage), textBlock r.descExt false]) := by
    refine .obj (.cons (.str _) (.cons (.arr (.cons ?_ (.cons hfacts (.cons htext .nil))))
      (.cons (.str _) (.cons (.str _) .nil))))
    exact .obj (.cons (.str _) (.cons (.str _) (.cons (.str _) (.cons (.str _)
      (.cons (.bool _) .nil)))))
  refine .obj (.cons (.str _) (.cons (.arr (.cons ?_ .nil)) .nil))
  exact .obj (.cons (.str _) (.cons .null (.cons hcard .nil)))

/-- What is posted reads as the notice. -/
theorem readNotice_requestBody {r : Rollout} {stage : RolloutStage} {advance : Int}
    (h : GoDuration.Fits stage.duration) :
    readNotice (requestBody r stage advance) = some (notice r stage advance) := by
  have hparse : parse (requestBody r stage advance) = some (message r stage advance) := by
    have hwritten := @parse_write 8 (message r stage advance) rfl (writable_message r stage advance)
      (by decide) [] nofun
    rwa [List.append_nil] at hwritten
  have hfact : ∀ f ∈ facts r stage, factOf (factValues (facts r stage)) f.title = f.value :=
    fun f hf => factOf_facts (nodup_facts r stage) hf
  have hproduct : factOf (factValues (facts r stage)) "Product" = r.productId :=
    hfact ⟨"Product", _⟩ (.head _)
  have hstage : factOf (factValues (facts r stage)) "Stage" = stage.env :=
    hfact ⟨"Stage", _⟩ (.tail _ (.head _))
  have hwindow : factOf (factValues (facts r stage)) "Window" =
      String.ofList (Rfc1123.format (stage.startAt / second)) :=
    hfact ⟨"Window", _⟩ (.tail _ (.tail _ (.head _)))
  have hduration : factOf (factValues (facts r stage)) "Duration" =
      String.ofList (GoDuration.text stage.duration) :=
    hfact ⟨"Duration", _⟩ (.tail _ (.tail _ (.tail _ (.head _))))
  have hpair : factOf (factValues (facts r stage)) "Pair" = joinNonEmpty r.pair.items :=
    hfact ⟨"Pair", _⟩ (.tail _ (.tail _ (.tail _ (.tail _ (.head _)))))
  have hbody : readNotice (requestBody r stage advance) =
      noticeOf (.obj [("size", .str "Large"), ("text", .str (announcementTitle r stage advance)),
        ("type", .str "TextBlock"), ("weight", .str "Bolder"), ("wrap", .bool true)])
        (factSet (facts r stage)) (textBlock r.descExt false) := by
    rw [readNotice, hparse]
    simp [message, adaptiveCard, itemsAt, valueAt]
  rw [hbody, noticeOf]
  have hitems : itemsAt "facts" (factSet (facts r stage)) = factValues (facts r stage) := rfl
  simp only [hitems, hproduct, hstage, hwindow, hduration, hpair, String.toList_ofList,
    Rfc1123.read_format, GoDuration.parse_text h, Option.bind_eq_bind, Option.bind_some,
    joinNonEmpty_eq]
  rfl

/-- Two announcements are the same text exactly when they say the same. -/
theorem requestBody_inj_iff {r r' : Rollout} {stage stage' : RolloutStage} {advance advance' : Int}
    (h : GoDuration.Fits stage.duration) (h' : GoDuration.Fits stage'.duration) :
    requestBody r stage advance = requestBody r' stage' advance' ↔
      notice r stage advance = notice r' stage' advance' := by
  constructor
  · intro hbody
    have hread := congrArg readNotice hbody
    rw [readNotice_requestBody h, readNotice_requestBody h'] at hread
    exact Option.some.inj hread
  · intro hnotice
    obtain ⟨htitle, hproduct, hstage, hwindow, hduration, hpair, htext⟩ := Notice.mk.inj hnotice
    unfold requestBody message facts
    rw [htitle, hproduct, hstage, hwindow, hduration, joinNonEmpty_eq, joinNonEmpty_eq, hpair,
      htext]

/-- **An announcement says what it is there to say, and nothing else**: the text that is posted
reads as its notice, and any other announcement with the same notice is the same text. -/
theorem announcement_read_back {r : Rollout} {stage : RolloutStage} {advance : Int}
    (h : GoDuration.Fits stage.duration) :
    readNotice (requestBody r stage advance) = some (notice r stage advance) ∧
      ∀ r' stage' advance', GoDuration.Fits stage'.duration →
        (requestBody r stage advance = requestBody r' stage' advance' ↔
          notice r stage advance = notice r' stage' advance') :=
  ⟨readNotice_requestBody h, fun _ _ _ h' => requestBody_inj_iff h h'⟩

/-- A rollout of one stage, with an empty name in its pair and a start within a second, or
without them. -/
def brokerAuth (exact : Bool) : Rollout where
  id := "r1"
  productId := "operator"
  typeId := "operator-feature"
  title := "Broker auth"
  descExt := "Expect latency."
  descInt := ""
  risks := ""
  stages := some [⟨"prod1", if exact then hour else hour + 1, 90 * minute, "scheduled"⟩]
  pair := some (if exact then ["ann", "bob"] else ["ann", "", "bob"])
  tasks := none
  createdAt := 0
  updatedAt := 0
  createdBy := "ann"

theorem announcement_read_back_brokerAuth :
    readNotice (requestBody (brokerAuth true) ⟨"prod1", hour, 90 * minute, "scheduled"⟩ hour) =
        some ⟨"Rollout Broker auth — prod1 in 1h", "operator", "prod1", 3600, 5400000000000,
          "ann, bob", "Expect latency."⟩ ∧
      requestBody (brokerAuth true) ⟨"prod1", hour, 90 * minute, "scheduled"⟩ hour =
        requestBody (brokerAuth false) ⟨"prod1", hour + 1, 90 * minute, "scheduled"⟩ hour := by
  obtain ⟨hread, hsame⟩ := @announcement_read_back (brokerAuth true)
    ⟨"prod1", hour, 90 * minute, "scheduled"⟩ hour (by decide)
  refine ⟨hread.trans (by decide), (hsame _ _ _ (by decide)).mpr (by decide)⟩

end ReleaseRadar.Teams
