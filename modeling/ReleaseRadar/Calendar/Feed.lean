import Mathlib.Data.List.Forall2
import ReleaseRadar.Calendar.Ics
import ReleaseRadar.Lib.ContentLine
import ReleaseRadar.Lib.Decimal

/-!
# What a reader of the feed gets

The feed of `WriteICS`, read by RFC 5545 (`Lib.ContentLine`). It decodes to the
rollouts (`Decodes`) when there is one VCALENDAR with one VEVENT per rollout and
stage, in order, with the properties `WriteICS` names and no others, the UIDs
are those of the stages and pairwise distinct, and SUMMARY and DESCRIPTION give
the stored text back, line breaks in one style.

`feed_decodes_iff`: it does exactly when no field holds a control character that
reaches the output (`Writable`). `escape` takes care of line breaks, and SUMMARY
and DESCRIPTION go through it; the UID does not, and an id is chosen by the
client, so that one with a CRLF writes properties and events of its own
(`event_forged`).
-/

namespace ReleaseRadar.Calendar

open Lib Lib.ContentLine Lib.Decimal

/-! ## The specification -/

/-- A stage of a rollout, by its index. -/
structure Slot where
  rollout : Rollout
  stage : RolloutStage
  index : Nat

def slotsOf (r : Rollout) : List Slot := r.stages.items.zipIdx.map fun st => ⟨r, st.1, st.2⟩

def slots (rollouts : List Rollout) : List Slot := rollouts.flatMap slotsOf

namespace Slot

def uid (s : Slot) : String := s.rollout.id ++ "-" ++ toString s.index ++ "@releaseradar"

def summary (s : Slot) : String :=
  "[" ++ s.stage.env ++ "] " ++ s.rollout.productId ++ " — " ++ s.rollout.title

end Slot

/-- A text with every CRLF, CR and LF read as one line break. -/
def breaks : List Char → List Char
  | [] => []
  | '\r' :: '\n' :: cs => '\n' :: breaks cs
  | '\r' :: cs => '\n' :: breaks cs
  | c :: cs => c :: breaks cs

/-- The value is the text. -/
def Shows (value : Option String) (text : String) : Prop :=
  value.bind (fun v => decodeText v.toList) = some (breaks text.toList)

/-- The properties `WriteICS` names, in order. -/
def calendarNames : List String :=
  ["VERSION", "PRODID", "CALSCALE", "METHOD", "X-WR-CALNAME", "X-WR-TIMEZONE"]

def eventNames (r : Rollout) : List String :=
  ["UID", "DTSTAMP", "DTSTART", "DTEND", "SUMMARY"]
  ++ (if r.descExt = "" then [] else ["DESCRIPTION"]) ++ ["STATUS"]

/-- The VEVENT of a stage. -/
structure IsEvent (s : Slot) (it : Item) : Prop where
  shape : ∃ ps : List Property, it = .component "VEVENT" (ps.map .property) ∧
    ps.map (·.name) = eventNames s.rollout ∧ ∀ p ∈ ps, p.params = []
  uid : it.value "UID" = some s.uid
  start : it.value "DTSTART" = some (iso s.stage.startAt)
  end_ : it.value "DTEND" = some (iso (endOf s.stage))
  summary : Shows (it.value "SUMMARY") s.summary
  description : s.rollout.descExt ≠ "" → Shows (it.value "DESCRIPTION") s.rollout.descExt
  status : it.value "STATUS" = some (statusICS s.stage.status)

/-- The octets decode to the rollouts. -/
def Decodes (rollouts : List Rollout) (octets : List UInt8) : Prop :=
  ∃ (head : List Property) (events : List Item),
    parse octets = some [.component "VCALENDAR" (head.map .property ++ events)] ∧
    head.map (·.name) = calendarNames ∧ List.Forall₂ IsEvent (slots rollouts) events ∧
    events.Pairwise fun e e' => e.value "UID" ≠ e'.value "UID"

/-! ## Escaping -/

/-- **A reader gets the text back.** -/
theorem decodeText_escapeChars (cs : List Char) :
    decodeText (escapeChars cs) = some (breaks cs) := by
  fun_induction escapeChars cs with
  | case1 => rfl
  | case4 cs hlf ih =>
    rw [breaks.eq_3 cs hlf]
    simp [decodeText, ih]
  | case8 c cs hbs hcrlf hcr hlf hcomma hsemi ih =>
    rw [breaks.eq_4 c cs hcrlf hcr,
      decodeText.eq_10 c _ (fun _ he _ => hbs he) (fun _ he _ => hbs he) (fun _ he _ => hbs he)
        (fun _ he _ => hbs he) (fun _ he _ => hbs he) hbs hcomma hsemi, ih]
    rfl
  | case2 cs ih | case3 cs ih | case5 cs ih | case6 cs ih | case7 cs ih =>
    simp [decodeText, breaks, ih]

/-- A character that `escape` writes as it is may be in a value. -/
def isTextChar (c : Char) : Bool := isValueChar c || c == '\r' || c == '\n'

/-- What is escaped can stand in a value. -/
theorem escapeChars_value {cs : List Char} (h : ∀ c ∈ cs, isTextChar c) :
    ∀ c ∈ escapeChars cs, isValueChar c := by
  fun_induction escapeChars cs with
  | case1 => simp
  | case8 c cs hbs hcrlf hcr hlf hcomma hsemi ih =>
    have hc := h c (List.mem_cons_self ..)
    have hvalue : isValueChar c := by
      simpa [isTextChar, show c ≠ '\r' from hcr, show c ≠ '\n' from hlf] using hc
    intro d hd
    rcases List.mem_cons.mp hd with rfl | hd
    · exact hvalue
    · exact ih (fun e he => h e (List.mem_cons_of_mem _ he)) d hd
  | case3 cs ih =>
    intro d hd
    rcases List.mem_cons.mp hd with rfl | hd
    · decide
    · rcases List.mem_cons.mp hd with rfl | hd
      · decide
      · exact ih (fun e he => h e (by simp [he])) d hd
  | case2 cs ih | case4 cs hlf ih | case5 cs ih | case6 cs ih | case7 cs ih =>
    intro d hd
    rcases List.mem_cons.mp hd with rfl | hd
    · decide
    · rcases List.mem_cons.mp hd with rfl | hd
      · decide
      · exact ih (fun e he => h e (List.mem_cons_of_mem _ he)) d hd

/-- What is not a CR is still there. -/
theorem mem_breaks {cs : List Char} {c : Char} (h : c ∈ cs) : c ∈ breaks cs ∨ c = '\r' := by
  fun_induction breaks cs with
  | case1 => cases h
  | case2 cs ih =>
    rcases List.mem_cons.mp h with rfl | h
    · exact Or.inr rfl
    · rcases List.mem_cons.mp h with rfl | h
      · exact Or.inl (List.mem_cons_self ..)
      · exact (ih h).imp_left (List.mem_cons_of_mem _)
  | case3 cs hlf ih =>
    rcases List.mem_cons.mp h with rfl | h
    · exact Or.inr rfl
    · exact (ih h).imp_left (List.mem_cons_of_mem _)
  | case4 d cs _ _ ih =>
    rcases List.mem_cons.mp h with rfl | h
    · exact Or.inl (List.mem_cons_self ..)
    · exact (ih h).imp_left (List.mem_cons_of_mem _)

/-! ## Folding -/

/-- The chunks put together are the line. -/
theorem splitLoop_flatten (n fuel : Nat) (s : List UInt8) : (splitLoop n fuel s).flatten = s := by
  induction fuel generalizing s with
  | zero => simp [splitLoop]
  | succ fuel ih =>
    unfold splitLoop
    split
    · simp
    · rw [List.flatten_cons, ih, List.take_append_drop]

/-- An empty line is one empty chunk. -/
theorem splitLoop_ne_nil (n fuel : Nat) (s : List UInt8) : splitLoop n fuel s ≠ [] := by
  cases fuel with
  | zero => simp [splitLoop]
  | succ fuel =>
    unfold splitLoop
    split <;> simp

/-- The first chunk is the beginning of the line. -/
theorem splitLoop_head {n fuel : Nat} (hn : 0 < n) {s first : List UInt8}
    {rest : List (List UInt8)} (h : splitLoop n fuel s = first :: rest) :
    first.head? = s.head? := by
  have htake : ∀ k, 0 < k → (s.take k).head? = s.head? := by
    intro k hk
    cases s with
    | nil => rw [List.take_nil]
    | cons b s =>
      obtain ⟨k, rfl⟩ := Nat.exists_eq_succ_of_ne_zero (Nat.ne_of_gt hk)
      rfl
  cases fuel with
  | zero => rw [← (List.cons.inj h).1]
  | succ fuel =>
    unfold splitLoop at h
    split at h
    · rw [← (List.cons.inj h).1]
    · rw [← (List.cons.inj h).1]
      apply htake
      unfold cutAt
      split
      · exact hn
      · omega

/-- `folder.Line` writes the chunks as one folded line. -/
theorem lineOctets_eq_folded (s : List UInt8) : lineOctets s = folded (splitLine s 73) := by
  have hrest : ∀ (first : List UInt8) (rest : List (List UInt8)),
      first ++ crlf ++ rest.flatMap (fun chunk => utf8 " " ++ chunk ++ crlf) =
        folded (first :: rest) := by
    intro first rest
    induction rest generalizing first with
    | nil =>
      rw [folded, List.flatMap_nil, List.append_nil]
      rfl
    | cons next rest ih =>
      rw [folded, ← ih next, List.flatMap_cons]
      · simp only [List.append_assoc]
        rfl
      · simp
  unfold lineOctets
  split
  · next h => rw [h, folded]
  · next first rest h => rw [h, hrest]

theorem line_eq_folded (s : String) : line s = folded (splitLine (utf8 s) 73) :=
  lineOctets_eq_folded (utf8 s)

/-- **A line of the feed unfolds to itself.** -/
theorem unfolded_line {s : String} {rest : List UInt8} (h : '\r' ∉ s.toList)
    (hrest : Begins rest) :
    unfolded (line s ++ rest) = utf8 s ++ [cr, lf] ++ unfolded rest := by
  have hflat : (splitLine (utf8 s) 73).flatten = utf8 s := splitLoop_flatten ..
  have hne : splitLine (utf8 s) 73 ≠ [] := splitLoop_ne_nil _ _ _
  rw [line_eq_folded, unfolded_folded hne ?_ hrest, hflat]
  intro chunk hchunk hcr
  have hmem : cr ∈ utf8 s := hflat ▸ List.mem_flatten.mpr ⟨chunk, hchunk, hcr⟩
  exact cr_not_mem_encodeUtf8 h hmem

/-- A line starts as its text does. -/
theorem head_line (s : String) (rest : List UInt8) (h : utf8 s ≠ []) :
    (line s ++ rest).head? = (utf8 s).head? := by
  have hne := splitLoop_ne_nil 73 (utf8 s).length (utf8 s)
  unfold line lineOctets splitLine
  split
  · next he => exact absurd he hne
  · next first chunks he =>
    have hhead := splitLoop_head (by decide) he
    cases first with
    | nil =>
      rw [List.head?_nil] at hhead
      exact absurd (List.head?_eq_none_iff.mp hhead.symm) h
    | cons b first => exact hhead

/-! ## Lines of properties -/

/-- The line a property is written as, when it has no parameters. -/
def render (p : Property) : String := p.name ++ ":" ++ p.value

/-- The grammar allows the property. -/
structure Renders (p : Property) : Prop where
  params : p.params = []
  nonempty : p.name.toList ≠ []
  name : ∀ c ∈ p.name.toList, isNameChar c
  upper : nameOf p.name.toList = p.name
  value : ∀ c ∈ p.value.toList, isValueChar c

/-- A property without parameters is its name, a colon and its value. -/
theorem toList_render (p : Property) :
    (render p).toList = p.name.toList ++ ':' :: p.value.toList := by
  simp [render]

/-- Such a line has no carriage return in it. -/
theorem Renders.no_cr {p : Property} (h : Renders p) : '\r' ∉ (render p).toList := by
  rw [toList_render]
  intro hm
  rcases List.mem_append.mp hm with hm | hm
  · exact absurd (h.name _ hm) (by decide)
  · rcases List.mem_cons.mp hm with hm | hm
    · exact absurd hm (by decide)
    · exact absurd (h.value _ hm) (by decide)

/-- A line does not begin with white space. -/
theorem Renders.begins {p : Property} (h : Renders p) (rest : List UInt8) :
    Begins (line (render p) ++ rest) := by
  obtain ⟨c, cs, hc⟩ := List.exists_cons_of_ne_nil h.nonempty
  have hname : isNameChar c := h.name c (hc ▸ List.mem_cons_self ..)
  have hutf8 : utf8 (render p) = String.utf8EncodeChar c ++
      encodeUtf8 (cs ++ ':' :: p.value.toList) := by
    rw [show utf8 (render p) = encodeUtf8 (render p).toList from rfl, toList_render, hc]
    rfl
  have hne : utf8 (render p) ≠ [] := by
    rw [hutf8]
    exact fun he => String.utf8EncodeChar_ne_nil (List.append_eq_nil_iff.mp he).1
  intro b hb
  obtain ⟨d, ds, hd⟩ := List.exists_cons_of_ne_nil (@String.utf8EncodeChar_ne_nil c)
  rw [head_line _ _ hne, hutf8, hd] at hb
  have hmem : b ∈ String.utf8EncodeChar c := by
    obtain rfl := Option.some.inj hb
    rw [hd]
    exact List.mem_cons_self ..
  constructor
  · intro he
    subst he
    have hspace : c = ' ' :=
      Char.ext (UInt32.toNat.inj (toNat_of_mem_utf8EncodeChar (by decide) hmem))
    rw [hspace] at hname
    exact absurd hname (by decide)
  · intro he
    subst he
    have htab : c = '\t' :=
      Char.ext (UInt32.toNat.inj (toNat_of_mem_utf8EncodeChar (by decide) hmem))
    rw [htab] at hname
    exact absurd hname (by decide)

/-- **A reader of written properties gets them.** -/
theorem parse_render {ps : List Property} (h : ∀ p ∈ ps, Renders p) :
    parse ((ps.map render).flatMap line) = assemble [] [] ps := by
  have hunfold : unfolded ((ps.map render).flatMap line) =
      ps.flatMap fun p => utf8 (render p) ++ [cr, lf] := by
    induction ps with
    | nil => rfl
    | cons p ps ih =>
      have hrest : Begins ((ps.map render).flatMap line) := by
        cases ps with
        | nil =>
          intro b hb
          cases hb
        | cons q ps => exact (h q (by simp)).begins _
      rw [List.map_cons, List.flatMap_cons, unfolded_line (h p (by simp)).no_cr hrest,
        ih fun q hq => h q (List.mem_cons_of_mem _ hq), List.flatMap_cons]
  have hlines : lines (ps.flatMap fun p => utf8 (render p) ++ [cr, lf]) =
      some (ps.map fun p => utf8 (render p)) := by
    clear hunfold
    induction ps with
    | nil => rfl
    | cons p ps ih =>
      have hcr : cr ∉ utf8 (render p) := cr_not_mem_encodeUtf8 (h p (by simp)).no_cr
      rw [List.flatMap_cons, lines_cons hcr, ih fun q hq => h q (List.mem_cons_of_mem _ hq)]
      rfl
  have hprops : properties (ps.map fun p => utf8 (render p)) = some ps := by
    clear hunfold hlines
    induction ps with
    | nil => rfl
    | cons p ps ih =>
      refine properties_cons ?_ (ih fun q hq => h q (List.mem_cons_of_mem _ hq))
      have hp := h p (List.mem_cons_self ..)
      have hdecode : decodeUtf8 (utf8 (render p)) = some (render p).toList :=
        decodeUtf8_encodeUtf8 _
      rw [hdecode, Option.bind_some, toList_render,
        contentLine_property hp.nonempty hp.name hp.value, hp.upper, ← hp.params]
  unfold parse
  rw [hunfold, hlines]
  dsimp only
  rw [hprops]

/-! ## The feed as properties -/

def calendarProperties : List Property :=
  [⟨"VERSION", [], "2.0"⟩, ⟨"PRODID", [], "-//ReleaseRadar//EN"⟩, ⟨"CALSCALE", [], "GREGORIAN"⟩,
    ⟨"METHOD", [], "PUBLISH"⟩, ⟨"X-WR-CALNAME", [], "ReleaseRadar Rollouts"⟩,
    ⟨"X-WR-TIMEZONE", [], "UTC"⟩]

def eventProperties (now : Int) (s : Slot) : List Property :=
  [⟨"UID", [], s.uid⟩, ⟨"DTSTAMP", [], iso now⟩, ⟨"DTSTART", [], iso s.stage.startAt⟩,
    ⟨"DTEND", [], iso (endOf s.stage)⟩, ⟨"SUMMARY", [], escape s.summary⟩]
  ++ (if s.rollout.descExt = "" then [] else [⟨"DESCRIPTION", [], escape s.rollout.descExt⟩])
  ++ [⟨"STATUS", [], statusICS s.stage.status⟩]

/-- BEGIN, the properties and END. -/
def componentLines (name : String) (ps : List Property) : List Property :=
  ⟨"BEGIN", [], name⟩ :: (ps ++ [⟨"END", [], name⟩])

def feedProperties (now : Int) (rollouts : List Rollout) : List Property :=
  ⟨"BEGIN", [], "VCALENDAR"⟩ :: (calendarProperties ++
    (slots rollouts).flatMap (fun s => componentLines "VEVENT" (eventProperties now s)) ++
    [⟨"END", [], "VCALENDAR"⟩])

/-- The lines of an event are those of its properties, between its delimiters. -/
theorem event_eq (now : Int) (r : Rollout) (st : RolloutStage) (i : Nat) :
    event now r st i =
      (componentLines "VEVENT" (eventProperties now ⟨r, st, i⟩)).map render := by
  unfold event componentLines eventProperties
  by_cases hd : r.descExt = ""
  · simp [hd, render, Slot.uid, Slot.summary, String.append_assoc]
  · simp [hd, render, Slot.uid, Slot.summary, String.append_assoc]

/-- The events of a rollout, one for each of its stages. -/
theorem events_eq (now : Int) (r : Rollout) :
    events now r = ((slotsOf r).flatMap fun s =>
      componentLines "VEVENT" (eventProperties now s)).map render := by
  unfold events slotsOf
  rw [List.flatMap_map, List.map_flatMap]
  congr 1
  funext st
  exact event_eq now r st.1 st.2

/-- The lines of the feed are those of its properties. -/
theorem feed_eq (now : Int) (rollouts : List Rollout) :
    feed now rollouts = (feedProperties now rollouts).map render := by
  have hevents : rollouts.flatMap (events now) = ((slots rollouts).flatMap fun s =>
      componentLines "VEVENT" (eventProperties now s)).map render := by
    unfold slots
    rw [List.flatMap_assoc, List.map_flatMap]
    congr 1
    funext r
    exact events_eq now r
  unfold feed feedProperties
  rw [hevents]
  simp [calendarProperties, render]

/-! ## Characters of the fields -/

theorem isValueChar_of_isDigit {c : Char} (h : c.isDigit) : isValueChar c := by
  rw [Char.isDigit_iff_toNat] at h
  have hlow : 48 ≤ c.toNat := h.1
  have hhigh : c.toNat ≤ 57 := h.2
  simp [isValueChar, isControl]
  omega

/-- A padded number can stand in a value. -/
theorem padded_value (width : Nat) (n : Int) :
    ∀ c ∈ (padded width n).toList, isValueChar c := by
  intro c hc
  simp only [padded, String.toList_append, List.mem_append] at hc
  rcases hc with (hc | hc) | hc
  · split at hc
    · obtain rfl : c = '-' := by simpa using hc
      decide
    · simp at hc
  · rw [String.toList_ofList] at hc
    obtain rfl := List.eq_of_mem_replicate hc
    decide
  · exact isValueChar_of_isDigit (isDigit_of_mem_toString hc)

/-- So can a time stamp. -/
theorem iso_value (t : Int) : ∀ c ∈ (iso t).toList, isValueChar c := by
  intro c hc
  simp only [iso, String.toList_append, List.mem_append] at hc
  rcases hc with ((((((hc | hc) | hc) | hc) | hc) | hc) | hc) | hc
  · exact padded_value _ _ c hc
  · exact padded_value _ _ c hc
  · exact padded_value _ _ c hc
  · obtain rfl : c = 'T' := by simpa using hc
    decide
  · exact padded_value _ _ c hc
  · exact padded_value _ _ c hc
  · exact padded_value _ _ c hc
  · obtain rfl : c = 'Z' := by simpa using hc
    decide

/-- So can the status, whatever was stored. -/
theorem statusICS_value (status : String) : ∀ c ∈ (statusICS status).toList, isValueChar c := by
  unfold statusICS
  split <;> exact List.all_eq_true.mp (by decide)

/-- So can an escaped text without control characters. -/
theorem escape_value {s : String} (h : ∀ c ∈ s.toList, isTextChar c) :
    ∀ c ∈ (escape s).toList, isValueChar c := by
  rw [escape, String.toList_ofList]
  exact escapeChars_value h

/-- The fields that a slot's event is made of can be written. -/
structure Slot.Writable (s : Slot) : Prop where
  id : ∀ c ∈ s.rollout.id.toList, isValueChar c
  env : ∀ c ∈ s.stage.env.toList, isTextChar c
  productId : ∀ c ∈ s.rollout.productId.toList, isTextChar c
  title : ∀ c ∈ s.rollout.title.toList, isTextChar c
  descExt : ∀ c ∈ s.rollout.descExt.toList, isTextChar c

instance (s : Slot) : Decidable s.Writable :=
  decidable_of_iff (s.rollout.id.toList.all isValueChar ∧ s.stage.env.toList.all isTextChar ∧
      s.rollout.productId.toList.all isTextChar ∧ s.rollout.title.toList.all isTextChar ∧
      s.rollout.descExt.toList.all isTextChar) <| by
    simp only [List.all_eq_true]
    exact ⟨fun ⟨h₁, h₂, h₃, h₄, h₅⟩ => ⟨h₁, h₂, h₃, h₄, h₅⟩,
      fun h => ⟨h.id, h.env, h.productId, h.title, h.descExt⟩⟩

/-- The id of the rollout, the number of the stage and the domain. -/
theorem toList_uid (s : Slot) :
    s.uid.toList = s.rollout.id.toList ++ '-' ::
      ((toString s.index).toList ++ "@releaseradar".toList) := by
  simp [Slot.uid]

/-- The stage in brackets, the product and the title. -/
theorem toList_summary (s : Slot) :
    s.summary.toList = '[' :: (s.stage.env.toList ++ (']' :: ' ' :: (s.rollout.productId.toList ++
      (" — ".toList ++ s.rollout.title.toList)))) := by
  simp [Slot.summary]

/-- The UID is not escaped, so it can stand in a line exactly when the id of the rollout can. -/
theorem uid_value {s : Slot} :
    (∀ c ∈ s.uid.toList, isValueChar c) ↔ ∀ c ∈ s.rollout.id.toList, isValueChar c := by
  have hdomain : ∀ c ∈ "@releaseradar".toList, isValueChar c :=
    List.all_eq_true.mp (by decide)
  rw [toList_uid]
  constructor
  · intro h c hc
    exact h c (List.mem_append_left _ hc)
  · intro h c hc
    rcases List.mem_append.mp hc with hc | hc
    · exact h c hc
    · rcases List.mem_cons.mp hc with rfl | hc
      · decide
      · rcases List.mem_append.mp hc with hc | hc
        · exact isValueChar_of_isDigit (isDigit_of_mem_toString hc)
        · exact hdomain c hc

/-- A summary is a text when its three parts are. -/
theorem summary_text {s : Slot} :
    (∀ c ∈ s.summary.toList, isTextChar c) ↔ (∀ c ∈ s.stage.env.toList, isTextChar c) ∧
      (∀ c ∈ s.rollout.productId.toList, isTextChar c) ∧
      ∀ c ∈ s.rollout.title.toList, isTextChar c := by
  have hopen : isTextChar '[' := by decide
  have hclose : isTextChar ']' := by decide
  have hblank : isTextChar ' ' := by decide
  have hdash : ∀ c ∈ " — ".toList, isTextChar c := List.all_eq_true.mp (by decide)
  rw [toList_summary]
  simp only [List.forall_mem_cons, List.forall_mem_append, hopen, hclose, hblank, true_and]
  exact ⟨fun h => ⟨h.1, h.2.1, h.2.2.2⟩, fun h => ⟨h.1, h.2.1, fun c hc => hdash c hc, h.2.2⟩⟩

/-! ## Reading the feed -/

theorem renders_mk {name value : String} (hname : name.toList ≠ [] ∧
    name.toList.all isNameChar ∧ nameOf name.toList = name)
    (hvalue : ∀ c ∈ value.toList, isValueChar c) : Renders ⟨name, [], value⟩ :=
  ⟨rfl, hname.1, List.all_eq_true.mp hname.2.1, hname.2.2, hvalue⟩

/-- Every line of an event can be read back. -/
theorem eventProperties_renders {now : Int} {s : Slot} (h : s.Writable) :
    ∀ p ∈ eventProperties now s, Renders p := by
  intro p hp
  simp only [eventProperties, List.mem_append, List.mem_cons, List.not_mem_nil, or_false] at hp
  rcases hp with ((rfl | rfl | rfl | rfl | rfl) | hp) | rfl
  · exact renders_mk (by decide) (uid_value.mpr h.id)
  · exact renders_mk (by decide) (iso_value _)
  · exact renders_mk (by decide) (iso_value _)
  · exact renders_mk (by decide) (iso_value _)
  · exact renders_mk (by decide) (escape_value (summary_text.mpr ⟨h.env, h.productId, h.title⟩))
  · split at hp
    · cases hp
    · obtain rfl := List.mem_singleton.mp hp
      exact renders_mk (by decide) (escape_value h.descExt)
  · exact renders_mk (by decide) (statusICS_value _)

/-- The delimiters can be read back too. -/
theorem componentLines_renders {name : String} {ps : List Property}
    (hname : ∀ c ∈ name.toList, isValueChar c) (h : ∀ p ∈ ps, Renders p) :
    ∀ p ∈ componentLines name ps, Renders p := by
  intro p hp
  rcases List.mem_cons.mp hp with rfl | hp
  · exact renders_mk (by decide) hname
  · rcases List.mem_append.mp hp with hp | hp
    · exact h p hp
    · obtain rfl := List.mem_singleton.mp hp
      exact renders_mk (by decide) hname

/-- So can the lines at the head of the calendar. -/
theorem calendarProperties_renders : ∀ p ∈ calendarProperties, Renders p := by
  intro p hp
  simp only [calendarProperties, List.mem_cons, List.not_mem_nil, or_false] at hp
  rcases hp with rfl | rfl | rfl | rfl | rfl | rfl <;>
    exact renders_mk (by decide) (List.all_eq_true.mp (by decide))

/-- So every line of the feed can be read back. -/
theorem feedProperties_renders {now : Int} {rollouts : List Rollout}
    (h : ∀ s ∈ slots rollouts, s.Writable) : ∀ p ∈ feedProperties now rollouts, Renders p := by
  have hbody : ∀ p ∈ calendarProperties ++ (slots rollouts).flatMap (fun s =>
      componentLines "VEVENT" (eventProperties now s)), Renders p := by
    intro p hp
    rcases List.mem_append.mp hp with hp | hp
    · exact calendarProperties_renders p hp
    · obtain ⟨s, hs, hp⟩ := List.mem_flatMap.mp hp
      exact componentLines_renders (List.all_eq_true.mp (by decide))
        (eventProperties_renders (h s hs)) p hp
  have hall := @componentLines_renders "VCALENDAR" _ (List.all_eq_true.mp (by decide)) hbody
  intro p hp
  apply hall
  simpa [componentLines, feedProperties] using hp

/-- The item of a slot. -/
def eventItem (now : Int) (s : Slot) : Item :=
  .component "VEVENT" ((eventProperties now s).map .property)

/-- The names of the lines of an event, in their order. -/
theorem eventProperties_names (now : Int) (s : Slot) :
    (eventProperties now s).map (·.name) = eventNames s.rollout := by
  unfold eventProperties eventNames
  split <;> rfl

/-- Lines of other names neither open nor close a component. -/
theorem not_delimiter {ps : List Property}
    (h : ∀ name ∈ ps.map (·.name), name ≠ "BEGIN" ∧ name ≠ "END") :
    ∀ p ∈ ps, p.name ≠ "BEGIN" ∧ p.name ≠ "END" :=
  fun _ hp => h _ (List.mem_map_of_mem hp)

/-- So a block of such lines is read as one component. -/
theorem assemble_componentLines {enclosing : List (String × List Item)} {rest : List Property}
    {name : String} {ps : List Property} (h : ∀ p ∈ ps, p.name ≠ "BEGIN" ∧ p.name ≠ "END")
    (items : List Item) :
    assemble enclosing items (componentLines name ps ++ rest) =
      assemble enclosing (.component name (ps.map .property) :: items) rest := by
  rw [componentLines, List.cons_append, List.append_assoc]
  exact assemble_component name ps h items

/-- A reader puts each block of lines together as one event. -/
theorem assemble_events {now : Int} {enclosing : List (String × List Item)} {rest : List Property}
    (ss : List Slot) (items : List Item) :
    assemble enclosing items
        (ss.flatMap (fun s => componentLines "VEVENT" (eventProperties now s)) ++ rest) =
      assemble enclosing ((ss.map (eventItem now)).reverse ++ items) rest := by
  have hnames : ∀ s, ∀ p ∈ eventProperties now s, p.name ≠ "BEGIN" ∧ p.name ≠ "END" := by
    intro s
    apply not_delimiter
    rw [eventProperties_names]
    unfold eventNames
    split <;> decide
  induction ss generalizing items with
  | nil => rfl
  | cons s ss ih =>
    rw [List.flatMap_cons, List.append_assoc, assemble_componentLines (hnames s), ih,
      List.map_cons, List.reverse_cons, List.append_assoc]
    rfl

/-- **The feed is one calendar** with one event for each stage. -/
theorem assemble_feed (now : Int) (rollouts : List Rollout) :
    assemble [] [] (feedProperties now rollouts) = some [.component "VCALENDAR"
      (calendarProperties.map .property ++ (slots rollouts).map (eventItem now))] := by
  have hnames : ∀ p ∈ calendarProperties, p.name ≠ "BEGIN" ∧ p.name ≠ "END" :=
    not_delimiter (by decide)
  unfold feedProperties
  rw [assemble_begin, List.append_assoc, assemble_properties _ hnames, assemble_events,
    assemble_end]
  simp [assemble]

/-- An escaped text shows as the text it was. -/
theorem shows_escape (text : String) : Shows (some (escape text)) text := by
  rw [Shows, Option.bind_some, escape, String.toList_ofList, decodeText_escapeChars]

/-- The event of a stage says what the stage says. -/
theorem isEvent_eventItem (now : Int) (s : Slot) : IsEvent s (eventItem now s) := by
  refine ⟨⟨eventProperties now s, rfl, eventProperties_names now s, ?_⟩, ?_, ?_, ?_, ?_, ?_, ?_⟩
  · intro p hp
    simp only [eventProperties, List.mem_append, List.mem_cons, List.not_mem_nil, or_false] at hp
    rcases hp with ((rfl | rfl | rfl | rfl | rfl) | hp) | rfl
    · rfl
    · rfl
    · rfl
    · rfl
    · rfl
    · split at hp
      · cases hp
      · rw [List.mem_singleton.mp hp]
    · rfl
  · simp [eventItem, eventProperties, Item.value]
  · simp [eventItem, eventProperties, Item.value]
  · simp [eventItem, eventProperties, Item.value]
  · have hvalue : (eventItem now s).value "SUMMARY" = some (escape s.summary) := by
      simp [eventItem, eventProperties, Item.value]
    rw [hvalue]
    exact shows_escape _
  · intro hd
    have hvalue : (eventItem now s).value "DESCRIPTION" = some (escape s.rollout.descExt) := by
      simp [eventItem, eventProperties, Item.value, hd]
    rw [hvalue]
    exact shows_escape _
  · by_cases hd : s.rollout.descExt = ""
    · simp [eventItem, eventProperties, Item.value, hd]
    · simp [eventItem, eventProperties, Item.value, hd]

/-! ## UIDs -/

/-- **A UID names its stage**: the index has no dash, so the last one ends the id. -/
theorem uid_inj {s s' : Slot} (h : s.uid = s'.uid) :
    s.rollout.id = s'.rollout.id ∧ s.index = s'.index := by
  have hsuffix : ∀ s : Slot, s.uid.toList =
      (s.rollout.id ++ "-" ++ toString s.index).toList ++ "@releaseradar".toList :=
    fun _ => String.toList_append
  have hlist := congrArg String.toList h
  rw [hsuffix, hsuffix] at hlist
  exact dashed_inj (String.toList_inj.mp (List.append_cancel_right hlist))

/-- No two stages have the same UID when no two rollouts have the same id. -/
theorem slots_uids {rollouts : List Rollout} (h : (rollouts.map (·.id)).Nodup) :
    (slots rollouts).Pairwise fun s s' => s.uid ≠ s'.uid := by
  unfold slots
  rw [List.pairwise_flatMap]
  constructor
  · intro r _
    unfold slotsOf
    rw [List.pairwise_map]
    have hindices : (r.stages.items.zipIdx.map Prod.snd).Nodup := by
      rw [List.zipIdx_map_snd]
      exact List.nodup_range'
    rw [List.Nodup, List.pairwise_map] at hindices
    refine hindices.imp ?_
    intro st st' hne huid
    exact hne (uid_inj huid).2
  · rw [List.Nodup, List.pairwise_map] at h
    refine h.imp ?_
    intro r r' hne s hs s' hs' huid
    obtain ⟨st, -, rfl⟩ := List.mem_map.mp hs
    obtain ⟨st', -, rfl⟩ := List.mem_map.mp hs'
    exact hne (uid_inj huid).1

/-! ## The feed -/

/-- Every field that the feed shows of a stage can be written: no control character but
HTAB in the id, and none but HTAB, CR and LF in the texts. -/
def Writable (rollouts : List Rollout) : Prop := ∀ s ∈ slots rollouts, s.Writable

/-- Each of the one list has its partner in the other. -/
theorem exists_of_forall₂ {α β : Type} {R : α → β → Prop} {xs : List α} {ys : List β} {x : α}
    (h : List.Forall₂ R xs ys) (hx : x ∈ xs) : ∃ y ∈ ys, R x y := by
  induction h with
  | nil => cases hx
  | @cons a b xs ys hab _ ih =>
    rcases List.mem_cons.mp hx with rfl | hx
    · exact ⟨b, List.mem_cons_self .., hab⟩
    · obtain ⟨y, hy, hR⟩ := ih hx
      exact ⟨y, List.mem_cons_of_mem _ hy, hR⟩

instance (rollouts : List Rollout) : Decidable (Writable rollouts) :=
  inferInstanceAs (Decidable (∀ s ∈ slots rollouts, _))

/-- What decodes to the rollouts has no control characters that could not be written. -/
theorem writable_of_decodes {rollouts : List Rollout} {octets : List UInt8}
    (h : Decodes rollouts octets) : Writable rollouts := by
  obtain ⟨head, events, hparse, -, hevents, -⟩ := h
  intro s hs
  obtain ⟨e, he, hevent⟩ := exists_of_forall₂ hevents hs
  -- a value that was parsed has no control characters
  have hvalue : ∀ name v, e.value name = some v → ∀ c ∈ v.toList, isValueChar c := by
    intro name v hv
    obtain ⟨p, hp, rfl⟩ := Item.exists_of_value hv
    exact parse_value hparse (List.mem_singleton_self _)
      (.inside (List.mem_append_right _ he) hp)
  have htext : ∀ name text, Shows (e.value name) text → ∀ c ∈ text.toList, isTextChar c := by
    intro name text hshows c hc
    obtain ⟨v, hv, hdecode⟩ := Option.bind_eq_some_iff.mp hshows
    rcases mem_breaks hc with hc | rfl
    · rcases mem_decodeText hdecode c hc with hc | rfl
      · simp [isTextChar, hvalue name v hv c hc]
      · decide
    · decide
  obtain ⟨henv, hproduct, htitle⟩ := summary_text.mp (htext _ _ hevent.summary)
  refine ⟨uid_value.mp (hvalue _ _ hevent.uid), henv, hproduct, htitle, ?_⟩
  by_cases hd : s.rollout.descExt = ""
  · rw [hd]
    simp
  · exact htext _ _ (hevent.description hd)

/-- A feed of texts that can be written decodes to its stages. -/
theorem decodes_of_writable {now : Int} {rollouts : List Rollout}
    (hids : (rollouts.map (·.id)).Nodup) (h : Writable rollouts) :
    Decodes rollouts (writeICS now rollouts) := by
  refine ⟨calendarProperties, (slots rollouts).map (eventItem now), ?_, rfl, ?_, ?_⟩
  · rw [writeICS, feed_eq, parse_render (feedProperties_renders h), assemble_feed]
  · rw [List.forall₂_map_right_iff, List.forall₂_same]
    intro s _
    exact isEvent_eventItem now s
  · rw [List.pairwise_map]
    refine (slots_uids hids).imp ?_
    intro s s' hne he
    rw [(isEvent_eventItem now s).uid, (isEvent_eventItem now s').uid] at he
    exact hne (Option.some.inj he)

/-- **The feed decodes to the rollouts** exactly when no field holds a control character
that reaches the output as it is. -/
theorem feed_decodes_iff (now : Int) {rollouts : List Rollout}
    (hids : (rollouts.map (·.id)).Nodup) :
    Decodes rollouts (writeICS now rollouts) ↔ Writable rollouts :=
  ⟨writable_of_decodes, decodes_of_writable hids⟩

/-- A rollout with one stage. -/
def sample (id descExt : String) : Rollout :=
  ⟨id, "p1", "t1", "Title, with; text", descExt, "", "", some [⟨"non-prod", 0, hour, "done"⟩],
    none, none, 0, 0, ""⟩

/-- Two rollouts, one with a line break in its title. -/
theorem feed_decodes_iff_escaped :
    Decodes [sample "r1" "one\r\ntwo", sample "r2" ""]
      (writeICS 0 [sample "r1" "one\r\ntwo", sample "r2" ""]) :=
  (feed_decodes_iff 0 (by decide)).mpr (by decide)

/-! ## A forged event -/

/-- An id that ends its event and begins another. -/
def forgingId : String := "r1\r\nEND:VEVENT\r\nBEGIN:VEVENT\r\nUID:forged"

/-- How many components a component has. -/
def componentCount : Item → Nat
  | .property _ => 0
  | .component _ items => items.countP fun it =>
      match it with
      | .property _ => false
      | .component _ _ => true

/-- The stage of the rollout with that id. -/
private def forgingSlot : Slot := ⟨sample forgingId "", ⟨"non-prod", 0, hour, "done"⟩, 0⟩

/-- What its event says after the UID. -/
private def afterUid : List Property := (eventProperties 0 forgingSlot).tail

/-- The line of the UID is four lines. -/
private theorem line_forgingUid :
    line (render ⟨"UID", [], forgingSlot.uid⟩) =
      line (render ⟨"UID", [], "r1"⟩) ++ line (render ⟨"END", [], "VEVENT"⟩) ++
        line (render ⟨"BEGIN", [], "VEVENT"⟩) ++
          line (render ⟨"UID", [], "forged-0@releaseradar"⟩) := by
  decide +kernel

/-- The properties of the feed as it is read. -/
private def forgedProperties : List Property :=
  ⟨"BEGIN", [], "VCALENDAR"⟩ :: (calendarProperties ++
    (componentLines "VEVENT" [⟨"UID", [], "r1"⟩] ++
      componentLines "VEVENT" (⟨"UID", [], "forged-0@releaseradar"⟩ :: afterUid)) ++
    [⟨"END", [], "VCALENDAR"⟩])

/-- The stage has written them all. -/
private theorem writeICS_forging :
    writeICS 0 [sample forgingId ""] = (forgedProperties.map render).flatMap line := by
  have hfeed : feedProperties 0 [sample forgingId ""] =
      ⟨"BEGIN", [], "VCALENDAR"⟩ :: (calendarProperties ++
        componentLines "VEVENT" (⟨"UID", [], forgingSlot.uid⟩ :: afterUid) ++
        [⟨"END", [], "VCALENDAR"⟩]) := rfl
  rw [writeICS, feed_eq, hfeed, forgedProperties]
  simp only [componentLines, List.map_cons, List.map_append, List.flatMap_cons,
    List.flatMap_append, List.cons_append, List.nil_append, List.append_assoc, line_forgingUid]

/-- The grammar allows every one of them. -/
private theorem forgedProperties_renders : ∀ p ∈ forgedProperties, Renders p := by
  have hsafe : Slot.Writable ⟨sample "r1" "", forgingSlot.stage, 0⟩ := by decide
  have hafter : ∀ p ∈ afterUid, Renders p := fun p hp =>
    @eventProperties_renders 0 _ hsafe p (List.mem_of_mem_tail hp)
  have huid : ∀ {value : String}, value.toList.all isValueChar → Renders ⟨"UID", [], value⟩ :=
    fun hvalue => renders_mk (by decide) (List.all_eq_true.mp hvalue)
  have hevent : ∀ {ps : List Property}, (∀ p ∈ ps, Renders p) →
      ∀ p ∈ componentLines "VEVENT" ps, Renders p :=
    componentLines_renders (List.all_eq_true.mp (by decide))
  have hbody : ∀ p ∈ calendarProperties ++ (componentLines "VEVENT" [⟨"UID", [], "r1"⟩] ++
      componentLines "VEVENT" (⟨"UID", [], "forged-0@releaseradar"⟩ :: afterUid)), Renders p := by
    rw [List.forall_mem_append, List.forall_mem_append]
    exact ⟨calendarProperties_renders,
      hevent (List.forall_mem_singleton.mpr (huid (by decide))),
      hevent (List.forall_mem_cons.mpr ⟨huid (by decide), hafter⟩)⟩
  exact @componentLines_renders "VCALENDAR" _ (List.all_eq_true.mp (by decide)) hbody

/-- The first of the two events has a UID and nothing else. -/
private theorem assemble_forgedProperties :
    assemble [] [] forgedProperties = some [.component "VCALENDAR"
      (calendarProperties.map .property ++ [.component "VEVENT" [.property ⟨"UID", [], "r1"⟩],
        .component "VEVENT"
          ((⟨"UID", [], "forged-0@releaseradar"⟩ :: afterUid).map .property)])] := by
  unfold forgedProperties
  rw [assemble_begin, List.append_assoc, assemble_properties _ (not_delimiter (by decide)),
    List.append_assoc, assemble_componentLines (not_delimiter (by decide)),
    assemble_componentLines (not_delimiter (by decide)), assemble_end]
  simp [assemble]

/-- **One stage, two events**: the id goes into the UID as it is. -/
theorem event_forged :
    (slots [sample forgingId ""]).length = 1 ∧
      (parse (writeICS 0 [sample forgingId ""])).map (·.map componentCount) = some [2] ∧
      ¬Decodes [sample forgingId ""] (writeICS 0 [sample forgingId ""]) := by
  refine ⟨by decide, ?_, fun h => absurd (writable_of_decodes h) (by decide)⟩
  rw [writeICS_forging, parse_render forgedProperties_renders, assemble_forgedProperties]
  rfl

end ReleaseRadar.Calendar
