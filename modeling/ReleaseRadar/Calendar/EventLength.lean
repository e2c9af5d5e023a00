import ReleaseRadar.Calendar.Feed
import ReleaseRadar.Lib.Decimal
import ReleaseRadar.Lib.Gregorian

/-!
# How long an event is as written

`WriteICS` gives an event an hour when its stage has no positive duration, so that DTEND
never comes before DTSTART. It compares the instants; `iso` writes whole seconds.

* `civil_eq`, `readStamp_iso` — what `iso` writes reads back as the second the instant is in;
* `positive_length_iff` — DTEND reads later than DTSTART in every event exactly when every
  positive duration takes its stage into another second.
-/

namespace ReleaseRadar.Calendar

open Lib Lib.Decimal Lib.Gregorian

/-! ## The day -/

/-- The year of its 400-year era that a day is in. The years begin in March here. -/
theorem era_year {doe yoe : Int} (h₀ : 0 ≤ doe) (h₁ : doe < 146097)
    (hy : yoe = (doe - doe / 1460 + doe / 36524 - doe / 146096) / 365) :
    (0 ≤ yoe ∧ yoe ≤ 399) ∧ 365 * yoe + yoe / 4 - yoe / 100 ≤ doe ∧
      doe < 365 * (yoe + 1) + (yoe + 1) / 4 - (yoe + 1) / 100 + (yoe + 1) / 400 := by
  have hcentury : doe / 36524 = 0 ∨ doe / 36524 = 1 ∨ doe / 36524 = 2 ∨ doe / 36524 = 3 ∨
      doe / 36524 = 4 := by omega
  -- the four-year cycles and the centuries of `yoe` against those of `doe`
  have hdays : 365 * yoe ≤ doe := by omega
  have hcycle : yoe / 4 ≤ doe / 1460 := by omega
  have hcycle' : doe / 1460 ≤ (yoe + 1) / 4 := by omega
  have hcent : 100 * (doe / 36524 - doe / 146096) ≤ yoe := by
    rcases hcentury with h | h | h | h | h <;> omega
  refine ⟨by omega, by omega, ?_⟩
  by_cases hlast : yoe + 1 < 100 * (doe / 36524 + 1)
  · have hcent' : (yoe + 1) / 100 ≤ doe / 36524 := by omega
    have hera : doe / 146096 ≤ (yoe + 1) / 400 := by omega
    omega
  · -- the last year of a century
    have hyear : yoe + 1 = 100 * (doe / 36524 + 1) := by
      rcases hcentury with h | h | h | h | h <;> omega
    rcases hcentury with h | h | h | h | h <;> omega

/-- A year that begins with the first of March: `mp` is the month `doy` is in. -/
theorem march_date {y doy mp : Int} (hmp : mp = (5 * doy + 2) / 153) (h₀ : 0 ≤ doy)
    (h₁ : doy < yearLength (y + 1)) :
    (⟨y + (if (if mp < 10 then mp + 3 else mp - 9) ≤ 2 then 1 else 0),
      if mp < 10 then mp + 3 else mp - 9, doy - (153 * mp + 2) / 5 + 1⟩ : Date) =
        date (newYear (y + 1) - 306 + doy) := by
  have hlen : doy < 366 := by
    unfold yearLength at h₁
    split at h₁ <;> omega
  by_cases hm : mp < 10
  · -- March to December
    have hmonth : mp = 0 ∨ mp = 1 ∨ mp = 2 ∨ mp = 3 ∨ mp = 4 ∨ mp = 5 ∨ mp = 6 ∨ mp = 7 ∨ mp = 8 ∨
        mp = 9 := by omega
    have hvalid : (⟨y, mp + 3, doy - (153 * mp + 2) / 5 + 1⟩ : Date).Valid := by
      refine ⟨⟨by dsimp only; omega, by dsimp only; omega⟩, ?_⟩
      rcases hmonth with h | h | h | h | h | h | h | h | h | h <;> subst h <;>
        simp [monthLength] <;> omega
    have hday : (⟨y, mp + 3, doy - (153 * mp + 2) / 5 + 1⟩ : Date).toDay = newYear
      (y + 1) - 306 + doy := by
      rw [newYear_succ]
      unfold Date.toDay monthStart yearLength
      dsimp only
      rw [if_neg (by omega)]
      rcases hmonth with h | h | h | h | h | h | h | h | h | h <;> subst h <;> split <;> omega
    rw [if_pos hm, if_neg (by omega), Int.add_zero, ← hday, date_day hvalid]
  · -- January and February of the year that follows
    have hmonth : mp = 10 ∨ mp = 11 := by omega
    have hvalid : (⟨y + 1, mp - 9, doy - (153 * mp + 2) / 5 + 1⟩ : Date).Valid := by
      refine ⟨⟨by dsimp only; omega, by dsimp only; omega⟩, ?_⟩
      unfold yearLength at h₁
      unfold monthLength
      rcases hmonth with h | h <;> subst h <;> dsimp only <;> (repeat' split at *) <;> omega
    have hday : (⟨y + 1, mp - 9, doy - (153 * mp + 2) / 5 + 1⟩ : Date).toDay =
        newYear (y + 1) - 306 + doy := by
      unfold Date.toDay monthStart
      dsimp only
      rw [if_pos (by omega)]
      omega
    rw [if_neg hm, if_pos (by omega), ← hday, date_day hvalid]

/-- The new year after `y` years of an era. -/
theorem newYear_era (y era : Int) : newYear (y + era * 400 + 1) =
    365 * y + y / 4 - y / 100 + y / 400 + 146097 * era - 719162 := by
  unfold newYear
  omega

/-- The source's dates are those of the calendar. -/
theorem civil_eq (n : Int) : civil n = ((date n).year, (date n).month, (date n).day) := by
  unfold civil
  dsimp only
  have hera := Int.fdiv_eq_ediv_of_nonneg (n + 719468) (show (0 : Int) ≤ 146097 by decide)
  generalize (n + 719468).fdiv 146097 = era at hera ⊢
  generalize hdoe : n + 719468 - era * 146097 = doe
  generalize hyoe : (doe - doe / 1460 + doe / 36524 - doe / 146096) / 365 = yoe
  generalize hdoy : doe - (365 * yoe + yoe / 4 - yoe / 100) = doy
  generalize hmp : (5 * doy + 2) / 153 = mp
  obtain ⟨hrange, hlow, hhigh⟩ := era_year (by omega) (by omega) hyoe.symm
  have hlength : doy < yearLength (yoe + era * 400 + 1) := by
    have hsucc := newYear_succ (yoe + era * 400 + 1)
    rw [newYear_era, show yoe + era * 400 + 1 + 1 = yoe + 1 + era * 400 + 1 by omega, newYear_era]
      at hsucc
    omega
  have hday : newYear (yoe + era * 400 + 1) - 306 + doy = n := by
    rw [newYear_era]
    omega
  have hdate := march_date hmp.symm (by omega) hlength
  rw [hday] at hdate
  rw [← hdate]

/-! ## The second -/

/-- The day an instant falls on. -/
def dayOf (t : Int) : Int := (t.fdiv second).fdiv 86400

/-- What a reader makes of a `DATE-TIME` in UTC, in seconds. The last four digits of the
date are the month and the day. -/
def readStamp (s : String) : Int :=
  let ds := s.toList.takeWhile (· != 'T')
  let ts := (s.toList.dropWhile (· != 'T')).tail
  let day := (⟨readDigits (ds.take (ds.length - 4)), readDigits ((ds.drop (ds.length - 4)).take 2),
    readDigits (ds.drop (ds.length - 2))⟩ : Date).toDay
  day * 86400 + readDigits (ts.take 2) * 3600 + readDigits ((ts.drop 2).take 2) * 60
    + readDigits ((ts.drop 4).take 2)

theorem toList_padded (width : Nat) {n : Int} (h : 0 ≤ n) :
    (padded width n).toList = zeroPad width n.toNat := by
  have hdigits : (toString n.natAbs).toList = Nat.toDigits 10 n.toNat := by
    rw [Nat.toString_eq_repr, Nat.toList_repr, show n.natAbs = n.toNat by omega]
  unfold padded zeroPad
  rw [if_neg (by omega)]
  simp only [String.toList_append, String.toList_ofList, hdigits, ← String.length_toList]
  rfl

/-- A date and a time in digits. -/
theorem readStamp_eq {year month day hh mm ss : Nat} {s : String}
    (hs : s.toList = zeroPad 4 year ++ zeroPad 2 month ++ zeroPad 2 day ++
      'T' :: (zeroPad 2 hh ++ zeroPad 2 mm ++ zeroPad 2 ss ++ ['Z']))
    (hmonth : month < 100) (hday : day < 100) (hhh : hh < 100) (hmm : mm < 100) (hss : ss < 100) :
    readStamp s = (⟨year, month, day⟩ : Date).toDay * 86400 + hh * 3600 + mm * 60 + ss := by
  have hT : ∀ c ∈ zeroPad 4 year ++ zeroPad 2 month ++ zeroPad 2 day, (c != 'T') = true := by
    intro c hc
    have hdigit : c.isDigit := by
      simp only [List.mem_append] at hc
      rcases hc with (hc | hc) | hc
      · exact isDigit_zeroPad c hc
      · exact isDigit_zeroPad c hc
      · exact isDigit_zeroPad c hc
    rw [bne_iff_ne]
    rintro rfl
    exact absurd hdigit (by decide)
  have l₁ := length_zeroPad 2 (by decide) hmonth
  have l₂ := length_zeroPad 2 (by decide) hday
  have l₃ := length_zeroPad 2 (by decide) hhh
  have l₄ := length_zeroPad 2 (by decide) hmm
  have l₅ := length_zeroPad 2 (by decide) hss
  unfold readStamp
  rw [hs, List.takeWhile_append_of_pos hT, List.dropWhile_append_of_pos hT,
    List.takeWhile_cons_of_neg (by decide), List.dropWhile_cons_of_neg (by decide), List.append_nil,
    List.tail_cons]
  generalize hy : zeroPad 4 year = ys
  have hlen : (ys ++ zeroPad 2 month ++ zeroPad 2 day).length = ys.length + 4 := by
    simp [l₁, l₂]
  have hdate : (ys ++ zeroPad 2 month ++ zeroPad 2 day).take ys.length = ys ∧
      ((ys ++ zeroPad 2 month ++ zeroPad 2 day).drop ys.length).take 2 = zeroPad 2 month ∧
      (ys ++ zeroPad 2 month ++ zeroPad 2 day).drop (ys.length + 2) = zeroPad 2 day := by
    refine ⟨?_, ?_, ?_⟩
    · rw [List.append_assoc, List.take_left]
    · rw [List.append_assoc, List.drop_left, List.take_left' l₁]
    · exact List.drop_left' (by rw [List.length_append, l₁])
  dsimp only
  rw [hlen, Nat.add_sub_cancel, show ys.length + 4 - 2 = ys.length + 2 by omega, hdate.1, hdate.2.1,
    hdate.2.2, ← hy]
  have h₄ : (zeroPad 2 hh ++ zeroPad 2 mm ++ zeroPad 2 ss ++ ['Z']).drop 4 =
    zeroPad 2 ss ++ ['Z'] := by
    rw [List.append_assoc, List.append_assoc, ← List.append_assoc]
    exact List.drop_left' (by rw [List.length_append, l₃, l₄])
  rw [h₄, List.take_left' l₅]
  simp only [List.append_assoc]
  rw [List.take_left' l₃, List.drop_left' l₃, List.take_left' l₄]
  simp only [readDigits_zeroPad]

/-- **What `iso` writes reads back as the second the instant is in.** -/
theorem readStamp_iso {t : Int} (h : 0 ≤ (date (dayOf t)).year) :
    readStamp (iso t) = t.fdiv second := by
  obtain ⟨⟨hm₁, hm₂⟩, hd₁, hd₂⟩ := valid_date (dayOf t)
  have hlen := monthLength_le (isLeap (date (dayOf t)).year) (date (dayOf t)).month
  have hday := day_date (dayOf t)
  have hfloor : dayOf t = t.fdiv second / 86400 := Int.fdiv_eq_ediv_of_nonneg _ (by decide)
  generalize htime : t.fdiv second - dayOf t * 86400 = time
  have hrange : 0 ≤ time ∧ time < 86400 := by omega
  have hiso : (iso t).toList = zeroPad 4 (date (dayOf t)).year.toNat ++
      zeroPad 2 (date (dayOf t)).month.toNat ++ zeroPad 2 (date (dayOf t)).day.toNat ++
      'T' :: (zeroPad 2 (time / 3600).toNat ++ zeroPad 2 (time / 60 % 60).toNat ++
        zeroPad 2 (time % 60).toNat ++ ['Z']) := by
    unfold iso
    simp only [civil_eq]
    rw [show (t.fdiv second).fdiv 86400 = dayOf t from rfl, htime]
    simp only [String.toList_append, toList_padded 4 h,
      toList_padded 2 (show 0 ≤ (date (dayOf t)).month by omega),
      toList_padded 2 (show 0 ≤ (date (dayOf t)).day by omega),
      toList_padded 2 (show 0 ≤ time / 3600 by omega),
        toList_padded 2 (show 0 ≤ time / 60 % 60 by omega),
      toList_padded 2 (show 0 ≤ time % 60 by omega), List.append_assoc]
    rfl
  rw [readStamp_eq hiso (by omega) (by omega) (by omega) (by omega) (by omega)]
  rw [Int.toNat_of_nonneg h, Int.toNat_of_nonneg (by omega), Int.toNat_of_nonneg (by omega),
    Int.toNat_of_nonneg (by omega), Int.toNat_of_nonneg (by omega), Int.toNat_of_nonneg (by omega)]
  show (date (dayOf t)).toDay * 86400 + _ + _ + _ = _
  rw [hday]
  omega

/-! ## The events -/

/-- The value of the first line of that name. -/
def valueOf (name : String) (lines : List String) : Option String :=
  lines.findSome? fun l =>
    if (name ++ ":").toList.isPrefixOf l.toList then
      some (String.ofList (l.toList.drop (name ++ ":").toList.length))
    else none

/-- DTEND reads later than DTSTART. -/
def PositiveLength (event : List String) : Prop :=
  ∃ s e, valueOf "DTSTART" event = some s ∧ valueOf "DTEND" event = some e ∧
    readStamp s < readStamp e

/-- The VEVENTs that are written into the feed, each a block of lines. An id with a line break in
it can make a reader see others. -/
def vevents (now : Int) (rollouts : List Rollout) : List (List String) :=
  (slots rollouts).map fun s => event now s.rollout s.stage s.index

/-- The duration is not positive, or it takes the stage into another second. -/
def LongEnough (st : RolloutStage) : Prop :=
  st.duration ≤ 0 ∨ second ≤ st.startAt % second + st.duration

instance (st : RolloutStage) : Decidable (LongEnough st) := inferInstanceAs (Decidable (_ ∨ _))

/-- The lines of the feed are those of its events. -/
theorem feed_vevents (now : Int) (rollouts : List Rollout) :
    rollouts.flatMap (events now) = (vevents now rollouts).flatten := by
  unfold vevents slots slotsOf events
  rw [← List.flatMap_def, List.flatMap_assoc]
  refine List.flatMap_congr fun r _ => ?_
  rw [List.flatMap_map]

theorem valueOf_cons_ne {name l : String} {ls : List String}
    (h : (name ++ ":").toList.isPrefixOf l.toList = false) :
    valueOf name (l :: ls) = valueOf name ls := by
  unfold valueOf
  rw [List.findSome?_cons_of_isNone]
  rw [h]
  rfl

theorem valueOf_cons (name v : String) (ls : List String) :
    valueOf name ((name ++ ":" ++ v) :: ls) = some v := by
  have hl : (name ++ ":" ++ v).toList = (name ++ ":").toList ++ v.toList := String.toList_append
  have hp : (name ++ ":").toList.isPrefixOf (name ++ ":" ++ v).toList = true := by
    rw [List.isPrefixOf_iff_prefix, hl]
    exact List.prefix_append _ _
  unfold valueOf
  rw [List.findSome?_cons, if_pos hp, hl, List.drop_left, String.ofList_toList]

/-- A line that begins in another way. -/
theorem isPrefixOf_append {name head : String} (tail : String)
    (h : ∀ cs : List Char, (name ++ ":").toList.isPrefixOf (head.toList ++ cs) = false) :
    (name ++ ":").toList.isPrefixOf (head ++ tail).toList = false := by
  have hl : (head ++ tail).toList = head.toList ++ tail.toList := String.toList_append
  rw [hl]
  exact h _

theorem valueOf_event (now : Int) (r : Rollout) (st : RolloutStage) (i : Nat) :
    valueOf "DTSTART" (event now r st i) = some (iso st.startAt) ∧
      valueOf "DTEND" (event now r st i) = some (iso (endOf st)) := by
  unfold event
  simp only [List.cons_append, List.append_assoc, String.append_assoc]
  constructor
  · rw [valueOf_cons_ne (by decide), valueOf_cons_ne (isPrefixOf_append _ fun _ => rfl),
      valueOf_cons_ne (isPrefixOf_append _ fun _ => rfl)]
    exact valueOf_cons "DTSTART" _ _
  · rw [valueOf_cons_ne (by decide), valueOf_cons_ne (isPrefixOf_append _ fun _ => rfl),
      valueOf_cons_ne (isPrefixOf_append _ fun _ => rfl),
      valueOf_cons_ne (isPrefixOf_append _ fun _ => rfl)]
    exact valueOf_cons "DTEND" _ _

theorem startAt_le_endOf (st : RolloutStage) : st.startAt ≤ endOf st := by
  unfold endOf hour second
  dsimp only
  split <;> omega

/-- A stage of an event that begins in a year that can be written. -/
theorem year_endOf {st : RolloutStage} (h : 0 ≤ (date (dayOf st.startAt)).year) :
    0 ≤ (date (dayOf (endOf st))).year := by
  have hle := startAt_le_endOf st
  refine Int.le_trans h (yearOf_mono ?_)
  unfold dayOf
  rw [Int.fdiv_eq_ediv_of_nonneg _ (by decide), Int.fdiv_eq_ediv_of_nonneg _ (by decide),
    Int.fdiv_eq_ediv_of_nonneg _ (by decide), Int.fdiv_eq_ediv_of_nonneg _ (by decide)]
  unfold second
  omega

/-- One event. -/
theorem positiveLength_event {st : RolloutStage}
    (h : 0 ≤ (date (dayOf st.startAt)).year) (now : Int)
    (r : Rollout) (i : Nat) : PositiveLength (event now r st i) ↔ LongEnough st := by
  obtain ⟨hs, he⟩ := valueOf_event now r st i
  unfold PositiveLength
  rw [hs, he]
  simp only [Option.some.injEq, exists_and_left, exists_eq_left', readStamp_iso h,
    readStamp_iso (year_endOf h)]
  rw [Int.fdiv_eq_ediv_of_nonneg _ (by decide), Int.fdiv_eq_ediv_of_nonneg _ (by decide)]
  unfold LongEnough endOf hour second
  dsimp only
  split <;> omega

/-- **DTEND reads later than DTSTART in every event** exactly when every stage is long
enough. -/
theorem positive_length_iff (now : Int) {rollouts : List Rollout}
    (hyears : ∀ s ∈ slots rollouts, 0 ≤ (date (dayOf s.stage.startAt)).year) :
    (∀ ev ∈ vevents now rollouts, PositiveLength ev) ↔ ∀ s ∈ slots rollouts,
      LongEnough s.stage := by
  unfold vevents
  rw [List.forall_mem_map]
  refine forall_congr' fun s => ?_
  refine forall_congr' fun hs => ?_
  exact positiveLength_event (hyears s hs) now s.rollout s.index

/-- A rollout with one stage. -/
private def oneStage (startAt duration : Int) : Rollout :=
  { id := "r1", productId := "p1", typeId := "t1", title := "Rollout", descExt := "", descInt := ""
    risks := "", stages := some [⟨"prod1", startAt, duration, "scheduled"⟩], pair := none
    tasks := none, createdAt := 0, updatedAt := 0, createdBy := "" }

/-- Half a second is enough at the end of a second. -/
theorem positive_length_iff_reached :
    ∃ ev ∈ vevents 0 [oneStage 700000000 500000000], PositiveLength ev :=
  have hall : ∀ ev ∈ vevents 0 [oneStage 700000000 500000000], PositiveLength ev :=
    (positive_length_iff 0 (by decide)).mpr (by decide)
  ⟨_, List.mem_cons_self, hall _ List.mem_cons_self⟩

/-- **Half a second within a second** is written as no time at all. -/
theorem half_second_lost :
    ∃ ev ∈ vevents 0 [oneStage 200000000 500000000], ¬PositiveLength ev := by
  refine ⟨_, List.mem_cons_self, ?_⟩
  rw [positiveLength_event (by decide)]
  decide

end ReleaseRadar.Calendar
