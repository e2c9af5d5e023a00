import ReleaseRadar.Lib.JsonText
import ReleaseRadar.Notify.RenderedStage

/-!
# The advance in the title of an announcement

`AnnounceStage` (`backend/internal/teams/teams.go`) titles the card with the time that is
left, which `dispatch` takes anew when it gets to the row: the start of the stage less the
clock, through a division that truncates. A row is only read once its time has come, so
what is left is the window exactly at that instant and less than the window ever after;
one nanosecond late, the last hour is announced as `0h`, the last day as `23h` and the
second last week as `1w` (`label_iff`).

A row that is retried, or a catch-up for a stage that is long past, can be posted any time
after the start: from one hour on the label is negative (`negative_label_iff`).
-/

namespace ReleaseRadar

open Lib Lib.JsonText

def minute : Int := 60 * second

/-- `humanAdvance`: `%d` of an integer division, which truncates. -/
def humanAdvance (d : Int) : String :=
  if 7 * 24 * hour ≤ d then String.ofList (decimal (d.tdiv (7 * 24 * hour)) ++ ['w'])
  else if 24 * hour ≤ d then String.ofList (decimal (d.tdiv (24 * hour)) ++ ['d'])
  else String.ofList (decimal (d.tdiv hour) ++ ['h'])

/-- The title of the card `AnnounceStage` posts. -/
def announcementTitle (r : Rollout) (stage : RolloutStage) (advance : Int) : String :=
  "Rollout " ++ r.title ++ " — " ++ stage.env ++ " in " ++ humanAdvance advance

/-- What a label should say of each window. -/
def windowLabel (w : Int) : String :=
  if w = 14 * 24 * hour then "2w"
  else if w = 7 * 24 * hour then "1w"
  else if w = 24 * hour then "1d"
  else "1h"

/-- The label reads as a negative number. -/
def NegativeLabel (label : String) : Prop := label.toList.head? = some '-'

instance (label : String) : Decidable (NegativeLabel label) :=
  inferInstanceAs (Decidable (_ = _))

/-! ## One label -/

section Label

variable {d w : Int} {env : String}

theorem window_cases (h : w ∈ advancesFor env) :
    w = hour ∨ w = 24 * hour ∨ w = 7 * 24 * hour ∨ w = 14 * 24 * hour := by
  unfold advancesFor announcePolicy at h
  split at h <;> simp only [List.mem_cons, List.not_mem_nil, or_false] at h <;> omega

/-- At the very window the label is the window's. -/
theorem humanAdvance_window (h : w ∈ advancesFor env) : humanAdvance w = windowLabel w := by
  rcases window_cases h with rfl | rfl | rfl | rfl <;> rfl

/-- Anything short of the window, by less than a minute, has the label of less. -/
theorem humanAdvance_short (h : w ∈ advancesFor env) (hlt : d < w) (hlate : w - minute < d) :
    humanAdvance d ≠ windowLabel w := by
  have hquot : ∀ {q u : Int}, 0 < u → u * q ≤ d → d < u * (q + 1) → 0 ≤ q → d.tdiv u = q := by
    intro q u hu hlo hhi hq
    have hd : 0 ≤ d := Int.le_trans (Int.mul_nonneg (Int.le_of_lt hu) hq) hlo
    rw [Int.tdiv_eq_ediv_of_nonneg hd]
    apply Int.le_antisymm
    · exact Int.le_of_lt_add_one (Int.ediv_lt_of_lt_mul hu (by rw [Int.mul_comm]; exact hhi))
    · exact Int.le_ediv_of_mul_le hu (by rw [Int.mul_comm]; exact hlo)
  have hhour : hour = 3600000000000 := rfl
  have hminute : minute = 60000000000 := rfl
  unfold humanAdvance
  rcases window_cases h with rfl | rfl | rfl | rfl
  · -- the last hour: less than one is left
    rw [if_neg (by omega), if_neg (by omega),
      hquot (q := 0) (by omega) (by omega) (by omega) (by omega)]
    decide
  · rw [if_neg (by omega), if_neg (by omega),
      hquot (q := 23) (by omega) (by omega) (by omega) (by omega)]
    decide
  · rw [if_neg (by omega), if_pos (by omega),
      hquot (q := 6) (by omega) (by omega) (by omega) (by omega)]
    decide
  · -- the second last week: the next smaller unit is the same one
    rw [if_pos (by omega), hquot (q := 1) (by omega) (by omega) (by omega) (by omega)]
    decide

/-- The sign of a label. -/
theorem negativeLabel_iff : NegativeLabel (humanAdvance d) ↔ d ≤ -hour := by
  have hhour : hour = 3600000000000 := rfl
  have hhead : ∀ n u, NegativeLabel (String.ofList (decimal n ++ [u])) ↔ n < 0 := by
    intro n u
    rw [NegativeLabel, String.toList_ofList, List.head?_append_of_ne_nil _ (decimal_ne_nil n),
      head_decimal]
  have hpos : ∀ u : Int, 0 < u → u ≤ d → ¬d.tdiv u < 0 := by
    intro u hu hd
    have hquot := Int.tdiv_nonneg (Int.le_trans (Int.le_of_lt hu) hd) (Int.le_of_lt hu)
    exact Int.not_lt.mpr hquot
  unfold humanAdvance
  split
  · next hd =>
    rw [hhead]
    exact iff_of_false (hpos _ (by omega) hd) (by omega)
  · split
    · next hd =>
      rw [hhead]
      exact iff_of_false (hpos _ (by omega) hd) (by omega)
    · rw [hhead]
      -- the division rounds towards zero
      constructor
      · intro hneg
        by_contra hlt
        rcases Int.lt_or_le d 0 with hd | hd
        · have hzero : d.tdiv hour = 0 := by
            have hsmall := Int.tdiv_eq_zero_of_lt (a := -d) (b := hour) (by omega) (by omega)
            rw [Int.neg_tdiv] at hsmall
            omega
          omega
        · exact absurd hneg (Int.not_lt.mpr (Int.tdiv_nonneg hd (by omega)))
      · intro hd
        have hge : 1 ≤ (-d).tdiv hour := by
          rw [Int.tdiv_eq_ediv_of_nonneg (by omega)]
          exact Int.le_ediv_of_mul_le (by omega) (by omega)
        rw [Int.neg_tdiv] at hge
        omega

/-- What is left of a window that has come up less than a minute ago. -/
theorem timeSub_of_window {startAt t : Int} (h : w ∈ advancesFor env) (hdue : startAt - w ≤ t)
    (hlt : t < startAt - w + minute) : timeSub startAt t = startAt - t := by
  have hhour : hour = 3600000000000 := rfl
  have hminute : minute = 60000000000 := rfl
  have := window_cases h
  unfold timeSub
  omega

/-- The label is the window's at the instant the window comes up, and at no other. -/
theorem label_iff {startAt t : Int} (h : w ∈ advancesFor env) (hdue : startAt - w ≤ t)
    (hlt : t < startAt - w + minute) :
    humanAdvance (timeSub startAt t) = windowLabel w ↔ t = startAt - w := by
  rw [timeSub_of_window h hdue hlt]
  constructor
  · intro hlabel
    by_contra hne
    exact humanAdvance_short h (by omega) (by omega) hlabel
  · rintro rfl
    rw [show startAt - (startAt - w) = w by omega]
    exact humanAdvance_window h

theorem negative_label_iff (startAt t : Int) :
    NegativeLabel (humanAdvance (timeSub startAt t)) ↔ startAt + hour ≤ t := by
  have hhour : hour = 3600000000000 := rfl
  rw [negativeLabel_iff]
  unfold timeSub
  omega

end Label

/-! ## Every announcement -/

namespace Notify

variable {s s' : Sys} {a : Action}

/-- What the dispatcher holds has fallen due, and what it has announced was announced
with the time then left, not before its row's. -/
structure Timely (s : Sys) : Prop where
  hand : ∀ n ∈ s.disp.hand, n.fireAt ≤ s.now
  posts : ∀ p, .announced p ∈ s.hist →
    p.advance = timeSub p.stage.startAt p.time ∧ p.row.fireAt ≤ p.time

theorem timely_start (store : Store) (now : Int) : Timely (start store now) where
  hand _ hn := absurd hn List.not_mem_nil
  posts _ hp := absurd hp List.not_mem_nil

theorem timely_step (hI : Timely s) (h : step s a = some s') : Timely s' := by
  refine ⟨hand_due_step hI.hand h, fun p hp => ?_⟩
  rcases step_hist h with he | ⟨e, he, hwhat⟩
  · exact hI.posts p (he ▸ hp)
  · rw [he] at hp
    rcases List.mem_cons.mp hp with rfl | hold
    · cases a with
      | announce o =>
        obtain ⟨n, r, stage, rest, hd, hpost⟩ := hwhat
        cases hpost
        exact ⟨rfl, hI.hand n (by rw [hd]; exact List.mem_cons_self ..)⟩
      | _ => simp at hwhat
    · exact hI.posts p hold

/-- **What the title of an announcement says**: of a window that came up less than a minute
before, the window itself exactly when it came up at that very instant; and a negative
number exactly when the stage is an hour past. The announcements of every run are no
others: each states the time that was left when it was made, its row having come up. -/
theorem announced_label_iff (startAt t : Int) :
    (∀ env w, w ∈ advancesFor env → startAt - w ≤ t → t < startAt - w + minute →
      (humanAdvance (timeSub startAt t) = windowLabel w ↔ t = startAt - w)) ∧
    (NegativeLabel (humanAdvance (timeSub startAt t)) ↔ startAt + hour ≤ t) ∧
    ∀ store now as s, system.exec (start store now) as = some s →
      ∀ p, .announced p ∈ s.hist → p.row.fireAt ≤ p.time ∧
        (∀ w ∈ advancesFor p.stage.env, p.row.fireAt = p.stage.startAt - w →
          p.time < p.row.fireAt + minute →
          (humanAdvance p.advance = windowLabel w ↔ p.time = p.row.fireAt)) ∧
        (NegativeLabel (humanAdvance p.advance) ↔ p.stage.startAt + hour ≤ p.time) := by
  refine ⟨fun env w hw => label_iff hw, negative_label_iff startAt t, ?_⟩
  intro store now as s hrun p hp
  have hI := system.exec_invariant (fun _ _ _ hI hs => timely_step hI hs)
    (timely_start store now) hrun
  obtain ⟨hadvance, hdue⟩ := hI.posts p hp
  rw [hadvance]
  refine ⟨hdue, fun w hw hfire hlate => ?_, negative_label_iff _ _⟩
  rw [hfire] at hdue hlate ⊢
  exact label_iff hw hdue hlate

/-- Announced at the very instant, the last hour is `1h`. -/
theorem announced_label_iff_punctual :
    humanAdvance (timeSub (5 * hour) (4 * hour)) = windowLabel hour ∧
    ¬NegativeLabel (humanAdvance (timeSub (5 * hour) (4 * hour))) ∧
    ∃ s, system.exec (start sampleStore 0)
        (untilDue.dropLast ++ .wait 14400000000000 :: announceDue) = some s ∧
      ∃ p ∈ posts s.hist, humanAdvance p.advance = windowLabel hour ∧
        ¬NegativeLabel (humanAdvance p.advance) := by
  obtain ⟨hwindow, hnegative, hruns⟩ := announced_label_iff (5 * hour) (4 * hour)
  refine ⟨(hwindow "non-prod" hour (by decide) (by decide) (by decide)).mpr (by decide),
    fun h => absurd (hnegative.mp h) (by decide), ?_⟩
  have hrun : ∃ s, system.exec (start sampleStore 0)
      (untilDue.dropLast ++ .wait 14400000000000 :: announceDue) = some s ∧
      ∃ p ∈ posts s.hist, Event.announced p ∈ s.hist ∧ p.row.fireAt = p.stage.startAt - hour ∧
        hour ∈ advancesFor p.stage.env ∧ p.time < p.row.fireAt + minute ∧
        p.time = p.row.fireAt ∧ ¬p.stage.startAt + hour ≤ p.time := by decide +kernel
  obtain ⟨s, hs, p, hposted, hmem, hfire, hw, hlate, htime, hpast⟩ := hrun
  obtain ⟨-, hlabel, hneg⟩ := hruns sampleStore 0 _ s hs p hmem
  exact ⟨s, hs, p, hposted, (hlabel hour hw hfire hlate).mpr htime, fun h => hpast (hneg.mp h)⟩

/-- **The last hour announced as `0h`**: the tick comes ten seconds after the row's time.
And a stage that was over before it was entered is announced as `-2h`. -/
theorem last_hour_announced_as_none :
    (∃ s, system.exec (start sampleStore 0) (untilDue ++ announceDue) = some s ∧
      ∃ p ∈ posts s.hist, p.row.fireAt = p.stage.startAt - hour ∧ hour ∈ advancesFor p.stage.env ∧
        p.time < p.row.fireAt + minute ∧
        announcementTitle p.rollout p.stage p.advance = "Rollout Title — non-prod in 0h" ∧
        humanAdvance p.advance ≠ windowLabel hour) ∧
    ∃ s, system.exec (start sampleStore (3 * hour))
        [.create (sampleRollout "non-prod" hour), .reread 0, .clock 0, .reschedule 0,
          .wait 2000000000,
          .tick [⟨0, "r1", 0, .TMS_NP, 3 * hour + second, none, none, 0⟩], .load, .announce none] =
          some s ∧
      ∃ p ∈ posts s.hist, humanAdvance p.advance = "-2h" ∧
        NegativeLabel (humanAdvance p.advance) := by
  decide +kernel

end Notify

end ReleaseRadar
