import ReleaseRadar.Api.Atomicity
import ReleaseRadar.Lib.Retry
import ReleaseRadar.Notify.Queue

/-!
# No row starves behind failing ones

`PendingNotifications` reads at most 100 rows, the earliest first, and a row that
fails stays at the head of the queue. Of the `n` rows that are due at `t0` none is
unsent any more after `5 + n / 20` ticks at or after `t0` (`no_starvation`),
whatever the sends return, in whatever order the database gives equal fire
times, and whatever is rescheduled or deleted meanwhile by requests that read
their clock after `t0`.

The ticks are the rounds of `Lib.Retry`: a row has `5 - attempts` tries
(`triesLeft`), and a batch covers the rows due at `t0` because every other unsent
row fires later (`Draining.later`).
-/

namespace ReleaseRadar

open Lib

namespace Notify

/-! ## The runs considered -/

/-- The clock reading a request is about to reschedule by. -/
def Req.reading : Req → Option Int
  | .clocked _ _ clock => some clock
  | _ => none

/-- Who reschedules is a request that read its clock at `t0` or later. -/
def ReadsAfter (t0 : Int) (q : Queue) : QueueAction → Prop
  | .party (.reschedule i) => ∀ r ∈ q.sys.reqs[i]?, ∀ clock ∈ r.reading, t0 ≤ clock
  | .rescheduleNotifications _ _ => False
  | _ => True

instance (t0 : Int) (q : Queue) : (a : QueueAction) → Decidable (ReadsAfter t0 q a)
  | .party (.reschedule i) => inferInstanceAs (Decidable (∀ r ∈ q.sys.reqs[i]?, _))
  | .rescheduleNotifications _ _ => isFalse id
  | .party (.wait _) | .party (.create _) | .party (.update _ _) | .party (.delete _)
  | .party (.reread _) | .party (.clock _) | .party (.tick _) | .party .load
  | .party (.announce _) | .party .mark | .rolloutFails _ | .announceStage _
  | .markNotificationSent => isTrue trivial

/-- The ticks run at `t0` or later. -/
def ticksSince (t0 : Int) (log : List Entry) : Nat :=
  log.countP fun e =>
    match e with
    | .ticked time => t0 ≤ time
    | _ => false

variable {cfg : TeamsConfig} {q q' : Queue} {a : QueueAction} {t0 : Int}

/-! ## Stored times are whole microseconds -/

/-- The rollout a request read back. -/
def Req.rollout : Req → Option Rollout
  | .reread ro _ => some ro
  | .clocked ro _ _ => some ro
  | _ => none

/-- What is stored, and what has been read back, is at database resolution. -/
structure WholeTimes (s : Sys) : Prop where
  store : Api.WholeStarts s.store
  read : ∀ r ∈ s.reqs, ∀ ro ∈ r.rollout, Whole ro.stages.items

/-- Requests that bring whole microseconds keep them whole. -/
theorem WholeTimes.of_reqs {s s' : Sys} (hW : WholeTimes s) (hstore : Api.WholeStarts s'.store)
    (hreqs : ∀ r ∈ s'.reqs, r ∈ s.reqs ∨ ∀ ro ∈ r.rollout, Whole ro.stages.items) :
    WholeTimes s' where
  store := hstore
  read r hr := by
    rcases hreqs r hr with hold | hnew
    · exact hW.read r hold
    · exact hnew

/-- Every step keeps them whole. -/
theorem wholeTimes_step {s s' : Sys} {a : Action} (hW : WholeTimes s) (h : step s a = some s') :
    WholeTimes s' := by
  have happend : ∀ (x : Req), x.rollout = none → ∀ r ∈ s.reqs ++ [x],
      r ∈ s.reqs ∨ ∀ ro ∈ r.rollout, Whole ro.stages.items := by
    intro x hx r hr
    rcases List.mem_append.mp hr with hold | hnew
    · exact Or.inl hold
    · obtain rfl := List.mem_singleton.mp hnew
      exact Or.inr (by simp [hx])
  have hset : ∀ (i : Nat) (x : Req), (∀ ro ∈ x.rollout, Whole ro.stages.items) →
      ∀ r ∈ s.reqs.set i x, r ∈ s.reqs ∨ ∀ ro ∈ r.rollout, Whole ro.stages.items := by
    intro i x hx r hr
    rcases List.mem_or_eq_of_mem_set hr with hold | rfl
    · exact Or.inl hold
    · exact Or.inr hx
  have hsame : ∀ r ∈ s.reqs, r ∈ s.reqs ∨ ∀ ro ∈ r.rollout, Whole ro.stages.items :=
    fun _ hr => Or.inl hr
  cases a with
  | wait d =>
    obtain rfl := Option.some.inj h
    exact hW.of_reqs hW.store hsame
  | create ro =>
    rcases step_create h with rfl | ⟨-, -, tasks, rfl⟩
    · exact hW.of_reqs hW.store (happend _ rfl)
    · exact hW.of_reqs (Api.wholeStarts_applyCreate hW.store) (happend _ rfl)
  | update id ro =>
    rcases step_update h with rfl | ⟨-, -, rfl⟩
    · exact hW.of_reqs hW.store (happend _ rfl)
    · exact hW.of_reqs (Api.wholeStarts_applyUpdate hW.store) (happend _ rfl)
  | delete id =>
    rcases step_delete h with rfl | rfl
    · exact hW
    · exact hW.of_reqs (fun r hr => hW.store r (List.mem_filter.mp hr).1) hsame
  | reread i =>
    obtain ⟨id, created, -, ⟨rfl, -⟩ | ⟨r, -, hid, rfl⟩⟩ := step_reread h
    · exact hW.of_reqs hW.store (hset i _ (by simp [Req.rollout]))
    · refine hW.of_reqs hW.store (hset i _ ?_)
      intro ro hro
      obtain rfl := Option.some.inj hro
      exact Api.whole_stagesOf hW.store _
  | clock i =>
    obtain ⟨ro, created, hi, rfl⟩ := step_clock h
    exact hW.of_reqs hW.store (hset i _ (hW.read (.reread ro created) (List.mem_of_getElem? hi)))
  | reschedule i =>
    obtain ⟨ro, created, clock, -, ⟨rfl, -⟩ | rfl⟩ := step_reschedule h
    · exact hW.of_reqs hW.store (hset i _ (by simp [Req.rollout]))
    · exact hW.of_reqs hW.store (hset i _ (by simp [Req.rollout]))
  | tick sorted =>
    obtain ⟨-, -, rfl⟩ := step_tick h
    exact hW.of_reqs hW.store hsame
  | load =>
    obtain ⟨n, rest, -, ⟨e, rfl, -⟩ | ⟨r, stage, -, -, rfl⟩⟩ := step_load h
    · exact hW.of_reqs hW.store hsame
    · exact hW.of_reqs hW.store hsame
  | announce outcome =>
    obtain ⟨n, r, stage, rest, -, rfl⟩ := step_announce h
    exact hW.of_reqs hW.store hsame
  | mark =>
    obtain ⟨n, e, rest, -, ⟨-, rfl⟩ | rfl⟩ := step_mark h
    · exact hW.of_reqs hW.store hsame
    · exact hW.of_reqs hW.store hsame

/-- Every step of the queue too. -/
theorem wholeTimes_queueStep (hW : WholeTimes q.sys) (h : queueStep cfg q a = some q') :
    WholeTimes q'.sys := by
  cases a with
  | party a =>
    obtain ⟨-, -, s, l, hs, rfl, -⟩ := queueStep_party h
    exact wholeTimes_step hW hs
  | rescheduleNotifications rid items =>
    -- the table of the queue holds no rollout
    rcases queueStep_rescheduleNotifications h with rfl | rfl
    · exact hW
    · exact hW.of_reqs hW.store fun _ hr => Or.inl hr
  | rolloutFails err =>
    obtain ⟨n, rest, -, rfl⟩ := queueStep_rolloutFails h
    exact hW.of_reqs hW.store fun _ hr => Or.inl hr
  | announceStage send =>
    obtain ⟨n, r, stage, rest, s, -, hs, rfl⟩ := queueStep_announceStage h
    exact wholeTimes_step hW hs
  | markNotificationSent =>
    obtain ⟨n, e, rest, s, -, hs, rfl⟩ := queueStep_markNotificationSent h
    exact wholeTimes_step hW hs

/-- A row a request enqueues fires, as it is stored, after the request's clock. -/
theorem lt_stored_of_mem_scheduleItems {clock : Int} {stages : List RolloutStage}
    (hw : Whole stages) {it : ScheduledNotification} (h : it ∈ scheduleItems clock stages) :
    clock < it.stored.fireAt := by
  obtain ⟨st, -, -, hfire⟩ := (stored_mem_scheduleItems hw).mp ⟨it, h, rfl⟩
  rcases hfire with ⟨-, hlt⟩ | ⟨-, hf⟩
  · exact hlt
  · have := lt_pgTimestamp (clock + second)
    unfold second at this hf
    omega

/-! ## The tries of a row -/

/-- How often the row with this id can still be tried: it is dead-lettered by its
fifth failure. -/
def triesLeft (t : NotificationTable) (id : Nat) : Nat :=
  match t.rows.find? fun n => n.id = id ∧ n.unsent with
  | some n => max 1 (5 - n.attempts)
  | none => 0

/-- An unsent row has up to five tries, and one at least. -/
theorem triesLeft_of_mem {t : NotificationTable} {n : Notification} (hn : n ∈ t.rows)
    (hu : n.unsent) : triesLeft t n.id = max 1 (5 - n.attempts) := by
  unfold triesLeft
  split
  · next m hm =>
    have hid : m.id = n.id ∧ m.unsent := by simpa using List.find?_some hm
    rw [NotificationTable.eq_of_id (List.mem_of_find?_eq_some hm) hn hid.1]
  · next hm =>
    have := List.find?_eq_none.mp hm n hn
    simp [hu] at this

/-- Where a try is left the row is unsent. -/
theorem exists_of_triesLeft {t : NotificationTable} {id : Nat} (h : 0 < triesLeft t id) :
    ∃ n ∈ t.rows, n.id = id ∧ n.unsent := by
  unfold triesLeft at h
  split at h
  · next n hn =>
    exact ⟨n, List.mem_of_find?_eq_some hn, by simpa using List.find?_some hn⟩
  · exact absurd h (Nat.lt_irrefl 0)

/-- Nobody has more than five. -/
theorem triesLeft_le (t : NotificationTable) (id : Nat) : triesLeft t id ≤ 5 := by
  unfold triesLeft
  split <;> omega

/-- Losing rows takes tries away. -/
theorem triesLeft_mono {t t' : NotificationTable} {id : Nat}
    (h : ∀ m ∈ t'.rows, m.id = id → m.unsent → m ∈ t.rows) :
    triesLeft t' id ≤ triesLeft t id := by
  by_cases hpos : 0 < triesLeft t' id
  · obtain ⟨m, hm, rfl, hu⟩ := exists_of_triesLeft hpos
    rw [triesLeft_of_mem hm hu, triesLeft_of_mem (h m hm rfl hu) hu]
  · omega

/-- Marking a row takes a try away. -/
theorem triesLeft_markSent {t : NotificationTable} {now : Int} {id : Nat} {e : String} :
    triesLeft (t.markSent now id e) id ≤ triesLeft t id - 1 := by
  by_cases hpos : 0 < triesLeft (t.markSent now id e) id
  · obtain ⟨m, hm, hid, hu⟩ := exists_of_triesLeft hpos
    obtain ⟨m₀, hm₀, rfl⟩ := NotificationTable.mem_markSent.mp hm
    have hid₀ : m₀.id = id := (NotificationTable.markRow_id ..).symm.trans hid
    have hu₀ : m₀.unsent := by
      by_contra hs
      rw [NotificationTable.markRow_of_sent hs] at hu
      exact hs hu
    have he : e ≠ "" := by
      intro he
      subst he
      exact NotificationTable.markRow_sent hid₀ hu
    obtain ⟨hcount, hcap⟩ := NotificationTable.markRow_failed now hid₀ hu₀ he
    have hlt : m₀.attempts + 1 < 5 := hcap.mp hu
    have hafter : triesLeft (t.markSent now id e) id = max 1 (5 - (m₀.attempts + 1)) := by
      rw [← hcount, ← triesLeft_of_mem hm hu, hid]
    have hbefore : triesLeft t id = max 1 (5 - m₀.attempts) := by
      rw [← triesLeft_of_mem hm₀ hu₀, hid₀]
    omega
  · omega

/-- Marking one leaves the tries of the others. -/
theorem triesLeft_markSent_ne {t : NotificationTable} {now : Int} {id id' : Nat} {e : String}
    (h : id' ≠ id) : triesLeft (t.markSent now id e) id' ≤ triesLeft t id' := by
  apply triesLeft_mono
  intro m hm hid _
  obtain ⟨m₀, hm₀, rfl⟩ := NotificationTable.mem_markSent.mp hm
  rw [NotificationTable.markRow_id] at hid
  rw [NotificationTable.markRow_of_ne (by omega)]
  exact hm₀

/-! ## Draining the rows due at `t0` -/

/-- The rows `S` are being drained by the ticks since `t0`: every other unsent row
fires later. -/
structure Draining (t0 : Int) (S : Finset Nat) (v : View) : Prop where
  bounded : Retry.Bounded S 5 100 (triesLeft v.table) (v.disp.hand.map (·.id))
    (ticksSince t0 v.log)
  known : ∀ id ∈ S, id < v.table.nextId
  due : ∀ n ∈ v.table.rows, n.unsent → n.id ∈ S → n.fireAt ≤ pgTimestamp t0
  later : ∀ n ∈ v.table.rows, n.unsent → n.id ∉ S → pgTimestamp t0 < n.fireAt

variable {S : Finset Nat}

/-- The rows due at `t0` are in front of every due order, so the batch covers them. -/
theorem Draining.covers {t : NotificationTable} {d : Disp} {l : List Entry} {now : Int}
    {sorted : List Notification} (h : Draining t0 S ⟨t, d, l⟩)
    (hdue : NotificationTable.DueOrder now t sorted) (hnow : t0 ≤ now) :
    Retry.Covers S 100 (triesLeft t) ((sorted.take 100).map (·.id)) := by
  have hmem : ∀ n, n ∈ sorted ↔ n ∈ t.rows ∧ n.unsent ∧ n.fireAt ≤ pgTimestamp now := by
    intro n
    rw [hdue.1.mem_iff]
    exact NotificationTable.mem_due
  -- the rows of `S` that are left are due
  have hleft : ∀ id ∈ S, 0 < triesLeft t id → ∃ n ∈ sorted, n.id = id ∧
      n.fireAt ≤ pgTimestamp t0 := by
    intro id hid hpos
    obtain ⟨n, hn, rfl, hu⟩ := exists_of_triesLeft hpos
    have hfire : n.fireAt ≤ pgTimestamp t0 := h.due n hn hu hid
    exact ⟨n, (hmem n).mpr ⟨hn, hu, hfire.trans (pgTimestamp_mono hnow)⟩, rfl, hfire⟩
  by_cases hall : ∀ b ∈ sorted.take 100, b.id ∈ S
  · by_cases hlen : sorted.length ≤ 100
    · left
      intro id hid hpos
      obtain ⟨n, hn, rfl, -⟩ := hleft id hid hpos
      rw [List.take_of_length_le hlen]
      exact List.mem_map_of_mem hn
    · right
      have hnodup : ((sorted.take 100).map (·.id)).Nodup := by
        have hd : (t.due now).Sublist t.rows := List.filter_sublist
        have hsorted : (sorted.map (·.id)).Nodup :=
          (hdue.1.map _).nodup_iff.mpr (t.ids_nodup.sublist (hd.map _))
        exact hsorted.sublist ((List.take_sublist 100 sorted).map _)
      have hcard : ((sorted.take 100).map (·.id)).toFinset.card = 100 := by
        rw [List.toFinset_card_of_nodup hnodup, List.length_map, List.length_take]
        omega
      refine Nat.le_trans (Nat.le_of_eq hcard.symm) (Finset.card_le_card ?_)
      intro id hid
      rw [List.mem_toFinset] at hid
      obtain ⟨b, hb, rfl⟩ := List.mem_map.mp hid
      obtain ⟨hr, hu, -⟩ := (hmem b).mp (List.mem_of_mem_take hb)
      refine Finset.mem_filter.mpr ⟨hall b hb, ?_, hid⟩
      rw [triesLeft_of_mem hr hu]
      omega
  · left
    intro id hid hpos
    -- a row of the batch fires later, so the rows of `S` come before it
    obtain ⟨b, hb, hbS⟩ : ∃ b ∈ sorted.take 100, b.id ∉ S := by simpa using hall
    obtain ⟨hr, hu, -⟩ := (hmem b).mp (List.mem_of_mem_take hb)
    have hlate : pgTimestamp t0 < b.fireAt := h.later b hr hu hbS
    obtain ⟨n, hn, rfl, hfire⟩ := hleft id hid hpos
    rw [← List.take_append_drop 100 sorted] at hn
    rcases List.mem_append.mp hn with hn | hn
    · exact List.mem_map_of_mem hn
    · have hpair : (sorted.take 100 ++ sorted.drop 100).Pairwise fun m n =>
        m.fireAt ≤ n.fireAt := by
        rw [List.take_append_drop]
        exact hdue.2
      have hle : b.fireAt ≤ n.fireAt := (List.pairwise_append.mp hpair).2.2 b hb n hn
      omega

/-- Rows go, and rows come that fire after `t0`, under ids never given out. -/
theorem Draining.of_table {t t' : NotificationTable} {d : Disp} {l : List Entry}
    (h : Draining t0 S ⟨t, d, l⟩) (hnext : t.nextId ≤ t'.nextId)
    (hrows : ∀ n ∈ t'.rows, n ∈ t.rows ∨ (t.nextId ≤ n.id ∧ pgTimestamp t0 < n.fireAt)) :
    Draining t0 S ⟨t', d, l⟩ := by
  have hold : ∀ id ∈ S, ∀ n ∈ t'.rows, n.id = id → n ∈ t.rows := by
    intro id hid n hn he
    rcases hrows n hn with hold | ⟨hfresh, -⟩
    · exact hold
    · have hlt : id < t.nextId := h.known id hid
      omega
  have htries : ∀ id ∈ S, triesLeft t' id ≤ triesLeft t id := by
    intro id hid
    exact triesLeft_mono fun m hm he _ => hold id hid m hm he
  refine ⟨h.bounded.mono htries ?_, fun id hid => Nat.lt_of_lt_of_le (h.known id hid) hnext,
    fun n hn hu hid => h.due n (hold _ hid n hn rfl) hu hid, fun n hn hu hid => ?_⟩
  · intro id hid
    exact Nat.sub_le_sub_right (htries id hid) _
  · rcases hrows n hn with hold | ⟨-, hlate⟩
    · exact h.later n hold hu hid
    · exact hlate

/-- A mark takes a try from what was owed. -/
theorem Draining.mark {t : NotificationTable} {l : List Entry} {n : Notification} {e : String}
    {rest : List Notification} {now : Int} (h : Draining t0 S ⟨t, .marking n e rest, l⟩) :
    Draining t0 S ⟨t.markSent now n.id e, .loop rest, .marked n e :: l⟩ := by
  have hrow : ∀ m ∈ (t.markSent now n.id e).rows, m.unsent → ∃ m₀ ∈ t.rows, m₀.unsent ∧
      m₀.id = m.id ∧ m₀.fireAt = m.fireAt := by
    intro m hm hu
    obtain ⟨m₀, hm₀, rfl⟩ := NotificationTable.mem_markSent.mp hm
    refine ⟨m₀, hm₀, ?_, (NotificationTable.markRow_id ..).symm, ?_⟩
    · by_contra hs
      rw [NotificationTable.markRow_of_sent hs] at hu
      exact hs hu
    · exact congrArg (fun k => k.2.fireAt) (NotificationTable.markRow_key now n.id e m₀).symm
  have htries : ∀ id, triesLeft (t.markSent now n.id e) id ≤
      triesLeft t id - if id = n.id then 1 else 0 := by
    intro id
    by_cases he : id = n.id
    · subst he
      simpa using triesLeft_markSent
    · simpa [he] using triesLeft_markSent_ne he
  refine ⟨h.bounded.mono ?_ ?_, h.known, ?_, ?_⟩
  · intro id _
    exact Nat.le_trans (htries id) (Nat.sub_le _ _)
  · intro id _
    have hle := htries id
    show triesLeft (t.markSent now n.id e) id - (if id ∈ rest.map (·.id) then 1 else 0) ≤
      triesLeft t id - (if id ∈ n.id :: rest.map (·.id) then 1 else 0)
    by_cases he : id = n.id
    · have hin : id ∈ n.id :: rest.map (·.id) := he ▸ List.mem_cons_self ..
      rw [if_pos he] at hle
      rw [if_pos hin]
      exact Nat.le_trans (Nat.sub_le _ _) hle
    · have hiff : id ∈ n.id :: rest.map (·.id) ↔ id ∈ rest.map (·.id) := by
        simp [he]
      rw [if_neg he] at hle
      simp only [hiff]
      exact Nat.sub_le_sub_right hle _
  · intro m hm hu hid
    obtain ⟨m₀, hm₀, hu₀, he, hf⟩ := hrow m hm hu
    have hle := h.due m₀ hm₀ hu₀ (he ▸ hid)
    omega
  · intro m hm hu hid
    obtain ⟨m₀, hm₀, hu₀, he, hf⟩ := hrow m hm hu
    have hlt := h.later m₀ hm₀ hu₀ (he ▸ hid)
    omega

/-- The loop moves on within its hand, and no tick is logged. -/
theorem Draining.of_disp {t : NotificationTable} {d d' : Disp} {l l' : List Entry}
    (h : Draining t0 S ⟨t, d, l⟩) (hhand : d'.hand = d.hand)
    (hticks : ticksSince t0 l' = ticksSince t0 l) : Draining t0 S ⟨t, d', l'⟩ := by
  refine ⟨?_, h.known, h.due, h.later⟩
  show Retry.Bounded S 5 100 (triesLeft t) (d'.hand.map (·.id)) (ticksSince t0 l')
  rw [hhand, hticks]
  exact h.bounded

/-- A tick takes up the oldest of what is due. -/
theorem Draining.tick {t : NotificationTable} {l : List Entry} {now : Int}
    {sorted : List Notification} (h : Draining t0 S ⟨t, .loop [], l⟩)
    (hdue : NotificationTable.DueOrder now t sorted) :
    Draining t0 S ⟨t, .loop (sorted.take 100), .ticked now :: l⟩ := by
  refine ⟨?_, h.known, h.due, h.later⟩
  by_cases hnow : t0 ≤ now
  · have hround := h.bounded.round (h.covers hdue hnow)
    have hticks : ticksSince t0 (.ticked now :: l) = ticksSince t0 l + 1 := by
      simp [ticksSince, hnow]
    rw [hticks]
    exact hround
  · -- an early tick counts for nothing, and does no harm
    have hticks : ticksSince t0 (.ticked now :: l) = ticksSince t0 l := by
      simp [ticksSince, hnow]
    rw [hticks]
    refine h.bounded.mono (fun _ _ => Nat.le_refl _) ?_
    intro id _
    exact Nat.sub_le _ _

/-- Every effect of a step keeps the count. -/
theorem draining_effect {v v' : View} (hE : Effect q.sys a v v') (hW : WholeTimes q.sys)
    (hreads : ReadsAfter t0 q a)
    (hok : a = .markNotificationSent → ∀ m ∈ v.disp.marks, hasNul m.2 = false)
    (h : Draining t0 S v) : Draining t0 S v' := by
  cases hE with
  | none => exact h
  | @delete t d l id ha =>
    exact h.of_table (Nat.le_refl _) fun n hn =>
      Or.inl (NotificationTable.mem_deleteRollout.mp hn).1
  | @reschedule t d l rid items ha =>
    refine h.of_table (NotificationTable.evolves_reschedule rid items t).nextId fun n hn => ?_
    rcases NotificationTable.mem_reschedule hn with ⟨hold, -⟩ | hf
    · exact Or.inl hold
    · -- the rows are a request's, which read its clock at `t0` or later
      refine Or.inr ⟨hf.id, ?_⟩
      obtain ⟨it, hit, hitem⟩ := hf.item
      have hfire : n.fireAt = it.stored.fireAt := congrArg (·.fireAt) hitem
      cases a with
      | party a =>
        cases a with
        | reschedule i =>
          obtain ⟨ro, created, clock, hi, rfl, rfl⟩ := ha
          have hwhole : Whole ro.stages.items :=
            hW.read _ (List.mem_of_getElem? hi) ro rfl
          have hclock : t0 ≤ clock := hreads _ hi clock rfl
          have hlt := lt_stored_of_mem_scheduleItems hwhole hit
          have := pgTimestamp_le t0
          omega
        | _ => exact ha.elim
      | rescheduleNotifications rid items => exact hreads.elim
      | _ => exact ha.elim
  | tick hdue => exact h.tick hdue
  | skip he => exact h.of_disp rfl rfl
  | load => exact h.of_disp rfl rfl
  | announce ho => exact h.of_disp rfl (by simp [ticksSince])
  | mark ha ht =>
    rcases ht with rfl | ⟨hnul, -⟩
    · exact h.mark
    · exact absurd hnul (by simp [hok ha _ rfl])

/-- The rows due at `t0`. -/
def dueIds (t0 : Int) (t : NotificationTable) : Finset Nat := ((t.due t0).map (·.id)).toFinset

/-- The ids that are owed are those of the due rows. -/
theorem mem_dueIds {t : NotificationTable} {n : Notification} (hn : n ∈ t.rows) :
    n.id ∈ dueIds t0 t ↔ n ∈ t.due t0 := by
  rw [dueIds, List.mem_toFinset]
  constructor
  · intro h
    obtain ⟨m, hm, hid⟩ := List.mem_map.mp h
    rw [← NotificationTable.eq_of_id (NotificationTable.mem_due.mp hm).1 hn hid]
    exact hm
  · exact List.mem_map_of_mem

/-- There are as many. -/
theorem card_dueIds (t0 : Int) (t : NotificationTable) :
    (dueIds t0 t).card = (t.due t0).length := by
  have hd : (t.due t0).Sublist t.rows := List.filter_sublist
  rw [dueIds, List.toFinset_card_of_nodup (t.ids_nodup.sublist (hd.map _)), List.length_map]

/-- At the start everything due is owed. -/
theorem draining_start (t0 : Int) (store : Store) (now : Int) :
    Draining t0 (dueIds t0 store.notifications) (Queue.start store now).view where
  bounded := Retry.bounded_start fun id _ => triesLeft_le store.notifications id
  known id hid := by
    obtain ⟨n, hn, rfl⟩ := List.mem_map.mp (List.mem_toFinset.mp hid)
    exact store.notifications.ids_lt n (NotificationTable.mem_due.mp hn).1
  due n hn _ hid := (NotificationTable.mem_due.mp ((mem_dueIds hn).mp hid)).2.2
  later n hn hu hid := by
    by_contra hle
    exact hid ((mem_dueIds hn).mpr (NotificationTable.mem_due.mpr ⟨hn, hu, by omega⟩))

/-- The count is kept in every run. -/
theorem draining_run {store : Store} {now : Int} {as : List QueueAction}
    (hwhole : Api.WholeStarts store)
    (hrun : (queue cfg).Along (fun q a => MarkSucceeds q a ∧ ReadsAfter t0 q a)
      (.start store now) as)
    (he : (queue cfg).exec (.start store now) as = some q) :
    Draining t0 (dueIds t0 store.notifications) q.view := by
  have hstart : WholeTimes (Queue.start store now).sys := ⟨hwhole, by simp [Queue.start, start]⟩
  refine ((queue cfg).exec_invariant_along
    (I := fun q => WholeTimes q.sys ∧ Draining t0 (dueIds t0 store.notifications) q.view)
    ?_ ⟨hstart, draining_start t0 store now⟩ hrun he).2
  intro q a q' hI hG hs
  refine ⟨wholeTimes_queueStep hI.1 hs,
    draining_effect (queueStep_effect hs) hI.1 hG.2 ?_ hI.2⟩
  intro ha
  subst ha
  exact hG.1

/-- **No row starves**: of the `n` rows due at `t0`, none is unsent once `5 + n / 20`
ticks at or after `t0` have run, nor ever after. Starts are stored at database
resolution, every mark succeeds, and who reschedules read the clock at `t0` or later. -/
theorem no_starvation {store : Store} {now t0 : Int} {as bs : List QueueAction}
    (hwhole : Api.WholeStarts store)
    (hrun : (queue cfg).Along (fun q a => MarkSucceeds q a ∧ ReadsAfter t0 q a)
      (.start store now) as)
    (he : (queue cfg).exec (.start store now) as = some q) (hidle : q.disp = .loop [])
    (hticks : 5 + (store.notifications.due t0).length / 20 ≤ ticksSince t0 q.log)
    (hlater : (queue cfg).exec q bs = some q') :
    ∀ r ∈ store.notifications.due t0, ∀ n ∈ q'.table.rows, n.id = r.id → ¬n.unsent := by
  intro r hr
  have hD := draining_run hwhole hrun he
  have hin : r.id ∈ dueIds t0 store.notifications :=
    (mem_dueIds (NotificationTable.mem_due.mp hr).1).mpr hr
  have hbounded := hD.bounded
  rw [show q.view.disp.hand.map (·.id) = [] by rw [show q.view.disp = .loop [] from hidle]; rfl]
    at hbounded
  have hnone : triesLeft q.table r.id = 0 := by
    refine hbounded.finished (by decide) (by decide) ?_ r.id hin
    rw [card_dueIds]
    exact Nat.le_trans (by omega) hticks
  -- no unsent row has the id, and none ever will
  have hset : Settled r.id q.view := by
    refine ⟨hD.known r.id hin, ?_, ?_⟩
    · rw [show q.view.disp = .loop [] from hidle]
      simp [Disp.hand]
    · intro m hm hid hu
      have hpos := triesLeft_of_mem hm hu
      rw [hid, show triesLeft q.view.table r.id = 0 from hnone] at hpos
      omega
  exact (settled_run hset hlater).1.rows

/-- A row due at 0 that has failed `k` times. -/
def failedRow (k : Nat) : Notification :=
  ⟨0, "r1", 0, .TMS_NP, 0, none, if k = 0 then none else some "timeout", k⟩

/-- One rollout with one row due. -/
def dueStore : Store :=
  { sampleStore with
    rollouts := [⟨"r1", "p1", "t1", "Title", "", "", "", 0, 0, none⟩]
    rolloutStages := [⟨"r1", 0, "non-prod", hour, hour, "scheduled"⟩]
    notifications := ⟨[failedRow 0], 1, by decide, by decide, by decide⟩ }

/-- Five ticks, and every read of the rollout times out. -/
def failingTicks : List QueueAction :=
  (List.range 5).flatMap fun k =>
    [.party (.tick [failedRow k]), .rolloutFails ⟨"timeout", by decide⟩, .markNotificationSent]

theorem no_starvation_failing :
    ∃ q, (queue sampleTeams).exec (.start dueStore 0) failingTicks = some q ∧
      dueStore.notifications.due 0 = [failedRow 0] ∧
      ∀ r ∈ dueStore.notifications.due 0, ∀ n ∈ q.table.rows, n.id = r.id → ¬n.unsent := by
  have hrun : ∃ q, (queue sampleTeams).exec (.start dueStore 0) failingTicks = some q ∧
      q.disp = .loop [] ∧
      5 + (dueStore.notifications.due 0).length / 20 ≤ ticksSince 0 q.log := by
    decide
  obtain ⟨q, hq, hidle, hticks⟩ := hrun
  have hlater : (queue sampleTeams).exec q [] = some q := rfl
  exact ⟨q, hq, by decide,
    no_starvation (by decide) (by decide) hq hidle hticks hlater⟩

end Notify

end ReleaseRadar
