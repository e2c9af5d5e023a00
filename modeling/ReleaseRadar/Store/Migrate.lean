import Mathlib.Data.String.Basic
import ReleaseRadar.Lib.Lookup
import ReleaseRadar.Lib.Machine
import ReleaseRadar.Store.Tables

/-!
# Migrations

`Migrate` of `backend/internal/store/store.go`, as runs that overlap. A run lists the
bundled files, makes sure of `schema_migrations`, reads which versions are there (and does
not ask whether the reading ended early), and goes through the files: what it has read it
skips, every other file it executes and records in one transaction. It may end anywhere.

What keeps the migrations in order, each applied once, is not the check before a
transaction but the primary key in it. A run only passes a file that is committed; so when
it records one that is not, the committed files are exactly those before it, nothing was
committed since its transaction began, and nobody else commits until it ends (`RunInv`,
`Inv`). From this: `migrations_applied_once`.

What a script does is a parameter: a function of the database apart from
`schema_migrations`. A script leaves that table alone and has no say over the transaction.
-/

namespace ReleaseRadar

open Lib

/-! ## The files -/

/-- An entry of the embedded directory. -/
structure DirEntry where
  name : String
  isDir : Bool
  content : String
deriving DecidableEq, Repr

structure Migration where
  version : String
  sql : String
deriving DecidableEq, Repr

/-- `strings.HasSuffix`. -/
def hasSuffix (s suffix : String) : Bool := suffix.toList.isSuffixOf s.toList

/-- `strings.TrimSuffix`. -/
def trimSuffix (s suffix : String) : String :=
  if hasSuffix s suffix then
    String.ofList (s.toList.take (s.toList.length - suffix.toList.length))
  else s

def listMigrations (entries : List DirEntry) : List Migration :=
  orderBy (·.version)
    ((entries.filter fun e => !(e.isDir || !hasSuffix e.name ".sql")).map fun e =>
      ⟨trimSuffix e.name ".sql", e.content⟩)

/-- The files come in the lexicographic order of their versions. -/
theorem listMigrations_sorted {entries : List DirEntry}
    (hdistinct : ((listMigrations entries).map (·.version)).Nodup) :
    (listMigrations entries).Pairwise fun a b => a.version < b.version := by
  let byVersion : Migration → Migration → Prop := fun a b => a.version ≤ b.version
  have : Std.Total byVersion := ⟨fun a b => le_total a.version b.version⟩
  have : IsTrans Migration byVersion := ⟨fun _ _ _ => le_trans⟩
  have hle : (listMigrations entries).Pairwise fun a b => a.version ≤ b.version :=
    List.pairwise_insertionSort byVersion _
  have hne := List.pairwise_map.mp hdistinct
  exact (hle.and hne).imp fun h => lt_of_le_of_ne h.1 h.2

namespace Migrate

/-! ## Runs -/

/-- Where a run is. Inside a transaction it has a working copy of the database, which nobody
else sees. -/
inductive Phase (σ : Type)
  /-- The files are listed. -/
  | listed
  /-- `schema_migrations` is there. -/
  | ensured
  /-- Before the next file. -/
  | loop (applied : List String) (rest : List Migration)
  /-- In a transaction for the file. -/
  | begun (applied : List String) (m : Migration) (rest : List Migration)
  /-- The script is running; so many migrations were committed when it began. -/
  | executing (applied : List String) (m : Migration) (rest : List Migration) (since : Nat)
  /-- The script is through. -/
  | executed (applied : List String) (m : Migration) (rest : List Migration) (work : σ)
  /-- The version is inserted. -/
  | recorded (applied : List String) (m : Migration) (rest : List Migration) (work : σ)
  /-- `Migrate` has returned `nil`. -/
  | returned
  /-- `Migrate` has returned an error, or the process is gone. -/
  | stopped

/-- What is committed: the rows of `schema_migrations` and everything else; `log` keeps which
migrations that came from, in their order. -/
structure Database (σ : Type) where
  rest : σ
  versions : List String
  log : List Migration

structure State (σ : Type) where
  db : Database σ
  runs : List (Phase σ)

/-- What a run does next. -/
inductive Move (σ : Type)
  | ensure
  /-- The rows that came before the reading ended. -/
  | read (seen : List String)
  | skip
  | beginTx
  | execute
  /-- The script ends; `mixed` is what it comes to when others committed while it ran. -/
  | executed (mixed : Option σ)
  | record
  | commit
  /-- The commit is through, and the answer to it lost. -/
  | commitLost
  | finish
  /-- A statement fails, or the process does; an open transaction is rolled back. -/
  | stop

inductive Act (σ : Type)
  | start
  | move (p : Nat) (mv : Move σ)

section Model

variable {σ : Type} (sql : String → σ → Option σ) (files : List Migration)

/-- An open transaction has inserted the version. -/
def Phase.records (version : String) : Phase σ → Bool
  | recorded _ m _ _ => m.version == version
  | _ => false

/-- Nothing is left to do. -/
def Phase.over : Phase σ → Bool
  | returned => true
  | stopped => true
  | _ => false

def State.set (s : State σ) (p : Nat) (phase : Phase σ) : State σ :=
  { s with runs := s.runs.set p phase }

/-- The transaction of a migration is committed. -/
def Database.commit (db : Database σ) (m : Migration) (work : σ) : Database σ :=
  ⟨work, db.versions ++ [m.version], db.log ++ [m]⟩

/-- One step of run `p`. An insert waits for an open transaction that has inserted the same
version, and fails on a committed one. -/
def runStep (s : State σ) (p : Nat) : Phase σ → Move σ → Option (State σ)
  | .listed, .ensure => some (s.set p .ensured)
  | .ensured, .read seen =>
    if seen.all (s.db.versions.contains ·) then some (s.set p (.loop seen files)) else none
  | .loop applied (m :: rest), .skip =>
    if applied.contains m.version then some (s.set p (.loop applied rest)) else none
  | .loop applied (m :: rest), .beginTx =>
    if applied.contains m.version then none else some (s.set p (.begun applied m rest))
  | .begun applied m rest, .execute =>
    some (s.set p (.executing applied m rest s.db.log.length))
  | .executing applied m rest since, .executed mixed =>
    (if s.db.log.length = since then sql m.sql s.db.rest else mixed).map fun work =>
      s.set p (.executed applied m rest work)
  | .executed applied m rest work, .record =>
    if s.db.versions.contains m.version then some (s.set p .stopped)
    else if s.runs.any (·.records m.version) then none
    else some (s.set p (.recorded applied m rest work))
  | .recorded applied m rest work, .commit =>
    some ⟨s.db.commit m work, s.runs.set p (.loop applied rest)⟩
  | .recorded _ m _ work, .commitLost => some ⟨s.db.commit m work, s.runs.set p .stopped⟩
  | .loop _ [], .finish => some (s.set p .returned)
  | _, .stop => some (s.set p .stopped)
  | _, _ => none

def step (s : State σ) : Act σ → Option (State σ)
  | .start => some { s with runs := s.runs ++ [.listed] }
  | .move p mv => s.runs[p]?.bind fun phase => runStep sql files s p phase mv

/-- Any number of runs, over one database. -/
def migrate : Machine (State σ) (Act σ) := ⟨step sql files⟩

/-- A database without migrations, and no run. -/
def initial (db₀ : σ) : State σ := ⟨⟨db₀, [], []⟩, []⟩

/-- The scripts, one after the other. -/
def applyAll (ms : List Migration) (db : σ) : Option σ := ms.foldlM (fun db m => sql m.sql db) db

/-- One more migration after the others. -/
theorem applyAll_concat {ms : List Migration} {m : Migration} {db₀ db work : σ}
    (h : applyAll sql ms db₀ = some db) (hm : sql m.sql db = some work) :
    applyAll sql (ms ++ [m]) db₀ = some work := by
  simp only [applyAll] at h ⊢
  simp only [List.foldlM_append, h, List.foldlM_cons, List.foldlM_nil, Option.bind_eq_bind,
    Option.bind_some, hm, Option.pure_def]

/-! ## The invariant -/

/-- What is committed is a beginning of the files, each of them once and with its row. -/
structure Committed (db₀ : σ) (db : Database σ) : Prop where
  beginning : db.log <+: files
  versions : db.versions = db.log.map (·.version)
  rest : applyAll sql db.log db₀ = some db.rest

/-- Every file before `todo` is committed. -/
def Passed (log todo : List Migration) : Prop :=
  ∃ passed, passed <+: log ∧ passed ++ todo = files

/-- What is true of a run wherever it is. -/
def RunInv (db : Database σ) : Phase σ → Prop
  | .loop applied rest => applied ⊆ db.versions ∧ Passed files db.log rest
  | .begun applied m rest => applied ⊆ db.versions ∧ Passed files db.log (m :: rest)
  | .executing applied m rest since =>
    applied ⊆ db.versions ∧ Passed files db.log (m :: rest) ∧
      files.length ≤ since + (m :: rest).length ∧ since ≤ db.log.length
  | .executed applied m rest work =>
    applied ⊆ db.versions ∧ Passed files db.log (m :: rest) ∧
      (db.log ++ m :: rest = files → sql m.sql db.rest = some work)
  | .recorded applied m rest work =>
    applied ⊆ db.versions ∧ db.log ++ m :: rest = files ∧ sql m.sql db.rest = some work
  | .returned => db.log = files
  | _ => True

/-- The run holds an insert that others may wait for. -/
def Phase.recording : Phase σ → Bool
  | recorded .. => true
  | _ => false

/-- At most one run does. -/
def Alone (runs : List (Phase σ)) : Prop :=
  ∀ (p q : Nat) (φ ψ : Phase σ), runs[p]? = some φ → runs[q]? = some ψ →
    φ.recording → ψ.recording → p = q

structure Inv (db₀ : σ) (s : State σ) : Prop where
  committed : Committed sql files db₀ s.db
  runs : ∀ phase ∈ s.runs, RunInv sql files s.db phase
  alone : Alone s.runs

/-! ## What a step does to it -/

theorem Phase.records_of_not_recording {version : String} {φ : Phase σ}
    (h : φ.recording = false) : φ.records version = false := by
  cases φ with
  | recorded => cases h
  | _ => rfl

/-- A run that is over records nothing. -/
theorem Phase.not_recording_of_over {φ : Phase σ} (h : φ.over) : φ.recording = false := by
  cases φ with
  | recorded => cases h
  | _ => rfl

variable {sql files}

/-- Where a run stands before a file, either the file is committed, or exactly the files
before it are. -/
theorem Passed.next {log rest : List Migration} {m : Migration}
    (hdistinct : (files.map (·.version)).Nodup) (hlog : log <+: files)
    (hp : Passed files log (m :: rest)) :
    (m.version ∈ log.map (·.version) ∧ Passed files log rest) ∨
      (m.version ∉ log.map (·.version) ∧ log ++ m :: rest = files) := by
  obtain ⟨passed, ⟨more, rfl⟩, hfiles⟩ := hp
  obtain ⟨coming, hcoming⟩ := hlog
  have htail : more ++ coming = m :: rest := by
    have := hcoming.trans hfiles.symm
    rwa [List.append_assoc, List.append_cancel_left_eq] at this
  cases more with
  | nil =>
    refine .inr ⟨?_, by simpa using hfiles⟩
    rw [← hfiles, List.map_append, List.nodup_append] at hdistinct
    simp only [List.append_nil]
    exact fun hm => hdistinct.2.2 _ hm _ (by simp) rfl
  | cons first more =>
    obtain ⟨rfl, rfl⟩ := List.cons.inj htail
    refine .inl ⟨by simp, passed ++ [first], ?_, by simpa using hfiles⟩
    exact ⟨more, by simp⟩

/-- What is behind a run stays behind it. -/
theorem Passed.mono {log log' rest : List Migration} (h : Passed files log rest)
    (hlog : log <+: log') : Passed files log' rest := by
  obtain ⟨passed, hpassed, hfiles⟩ := h
  exact ⟨passed, hpassed.trans hlog, hfiles⟩

theorem Passed.length_le {log rest : List Migration} (h : Passed files log rest) :
    files.length ≤ log.length + rest.length := by
  obtain ⟨passed, hpassed, rfl⟩ := h
  have := hpassed.length_le
  simp only [List.length_append]
  omega

/-- The committed transaction of the next file. -/
theorem Committed.commit {db₀ work : σ} {db : Database σ} {m : Migration} {rest : List Migration}
    (h : Committed sql files db₀ db) (hnext : db.log ++ m :: rest = files)
    (hm : sql m.sql db.rest = some work) : Committed sql files db₀ (db.commit m work) where
  beginning := ⟨rest, by simpa [Database.commit] using hnext⟩
  versions := by simp [Database.commit, h.versions]
  rest := applyAll_concat sql h.rest hm

/-- Another run's commit leaves a run that holds no insert where it is. -/
theorem RunInv.commit {db : Database σ} {m : Migration} {rest : List Migration} {work : σ}
    {phase : Phase σ} (hnext : db.log ++ m :: rest = files) (h : RunInv sql files db phase)
    (hphase : phase.recording = false) : RunInv sql files (db.commit m work) phase := by
  have hlog : db.log <+: (db.commit m work).log := List.prefix_append _ _
  have hversions : db.versions ⊆ (db.commit m work).versions := List.subset_append_left _ _
  have hlen : (db.commit m work).log.length = db.log.length + 1 := by simp [Database.commit]
  cases phase with
  | listed => trivial
  | ensured => trivial
  | stopped => trivial
  | loop applied todo => exact ⟨fun _ hv => hversions (h.1 hv), h.2.mono hlog⟩
  | begun applied m' todo => exact ⟨fun _ hv => hversions (h.1 hv), h.2.mono hlog⟩
  | executing applied m' todo since =>
    obtain ⟨happlied, hpassed, hsince, hlast⟩ := h
    exact ⟨fun _ hv => hversions (happlied hv), hpassed.mono hlog, hsince, by omega⟩
  | executed applied m' todo work' =>
    obtain ⟨happlied, hpassed, -⟩ := h
    refine ⟨fun _ hv => hversions (happlied hv), hpassed.mono hlog, fun hfiles => ?_⟩
    -- one more than the files before `m'` is committed now
    have hle := hpassed.length_le
    rw [← hfiles, List.length_append, hlen] at hle
    omega
  | recorded => cases hphase
  | returned =>
    have hall : db.log = files := h
    have := congrArg List.length (hall.trans hnext.symm)
    simp at this

/-- Who stops recording leaves the other alone. -/
theorem Alone.set {runs : List (Phase σ)} {p : Nat} {phase : Phase σ} (h : Alone runs)
    (hothers : phase.recording → ∀ q ψ, q ≠ p → runs[q]? = some ψ → ψ.recording = false) :
    Alone (runs.set p phase) := by
  intro q r φ ψ hq hr hφ hψ
  rcases of_getElem?_set hq with ⟨rfl, rfl⟩ | ⟨hpq, hq'⟩
  · rcases of_getElem?_set hr with ⟨hpr, -⟩ | ⟨hpr, hr'⟩
    · exact hpr
    · have := hothers hφ r ψ (Ne.symm hpr) hr'
      rw [hψ] at this
      cases this
  · rcases of_getElem?_set hr with ⟨rfl, rfl⟩ | ⟨-, hr'⟩
    · have := hothers hψ q φ (Ne.symm hpq) hq'
      rw [hφ] at this
      cases this
    · exact h q r φ ψ hq' hr' hφ hψ

/-- A run moves on, and nothing is committed. -/
theorem Inv.set {db₀ : σ} {s : State σ} {p : Nat} {phase : Phase σ} (h : Inv sql files db₀ s)
    (hphase : RunInv sql files s.db phase)
    (hothers : phase.recording → ∀ q ψ, q ≠ p → s.runs[q]? = some ψ → ψ.recording = false) :
    Inv sql files db₀ (s.set p phase) where
  committed := h.committed
  runs := by
    intro φ hφ
    rcases List.mem_or_eq_of_mem_set hφ with hφ | rfl
    · exact h.runs φ hφ
    · exact hphase
  alone := h.alone.set hothers

/-- The run that holds the insert commits. -/
theorem Inv.commit {db₀ work : σ} {s : State σ} {p : Nat} {phase : Phase σ}
    {applied : List String} {m : Migration} {rest : List Migration} (h : Inv sql files db₀ s)
    (hp : s.runs[p]? = some (.recorded applied m rest work)) (hphase : phase.recording = false)
    (hkeeps : RunInv sql files (s.db.commit m work) phase) :
    Inv sql files db₀ ⟨s.db.commit m work, s.runs.set p phase⟩ := by
  obtain ⟨-, hnext, hwork⟩ := h.runs _ (List.mem_of_getElem? hp)
  have hothers : ∀ q ψ, q ≠ p → s.runs[q]? = some ψ → ψ.recording = false := by
    intro q ψ hne hq
    refine Bool.eq_false_iff.mpr fun hψ => hne ?_
    exact h.alone q p ψ _ hq hp hψ rfl
  refine ⟨h.committed.commit hnext hwork, fun φ hφ => ?_, h.alone.set (by simp [hphase])⟩
  obtain ⟨q, hq⟩ := List.mem_iff_getElem?.mp hφ
  rcases of_getElem?_set hq with ⟨-, rfl⟩ | ⟨hne, hq⟩
  · exact hkeeps
  · exact (h.runs φ (List.mem_of_getElem? hq)).commit hnext (hothers q φ (Ne.symm hne) hq)

/-- The run inserts the version of a file that is not committed: no other run can be that far,
since it would be with the same file. -/
theorem Inv.record {db₀ work : σ} {s : State σ} {p : Nat} {applied : List String}
    {m : Migration} {rest : List Migration} (hdistinct : (files.map (·.version)).Nodup)
    (h : Inv sql files db₀ s) (hp : s.runs[p]? = some (.executed applied m rest work))
    (hfresh : m.version ∉ s.db.versions) (hfree : s.runs.any (·.records m.version) = false) :
    Inv sql files db₀ (s.set p (.recorded applied m rest work)) := by
  obtain ⟨happlied, hpassed, hwork⟩ := h.runs _ (List.mem_of_getElem? hp)
  rw [h.committed.versions] at hfresh
  have hnext : s.db.log ++ m :: rest = files := by
    rcases hpassed.next hdistinct h.committed.beginning with ⟨hin, -⟩ | ⟨-, hnext⟩
    · exact absurd hin hfresh
    · exact hnext
  refine h.set ⟨happlied, hnext, hwork hnext⟩ fun _ q ψ hne hq => ?_
  have hmem := List.mem_of_getElem? hq
  cases ψ with
  | recorded applied' m' rest' work' =>
    obtain ⟨-, hnext', -⟩ := h.runs _ hmem
    obtain ⟨rfl, -⟩ := List.cons.inj (List.append_cancel_left (hnext'.trans hnext.symm))
    have := List.any_eq_false.mp hfree _ hmem
    simp [Phase.records] at this
  | _ => rfl

/-- The run has read the version of the file that is next. -/
theorem Inv.skip {db₀ : σ} {s : State σ} {applied : List String} {m : Migration}
    {rest : List Migration} (hdistinct : (files.map (·.version)).Nodup)
    (h : Inv sql files db₀ s) (hrun : RunInv sql files s.db (.loop applied (m :: rest)))
    (hm : m.version ∈ applied) : RunInv sql files s.db (.loop applied rest) := by
  refine ⟨hrun.1, ?_⟩
  have hrow : m.version ∈ s.db.log.map (·.version) := h.committed.versions ▸ hrun.1 hm
  rcases hrun.2.next hdistinct h.committed.beginning with ⟨-, hpassed⟩ | ⟨hnot, -⟩
  · exact hpassed
  · exact absurd hrow hnot

/-- The script ends. It counts only where nothing was committed while it ran. -/
theorem RunInv.executed {db : Database σ} {applied : List String} {m : Migration}
    {rest : List Migration} {since : Nat} {mixed : Option σ} {work : σ}
    (hrun : RunInv sql files db (.executing applied m rest since))
    (hwork : (if db.log.length = since then sql m.sql db.rest else mixed) = some work) :
    RunInv sql files db (.executed applied m rest work) := by
  obtain ⟨happlied, hpassed, hsince, hlast⟩ := hrun
  refine ⟨happlied, hpassed, fun hnext => ?_⟩
  have hlen := congrArg List.length hnext
  rw [List.length_append] at hlen
  rwa [if_pos (by omega)] at hwork

/-- **A step of a run keeps the invariant.** -/
theorem runStep_inv {db₀ : σ} {s s' : State σ} {p : Nat} {phase : Phase σ} {mv : Move σ}
    (hdistinct : (files.map (·.version)).Nodup) (h : Inv sql files db₀ s)
    (hp : s.runs[p]? = some phase) (hs : runStep sql files s p phase mv = some s') :
    Inv sql files db₀ s' := by
  have hrun := h.runs _ (List.mem_of_getElem? hp)
  have hset : ∀ phase, phase.recording = false → RunInv sql files s.db phase →
      Inv sql files db₀ (s.set p phase) :=
    fun _ hphase hkeeps => h.set hkeeps (by simp [hphase])
  revert hs
  fun_cases runStep sql files s p phase mv <;> intro hs <;> try cases hs
  case case1 => exact hset _ rfl trivial
  case case2 seen hseen =>
    refine hset _ rfl ⟨fun v hv => ?_, [], List.nil_prefix, rfl⟩
    simpa using List.all_eq_true.mp hseen v hv
  case case4 applied m rest hm =>
    exact hset _ rfl (h.skip hdistinct hrun (by simpa using hm))
  case case7 => exact hset _ rfl hrun
  case case8 applied m rest =>
    refine hset _ rfl ⟨hrun.1, hrun.2, ?_, Nat.le_refl _⟩
    exact hrun.2.length_le
  case case9 =>
    obtain ⟨work, hwork, rfl⟩ := Option.map_eq_some_iff.mp hs
    exact hset _ rfl (hrun.executed hwork)
  case case10 => exact hset _ rfl trivial
  case case12 applied m rest work hfresh hfree =>
    exact h.record hdistinct hp (by simpa using hfresh) (by simpa using hfree)
  case case13 applied m rest work =>
    obtain ⟨happlied, hnext, -⟩ := hrun
    refine h.commit hp rfl ⟨fun v hv => List.mem_append_left _ (happlied hv), ?_⟩
    exact ⟨s.db.log ++ [m], List.prefix_refl _, by simpa using hnext⟩
  case case14 => exact h.commit hp rfl trivial
  case case15 applied =>
    obtain ⟨passed, hpassed, hall⟩ := hrun.2
    rw [List.append_nil] at hall
    subst hall
    exact hset _ rfl (h.committed.beginning.eq_of_length_le hpassed.length_le)
  case case16 => exact hset _ rfl trivial

/-- Every step keeps the invariant. -/
theorem step_inv {db₀ : σ} (hdistinct : (files.map (·.version)).Nodup) (s : State σ) (a : Act σ)
    (s' : State σ) (h : Inv sql files db₀ s) (hs : (migrate sql files).step s a = some s') :
    Inv sql files db₀ s' := by
  cases a with
  | start =>
    obtain rfl := Option.some.inj hs
    have hnew : ∀ (q : Nat) (ψ : Phase σ), (s.runs ++ [Phase.listed])[q]? = some ψ →
        ψ.recording → s.runs[q]? = some ψ := by
      intro q ψ hq hψ
      rcases of_getElem?_concat hq with hq | ⟨-, rfl⟩
      · exact hq
      · cases hψ
    refine ⟨h.committed, fun φ hφ => ?_, fun q r φ ψ hq hr hφ hψ => ?_⟩
    · rcases List.mem_append.mp hφ with hφ | hφ
      · exact h.runs φ hφ
      · obtain rfl := List.mem_singleton.mp hφ
        trivial
    · exact h.alone q r φ ψ (hnew q φ hq hφ) (hnew r ψ hr hψ) hφ hψ
  | move p mv =>
    obtain ⟨phase, hp, hs⟩ := Option.bind_eq_some_iff.mp hs
    exact runStep_inv hdistinct h hp hs

/-- So does every run. -/
theorem exec_inv {db₀ : σ} {acts : List (Act σ)} {s : State σ}
    (hdistinct : (files.map (·.version)).Nodup)
    (hrun : (migrate sql files).exec (initial db₀) acts = some s) : Inv sql files db₀ s := by
  refine (migrate sql files).exec_invariant (step_inv hdistinct) ?_ hrun
  exact ⟨⟨List.nil_prefix, rfl, rfl⟩, by simp [initial], by simp [Alone, initial]⟩

/-- Only a run that holds an insert changes what is committed. -/
theorem runStep_db {s s' : State σ} {p : Nat} {phase : Phase σ} {mv : Move σ}
    (hphase : phase.recording = false) (hs : runStep sql files s p phase mv = some s') :
    s'.db = s.db := by
  revert hs
  fun_cases runStep sql files s p phase mv <;> intro hs <;> try cases hs
  case case9 =>
    obtain ⟨work, -, rfl⟩ := Option.map_eq_some_iff.mp hs
    rfl
  case case13 => cases hphase
  case case14 => cases hphase
  all_goals rfl

/-- Where all is committed no run holds an insert. -/
theorem RunInv.idle {db : Database σ} {phase : Phase σ} (hall : db.log = files)
    (h : RunInv sql files db phase) : phase.recording = false := by
  cases phase with
  | recorded applied m rest work =>
    have hnext := h.2.1
    simp [hall] at hnext
  | _ => rfl

/-- Where all is committed, it stays as it is. -/
theorem Inv.all_committed {db₀ : σ} {s t : State σ} {acts : List (Act σ)}
    (hdistinct : (files.map (·.version)).Nodup) (h : Inv sql files db₀ s)
    (hall : s.db.log = files) (hrun : (migrate sql files).exec s acts = some t) :
    t.db = s.db := by
  let done : State σ → Prop := fun t => Inv sql files db₀ t ∧ t.db = s.db
  refine ((migrate sql files).exec_invariant (I := done) ?_ ⟨h, rfl⟩ hrun).2
  rintro u a u' ⟨hu, hdb⟩ hs
  refine ⟨step_inv hdistinct u a u' hu hs, ?_⟩
  cases a with
  | start =>
    obtain rfl := Option.some.inj hs
    exact hdb
  | move p mv =>
    obtain ⟨phase, hp, hs⟩ := Option.bind_eq_some_iff.mp hs
    have hrun := hu.runs _ (List.mem_of_getElem? hp)
    exact (runStep_db (hrun.idle (hdb ▸ hall)) hs).trans hdb

/-! ## A run on its own -/

/-- What a run that has read `versions` does with a file when nothing goes wrong. -/
def fileMoves (versions : List String) (m : Migration) : List (Move σ) :=
  if versions.contains m.version then [.skip]
  else [.beginTx, .execute, .executed none, .record, .commit]

/-- A run that meets no error and no other run. -/
def loneRun (files : List Migration) (s : State σ) : List (Act σ) :=
  .start :: .move s.runs.length .ensure :: .move s.runs.length (.read s.db.versions) ::
    ((files.flatMap (fileMoves s.db.versions)).map (.move s.runs.length) ++
      [.move s.runs.length .finish])

theorem lone_step {db db' : Database σ} {others : List (Phase σ)} {phase phase' : Phase σ}
    {mv : Move σ} {acts : List (Act σ)}
    (h : runStep sql files ⟨db, others ++ [phase]⟩ others.length phase mv =
      some ⟨db', (others ++ [phase]).set others.length phase'⟩) :
    (migrate sql files).exec ⟨db, others ++ [phase]⟩ (.move others.length mv :: acts) =
      (migrate sql files).exec ⟨db', others ++ [phase']⟩ acts := by
  refine Machine.exec_cons _ ?_
  show ((others ++ [phase])[others.length]?).bind _ = _
  rw [List.getElem?_concat_length, Option.bind_some, h]
  simp

/-- It passes a file whose version it has read. -/
theorem lone_skip {db : Database σ} {others : List (Phase σ)} {applied : List String}
    {acts : List (Act σ)} {m : Migration} {rest : List Migration} (hm : m.version ∈ applied) :
    (migrate sql files).exec ⟨db, others ++ [.loop applied (m :: rest)]⟩
        ((fileMoves applied m).map (.move others.length) ++ acts) =
      (migrate sql files).exec ⟨db, others ++ [.loop applied rest]⟩ acts := by
  have hcontains : applied.contains m.version = true := by simpa using hm
  rw [fileMoves, if_pos hcontains]
  refine lone_step ?_
  simp only [runStep, if_pos hcontains]
  rfl

/-- It commits any other file. -/
theorem lone_commit {db : Database σ} {others : List (Phase σ)} {applied : List String}
    {acts : List (Act σ)} {m : Migration} {rest : List Migration} {work : σ}
    (hothers : ∀ φ ∈ others, φ.recording = false) (hm : m.version ∉ applied)
    (hfresh : m.version ∉ db.versions) (hwork : sql m.sql db.rest = some work) :
    (migrate sql files).exec ⟨db, others ++ [.loop applied (m :: rest)]⟩
        ((fileMoves applied m).map (.move others.length) ++ acts) =
      (migrate sql files).exec ⟨db.commit m work, others ++ [.loop applied rest]⟩ acts := by
  have hfree :
      (others ++ [Phase.executed applied m rest work]).any (·.records m.version) = false := by
    refine List.any_eq_false.mpr fun φ hφ => Bool.not_eq_true _ ▸ ?_
    rcases List.mem_append.mp hφ with hφ | hφ
    · exact Phase.records_of_not_recording (hothers φ hφ)
    · obtain rfl := List.mem_singleton.mp hφ
      rfl
  rw [fileMoves, if_neg (by simpa using hm)]
  calc (migrate sql files).exec ⟨db, others ++ [.loop applied (m :: rest)]⟩ _
    _ = (migrate sql files).exec ⟨db, others ++ [.begun applied m rest]⟩ _ :=
        lone_step (by simp only [runStep, List.contains_iff_mem, if_neg hm]; rfl)
    _ = (migrate sql files).exec ⟨db, others ++ [.executing applied m rest db.log.length]⟩ _ :=
        lone_step rfl
    _ = (migrate sql files).exec ⟨db, others ++ [.executed applied m rest work]⟩ _ :=
        lone_step (by simp only [runStep, if_true, hwork]; rfl)
    _ = (migrate sql files).exec ⟨db, others ++ [.recorded applied m rest work]⟩ _ :=
        lone_step (by
          simp only [runStep, List.contains_iff_mem, if_neg hfresh, hfree]
          rfl)
    _ = (migrate sql files).exec ⟨db.commit m work, others ++ [.loop applied rest]⟩ acts :=
        lone_step rfl

/-- A run that is alone skips what was applied. -/
theorem lone_skips {db : Database σ} {others : List (Phase σ)} {applied : List String}
    {acts : List (Act σ)} (todo : List Migration) :
    ∀ done : List Migration, (∀ m ∈ done, m.version ∈ applied) →
      (migrate sql files).exec ⟨db, others ++ [.loop applied (done ++ todo)]⟩
          ((done.flatMap (fileMoves applied)).map (.move others.length) ++ acts) =
        (migrate sql files).exec ⟨db, others ++ [.loop applied todo]⟩ acts := by
  intro done hdone
  induction done with
  | nil => rfl
  | cons m done ih =>
    rw [List.flatMap_cons, List.map_append, List.append_assoc, List.cons_append,
      lone_skip (hdone m List.mem_cons_self)]
    exact ih fun m' hm' => hdone m' (List.mem_cons_of_mem m hm')

/-- And commits the rest, one by one. -/
theorem lone_commits {others : List (Phase σ)} {applied : List String} {acts : List (Act σ)}
    (hothers : ∀ φ ∈ others, φ.recording = false) (todo : List Migration) :
    ∀ {db : Database σ} {work : σ}, (∀ m ∈ todo, m.version ∉ applied) →
      (∀ m ∈ todo, m.version ∉ db.versions) → (todo.map (·.version)).Nodup →
      applyAll sql todo db.rest = some work →
      (migrate sql files).exec ⟨db, others ++ [.loop applied todo]⟩
          ((todo.flatMap (fileMoves applied)).map (.move others.length) ++ acts) =
        (migrate sql files).exec ⟨⟨work, db.versions ++ todo.map (·.version), db.log ++ todo⟩,
          others ++ [.loop applied []]⟩ acts := by
  induction todo with
  | nil =>
    intro db work _ _ _ hwork
    obtain rfl := Option.some.inj hwork
    simp
  | cons m todo ih =>
    intro db work happlied hversions hdistinct hwork
    obtain ⟨work₁, hm, hwork⟩ := Option.bind_eq_some_iff.mp hwork
    obtain ⟨hmtodo, hdistinct⟩ := List.nodup_cons.mp hdistinct
    rw [List.flatMap_cons, List.map_append, List.append_assoc,
      lone_commit hothers (happlied m List.mem_cons_self) (hversions m List.mem_cons_self) hm]
    have hwork : applyAll sql todo (db.commit m work₁).rest = some work := hwork
    refine (ih (fun m' hm' => happlied m' (List.mem_cons_of_mem m hm')) ?_ hdistinct hwork).trans ?_
    · intro m' hm' hrow
      rcases List.mem_append.mp hrow with hrow | hrow
      · exact hversions m' (List.mem_cons_of_mem m hm') hrow
      · exact hmtodo (List.mem_map.mpr ⟨m', hm', List.mem_singleton.mp hrow⟩)
    · simp [Database.commit]

/-- A lone run from any state in which no run is under way: it commits what is left. -/
theorem Inv.lone_run {db₀ work : σ} {s : State σ} {todo : List Migration}
    (hdistinct : (files.map (·.version)).Nodup) (h : Inv sql files db₀ s)
    (hover : ∀ φ ∈ s.runs, φ.over) (htodo : s.db.log ++ todo = files)
    (hwork : applyAll sql todo s.db.rest = some work) :
    (migrate sql files).exec s (loneRun files s) =
      some ⟨⟨work, files.map (·.version), files⟩, s.runs ++ [.returned]⟩ := by
  have hothers : ∀ φ ∈ s.runs, φ.recording = false := fun φ hφ =>
    Phase.not_recording_of_over (hover φ hφ)
  subst htodo
  rw [List.map_append, List.nodup_append] at hdistinct
  have hdone : ∀ m ∈ s.db.log, m.version ∈ s.db.versions := fun m hm =>
    h.committed.versions ▸ List.mem_map_of_mem hm
  have hnew : ∀ m ∈ todo, m.version ∉ s.db.versions := fun m hm hrow =>
    hdistinct.2.2 _ (h.committed.versions ▸ hrow) _ (List.mem_map_of_mem hm) rfl
  have hread : (s.db.versions.all (s.db.versions.contains ·)) = true := by simp
  calc (migrate sql (s.db.log ++ todo)).exec s (loneRun (s.db.log ++ todo) s)
    _ = (migrate sql (s.db.log ++ todo)).exec ⟨s.db, s.runs ++ [.listed]⟩ _ := rfl
    _ = (migrate sql (s.db.log ++ todo)).exec ⟨s.db, s.runs ++ [.ensured]⟩ _ := lone_step rfl
    _ = (migrate sql (s.db.log ++ todo)).exec
          ⟨s.db, s.runs ++ [.loop s.db.versions (s.db.log ++ todo)]⟩ _ :=
        lone_step (by simp only [runStep, hread, if_true]; rfl)
    _ = (migrate sql (s.db.log ++ todo)).exec ⟨s.db, s.runs ++ [.loop s.db.versions todo]⟩ _ := by
        rw [List.flatMap_append, List.map_append, List.append_assoc, lone_skips todo _ hdone]
    _ = (migrate sql (s.db.log ++ todo)).exec
          ⟨⟨work, s.db.versions ++ todo.map (·.version), s.db.log ++ todo⟩,
            s.runs ++ [.loop s.db.versions []]⟩ [.move s.runs.length .finish] :=
        lone_commits hothers todo hnew hnew hdistinct.2.1 hwork
    _ = (migrate sql (s.db.log ++ todo)).exec
          ⟨⟨work, s.db.versions ++ todo.map (·.version), s.db.log ++ todo⟩,
            s.runs ++ [.returned]⟩ [] := lone_step rfl
    _ = some ⟨⟨work, (s.db.log ++ todo).map (·.version), s.db.log ++ todo⟩,
          s.runs ++ [.returned]⟩ := by
        rw [Machine.exec_nil, h.committed.versions, List.map_append]

end Model

/-- **Each migration is applied exactly once and in order.** Whatever runs there were and
wherever they stopped, what is committed is a beginning of the files in their order, each once
and with its row, and the database is what their scripts make of it; a run that returns `nil`
leaves nothing to do. A further run on its own whose scripts go through commits the rest; after
that no run changes anything. -/
theorem migrations_applied_once {σ : Type} {sql : String → σ → Option σ}
    {entries : List DirEntry} {db₀ : σ} {acts : List (Act σ)} {s : State σ}
    (hdistinct : ((listMigrations entries).map (·.version)).Nodup)
    (hrun : (migrate sql (listMigrations entries)).exec (initial db₀) acts = some s) :
    ((listMigrations entries).Pairwise fun a b => a.version < b.version) ∧
    Committed sql (listMigrations entries) db₀ s.db ∧ s.db.versions.Nodup ∧
    (.returned ∈ s.runs → s.db.log = listMigrations entries) ∧
    (∀ todo work, (∀ φ ∈ s.runs, φ.over) → s.db.log ++ todo = listMigrations entries →
      applyAll sql todo s.db.rest = some work →
      (migrate sql (listMigrations entries)).exec s (loneRun (listMigrations entries) s) =
        some ⟨⟨work, (listMigrations entries).map (·.version), listMigrations entries⟩,
          s.runs ++ [.returned]⟩) ∧
    (s.db.log = listMigrations entries → ∀ more t,
      (migrate sql (listMigrations entries)).exec s more = some t → t.db = s.db) := by
  have h := exec_inv hdistinct hrun
  refine ⟨listMigrations_sorted hdistinct, h.committed, ?_, fun hret => h.runs _ hret, ?_, ?_⟩
  · rw [h.committed.versions]
    exact hdistinct.sublist (h.committed.beginning.sublist.map _)
  · exact fun todo work hover htodo hwork => h.lone_run hdistinct hover htodo hwork
  · exact fun hall more t hmore => h.all_committed hdistinct hall hmore

/-- Two scripts and a file that is none. -/
private def bundled : List DirEntry :=
  [⟨"0002_kind.sql", false, "alter"⟩, ⟨"README.md", false, ""⟩, ⟨"0001_init.sql", false, "create"⟩]

/-- A script that is noted, and that goes through once. -/
private def noting (text : String) (db : List String) : Option (List String) :=
  if db.contains text then none else some (db ++ [text])

/-- The first run loses the answer to its first commit; the second reads no row, and its script
fails. -/
private def twoCrashes : List (Act (List String)) :=
  [Act.start, .start] ++
    ([Move.ensure, .read [], .beginTx, .execute, .executed none, .record, .commitLost].map
      (Act.move 0)) ++
    ([Move.ensure, .read [], .beginTx, .execute, .stop].map (Act.move 1))

private def afterCrashes : State (List String) :=
  ⟨⟨["create"], ["0001_init"], [⟨"0001_init", "create"⟩]⟩, [.stopped, .stopped]⟩

theorem migrations_applied_once_crashes :
    (migrate noting (listMigrations bundled)).exec afterCrashes
        (loneRun (listMigrations bundled) afterCrashes) =
      some ⟨⟨["create", "alter"], ["0001_init", "0002_kind"], listMigrations bundled⟩,
        [.stopped, .stopped, .returned]⟩ := by
  have hfiles : listMigrations bundled = [⟨"0001_init", "create"⟩, ⟨"0002_kind", "alter"⟩] := by
    decide
  have hdistinct : ((listMigrations bundled).map (·.version)).Nodup := by rw [hfiles]; decide
  have hrun : (migrate noting (listMigrations bundled)).exec (initial []) twoCrashes =
      some afterCrashes := by
    rw [hfiles]
    rfl
  have h := migrations_applied_once hdistinct hrun
  have hlone := h.2.2.2.2.1 [⟨"0002_kind", "alter"⟩] ["create", "alter"]
    (by simp [afterCrashes, Phase.over]) hfiles.symm (by decide)
  rw [hlone, hfiles]
  rfl

end Migrate

end ReleaseRadar
