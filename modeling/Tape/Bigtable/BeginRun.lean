import Tape.Bigtable.Registry
import Tape.Bigtable.Runs

/-! # One run for an invocation

`begin_run` looks for the run of an invocation in an index row.  If it finds none there, it writes a run row first and
the index row second.  Another driver that has looked in between, or that looks after the first has stopped in
between, begins a run of its own.
-/

namespace Tape.BigtableRunStore.BeginRun

open Interleave Bigtable

/-! ## Calls -/

/-- The arguments of `begin_run`, the clock it reads and the id it draws. -/
structure Call where
  invocation : Invocation
  identity : Identity := {}
  leaseOwner : String
  leaseTtlMs : Int
  ts : Int
  newId : String

abbrev Out (_ : Call) : Type := Except StoreError BeginRunResponse

def body (call : Call) : Prog Op Reply (Out call) :=
  beginRun call.invocation call.identity call.leaseOwner call.leaseTtlMs call.ts call.newId

abbrev runStore : System Contents Op Reply Call Out := machine requestFailed body

abbrev RunConfig : Type := Config Contents Op Reply Call Out

/-- A table without any process running, and nothing executed yet. -/
def quiet (c : Contents) : RunConfig where
  state := c
  log := []
  pool := []

theorem quiet_owned (c : Contents) : (quiet c).Owned := fun _ member => (List.not_mem_nil member).elim

/-- What a run is of. -/
def invocationOf (m : RowMap) : Option Invocation := do
  return ⟨← m.get? "app", ← m.get? "user", ← m.get? "session", ← m.get? "inv"⟩

/-- Runs of invocations that share an index row. -/
def runs (i : Invocation) : Registry where
  index := i.idx
  column := "run"
  object := rkRun
  describes m := (invocationOf m).any fun other => other.idx = i.idx
  makes mutations := (invocationOf (Mutation.applyAll mutations [])).any fun other => other.idx = i.idx
  object_injective _ _ same := by simpa [rkRun] using same
  object_ne_index id same := absurd (RowId.key_eq_iff (a := .run id) (b := .idx i.app i.user i.session i.inv) |>.mp same).1
    (by simp [RowId.tag])

@[simp] theorem runs_index (i : Invocation) : (runs i).index = i.idx := rfl

/-! ## What the calls do -/

/-- The columns of an invocation. -/
def identityColumns : List String := ["app", "user", "session", "inv"]

/-- No operation writes the index row or the invocation of a run. -/
abbrev AllSpare {α : Type} (i : Invocation) (program : BigtableM α) : Prop := program.run.All (runs i).Spares

section Spares

variable {i : Invocation} {key runId : String} {mutations : List Mutation}

theorem invocationOf_applyAll (spared : identityColumns.all fun column => mutations.all (Mutation.spares column))
    (m : RowMap) : invocationOf (Mutation.applyAll mutations m) = invocationOf m := by
  have kept := List.all_eq_true.mp spared
  simp only [invocationOf, Mutation.get?_applyAll_of_spares (kept "app" (by decide)),
    Mutation.get?_applyAll_of_spares (kept "user" (by decide)),
    Mutation.get?_applyAll_of_spares (kept "session" (by decide)), Mutation.get?_applyAll_of_spares (kept "inv" (by decide))]

theorem spares_write (other : key ≠ i.idx)
    (spared : identityColumns.all fun column => mutations.all (Mutation.spares column)) :
    (runs i).Spares (.mutateRow key mutations) := by
  have nothing : ((invocationOf (Mutation.applyAll mutations [])).any fun other => other.idx = i.idx) = false := by
    rw [invocationOf_applyAll spared]
    rfl
  refine ⟨other, nothing, fun _ _ => ⟨nothing, fun m some_ => ⟨?_, ?_⟩⟩⟩
  · exact Mutation.applyAll_ne_nil (List.all_eq_true.mp spared "app" (by decide)) some_
  · simp only [runs, invocationOf_applyAll spared]
    exact id

theorem rkRun_ne_idx (runId : String) (i : Invocation) : rkRun runId ≠ i.idx := (runs i).object_ne_index runId

theorem AllSpare.pure {α : Type} (value : α) : AllSpare i (Pure.pure value) := trivial

theorem AllSpare.bind {α β : Type} {program : BigtableM α} {f : α → BigtableM β} (first : AllSpare i program)
    (rest : ∀ value, AllSpare i (f value)) : AllSpare i (program >>= f) := Prog.All.exceptBind first rest

theorem AllSpare.perform {op : Op} (spares : (runs i).Spares op) : AllSpare i (BigtableRunStore.perform op) :=
  ⟨spares, fun _ => trivial⟩

theorem AllSpare.attempt {α : Type} {program : BigtableM α} (all : AllSpare i program) : AllSpare i (attempt program) :=
  Prog.All.bind all fun _ => trivial

theorem allSpare_nextSeq : AllSpare i (nextSeq runId) :=
  .bind (.perform trivial) fun _ => .bind (.perform (spares_write (rkRun_ne_idx _ _) rfl)) fun _ => .pure _

theorem allSpare_journal {seq ts : Int} {kind : String} {payload : Json} : AllSpare i (journal runId seq kind payload ts) := by
  have entry : ∀ seq, rkJournal runId seq ≠ i.idx := by
    intro seq same
    have first := congrArg String.toList same
    simp [rkJournal, Invocation.idx, rkIdx] at first
  have global : ∀ globalSeq, rkJournalGs globalSeq ≠ i.idx := by
    intro globalSeq same
    have first := congrArg String.toList same
    simp [rkJournalGs, Invocation.idx, rkIdx] at first
  refine .bind (.perform trivial) fun globalSeq => ?_
  split
  · exact .bind (.perform (spares_write (entry _) rfl)) fun _ => .perform (spares_write (global _) rfl)
  · exact .perform (spares_write (global _) rfl)

theorem rkRoute_ne_idx (app user name : String) (i : Invocation) : rkRoute app user name ≠ i.idx := by
  intro same
  have first := congrArg String.toList same
  simp [rkRoute, Invocation.idx, rkIdx] at first

end Spares

section Programs

variable {i : Invocation} {tid : Nat} {call : Call} {h : BigtableHist}

/-- The call, if it is for this index row, has had it name the run or found that it does. -/
def Found (i : Invocation) (call : Call) (runId : String) (log : List BigtableEvent) : Prop :=
  call.invocation.idx = i.idx → ∃ event ∈ log, (runs i).Finds runId event

theorem Found.mono {runId : String} {log log' : List BigtableEvent} (grown : log <:+ log') (found : Found i call runId log) :
    Found i call runId log' := by
  intro own
  obtain ⟨event, member, finds⟩ := found own
  exact ⟨event, grown.mem member, finds⟩

/-- The run that a call has begun or found. -/
def runPost (i : Invocation) (_ : Nat) (call : Call) (result : Out call) (h : BigtableHist) : Prop :=
  ∀ response, result = .ok response → Found i call response.runId h.log

abbrev runContract (i : Invocation) (tid : Nat) (call : Call) : Contract Contents Op Reply :=
  runStore.tracked (fun _ _ _ _ => True) (fun tid _ h op => (runs i).Steps tid h op) tid call

theorem invocationOf_newRun (other : Invocation) (identity : Identity) (leaseOwner : String) (leaseExp ts : Int) (m : RowMap) :
    invocationOf (Mutation.applyAll (newRun other identity leaseOwner leaseExp ts) m) = some other := by
  simp [invocationOf, newRun, set, Mutation.apply]

/-- The row of a new run. -/
theorem steps_newRun {identity : Identity} {leaseOwner newId : String} {leaseExp ts : Int} {other : Invocation}
    (missed : other.idx = i.idx → (runs i).Missed tid h.log) :
    (runs i).Steps tid h (.mutateRow (rkRun newId) (newRun other identity leaseOwner leaseExp ts)) := by
  by_cases own : other.idx = i.idx
  · refine .create (r := runs i) ?_ (fun m => ?_) (missed own)
    · simp [runs, invocationOf_newRun, own]
    · intro nothing
      have of := invocationOf_newRun other identity leaseOwner leaseExp ts m
      rw [nothing] at of
      cases of
  · refine .spare ⟨rkRun_ne_idx _ _, ?_, fun _ _ => ⟨?_, fun m some_ => ⟨?_, ?_⟩⟩⟩
    · simp [runs, invocationOf_newRun, own]
    · simp [runs, invocationOf_newRun, own]
    · intro nothing
      have of := invocationOf_newRun other identity leaseOwner leaseExp ts m
      rw [nothing] at of
      cases of
    · simp [runs, invocationOf_newRun, own]

/-- Other operations do not change what the call has found. -/
theorem safe_then {α : Type} {program : BigtableM α} {f : α → BigtableM BeginRunResponse} {runId : String}
    (all : AllSpare i program) (found : Found i call runId h.log)
    (rest : ∀ value h', Found i call runId h'.log →
      runStore.Safe (runContract i tid call) tid (runPost i tid call) (f value).run h') :
    runStore.Safe (runContract i tid call) tid (runPost i tid call) (program >>= f).run h := by
  refine System.Safe.exceptBind (fun e h response isOk => by cases isOk) ?_
  refine System.Safe.of_all_knowing (K := runContract i tid call) (fun h => Found i call runId h.log)
    (fun foreign found => found.mono (Foreign.suffix foreign)) ?_ ?_ all found
  · intro h op res state spares _ found answers
    exact ⟨⟨op, res, state, rfl, answers, trivial, .spare spares⟩, found.mono (List.suffix_cons _ _)⟩
  · exact fun result h found value _ => rest value h found

theorem safe_resume {runId leaseOwner : String} {leaseExp : Int} (found : Found i call runId h.log) :
    runStore.Safe (runContract i tid call) tid (runPost i tid call) (beginRun.resume leaseOwner runId leaseExp).run h := by
  refine safe_then (.bind (.perform trivial) fun _ => .pure _) found fun cur h₁ found₁ => ?_
  dsimp only
  split
  next =>
    refine safe_then (.perform (spares_write (rkRun_ne_idx _ _) rfl)) found₁ fun _ h₂ found₂ => ?_
    rintro h₃ foreign response isOk
    cases isOk
    exact found₂.mono foreign.suffix
  next =>
    rintro h₂ foreign response isOk
    cases isOk
    exact found₁.mono foreign.suffix

theorem safe_beginRun (identified : call.newId ≠ "") :
    runStore.Safe (runContract i tid call) tid (runPost i tid call) (body call) h := by
  show runStore.Safe _ tid _ (beginRun _ _ _ _ _ _).run h
  unfold beginRun
  refine safe_perform (fun _ _ _ isOk => by cases isOk) (fun _ _ _ => .spare trivial) fun h₁ row state foreign _ _ => ?_
  dsimp only
  split
  next isNamed =>
    refine safe_resume fun own => ⟨_, List.mem_cons_self, .inr ⟨row, ?_, rfl, isNamed⟩⟩
    rw [own]
    exact readOf_readRow
  next nameless =>
    have missed₁ : call.invocation.idx = i.idx →
        (runs i).Missed tid (h₁.push tid (.readRow call.invocation.idx) (.ok row) state).log := by
      intro own
      refine ⟨row, ?_, .inl (not_not.mp nameless)⟩
      rw [runs_index, ← own]
      exact lastRead_push_readRow h₁ row state
    refine safe_perform (fun _ _ _ isOk => by cases isOk) ?_ ?_
    · exact fun h₂ foreign₂ _ => steps_newRun fun own => (missed₁ own).later (lastRead_foreign foreign₂) foreign₂.suffix
    intro h₂ _ state₂ foreign₂ _ _
    generalize pushed : h₂.push tid (.mutateRow (rkRun call.newId) _) (.ok _) state₂ = h₂'
    have missed₂ : call.invocation.idx = i.idx → (runs i).Missed tid h₂'.log := by
      intro own
      rw [← pushed]
      exact (missed₁ own).later ((lastRead_push_of_unread rfl).trans (lastRead_foreign foreign₂))
        (foreign₂.suffix.trans (List.suffix_cons _ _))
    -- the run row is the thread's own
    have begun : call.invocation.idx = i.idx → ∃ event ∈ h₂'.log, event.tid = tid ∧ (runs i).created call.newId event := by
      intro own
      rw [← pushed]
      refine ⟨_, List.mem_cons_self, rfl, ?_⟩
      simp [Registry.created, runs, invocationOf_newRun, own]
    have naming : ∀ h₃, Foreign tid h₂' h₃ → (runs i).Steps tid h₃ (.mutateRow call.invocation.idx [set "run" call.newId]) := by
      intro h₃ foreign₃
      by_cases own : call.invocation.idx = i.idx
      · obtain ⟨event, member, facts⟩ := begun own
        rw [own]
        exact .name (r := runs i) identified ⟨event, foreign₃.mem member, facts⟩
          ((missed₂ own).later (lastRead_foreign foreign₃) foreign₃.suffix)
      · exact .spare ⟨own, rfl, fun runId same => absurd same.symm (rkRun_ne_idx _ _)⟩
    refine safe_perform (fun _ _ _ isOk => by cases isOk) (fun h₃ foreign₃ _ => naming h₃ foreign₃)
      fun h₃ _ state₃ foreign₃ _ _ => ?_
    have found : Found i call call.newId (h₃.push tid (.mutateRow call.invocation.idx [set "run" call.newId])
        (.ok ()) state₃).log := by
      intro own
      refine ⟨_, List.mem_cons_self, .inl ?_⟩
      simp [Registry.names, own, set, Mutation.apply, Registry.named, runs]
    refine safe_then (.perform (spares_write (rkRoute_ne_idx _ _ _ _) rfl)) found fun _ h₄ found₄ => ?_
    refine safe_then (.attempt allSpare_nextSeq) found₄ fun seq h₅ found₅ => ?_
    refine safe_then (.attempt allSpare_journal) found₅ fun _ h₆ found₆ => ?_
    rintro h₇ foreign₇ response isOk
    cases isOk
    exact found₆.mono foreign₇.suffix

end Programs

/-! ## Runs of an invocation -/

/-- The run that thread `tid` was given for the invocation. -/
def given (i : Invocation) (c : RunConfig) (tid : Nat) : Option String :=
  match c.pool[tid]? with
  | some ⟨call, .ret (.ok response)⟩ => if call.invocation = i then some response.runId else none
  | _ => none

/-- All who begin the invocation are given one run, and no other run row is of it. -/
def OneRun (i : Invocation) (c : RunConfig) : Prop :=
  ∃ runId, (∀ tid other, given i c tid = some other → other = runId) ∧
    ∀ other m, c.state.read (rkRun other) = some m → invocationOf m = some i → other = runId

/-- No run has been begun under the index row of the invocation. -/
structure Unbegun (i : Invocation) (table : Contents) : Prop where
  row : table.read i.idx = none
  runs : ∀ runId m other, table.read (rkRun runId) = some m → invocationOf m = some other → other.idx ≠ i.idx

theorem runs_compose (i : Invocation) : System.Compose runStore (fun call => call.newId ≠ "")
    (runStore.tracked (fun _ _ _ _ => True) fun tid _ h op => (runs i).Steps tid h op) (runPost i) :=
  System.tracked_compose fun identified _ => safe_beginRun identified

/-- **One invocation, one run**, in every interleaving, with whatever crashes and failures, in which no call writes the
    row of a run that another one has begun: since it has looked for the run nobody has begun one, and whoever had begun
    one before had also written the index row. -/
theorem one_invocation_one_run (i : Invocation) (table : Contents) (choices : List (Choice Call)) (unbegun : Unbegun i table)
    (identified : runStore.Along (System.Permits (fun call => call.newId ≠ "") fun _ _ _ _ => True) (quiet table) choices)
    (unraced : runStore.Along (System.Executes fun tid _ h op => (runs i).Unraced tid h op) (quiet table) choices) :
    OneRun i (runStore.run (quiet table) choices) := by
  have safe := System.run_safe (runs_compose i) (quiet_owned table) (System.poolSafe_of_empty rfl) identified
  obtain ⟨registered, single⟩ : (runs i).Registered (runStore.run (quiet table) choices).toHist ∧
      Registry.Single (runs i).created (runStore.run (quiet table) choices).log := by
    refine System.run_executed (I := fun h => (runs i).Registered h ∧ Registry.Single (runs i).created h.log)
      (runs_compose i) ?_ ?_ (quiet_owned table) (System.poolSafe_of_empty rfl) ⟨?_, ?_⟩ identified unraced
    · exact fun tid call h op _ isUnraced steps known => ⟨known.1.exec steps (.exec (S := runStore)),
        Registry.single_created known.1 steps isUnraced known.2⟩
    · exact fun tid h op res failed known => ⟨known.1.fault failed,
        Registry.single_of_fault (fun _ => Registry.created_of_error) failed known.2⟩
    · refine .initial rfl ?_ fun runId m found describes => ?_
      · show (runs i).named (table.read i.idx) = ""
        rw [unbegun.row]
        rfl
      · obtain ⟨other, of, same⟩ := (Option.any_eq_true _ _).mp describes
        exact unbegun.runs runId m other found of (of_decide_eq_true same)
    · exact fun _ _ _ member => absurd member (List.not_mem_nil)
  obtain ⟨runId, created⟩ := single.unique
  refine ⟨runId, fun tid other isGiven => ?_, fun other m found of => ?_⟩
  · unfold given at isGiven
    split at isGiven
    next call response returned =>
      split at isGiven
      next own =>
        obtain rfl := Option.some.inj isGiven
        obtain ⟨event, member, finds⟩ := safe.returned returned response rfl (by rw [own])
        obtain ⟨creation, isLogged, isCreated⟩ := registered.created_of_finds member finds
        exact created _ creation isLogged isCreated
      next => cases isGiven
    next => cases isGiven
  · obtain ⟨creation, isLogged, isCreated⟩ := registered.described other m found (by simp [runs, of])
    exact created other creation isLogged isCreated

/-! ## Two drivers -/

/-- A driver that begins the run of an invocation. -/
def drive (newId leaseOwner : String) : Call where
  invocation := ⟨"app", "user", "session", "inv"⟩
  leaseOwner
  leaseTtlMs := 1000
  ts := 5
  newId

def serveRun (tid : Nat) (call : Call) (steps : Nat := 9) : List (Choice Call) :=
  .spawn call :: List.replicate steps (.exec tid)

/-- The second driver comes when the first has begun the run. -/
theorem drivers_share_a_run :
    (given (drive "r1" "A").invocation
        (runStore.run (quiet .empty) (serveRun 0 (drive "r1" "A") ++ serveRun 1 (drive "r2" "B"))) 1 = some "r1") ∧
      OneRun (drive "r1" "A").invocation
        (runStore.run (quiet .empty) (serveRun 0 (drive "r1" "A") ++ serveRun 1 (drive "r2" "B"))) :=
  ⟨by decide +kernel, one_invocation_one_run _ _ _ ⟨rfl, fun _ _ _ found => by cases found⟩ (by decide +kernel)
    (by decide +kernel)⟩

/-- Both drivers look for the run before either of them has begun one. -/
def rivals : List (Choice Call) :=
  [.spawn (drive "r1" "A"), .spawn (drive "r2" "B"), .exec 0, .exec 1] ++ List.replicate 8 (.exec 0) ++
    List.replicate 8 (.exec 1)

/-- The first driver stops when it has written the run row. -/
def crashed : List (Choice Call) := serveRun 0 (drive "r1" "A") 2 ++ serveRun 1 (drive "r2" "B")

/-- The two drivers get a run each; and after the crash there are two run rows, both of which a recovery would hand out. -/
theorem two_runs :
    ¬ OneRun (drive "r1" "A").invocation (runStore.run (quiet .empty) rivals) ∧
      ¬ OneRun (drive "r1" "A").invocation (runStore.run (quiet .empty) crashed) := by
  constructor
  · rintro ⟨runId, given, -⟩
    have first := given 0 "r1" (by decide +kernel)
    have second := given 1 "r2" (by decide +kernel)
    exact absurd (first.trans second.symm) (by decide)
  · rintro ⟨runId, -, rows⟩
    have isRun : ∀ other ∈ ["r1", "r2"],
        ((runStore.run (quiet .empty) crashed).state.read (rkRun other)).bind invocationOf =
          some (drive "r1" "A").invocation := by decide +kernel
    have same : ∀ other ∈ ["r1", "r2"], other = runId := by
      intro other member
      obtain ⟨m, found, of⟩ := Option.bind_eq_some_iff.mp (isRun other member)
      exact rows other m found of
    have first := same "r1" (by decide)
    have second := same "r2" (by decide)
    exact absurd (first.trans second.symm) (by decide)

end Tape.BigtableRunStore.BeginRun
