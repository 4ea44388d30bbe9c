import Tape.System

/-! # The run lease

`begin_run` and `resume_run` write `lease_owner` and `lease_expires_at_ms`; `end_run` and
`await_signal` clear the owner.  Neither of the two `UPDATE`s that take the lease looks
at it: `begin_run` only leaves `TERMINAL` and `STUCK` runs alone, `resume_run` nothing at
all.  The lease admits one driver at a time as far as the callers themselves stay away
from runs that somebody else still leases.
-/

namespace Tape.Run

open Interleave

/-- The owner and expiry of a lease on the run that the event granted. -/
def granted (runId : String) : TapeEvent → Option (String × Int)
  | ⟨_, .sql (.run (.claimRun r owner leaseExp)), .ok updated⟩ => grantOf updated r (owner, leaseExp)
  | ⟨_, .sql (.run (.resumeRun r owner leaseExp)), .ok updated⟩ => grantOf updated r (owner, leaseExp)
  | ⟨_, .sql (.run (.insertRun row)), .ok _⟩ => grantOf 1 row.runId (row.leaseOwner, row.leaseExpiresAtMs)
  | _ => none
where
  grantOf (updated : Nat) (r : String) (lease : String × Int) : Option (String × Int) :=
    if r = runId ∧ 0 < updated then some lease else none

/-- An `end_run` or `await_signal` released the lease. -/
def released (runId : String) : TapeEvent → Bool
  | ⟨_, .sql (.run (.endRun r ..)), .ok _⟩ => r = runId
  | ⟨_, .sql (.run (.parkRun r _)), .ok _⟩ => r = runId
  | _ => false

/-- `owner` was granted the lease until `expiry`; since then it was not granted it anew, and nobody
    released it. -/
def Holds (runId : String) (log : List TapeEvent) (owner : String) (expiry : Int) : Prop :=
  ∃ newer event older, log = newer ++ event :: older ∧ granted runId event = some (owner, expiry) ∧
    ∀ e ∈ newer, released runId e = false ∧ (granted runId e).map Prod.fst ≠ some owner

/-- A clock reading at which a lease on the run was granted. -/
def GrantedAt (runId : String) (issued : Nat → Option Int) (log : List TapeEvent) (time : Int) : Prop :=
  ∃ event ∈ log, (granted runId event).isSome ∧ issued event.tid = some time

/-- The server's clock when a lease-taking call was made. -/
def leaseTime : Call → Option Int
  | .beginRun _ _ _ _ _ _ _ _ ts _ => some ts
  | .resumeRun _ _ _ ts => some ts
  | _ => none

/-- The owner for whom the act takes the lease of an existing run. -/
def takesLease (runId : String) : Act → Option String
  | .sql (.run (.claimRun r owner _)) => if r = runId then some owner else none
  | .sql (.run (.resumeRun r owner _)) => if r = runId then some owner else none
  | _ => none

/-- The row is not under the unexpired lease of somebody other than `owner`. -/
def leaseFree (owner : String) (time : Option Int) (row : RunRow) : Bool :=
  row.leaseOwner = "" || row.leaseOwner = owner || time.any fun now => row.leaseExpiresAtMs ≤ now

/-- `act`, about to be executed for `call`, takes the lease of the run only if it is free. -/
def StaysAway (runId : String) (call : Call) (h : TapeHist) (act : Act) : Prop :=
  ∀ owner, takesLease runId act = some owner →
    (h.state.runs.find? runId).all (leaseFree owner (leaseTime call))

instance (runId : String) (call : Call) (h : TapeHist) (act : Act) :
    Decidable (StaysAway runId call h act) :=
  match takes : takesLease runId act with
  | none => isTrue (by simp [StaysAway, takes])
  | some owner => decidable_of_iff ((h.state.runs.find? runId).all (leaseFree owner (leaseTime call)) = true)
      (by simp [StaysAway, takes])

/-! ## What one act does to the lease -/

section Step

variable {runId : String} (tid : Nat) {act : Act} {w w' : World} {res : act.Res}

/-- The state's own record of a lease. -/
def recorded (runId owner : String) (expiry : Int) (w : World) : Prop :=
  ∃ row, w.runs.find? runId = some row ∧ row.leaseOwner = owner ∧ row.leaseExpiresAtMs = expiry

/-- A lease that is recorded stays, is released, or is replaced by the lease the act takes. -/
theorem recorded_cases {owner : String} {expiry : Int} (answers : tape.Answers act w res w')
    (held : recorded runId owner expiry w) :
    recorded runId owner expiry w' ∨ released runId ⟨tid, act, res⟩ ∨
      ∃ taker, takesLease runId act = some taker ∧ (granted runId ⟨tid, act, res⟩).map Prod.fst = some taker := by
  obtain ⟨row, found, rfl, rfl⟩ := held
  have same : row.runId = runId := Sql.Table.key_of_find? found
  obtain kept | ⟨s, rfl, rfl, -, found'⟩ := run_of_answers answers found
  · exact .inl ⟨row, kept, rfl, rfl⟩
  by_cases selected : s.selects row = true
  · rw [RunStmt.apply, if_pos selected] at found'
    cases s with
    | claimRun r taker leaseExp =>
      have own : r = runId := by
        simp only [RunStmt.selects, Bool.and_eq_true, decide_eq_true_eq] at selected
        exact selected.1.symm.trans same
      subst own
      -- the `UPDATE` hit the run's row, so it granted the lease anew
      have counted := Sql.Table.count_pos_of_find? found selected
      refine .inr (.inr ⟨taker, by simp [takesLease], ?_⟩)
      simp [granted, granted.grantOf, Act.exec, Stmt.exec, RunStmt.exec, RunStmt.exec.update, counted]
    | resumeRun r taker leaseExp =>
      have own : r = runId := (of_decide_eq_true selected).symm.trans same
      subst own
      have counted := Sql.Table.count_pos_of_find? found selected
      refine .inr (.inr ⟨taker, by simp [takesLease], ?_⟩)
      simp [granted, granted.grantOf, Act.exec, Stmt.exec, RunStmt.exec, RunStmt.exec.update, counted]
    | endRun r | parkRun r =>
      have own : r = runId := (of_decide_eq_true selected).symm.trans same
      exact .inr (.inl (decide_eq_true own))
    | bumpSeq | stampCompacted | releaseRun => exact .inl ⟨_, found', rfl, rfl⟩
    | _ => cases selected
  · rw [RunStmt.apply, if_neg selected] at found'
    exact .inl ⟨row, found', rfl, rfl⟩

/-- An `UPDATE` that changed a row of the run has written its lease there. -/
theorem recorded_of_update {s : RunStmt} {owner : String} {expiry : Int}
    (own : ∀ row, s.selects row → row.runId = runId) (changed : 0 < w.runs.count s.selects)
    (written : ∀ row, (s.assign row).leaseOwner = owner ∧ (s.assign row).leaseExpiresAtMs = expiry) :
    recorded runId owner expiry ((Stmt.run s).exec w).2 := by
  obtain ⟨row, found, selected⟩ := (Sql.Table.count_pos_iff _ _).mp changed
  have same : RunRow.pk row = runId := own row selected
  rw [same] at found
  have found' := RunStmt.find?_exec_of_some (s := s) found
  rw [RunStmt.apply, if_pos selected] at found'
  exact ⟨_, found', written row⟩

/-- A lease that is granted is recorded. -/
theorem recorded_of_granted {owner : String} {expiry : Int} (answers : tape.Answers act w res w')
    (grant : granted runId ⟨tid, act, res⟩ = some (owner, expiry)) : recorded runId owner expiry w' := by
  unfold granted at grant
  split at grant
  next _ r taker leaseExp updated isClaim =>
    cases isClaim
    obtain ⟨counted, rfl⟩ := exec_of_ok answers
    unfold granted.grantOf at grant
    split at grant
    next changed =>
      obtain ⟨rfl, changed⟩ := changed
      cases grant
      rw [Except.ok.inj counted] at changed
      refine recorded_of_update (fun row selected => ?_) changed fun _ => ⟨rfl, rfl⟩
      -- the WHERE of begin_run's UPDATE asks for more than the run; its first part is the run
      simp only [RunStmt.selects, Bool.and_eq_true, decide_eq_true_eq] at selected
      exact selected.1
    next => cases grant
  next _ r taker leaseExp updated isResume =>
    cases isResume
    obtain ⟨counted, rfl⟩ := exec_of_ok answers
    unfold granted.grantOf at grant
    split at grant
    next changed =>
      obtain ⟨rfl, changed⟩ := changed
      cases grant
      rw [Except.ok.inj counted] at changed
      exact recorded_of_update (fun row selected => of_decide_eq_true selected) changed fun _ => ⟨rfl, rfl⟩
    next => cases grant
  next _ row value isInsert =>
    cases isInsert
    obtain ⟨inserted, rfl⟩ := exec_of_ok answers
    unfold granted.grantOf at grant
    split at grant
    next same =>
      obtain ⟨rfl, -⟩ := same
      cases grant
      -- a run that is inserted comes with its lease
      exact ⟨row, (find?_insertRow_of_ok inserted.symm).2, rfl, rfl⟩
    next => cases grant
  next => cases grant

end Step

/-! ## Runs -/

/-- A lease that somebody holds is the one recorded in the state, or it had expired by a clock
    reading at which the run was leased again. -/
def Accounted (runId : String) (issued : Nat → Option Int) (h : TapeHist) : Prop :=
  ∀ owner expiry, owner ≠ "" → Holds runId h.log owner expiry →
    recorded runId owner expiry h.state ∨ ∃ time, GrantedAt runId issued h.log time ∧ expiry ≤ time

theorem GrantedAt.cons {runId : String} {issued : Nat → Option Int} {log : List TapeEvent} {time : Int}
    (at_ : GrantedAt runId issued log time) (event : TapeEvent) : GrantedAt runId issued (event :: log) time := by
  obtain ⟨earlier, member, grant, atTime⟩ := at_
  exact ⟨earlier, List.mem_cons_of_mem _ member, grant, atTime⟩

/-- Holding after an event: by that event's own grant, or as before. -/
theorem holds_cons {runId owner : String} {expiry : Int} {event : TapeEvent} {log : List TapeEvent}
    (holds : Holds runId (event :: log) owner expiry) :
    granted runId event = some (owner, expiry) ∨
      (Holds runId log owner expiry ∧ released runId event = false ∧
        (granted runId event).map Prod.fst ≠ some owner) := by
  obtain ⟨newer, grant, older, split, isGrant, since⟩ := holds
  cases newer with
  | nil =>
    obtain ⟨rfl, -⟩ := List.cons.inj split
    exact .inl isGrant
  | cons newest newer =>
    obtain ⟨rfl, rest⟩ := List.cons.inj split
    obtain ⟨unreleased, notAnew⟩ := since event List.mem_cons_self
    refine .inr ⟨⟨newer, grant, older, rest, isGrant, fun e member => ?_⟩, unreleased, notAnew⟩
    exact since e (List.mem_cons_of_mem _ member)

theorem Accounted.push {runId : String} {issued : Nat → Option Int} {h : TapeHist} {tid : Nat} {call : Call}
    {act : Act} {res : act.Res} {state : World} (accounted : Accounted runId issued h)
    (reading : issued tid = leaseTime call) (away : StaysAway runId call h act)
    (answers : tape.Answers act h.state res state) : Accounted runId issued (h.push tid act res state) := by
  intro owner expiry named holds
  cases holds_cons holds with
  | inl grant => exact .inl (recorded_of_granted tid answers grant)
  | inr before =>
    obtain ⟨before, unreleased, notAnew⟩ := before
    cases accounted owner expiry named before with
    | inr expired =>
      obtain ⟨time, at_, past⟩ := expired
      exact .inr ⟨time, at_.cons _, past⟩
    | inl held =>
      obtain kept | isRelease | ⟨taker, takes, isGrant⟩ := recorded_cases tid answers held
      · exact .inl kept
      · simp [unreleased] at isRelease
      · -- somebody else took the lease, and stayed away until it had expired
        obtain ⟨row, found, rfl, rfl⟩ := held
        have other : row.leaseOwner ≠ taker := by
          rintro rfl
          exact notAnew isGrant
        have free := away taker takes
        rw [found, Option.all_some, leaseFree] at free
        simp only [Bool.or_eq_true, decide_eq_true_eq, named, other, false_or, Option.any_eq_true] at free
        obtain ⟨now, isNow, past⟩ := free
        refine .inr ⟨now, ⟨_, List.mem_cons_self, ?_, reading.trans isNow⟩, past⟩
        cases none_ : granted runId ⟨tid, act, res⟩ with
        | none => simp [none_] at isGrant
        | some lease => rfl

/-- The two `UPDATE`s that take the lease of a run. -/
def leaseUpdates (runId owner : String) (leaseExp : Int) : List RunStmt :=
  [.claimRun runId owner leaseExp, .resumeRun runId owner leaseExp]

/-- Either of them takes the lease of a `RUNNING` run, whoever has it. -/
theorem lease_replaced {runId owner : String} {leaseExp : Int} {w : World} {row : RunRow} {s : RunStmt}
    (found : w.runs.find? runId = some row) (running : row.status = RunStatus.running.code)
    (isUpdate : s ∈ leaseUpdates runId owner leaseExp) :
    ∃ row', ((Stmt.run s).exec w).2.runs.find? runId = some row' ∧ row'.leaseOwner = owner := by
  have same : row.runId = runId := Sql.Table.key_of_find? found
  have found' := RunStmt.find?_exec_of_some (s := s) found
  refine ⟨_, found', ?_⟩
  simp only [leaseUpdates, List.mem_cons, List.not_mem_nil, or_false] at isUpdate
  obtain rfl | rfl := isUpdate
  · simp [RunStmt.apply, RunStmt.selects, RunStmt.assign, same, running, RunStatus.code]
  · simp [RunStmt.apply, RunStmt.selects, RunStmt.assign, same]

/-- So do `begin_run` for the invocation of the run, and `resume_run`. -/
theorem lease_replaced_by_call {runId : String} {w : World} {row : RunRow} (found : w.runs.find? runId = some row)
    (running : row.status = RunStatus.running.code) (owner : String) (leaseTtlMs ts : Int) :
    (∀ server app user session invocation identity newId cursor,
      ((Stmt.run (.findInvocation app user session invocation)).exec w).1 = .ok (some (runId, cursor)) →
      ∃ row', (tape.alone (RunStore.beginRun server app user session invocation identity owner leaseTtlMs ts newId).run
        w).2.runs.find? runId = some row' ∧ row'.leaseOwner = owner) ∧
    ∃ row', (tape.alone (RunStore.resumeRun runId owner leaseTtlMs ts).run w).2.runs.find? runId = some row' ∧
      row'.leaseOwner = owner := by
  have read {s : RunStmt} {row' : RunRow} (found' : ((Stmt.run s).exec w).2.runs.find? runId = some row') :
      ((Stmt.run (.getRun runId)).exec ((Stmt.run s).exec w).2).1 = .ok (some row') :=
    congrArg Except.ok found'
  constructor
  · intro server app user session invocation identity newId cursor isRun
    let claim : RunStmt := .claimRun runId owner (addI64 ts (max leaseTtlMs 0))
    obtain ⟨row', found', owned⟩ := lease_replaced (s := claim) found running List.mem_cons_self
    have answer : tape.alone (RunStore.beginRun server app user session invocation identity owner leaseTtlMs ts newId).run w =
        (.ok { runId, resumed := true, nextSeq := cursor, status := row'.status }, ((Stmt.run claim).exec w).2) := by
      refine (alone_query isRun).trans ?_
      refine (alone_query (s := .run claim) rfl).trans ?_
      exact alone_query (read found')
    rw [answer]
    exact ⟨row', found', owned⟩
  · let resume : RunStmt := .resumeRun runId owner (addI64 ts (max leaseTtlMs 0))
    obtain ⟨row', found', owned⟩ := lease_replaced (s := resume) found running (List.mem_cons_of_mem _ List.mem_cons_self)
    have answer : tape.alone (RunStore.resumeRun runId owner leaseTtlMs ts).run w =
        (.ok (some row'), ((Stmt.run resume).exec w).2) := by
      refine (alone_query (s := .run resume) rfl).trans ?_
      exact congrArg (·, _) (read found')
    rw [answer]
    exact ⟨row', found', owned⟩

/-- No two owners hold leases on the run that both run past `now`, a time at or after all the clock
    readings at which the run was leased. -/
def OneDriver (runId : String) (c : TapeConfig) (now : Int) : Prop :=
  ∀ owner₁ owner₂ expiry₁ expiry₂, owner₁ ≠ "" → owner₂ ≠ "" → owner₁ ≠ owner₂ →
    Holds runId c.log owner₁ expiry₁ → Holds runId c.log owner₂ expiry₂ →
    (∀ time, GrantedAt runId (fun tid => (c.callOf tid).bind leaseTime) c.log time → time ≤ now) →
    expiry₁ ≤ now ∨ expiry₂ ≤ now

/-- **One driver at a time.**  A lease-taking `UPDATE` on a `RUNNING` run leaves the lease with its
    owner only if it is that owner's own.  But in every interleaving of any calls in which `begin_run`
    and `resume_run` take the lease of the run only when it is free for their owner, at every instant
    at most one owner holds a lease that was neither released nor has expired. -/
theorem run_lease_exclusive (runId : String) :
    (∀ w row, w.runs.find? runId = some row → row.status = RunStatus.running.code →
      ∀ owner leaseExp, ∀ s ∈ leaseUpdates runId owner leaseExp, ∃ row',
        ((Stmt.run s).exec w).2.runs.find? runId = some row' ∧
          (row'.leaseOwner = row.leaseOwner ↔ owner = row.leaseOwner)) ∧
    ∀ w choices, tape.Along (System.Permits (fun _ => True) fun _ call h act => StaysAway runId call h act)
      (quiet w) choices → ∀ now, OneDriver runId (tape.run (quiet w) choices) now := by
  constructor
  · intro w row found running owner leaseExp s isUpdate
    obtain ⟨row', found', rfl⟩ := lease_replaced found running isUpdate
    exact ⟨row', found', Iff.rfl⟩
  intro w choices away now owner₁ owner₂ expiry₁ expiry₂ named₁ named₂ differ holds₁ holds₂ present
  have accounted : Accounted runId (fun tid => ((tape.run (quiet w) choices).callOf tid).bind leaseTime)
      (tape.run (quiet w) choices).toHist := by
    refine System.run_hist_of_steps ?_ ?_ away
    · intro tid call h act res state serves stays answers accounted
      exact accounted.push (by simp [serves]) stays answers
    · rintro owner expiry - ⟨newer, event, older, split, -⟩
      simp at split
  -- two leases that are both still recorded are in the same row, so they have one owner
  cases accounted owner₁ expiry₁ named₁ holds₁ with
  | inr expired =>
    obtain ⟨time, at_, past⟩ := expired
    exact .inl (past.trans (present time at_))
  | inl held₁ =>
    cases accounted owner₂ expiry₂ named₂ holds₂ with
    | inr expired =>
      obtain ⟨time, at_, past⟩ := expired
      exact .inr (past.trans (present time at_))
    | inl held₂ =>
      obtain ⟨row, found, rfl, -⟩ := held₁
      obtain ⟨row', found', rfl, -⟩ := held₂
      rw [Option.some.inj (found.symm.trans found')] at differ
      exact absurd rfl differ

/-! ## Two drivers -/

/-- A driver begins the invocation's run at time 1, with a lease of a minute. -/
def begunByA : List (Choice Call) :=
  serve 0 (.beginRun 0 "app" "user" "session" "invocation" {} "A" 60000 1 "r")

/-- Another one begins the same invocation, or resumes the run, at time `now`. -/
def begunByB (now : Int) : List (Choice Call) :=
  serve 1 (.beginRun 0 "app" "user" "session" "invocation" {} "B" 60000 now "r2")

def resumedByB (now : Int) : List (Choice Call) := serve 1 (.resumeRun "r" "B" 60000 now)

/-- The status, owner and expiry of the run `"r"` after the choices, from an empty database. -/
def leaseAfter (choices : List (Choice Call)) : Option (Int × String × Int) :=
  ((tape.run (quiet (World.empty .sqlite)) choices).state.runs.find? "r").map fun row =>
    (row.status, row.leaseOwner, row.leaseExpiresAtMs)

/-- One second into the lease of `A`, `B` gets it for the asking, either way. -/
theorem lease_taken_from_driver :
    leaseAfter begunByA = some (RunStatus.running.code, "A", 60001) ∧
      leaseAfter (begunByA ++ begunByB 1000) = some (RunStatus.running.code, "B", 61000) ∧
      leaseAfter (begunByA ++ resumedByB 1000) = some (RunStatus.running.code, "B", 61000) := by
  refine ⟨?_, ?_, ?_⟩ <;> decide +kernel

/-- When `B` waits for the lease of `A` to run out, there is one driver at a time. -/
theorem lease_taken_after_expiry :
    leaseAfter (begunByA ++ resumedByB 60001) = some (RunStatus.running.code, "B", 120001) ∧
      ∀ now, OneDriver "r" (tape.run (quiet (World.empty .sqlite)) (begunByA ++ resumedByB 60001)) now :=
  ⟨by decide +kernel,
    (run_lease_exclusive "r").2 (World.empty .sqlite) (begunByA ++ resumedByB 60001) (by decide +kernel)⟩

end Tape.Run
