import Tape.Interleave.Protocol
import Tape.Rules

/-! # The scope cache

`begin_effect` checks the scope of an effect against `run_scopes_for`, which answers from the process's own
cache when the run is in it.  What `cache_scopes` puts there was told the process by the `INSERT` of the run
or by the `SELECT` of its scopes, and no statement changes the scopes of a run.  So what a cache has for a
run is what the table has, in every process and at every time, as long as no run is inserted under an id
that was asked about before.
-/

namespace Tape.Run

open Sql Interleave

/-- `scopes_json` of the run; no scopes for a run that does not exist. -/
def storedScopes (w : World) (runId : String) : List String := ((w.runs.find? runId).map RunRow.scopes).getD []

/-! ## Reading the table -/

/-- `run_scopes_for` finds in `tape_runs` what it would have taken from the cache. -/
def execReading : (act : Act) → World → act.Res × World
  | .cache (.lookup server runId), w =>
    (((w.scopeCache server).find? fun entry => entry.1 = runId).map fun _ => storedScopes w runId, w)
  | act, w => act.exec w

/-- The deployment where `run_scopes_for` always reads `scopes_json`. -/
def reading : System World Act Act.Res Call Call.Out := { tape with exec := execReading }

/-- Whether the run is cached or not, the answer is what the table has. -/
theorem reading_runScopesFor (server : Nat) (runId : String) (w : World) :
    (reading.alone (RunStore.runScopesFor server runId).run w).1 = .ok (storedScopes w runId) := by
  have asked : reading.alone (CacheOp.lookup server runId).access.run w =
      (.ok (((w.scopeCache server).find? fun entry => entry.1 = runId).map fun _ => storedScopes w runId), w) := rfl
  unfold RunStore.runScopesFor
  rw [System.alone_exceptBind reading asked]
  cases (w.scopeCache server).find? fun entry => entry.1 = runId with
  | some entry => rfl
  | none => rfl

/-! ## Who is asked about which run -/

/-- The methods that use the cache. -/
def usesScopes : Call → Bool
  | .beginRun .. | .endRun .. | .beginEffect .. => true
  | _ => false

/-- The event asked for the scopes of the run. -/
def asks (runId : String) : TapeEvent → Bool
  | ⟨_, .sql (.run (.readScopes r)), _⟩ => r = runId
  | _ => false

/-- A run is inserted under an id that nobody has asked about. -/
def freshId (h : TapeHist) : Act → Bool
  | .sql (.run (.insertRun row)) => !h.log.any (asks row.runId)
  | _ => true

/-- The run and the scopes that a thread was told last. -/
abbrev Told : Type := Option (String × List String)

def afterAct (told : Told) : (act : Act) → act.Res → Told
  | .sql (.run (.insertRun row)), .ok _ => some (row.runId, row.scopes)
  | .sql (.run (.readScopes runId)), .ok stored => some (runId, stored.getD [])
  | _, _ => told

/-- What is cached is what was told. -/
def properAct (told : Told) : Act → Prop
  | .cache (.cacheScopes _ runId scopes) => told = some (runId, scopes)
  | _ => True

def caching : Protocol Act Act.Res Told := ⟨none, properAct, afterAct, fun _ _ => True⟩

section Follows

variable {α : Type} {post : Except StoreError α → Told → Prop} {told : Told}

/-- A statement that fails ends the method. -/
theorem follows_query {s : Stmt} {f : s.Res → StoreM α} (raised : ∀ e told, post (.error e) told)
    (rest : ∀ value, caching.Follows post (afterAct told (.sql s) (.ok value)) (f value).run) :
    caching.Follows post told (s.query >>= f).run := by
  refine ⟨trivial, fun res _ => ?_⟩
  cases res with
  | error e => exact raised e _
  | ok value => exact rest value

theorem follows_access {c : CacheOp} {f : c.Res → StoreM α} (isProper : properAct told (.cache c))
    (rest : ∀ res, caching.Follows post (afterAct told (.cache c) res) (f res).run) :
    caching.Follows post told (c.access >>= f).run :=
  ⟨isProper, fun res _ => rest res⟩

/-- Sequence numbers and journal entries do not touch the cache. -/
theorem proper_of_housekeeping (act : Act) (housekeeping : Housekeeping act) (told : Told) : properAct told act := by
  cases housekeeping <;> trivial

theorem follows_beginRun {server : Nat} {app user session invocation : String} {identity : RunIdentity}
    {leaseOwner : String} {leaseTtlMs ts : Int} {newId : String} :
    caching.Follows (fun _ _ => True) none
      (RunStore.beginRun server app user session invocation identity leaseOwner leaseTtlMs ts newId).run := by
  refine follows_query (fun _ _ => trivial) fun found => ?_
  cases found with
  | some known =>
    refine follows_query (fun _ _ => trivial) fun _ => follows_query (fun _ _ => trivial) fun current => ?_
    cases current <;> exact trivial
  | none =>
    refine follows_query (fun _ _ => trivial) fun _ => follows_access rfl fun _ => Protocol.Follows.of_all ?_
    refine .exceptBind (all_orElse (all_nextSeq proper_of_housekeeping newId)) fun seq => ?_
    exact .exceptBind (all_orElse (all_journal proper_of_housekeeping _ _ _ _ _ (by constructor))) fun _ => trivial

theorem follows_endRun {server : Nat} {runId : String} {status : Int} {detailJson : String} {ts : Int} :
    caching.Follows (fun _ _ => True) none (RunStore.endRun server runId status detailJson ts).run := by
  refine follows_query (fun _ _ => trivial) fun _ => follows_access trivial fun _ => ?_
  refine follows_query (fun _ _ => trivial) fun found => ?_
  cases found with
  | none => exact trivial
  | some current =>
    refine Protocol.Follows.of_all ?_
    refine .exceptBind (all_orElse (all_nextSeq proper_of_housekeeping runId)) fun seq => ?_
    exact .exceptBind (all_orElse (all_journal proper_of_housekeeping _ _ _ _ _ (by constructor))) fun _ => trivial

/-- `run_scopes_for` caches what it read. -/
theorem follows_runScopesFor {server : Nat} {runId : String} {f : List String → StoreM α}
    (raised : ∀ e told, post (.error e) told) (rest : ∀ scopes told, caching.Follows post told (f scopes).run) :
    caching.Follows post told (RunStore.runScopesFor server runId >>= f).run := by
  refine Protocol.Follows.exceptBind (follows_access trivial fun cached => ?_)
  cases cached with
  | some scopes => exact rest scopes _
  | none =>
    refine follows_query raised fun stored => follows_access rfl fun _ => ?_
    exact rest _ _

theorem follows_beginEffect {server : Nat} {request : RunStore.EffectRequest} {ts : Int} :
    caching.Follows (fun _ _ => True) none (RunStore.beginEffect server request ts).run := by
  have admits : ∀ told, caching.Follows (fun _ _ => True) told (RunStore.admitEffect request ts).run :=
    fun told => Protocol.Follows.of_all (all_admitEffect proper_of_housekeeping fun _ _ => trivial)
  unfold RunStore.beginEffect
  split
  · trivial
  split
  · trivial
  split
  · trivial
  split
  · exact admits none
  refine follows_runScopesFor (fun _ _ => trivial) fun granted told => ?_
  split
  · exact admits told
  · refine Protocol.Follows.of_all ?_
    refine .exceptBind (all_nextSeq proper_of_housekeeping _) fun seq => ?_
    exact .exceptBind (all_orElse (all_journal proper_of_housekeeping _ _ _ _ _ (by constructor))) fun _ => trivial

theorem follows_body (call : Call) (uses : usesScopes call) :
    caching.Follows (fun _ _ => True) caching.start call.body := by
  cases call with
  | beginRun => exact follows_beginRun
  | endRun => exact follows_endRun
  | beginEffect => exact follows_beginEffect
  | _ => cases uses

end Follows

/-! ## What was told stays true -/

/-- Scopes that are those of the run and stay so: the run exists, or was asked about and will not be inserted. -/
def Settled (h : TapeHist) (runId : String) (scopes : List String) : Prop :=
  storedScopes h.state runId = scopes ∧ ((h.state.runs.find? runId).isSome ∨ h.log.any (asks runId))

section Settled

variable {h : TapeHist} {act : Act} {res : act.Res} {w' : World} {runId : String} {scopes : List String}

/-- No `UPDATE` sets `scopes_json`. -/
theorem scopes_apply (s : RunStmt) (row : RunRow) : (s.apply row).scopes = row.scopes := by
  unfold RunStmt.apply
  split
  · cases s <;> rfl
  · rfl

theorem asked_push (tid : Nat) (asked : h.log.any (asks runId)) : (h.push tid act res w').log.any (asks runId) := by
  simp [asked]

/-- A failed act changes nothing. -/
theorem Settled.fault (settled : Settled h runId scopes) (tid : Nat) : Settled (h.push tid act res h.state) runId scopes :=
  ⟨settled.1, settled.2.imp_right (asked_push tid)⟩

theorem Settled.push (settled : Settled h runId scopes) (tid : Nat) (fresh : freshId h act)
    (answers : tape.Answers act h.state res w') : Settled (h.push tid act res w') runId scopes := by
  obtain ⟨stored, known⟩ := settled
  cases found : h.state.runs.find? runId with
  | some row =>
    have still : ∃ row', w'.runs.find? runId = some row' ∧ row'.scopes = row.scopes := by
      rcases run_of_answers answers found with same | ⟨s, -, -, -, changed⟩
      · exact ⟨row, same, rfl⟩
      · exact ⟨s.apply row, changed, scopes_apply s row⟩
    obtain ⟨row', found', sameScopes⟩ := still
    refine ⟨?_, .inl (by simp [found'])⟩
    rw [← stored]
    simp [storedScopes, found, found', sameScopes]
  | none =>
    have asked : h.log.any (asks runId) := by simpa [found] using known
    refine ⟨?_, .inr (asked_push tid asked)⟩
    rw [← stored]
    cases found' : w'.runs.find? runId with
    | none => simp [storedScopes, found, found']
    | some row =>
      -- the id was asked about, so it is not inserted any more
      obtain ⟨rfl, rfl⟩ := run_inserted_of_answers answers found found'
      simp [freshId, asked] at fresh

/-- What a thread is told is so. -/
theorem settled_of_told {told : Told} (tid : Nat) (answers : tape.Answers act h.state res w')
    (isTold : afterAct told act res = some (runId, scopes)) :
    told = some (runId, scopes) ∨ Settled (h.push tid act res w') runId scopes := by
  unfold afterAct at isTold
  split at isTold
  next row value =>
    obtain ⟨rfl, rfl⟩ := Prod.mk.inj (Option.some.inj isTold)
    obtain ⟨executed, rfl⟩ := exec_of_ok answers
    obtain ⟨-, inserted⟩ := @find?_insertRow_of_ok _ _ _ _ _ _ _ _ () executed.symm
    have found : ((Stmt.run (.insertRun row)).exec h.state).2.runs.find? row.runId = some row := inserted
    have stored : storedScopes ((Stmt.run (.insertRun row)).exec h.state).2 row.runId = row.scopes := by
      simp [storedScopes, found]
    exact .inr ⟨stored, .inl (Option.isSome_iff_exists.mpr ⟨row, found⟩)⟩
  next r stored =>
    obtain ⟨rfl, rfl⟩ := Prod.mk.inj (Option.some.inj isTold)
    obtain ⟨executed, rfl⟩ := exec_of_ok answers
    cases executed
    exact .inr ⟨rfl, .inr (List.any_eq_true.mpr ⟨_, List.mem_cons_self, decide_eq_true rfl⟩)⟩
  next => exact .inl isTold

/-- A failed statement tells nothing. -/
theorem told_of_fault {told : Told} (failed : act.fault = some res) : afterAct told act res = told := by
  unfold afterAct
  split
  next => cases failed
  next => cases failed
  next => rfl

/-- An entry of a cache was there, or is being put there. -/
theorem cached_of_answers (answers : tape.Answers act h.state res w') {server : Nat} {entry : String × List String}
    (member : entry ∈ w'.scopeCache server) :
    entry ∈ h.state.scopeCache server ∨ act = .cache (.cacheScopes server entry.1 entry.2) := by
  cases answers with
  | fault _ => exact .inl member
  | exec =>
    cases act with
    | sql s => cases s <;> exact .inl member
    | outside x => exact .inl member
    | cache c =>
      cases c with
      | lookup => exact .inl member
      | evictScopes server' r =>
        change entry ∈ (if server = server' then _ else _) at member
        split at member
        next same =>
          subst same
          exact .inl (List.mem_of_mem_filter member)
        next => exact .inl member
      | cacheScopes server' r told =>
        change entry ∈ (if server = server' then _ else _) at member
        split at member
        next same =>
          subst same
          rcases List.mem_cons.mp member with rfl | kept
          · exact .inr rfl
          · -- a full map was dropped whole
            have older := List.mem_of_mem_filter kept
            split at older
            · cases older
            · exact .inl older
        next => exact .inl member

end Settled

/-! ## The invariant -/

/-- What the threads were told, and what is in the caches, is settled. -/
structure Agreed (h : TapeHist) : Prop where
  told : ∀ tid runId scopes, caching.stage tid h.log = some (runId, scopes) → Settled h runId scopes
  cached : ∀ server, ∀ entry ∈ h.state.scopeCache server, Settled h entry.1 entry.2

namespace Agreed

variable {h : TapeHist} {act : Act} {res : act.Res} {w' : World} {tid : Nat}

theorem push (agreed : Agreed h) (fresh : freshId h act) (isProper : properAct (caching.stage tid h.log) act)
    (answers : tape.Answers act h.state res w') : Agreed (h.push tid act res w') := by
  constructor
  · intro other runId scopes isTold
    by_cases own : other = tid
    · subst own
      rw [Protocol.stage_push_self] at isTold
      rcases settled_of_told other answers isTold with before | settled
      · exact (agreed.told other runId scopes before).push other fresh answers
      · exact settled
    · rw [Protocol.stage_push_ne caching h act _ _ own] at isTold
      exact (agreed.told other runId scopes isTold).push tid fresh answers
  · intro server entry member
    rcases cached_of_answers answers member with before | rfl
    · exact (agreed.cached server entry before).push tid fresh answers
    · exact (agreed.told tid entry.1 entry.2 isProper).push tid fresh answers

theorem fault (agreed : Agreed h) (failed : act.fault = some res) : Agreed (h.push tid act res h.state) := by
  constructor
  · intro other runId scopes isTold
    by_cases own : other = tid
    · subst own
      have before : afterAct (caching.stage other h.log) act res = some (runId, scopes) :=
        (Protocol.stage_push_self caching h other act res h.state).symm.trans isTold
      rw [told_of_fault failed] at before
      exact (agreed.told other runId scopes before).fault other
    · rw [Protocol.stage_push_ne caching h act _ _ own] at isTold
      exact (agreed.told other runId scopes isTold).fault tid
  · exact fun server entry member => (agreed.cached server entry member).fault tid

/-- What a cache answers is what the table has. -/
theorem execReading_eq (agreed : Agreed h) (act : Act) : execReading act h.state = act.exec h.state := by
  cases act with
  | sql s => rfl
  | outside x => rfl
  | cache c =>
    cases c with
    | cacheScopes => rfl
    | evictScopes => rfl
    | lookup server runId =>
      have same : ((h.state.scopeCache server).find? fun entry => entry.1 = runId).map (fun _ => storedScopes h.state runId) =
          ((h.state.scopeCache server).find? fun entry => entry.1 = runId).map Prod.snd := by
        cases found : (h.state.scopeCache server).find? fun entry => entry.1 = runId with
        | none => rfl
        | some entry =>
          have isEntry : entry.1 = runId := by simpa using List.find?_some found
          have settled := agreed.cached server entry (List.mem_of_find?_eq_some found)
          rw [isEntry] at settled
          simp [settled.1]
      exact congrArg (fun answer => (answer, h.state)) same

end Agreed

theorem agreed_quiet {w : World} (cold : ∀ server, w.scopeCache server = []) : Agreed (quiet w).toHist := by
  constructor
  · intro tid runId scopes isTold
    cases isTold
  · intro server entry member
    simp [cold] at member

/-! ## The result -/

/-- In any interleaving of `begin_run`, `end_run` and `begin_effect`, on any processes that start with an empty
    cache, everything goes as if `run_scopes_for` always read the table: each `begin_effect` grants or denies the
    same, and what is stored is the same. -/
theorem scope_cache_transparent (w : World) (cold : ∀ server, w.scopeCache server = []) (choices : List (Choice Call))
    (along : tape.Along (System.Permits (fun call => usesScopes call) fun _ _ h act => freshId h act) (quiet w) choices) :
    reading.run (quiet w) choices = tape.run (quiet w) choices := by
  have known := Protocol.along_protocol_of_admitted (P := caching) (S := tape) (I := Agreed) (fun _ => trivial)
    follows_body
    (fun tid call h act permitted agreed => agreed.push permitted.1 permitted.2 .exec)
    (fun tid h act res failed agreed => agreed.fault failed)
    rfl rfl (agreed_quiet cold) (along.mono fun c choice permits => permits.mono fun _ _ _ _ => trivial)
    (along.mono fun c choice => System.Executes.of_permits)
  refine System.Along.run_exec_congr (known.mono fun c choice executes => ?_)
  exact executes.mono fun tid call h act holds => holds.2.execReading_eq act

/-! ## Two processes -/

def needs (server : Nat) (tool scope : String) : Call := .beginEffect server { runId := "r", toolName := tool, scope } 10

/-- The run begins in process 0.  Process 1 reads its scopes before the run ends and caches them after process 0
    has evicted its own; then both are asked again. -/
def acrossProcesses : List (Choice Call) :=
  serve 0 (.beginRun 0 "app" "user" "s" "i" { scopes := ["pay"] } "A" 60000 1 "r") ++
    [.spawn (needs 1 "pay" "pay"), .exec 1, .exec 1] ++ serve 2 (.endRun 0 "r" RunStatus.terminal.code "" 5) ++
    List.replicate 12 (.exec 1) ++ serve 3 (needs 0 "ship" "ship") ++ serve 4 (needs 1 "ship" "ship") ++
    serve 5 (needs 0 "refund" "pay")

def scopeGranted (c : TapeConfig) (tid : Nat) : Option Bool :=
  match c.pool[tid]? with
  | some ⟨.beginEffect .., .ret (.ok _)⟩ => some true
  | some ⟨.beginEffect .., .ret (.error _)⟩ => some false
  | _ => none

theorem scopes_across_processes :
    reading.run (quiet (World.empty .sqlite)) acrossProcesses = tape.run (quiet (World.empty .sqlite)) acrossProcesses ∧
      [1, 3, 4, 5].map (scopeGranted (tape.run (quiet (World.empty .sqlite)) acrossProcesses)) =
        [some true, some false, some false, some true] := by
  constructor
  · exact scope_cache_transparent (World.empty .sqlite) (fun _ => rfl) acrossProcesses (by decide +kernel)
  · decide +kernel

end Tape.Run
