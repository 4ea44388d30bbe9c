import Tape.Embedded.Compact
import Tape.Embedded.GoService

/-! # The Go compactor

`CompactOnce`, `embedded/compact.go`, and the writers of obligations and timers in
`embedded/service.go`.  A method is a program over single statements; on SQLite some
methods hold the CAS mutex while they run, and a goroutine that finds it held waits.
-/

namespace Tape.Embedded.Go.Compaction

open Sql Interleave

inductive Dialect where
  | sqlite | postgres
  deriving DecidableEq, Repr

/-- The order in which the database returns the groups of a `GROUP BY`. -/
structure GroupOrder where
  order : List SessionKey → List SessionKey
  perm : ∀ sessions, (order sessions).Perm sessions

/-- The database, the sequence that numbers its obligations, and the mutex of the service. -/
structure Shared where
  store : Store
  sequence : Int := 0
  casMu : Bool := false

/-! ## Statements -/

inductive Stmt where
  | lock
  | unlock
  | candidates (groups : GroupOrder) (sessionCutoff limit : Int)
  | countActive (session : SessionKey)
  | countStuck (session : SessionKey)
  | countUnfired (session : SessionKey)
  | deleteEffects (session : SessionKey)
  | deleteObligations (session : SessionKey)
  | deleteTimers (session : SessionKey)
  | pruneObligations (cutoff : Int)
  | pruneTimers (cutoff : Int)
  | pruneEffects (cutoff : Int)
  | findObligation (session : SessionKey) (effectKey kind : String)
  | insertObligation (o : StorageObligation)
  | obligationBySeq (seq : Int)
  | claimObligation (seq : Int) (claimer : String) (expires now : Int)
  | setAttempt (seq attempts : Int) (error : Option String) (status : ObligationStatus) (nextAttemptAtMs now : Int)
  | findTimer (session : SessionKey) (timerId : String)
  | insertTimer (t : StorageTimer)

namespace Stmt

def Value : Stmt → Type
  | candidates .. => List SessionKey
  | countActive .. | countStuck .. | countUnfired .. => Nat
  | deleteEffects .. | deleteObligations .. | deleteTimers .. => Nat
  | pruneObligations .. | pruneTimers .. | pruneEffects .. | claimObligation .. => Nat
  | findObligation .. | obligationBySeq .. => Option StorageObligation
  | findTimer .. => Option StorageTimer
  | lock | unlock | insertObligation .. | setAttempt .. | insertTimer .. => Unit

abbrev Res (stmt : Stmt) : Type := Except String stmt.Value

/-- The `WHERE` clause of `ClaimObligation`. -/
def claimable (seq now : Int) (o : StorageObligation) : Bool :=
  o.seq = seq && (o.status = .pending && o.nextAttemptAtMs ≤ now || o.status = .committed && o.claimExpiresAtMs ≤ now)

def claim (claimer : String) (expires : Int) : Update StorageObligation.pk where
  apply o := { o with status := .committed, claimedBy := some claimer, claimExpiresAtMs := expires }
  key_apply _ := rfl

def attempt (attempts : Int) (error : Option String) (status : ObligationStatus) (nextAttemptAtMs now : Int) :
    Update StorageObligation.pk where
  apply o := { o with
    attempts, lastError := error, claimedBy := none, claimExpiresAtMs := 0, status, nextAttemptAtMs, tsMs := now }
  key_apply _ := rfl

/-- The sessions that the `HAVING` clause leaves, as far as the `LIMIT` goes. -/
def stale (groups : GroupOrder) (sessionCutoff limit : Int) (s : Store) : List SessionKey :=
  limitRows limit ((groups.order (s.effects.rows.map StorageEffect.session).dedup).filter (isStale sessionCutoff s))

/-- The rows of an obligation's session, effect and kind. -/
def registered (session : SessionKey) (effectKey kind : String) (o : StorageObligation) : Bool :=
  o.session = session && o.effectKey = effectKey && o.kind = kind

def exec : (stmt : Stmt) → Shared → stmt.Res × Shared
  | lock, s => (.ok (), { s with casMu := true })
  | unlock, s => (.ok (), { s with casMu := false })
  | candidates groups sessionCutoff limit, s => (.ok (stale groups sessionCutoff limit s.store), s)
  | countActive session, s =>
    (.ok (s.store.obligations.count fun o => o.session = session && o.status.isActive), s)
  | countStuck session, s =>
    (.ok (s.store.obligations.count fun o => o.session = session && o.status = .stuck), s)
  | countUnfired session, s => (.ok (s.store.timers.count fun t => t.session = session && !t.fired), s)
  | deleteEffects session, s =>
    (.ok (s.store.effects.count fun row => row.session = session),
      { s with store.effects := s.store.effects.delete fun row => row.session = session })
  | deleteObligations session, s =>
    (.ok (s.store.obligations.count fun o => o.session = session),
      { s with store.obligations := s.store.obligations.delete fun o => o.session = session })
  | deleteTimers session, s =>
    (.ok (s.store.timers.count fun t => t.session = session),
      { s with store.timers := s.store.timers.delete fun t => t.session = session })
  | pruneObligations cutoff, s =>
    (.ok (s.store.obligations.count (prunableObligation cutoff)),
      { s with store.obligations := s.store.obligations.delete (prunableObligation cutoff) })
  | pruneTimers cutoff, s =>
    (.ok (s.store.timers.count (prunableTimer cutoff)),
      { s with store.timers := s.store.timers.delete (prunableTimer cutoff) })
  | pruneEffects cutoff, s =>
    (.ok (s.store.effects.count (prunableEffect cutoff s.store)),
      { s with store.effects := s.store.effects.delete (prunableEffect cutoff s.store) })
  | findObligation session effectKey kind, s =>
    (.ok (s.store.obligations.rows.find? (registered session effectKey kind)), s)
  | insertObligation o, s =>
    let numbered := { o with seq := s.sequence + 1 }
    match s.store.obligations.insert (sameObligation numbered) numbered with
    | some inserted => (.ok (), { s with store.obligations := inserted, sequence := s.sequence + 1 })
    | none => (.error "UNIQUE constraint failed: tape_obligations", s)
  | obligationBySeq seq, s => (.ok (s.store.obligations.find? seq), s)
  | claimObligation seq claimer expires now, s =>
    (.ok (s.store.obligations.count (claimable seq now)),
      { s with store.obligations := s.store.obligations.update (claimable seq now) (claim claimer expires) })
  | setAttempt seq attempts error status nextAttemptAtMs now, s =>
    (.ok (), { s with store.obligations :=
      s.store.obligations.update (fun o => o.seq = seq) (attempt attempts error status nextAttemptAtMs now) })
  | findTimer session timerId, s => (.ok (s.store.timers.find? (session, timerId)), s)
  | insertTimer t, s =>
    match s.store.timers.insert (fun _ => false) t with
    | some inserted => (.ok (), { s with store.timers := inserted })
    | none => (.error "UNIQUE constraint failed: tape_timers", s)

/-- A statement may come back with an error instead; the mutex may not. -/
def fault : (stmt : Stmt) → Option stmt.Res
  | lock | unlock => none
  | _ => some (.error "driver: bad connection")

end Stmt

/-! ## Methods -/

abbrev GoM (α : Type) : Type := ExceptT String (Prog Stmt Stmt.Res) α

def query (stmt : Stmt) : GoM stmt.Value := ExceptT.mk (Prog.perform stmt)

/-- `withCASLock`: the mutex on SQLite, nothing on Postgres.  The unlock is deferred. -/
def withCASLock {α : Type} (dialect : Dialect) (fn : GoM α) : GoM α :=
  match dialect with
  | .postgres => fn
  | .sqlite => ExceptT.mk <|
    (Prog.perform .lock).bind fun _ => fn.run.bind fun result => (Prog.perform .unlock).bind fun _ => .ret result

/-- The checks of `findArchivableSessions`, candidate by candidate. -/
def keepArchivable : List SessionKey → GoM (List SessionKey)
  | [] => return []
  | c :: candidates => do
    let nActive : Nat ← query (.countActive c)
    if nActive > 0 then keepArchivable candidates
    else
      let nStuck : Nat ← query (.countStuck c)
      if nStuck > 0 then keepArchivable candidates
      else
        let nLive : Nat ← query (.countUnfired c)
        if nLive > 0 then keepArchivable candidates
        else
          let out ← keepArchivable candidates
          return c :: out

def findArchivableSessions (groups : GroupOrder) (sessionCutoff limit : Int) : GoM (List SessionKey) := do
  let candidates ← query (.candidates groups sessionCutoff limit)
  keepArchivable candidates

/-- The three deletes for each archivable session. -/
def archive : List SessionKey → CompactionResult → GoM CompactionResult
  | [], result => return result
  | sess :: archivable, result => do
    let effects : Nat ← query (.deleteEffects sess)
    let obligations : Nat ← query (.deleteObligations sess)
    let timers : Nat ← query (.deleteTimers sess)
    archive archivable
      { effectsPruned := result.effectsPruned + effects
        obligationsPruned := result.obligationsPruned + obligations
        timersPruned := result.timersPruned + timers
        sessionsArchived := result.sessionsArchived + 1 }

def pruneObligations (policy : CompactionPolicy) (cutoff : Int) (result : CompactionResult) : GoM CompactionResult := do
  if policy.archiveTerminalObligations then
    let n : Nat ← query (.pruneObligations cutoff)
    return { result with obligationsPruned := result.obligationsPruned + n }
  else return result

def pruneTimers (policy : CompactionPolicy) (cutoff : Int) (result : CompactionResult) : GoM CompactionResult := do
  if policy.archiveFiredTimers then
    let n : Nat ← query (.pruneTimers cutoff)
    return { result with timersPruned := result.timersPruned + n }
  else return result

def pruneEffects (cutoff : Int) (result : CompactionResult) : GoM CompactionResult := do
  let n : Nat ← query (.pruneEffects cutoff)
  return { result with effectsPruned := result.effectsPruned + n }

def maxPerTick (policy : CompactionPolicy) : Int := if policy.maxPerTick ≤ 0 then 1000 else policy.maxPerTick

/-- What `CompactOnce` does under the lock. -/
def compactUnderLock (groups : GroupOrder) (policy : CompactionPolicy) (sessionCutoff effectCutoff : Int) :
    GoM CompactionResult := do
  let archivable ← findArchivableSessions groups sessionCutoff (maxPerTick policy)
  let archived ← archive archivable {}
  let settled ← pruneObligations policy effectCutoff archived
  let fired ← pruneTimers policy effectCutoff settled
  pruneEffects effectCutoff fired

def compactOnce (dialect : Dialect) (groups : GroupOrder) (policy : CompactionPolicy) (nowMs clock : Int) :
    GoM CompactionResult :=
  let now := orNow nowMs clock
  let effectCutoff := addI64 now (-policy.effectTtlMs)
  let sessionCutoff := addI64 now (-policy.sessionTtlMs)
  withCASLock dialect (compactUnderLock groups policy sessionCutoff effectCutoff)

/-- The arguments of `RegisterCompensation`. -/
structure RegisterCompensation where
  session : SessionKey
  invocationId : String
  effectKey : String
  kind : String
  payloadJson : Json
  compensatorRef : String
  maxAttempts : Int

/-- The row that `RegisterCompensation` inserts. -/
def RegisterCompensation.row (o : RegisterCompensation) (now : Int) : StorageObligation where
  seq := 0
  session := o.session
  invocationId := o.invocationId
  effectKey := o.effectKey
  kind := o.kind
  payloadJson := Stmt.jsonOrNil o.payloadJson
  status := .pending
  attempts := 0
  maxAttempts := if o.maxAttempts ≤ 0 then 5 else o.maxAttempts
  nextAttemptAtMs := now
  compensatorRef := orNone (some o.compensatorRef)
  tsMs := now

/-- The row that was written, or that was there before; `sql.ErrNoRows` if there is none. -/
def scan {α : Type} : Option α → GoM α
  | some row => return row
  | none => throw "sql: no rows in result set"

def registerCompensation (o : RegisterCompensation) (now : Int) : GoM StorageObligation := do
  match ← query (.findObligation o.session o.effectKey o.kind) with
  | some existing => return existing
  | none =>
    query (.insertObligation (o.row now))
    let row ← query (.findObligation o.session o.effectKey o.kind)
    scan row

def claimObligation (dialect : Dialect) (seq : Int) (claimer : String) (leaseTtlMs nowOverrideMs clock : Int) :
    GoM (Bool × Option StorageObligation) := do
  let now := orNow nowOverrideMs clock
  let ttl := if leaseTtlMs ≤ 0 then defaultLeaseMs else leaseTtlMs
  let affected : Nat ← withCASLock dialect (query (.claimObligation seq claimer (addI64 now ttl) now))
  let row ← query (.obligationBySeq seq)
  return (affected = 1, row)

def recordObligationAttempt (seq : Int) (errMsg : String) (nextAttemptAtMs now : Int) :
    GoM (Option StorageObligation) := do
  match ← query (.obligationBySeq seq) with
  | none => return none
  | some existing =>
    let attempts := existing.attempts + 1
    let stuck := nextAttemptAtMs ≤ 0 ∨ existing.maxAttempts ≤ attempts
    query (.setAttempt seq attempts (orNone (some errMsg)) (if stuck then .stuck else .pending)
      (if stuck then 0 else nextAttemptAtMs) now)
    query (.obligationBySeq seq)

/-- The arguments of `SetTimer`. -/
structure SetTimer where
  session : SessionKey
  timerId : String
  fireAtMs : Int
  kind : String
  payloadJson : Json

def SetTimer.row (o : SetTimer) (now : Int) : StorageTimer where
  session := o.session
  timerId := o.timerId
  fireAtMs := o.fireAtMs
  kind := o.kind
  payloadJson := Stmt.jsonOrNil o.payloadJson
  fired := false
  createdAtMs := now

def setTimer (o : SetTimer) (now : Int) : GoM StorageTimer := do
  match ← query (.findTimer o.session o.timerId) with
  | some existing => return existing
  | none =>
    query (.insertTimer (o.row now))
    let row ← query (.findTimer o.session o.timerId)
    scan row

/-! ## The service -/

inductive Call where
  | compactOnce (groups : GroupOrder) (policy : CompactionPolicy) (nowMs clock : Int)
  | registerCompensation (o : RegisterCompensation) (now : Int)
  | claimObligation (seq : Int) (claimer : String) (leaseTtlMs nowOverrideMs clock : Int)
  | recordObligationAttempt (seq : Int) (errMsg : String) (nextAttemptAtMs now : Int)
  | setTimer (o : SetTimer) (now : Int)

namespace Call

def Out : Call → Type
  | compactOnce .. => Except String CompactionResult
  | registerCompensation .. => Except String StorageObligation
  | claimObligation .. => Except String (Bool × Option StorageObligation)
  | recordObligationAttempt .. => Except String (Option StorageObligation)
  | setTimer .. => Except String StorageTimer

def body (dialect : Dialect) : (call : Call) → Prog Stmt Stmt.Res call.Out
  | compactOnce groups policy nowMs clock => Compaction.compactOnce dialect groups policy nowMs clock
  | registerCompensation o now => Compaction.registerCompensation o now
  | claimObligation seq claimer leaseTtlMs nowOverrideMs clock =>
    Compaction.claimObligation dialect seq claimer leaseTtlMs nowOverrideMs clock
  | recordObligationAttempt seq errMsg nextAttemptAtMs now =>
    Compaction.recordObligationAttempt seq errMsg nextAttemptAtMs now
  | setTimer o now => Compaction.setTimer o now

end Call

/-- The methods of any number of goroutines, one statement at a time. -/
def service (dialect : Dialect) : System Shared Stmt Stmt.Res Call Call.Out := ⟨Stmt.exec, Stmt.fault, Call.body dialect⟩

/-- A goroutine takes the mutex only while it is free. -/
def Waits (_ : Nat) (_ : Call) (h : Hist Shared Stmt Stmt.Res) (stmt : Stmt) : Prop :=
  stmt matches .lock → h.state.casMu = false

/-- A database without any method running. -/
def quiet (s : Shared) : Config Shared Stmt Stmt.Res Call Call.Out where
  state := s
  log := []
  pool := []

end Tape.Embedded.Go.Compaction
