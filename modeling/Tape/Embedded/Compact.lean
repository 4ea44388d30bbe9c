import Tape.Embedded.Service

/-! # The compactor

`compact_once`, `tape_adk/compact.py`: one transaction that archives whole sessions, then prunes
obligations, timers and effects that are old enough.
-/

namespace Tape.Embedded

open Sql

structure CompactionPolicy where
  effectTtlMs : Int := 7 * 24 * 60 * 60 * 1000
  sessionTtlMs : Int := 30 * 24 * 60 * 60 * 1000
  archiveTerminalObligations : Bool := true
  archiveFiredTimers : Bool := true
  maxPerTick : Int := 1000

structure CompactionResult where
  effectsPruned : Nat := 0
  obligationsPruned : Nat := 0
  timersPruned : Nat := 0
  sessionsArchived : Nat := 0
  deriving DecidableEq, Repr

/-! ## Archiving sessions -/

/-- The session has effects, and the latest is older than the cutoff. -/
def isStale (cutoff : Int) (s : Store) (session : SessionKey) : Bool :=
  (s.effects.rows.any fun row => row.session = session) &&
    s.effects.rows.all fun row => row.session ≠ session || row.tsMs < cutoff

/-- An open or a stuck obligation, or a timer that has not fired, keeps the session. -/
def isLive (s : Store) (session : SessionKey) : Bool :=
  (s.obligations.rows.any fun o => o.session = session && (o.status.isActive || o.status = .stuck)) ||
    s.timers.rows.any fun t => t.session = session && !t.fired

/-- `_find_archivable_sessions`.  `groups` is the order in which the database returns the groups of its
    `GROUP BY`, of which the `LIMIT` takes the first. -/
def findArchivableSessions (groups : List SessionKey → List SessionKey) (cutoff limit : Int) (s : Store) : List SessionKey :=
  let sessions := groups (s.effects.rows.map StorageEffect.session).dedup
  (limitRows limit (sessions.filter (isStale cutoff s))).filter fun session => !isLive s session

/-- Delete what the three tables have of a session. -/
def archiveSession (state : CompactionResult × Store) (session : SessionKey) : CompactionResult × Store :=
  let (result, s) := state
  ({ effectsPruned := result.effectsPruned + s.effects.count (fun row => row.session = session)
     obligationsPruned := result.obligationsPruned + s.obligations.count (fun o => o.session = session)
     timersPruned := result.timersPruned + s.timers.count (fun t => t.session = session)
     sessionsArchived := result.sessionsArchived + 1 },
   { s with
     effects := s.effects.delete fun row => row.session = session
     obligations := s.obligations.delete fun o => o.session = session
     timers := s.timers.delete fun t => t.session = session })

/-! ## Pruning rows -/

/-- A compensated obligation that is old enough; a stuck one is kept for the operator. -/
def prunableObligation (cutoff : Int) (o : StorageObligation) : Bool := o.status = .compensated && o.tsMs < cutoff

def prunableTimer (cutoff : Int) (t : StorageTimer) : Bool := t.fired && t.createdAtMs < cutoff

/-- A terminal effect that is old enough and that no open obligation names. -/
def prunableEffect (cutoff : Int) (s : Store) (row : StorageEffect) : Bool :=
  row.status.isTerminal && row.tsMs < cutoff && !pinned s row

def pruneObligations (cutoff : Int) (state : CompactionResult × Store) : CompactionResult × Store :=
  ({ state.1 with
     obligationsPruned := state.1.obligationsPruned + state.2.obligations.count (prunableObligation cutoff) },
   { state.2 with obligations := state.2.obligations.delete (prunableObligation cutoff) })

def pruneTimers (cutoff : Int) (state : CompactionResult × Store) : CompactionResult × Store :=
  ({ state.1 with timersPruned := state.1.timersPruned + state.2.timers.count (prunableTimer cutoff) },
   { state.2 with timers := state.2.timers.delete (prunableTimer cutoff) })

def pruneEffects (cutoff : Int) (state : CompactionResult × Store) : CompactionResult × Store :=
  ({ state.1 with effectsPruned := state.1.effectsPruned + state.2.effects.count (prunableEffect cutoff state.2) },
   { state.2 with effects := state.2.effects.delete (prunableEffect cutoff state.2) })

def compactOnce (groups : List SessionKey → List SessionKey) (policy : CompactionPolicy) (nowMs clock : Int) (s : Store) :
    Result CompactionResult :=
  let now := orNow nowMs clock
  let effectCutoff := now - policy.effectTtlMs
  let archived := (findArchivableSessions groups (now - policy.sessionTtlMs) policy.maxPerTick s).foldl archiveSession ({}, s)
  let settled := if policy.archiveTerminalObligations then pruneObligations effectCutoff archived else archived
  let fired := if policy.archiveFiredTimers then pruneTimers effectCutoff settled else settled
  .ok (pruneEffects effectCutoff fired)

end Tape.Embedded
