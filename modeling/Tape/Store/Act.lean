import Tape.Interleave.Rely
import Tape.Store.Effects
import Tape.Store.EventBus
import Tape.Store.Ledger
import Tape.Store.Runs

/-! # Atomic acts

What the processes of a deployment do atomically: one SQL statement (or the one
short transaction of `next_global_seq`), one access to a server's scope cache, or
one interaction with the outside: a connector, an inverse, a status check.
Everything between two acts of one process is local to it, so these acts are the
granularity of interleaving.

A statement may also come back with an error without having been applied.
-/

namespace Tape

open Sql Interleave

/-- What a connector's `dispatch` came back with: a `DispatchResult`, or an exception. -/
inductive DispatchOutcome where
  | confirmed (externalRef : String) (response : List (String × Json))
  | failed (error : Option Json) (retryAtMs : Int)
  | unknown (error : Option Json)
  | raised (error : String)

def DispatchOutcome.isConfirmed : DispatchOutcome → Bool
  | .confirmed .. => true
  | _ => false

/-- Interactions with the outside, with what came back. -/
inductive External where
  | dispatch (effect : EffectRecord) (outcome : DispatchOutcome)
  | observe (effect : EffectRecord)
  | statusCheck (runId key : String)
  /-- The inverse registered for an obligation is invoked. -/
  | compensator (obligation : ObligationRecord)
  /-- The reply to a dispatcher's `complete_effect` arrived. -/
  | acknowledged (runId key : String)
  | redrive (runId : String)
  | onTimer (timer : TimerRecord)

/-- A statement, by the table it is on. -/
inductive Stmt where
  | run (s : RunStmt)
  | effect (s : EffectStmt)
  | decision (s : DecisionStmt)
  | obligation (s : ObligationStmt)
  | signal (s : SignalStmt)
  | timer (s : TimerStmt)
  | journal (s : JournalStmt)
  | value (s : ValueStmt)
  | reaction (s : ReactionStmt)
  | cursor (s : CursorStmt)
  | task (s : TaskStmt)

namespace Stmt

def Res : Stmt → Type
  | run s => s.Res
  | effect s => s.Res
  | decision s => s.Res
  | obligation s => s.Res
  | signal s => s.Res
  | timer s => s.Res
  | journal s => s.Res
  | value s => s.Res
  | reaction s => s.Res
  | cursor s => s.Res
  | task s => s.Res

/-- A statement reads what it likes and writes its own table. -/
def exec : (s : Stmt) → World → Except StoreError s.Res × World
  | run s, w => ((s.exec w).1, { w with runs := (s.exec w).2 })
  | effect s, w => ((s.exec w).1, { w with effects := (s.exec w).2 })
  | decision s, w => ((s.exec w).1, { w with decisions := (s.exec w).2 })
  | obligation s, w => ((s.exec w).1, { w with obligations := (s.exec w).2 })
  | signal s, w => ((s.exec w).1, { w with signals := (s.exec w).2 })
  | timer s, w => ((s.exec w).1, { w with timers := (s.exec w).2 })
  | journal s, w => ((s.exec w).1, { w with journal := (s.exec w).2.1, globalSeq := (s.exec w).2.2 })
  | value s, w => ((s.exec w).1, { w with values := (s.exec w).2 })
  | reaction s, w => ((s.exec w).1, { w with reactions := (s.exec w).2 })
  | cursor s, w => ((s.exec w).1, { w with reactionCursors := (s.exec w).2 })
  | task s, w => ((s.exec w).1, { w with tasks := (s.exec w).2 })

end Stmt

inductive Act where
  | sql (s : Stmt)
  | cache (c : CacheOp)
  | outside (x : External)

namespace Act

def Res : Act → Type
  | sql s => Except StoreError s.Res
  | cache c => c.Res
  | outside _ => Unit

def exec : (act : Act) → World → act.Res × World
  | sql s, w => s.exec w
  | cache c, w => ((c.exec w).1, { w with scopeCache := (c.exec w).2 })
  | outside _, w => ((), w)

def statementFailed : StoreError := .msg "database unavailable"

/-- A statement can fail; the cache and the outside do not answer with a store error. -/
def fault : (act : Act) → Option act.Res
  | sql _ => some (.error statementFailed)
  | cache _ => none
  | outside _ => none

abbrev run (s : RunStmt) : Act := sql (.run s)

abbrev effect (s : EffectStmt) : Act := sql (.effect s)

abbrev decision (s : DecisionStmt) : Act := sql (.decision s)

abbrev obligation (s : ObligationStmt) : Act := sql (.obligation s)

abbrev signal (s : SignalStmt) : Act := sql (.signal s)

abbrev timer (s : TimerStmt) : Act := sql (.timer s)

abbrev journal (s : JournalStmt) : Act := sql (.journal s)

abbrev value (s : ValueStmt) : Act := sql (.value s)

abbrev reaction (s : ReactionStmt) : Act := sql (.reaction s)

abbrev cursor (s : CursorStmt) : Act := sql (.cursor s)

abbrev task (s : TaskStmt) : Act := sql (.task s)

end Act

/-! ## The store's monad -/

/-- A store method: a program over acts that may end in a `StoreError`. -/
abbrev StoreM (α : Type) : Type := ExceptT StoreError (Prog Act Act.Res) α

def Stmt.query (s : Stmt) : StoreM s.Res := ExceptT.mk (Prog.perform (Act.sql s))

abbrev RunStmt.query (s : RunStmt) : StoreM s.Res := (Stmt.run s).query

abbrev EffectStmt.query (s : EffectStmt) : StoreM s.Res := (Stmt.effect s).query

abbrev DecisionStmt.query (s : DecisionStmt) : StoreM s.Res := (Stmt.decision s).query

abbrev ObligationStmt.query (s : ObligationStmt) : StoreM s.Res := (Stmt.obligation s).query

abbrev SignalStmt.query (s : SignalStmt) : StoreM s.Res := (Stmt.signal s).query

abbrev TimerStmt.query (s : TimerStmt) : StoreM s.Res := (Stmt.timer s).query

abbrev JournalStmt.query (s : JournalStmt) : StoreM s.Res := (Stmt.journal s).query

abbrev ValueStmt.query (s : ValueStmt) : StoreM s.Res := (Stmt.value s).query

abbrev ReactionStmt.query (s : ReactionStmt) : StoreM s.Res := (Stmt.reaction s).query

abbrev CursorStmt.query (s : CursorStmt) : StoreM s.Res := (Stmt.cursor s).query

abbrev TaskStmt.query (s : TaskStmt) : StoreM s.Res := (Stmt.task s).query

def CacheOp.access (c : CacheOp) : StoreM c.Res := ExceptT.lift (Prog.perform (Act.cache c))

/-- `let _ = …`, `.unwrap_or(default)`: go on with `default` when the action failed. -/
def orElse {α : Type} (action : StoreM α) (default : α) : StoreM α :=
  ExceptT.mk <| action.run.bind fun
    | .ok value => .ret (.ok value)
    | .error _ => .ret (.ok default)

/-- What the action returned, or nothing if it failed. -/
def attempt {α : Type} (action : StoreM α) : StoreM (Option α) :=
  orElse (do let value ← action; return some value) none

end Tape
