import Tape.Bigtable.Runs
import Tape.Store.RunStore

/-! # Decisions, obligations and gates on a Bigtable

The other methods of `BigtableRunStore` that number an entry of a run's journal.  An obligation is
claimed by a read and a write, so two drainers can both have claimed it.
-/

namespace Tape.BigtableRunStore

open Interleave Bigtable

/-! ## Runs -/

def resumeRun (runId leaseOwner : String) (leaseTtlMs ts : Int) : BigtableM (Option RunState) := do
  writeRow (rkRun runId)
    [set "status" (iv RunStatus.running.code), set "lease_owner" leaseOwner,
      set "lease_exp" (iv (addI64 ts (max leaseTtlMs 0)))]
  runState runId

def endRun (runId : String) (status : Int) (detailJson : String) (ts : Int) : BigtableM (Option RunState) := do
  writeRow (rkRun runId)
    [set "status" (iv status), set "ended" (iv ts), set "detail" detailJson, set "lease_owner" ""]
  match ← runState runId with
  | none => return none
  | some r => do
    let seq := (← attempt (nextSeq runId)).getD 0
    let _ ← attempt (journal runId seq "run" (.obj
      [("app", .str r.appName), ("user", .str r.userId), ("session", .str r.sessionId), ("run_id", .str runId),
        ("status", .str (RunStore.endLabel status))]) ts)
    return some r

/-! ## Decisions -/

def decisionFrom (runId : String) (idx : Int) (m : RowMap) : DecisionRecord where
  runId := runId
  seq := gi m "seq"
  decisionIndex := idx
  model := gs m "model"
  requestJson := gs m "request"
  responseJson := gs m "response"
  rationale := gs m "rationale"
  policyVersion := gs m "policy"
  tsMs := gi m "ts"

def recordDecision (runId : String) (decisionIndex : Int)
    (model requestJson responseJson rationale policyVersion : String) (ts : Int) : BigtableM DecisionRecord := do
  match ← readRow (rkDecision runId decisionIndex) with
  | some m => return decisionFrom runId decisionIndex m
  | none => do
    let seq ← nextSeq runId
    writeRow (rkDecision runId decisionIndex)
      [set "seq" (iv seq), set "model" model, set "request" requestJson, set "response" responseJson,
        set "rationale" rationale, set "policy" policyVersion, set "ts" (iv ts)]
    journal runId seq "decision" (.obj
      [("decision_index", .int decisionIndex), ("model", .str model), ("policy_version", .str policyVersion),
        ("rationale", .str rationale)]) ts
    return { runId, seq, decisionIndex, model, requestJson, responseJson, rationale, policyVersion, tsMs := ts }

def getDecision (runId : String) (decisionIndex : Int) : BigtableM (Option DecisionRecord) := do
  let row ← readRow (rkDecision runId decisionIndex)
  return row.map (decisionFrom runId decisionIndex)

/-! ## Effects -/

def reconcileEffect (runId key : String) (resolvedStatus : Int) (responseJson errorJson : String) (ts : Int) :
    BigtableM (Option EffectRecord) := do
  match ← getEffect key with
  | none => return none
  | some existing =>
    if existing.status = EffectStatus.confirmed.code || existing.status = EffectStatus.failed.code then
      return some existing
    else
      writeRow (rkEffect key)
        [set "status" (iv resolvedStatus), set "response" responseJson, set "error" errorJson, set "ts" (iv ts)]
      let seq ← nextSeq runId
      journal runId seq "effect" (.obj
        [("tool", .str existing.toolName), ("idempotency_key", .str key), ("status", .str "reconciled"),
          ("resolved_to", .int resolvedStatus)]) ts
      return some { existing with status := resolvedStatus, responseJson, errorJson, tsMs := ts }

/-! ## Obligations -/

def getObligation (runId : String) (obligationSeq : Int) : BigtableM (Option Obligation) := do
  let row ← readRow (rkObligation runId obligationSeq)
  return row.map (obligationFrom runId obligationSeq)

/-- A key that has no number at its end is left out. -/
def listObligations (runId : String) (onlyUnresolved : Bool) (statusFilter : Int) : BigtableM (List Obligation) := do
  let rows : List (String × RowMap) ← perform (.readPrefix ("o#" ++ runId ++ "#") 100000)
  let found := rows.filterMap fun row =>
    (parseI64 (String.ofList (row.1.toList.reverse.takeWhile (· ≠ '#')).reverse)).map fun seq =>
      obligationFrom runId seq row.2
  let listed := found.filter fun o =>
    if 0 < statusFilter then o.status = statusFilter
    else !(onlyUnresolved && (o.status = ObligationStatus.compensated.code || o.status = ObligationStatus.stuck.code))
  return listed.insertionSort fun a b => b.seq ≤ a.seq

def obligationClaimable (now : Int) (existing : Obligation) : Bool :=
  existing.status = ObligationStatus.pending.code && existing.nextAttemptAtMs ≤ now ||
    existing.status = ObligationStatus.committed.code && 0 < existing.claimExpiresAtMs &&
      existing.claimExpiresAtMs ≤ now

def claimObligation (runId : String) (obligationSeq : Int) (claimer : String) (leaseTtlMs nowMs clock : Int) :
    BigtableM (Bool × Option Obligation) := do
  match ← getObligation runId obligationSeq with
  | none => return (false, none)
  | some existing =>
    let now := RunStore.claimTime nowMs clock
    if !obligationClaimable now existing then return (false, some existing)
    else
      writeRow (rkObligation runId obligationSeq)
        [set "status" (iv ObligationStatus.committed.code), set "claimed_by" claimer,
          set "claim_expires_at_ms" (iv (addI64 now (RunStore.claimTtl leaseTtlMs))), set "ts" (iv now)]
      let jseq ← nextSeq runId
      journal runId jseq "obligation" (.obj
        [("obligation_seq", .int existing.seq), ("effect_key", .str existing.effectKey), ("kind", .str existing.kind),
          ("status", .str "committed"), ("transition", .str "claimed"), ("claimer", .str claimer)]) now
      let updated ← getObligation runId obligationSeq
      return (true, updated)

def recordObligationAttempt (runId : String) (obligationSeq : Int) (error : String) (nextAttemptAtMs ts : Int) :
    BigtableM (Option Obligation) := do
  match ← getObligation runId obligationSeq with
  | none => return none
  | some existing =>
    let newAttempts := asI32 (existing.attempts + 1)
    let terminal := nextAttemptAtMs ≤ 0 || existing.maxAttempts ≤ newAttempts
    let newStatus := if terminal then ObligationStatus.stuck.code else ObligationStatus.pending.code
    let nextAt := if terminal then 0 else nextAttemptAtMs
    writeRow (rkObligation runId obligationSeq)
      [set "status" (iv newStatus), set "attempts" (iv newAttempts), set "last_error" error,
        set "next_attempt_at_ms" (iv nextAt), set "claimed_by" "", set "claim_expires_at_ms" (iv 0), set "ts" (iv ts)]
    let jseq ← nextSeq runId
    journal runId jseq "obligation" (.obj
      [("obligation_seq", .int existing.seq), ("effect_key", .str existing.effectKey), ("kind", .str existing.kind),
        ("status", .str (if terminal then "stuck" else "pending")),
        ("transition", .str (if terminal then "stuck" else "retry-scheduled")), ("attempts", .int newAttempts),
        ("error", .str error), ("next_attempt_at_ms", .int nextAt)]) ts
    getObligation runId obligationSeq

def resolveObligation (runId : String) (obligationSeq status : Int) (resultJson : String) (ts : Int) :
    BigtableM (Option Obligation) := do
  match ← getObligation runId obligationSeq with
  | none => return none
  | some existing =>
    let target :=
      if status = ObligationStatus.compensated.code || status = ObligationStatus.stuck.code then status
      else ObligationStatus.compensated.code
    writeRow (rkObligation runId obligationSeq)
      [set "status" (iv target), set "result" resultJson, set "claimed_by" "", set "claim_expires_at_ms" (iv 0),
        set "ts" (iv ts)]
    let jseq ← nextSeq runId
    journal runId jseq "obligation" (.obj
      [("obligation_seq", .int existing.seq), ("effect_key", .str existing.effectKey), ("kind", .str existing.kind),
        ("status", .str (if target = ObligationStatus.compensated.code then "compensated" else "stuck")),
        ("transition", .str "resolved")]) ts
    getObligation runId obligationSeq

/-! ## Gates -/

/-- The part of `await_signal` where no signal has come yet. -/
def parkOnGate (runId gateName payloadJson : String) (ts : Int) : BigtableM (Bool × String) := do
  writeRow (rkSignal runId gateName) [set "awaited" (iv 1), set "context" payloadJson, set "ts" (iv ts)]
  let seq ← nextSeq runId
  writeRow (rkRun runId)
    [set "status" (iv RunStatus.waiting.code), set "waiting_gate" gateName, set "lease_owner" ""]
  journal runId seq "gate" (.obj [("gate", .str gateName), ("status", .str "waiting")]) ts
  return (false, "")

def awaitSignal (runId gateName payloadJson : String) (ts : Int) : BigtableM (Bool × String) := do
  match ← readRow (rkSignal runId gateName) with
  | some m =>
    if gi m "delivered" = 1 then
      writeRow (rkSignal runId gateName) [set "consumed" (iv 1)]
      return (true, gs m "resolution")
    else parkOnGate runId gateName payloadJson ts
  | none => parkOnGate runId gateName payloadJson ts

/-- The part of `send_signal` where the run waits on the gate. -/
def releaseRun (runId gateName : String) (ts : Int) : BigtableM Unit := do
  writeRow (rkRun runId) [set "status" (iv RunStatus.runnable.code), set "waiting_gate" ""]
  match ← attempt (nextSeq runId) with
  | none => return ()
  | some seq => do
    let _ ← attempt (journal runId seq "gate" (.obj [("gate", .str gateName), ("status", .str "released")]) ts)
    return ()

/-- The part of `send_signal` after the run is known. -/
def signalRun (runId gateName resolutionJson : String) (ts : Int) : BigtableM (String × Int) := do
  writeRow (rkSignal runId gateName) [set "delivered" (iv 1), set "resolution" resolutionJson, set "ts" (iv ts)]
  match ← runState runId with
  | none => return (runId, RunStatus.unspecified.code)
  | some m =>
    if m.status = RunStatus.waiting.code && m.waitingOnGate = gateName then
      releaseRun runId gateName ts
      return (runId, RunStatus.runnable.code)
    else return (runId, RunStatus.unspecified.code)

def sendSignal (runId app user session gateName resolutionJson : String) (ts : Int) : BigtableM (String × Int) := do
  if !runId.isEmpty then signalRun runId gateName resolutionJson ts
  else
    let row ← readRow (rkRoute app user session)
    let latest := (row.map fun m => gs m "run").getD ""
    if latest.isEmpty then throw (.msg "no run for that session")
    else signalRun latest gateName resolutionJson ts

end Tape.BigtableRunStore
