import Tape.Store.ReactionStore

/-! # The payloads of the journal

Every entry of the journal is inserted by one of the methods of the store, with the kind and the
payload that the method makes of its arguments and of the row it read.
-/

namespace Tape

/-- The kinds and payloads of runs' entries. -/
inductive Written : String → Json → Prop
  | begun (app user session runId invocation : String) (identity : RunIdentity) : Written "run" (.obj
      [("app", .str app), ("user", .str user), ("session", .str session), ("run_id", .str runId),
        ("invocation_id", .str invocation), ("status", .str "running"),
        ("tenant_id", .str identity.tenantId), ("actor", .str identity.actor),
        ("subject", .str identity.subject), ("agent_id", .str identity.agentId),
        ("aiplex_instance_id", .str identity.aiplexInstanceId)])
  | ended (app user session runId : String) (status : Int) : Written "run" (.obj
      [("app", .str app), ("user", .str user), ("session", .str session), ("run_id", .str runId),
        ("status", .str (RunStore.endLabel status))])
  | compacted (runId : String) (tsMs bytesSaved : Int) (decisionsZeroed effectsZeroed : Nat) : Written "run" (.obj
      [("run_id", .str runId), ("compacted_at_ms", .int tsMs), ("decisions_zeroed", .int decisionsZeroed),
        ("effects_zeroed", .int effectsZeroed), ("bytes_saved", .int bytesSaved)])
  | decision (decisionIndex : Int) (model policyVersion rationale : String) : Written "decision" (.obj
      [("decision_index", .int decisionIndex), ("model", .str model), ("policy_version", .str policyVersion),
        ("rationale", .str rationale)])
  | effect (r : RunStore.EffectRequest) : Written "effect" (.obj
      [("tool", .str r.toolName), ("decision_index", .int r.decisionIndex), ("idempotency_key", .str r.key),
        ("status", .str "pending"), ("semantics", .int r.sem), ("dispatch_mode", .int r.dmode),
        ("business_key", .str r.businessKey), ("connector", .str r.connector), ("scope", .str r.scope)])
  | policy (r : RunStore.EffectRequest) (granted : List String) : Written "policy" (.obj
      [("tool", .str r.toolName), ("decision_index", .int r.decisionIndex), ("required_scope", .str r.scope),
        ("granted_scopes", .arr (granted.map .str)), ("violation", .str "scope_not_granted")])
  | completed (tool key : String) (status : Int) : Written "effect" (.obj
      [("tool", .str tool), ("idempotency_key", .str key), ("status", .str (RunStore.outcomeLabel status))])
  | reconciled (tool key : String) (resolvedStatus : Int) : Written "effect" (.obj
      [("tool", .str tool), ("idempotency_key", .str key), ("status", .str "reconciled"),
        ("resolved_to", .int resolvedStatus)])
  | attempted (tool key error : String) (nextDispatchAtMs attempts nextAt : Int) : Written "effect" (.obj
      [("tool", .str tool), ("idempotency_key", .str key),
        ("status", .str (if nextDispatchAtMs ≤ 0 then "unknown" else "pending")),
        ("transition", .str (if nextDispatchAtMs ≤ 0 then "dispatch-unknown" else "dispatch-retry-scheduled")),
        ("dispatch_attempts", .int attempts), ("error", .str error), ("next_dispatch_at_ms", .int nextAt)])
  | observed (tool key : String) (resolution : Int) (externalRef : String) : Written "effect" (.obj
      [("tool", .str tool), ("idempotency_key", .str key), ("status", .str "observed"),
        ("transition", .str (RunStore.observedLabel resolution)), ("external_ref", .str externalRef)])
  | registered (effectKey kind : String) : Written "obligation" (.obj
      [("effect_key", .str effectKey), ("kind", .str kind), ("status", .str "pending"),
        ("transition", .str "registered")])
  | claimed (seq : Int) (effectKey kind claimer : String) : Written "obligation" (.obj
      [("obligation_seq", .int seq), ("effect_key", .str effectKey), ("kind", .str kind),
        ("status", .str "committed"), ("transition", .str "claimed"), ("claimer", .str claimer)])
  | retried (seq : Int) (effectKey kind error : String) (terminal : Bool) (attempts nextAt : Int) :
      Written "obligation" (.obj
      [("obligation_seq", .int seq), ("effect_key", .str effectKey), ("kind", .str kind),
        ("status", .str (if terminal then "stuck" else "pending")),
        ("transition", .str (if terminal then "stuck" else "retry-scheduled")), ("attempts", .int attempts),
        ("error", .str error), ("next_attempt_at_ms", .int nextAt)])
  | resolved (seq target : Int) (effectKey kind : String) : Written "obligation" (.obj
      [("obligation_seq", .int seq), ("effect_key", .str effectKey), ("kind", .str kind),
        ("status", .str (if target = ObligationStatus.compensated.code then "compensated" else "stuck")),
        ("transition", .str "resolved")])
  | waiting (gateName : String) : Written "gate" (.obj [("gate", .str gateName), ("status", .str "waiting")])
  | released (gateName : String) : Written "gate" (.obj [("gate", .str gateName), ("status", .str "released")])

/-- The payloads of values' entries. -/
inductive WrittenValue : Json → Prop
  | written («namespace» key valueJson writer : String) (version : Int) :
      WrittenValue (RunStore.valuePayload «namespace» key valueJson writer version)
  | deleted («namespace» key : String) (version : Int) :
      WrittenValue (RunStore.deletedPayload «namespace» key version)

/-- An entry as the store inserts it: one of a run has the subject that its payload derives, and a value's
    has no run. -/
def Filed (row : EventEntry) : Prop :=
  Written row.kind row.payload ∧
      row.subject = Subjects.derive row.kind (row.payload.insertMissing "run_id" (.str row.runId)) ∨
    row.kind = "value" ∧ row.runId = "" ∧ WrittenValue row.payload

end Tape
