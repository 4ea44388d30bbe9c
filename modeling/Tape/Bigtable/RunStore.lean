import Tape.Bigtable.Decimal
import Tape.Bigtable.Table
import Tape.Interleave.Rely
import Tape.Store.RunStore

/-! # `BigtableRunStore`

The methods of `store/bigtable.rs` as programs over single-row operations: the outbox dispatch, the journal
both ways it is kept, by run and by `global_seq`, and the loop of `SubscribeEvents`.  Every cell is text.
-/

namespace Tape.BigtableRunStore

open Interleave Bigtable

/-! ## Cells -/

/-- `sv`. -/
def set (qualifier value : String) : Mutation := .setCell qualifier value

def iv (n : Int) : String := toString n

def gs (m : RowMap) (qualifier : String) : String := (m.get? qualifier).getD ""

def gi (m : RowMap) (qualifier : String) : Int := (parseI64 (gs m qualifier)).getD 0

/-- `n as i32`. -/
def asI32 (n : Int) : Int := Int.bmod n (2 ^ 32)

def colHasNonempty (qualifier : String) : RowFilter := ⟨qualifier, .nonempty⟩

/-- The values it is used with are digits. -/
def colValueEq (qualifier value : String) : RowFilter := ⟨qualifier, .exact value⟩

/-! `serde_json::Value::to_string`: no blanks, and the members in the order of their keys. -/

namespace Text

def escapeChar (c : Char) : List Char :=
  let code := c.toNat
  if c = '"' then ['\\', '"']
  else if c = '\\' then ['\\', '\\']
  else if code = 10 then ['\\', 'n']
  else if code = 13 then ['\\', 'r']
  else if code = 9 then ['\\', 't']
  else if code = 12 then ['\\', 'f']
  else if code = 8 then ['\\', 'b']
  else if code < 32 then Json.unicodeEscape code
  else [c]

def quote (s : String) : String := "\"" ++ String.ofList (s.toList.flatMap escapeChar) ++ "\""

def ofJson : Json → String
  | .null => "null"
  | .bool value => if value then "true" else "false"
  | .int value => toString value
  | .str value => quote value
  | .arr items => "[" ++ ",".intercalate (ofItems items) ++ "]"
  | .obj members =>
    let ordered := (ofMembers members).insertionSort fun a b => a.1 ≤ b.1
    "\x7b" ++ ",".intercalate (ordered.map fun member => quote member.1 ++ ":" ++ member.2) ++ "\x7d"
where
  ofItems : List Json → List String
    | [] => []
    | item :: items => ofJson item :: ofItems items
  ofMembers : List (String × Json) → List (String × String)
    | [] => []
    | (key, value) :: members => (key, ofJson value) :: ofMembers members

end Text

/-! ## Row keys -/

/-- `{n:0width}`: the sign counts. -/
def pad (width : Nat) (n : Int) : String :=
  let digits := toString n.natAbs
  if n < 0 then "-" ++ String.ofList (List.replicate (width - 1 - digits.length) '0') ++ digits
  else String.ofList (List.replicate (width - digits.length) '0') ++ digits

/-- `{n:020}`. -/
def pad20 (n : Int) : String := pad 20 n

def rkRun (runId : String) : String := "r#" ++ runId

def rkEffect (key : String) : String := "e#" ++ key

def rkObligation (runId : String) (seq : Int) : String := "o#" ++ runId ++ "#" ++ pad20 seq

def rkJournal (runId : String) (seq : Int) : String := "j#" ++ runId ++ "#" ++ pad20 seq

def rkJournalGs (globalSeq : Int) : String := "jg#" ++ pad20 globalSeq

def rkMetaGlobalSeq : String := "meta#global_seq"

/-- `key.rsplit('#').next().and_then(|s| s.parse().ok()).unwrap_or(0)`. -/
def seqOfKey (key : String) : Int :=
  (parseI64 (String.ofList (key.toList.reverse.takeWhile (· ≠ '#')).reverse)).getD 0

/-- `key.trim_start_matches("jg#").parse().unwrap_or(0)`. -/
def globalSeqOfKey (key : String) : Int :=
  (parseI64 (String.ofList (trim key.length key.toList))).getD 0
where
  trim : Nat → List Char → List Char
    | 0, text => text
    | fuel + 1, text => if "jg#".toList.isPrefixOf text then trim fuel (text.drop 3) else text

/-! ## Records -/

def effectFrom (key : String) (m : RowMap) : EffectRecord where
  runId := gs m "run"
  seq := gi m "seq"
  decisionIndex := gi m "decision_index"
  toolName := gs m "tool"
  idempotencyKey := key
  status := asI32 (gi m "status")
  requestJson := gs m "request"
  responseJson := gs m "response"
  errorJson := gs m "error"
  tsMs := gi m "ts"
  semantics := asI32 (gi m "semantics")
  dispatchMode := asI32 (gi m "dispatch_mode")
  businessKey := gs m "business_key"
  connector := gs m "connector"
  dispatchAttempts := asI32 (gi m "dispatch_attempts")
  nextDispatchAtMs := gi m "next_dispatch_at_ms"
  externalRef := gs m "external_ref"
  dispatchClaimedBy := gs m "dispatch_claimed_by"
  dispatchClaimExpiresAtMs := gi m "dispatch_claim_expires_at_ms"
  lastDispatchError := gs m "last_dispatch_error"
  scope := gs m "scope"

/-- An `ObligationRecord`, its payload as text. -/
structure Obligation where
  runId : String
  seq : Int
  effectKey : String
  kind : String
  payloadJson : String
  status : Int
  tsMs : Int
  compensatorRef : String
  attempts : Int
  maxAttempts : Int
  nextAttemptAtMs : Int
  lastError : String
  claimedBy : String
  claimExpiresAtMs : Int
  resultJson : String

def obligationFrom (runId : String) (seq : Int) (m : RowMap) : Obligation where
  runId := runId
  seq := seq
  effectKey := gs m "effect_key"
  kind := gs m "kind"
  payloadJson := gs m "payload"
  status := asI32 (gi m "status")
  tsMs := gi m "ts"
  compensatorRef := gs m "compensator_ref"
  attempts := asI32 (gi m "attempts")
  maxAttempts := if asI32 (gi m "max_attempts") ≤ 0 then 5 else asI32 (gi m "max_attempts")
  nextAttemptAtMs := gi m "next_attempt_at_ms"
  lastError := gs m "last_error"
  claimedBy := gs m "claimed_by"
  claimExpiresAtMs := gi m "claim_expires_at_ms"
  resultJson := gs m "result"

/-- An `EventEntry`, its payload as text. -/
structure Entry where
  runId : String
  seq : Int
  kind : String
  payloadJson : String
  tsMs : Int
  globalSeq : Int
  subject : String
  schemaVersion : Int
  traceId : String
  spanId : String
  parentSpanId : String

def eventFromJournalGs (globalSeq : Int) (m : RowMap) : Entry where
  runId := gs m "run_id"
  seq := gi m "seq"
  kind := gs m "kind"
  payloadJson := gs m "payload"
  tsMs := gi m "ts"
  globalSeq := globalSeq
  subject := gs m "subject"
  schemaVersion := asI32 (gi m "schema_version")
  traceId := gs m "trace_id"
  spanId := gs m "span_id"
  parentSpanId := gs m "parent_span_id"

/-! ## The store's monad -/

/-- What an operation comes back with. -/
abbrev Reply (op : Op) : Type := Except StoreError op.Res

/-- A method: a program over single-row operations that may end in a `StoreError`. -/
abbrev BigtableM (α : Type) : Type := ExceptT StoreError (Prog Op Reply) α

def perform (op : Op) : BigtableM op.Res := ExceptT.mk (Prog.perform op)

/-- `unavailable` stands for whatever a failed request reports. -/
def requestFailed : StoreError := .msg "bigtable: unavailable"

def readRow (key : String) : BigtableM (Option RowMap) := perform (.readRow key)

def writeRow (key : String) (mutations : List Mutation) : BigtableM Unit := perform (.mutateRow key mutations)

def checkAndMutate (key : String) (predicate : RowFilter) (trueMutations falseMutations : List Mutation) : BigtableM Bool :=
  perform (.checkAndMutateRow key predicate trueMutations falseMutations)

/-! ## Sequence numbers and the journal -/

def nextSeq (runId : String) : BigtableM Int := do
  let row ← readRow (rkRun runId)
  let next := (row.map fun m => gi m "seq").getD 0 + 1
  writeRow (rkRun runId) [set "seq" (iv next)]
  return next

def nextGlobalSeq : BigtableM Int := perform (.increment rkMetaGlobalSeq)

def journalFull (runId : String) (seq : Int) (kind subject payload : String) (ts schemaVersion : Int)
    (traceId spanId parentSpanId : String) : BigtableM Unit := do
  let globalSeq ← nextGlobalSeq
  if runId ≠ "" then
    writeRow (rkJournal runId seq)
      [set "kind" kind, set "payload" payload, set "ts" (iv ts), set "global_seq" (iv globalSeq), set "subject" subject,
        set "schema_version" (iv schemaVersion), set "trace_id" traceId, set "span_id" spanId,
        set "parent_span_id" parentSpanId]
  writeRow (rkJournalGs globalSeq)
    [set "run_id" runId, set "seq" (iv seq), set "kind" kind, set "subject" subject, set "payload" payload,
      set "schema_version" (iv schemaVersion), set "trace_id" traceId, set "span_id" spanId,
      set "parent_span_id" parentSpanId, set "ts" (iv ts)]

def journal (runId : String) (seq : Int) (kind : String) (payload : Json) (ts : Int) : BigtableM Unit :=
  let p := if runId ≠ "" then payload.insertMissing "run_id" (.str runId) else payload
  journalFull runId seq kind (Subjects.derive kind p) (Text.ofJson payload) ts 1 "" "" ""

def readJournalAfter (fromGlobalSeq limit : Int) : BigtableM (List Entry) := do
  let start := "jg#" ++ pad20 (min (fromGlobalSeq + 1) i64Max)
  let rows : List (String × RowMap) ← perform (.readRange start "jg$" (max limit 1).toNat)
  return (rows.map fun row => eventFromJournalGs (globalSeqOfKey row.1) row.2).insertionSort fun a b => a.globalSeq ≤ b.globalSeq

/-- A `JournalEntry`, as an `EventEntry` of the run. -/
def journalEntry (runId : String) (seq : Int) (m : RowMap) : Entry where
  runId := runId
  seq := seq
  kind := gs m "kind"
  payloadJson := gs m "payload"
  tsMs := gi m "ts"
  globalSeq := gi m "global_seq"
  subject := gs m "subject"
  schemaVersion := if (m.get? "schema_version").isSome then asI32 (gi m "schema_version") else 1
  traceId := gs m "trace_id"
  spanId := gs m "span_id"
  parentSpanId := gs m "parent_span_id"

def journalRange (runId : String) (fromSeq : Int) : BigtableM (List Entry) := do
  let rows : List (String × RowMap) ← perform (.readPrefix ("j#" ++ runId ++ "#") 100000)
  return ((rows.filter fun row => fromSeq ≤ seqOfKey row.1).map fun row =>
    journalEntry runId (seqOfKey row.1) row.2).insertionSort fun a b => a.seq ≤ b.seq

/-- `events_since` does not look at `from_ts_ms`. -/
def eventsSince (_fromTsMs : Int) (runId kind : String) (limit : Int) : BigtableM (List Entry) := do
  if runId ≠ "" then
    let entries ← journalRange runId 0
    return (entries.filter fun j => kind = "" || j.kind = kind).take (max limit 1).toNat
  else readJournalAfter 0 limit

/-! ## Effects -/

def getEffect (key : String) : BigtableM (Option EffectRecord) := do
  let row ← readRow (rkEffect key)
  return row.map (effectFrom key)

/-- What a claim writes. -/
def claimMutations (claimer : String) (newExp now : Int) : List Mutation :=
  [set "dispatch_claimed_by" claimer, set "dispatch_claim_expires_at_ms" (iv newExp), set "ts" (iv now)]

/-- The `CheckAndMutateRow` of a claim: without a claimer it must find none, and after an expiry the same expiry. -/
def claimOp (key : String) (existing : EffectRecord) (claimer : String) (newExp now : Int) : Op :=
  if existing.dispatchClaimedBy = "" then
    .checkAndMutateRow (rkEffect key) (colHasNonempty "dispatch_claimed_by") [] (claimMutations claimer newExp now)
  else
    .checkAndMutateRow (rkEffect key)
      (colValueEq "dispatch_claim_expires_at_ms" (iv existing.dispatchClaimExpiresAtMs))
      (claimMutations claimer newExp now) []

def claimEffectDispatch (runId key claimer : String) (leaseTtlMs nowMs clock : Int) :
    BigtableM (Bool × Option EffectRecord) := do
  match ← getEffect key with
  | none => return (false, none)
  | some existing =>
    let now := RunStore.claimTime nowMs clock
    let newExp := addI64 now (RunStore.claimTtl leaseTtlMs)
    if existing.status ≠ EffectStatus.pending.code || existing.dispatchMode ≠ EffectDispatchMode.outbox.code ||
        now < existing.nextDispatchAtMs then
      return (false, some existing)
    else
      let unclaimed := existing.dispatchClaimedBy = ""
      let expired := !unclaimed && 0 < existing.dispatchClaimExpiresAtMs && existing.dispatchClaimExpiresAtMs ≤ now
      if !unclaimed && !expired then return (false, some existing)
      else
        let muts := claimMutations claimer newExp now
        let predicateMatched ←
          if unclaimed then checkAndMutate (rkEffect key) (colHasNonempty "dispatch_claimed_by") [] muts
          else do
            let renewed ← checkAndMutate (rkEffect key)
              (colValueEq "dispatch_claim_expires_at_ms" (iv existing.dispatchClaimExpiresAtMs)) muts []
            pure (!renewed)
        let acquired := !predicateMatched
        let updated ← getEffect key
        if acquired then
          let seq ← nextSeq runId
          journal runId seq "effect" (.obj
            [("tool", .str existing.toolName), ("idempotency_key", .str key), ("status", .str "pending"),
              ("transition", .str "dispatch-claimed"), ("claimer", .str claimer)]) now
        return (acquired, updated)

def recordDispatchAttempt (runId key error : String) (nextDispatchAtMs ts : Int) :
    BigtableM (Option EffectRecord) := do
  match ← getEffect key with
  | none => return none
  | some existing =>
    let newAttempts := asI32 (existing.dispatchAttempts + 1)
    let toUnknown := nextDispatchAtMs ≤ 0
    let newStatus := if toUnknown then EffectStatus.unknown.code else EffectStatus.pending.code
    let nextAt := if toUnknown then 0 else nextDispatchAtMs
    writeRow (rkEffect key)
      [set "status" (iv newStatus), set "dispatch_attempts" (iv newAttempts), set "last_dispatch_error" error,
        set "next_dispatch_at_ms" (iv nextAt), set "dispatch_claimed_by" "", set "dispatch_claim_expires_at_ms" (iv 0),
        set "ts" (iv ts)]
    let seq ← nextSeq runId
    journal runId seq "effect" (.obj
      [("tool", .str existing.toolName), ("idempotency_key", .str key),
        ("status", .str (if toUnknown then "unknown" else "pending")),
        ("transition", .str (if toUnknown then "dispatch-unknown" else "dispatch-retry-scheduled")),
        ("dispatch_attempts", .int newAttempts), ("error", .str error), ("next_dispatch_at_ms", .int nextAt)]) ts
    getEffect key

def registerCompensation (runId effectKey kind : String) (payload : Json) (compensatorRef : String)
    (maxAttempts ts : Int) : BigtableM Obligation := do
  let rows : List (String × RowMap) ← perform (.readPrefix ("o#" ++ runId ++ "#") 100000)
  match rows.find? fun row => gs row.2 "effect_key" = effectKey && gs row.2 "kind" = kind with
  | some (key, m) => return obligationFrom runId (seqOfKey key) m
  | none =>
    let seq ← nextSeq runId
    let maxAtt := if maxAttempts ≤ 0 then 5 else maxAttempts
    writeRow (rkObligation runId seq)
      [set "effect_key" effectKey, set "kind" kind, set "payload" (Text.ofJson payload),
        set "status" (iv ObligationStatus.pending.code), set "ts" (iv ts), set "compensator_ref" compensatorRef,
        set "attempts" (iv 0), set "max_attempts" (iv maxAtt), set "next_attempt_at_ms" (iv ts), set "last_error" "",
        set "claimed_by" "", set "claim_expires_at_ms" (iv 0), set "result" ""]
    journal runId seq "obligation" (.obj
      [("effect_key", .str effectKey), ("kind", .str kind), ("status", .str "pending"),
        ("transition", .str "registered")]) ts
    return { runId, seq, effectKey, kind, payloadJson := Text.ofJson payload, status := ObligationStatus.pending.code
             tsMs := ts, compensatorRef, attempts := 0, maxAttempts := maxAtt, nextAttemptAtMs := ts, lastError := ""
             claimedBy := "", claimExpiresAtMs := 0, resultJson := "" }

/-- The mapping of statuses and labels is that of `SqlRunStore`. -/
def recordExternalObservation (runId key : String) (resolution : Int)
    (externalRef responseJson errorJson compensateOnDuplicateKind : String) (ts registerTs : Int) :
    BigtableM (Option EffectRecord) := do
  match ← getEffect key with
  | none => return none
  | some existing =>
    let nextDispatch :=
      if resolution = EffectResolution.absent.code &&
        existing.semantics = EffectSemantics.idempotent.code then ts else existing.nextDispatchAtMs
    writeRow (rkEffect key)
      [set "status" (iv (RunStore.observedStatus resolution existing)), set "response" responseJson,
        set "error" errorJson, set "external_ref" externalRef, set "next_dispatch_at_ms" (iv nextDispatch),
        set "dispatch_claimed_by" "", set "dispatch_claim_expires_at_ms" (iv 0), set "ts" (iv ts)]
    let seq ← nextSeq runId
    journal runId seq "effect" (.obj
      [("tool", .str existing.toolName), ("idempotency_key", .str key), ("status", .str "observed"),
        ("transition", .str (RunStore.observedLabel resolution)), ("external_ref", .str externalRef)]) ts
    if resolution = EffectResolution.duplicate.code && compensateOnDuplicateKind ≠ "" then
      let _ ← registerCompensation runId key compensateOnDuplicateKind (RunStore.duplicatePayload externalRef key) "" 0
        registerTs
      getEffect key
    else getEffect key

def completeEffect (runId key : String) (status : Int) (responseJson errorJson : String) (ts : Int) :
    BigtableM (Option EffectRecord) := do
  match ← getEffect key with
  | none => return none
  | some existing =>
    if existing.status ≠ EffectStatus.pending.code then return some existing
    else
      writeRow (rkEffect key)
        [set "status" (iv status), set "response" responseJson, set "error" errorJson, set "ts" (iv ts)]
      let seq ← nextSeq runId
      journal runId seq "effect" (.obj
        [("tool", .str existing.toolName), ("idempotency_key", .str key),
          ("status", .str (RunStore.outcomeLabel status))]) ts
      return some { existing with status, responseJson, errorJson, tsMs := ts }

/-! ## `SubscribeEvents` -/

/-- `from = from.max(e.ts_ms)`, over a batch. -/
def advanceTs (fromTsMs : Int) (batch : List Entry) : Int :=
  batch.foldl (fun fromTsMs e => max fromTsMs e.tsMs) fromTsMs

/-- What the action returned, or nothing if it failed. -/
def attempt {α : Type} (action : BigtableM α) : BigtableM (Option α) :=
  ExceptT.mk <| action.run.bind fun result => .ret (.ok result.toOption)

/-- The loop for `from_ts_ms`: the entries sent in so many polls.  A failed poll ends the stream. -/
def subscribeEvents (runId kind : String) : Nat → Int → BigtableM (List Entry)
  | 0, _ => return []
  | polls + 1, fromTsMs => do
    match ← attempt (eventsSince fromTsMs runId kind 512) with
    | none => return []
    | some batch => do
      let rest ← subscribeEvents runId kind polls (advanceTs fromTsMs batch)
      return batch ++ rest

/-! ## Calls -/

inductive Call where
  | claimEffectDispatch (runId key claimer : String) (leaseTtlMs nowMs clock : Int)
  | recordDispatchAttempt (runId key error : String) (nextDispatchAtMs ts : Int)
  | recordExternalObservation (runId key : String) (resolution : Int)
      (externalRef responseJson errorJson compensateOnDuplicateKind : String) (ts registerTs : Int)
  | completeEffect (runId key : String) (status : Int) (responseJson errorJson : String) (ts : Int)
  | journal (runId : String) (seq : Int) (kind : String) (payload : Json) (ts : Int)
  | subscribeEvents (fromTsMs : Int) (runId kind : String) (polls : Nat)

namespace Call

abbrev Out : Call → Type
  | claimEffectDispatch .. => Except StoreError (Bool × Option EffectRecord)
  | recordDispatchAttempt .. | recordExternalObservation .. | completeEffect .. =>
    Except StoreError (Option EffectRecord)
  | journal .. => Except StoreError Unit
  | subscribeEvents .. => Except StoreError (List Entry)

def body : (call : Call) → Prog Op Reply call.Out
  | claimEffectDispatch runId key claimer leaseTtlMs nowMs clock =>
    BigtableRunStore.claimEffectDispatch runId key claimer leaseTtlMs nowMs clock
  | recordDispatchAttempt runId key error nextDispatchAtMs ts =>
    BigtableRunStore.recordDispatchAttempt runId key error nextDispatchAtMs ts
  | recordExternalObservation runId key resolution externalRef responseJson errorJson kind ts registerTs =>
    BigtableRunStore.recordExternalObservation runId key resolution externalRef responseJson errorJson kind ts registerTs
  | completeEffect runId key status responseJson errorJson ts =>
    BigtableRunStore.completeEffect runId key status responseJson errorJson ts
  | journal runId seq kind payload ts => BigtableRunStore.journal runId seq kind payload ts
  | subscribeEvents fromTsMs runId kind polls => BigtableRunStore.subscribeEvents runId kind polls fromTsMs

end Call

def bigtable : System Contents Op Reply Call Call.Out where
  exec op c := (.ok (op.exec c).1, (op.exec c).2)
  fault _ := some (.error requestFailed)
  body := Call.body

abbrev BigtableConfig : Type := Config Contents Op Reply Call Call.Out

abbrev BigtableHist : Type := Hist Contents Op Reply

abbrev BigtableEvent : Type := Event Op Reply

/-- A table without any process running, and nothing executed yet. -/
def quiet (c : Contents) : BigtableConfig where
  state := c
  log := []
  pool := []

theorem quiet_owned (c : Contents) : (quiet c).Owned := fun _ member => (List.not_mem_nil member).elim

/-- Start `call` as thread `tid` and let it execute `steps` operations on its own. -/
def serve (tid : Nat) (call : Call) (steps : Nat := 16) : List (Choice Call) :=
  .spawn call :: List.replicate steps (.exec tid)

end Tape.BigtableRunStore
