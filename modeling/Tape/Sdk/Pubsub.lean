import Tape.Interleave.Adding
import Tape.Lru
import Tape.Sdk.Dispatcher
import Tape.System

/-! # Effects that travel over Pub/Sub

`connectors/pubsub.py`.  `PubSubConnector.dispatch` publishes an effect as a message and calls that a
confirmed dispatch.  A `PubSubSubscriber` in a process of its own receives the messages, each any number
of times; it drops what it remembers having received, takes the dispatch lease of the effect, runs the
handler and reports what came of it.

`pubsub` is the deployment with such subscribers: the broker may deliver to any of them whenever it likes.
-/

namespace Tape.Sdk

/-- A message of the topic, as far as the subscriber looks at it. -/
structure Message where
  data : String
  attributes : List (String × String)
  deriving DecidableEq, Repr

/-- `attrs.get(name, "")`. -/
def Message.get (m : Message) (name : String) : String := (m.attributes.lookup name).getD ""

def Message.runId (m : Message) : String := m.get "tape_run_id"

def Message.effectKey (m : Message) : String := m.get "tape_effect_key"

/-- The message names an effect. -/
def Message.identified (m : Message) : Bool := m.effectKey ≠ "" && m.runId ≠ ""

structure PubSubConnector where
  name : String
  project : String
  topic : String

/-- `_topic_path`. -/
def PubSubConnector.topicPath (connector : PubSubConnector) : String :=
  "projects/" ++ connector.project ++ "/topics/" ++ connector.topic

/-- What `dispatch` publishes for an effect. -/
def PubSubConnector.message (connector : PubSubConnector) (effect : EffectRecord) : Message where
  data := if effect.requestJson = "" then "\x7b\x7d" else effect.requestJson
  attributes :=
    [("tape_run_id", effect.runId), ("tape_effect_key", effect.idempotencyKey),
      ("tape_business_key", effect.businessKey), ("tape_connector", connector.name),
      ("tape_tool", effect.toolName), ("tape_semantics", toString effect.semantics)]

/-- What `dispatch` makes of publishing: the message's id, or the type and text of what was raised. -/
def PubSubConnector.dispatch (connector : PubSubConnector) : Except (String × String) String → DispatchOutcome
  | .ok mid => .confirmed mid [("message_id", .str mid), ("topic", .str connector.topicPath)]
  | .error (type, text) => .failed (some (.obj [("type", .str type), ("message", .str text)])) 0

/-- The subscriber reads the effect's key off the message. -/
@[simp] theorem PubSubConnector.effectKey_message (connector : PubSubConnector) (effect : EffectRecord) :
    (connector.message effect).effectKey = effect.idempotencyKey := rfl

@[simp] theorem PubSubConnector.runId_message (connector : PubSubConnector) (effect : EffectRecord) :
    (connector.message effect).runId = effect.runId := rfl

/-! ## The cache of a subscriber -/

/-- `while len(self._seen) > self.lru_size: self._seen.popitem(last=False)`.  There is nothing to pop off an
    empty cache: `KeyError`. -/
def evict (lruSize : Int) : List String → Option (List String)
  | [] => if lruSize < 0 then none else some []
  | oldest :: rest => if lruSize < (oldest :: rest).length then evict lruSize rest else some (oldest :: rest)

/-- `_seen_lookup`: what it returns, unless it raises, and what it leaves of the cache, the oldest key first. -/
def seenLookup (lruSize : Int) (seen : List String) (effectKey : String) : Option Bool × List String :=
  if effectKey ∈ seen then (some true, seen.erase effectKey ++ [effectKey])
  else
    match evict lruSize (seen ++ [effectKey]) with
    | some seen => (some false, seen)
    | none => (none, [])

theorem evict_eq {lruSize : Int} (sized : 0 ≤ lruSize) (seen : List String) :
    evict lruSize seen = some (seen.rtake lruSize.toNat) := by
  induction seen with
  | nil => simp [evict, sized]
  | cons oldest rest inductionHypothesis =>
    rw [evict]
    by_cases long : lruSize < (oldest :: rest).length
    · have enough : lruSize.toNat ≤ rest.length := by
        simp only [List.length_cons] at long
        omega
      rw [if_pos long, inductionHypothesis, ← List.singleton_append, Lru.rtake_append_of_le [oldest] enough]
    · have short : (oldest :: rest).length ≤ lruSize.toNat := by omega
      rw [if_neg long, Lru.rtake_of_length_le short]

/-- The cache keeps the keys that were looked up last. -/
theorem seenLookup_eq {lruSize : Int} (sized : 0 ≤ lruSize) (seen : List String) (effectKey : String) :
    seenLookup lruSize seen effectKey =
      (some (decide (effectKey ∈ seen)), Lru.touch lruSize.toNat seen effectKey) := by
  rw [seenLookup, Lru.touch]
  by_cases found : effectKey ∈ seen
  · simp [found]
  · simp [found, evict_eq sized]

/-- The cache after lookups, the oldest first. -/
def seenAfter (lruSize : Int) (keys : List String) : List String :=
  keys.foldl (fun seen effectKey => (seenLookup lruSize seen effectKey).2) []

theorem seenAfter_eq {lruSize : Int} (sized : 0 ≤ lruSize) (keys : List String) :
    seenAfter lruSize keys = Lru.after lruSize.toNat keys := by
  induction keys using List.reverseRecOn with
  | nil => rfl
  | append_singleton keys effectKey inductionHypothesis =>
    rw [Lru.after_concat, ← inductionHypothesis]
    simp [seenAfter, seenLookup_eq sized]

/-! ## The subscriber -/

structure PubSubSubscriber where
  /-- Tells processes apart that are set up alike. -/
  process : Nat
  claimer : String
  leaseTtlMs : Int := 60000
  backoffBaseMs : Int := 1000
  lruSize : Int := 4096
  deriving DecidableEq, Repr

/-- One delivery of a message, with what `_on_message` reads from its surroundings. -/
structure Delivery where
  subscriber : PubSubSubscriber
  message : Message
  /-- What `_seen_lookup` returned, unless it raised. -/
  seen : Option Bool
  /-- What decoding and parsing the body raised, if it did. -/
  malformed : Option String := none
  /-- What the handler comes back with. -/
  outcome : DispatchOutcome
  /-- The server's clock when it takes the claim. -/
  claimAt : Int
  /-- The server's clock when it records the result. -/
  recordAt : Int
  /-- The subscriber's own clock. -/
  sdkNow : Int := recordAt

/-- What becomes of a message that was delivered. -/
inductive Disposition where
  | ack
  | nack
  /-- The callback raised. -/
  | raised
  deriving DecidableEq, Repr

/-- The effect as the handler sees it: the body and the attributes. -/
def Message.effect (m : Message) : EffectRecord where
  runId := m.runId
  seq := 0
  decisionIndex := 0
  toolName := m.get "tape_tool"
  idempotencyKey := m.effectKey
  status := EffectStatus.pending.code
  requestJson := m.data
  responseJson := ""
  errorJson := ""
  tsMs := 0
  semantics := 0
  dispatchMode := EffectDispatchMode.outbox.code
  businessKey := m.get "tape_business_key"
  connector := m.get "tape_connector"
  dispatchAttempts := 0
  nextDispatchAtMs := 0
  externalRef := ""
  dispatchClaimedBy := ""
  dispatchClaimExpiresAtMs := 0
  lastDispatchError := ""
  scope := ""

/-- `error or default`, where an empty dictionary is false too. -/
def orDefault (error : Option Json) (default : Json) : Json :=
  match error with
  | none | some (.obj []) => default
  | some error => error

/-- `record_dispatch_attempt` on the effect of the message. -/
def Delivery.recordAttempt (d : Delivery) (error : String) (nextAt : Int) : SdkM Unit := do
  let _ ← Client.recordDispatchAttempt d.message.runId d.message.effectKey error nextAt d.recordAt
  return ()

/-- `_report`. -/
def Delivery.report (d : Delivery) : SdkM Unit :=
  match d.outcome with
  | .confirmed externalRef response => do
    let responseJson := (Json.obj (Json.dictUpdate [("external_ref", .str externalRef)] response)).dumps
    let _ ← Client.completeEffect d.message.runId d.message.effectKey EffectStatus.confirmed.code responseJson ""
      d.recordAt
    return ()
  | .unknown error => d.recordAttempt (orDefault error (.obj [("reason", .str "ack lost")])).dumps 0
  | .failed error retryAtMs =>
    d.recordAttempt (orDefault error (.obj [])).dumps
      (if retryAtMs ≠ 0 then retryAtMs else d.sdkNow + d.subscriber.backoffBaseMs)
  -- the handler raised: nobody knows whether it got through
  | .raised error => d.recordAttempt ("handler: " ++ error) 0

/-- `_on_message` from the claim on, which the effect's row did not refuse. -/
def Delivery.handle (d : Delivery) : SdkM Disposition := do
  match d.malformed with
  | some error =>
    swallow (d.recordAttempt ("malformed body: " ++ error) 0)
    return .ack
  | none =>
    external (.dispatch d.message.effect d.outcome)
    match d.outcome with
    | .raised _ =>
      swallow d.report
      return .ack
    | _ =>
      match ← tried d.report with
      | .ok _ => return .ack
      | .error _ => return .nack

/-- `_on_message`. -/
def onMessage (d : Delivery) : SdkM Disposition :=
  if !d.message.identified then return .ack
  else
    match d.seen with
    | none => return .raised
    | some true => return .ack
    | some false => do
      match ← tried (Client.claimEffectDispatch d.message.runId d.message.effectKey d.subscriber.claimer
          d.subscriber.leaseTtlMs d.claimAt) with
      | .error _ => return .nack
      | .ok (acquired, _) => if !acquired then return .ack else d.handle

end Tape.Sdk

namespace Tape

open Interleave

/-- The deployment with Pub/Sub subscribers. -/
def pubsub : System World Act Act.Res (Call ⊕ Sdk.Delivery)
    (Sum.elim Call.Out fun _ => Except Sdk.Status Sdk.Disposition) :=
  tape.adding fun d => (Sdk.onMessage d).run

abbrev PubsubConfig : Type :=
  Config World Act Act.Res (Call ⊕ Sdk.Delivery) (Sum.elim Call.Out fun _ => Except Sdk.Status Sdk.Disposition)

/-- A deployment without any process running, and nothing executed yet. -/
def quietPubsub (w : World) : PubsubConfig where
  state := w
  log := []
  pool := []

theorem quietPubsub_owned (w : World) : (quietPubsub w).Owned := by
  intro event member
  cases member

end Tape
