import Tape.Effect.Claim
import Tape.Interleave.Spawned
import Tape.Sdk.Pubsub

/-! # Messages that are delivered again

A subscriber process remembers the effect of a message from the moment the message is handed to it, and
not only once it has been dealt with.  A message that it gives back, because the claim or the report did
not reach the server, is therefore dropped when it comes again, as long as messages of fewer than
`lru_size` other effects were handed to the process since.  After that many the process has forgotten the
effect, and asks the server for its lease.
-/

namespace Tape.Sdk

open Interleave

/-- The key that a delivery to the subscriber makes it look up. -/
def lookupOf (subscriber : PubSubSubscriber) : Call ⊕ Delivery → Option String
  | .inr d => if d.subscriber = subscriber ∧ d.message.identified then some d.message.effectKey else none
  | .inl _ => none

/-- The lookups of a subscriber, the oldest first. -/
def lookups (subscriber : PubSubSubscriber) (calls : List (Call ⊕ Delivery)) : List String :=
  calls.filterMap (lookupOf subscriber)

/-- The cache answers as the earlier deliveries to its process have left it. -/
def Remembers (earlier : List (Call ⊕ Delivery)) : Call ⊕ Delivery → Prop
  | .inr d => d.message.identified →
    d.seen = (seenLookup d.subscriber.lruSize (seenAfter d.subscriber.lruSize (lookups d.subscriber earlier))
      d.message.effectKey).1
  | .inl _ => True

/-- The callbacks of one process look into its cache one after the other, each before it does anything else. -/
def Cached (c : PubsubConfig) : Choice (Call ⊕ Delivery) → Prop
  | .spawn call => Remembers c.calls call
  | _ => True

instance (earlier : List (Call ⊕ Delivery)) : DecidablePred (Remembers earlier)
  | .inr _ => inferInstanceAs (Decidable (_ → _))
  | .inl _ => isTrue trivial

instance (c : PubsubConfig) : DecidablePred (Cached c)
  | .spawn call => inferInstanceAs (Decidable (Remembers c.calls call))
  | .exec _ | .fault _ => isTrue trivial

/-- The process was handed a message of the same effect, and messages of fewer than `lru_size` other effects since. -/
def Recent (d : Delivery) (earlier : List (Call ⊕ Delivery)) : Prop :=
  ∃ before since, lookups d.subscriber earlier = before ++ d.message.effectKey :: since ∧
    ((since.filter (· ≠ d.message.effectKey)).dedup.length : Int) < d.subscriber.lruSize

theorem recent_iff {d : Delivery} (sized : 0 ≤ d.subscriber.lruSize) (earlier : List (Call ⊕ Delivery)) :
    Recent d earlier ↔ d.message.effectKey ∈ seenAfter d.subscriber.lruSize (lookups d.subscriber earlier) := by
  rw [seenAfter_eq sized]
  constructor
  · intro recent
    obtain ⟨before, since, split, few⟩ := recent
    by_contra forgotten
    have many := Lru.not_mem_after_iff.mp forgotten before since split
    omega
  · intro found
    by_contra old
    refine Lru.not_mem_after_iff.mpr (fun before since split => ?_) found
    by_contra few
    exact old ⟨before, since, split, by omega⟩

theorem seen_of_remembers {d : Delivery} {earlier : List (Call ⊕ Delivery)} (remembers : Remembers earlier (.inr d))
    (identified : d.message.identified) (sized : 0 ≤ d.subscriber.lruSize) :
    (Recent d earlier → d.seen = some true) ∧ (¬ Recent d earlier → d.seen = some false) := by
  have answered := remembers identified
  rw [seenLookup_eq sized] at answered
  rw [recent_iff sized, answered]
  exact ⟨fun found => by simp [found], fun absent => by simp [absent]⟩

/-- A message whose effect the cache has is acknowledged, and nothing else. -/
theorem onMessage_of_seen {d : Delivery} (seen : d.seen = some true) : (onMessage d).run = .ret (.ok .ack) := by
  unfold onMessage
  split
  · rfl
  · rw [seen]
    rfl

/-- One whose effect it does not have starts with a claim. -/
theorem onMessage_of_unseen {d : Delivery} (identified : d.message.identified) (unseen : d.seen = some false) :
    ∃ next, (onMessage d).run = .call (Effect.claimAct d.message.runId d.message.effectKey d.subscriber.claimer
      d.subscriber.leaseTtlMs d.claimAt d.claimAt) next := by
  unfold onMessage
  rw [identified, unseen]
  exact ⟨_, rfl⟩

/-- **Redelivery.**  In every run in which the caches answer as they do: a message of an effect that the same process
    was handed before, with fewer than `lru_size` others since, is acknowledged without anything being executed for it,
    whatever had become of the earlier one; every other message that names an effect starts with a claim. -/
theorem dropped_iff_recent (w : World) (choices : List (Choice (Call ⊕ Delivery)))
    (cached : pubsub.Along Cached (quietPubsub w) choices) {tid : Nat} {d : Delivery}
    (serves : (pubsub.run (quietPubsub w) choices).callOf tid = some (.inr d)) (identified : d.message.identified)
    (sized : 0 ≤ d.subscriber.lruSize) :
    (Recent d ((pubsub.run (quietPubsub w) choices).calls.take tid) →
      System.Idle (pubsub.run (quietPubsub w) choices) tid (.inr d) (.ok .ack)) ∧
    (¬ Recent d ((pubsub.run (quietPubsub w) choices).calls.take tid) →
      ∃ next, pubsub.body (.inr d) = .call (Effect.claimAct d.message.runId d.message.effectKey d.subscriber.claimer
        d.subscriber.leaseTtlMs d.claimAt d.claimAt) next) := by
  have remembers : Remembers ((pubsub.run (quietPubsub w) choices).calls.take tid) (.inr d) :=
    System.run_spawned (fun _ _ meets => meets) rfl cached serves
  obtain ⟨dropped, claimed⟩ := seen_of_remembers remembers identified sized
  constructor
  · intro recent
    exact System.idle_of_returning rfl (quietPubsub_owned w) choices serves (onMessage_of_seen (dropped recent))
  · intro old
    exact onMessage_of_unseen identified (claimed old)

/-! ## A message that was given back -/

def wireAttempt (seen : Bool) (claimAt : Int) : Delivery where
  subscriber := { process := 0, claimer := "S1" }
  message := ⟨"", [("tape_run_id", "r"), ("tape_effect_key", "k")]⟩
  seen := some seen
  outcome := .confirmed "ref 1" []
  claimAt := claimAt
  recordAt := claimAt + 1000

/-- The claim fails, so the message is given back; ten seconds later it comes again. -/
def givenBack : List (Choice (Call ⊕ Delivery)) :=
  [.spawn (.inr (wireAttempt false 1000)), .fault 0, .spawn (.inr (wireAttempt true 11000))]

def isGivenBack (c : PubsubConfig) (tid : Nat) : Bool :=
  match c.pool[tid]? with
  | some ⟨.inr _, .ret (.ok .nack)⟩ => true
  | _ => false

theorem given_back_wire_dropped :
    isGivenBack (pubsub.run (quietPubsub (World.empty .sqlite)) givenBack) 0 = true ∧
      System.Idle (pubsub.run (quietPubsub (World.empty .sqlite)) givenBack) 1 (.inr (wireAttempt true 11000))
        (.ok .ack) := by
  have serves : (pubsub.run (quietPubsub (World.empty .sqlite)) givenBack).callOf 1 =
      some (.inr (wireAttempt true 11000)) := by
    rw [Config.callOf_eq, System.calls_run]
    rfl
  have recent : Recent (wireAttempt true 11000)
      ((pubsub.run (quietPubsub (World.empty .sqlite)) givenBack).calls.take 1) := by
    rw [System.calls_run]
    exact ⟨[], [], rfl, by decide⟩
  refine ⟨by decide +kernel, ?_⟩
  exact (dropped_iff_recent (World.empty .sqlite) givenBack (by decide +kernel) serves (by decide)
    (by decide)).1 recent

end Tape.Sdk
