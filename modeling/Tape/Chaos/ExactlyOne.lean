import Tape.Effect.Verb
import Tape.Journal.Filed

/-! # The `exactly_one` oracle

`chaos/invariants.py`: the check subscribes to the entries under `/tape/effect/confirmed` and counts the
business keys in their payloads.  Of the store's entries only the one that begins an effect carries the
business key and the connector, and it is filed under `pending`.  The check therefore counts nothing,
and passes whatever is in the ledger.
-/

namespace Tape.Chaos

open Sql Interleave Effect

/-! ## The check -/

/-- `InvariantResult`. -/
structure InvariantResult where
  name : String
  passed : Bool
  detail : String
  deriving DecidableEq, Repr

/-- `_ExactlyOne`. -/
structure ExactlyOne where
  connector : String := ""
  tool : String := ""
  «by» : String := "business_key"

/-- `str(payload.get(key) or "")`, where `repr` is Python's. -/
def strOf (repr : Json → String) (payload : Json) (key : String) : String :=
  match payload.get? key with
  | none | some .null | some (.bool false) | some (.arr []) | some (.obj []) => ""
  | some (.bool true) => "True"
  | some (.int n) => if n = 0 then "" else toString n
  | some (.str value) => value
  | some value => repr value

/-- `counts[key] = counts.get(key, 0) + 1`. -/
def bump (key : String) : List (String × Nat) → List (String × Nat)
  | [] => [(key, 1)]
  | (other, n) :: rest => if other = key then (other, n + 1) :: rest else (other, n) :: bump key rest

namespace ExactlyOne

def name (repr : Json → String) (o : ExactlyOne) : String :=
  "exactly_one(" ++ repr (.str (if o.connector.isEmpty then o.tool else o.connector)) ++ ", by=" ++
    repr (.str o.by) ++ ")"

def pattern (o : ExactlyOne) : String :=
  if o.tool.isEmpty then "/tape/effect/confirmed/**" else "/tape/effect/confirmed/" ++ o.tool ++ "/**"

/-- The loop over the stream; `expired` says for which entries the clock is past the deadline once they
    are counted. -/
def tally (repr : Json → String) (expired : EventEntry → Bool) (o : ExactlyOne) :
    List EventEntry → List (String × Nat) → List (String × Nat)
  | [], counts => counts
  | evt :: rest, counts =>
    let connector := strOf repr evt.payload "connector"
    let bk := strOf repr evt.payload o.by
    if !o.connector.isEmpty && connector ≠ o.connector then tally repr expired o rest counts
    else if bk.isEmpty then tally repr expired o rest counts
    else if expired evt then bump bk counts
    else tally repr expired o rest (bump bk counts)

/-- `check`, given what `subscribe_events` returned or raised. -/
def check (repr : Json → String) (expired : EventEntry → Bool) (o : ExactlyOne)
    (stream : Except String (List EventEntry)) : InvariantResult :=
  match stream with
  | .error ex => { name := o.name repr, passed := false, detail := "subscribe_events failed: " ++ ex }
  | .ok events =>
    let counts := o.tally repr expired events []
    let dupes := counts.filter fun count => 1 < count.2
    if !dupes.isEmpty then
      { name := o.name repr, passed := false
        detail := "duplicate business keys: " ++ repr (.obj (dupes.map fun count => (count.1, .int count.2))) }
    else { name := o.name repr, passed := true, detail := "unique business keys: " ++ toString counts.length }

end ExactlyOne

/-! ## What it is to detect -/

/-- The entries that the oracle's stream delivers: those after the first that match its pattern. -/
def stream (o : ExactlyOne) (w : World) : List EventEntry :=
  (orderBy EventEntry.globalSeq w.journal.rows).filter fun e =>
    1 < e.globalSeq && Subjects.matches o.pattern e.subject

/-- The effect is of the connector and of the tool that the oracle checks. -/
def ExactlyOne.concerns (o : ExactlyOne) (e : EffectRecord) : Bool :=
  (o.connector.isEmpty || e.connector = o.connector) && (o.tool.isEmpty || e.toolName = o.tool)

/-- Two effects that the oracle checks are `CONFIRMED` under one business key. -/
def Duplicated (o : ExactlyOne) (w : World) : Prop :=
  ∃ a ∈ w.effects.rows, ∃ b ∈ w.effects.rows, a.pk ≠ b.pk ∧ a.businessKey = b.businessKey ∧ a.businessKey ≠ "" ∧
    (a.status = EffectStatus.confirmed.code ∧ b.status = EffectStatus.confirmed.code) ∧
    o.concerns a ∧ o.concerns b

instance (o : ExactlyOne) (w : World) : Decidable (Duplicated o w) :=
  inferInstanceAs (Decidable (∃ a ∈ w.effects.rows, ∃ b ∈ w.effects.rows, a.pk ≠ b.pk ∧ a.businessKey = b.businessKey ∧
    a.businessKey ≠ "" ∧ (a.status = EffectStatus.confirmed.code ∧ b.status = EffectStatus.confirmed.code) ∧
    o.concerns a ∧ o.concerns b))

/-- The oracle reports a duplicate there is. -/
def Detects (repr : Json → String) (expired : EventEntry → Bool) (o : ExactlyOne) (w : World) : Prop :=
  Duplicated o w → (o.check repr expired (.ok (stream o w))).passed = false

/-! ## What it sees -/

section Sees

variable {repr : Json → String} {expired : EventEntry → Bool} {o : ExactlyOne} {e : EventEntry}

/-- The pattern is one of the verb `confirmed`. -/
theorem verbOf_of_pattern {subject : String} (matched : Subjects.matches o.pattern subject) :
    verbOf subject = "confirmed" := by
  have segment : Subjects.IsSegment "confirmed".toList := by simp [Subjects.IsSegment]
  unfold ExactlyOne.pattern at matched
  split at matched
  · exact @verbOf_of_matches _ segment "**" _ matched
  · rw [String.append_assoc] at matched
    exact @verbOf_of_matches _ segment (o.tool ++ "/**") _ matched

/-- Of the entries only those that begin an effect carry a business key. -/
theorem begins_of_businessKey {kind : String} {payload : Json} (isWritten : Written kind payload)
    (carries : payload.get? "business_key" ≠ none) :
    kind = "effect" ∧ ∀ runId, (payload.insertMissing "run_id" runId).strAt "status" = "pending" := by
  cases isWritten with
  | effect r => exact ⟨rfl, fun _ => rfl⟩
  | _ => exact absurd rfl carries

theorem unkeyed_of_value {payload : Json} (isValue : WrittenValue payload) : payload.get? "business_key" = none := by
  cases isValue <;> rfl

/-- An entry that is seen has no business key. -/
theorem unkeyed_of_seen (filed : Filed e) (matched : Subjects.matches o.pattern e.subject) :
    e.payload.get? "business_key" = none := by
  by_contra carries
  rcases filed with ⟨isWritten, derived⟩ | ⟨-, -, isValue⟩
  · obtain ⟨isEffect, pending⟩ := begins_of_businessKey isWritten carries
    have isPending : verbOf e.subject = "pending" := by
      rw [derived, isEffect, verbOf_derive, pending]
      decide +kernel
    rw [verbOf_of_pattern matched] at isPending
    simp at isPending
  · exact carries (unkeyed_of_value isValue)

/-- Without a business key in any entry nothing is counted. -/
theorem tally_of_unkeyed {events : List EventEntry} (counts : List (String × Nat)) (isDefault : o.by = "business_key")
    (unkeyed : ∀ e ∈ events, e.payload.get? "business_key" = none) :
    o.tally repr expired events counts = counts := by
  induction events with
  | nil => rfl
  | cons e events inductionHypothesis =>
    have rest := inductionHypothesis fun other member => unkeyed other (List.mem_cons_of_mem _ member)
    have none_ := unkeyed e List.mem_cons_self
    have blank : strOf repr e.payload o.by = "" := by rw [isDefault, strOf, none_]
    unfold ExactlyOne.tally
    simp [blank, rest]

/-- The check passes on every journal. -/
theorem passed_of_filed {w : World} (filed : Journal.AllFiled w) (isDefault : o.by = "business_key") :
    (o.check repr expired (.ok (stream o w))).passed = true := by
  have unkeyed : ∀ e ∈ stream o w, e.payload.get? "business_key" = none := by
    intro e member
    obtain ⟨ordered, selected⟩ := List.mem_filter.mp member
    simp only [Bool.and_eq_true] at selected
    exact unkeyed_of_seen (filed e (mem_of_mem_orderBy ordered)) selected.2
  simp [ExactlyOne.check, tally_of_unkeyed [] isDefault unkeyed]

end Sees

/-- The oracle never reports a duplicate: it does what it is for exactly where there is none to report. -/
theorem exactlyOne_detects_iff (repr : Json → String) (expired : EventEntry → Bool) (connector tool : String)
    (dialect : Subjects.Dialect) (choices : List (Choice Call)) :
    Detects repr expired { connector, tool } (tape.run (quiet (World.empty dialect)) choices).state ↔
      ¬ Duplicated { connector, tool } (tape.run (quiet (World.empty dialect)) choices).state := by
  have filed : Journal.AllFiled (tape.run (quiet (World.empty dialect)) choices).state :=
    Journal.run_filed (fun e member => (List.not_mem_nil member).elim) choices
  have passed := @passed_of_filed repr expired { connector, tool } _ filed rfl
  rw [Detects, passed]
  simp

/-! ## One invoice, wired twice -/

def wire (key connector : String) : RunStore.EffectRequest where
  runId := "r"
  toolName := "wire"
  customKey := key
  businessKey := "invoice-7"
  connector := connector

def confirm (key : String) : Call := .completeEffect "r" key EffectStatus.confirmed.code "\x7b\x7d" "" 4

/-- A wire over each of two banks for one invoice, and both are confirmed. -/
def wiredTwice : List (Choice Call) :=
  serve 0 (.beginRun 0 "app" "user" "s" "inv-1" {} "A" 60000 1 "r") ++ serve 1 (.beginEffect 0 (wire "k-1" "bank.a") 2) ++
    serve 2 (.beginEffect 0 (wire "k-2" "bank.b") 3) ++ serve 3 (confirm "k-1") ++ serve 4 (confirm "k-2")

/-- The oracle of the tool sees both confirmations, finds no business key in them, and passes. -/
theorem duplicate_passes : Duplicated { tool := "wire" } (tape.run (quiet (World.empty .sqlite)) wiredTwice).state ∧
    (stream { tool := "wire" } (tape.run (quiet (World.empty .sqlite)) wiredTwice).state).length = 2 ∧
    ¬ Detects Json.dumps (fun _ => false) { tool := "wire" } (tape.run (quiet (World.empty .sqlite)) wiredTwice).state := by
  have duplicated : Duplicated { tool := "wire" } (tape.run (quiet (World.empty .sqlite)) wiredTwice).state := by
    decide +kernel
  have passes : (ExactlyOne.check Json.dumps (fun _ => false) { tool := "wire" }
      (.ok (stream { tool := "wire" } (tape.run (quiet (World.empty .sqlite)) wiredTwice).state))).passed = true := by
    decide +kernel
  refine ⟨duplicated, by decide +kernel, fun detects => ?_⟩
  rw [detects duplicated] at passes
  cases passes

end Tape.Chaos
