import Tape.Embedded.Final
import Tape.Embedded.Retention

/-! # Snapshots

After a snapshot the rows of a session may be deleted: `begin_effect` answers from the snapshot.
The default watermark is the clock, and an effect with a later stamp is not captured.
-/

namespace Tape.Embedded

open Sql

def CapturedEffect.outcome (c : CapturedEffect) : Outcome := ⟨c.status, c.responseJson, c.errorJson⟩

/-- `begin_effect` answers with the outcome and inserts nothing. -/
def Answers (r : BeginEffect) (now : Int) (outcome : Outcome) (s : Store) : Prop :=
  ∃ record, beginEffect r now s = .ok (record, s) ∧ record.outcome = outcome

/-- The outcome that is recorded under the key, live or captured. -/
def recorded (s : Store) (session : SessionKey) (key : String) : Option Outcome :=
  ((s.effect session key).map StorageEffect.outcome).or ((s.captured session key).map CapturedEffect.outcome)

theorem answers_iff (r : BeginEffect) (now : Int) (outcome : Outcome) (s : Store) :
    Answers r now outcome s ↔ r.refusal = none ∧ recorded s r.session r.key = some outcome := by
  unfold Answers beginEffect recorded
  cases r.refusal with
  | some refused => simp
  | none =>
    cases s.effect r.session r.key with
    | some existing => simp
    | none =>
      cases s.captured r.session r.key with
      | some captured => simp [CapturedEffect.record, StorageEffect.outcome, CapturedEffect.outcome]
      | none =>
        cases inserted : s.effects.insert (sameBusinessKey (r.freshRow now)) (r.freshRow now) with
        | none => simp
        | some table =>
          -- a new row would be one more
          have grown : ∀ left : Store, left.effects = table → left ≠ s := by
            rintro left isTable rfl
            have rows := Table.rows_insert inserted
            rw [← isTable] at rows
            simpa using congrArg List.length rows
          simp [grown { s with effects := table } rfl]

variable {s : Store} {session : SessionKey} {key : String} {outcome : Outcome}

/-! ## What keeps an outcome -/

/-- The snapshot has the outcome, and so has the row if it is still there. -/
def HeldBySnapshot (session : SessionKey) (key : String) (outcome : Outcome) (s : Store) : Prop :=
  (s.captured session key).map CapturedEffect.outcome = some outcome ∧
    ∀ row, s.effect session key = some row → row.outcome = outcome

/-- The row cannot be deleted. -/
def HeldByRow (session : SessionKey) (key : String) (outcome : Outcome) (s : Store) : Prop :=
  ∃ row, s.effect session key = some row ∧ row.outcome = outcome ∧ pinned s row ∧ isLive s session

theorem HeldBySnapshot.recorded (held : HeldBySnapshot session key outcome s) :
    recorded s session key = some outcome := by
  rw [Embedded.recorded, held.1]
  cases live : s.effect session key with
  | none => rfl
  | some row => simp [held.2 row live]

theorem HeldByRow.recorded (held : HeldByRow session key outcome s) : recorded s session key = some outcome := by
  obtain ⟨row, found, same, -, -⟩ := held
  simp [Embedded.recorded, found, same]

theorem HeldBySnapshot.serve (held : HeldBySnapshot session key outcome s) (call : RetentionCall) :
    HeldBySnapshot session key outcome (call.serve s) := by
  constructor
  · cases captured_serve_cases call s session key with
    | inl same => rw [same, held.1]
    | inr merged =>
      obtain ⟨row, found, -, isCaptured⟩ := merged
      rw [isCaptured, Option.map_some]
      exact congrArg some (held.2 row found)
  · intro row found
    cases effect_serve_cases call found with
    | inl before => exact held.2 row before
    | inr free =>
      have captured := held.1
      rw [free.2] at captured
      cases captured

theorem HeldByRow.serve (held : HeldByRow session key outcome s) (call : RetentionCall) :
    HeldByRow session key outcome (call.serve s) := by
  obtain ⟨row, found, same, isPinned, live⟩ := held
  have kept := pinned_serve call s row session
  exact ⟨row, effect_serve_of_pinned call found isPinned live, same, kept.1.trans isPinned, kept.2.trans live⟩

/-! ## Runs after a snapshot -/

/-- What the snapshot takes covers the row, or has its outcome already, or the row stays. -/
def Retained (clock : Int) (s : Store) (row : StorageEffect) : Prop :=
  row.tsMs ≤ clock ∨
    (s.captured row.session row.idempotencyKey).map CapturedEffect.outcome = some row.outcome ∨
    pinned s row ∧ isLive s row.session

/-- After a snapshot with the default watermark, an outcome answers every accepted `begin_effect` of
    its key, whatever is compacted, if and only if it was retained. -/
theorem snapshot_answers_iff (r : BeginEffect) (clock now : Int) (s : Store) (row : StorageEffect)
    (found : s.effect r.session r.key = some row) (terminal : row.status.isTerminal) :
    (∀ later now', Answers r now' row.outcome
      (Sequential.run RetentionCall.serve (leaves (takeSnapshot r.session 0 clock now s) s) later)) ↔
      r.refusal = none ∧ Retained clock s row := by
  have isSession := session_of_effect found
  have isKey := key_of_effect found
  have capturedAfter : (leaves (takeSnapshot r.session 0 clock now s) s).captured r.session r.key =
      if row.tsMs ≤ clock then some row.capture else s.captured r.session r.key := by
    rw [captured_takeSnapshot, if_pos rfl, found, Option.filter_some]
    by_cases covered : row.tsMs ≤ clock <;> simp [terminal, orNow, covered]
  have liveAfter : (leaves (takeSnapshot r.session 0 clock now s) s).effect r.session r.key = some row := found
  simp only [answers_iff, Retained, isSession, isKey]
  constructor
  · intro always
    refine ⟨(always [] 0).1, ?_⟩
    by_cases covered : row.tsMs ≤ clock
    · exact .inl covered
    by_cases stays : pinned s row ∧ isLive s r.session
    · exact .inr (.inr stays)
    -- a compaction deletes the row, and the snapshot alone answers
    obtain ⟨policy, clock', deleted⟩ := exists_deletion liveAfter terminal stays
    have answer := (always [.compact id policy 0 clock'] 0).2
    simp only [Sequential.run_cons, Sequential.run_nil, RetentionCall.serve, recorded, captured_compactOnce] at answer
    rw [deleted, capturedAfter, if_neg covered] at answer
    exact .inr (.inl (by simpa using answer))
  · rintro ⟨accepted, retained⟩ later now'
    refine ⟨accepted, ?_⟩
    by_cases stays : pinned s row ∧ isLive s r.session
    · have held : HeldByRow r.session r.key row.outcome (leaves (takeSnapshot r.session 0 clock now s) s) :=
        ⟨row, liveAfter, rfl, stays.1, stays.2⟩
      exact (Sequential.run_kept (fun _ call held => held.serve call) held later).recorded
    · have held : HeldBySnapshot r.session r.key row.outcome (leaves (takeSnapshot r.session 0 clock now s) s) := by
        refine ⟨?_, fun other isOther => ?_⟩
        · rw [capturedAfter]
          split
          next => rfl
          next uncovered => simpa [uncovered, stays] using retained
        · rw [liveAfter] at isOther
          cases isOther
          rfl
      exact (Sequential.run_kept (fun _ call held => held.serve call) held later).recorded

/-- The payment after it was made, at time 5. -/
def paidStore : Store := Sequential.run LedgerCall.serve .empty paid

def paidRow : StorageEffect :=
  (completion .confirmed (.str "sent") .null 5).apply ((claim "a" 11).apply (payment.freshRow 1))

def compactedAt (clock : Int) : RetentionCall := .compact id { effectTtlMs := 10 } 0 clock

theorem payment_answered_after_compaction :
    Answers payment 30 paidRow.outcome
      (Sequential.run RetentionCall.serve (leaves (takeSnapshot payment.session 0 5 5 paidStore) paidStore)
        [compactedAt 20]) :=
  (snapshot_answers_iff payment 5 5 paidStore paidRow rfl rfl).mpr ⟨rfl, .inl (by decide)⟩ [compactedAt 20] 30

/-- Where the clock of the snapshot is behind that of the completion, the payment is begun again. -/
theorem payment_begun_again :
    (paidStore.effect payment.session "k").map StorageEffect.status = some .confirmed ∧
    ((beginEffect payment 30
      (Sequential.run RetentionCall.serve (leaves (takeSnapshot payment.session 0 4 4 paidStore) paidStore)
        [compactedAt 20])).toOption.map fun answer => answer.1.status) = some .pending := by
  decide

end Tape.Embedded
