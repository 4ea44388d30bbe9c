import Mathlib.Data.List.MinMax
import Tape.Journal.Cursor
import Tape.Sql.Window
import Tape.Subjects.Prefilter

/-! # Subscriptions over a journal at rest

`events_by_subject` cuts the entries that pass the `LIKE` prefilter off at the limit, and only then
keeps those that match.  A batch can therefore be empty although a matching entry follows, and the
loop of `SubscribeBySubject`, whose cursor moves on delivered entries only, then asks for the same
batch for ever.
-/

namespace Tape.Journal

open Sql Subjects

/-- What the loop of `SubscribeEvents` or `SubscribeBySubject` sends, from a cursor and over a number of
    polls. -/
def subscribeBySubject (pattern : String) (limit : Int) : Nat → Int → StoreM (List EventEntry)
  | 0, _ => return []
  | polls + 1, cursor => do
    let batch ← RunStore.eventsBySubject cursor pattern limit
    let rest ← subscribeBySubject pattern limit polls (advanceCursor cursor batch)
    return batch ++ rest

/-- The batch of one call. -/
def batch (w : World) (pattern : String) (limit cursor : Int) : List EventEntry :=
  (JournalStmt.tail w cursor limit fun row => accepts w.dialect pattern row.subject).filter
    fun row => «matches» pattern row.subject

/-- The entries of `polls` polls. -/
def sent (w : World) (pattern : String) (limit : Int) : Nat → Int → List EventEntry
  | 0, _ => []
  | polls + 1, cursor =>
    batch w pattern limit cursor ++ sent w pattern limit polls (advanceCursor cursor (batch w pattern limit cursor))

/-- How many entries between two positions pass the prefilter. -/
def crowd (w : World) (pattern : String) (low high : Int) : Nat :=
  w.journal.rows.countP fun row =>
    accepts w.dialect pattern row.subject && low < row.globalSeq && row.globalSeq < high

/-- A position a subscriber's cursor can have: its start, or a matching entry behind it. -/
def IsStop (w : World) (pattern : String) (start position : Int) : Prop :=
  position = start ∨ ∃ row ∈ w.journal.rows, «matches» pattern row.subject ∧ start < row.globalSeq ∧ row.globalSeq = position

/-- The entry passes the prefilter, and fewer than `limit` that do lie between it and a position before
    it at which the cursor can stop. -/
def WithinReach (w : World) (pattern : String) (limit start : Int) (e : EventEntry) : Prop :=
  accepts w.dialect pattern e.subject ∧
    ∃ low, IsStop w pattern start low ∧ low < e.globalSeq ∧ (crowd w pattern low e.globalSeq : Int) < limit

section Calls

variable {w : World} {pattern : String} {limit : Int}

theorem alone_eventsBySubject (positive : 1 ≤ limit) (cursor : Int) :
    tape.alone (RunStore.eventsBySubject cursor pattern limit).run w = (.ok (batch w pattern limit cursor), w) := by
  have bound : max limit 1 = limit := max_eq_left positive
  unfold RunStore.eventsBySubject
  rw [bound]
  rfl

theorem alone_subscribeBySubject (positive : 1 ≤ limit) (polls : Nat) (cursor : Int) :
    tape.alone (subscribeBySubject pattern limit polls cursor).run w = (.ok (sent w pattern limit polls cursor), w) := by
  induction polls generalizing cursor with
  | zero => rfl
  | succ polls inductionHypothesis =>
    rw [subscribeBySubject, alone_seq (alone_eventsBySubject positive cursor), alone_seq (inductionHypothesis _)]
    rfl

variable (unique : ∀ a ∈ w.journal.rows, ∀ b ∈ w.journal.rows, a.globalSeq = b.globalSeq → a = b)

include unique

theorem tail_sorted (cursor : Int) (cond : EventEntry → Bool) :
    (JournalStmt.tail w cursor limit cond).Pairwise fun a b => a.globalSeq < b.globalSeq := by
  have nodup : (w.journal.rows.filter fun row => cursor < row.globalSeq && cond row).Nodup :=
    (List.Nodup.of_map _ w.journal.nodup).filter _
  have sorted := pairwise_lt_insertionSort EventEntry.globalSeq nodup fun a memberA b memberB =>
    unique a (List.mem_of_mem_filter memberA) b (List.mem_of_mem_filter memberB)
  unfold JournalStmt.tail limitRows orderBy
  split
  · exact sorted
  · exact sorted.sublist (List.take_sublist _ _)

/-- An entry is in the batch exactly if it matches, passes the prefilter, and fewer than `limit` that do
    stand between it and the cursor. -/
theorem mem_batch_iff (positive : 1 ≤ limit) (cursor : Int) (e : EventEntry) :
    e ∈ batch w pattern limit cursor ↔ e ∈ w.journal.rows ∧ cursor < e.globalSeq ∧ «matches» pattern e.subject ∧
      accepts w.dialect pattern e.subject ∧ (crowd w pattern cursor e.globalSeq : Int) < limit := by
  have nodup : (w.journal.rows.filter fun row => cursor < row.globalSeq && accepts w.dialect pattern row.subject).Nodup :=
    (List.Nodup.of_map _ w.journal.nodup).filter _
  have ranked := mem_take_insertionSort_iff EventEntry.globalSeq nodup (fun a memberA b memberB =>
    unique a (List.mem_of_mem_filter memberA) b (List.mem_of_mem_filter memberB)) limit.toNat e
  have crowded : List.countP (fun other => decide (other.globalSeq < e.globalSeq))
      (w.journal.rows.filter fun row => cursor < row.globalSeq && accepts w.dialect pattern row.subject) =
        crowd w pattern cursor e.globalSeq := by
    rw [List.countP_filter, crowd]
    refine List.countP_congr fun row _ => ?_
    simp only [Bool.and_eq_true, decide_eq_true_eq]
    tauto
  rw [crowded] at ranked
  have limited : ¬ limit < 0 := by omega
  rw [batch, List.mem_filter, JournalStmt.tail, limitRows, if_neg limited, orderBy, ranked, List.mem_filter]
  have bound : crowd w pattern cursor e.globalSeq < limit.toNat ↔ (crowd w pattern cursor e.globalSeq : Int) < limit := by
    omega
  rw [bound]
  simp only [Bool.and_eq_true, decide_eq_true_eq]
  tauto

/-- The first entry to match is the head of the batch exactly if it is in it. -/
theorem head?_batch_iff (positive : 1 ≤ limit) {cursor : Int} {e : EventEntry} (member : e ∈ w.journal.rows)
    (behind : cursor < e.globalSeq) (isMatch : «matches» pattern e.subject)
    (first : ∀ row ∈ w.journal.rows, cursor < row.globalSeq → «matches» pattern row.subject → e.globalSeq ≤ row.globalSeq) :
    (batch w pattern limit cursor).head? = some e ↔
      accepts w.dialect pattern e.subject ∧ (crowd w pattern cursor e.globalSeq : Int) < limit := by
  have inBatch : e ∈ batch w pattern limit cursor ↔ _ := mem_batch_iff unique positive cursor e
  simp only [member, behind, isMatch, true_and] at inBatch
  rw [← inBatch]
  constructor
  · exact List.mem_of_mem_head?
  · intro served
    have sorted : (batch w pattern limit cursor).Pairwise fun a b => a.globalSeq < b.globalSeq :=
      (tail_sorted unique cursor _).filter _
    refine head?_of_least sorted served fun other memberOther earlier => ?_
    obtain ⟨row, after, matched, -⟩ := (mem_batch_iff unique positive cursor other).mp memberOther
    exact absurd (first other row after matched) (not_le.mpr earlier)

end Calls

/-! ## The loop -/

theorem le_advanceCursor (cursor : Int) (rows : List EventEntry) :
    cursor ≤ advanceCursor cursor rows ∧ ∀ e ∈ rows, e.globalSeq ≤ advanceCursor cursor rows := by
  induction rows generalizing cursor with
  | nil => simp [advanceCursor]
  | cons first rows inductionHypothesis =>
    obtain ⟨grows, covers⟩ := inductionHypothesis (max cursor first.globalSeq)
    have step : advanceCursor cursor (first :: rows) = advanceCursor (max cursor first.globalSeq) rows := rfl
    rw [step]
    refine ⟨le_trans (le_max_left _ _) grows, fun e member => ?_⟩
    rcases List.mem_cons.mp member with rfl | later
    · exact le_trans (le_max_right _ _) grows
    · exact covers e later

section Loop

variable {w : World} {pattern : String} {limit start cursor : Int}
  (unique : ∀ a ∈ w.journal.rows, ∀ b ∈ w.journal.rows, a.globalSeq = b.globalSeq → a = b) (positive : 1 ≤ limit)

include unique positive

/-- Where the cursor goes it can stop. -/
theorem IsStop.advance (stop : IsStop w pattern start cursor) (behind : start ≤ cursor) :
    IsStop w pattern start (advanceCursor cursor (batch w pattern limit cursor)) := by
  rcases advanceCursor_cases cursor (batch w pattern limit cursor) with stays | ⟨last, inBatch, moves⟩
  · rwa [stays]
  · obtain ⟨member, after, matched, -⟩ := (mem_batch_iff unique positive cursor last).mp inBatch
    exact .inr ⟨last, member, matched, by omega, moves.symm⟩

/-- What was sent was within reach of a stop. -/
theorem withinReach_of_sent {e : EventEntry} (stop : IsStop w pattern start cursor) (behind : start ≤ cursor) (polls : Nat)
    (isSent : e ∈ sent w pattern limit polls cursor) : WithinReach w pattern limit start e := by
  induction polls generalizing cursor with
  | zero => cases isSent
  | succ polls inductionHypothesis =>
    rcases List.mem_append.mp isSent with now | later
    · obtain ⟨-, after, -, accepted, crowded⟩ := (mem_batch_iff unique positive cursor e).mp now
      exact ⟨accepted, cursor, stop, after, crowded⟩
    · have grows := (le_advanceCursor cursor (batch w pattern limit cursor)).1
      exact inductionHypothesis (stop.advance unique positive behind) (by omega) later

omit unique positive in
theorem crowd_mono {low low' high high' : Int} (narrower : low' ≤ low) (shorter : high ≤ high') :
    crowd w pattern low high ≤ crowd w pattern low' high' := by
  refine List.countP_mono_left fun row _ between => ?_
  simp only [Bool.and_eq_true, decide_eq_true_eq] at between ⊢
  exact ⟨⟨between.1.1, by omega⟩, by omega⟩

/-- How many matching entries are ahead of the cursor. -/
def ahead (w : World) (pattern : String) (cursor : Int) : Nat :=
  w.journal.rows.countP fun row => «matches» pattern row.subject && cursor < row.globalSeq

/-- If every matching entry is within reach, each poll that has one ahead delivers the next one, and as
    many polls as there are matching entries deliver them all. -/
theorem sent_of_withinReach
    (reach : ∀ e ∈ w.journal.rows, «matches» pattern e.subject → start < e.globalSeq → WithinReach w pattern limit start e)
    (behind : start ≤ cursor) (polls : Nat) (enough : ahead w pattern cursor ≤ polls) {e : EventEntry}
    (member : e ∈ w.journal.rows) (isMatch : «matches» pattern e.subject) (after : cursor < e.globalSeq) :
    e ∈ sent w pattern limit polls cursor := by
  induction polls generalizing cursor with
  | zero =>
    rw [ahead, Nat.le_zero, List.countP_eq_zero] at enough
    exact absurd (by simp [isMatch, after]) (enough e member)
  | succ polls inductionHypothesis =>
    -- the next matching entry is in the batch
    obtain ⟨next, isNext⟩ : ∃ next, next ∈ List.argmin EventEntry.globalSeq
        (w.journal.rows.filter fun row => «matches» pattern row.subject && cursor < row.globalSeq) := by
      refine Option.ne_none_iff_exists'.mp fun nothing => ?_
      have empty := List.argmin_eq_none.mp nothing
      rw [List.filter_eq_nil_iff] at empty
      exact empty e member (by simp [isMatch, after])
    have nextMember := List.argmin_mem isNext
    simp only [List.mem_filter, Bool.and_eq_true, decide_eq_true_eq] at nextMember
    obtain ⟨nextMember, nextMatch, nextAfter⟩ := nextMember
    have least : ∀ row ∈ w.journal.rows, «matches» pattern row.subject → cursor < row.globalSeq →
        next.globalSeq ≤ row.globalSeq := by
      intro row rowMember rowMatch rowAfter
      exact List.le_of_mem_argmin (List.mem_filter.mpr ⟨rowMember, by simp [rowMatch, rowAfter]⟩) isNext
    obtain ⟨nextAccepted, low, stop, lowBefore, crowded⟩ := reach next nextMember nextMatch (by omega)
    have lowBehind : low ≤ cursor := by
      rcases stop with rfl | ⟨row, rowMember, rowMatch, -, rfl⟩
      · exact behind
      · by_contra ahead
        have notBefore := least row rowMember rowMatch (by omega)
        omega
    have narrower : crowd w pattern cursor next.globalSeq ≤ crowd w pattern low next.globalSeq :=
      crowd_mono lowBehind le_rfl
    have nextInBatch : next ∈ batch w pattern limit cursor :=
      (mem_batch_iff unique positive cursor next).mpr ⟨nextMember, nextAfter, nextMatch, nextAccepted, by omega⟩
    obtain ⟨grows, covers⟩ := le_advanceCursor cursor (batch w pattern limit cursor)
    have passed := covers next nextInBatch
    refine List.mem_append.mpr ?_
    by_cases sentNow : e.globalSeq ≤ advanceCursor cursor (batch w pattern limit cursor)
    · -- the cursor went on to an entry of the batch, so what it passed is in the batch too
      refine .inl ?_
      rcases advanceCursor_cases cursor (batch w pattern limit cursor) with stays | ⟨last, inBatch, moves⟩
      · omega
      · obtain ⟨-, -, -, -, lastCrowded⟩ := (mem_batch_iff unique positive cursor last).mp inBatch
        have shorter : crowd w pattern cursor e.globalSeq ≤ crowd w pattern cursor last.globalSeq :=
          crowd_mono le_rfl (by omega)
        have accepted := (reach e member isMatch (by omega)).1
        exact (mem_batch_iff unique positive cursor e).mpr ⟨member, after, isMatch, accepted, by omega⟩
    · refine .inr (inductionHypothesis (by omega) ?_ (by omega))
      -- one matching entry fewer is ahead
      have fewer : ahead w pattern (advanceCursor cursor (batch w pattern limit cursor)) < ahead w pattern cursor := by
        refine countP_lt_countP (fun row _ isAhead => ?_) nextMember (by simp [nextMatch, nextAfter]) (by simp [passed])
        simp only [Bool.and_eq_true, decide_eq_true_eq] at isAhead ⊢
        exact ⟨isAhead.1, by omega⟩
      omega

end Loop

/-- **What a subscription delivers.**  Over a journal that no longer changes, one call returns the first
    matching entry after its cursor at the head of its batch exactly if that entry passes the prefilter
    and fewer than `limit` entries that pass it lie in between; and the loop delivers every matching
    entry after its start exactly if each is within reach of the start or of a matching entry before it. -/
theorem subscription_delivers_iff {w : World} {pattern : String} {limit : Int}
    (unique : ∀ a ∈ w.journal.rows, ∀ b ∈ w.journal.rows, a.globalSeq = b.globalSeq → a = b) (positive : 1 ≤ limit) :
    (∀ cursor, ∀ e ∈ w.journal.rows, cursor < e.globalSeq → «matches» pattern e.subject →
      (∀ row ∈ w.journal.rows, cursor < row.globalSeq → «matches» pattern row.subject → e.globalSeq ≤ row.globalSeq) →
      ((∃ rows, (tape.alone (RunStore.eventsBySubject cursor pattern limit).run w).1 = .ok rows ∧ rows.head? = some e) ↔
        accepts w.dialect pattern e.subject ∧ (crowd w pattern cursor e.globalSeq : Int) < limit)) ∧
    ∀ start, (∀ e ∈ w.journal.rows, start < e.globalSeq → «matches» pattern e.subject →
        ∃ polls rows, (tape.alone (subscribeBySubject pattern limit polls start).run w).1 = .ok rows ∧ e ∈ rows) ↔
      ∀ e ∈ w.journal.rows, start < e.globalSeq → «matches» pattern e.subject → WithinReach w pattern limit start e := by
  constructor
  · intro cursor e member behind isMatch first
    rw [← head?_batch_iff unique positive member behind isMatch first, alone_eventsBySubject positive]
    simp
  · intro start
    constructor
    · intro delivers e member after isMatch
      obtain ⟨polls, rows, returned, isSent⟩ := delivers e member after isMatch
      rw [alone_subscribeBySubject positive] at returned
      cases returned
      exact withinReach_of_sent unique positive (.inl rfl) le_rfl polls isSent
    · intro reach e member after isMatch
      refine ⟨ahead w pattern start, _, by rw [alone_subscribeBySubject positive], ?_⟩
      exact sent_of_withinReach unique positive (fun e member isMatch after => reach e member after isMatch) le_rfl _
        le_rfl member isMatch after

/-! ## A gate in the way -/

/-- A run waits at a gate called `confirmed`, and a wire of it is confirmed. -/
def gatedWorld : World :=
  (tape.run (quiet (World.empty .sqlite)) (serve 0 (.beginRun 0 "app" "user" "s" "inv-1" {} "A" 60000 1 "r") ++
    serve 1 (.awaitSignal "r" "confirmed" "{}" 10) ++
    serve 2 (.beginEffect 0 { runId := "r", toolName := "wire", customKey := "k" } 20) ++
    serve 3 (.completeEffect "r" "k" EffectStatus.confirmed.code "{}" "" 30))).state

theorem gatedWorld_unique : ∀ a ∈ gatedWorld.journal.rows, ∀ b ∈ gatedWorld.journal.rows,
    a.globalSeq = b.globalSeq → a = b := by
  have nodup : (gatedWorld.journal.rows.map EventEntry.globalSeq).Nodup := by decide +kernel
  exact fun a memberA b memberB same => List.inj_on_of_nodup_map nodup memberA memberB same

/-- The gate's entry passes `LIKE '/tape/%/confirmed/%'` and fills a batch of one: whoever waits for the
    confirmation of the wire is sent nothing, however often it polls. -/
theorem gate_hides_confirmation :
    (∃ e ∈ gatedWorld.journal.rows, 0 < e.globalSeq ∧ «matches» "/tape/*/confirmed/**" e.subject) ∧
      ∀ polls, (tape.alone (subscribeBySubject "/tape/*/confirmed/**" 1 polls 0).run gatedWorld).1 = .ok [] := by
  have empty : batch gatedWorld "/tape/*/confirmed/**" 1 0 = [] := by
    rw [← List.isEmpty_iff]
    decide +kernel
  refine ⟨by decide +kernel, fun polls => ?_⟩
  rw [alone_subscribeBySubject le_rfl]
  induction polls with
  | zero => rfl
  | succ polls inductionHypothesis =>
    rw [sent, empty]
    exact inductionHypothesis

/-- In a batch of 512 the confirmation is there. -/
theorem confirmation_returned : ∃ e ∈ gatedWorld.journal.rows, e.subject = "/tape/effect/confirmed/wire/r" ∧
    ∃ rows, (tape.alone (RunStore.eventsBySubject 0 "/tape/*/confirmed/**" 512).run gatedWorld).1 = .ok rows ∧
      rows.head? = some e := by
  have entries : gatedWorld.journal.rows.map (fun row => (row.globalSeq, row.subject)) =
      [(1, "/tape/run/running/app/user/s/r"), (2, "/tape/gate/waiting/confirmed/r"),
        (3, "/tape/effect/pending/wire/r"), (4, "/tape/effect/confirmed/wire/r")] := by decide +kernel
  obtain ⟨e, member, isLast⟩ : ∃ e ∈ gatedWorld.journal.rows, (e.globalSeq, e.subject) = (4, "/tape/effect/confirmed/wire/r") :=
    List.mem_map.mp (by rw [entries]; simp)
  obtain ⟨number, subject⟩ := Prod.mk.inj isLast
  refine ⟨e, member, subject, ?_⟩
  refine ((subscription_delivers_iff gatedWorld_unique (by omega)).1 0 e member (by omega) ?_ ?_).mpr ⟨?_, ?_⟩
  · rw [subject]
    decide +kernel
  · intro row rowMember _ rowMatch
    have listed : (row.globalSeq, row.subject) ∈ gatedWorld.journal.rows.map fun row => (row.globalSeq, row.subject) :=
      List.mem_map_of_mem rowMember
    rw [entries] at listed
    simp only [List.mem_cons, Prod.mk.injEq, List.not_mem_nil, or_false] at listed
    rcases listed with ⟨-, other⟩ | ⟨-, other⟩ | ⟨-, other⟩ | ⟨same, -⟩
    · exact absurd rowMatch (by rw [other]; decide +kernel)
    · exact absurd rowMatch (by rw [other]; decide +kernel)
    · exact absurd rowMatch (by rw [other]; decide +kernel)
    · omega
  · rw [subject]
    decide +kernel
  · rw [number]
    decide +kernel

end Tape.Journal
