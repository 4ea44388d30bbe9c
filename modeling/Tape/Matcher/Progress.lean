import Tape.Matcher.Cursors

/-! # Progress of the matcher

A pass reads one batch of 512 entries after the smallest cursor over all reactions and
all shards, while the cursor of a shard moves only to entries that hash to it.  Here a
pass runs alone and no statement fails: then it moves a cursor exactly if the batch
has an entry after the cursor of its own shard.  A shard without entries keeps the
smallest cursor where it is, and with it the batch.
-/

namespace Tape.Matcher

open Interleave

/-- The cursors of the reaction's shards. -/
def cursorsOf (w : World) (r : Reaction) : List Int :=
  (List.range (shardCount r)).map fun shard : Nat => cursorOf w r.reactionId shard

/-- The entries a pass reads: the first 512 after the smallest cursor. -/
def window (w : World) : List EventEntry :=
  JournalStmt.tail w (minCursor ((active w).flatMap (cursorsOf w))) batch fun _ => true

/-- The entry is after the cursor of its shard. -/
def Ahead (w : World) (r : Reaction) (e : EventEntry) : Prop :=
  cursorOf w r.reactionId (shardOf r e.runId) < e.globalSeq

instance (w : World) (r : Reaction) (e : EventEntry) : Decidable (Ahead w r e) :=
  inferInstanceAs (Decidable (_ < _))

/-- Some active reaction has not processed some entry. -/
def Pending (w : World) : Prop := ∃ r ∈ active w, ∃ e ∈ w.journal.rows, Ahead w r e

instance (w : World) : Decidable (Pending w) :=
  inferInstanceAs (Decidable (∃ r ∈ active w, ∃ e ∈ w.journal.rows, Ahead w r e))

/-- Some entry the next pass reads is one that some active reaction has not processed. -/
def Ready (w : World) : Prop := ∃ r ∈ active w, ∃ e ∈ window w, Ahead w r e

/-- The database after one pass, alone. -/
def pass (tick : Tick) (w : World) : World := (tape.alone (step tick).run w).2

/-- The cursor of some unprocessed entry is further in `w'` than in `w`. -/
def Advances (w w' : World) : Prop :=
  ∃ r ∈ active w, ∃ e ∈ w.journal.rows, Ahead w r e ∧
    cursorOf w r.reactionId (shardOf r e.runId) < cursorOf w' r.reactionId (shardOf r e.runId)

/-! ## Reading -/

theorem alone_readCursors (w : World) (reactionId : String) (shard : Int) (shards : Nat) :
    tape.alone (readCursors reactionId shard shards).run w =
      (.ok ((List.range shards).map fun i : Nat => cursorOf w reactionId (shard + i)), w) := by
  induction shards generalizing shard with
  | zero => rfl
  | succ shards inductionHypothesis =>
    have first : tape.alone (RunStore.getReactionCursor reactionId shard).run w =
      (.ok (cursorOf w reactionId shard), w) := rfl
    rw [readCursors, alone_seq first, alone_seq (inductionHypothesis (shard + 1)), List.range_succ_eq_map,
      List.map_cons, List.map_map]
    have shifted : (fun i : Nat => cursorOf w reactionId (shard + 1 + i)) =
        (fun i : Nat => cursorOf w reactionId (shard + i)) ∘ Nat.succ := by
      funext i
      have next : shard + 1 + (i : Int) = shard + (i.succ : Nat) := by omega
      exact congrArg (cursorOf w reactionId) next
    rw [shifted]
    simp only [Int.ofNat_zero, Int.add_zero]
    rfl

theorem alone_withCursors (w : World) (reactions : List Reaction) :
    tape.alone (withCursors reactions).run w = (.ok (reactions.map fun r => (r, cursorsOf w r)), w) := by
  induction reactions with
  | nil => rfl
  | cons r reactions inductionHypothesis =>
    rw [withCursors, alone_seq (alone_readCursors w r.reactionId 0 (shardCount r)), alone_seq inductionHypothesis]
    simp only [Int.zero_add]
    rfl

/-! ## Dispatching -/

/-- The cursors and the reactions are the same. -/
structure SameCursors (w w' : World) : Prop where
  cursors : w'.reactionCursors = w.reactionCursors
  reactions : w'.reactions = w.reactions

theorem SameCursors.cursorOf {w w' : World} (same : SameCursors w w') (reactionId : String) (shard : Int) :
    Matcher.cursorOf w' reactionId shard = Matcher.cursorOf w reactionId shard := by
  rw [Matcher.cursorOf, same.cursors, Matcher.cursorOf]

/-- A statement on the cursors or the reactions. -/
def onCursors : Act → Bool
  | .sql (.cursor _) | .sql (.reaction _) => true
  | _ => false

theorem sameCursors_exec {w w' : World} {act : Act} (other : onCursors act = false) (same : SameCursors w w') :
    SameCursors w (act.exec w').2 := by
  cases act with
  | sql s =>
    cases s with
    | cursor => cases other
    | reaction => cases other
    | _ => exact ⟨same.cursors, same.reactions⟩
  | _ => exact ⟨same.cursors, same.reactions⟩

/-- Whether an entry was coalesced is always known. -/
theorem alone_coalesce (r : Reaction) (e : EventEntry) (windowMs : Int) (w : World) :
    ∃ coalesced w', tape.alone (coalesce r e windowMs).run w = (.ok coalesced, w') := by
  unfold coalesce
  split
  · rw [alone_seq (alone_orElse ..)]
    split
    · split
      · rw [alone_seq (alone_orElse ..)]
        exact ⟨_, _, rfl⟩
      · exact ⟨_, _, rfl⟩
    · exact ⟨_, _, rfl⟩
  · exact ⟨_, _, rfl⟩

/-- Whatever becomes of the dispatch, the matcher goes on. -/
theorem alone_dispatch (tick : Tick) (r : Reaction) (e : EventEntry) (w : World) :
    (tape.alone (dispatch tick r e).run w).1 = .ok () := by
  have task : ∀ around, (tape.alone (dispatchTask r e around).run w).1 = .ok () := by
    intro around
    obtain ⟨coalesced, w', ends⟩ := alone_coalesce r e around.windowMs w
    rw [dispatchTask, alone_seq ends]
    cases coalesced with
    | true => rfl
    | false =>
      rw [if_neg Bool.false_ne_true, alone_orElse]
  simp only [dispatch]
  split
  · rw [dispatchAgent, alone_orElse]
  · exact task _
  · exact task _
  · rfl

/-! ## What one pass does to the cursors -/

theorem alone_processEntries (tick : Tick) (r : Reaction) (entries : List EventEntry) (cursors : List Int)
    (w : World) : ∃ w', tape.alone (processEntries tick r entries cursors).run w =
      (.ok (advanced r entries cursors), w') ∧ SameCursors w w' := by
  induction entries generalizing cursors w with
  | nil => exact ⟨w, rfl, rfl, rfl⟩
  | cons e entries inductionHypothesis =>
    unfold processEntries
    simp only
    split
    next past =>
      have stays : advanced r (e :: entries) cursors = advanced r entries cursors := by
        change advanced r entries (advance cursors (shardOf r e.runId) e.globalSeq) = _
        rw [advance, if_neg (by omega)]
      rw [stays]
      exact inductionHypothesis cursors w
    next =>
      split
      · exact inductionHypothesis _ w
      · obtain ⟨w', ends, same⟩ := inductionHypothesis (advance cursors (shardOf r e.runId) e.globalSeq)
          (tape.alone (dispatch tick r e).run w).2
        have dispatched : SameCursors w (tape.alone (dispatch tick r e).run w).2 :=
          System.alone_of_all (S := tape) (fun _ _ => sameCursors_exec)
            (all_dispatch (fun _ => rfl) (fun _ => ⟨fun _ => rfl, fun _ => rfl, fun _ => rfl⟩) e) ⟨rfl, rfl⟩
        refine ⟨w', ?_, same.cursors.trans dispatched.cursors, same.reactions.trans dispatched.reactions⟩
        rw [alone_seq (Prod.ext (alone_dispatch tick r e w) rfl)]
        exact ends

/-- Writing back reaches the cursors of the reaction, from the first shard on. -/
theorem alone_persistCursors (tick : Tick) (reactionId : String) (shard : Int) (pairs : List (Int × Int))
    (w : World) : ∃ w', tape.alone (persistCursors tick reactionId shard pairs).run w = (.ok (), w') ∧
      w'.reactions = w.reactions ∧
      (∀ id s, id ≠ reactionId ∨ s < shard → cursorOf w' id s = cursorOf w id s) ∧
      ∀ (i : Nat) pair, pairs[i]? = some pair → cursorOf w' reactionId (shard + i) =
        if pair.1 < pair.2 then pair.2 else cursorOf w reactionId (shard + i) := by
  induction pairs generalizing shard w with
  | nil => exact ⟨w, rfl, rfl, fun _ _ _ => rfl, fun i pair there => by simp at there⟩
  | cons first rest inductionHypothesis =>
    obtain ⟨old, new⟩ := first
    unfold persistCursors
    have next : ∀ i : Nat, shard + (i + 1 : Nat) = shard + 1 + i := fun i => by omega
    -- a cursor is written only where it moved
    split
    next moves =>
      obtain ⟨w', ends, reactions, others, own⟩ := inductionHypothesis (shard + 1)
        (Stmt.exec (.cursor (.setCursor reactionId shard new (tick.persistMs reactionId shard))) w).2
      refine ⟨w', (alone_seq (alone_orElse ..)).trans ends, reactions, ?_, ?_⟩
      · intro id s elsewhere
        rw [others id s (elsewhere.imp_right fun below => by omega), cursorOf_setCursor, if_neg]
        rintro ⟨rfl, rfl⟩
        rcases elsewhere with differs | below
        · exact differs rfl
        · omega
      · intro i pair there
        cases i with
        | zero =>
          obtain rfl := Option.some.inj there
          rw [others _ _ (.inr (by omega)), cursorOf_setCursor, if_pos moves, if_pos ⟨rfl, by omega⟩]
        | succ i =>
          rw [next, own i pair there, cursorOf_setCursor, if_neg (c := reactionId = reactionId ∧ _)]
          rintro ⟨-, same⟩
          omega
    next stays =>
      obtain ⟨w', ends, reactions, others, own⟩ := inductionHypothesis (shard + 1) w
      refine ⟨w', ends, reactions, ?_, ?_⟩
      · intro id s elsewhere
        exact others id s (elsewhere.imp_right fun below => by omega)
      · intro i pair there
        cases i with
        | zero =>
          obtain rfl := Option.some.inj there
          rw [others _ _ (.inr (by omega)), if_neg stays]
        | succ i => rw [next, own i pair there]

theorem getElem?_cursorsOf {w : World} {r : Reaction} {shard : Nat} (bound : shard < shardCount r) :
    (cursorsOf w r)[shard]? = some (cursorOf w r.reactionId shard) := by
  simp [cursorsOf, bound]

theorem alone_processReaction (tick : Tick) (entries : List EventEntry) (r : Reaction) (w : World) :
    ∃ w', tape.alone (processReaction tick entries r (cursorsOf w r)).run w = (.ok (), w') ∧
      w'.reactions = w.reactions ∧
      (∀ id s, id ≠ r.reactionId → cursorOf w' id s = cursorOf w id s) ∧
      ∀ shard < shardCount r, cursorOf w' r.reactionId shard =
        furthest r shard entries (cursorOf w r.reactionId shard) := by
  obtain ⟨w₁, processed, same⟩ := alone_processEntries tick r entries (cursorsOf w r) w
  obtain ⟨w', persisted, reactions, others, own⟩ := alone_persistCursors tick r.reactionId 0
    ((cursorsOf w r).zip (advanced r entries (cursorsOf w r))) w₁
  refine ⟨w', (alone_seq processed).trans persisted, reactions.trans same.reactions, ?_, ?_⟩
  · intro id s differs
    rw [others id s (.inl differs), same.cursorOf]
  · intro shard bound
    have long : shard < (cursorsOf w r).length := by simpa [cursorsOf] using bound
    have read := getElem?_cursorsOf (w := w) bound
    have reached := getD_advanced (r := r) entries long
    rw [List.getD_eq_getElem?_getD, List.getD_eq_getElem?_getD, read, Option.getD_some] at reached
    have there : (advanced r entries (cursorsOf w r))[shard]? =
        some (furthest r shard entries (cursorOf w r.reactionId shard)) := by
      rw [← reached, List.getElem?_eq_getElem (by simpa using long), Option.getD_some]
    have written := own shard (cursorOf w r.reactionId shard, furthest r shard entries (cursorOf w r.reactionId shard))
      (List.getElem?_zip_eq_some.mpr ⟨read, there⟩)
    simp only [Int.zero_add, same.cursorOf] at written
    have grows := le_furthest r shard entries (cursorOf w r.reactionId shard)
    rw [written]
    split
    · rfl
    · omega

theorem alone_processReactions (tick : Tick) (entries : List EventEntry) (reactions : List Reaction) (w₀ w : World)
    (distinct : (reactions.map Reaction.reactionId).Nodup) (read : ∀ r ∈ reactions, cursorsOf w₀ r = cursorsOf w r) :
    ∃ w', tape.alone (processReactions tick entries (reactions.map fun r => (r, cursorsOf w₀ r))).run w = (.ok (), w') ∧
      w'.reactions = w.reactions ∧
      (∀ id s, id ∉ reactions.map Reaction.reactionId → cursorOf w' id s = cursorOf w id s) ∧
      ∀ r ∈ reactions, ∀ shard < shardCount r, cursorOf w' r.reactionId shard =
        furthest r shard entries (cursorOf w r.reactionId shard) := by
  induction reactions generalizing w with
  | nil => exact ⟨w, rfl, rfl, fun _ _ _ => rfl, fun r member => by cases member⟩
  | cons r reactions inductionHypothesis =>
    rw [List.map_cons, List.nodup_cons] at distinct
    obtain ⟨w₁, processed, kept, others, own⟩ := alone_processReaction tick entries r w
    have apart : ∀ r' ∈ reactions, r'.reactionId ≠ r.reactionId := fun r' member same =>
      distinct.1 (same ▸ List.mem_map_of_mem member)
    obtain ⟨w', ends, kept', others', own'⟩ := inductionHypothesis w₁ distinct.2 (by
      intro r' member
      rw [read r' (List.mem_cons_of_mem _ member)]
      refine List.map_congr_left fun shard _ => ?_
      rw [others _ _ (apart r' member)])
    refine ⟨w', ?_, kept'.trans kept, ?_, ?_⟩
    · rw [List.map_cons, read r List.mem_cons_self, processReactions]
      exact (alone_seq processed).trans ends
    · intro id s absent
      rw [List.map_cons, List.mem_cons, not_or] at absent
      rw [others' id s absent.2, others id s absent.1]
    · intro r' member shard bound
      rcases List.mem_cons.mp member with rfl | member
      · rw [others' _ _ distinct.1, own shard bound]
      · rw [own' r' member shard bound, others _ _ (apart r' member)]

/-- Without an active reaction or an entry in the window a pass does nothing. -/
theorem alone_step (tick : Tick) (w : World) : tape.alone (step tick).run w =
    if (active w).isEmpty || (window w).isEmpty then (.ok (), w)
    else tape.alone (processReactions tick (window w) ((active w).map fun r => (r, cursorsOf w r))).run w := by
  refine (alone_query (s := .reaction (.listReactions "")) (listReactions_eq_active w)).trans ?_
  by_cases idle : (active w).isEmpty
  · rw [if_pos idle, idle, Bool.true_or, if_pos rfl]
    rfl
  · rw [if_neg idle]
    simp only [idle, Bool.false_or]
    refine (alone_seq (alone_withCursors w (active w))).trans ?_
    refine (alone_seq (alone_orElse _ _ w)).trans ?_
    have positions : ((active w).map fun r => (r, cursorsOf w r)).flatMap Prod.snd = (active w).flatMap (cursorsOf w) := by
      rw [List.flatMap_map]
    rw [positions]
    have fetched : tape.alone (RunStore.readJournalAfter (minCursor ((active w).flatMap (cursorsOf w))) batch).run w =
      (.ok (window w), w) := rfl
    refine (alone_seq fetched).trans ?_
    split
    · rfl
    · rfl

/-- **Where a pass takes the cursors.**  It leaves the reactions, and takes the cursor of every shard
    of an active reaction to the furthest entry of the shard in the window. -/
theorem cursorOf_pass (tick : Tick) (w : World) :
    (pass tick w).reactions = w.reactions ∧
      ∀ r ∈ active w, ∀ shard < shardCount r, cursorOf (pass tick w) r.reactionId shard =
        furthest r shard (window w) (cursorOf w r.reactionId shard) := by
  rw [pass, alone_step]
  split
  next idle =>
    refine ⟨rfl, fun r member shard _ => ?_⟩
    rcases Bool.or_eq_true_iff.mp idle with none | none
    · rw [List.isEmpty_iff.mp none] at member
      cases member
    · rw [List.isEmpty_iff.mp none]
      rfl
  next =>
    obtain ⟨w', ends, reactions, -, own⟩ :=
      alone_processReactions tick (window w) (active w) w w (nodup_active w) fun _ _ => rfl
    rw [ends]
    exact ⟨reactions, own⟩

/-! ## Progress of one pass -/

section Pass

variable {tick : Tick} {w : World}

theorem active_pass (tick : Tick) (w : World) : active (pass tick w) = active w := by
  rw [active, (cursorOf_pass tick w).1, active]

/-- A pass moves the cursor of an unprocessed entry exactly if the window has one. -/
theorem advances_pass_iff (tick : Tick) (w : World) : Advances w (pass tick w) ↔ Ready w := by
  constructor
  · rintro ⟨r, isActive, e, -, -, moved⟩
    rw [(cursorOf_pass tick w).2 r isActive _ (shardOf_lt r e.runId), lt_furthest_iff] at moved
    obtain ⟨e', member, own, ahead⟩ := moved
    exact ⟨r, isActive, e', member, by rw [Ahead, own]; exact ahead⟩
  · rintro ⟨r, isActive, e, member, ahead⟩
    refine ⟨r, isActive, e, JournalStmt.mem_of_mem_tail member, ahead, ?_⟩
    rw [(cursorOf_pass tick w).2 r isActive _ (shardOf_lt r e.runId), lt_furthest_iff]
    exact ⟨e, member, rfl, ahead⟩

theorem pending_of_ready (ready : Ready w) : Pending w := by
  obtain ⟨r, isActive, e, member, ahead⟩ := ready
  exact ⟨r, isActive, e, JournalStmt.mem_of_mem_tail member, ahead⟩

variable (tick) in
/-- A pass that reads nothing new leaves every cursor. -/
theorem cursorsOf_pass_of_not_ready (stuck : ¬Ready w) {r : Reaction} (isActive : r ∈ active w) :
    cursorsOf (pass tick w) r = cursorsOf w r := by
  refine List.map_congr_left fun shard member => ?_
  rw [(cursorOf_pass tick w).2 r isActive shard (List.mem_range.mp member)]
  refine le_antisymm (not_lt.mp fun moved => ?_) (le_furthest _ _ _ _)
  obtain ⟨e, member, own, ahead⟩ := lt_furthest_iff.mp moved
  exact stuck ⟨r, isActive, e, member, by rw [Ahead, own]; exact ahead⟩

/-- Ahead before a pass is what is ahead after it. -/
theorem ahead_of_ahead_pass {r : Reaction} (isActive : r ∈ active w) {e : EventEntry}
    (ahead : Ahead (pass tick w) r e) : Ahead w r e := by
  rw [Ahead, (cursorOf_pass tick w).2 r isActive _ (shardOf_lt r e.runId)] at ahead
  exact lt_of_le_of_lt (le_furthest _ _ _ _) ahead

theorem journal_pass (kept : ∀ r ∈ active w, HandlerKind.ofCode r.handlerKind ≠ .agent) :
    (pass tick w).journal = w.journal := by
  rw [pass, alone_step]
  split
  · rfl
  · refine System.alone_of_all (S := tape) (I := fun w' => w'.journal = w.journal)
      (p := fun act => ∀ w, (act.exec w).2.journal = w.journal) (fun act w' keeps same => (keeps w').trans same)
      (all_processReactions (fun _ _ => rfl) _ ?_) rfl
    intro position member e
    obtain ⟨r, isActive, rfl⟩ := List.mem_map.mp member
    exact all_dispatch (fun _ _ => rfl) (fun isAgent => absurd isAgent (kept r isActive)) e

end Pass

/-! ## Passes over a journal that does not grow -/

/-- The database after `n` passes. -/
def passes (ticks : Nat → Tick) (w : World) : Nat → World
  | 0 => w
  | n + 1 => pass (ticks n) (passes ticks w n)

/-- What the reactions have not processed. -/
def backlog (w : World) : List (Reaction × EventEntry) :=
  ((active w).product w.journal.rows).filter fun position =>
    cursorOf w position.1.reactionId (shardOf position.1 position.2.runId) < position.2.globalSeq

theorem mem_backlog {w : World} {r : Reaction} {e : EventEntry} :
    (r, e) ∈ backlog w ↔ r ∈ active w ∧ e ∈ w.journal.rows ∧ Ahead w r e := by
  simp [backlog, Ahead, and_assoc]

section Passes

variable {tick : Tick} {w : World}

/-- Tasks leave the journal as it is; the runs of an `AGENT` reaction are journaled. -/
theorem journal_passes {ticks : Nat → Tick} (kept : ∀ r ∈ active w, HandlerKind.ofCode r.handlerKind ≠ .agent)
    (n : Nat) : (passes ticks w n).journal = w.journal := by
  have reactions : ∀ n, active (passes ticks w n) = active w := by
    intro n
    induction n with
    | zero => rfl
    | succ n inductionHypothesis => exact (active_pass _ _).trans inductionHypothesis
  induction n with
  | zero => rfl
  | succ n inductionHypothesis => exact (journal_pass (reactions n ▸ kept)).trans inductionHypothesis

/-- Nothing is read a second time: a pass that moves a cursor leaves less behind it. -/
theorem backlog_pass (fixed : (pass tick w).journal = w.journal) (ready : Ready w) :
    (backlog (pass tick w)).length < (backlog w).length := by
  have less : backlog (pass tick w) = (backlog w).filter fun position =>
      cursorOf (pass tick w) position.1.reactionId (shardOf position.1 position.2.runId) < position.2.globalSeq := by
    rw [backlog, backlog, active_pass, fixed, List.filter_filter]
    refine List.filter_congr fun position member => ?_
    have isActive := (List.pair_mem_product.mp member).1
    by_cases ahead : Ahead (pass tick w) position.1 position.2
    · have before := ahead_of_ahead_pass isActive ahead
      rw [Ahead] at ahead before
      simp [ahead, before]
    · rw [Ahead] at ahead
      simp [ahead]
  rw [less, List.length_filter_lt_length_iff_exists]
  obtain ⟨r, isActive, e, member, ahead⟩ := ready
  refine ⟨(r, e), mem_backlog.mpr ⟨isActive, JournalStmt.mem_of_mem_tail member, ahead⟩, ?_⟩
  have covers := mem_le_furthest (r := r) member rfl (cursorOf w r.reactionId (shardOf r e.runId))
  rw [← (cursorOf_pass tick w).2 r isActive _ (shardOf_lt r e.runId)] at covers
  simpa using covers

/-- A pass that reads nothing new leaves the next one as little to read. -/
theorem stuck_pass (fixed : (pass tick w).journal = w.journal) (stuck : ¬Ready w) :
    ¬Ready (pass tick w) ∧ (Pending (pass tick w) ↔ Pending w) := by
  have same : ∀ r ∈ active w, ∀ e, Ahead (pass tick w) r e ↔ Ahead w r e := by
    intro r isActive e
    refine ⟨ahead_of_ahead_pass isActive, fun ahead => ?_⟩
    have cursors := cursorsOf_pass_of_not_ready tick stuck isActive
    have cursor := congrArg (fun cursors => cursors[shardOf r e.runId]?) cursors
    simp only [getElem?_cursorsOf (shardOf_lt r e.runId), Option.some.injEq] at cursor
    rw [Ahead, cursor]
    exact ahead
  have position : (active w).flatMap (cursorsOf (pass tick w)) = (active w).flatMap (cursorsOf w) :=
    List.flatMap_congr fun r isActive => cursorsOf_pass_of_not_ready tick stuck isActive
  have sameWindow : window (pass tick w) = window w := by
    rw [window, active_pass, position, JournalStmt.tail, fixed]
    rfl
  constructor
  · rintro ⟨r, isActive, e, member, ahead⟩
    rw [active_pass] at isActive
    rw [sameWindow] at member
    exact stuck ⟨r, isActive, e, member, (same r isActive e).mp ahead⟩
  · simp only [Pending, active_pass, fixed]
    constructor
    · rintro ⟨r, isActive, e, member, ahead⟩
      exact ⟨r, isActive, e, member, (same r isActive e).mp ahead⟩
    · rintro ⟨r, isActive, e, member, ahead⟩
      exact ⟨r, isActive, e, member, (same r isActive e).mpr ahead⟩

variable {ticks : Nat → Tick} (fixed : ∀ n, (passes ticks w n).journal = w.journal)

include fixed

theorem fixed_pass (n : Nat) : (pass (ticks n) (passes ticks w n)).journal = (passes ticks w n).journal :=
  (fixed (n + 1)).trans (fixed n).symm

/-- From a pass that reads nothing new on, all of them do. -/
theorem stuck_passes {n : Nat} (stuck : ¬Ready (passes ticks w n)) (more : Nat) :
    ¬Ready (passes ticks w (n + more)) ∧ (Pending (passes ticks w (n + more)) ↔ Pending (passes ticks w n)) := by
  induction more with
  | zero => exact ⟨stuck, Iff.rfl⟩
  | succ more inductionHypothesis =>
    obtain ⟨still, same⟩ := inductionHypothesis
    obtain ⟨still', same'⟩ := stuck_pass (fixed_pass fixed (n + more)) still
    exact ⟨still', same'.trans same⟩

/-- Passes that each find something new come to an end. -/
theorem exists_not_ready : ∃ n, ¬Ready (passes ticks w n) := by
  by_contra always
  simp only [not_exists, not_not] at always
  have shrinks : ∀ n, (backlog (passes ticks w n)).length + n ≤ (backlog w).length := by
    intro n
    induction n with
    | zero => exact le_refl _
    | succ n inductionHypothesis =>
      have less := backlog_pass (fixed_pass fixed n) (always n)
      simp only [passes]
      omega
  have bound := shrinks ((backlog w).length + 1)
  omega

end Passes

/-- **When the matcher makes progress.**  A pass over a database with unprocessed entries moves the
    cursor of one of them exactly if its window has one: if the first 512 entries after the smallest
    cursor, over all active reactions and all their shards, have an entry after the cursor of its
    own shard.  Passes over a journal that does not grow come to an end of the backlog exactly if
    this is so before each of them. -/
theorem matcher_progress_iff (w : World) (ticks : Nat → Tick) :
    (∀ tick, (Pending w → Advances w (pass tick w)) ↔ (Pending w → Ready w)) ∧
      ((∀ n, (passes ticks w n).journal = w.journal) →
        ((∃ n, ¬Pending (passes ticks w n)) ↔ ∀ n, Pending (passes ticks w n) → Ready (passes ticks w n))) := by
  refine ⟨fun tick => imp_congr_right fun _ => advances_pass_iff tick w, fun fixed => ⟨?_, ?_⟩⟩
  · rintro ⟨done, processed⟩ n pending
    by_contra stuck
    -- a pass that is stuck stays so, with the same entries pending
    rcases le_total n done with earlier | later
    · obtain ⟨more, rfl⟩ := Nat.exists_eq_add_of_le earlier
      exact processed ((stuck_passes fixed stuck more).2.mpr pending)
    · obtain ⟨more, rfl⟩ := Nat.exists_eq_add_of_le later
      exact processed ((stuck_passes fixed (fun ready => processed (pending_of_ready ready)) more).2.mp pending)
  · intro ready
    obtain ⟨n, stuck⟩ := exists_not_ready fixed
    exact ⟨n, fun pending => stuck (ready n pending)⟩

/-! ## One busy run, two shards -/

/-- Queues a task for every effect, over two shards. -/
def audit : Reaction where
  reactionId := "audit"
  name := ""
  subjectPattern := "/tape/effect/**"
  predicateCel := ""
  handlerKind := HandlerKind.task.code
  agentApp := ""
  publishTarget := ""
  maxConcurrency := 1
  rateLimitPerS := 0
  debounceMs := 0
  retryMax := 5
  retryBackoffMs := 1000
  dlqAfterN := 5
  numShards := 2
  createdAtMs := 1

/-- The `n`-th entry of run `"r"`. -/
def effectEntry (n : Nat) : EventEntry where
  runId := "r"
  seq := n + 1
  kind := "effect"
  payload := .obj []
  tsMs := 1000
  globalSeq := n + 1
  subject := "/tape/effect/confirmed/wire/r"
  schemaVersion := 1
  traceId := ""
  spanId := ""
  parentSpanId := ""

/-- `n` entries of run `"r"`, and the reaction newly registered. -/
def busyRun (n : Nat) : World :=
  { World.empty .sqlite with
    reactions := ⟨[audit], List.nodup_singleton _⟩
    journal :=
      { rows := (List.range n).map effectEntry
        nodup := by
          rw [List.map_map]
          refine List.nodup_range.map fun a b same => ?_
          have seqs := congrArg Prod.snd same
          simp only [Function.comp_apply, effectEntry] at seqs
          omega } }

/-- A pass with the entry's number for the id of its task. -/
def numbered : Tick where
  server := 0
  execute _ _ := .ok (some true)
  around _ globalSeq := { newTaskId := toString globalSeq }
  persistMs _ _ := 1000

/-- Three entries are processed by the first pass, so every pass before it was ready. -/
theorem three_entries_processed :
    ¬Pending (passes (fun _ => numbered) (busyRun 3) 1) ∧ Pending (busyRun 3) ∧ Ready (busyRun 3) := by
  have processed : ¬Pending (passes (fun _ => numbered) (busyRun 3) 1) := by decide +kernel
  have pending : Pending (busyRun 3) := by decide +kernel
  have fixed : ∀ n, (passes (fun _ => numbered) (busyRun 3) n).journal = (busyRun 3).journal :=
    journal_passes (by decide)
  exact ⟨processed, pending,
    ((matcher_progress_iff (busyRun 3) fun _ => numbered).2 fixed).mp ⟨1, processed⟩ 0 pending⟩

/-- The shard of run `"r"` is at 512 at most, and the other one at the start. -/
structure Starved (w : World) : Prop where
  reactions : active w = [audit]
  journal : w.journal.rows = (List.range 513).map effectEntry
  own_nonneg : 0 ≤ cursorOf w "audit" (shardOf audit "r")
  own_le : cursorOf w "audit" (shardOf audit "r") ≤ 512
  other : cursorOf w "audit" (1 - shardOf audit "r" : Nat) = 0

namespace Starved

variable {w : World} (starved : Starved w)

include starved

theorem minCursor_eq : minCursor ((active w).flatMap (cursorsOf w)) = 0 := by
  have two : cursorsOf w audit = [cursorOf w "audit" 0, cursorOf w "audit" 1] := rfl
  have isShard : shardOf audit "r" = 0 ∨ shardOf audit "r" = 1 := by
    have bound := shardOf_lt audit "r"
    have shards : shardCount audit = 2 := rfl
    omega
  have cursors : min (min i64Max (cursorOf w "audit" 0)) (cursorOf w "audit" 1) = 0 := by
    have huge : 512 < i64Max := by decide
    obtain ⟨-, -, nonneg, bound, other⟩ := starved
    rcases isShard with shard | shard
    · rw [shard] at nonneg bound other
      have nonneg : 0 ≤ cursorOf w "audit" 0 := nonneg
      have other : cursorOf w "audit" 1 = 0 := other
      omega
    · rw [shard] at nonneg bound other
      have nonneg : 0 ≤ cursorOf w "audit" 1 := nonneg
      have other : cursorOf w "audit" 0 = 0 := other
      omega
  rw [starved.reactions, List.flatMap_singleton, two, minCursor, List.foldl_cons, List.foldl_cons, List.foldl_nil,
    cursors, if_neg (by decide)]

theorem window_eq : window w = (List.range 512).map effectEntry := by
  have all : ((List.range 513).map effectEntry).filter
      (fun row => decide ((0 : Int) < row.globalSeq) && true) = (List.range 513).map effectEntry := by
    refine List.filter_eq_self.mpr fun e member => ?_
    obtain ⟨n, -, rfl⟩ := List.mem_map.mp member
    have positive : (0 : Int) < n + 1 := by omega
    simp [effectEntry, positive]
  have sorted : ((List.range 513).map effectEntry).Pairwise fun a b => a.globalSeq ≤ b.globalSeq := by
    rw [List.pairwise_map]
    refine List.pairwise_lt_range.imp fun {a b} less => ?_
    simp only [effectEntry]
    omega
  rw [window, JournalStmt.tail, starved.minCursor_eq, starved.journal, all, orderBy, sorted.insertionSort_eq,
    limitRows, if_neg (by decide), ← List.map_take, List.take_range]
  congr 2

theorem pending : Pending w := by
  refine ⟨audit, by simp [starved.reactions], effectEntry 512, ?_, ?_⟩
  · rw [starved.journal]
    exact List.mem_map_of_mem (List.mem_range.mpr (by omega))
  · have bound := starved.own_le
    simp only [Ahead, effectEntry]
    exact lt_of_le_of_lt bound (by decide)

/-- However often the matcher runs, it reads the same 512 entries. -/
theorem pass (tick : Tick) : Starved (pass tick w) := by
  obtain ⟨reactions, cursors⟩ := cursorOf_pass tick w
  have isActive : audit ∈ active w := by simp [starved.reactions]
  have own := cursors audit isActive _ (shardOf_lt audit "r")
  have other := cursors audit isActive (1 - shardOf audit "r") (by
    have : shardCount audit = 2 := rfl
    omega)
  refine ⟨(active_pass tick w).trans starved.reactions, ?_, ?_, ?_, ?_⟩
  · rw [journal_pass, starved.journal]
    intro r member
    rw [starved.reactions, List.mem_singleton] at member
    subst member
    decide
  · rw [show "audit" = audit.reactionId from rfl, own]
    exact le_trans starved.own_nonneg (le_furthest _ _ _ _)
  · rw [show "audit" = audit.reactionId from rfl, own]
    rcases furthest_cases audit (shardOf audit "r") (window w)
      (cursorOf w audit.reactionId (shardOf audit "r")) with stays | ⟨e, member, -, ends⟩
    · rw [stays]
      exact starved.own_le
    · rw [starved.window_eq] at member
      obtain ⟨n, bound, rfl⟩ := List.mem_map.mp member
      rw [ends]
      simp only [List.mem_range] at bound
      simp only [effectEntry]
      omega
  · rw [show "audit" = audit.reactionId from rfl, other]
    rcases furthest_cases audit (1 - shardOf audit "r") (window w)
      (cursorOf w audit.reactionId (1 - shardOf audit "r" : Nat)) with stays | ⟨e, member, isOther, -⟩
    · rw [stays]
      exact starved.other
    · rw [starved.window_eq] at member
      obtain ⟨n, -, rfl⟩ := List.mem_map.mp member
      have bound := shardOf_lt audit "r"
      have shards : shardCount audit = 2 := rfl
      have own : shardOf audit (effectEntry n).runId = shardOf audit "r" := rfl
      omega

/-- After one pass the window has nothing new. -/
theorem not_ready_pass (tick : Tick) : ¬Ready (Matcher.pass tick w) := by
  rintro ⟨r, isActive, e, member, ahead⟩
  rw [(starved.pass tick).reactions, List.mem_singleton] at isActive
  subst isActive
  -- the pass before read the same entries
  rw [(starved.pass tick).window_eq, ← starved.window_eq] at member
  have covered := mem_le_furthest (r := audit) member rfl (cursorOf w audit.reactionId (shardOf audit e.runId))
  rw [← (cursorOf_pass tick w).2 audit (by simp [starved.reactions]) _ (shardOf_lt audit e.runId)] at covered
  exact absurd ahead (not_lt.mpr covered)

end Starved

theorem starved_busyRun : Starved (busyRun 513) := by
  have cursor : ∀ n shard, cursorOf (busyRun n) "audit" shard = 0 := fun _ _ => rfl
  have reactions : ∀ n, active (busyRun n) = [audit] := fun _ => rfl
  have journal : ∀ n, (busyRun n).journal.rows = (List.range n).map effectEntry := fun _ => rfl
  exact ⟨reactions 513, journal 513, by rw [cursor], by rw [cursor]; omega, cursor 513 _⟩

theorem starved_passes (ticks : Nat → Tick) (n : Nat) : Starved (passes ticks (busyRun 513) n) := by
  induction n with
  | zero => exact starved_busyRun
  | succ n inductionHypothesis => exact inductionHypothesis.pass _

/-- With 513 entries of one run the last one is never processed: the shard without entries holds the
    window back, and already the second pass moves no cursor. -/
theorem last_entry_never_processed :
    (¬∃ (ticks : Nat → Tick) (n : Nat), ¬Pending (passes ticks (busyRun 513) n)) ∧
      ¬∃ tick, Pending (pass tick (busyRun 513)) →
        Advances (pass tick (busyRun 513)) (pass tick (pass tick (busyRun 513))) := by
  constructor
  · rintro ⟨ticks, n, processed⟩
    exact processed (starved_passes ticks n).pending
  · rintro ⟨tick, progress⟩
    have advances := progress (starved_busyRun.pass tick).pending
    exact starved_busyRun.not_ready_pass tick ((advances_pass_iff tick _).mp advances)

end Tape.Matcher
