import Tape.Rules

/-! # The cursors of the matcher

The cursor table as a function, and what a batch of entries does to the cursors of one
reaction.  Where the cursors end up depends on the entries alone: an entry moves the
cursor of its shard whether it was selected or not, and whether its dispatch succeeded
or not.
-/

namespace Tape.Matcher

open Interleave

/-- The cursor of a shard; zero while there is none. -/
def cursorOf (w : World) (reactionId : String) (shard : Int) : Int :=
  ((w.reactionCursors.find? (reactionId, shard)).map ReactionCursor.lastGlobalSeq).getD 0

/-- The reactions a pass goes through. -/
def active (w : World) : List Reaction :=
  orderBy Reaction.createdAtMs (w.reactions.rows.filter fun row => !row.deleted)

/-- Where a batch takes the cursors of a reaction. -/
def advanced (r : Reaction) (entries : List EventEntry) (cursors : List Int) : List Int :=
  entries.foldl (fun cursors e => advance cursors (shardOf r e.runId) e.globalSeq) cursors

theorem listReactions_eq_active (w : World) :
    ((ReactionStmt.listReactions "").exec w).1 = .ok (active w) := by
  have all : ("" : String).isEmpty = true := rfl
  simp only [ReactionStmt.exec, all, Bool.true_or, Bool.and_true]
  rfl

/-- No two active reactions share their id. -/
theorem nodup_active (w : World) : ((active w).map Reaction.reactionId).Nodup := by
  have sorted : (active w).Perm (w.reactions.rows.filter fun row => !row.deleted) := List.perm_insertionSort _ _
  rw [(sorted.map _).nodup_iff]
  exact w.reactions.nodup.sublist (List.filter_sublist.map _)

theorem cursorOf_setCursor (w : World) (reactionId id : String) (shard s globalSeq nowMs : Int) :
    cursorOf (Stmt.exec (.cursor (.setCursor reactionId shard globalSeq nowMs)) w).2 id s =
      if reactionId = id ∧ shard = s then globalSeq else cursorOf w id s := by
  simp only [cursorOf, Stmt.exec, CursorStmt.exec, Sql.Table.find?_upsert]
  by_cases same : reactionId = id ∧ shard = s
  · rw [if_pos same, if_pos (Prod.ext same.1 same.2)]
    cases w.reactionCursors.find? (id, s) <;> rfl
  · rw [if_neg same, if_neg fun equal => same (Prod.mk.inj equal)]

/-! ## A batch -/

section Advance

variable {r : Reaction} {cursors : List Int} {shard : Nat}

@[simp] theorem length_advance (cursors : List Int) (shard : Nat) (globalSeq : Int) :
    (advance cursors shard globalSeq).length = cursors.length := by
  unfold advance
  split <;> simp

@[simp] theorem length_advanced (r : Reaction) (entries : List EventEntry) (cursors : List Int) :
    (advanced r entries cursors).length = cursors.length := by
  induction entries generalizing cursors with
  | nil => rfl
  | cons e entries inductionHypothesis => exact (inductionHypothesis _).trans (length_advance ..)

theorem getD_advance (bound : shard < cursors.length) (moved : Nat) (globalSeq : Int) :
    (advance cursors moved globalSeq).getD shard 0 =
      if moved = shard then max (cursors.getD shard 0) globalSeq else cursors.getD shard 0 := by
  unfold advance
  by_cases same : moved = shard
  · subst same
    rw [if_pos rfl]
    split
    next smaller =>
      have set : (cursors.set moved globalSeq).getD moved 0 = globalSeq := by
        simp [List.getD_eq_getElem?_getD, List.getElem?_set_self bound]
      omega
    next => omega
  · rw [if_neg same]
    split
    next => simp [List.getD_eq_getElem?_getD, List.getElem?_set_ne same]
    next => rfl

/-- Where a batch takes the cursor of one shard: to the largest of its entries there. -/
def furthest (r : Reaction) (shard : Nat) : List EventEntry → Int → Int
  | [], cursor => cursor
  | e :: rest, cursor =>
    furthest r shard rest (if shardOf r e.runId = shard then max cursor e.globalSeq else cursor)

theorem getD_advanced (entries : List EventEntry) (bound : shard < cursors.length) :
    (advanced r entries cursors).getD shard 0 = furthest r shard entries (cursors.getD shard 0) := by
  induction entries generalizing cursors with
  | nil => rfl
  | cons e entries inductionHypothesis =>
    have moved : shard < (advance cursors (shardOf r e.runId) e.globalSeq).length := by simpa using bound
    have rest := inductionHypothesis moved
    rw [getD_advance bound] at rest
    exact rest

variable (r shard) in
theorem le_furthest (entries : List EventEntry) (cursor : Int) : cursor ≤ furthest r shard entries cursor := by
  induction entries generalizing cursor with
  | nil => exact le_refl _
  | cons e entries inductionHypothesis =>
    refine le_trans ?_ (inductionHypothesis _)
    split <;> omega

/-- No entry of the shard is after where the batch takes the cursor. -/
theorem mem_le_furthest {entries : List EventEntry} {e : EventEntry} (member : e ∈ entries)
    (own : shardOf r e.runId = shard) (cursor : Int) : e.globalSeq ≤ furthest r shard entries cursor := by
  induction entries generalizing cursor with
  | nil => cases member
  | cons first entries inductionHypothesis =>
    rcases List.mem_cons.mp member with rfl | member
    · refine le_trans ?_ (le_furthest r shard entries _)
      rw [if_pos own]
      omega
    · exact inductionHypothesis member _

variable (r shard) in
/-- A cursor that moved stands at an entry of its shard. -/
theorem furthest_cases (entries : List EventEntry) (cursor : Int) :
    furthest r shard entries cursor = cursor ∨
      ∃ e ∈ entries, shardOf r e.runId = shard ∧ furthest r shard entries cursor = e.globalSeq := by
  induction entries generalizing cursor with
  | nil => exact .inl rfl
  | cons first entries inductionHypothesis =>
    rcases inductionHypothesis (if shardOf r first.runId = shard then max cursor first.globalSeq else cursor) with
      stays | ⟨e, member, own, ends⟩
    · by_cases own : shardOf r first.runId = shard
      · rw [if_pos own] at stays
        by_cases smaller : cursor < first.globalSeq
        · refine .inr ⟨first, List.mem_cons_self, own, ?_⟩
          rw [max_eq_right smaller.le] at stays
          simpa [furthest, own, max_eq_right smaller.le] using stays
        · refine .inl ?_
          rw [max_eq_left (not_lt.mp smaller)] at stays
          simpa [furthest, own, max_eq_left (not_lt.mp smaller)] using stays
      · rw [if_neg own] at stays
        exact .inl (by simpa [furthest, own] using stays)
    · exact .inr ⟨e, List.mem_cons_of_mem _ member, own, ends⟩

/-- A batch moves the cursor exactly if it has an entry of the shard after it. -/
theorem lt_furthest_iff {entries : List EventEntry} {cursor : Int} :
    cursor < furthest r shard entries cursor ↔ ∃ e ∈ entries, shardOf r e.runId = shard ∧ cursor < e.globalSeq := by
  constructor
  · intro moved
    rcases furthest_cases r shard entries cursor with stays | ⟨e, member, own, ends⟩
    · omega
    · exact ⟨e, member, own, by omega⟩
  · rintro ⟨e, member, own, ahead⟩
    have covers := mem_le_furthest member own cursor
    omega

end Advance

/-! ## What the matcher executes -/

section Footprints

variable {p : Act → Prop} {tick : Tick}

theorem all_dispatchTask (task : ∀ s, p (.task s)) (r : Reaction) (e : EventEntry) (around : Surroundings) :
    (dispatchTask r e around).run.All p := by
  have coalesces : (coalesce r e around.windowMs).run.All p := by
    refine all_ite (.exceptBind (all_orElse (all_query (task _))) fun found => ?_) trivial
    cases found with
    | none => exact trivial
    | some prev =>
      refine all_ite (.exceptBind (all_orElse (.exceptBind (all_query (task _)) fun updated => ?_)) fun _ => trivial)
        trivial
      exact all_ite trivial (all_query (task _))
  refine .exceptBind coalesces fun coalesced => ?_
  refine all_ite trivial (all_orElse (.exceptBind (.exceptBind (all_query (task _)) fun _ => ?_) fun _ => trivial))
  refine .exceptBind (all_query (task _)) fun found => ?_
  cases found <;> exact trivial

theorem all_dispatchAgent (run : ∀ s, p (.run s)) (journal : ∀ s, p (.journal s)) (cache : ∀ c, p (.cache c))
    (server : Nat) (r : Reaction) (e : EventEntry) (around : Surroundings) :
    (dispatchAgent server r e around).run.All p := by
  have housekeeping : ∀ act, Housekeeping act → p act := by
    intro act isHousekeeping
    cases isHousekeeping with
    | bumpSeq | readSeq => exact run _
    | nextGlobalSeq | insertEntry => exact journal _
  refine all_orElse (.exceptBind ?_ fun _ => trivial)
  exact all_beginRun housekeeping (run _) (fun _ _ => run _) (fun _ => run _) (fun _ _ => run _) cache

/-- The dispatch of an entry executes statements on tasks and, for an `AGENT` reaction, what
    `begin_run` executes. -/
theorem all_dispatch {r : Reaction} (task : ∀ s, p (.task s))
    (agent : HandlerKind.ofCode r.handlerKind = .agent →
      (∀ s, p (.run s)) ∧ (∀ s, p (.journal s)) ∧ ∀ c, p (.cache c)) (e : EventEntry) :
    (dispatch tick r e).run.All p := by
  simp only [dispatch]
  split
  next isAgent =>
    obtain ⟨run, journal, cache⟩ := agent isAgent
    exact all_dispatchAgent run journal cache _ _ _ _
  · exact all_dispatchTask task _ _ _
  · exact all_dispatchTask task _ _ _
  · exact trivial

theorem all_processEntries {r : Reaction} (dispatch : ∀ e, (dispatch tick r e).run.All p)
    (entries : List EventEntry) (cursors : List Int) : (processEntries tick r entries cursors).run.All p := by
  induction entries generalizing cursors with
  | nil => exact trivial
  | cons e entries inductionHypothesis =>
    unfold processEntries
    refine all_ite (inductionHypothesis _) (all_ite (inductionHypothesis _) ?_)
    exact .exceptBind (dispatch e) fun _ => inductionHypothesis _

theorem all_persistCursors (cursor : ∀ s, p (.cursor s)) (reactionId : String) (shard : Int)
    (pairs : List (Int × Int)) : (persistCursors tick reactionId shard pairs).run.All p := by
  induction pairs generalizing shard with
  | nil => exact trivial
  | cons pair pairs inductionHypothesis =>
    unfold persistCursors
    refine all_ite (.exceptBind ?_ fun _ => inductionHypothesis _) (inductionHypothesis _)
    exact all_orElse (.exceptBind (all_query (cursor _)) fun _ => trivial)

theorem all_processReactions (cursor : ∀ s, p (.cursor s)) (entries : List EventEntry)
    {positions : List (Reaction × List Int)}
    (dispatch : ∀ position ∈ positions, ∀ e, (dispatch tick position.1 e).run.All p) :
    (processReactions tick entries positions).run.All p := by
  induction positions with
  | nil => exact trivial
  | cons position positions inductionHypothesis =>
    refine .exceptBind (.exceptBind ?_ fun _ => all_persistCursors cursor _ _ _) fun _ => ?_
    · exact all_processEntries (dispatch position List.mem_cons_self) _ _
    · exact inductionHypothesis fun position member => dispatch position (List.mem_cons_of_mem _ member)

end Footprints

end Tape.Matcher
