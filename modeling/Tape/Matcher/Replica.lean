import Tape.Matcher.Covered

/-! # One matcher among others

The program of a pass, statement by statement, between any statements of anybody else:
every write it makes is proper, so the cursors go on covering their shards.

A matcher knows its own batch, which stays complete, and the cursors it holds, which go
on covering their shards while it works; before it moves the cursor of a shard over an
entry, every earlier matching entry of the shard in the batch has been attempted.
-/

namespace Tape.Matcher

open Interleave

def isMatcher : Call → Bool
  | .matcherStep _ => true
  | _ => false

/-- The statement registers or deletes a reaction, or writes what matchers write: tasks and cursors. -/
def changesMatching : Act → Bool
  | .sql (.task (.insertTask _)) | .sql (.task (.coalesceTask ..)) | .sql (.cursor (.setCursor ..))
  | .sql (.cursor (.seedCursor ..)) | .sql (.reaction (.upsertReaction _)) | .sql (.reaction (.softDelete _)) => true
  | _ => false

section Contract

variable (execute : Cel.Engine) (w₀ : World)

/-- The reactions are fixed, only matchers write tasks and cursors as matchers do, and entries are inserted above what
    was read. -/
def permitted (_ : Nat) (call : Call) (h : TapeHist) (act : Act) : Bool :=
  (isMatcher call || !changesMatching act) && insertsAboveReads execute w₀ h act

/-- A matcher evaluates predicates with the engine `execute`. -/
def Evaluates : Call → Prop
  | .matcherStep tick => tick.execute = execute
  | _ => True

theorem Evolves.refl (h : TapeHist) : Evolves execute w₀ h h :=
  ⟨List.Subset.refl _, id, fun _ _ _ _ covered => covered⟩

variable {execute w₀} in
theorem Evolves.trans {h₁ h₂ h₃ : TapeHist} (first : Evolves execute w₀ h₁ h₂) (second : Evolves execute w₀ h₂ h₃) :
    Evolves execute w₀ h₁ h₃ where
  log := List.Subset.trans first.log second.log
  consistent := second.consistent ∘ first.consistent
  covered r isActive shard cursor := second.covered r isActive shard cursor ∘ first.covered r isActive shard cursor

/-- The contract of a thread in a run whose steps all meet `ok` besides. -/
def replica (ok : Nat → Call → TapeHist → Act → Prop) (tid : Nat) (call : Call) : Contract World Act Act.Res where
  rely := Evolves execute w₀
  allowed h act := permitted execute w₀ tid call h act ∧ ok tid call h act
  guar h h' := ∃ act res state, h' = h.push tid act res state ∧ tape.Answers act h.state res state ∧
    insertsAboveReads execute w₀ h act ∧ Proper execute w₀ h act ∧ ok tid call h act
  rely_refl := Evolves.refl execute w₀
  rely_trans := Evolves.trans

end Contract

section Safety

variable {execute : Cel.Engine} {w₀ : World} {ok : Nat → Call → TapeHist → Act → Prop} {tid : Nat} {call : Call}
  {tick : Tick} {h : TapeHist} {α β : Type}

theorem above_of_permitted {act : Act} (allowed : permitted execute w₀ tid call h act) :
    insertsAboveReads execute w₀ h act := by
  simp only [permitted, Bool.and_eq_true] at allowed
  exact allowed.2

theorem evolves_of_guar {h h' : TapeHist} (guar : (replica execute w₀ ok tid call).guar h h') : Evolves execute w₀ h h' := by
  obtain ⟨act, res, state, rfl, answers, above, proper, -⟩ := guar
  exact evolves_push answers above proper

/-- A proper statement, executed in `h₁`, and any history `h'` after it. -/
theorem safe_execute {s : Stmt} {post : Except StoreError s.Res → TapeHist → Prop}
    (proper : ∀ h', Evolves execute w₀ h h' → Proper execute w₀ h' (.sql s))
    (ends : ∀ h₁ res state h', Evolves execute w₀ h h₁ → tape.Answers (.sql s) h₁.state res state →
      Evolves execute w₀ (h₁.push tid (.sql s) res state) h' → Evolves execute w₀ h h' → post res h') :
    tape.Safe (replica execute w₀ ok tid call) tid post s.query.run h := by
  intro h₁ before allowed res state answers
  have above := above_of_permitted allowed.1
  refine ⟨⟨_, res, state, rfl, answers, above, proper h₁ before, allowed.2⟩, fun h' after => ?_⟩
  exact ends h₁ res state h' before answers after
    ((before.trans (evolves_push answers above (proper h₁ before))).trans after)

/-- The same, followed by the rest of the program. -/
theorem safe_then {s : Stmt} {post : Except StoreError β → TapeHist → Prop} {f : s.Res → StoreM β}
    (failed : ∀ e h, post (.error e) h)
    (proper : ∀ h', Evolves execute w₀ h h' → Proper execute w₀ h' (.sql s))
    (rest : ∀ h₁ value state h', Evolves execute w₀ h h₁ → tape.Answers (.sql s) h₁.state (.ok value) state →
      Evolves execute w₀ (h₁.push tid (.sql s) (.ok value) state) h' → Evolves execute w₀ h h' →
      tape.Safe (replica execute w₀ ok tid call) tid post (f value).run h') :
    tape.Safe (replica execute w₀ ok tid call) tid post (s.query >>= f).run h := by
  refine System.Safe.exceptBind failed (safe_execute proper fun h₁ res state h' before answers after since value isOk => ?_)
  subst isOk
  exact rest h₁ value state h' before answers after since

/-- The same for a failure that is swallowed. -/
theorem safe_attempt {s : Stmt} {default : s.Res} {post : Except StoreError β → TapeHist → Prop} {f : s.Res → StoreM β}
    (proper : ∀ h', Evolves execute w₀ h h' → Proper execute w₀ h' (.sql s))
    (rest : ∀ res h', ⟨tid, .sql s, res⟩ ∈ h'.log → Evolves execute w₀ h h' →
      tape.Safe (replica execute w₀ ok tid call) tid post (f (res.toOption.getD default)).run h') :
    tape.Safe (replica execute w₀ ok tid call) tid post (orElse s.query default >>= f).run h := by
  refine safe_orElse (safe_execute proper fun h₁ res state h' _ _ after since h'' later => ?_)
  exact rest res h'' (later.log (after.log List.mem_cons_self)) (since.trans later)

theorem proper_of_not_write {act : Act} (other : changesMatching act = false) : Proper execute w₀ h act := by
  unfold Proper
  split
  case h_1 | h_2 | h_3 | h_4 | h_5 | h_6 => cases other
  case h_7 => trivial

/-- A program that writes nothing a matcher writes is safe, and forgets nothing. -/
theorem safe_of_not_write {Q : TapeHist → Prop} (lasting : ∀ {h h'}, Evolves execute w₀ h h' → Q h → Q h')
    {program : Prog Act Act.Res α} (all : program.All fun act => changesMatching act = false) (knows : Q h) :
    tape.Safe (replica execute w₀ ok tid call) tid (fun _ h => Q h) program h := by
  refine System.Safe.of_all_knowing Q lasting ?_ (fun _ _ known => known) all knows
  intro h act res state other allowed known answers
  have above := above_of_permitted allowed.1
  have proper : Proper execute w₀ h act := proper_of_not_write other
  exact ⟨⟨act, res, state, rfl, answers, above, proper, allowed.2⟩, lasting (evolves_push answers above proper) known⟩

/-! ## One entry -/

/-- The thread holds the batch `entries`, read from `start` on. -/
structure Holds (execute : Cel.Engine) (w₀ : World) (start : Int) (entries : List EventEntry) (h : TapeHist) : Prop where
  consistent : Consistent execute w₀ h
  read : ∃ tid limit, ⟨tid, .journal (.readAfter start limit), .ok entries⟩ ∈ h.log

theorem Holds.evolves {start : Int} {entries : List EventEntry} {h h' : TapeHist}
    (holds : Holds execute w₀ start entries h) (evolves : Evolves execute w₀ h h') :
    Holds execute w₀ start entries h' where
  consistent := evolves.consistent holds.consistent
  read := by
    obtain ⟨tid, limit, member⟩ := holds.read
    exact ⟨tid, limit, evolves.log member⟩

theorem Holds.complete {start : Int} {entries : List EventEntry} (holds : Holds execute w₀ start entries h) :
    Complete execute w₀ h start entries := by
  obtain ⟨tid, limit, member⟩ := holds.read
  exact holds.consistent.reads tid start limit entries member

section Dispatch

variable {start : Int} {entries : List EventEntry} {r : Reaction} {e : EventEntry}
  (isActive : r ∈ active w₀) (member : e ∈ entries) (selected : selects execute r e)

include isActive member selected

/-- What counts as coalesced was coalesced. -/
theorem safe_coalesce (isQueued : isQueued r) (windowMs : Int) (holds : Holds execute w₀ start entries h) :
    tape.Safe (replica execute w₀ ok tid call) tid (fun result h => result = .ok true → Worked h.log r e)
      (coalesce r e windowMs).run h := by
  unfold coalesce
  split
  next debounced =>
    refine safe_attempt (s := .task (.findPending r.reactionId e.subject)) (fun _ _ => trivial) fun res h₁ found since₁ => ?_
    match res with
    | .error _ => exact fun _ _ returned => by cases returned
    | .ok none => exact fun _ _ returned => by cases returned
    | .ok (some prev) =>
      change tape.Safe _ _ _ (ExceptT.run (if insideWindow prev r.debounceMs windowMs then _ else _)) _
      split
      · refine safe_orElse (safe_then ?_ (fun h₂ since₂ => ?_) ?_)
        · intro _ _ h' _ _ _ returned
          cases returned
        · have listed := ((holds.evolves since₁).evolves since₂).complete.listed e member
          exact ⟨r, isActive, e, listed, isQueued, selected, debounced, rfl, rfl, tid, prev, since₂.log found, rfl⟩
        · intro h₂ (updated : Nat) state h₃ _ _ after since₃
          refine safe_ite (fun _ => ?_) fun changed => ?_
          · intro h' _ h'' _ _ _ returned
            cases returned
          · refine safe_execute (fun _ _ => trivial) fun _ _ _ h₄ _ _ _ since₄ h₅ later h₆ last _ => ?_
            have since := since₄.trans (later.trans last)
            exact .coalesced isQueued debounced (since.log (since₃.log found))
              (since.log (after.log List.mem_cons_self)) (Nat.pos_of_ne_zero changed)
      · exact fun _ _ returned => by cases returned
  next => exact fun _ _ returned => by cases returned

/-- `create_task` is an attempt, whatever it returns. -/
theorem safe_createTask (isQueued : isQueued r) (createdMs ts : Int) (newId : String)
    (holds : Holds execute w₀ start entries h) :
    tape.Safe (replica execute w₀ ok tid call) tid (fun _ h => Attempted h.log r e)
      (RunStore.createTask (taskFor r e createdMs) ts newId).run h := by
  let insert : Act := .task (.insertTask (RunStore.freshTask (taskFor r e createdMs) ts newId))
  have attempted : ∀ (res : insert.Res) (h : TapeHist), ⟨tid, insert, res⟩ ∈ h.log → Attempted h.log r e := by
    intro res h executed
    match res with
    | .ok n => exact .inl (.created isQueued rfl executed)
    | .error _ => exact .inr (.inl ⟨_, executed, rfl, attempts_insertTask.mpr ⟨isQueued, rfl⟩⟩)
  refine System.Safe.bind ((safe_execute ?_ fun h₁ res state h₂ before answers after since => ?_))
  · intro h' since
    exact ⟨r, isActive, e, (holds.evolves since).complete.listed e member, isQueued, selected, rfl, rfl, rfl⟩
  · have executed := attempted res h₂ (after.log List.mem_cons_self)
    match res with
    | .error _ => exact fun h' later => executed.mono later.log
    | .ok n =>
      refine System.Safe.bind (safe_execute (fun _ _ => trivial) fun h₃ res state h₄ _ _ _ since₄ => ?_)
      match res with
      | .error _ => exact fun h' later => executed.mono (since₄.trans later).log
      | .ok none => exact fun h' later => executed.mono (since₄.trans later).log
      | .ok (some _) => exact fun h' later => executed.mono (since₄.trans later).log

theorem safe_dispatchTask (isQueued : isQueued r) (around : Surroundings) (holds : Holds execute w₀ start entries h) :
    tape.Safe (replica execute w₀ ok tid call) tid (fun result h => result = .ok () → Attempted h.log r e)
      (dispatchTask r e around).run h := by
  refine System.Safe.exceptBind (fun _ _ returned => by cases returned) ?_
  refine (System.Safe.tracking evolves_of_guar (Evolves.refl execute w₀ h)
    (safe_coalesce isActive member selected isQueued around.windowMs holds)).mono ?_
  rintro result h₁ ⟨since, coalesced⟩ value rfl
  cases value with
  | true => exact fun h₂ later _ => .inl ((coalesced rfl).mono later.log)
  | false =>
    refine (safe_ignore (fun _ _ later attempted => attempted.mono later.log) ?_).mono fun _ _ attempted _ => attempted
    exact safe_createTask isActive member selected isQueued _ _ _ (holds.evolves since)

omit isActive member selected in
/-- `begin_run` is an attempt, whatever it returns. -/
theorem safe_dispatchAgent (isAgent : isAgent r) (server : Nat) (around : Surroundings) :
    tape.Safe (replica execute w₀ ok tid call) tid (fun _ h => Attempted h.log r e)
      (dispatchAgent server r e around).run h := by
  refine safe_ignore (fun _ _ later attempted => attempted.mono later.log) ?_
  have lasting : ∀ {h h' : TapeHist}, Evolves execute w₀ h h' → Attempted h.log r e → Attempted h'.log r e :=
    fun later attempted => attempted.mono later.log
  have housekeeping : ∀ act, Housekeeping act → changesMatching act = false := by
    intro act isHousekeeping
    cases isHousekeeping <;> rfl
  refine System.Safe.bind (safe_execute (fun _ _ => trivial) fun h₁ res state h₂ _ _ after _ => ?_)
  have executed : ⟨tid, .run (.findInvocation r.agentApp "" "" (invocation r e)), res⟩ ∈ h₂.log :=
    after.log List.mem_cons_self
  match res with
  | .error _ =>
    exact fun h' later => .inr (.inl ⟨_, later.log executed, rfl, attempts_findInvocation.mpr isAgent⟩)
  | .ok (some known) =>
    refine safe_of_not_write lasting ?_ (.inl (.found isAgent executed))
    refine .exceptBind (all_query rfl) fun _ => .exceptBind (all_query rfl) fun current => ?_
    cases current <;> exact trivial
  | .ok none =>
    refine System.Safe.bind (safe_execute (fun _ _ => trivial) fun h₃ res state h₄ _ _ after₄ _ => ?_)
    have inserted := after₄.log (List.mem_cons_self ..)
    have invoked : ∀ row : RunRow, row.appName = r.agentApp → row.userId = "" → row.sessionId = "" →
        row.invocationId = invocation r e → invokedBy r e row := by
      intro row app user session inv
      simp [invokedBy, app, user, session, inv]
    match res with
    | .error _ =>
      refine fun h' later => .inr (.inl ⟨_, later.log inserted, rfl, attempts_insertRun.mpr ⟨isAgent, ?_⟩⟩)
      exact invoked _ rfl rfl rfl rfl
    | .ok () =>
      refine safe_of_not_write lasting ?_ (.inl (.begun isAgent (invoked _ rfl rfl rfl rfl) inserted))
      refine .exceptBind (all_access rfl) fun _ => .exceptBind (all_orElse (all_nextSeq housekeeping _)) fun seq => ?_
      exact .exceptBind (all_orElse (all_journal housekeeping _ _ _ _ _ (by constructor))) fun _ => trivial

/-- Once an entry was dispatched it has been attempted. -/
theorem safe_dispatch (holds : Holds execute w₀ start entries h) :
    tape.Safe (replica execute w₀ ok tid call) tid (fun result h => result = .ok () → Attempted h.log r e)
      (dispatch tick r e).run h := by
  simp only [dispatch]
  split
  next kind => exact (safe_dispatchAgent (by simp [isAgent, kind]) _ _).mono fun _ _ attempted _ => attempted
  next kind => exact safe_dispatchTask isActive member selected (by simp [isQueued, kind]) _ holds
  next kind => exact safe_dispatchTask isActive member selected (by simp [isQueued, kind]) _ holds
  next kind => exact fun _ _ _ => .inr (.inr kind)

end Dispatch

/-! ## One reaction -/

/-- The cursors a matcher holds for a reaction, after the entries `done` of its batch. -/
structure Position (execute : Cel.Engine) (r : Reaction) (start : Int) (done : List EventEntry) (cursors : List Int)
    (h : TapeHist) : Prop where
  length : cursors.length = shardCount r
  after : ∀ shard < shardCount r, start ≤ cursors.getD shard 0
  covered : ∀ shard < shardCount r, Covered execute h r shard (cursors.getD shard 0)
  passed : ∀ e ∈ done, e.globalSeq ≤ cursors.getD (shardOf r e.runId) 0

section Reaction

variable {start : Int} {entries done rest : List EventEntry} {r : Reaction} {e : EventEntry} {cursors : List Int}
  (isActive : r ∈ active w₀)

include isActive

theorem Position.evolves {h h' : TapeHist} (position : Position execute r start done cursors h)
    (evolves : Evolves execute w₀ h h') : Position execute r start done cursors h' :=
  ⟨position.length, position.after, fun shard bound => evolves.covered r isActive _ _ (position.covered shard bound),
    position.passed⟩

omit isActive in
theorem Position.skip (position : Position execute r start done cursors h)
    (past : e.globalSeq ≤ cursors.getD (shardOf r e.runId) 0) : Position execute r start (done ++ [e]) cursors h where
  length := position.length
  after := position.after
  covered := position.covered
  passed e' member := by
    rcases List.mem_append.mp member with earlier | isLast
    · exact position.passed e' earlier
    · rw [List.mem_singleton.mp isLast]
      exact past

/-- The cursor of a shard can be moved over an entry that was attempted, if the reaction selects it:
    every earlier matching entry of the shard is in the batch, before it. -/
theorem covered_of_position (holds : Holds execute w₀ start (done ++ e :: rest) h)
    (position : Position execute r start done cursors h) (attempted : selects execute r e → Attempted h.log r e) :
    Covered execute h r (shardOf r e.runId) e.globalSeq where
  reached := by
    obtain ⟨tid, limit, read⟩ := holds.read
    exact .inr ⟨_, read, e, List.mem_append_right done List.mem_cons_self, rfl, le_refl _⟩
  attempted e' listed selected own below := by
    have bound := shardOf_lt r e.runId
    by_cases past : e'.globalSeq ≤ cursors.getD (shardOf r e.runId) 0
    · exact (position.covered _ bound).attempted e' listed selected own past
    have after := position.after _ bound
    have batch := holds.complete
    have inBatch : e' ∈ done ++ e :: rest := batch.complete e (List.mem_append_right done List.mem_cons_self) r isActive
      e' listed selected own.symm (by omega) below
    rcases List.mem_append.mp inBatch with earlier | later
    · have passed := position.passed e' earlier
      rw [own] at passed
      exact absurd passed past
    -- an entry after it in the batch has a number at least as large, so it is the entry itself
    have same : e' = e := by
      rcases List.mem_cons.mp later with same | behind
      · exact same
      · have sorted := (List.pairwise_append.mp batch.sorted).2.1
        have least := (List.pairwise_cons.mp sorted).1 e' behind
        exact holds.consistent.unique e' listed e (batch.listed e (List.mem_append_right done List.mem_cons_self))
          (le_antisymm below least)
    exact same ▸ attempted (same ▸ selected)

theorem Position.advance (holds : Holds execute w₀ start (done ++ e :: rest) h)
    (position : Position execute r start done cursors h) (attempted : selects execute r e → Attempted h.log r e) :
    Position execute r start (done ++ [e]) (advance cursors (shardOf r e.runId) e.globalSeq) h := by
  have moves : ∀ shard < shardCount r, (Matcher.advance cursors (shardOf r e.runId) e.globalSeq).getD shard 0 =
      if shardOf r e.runId = shard then max (cursors.getD shard 0) e.globalSeq else cursors.getD shard 0 :=
    fun shard bound => getD_advance (position.length ▸ bound) _ _
  have reached := covered_of_position isActive holds position attempted
  refine ⟨(length_advance ..).trans position.length, fun shard bound => ?_, fun shard bound => ?_, fun e' member => ?_⟩
  · have after := position.after shard bound
    rw [moves shard bound]
    split <;> omega
  · rw [moves shard bound]
    split
    next own =>
      subst own
      rcases le_total (cursors.getD (shardOf r e.runId) 0) e.globalSeq with ahead | past
      · rw [max_eq_right ahead]
        exact reached
      · rw [max_eq_left past]
        exact position.covered _ bound
    next => exact position.covered shard bound
  · rw [moves _ (shardOf_lt r e'.runId)]
    rcases List.mem_append.mp member with earlier | isLast
    · have passed := position.passed e' earlier
      split <;> omega
    · rw [List.mem_singleton.mp isLast, if_pos rfl]
      omega

/-- A matcher leaves a batch with cursors that cover their shards. -/
theorem safe_processEntries (sameEngine : tick.execute = execute) (holds : Holds execute w₀ start (done ++ rest) h)
    (position : Position execute r start done cursors h) :
    tape.Safe (replica execute w₀ ok tid call) tid
      (fun result h => ∀ cursors, result = .ok cursors → Position execute r start (done ++ rest) cursors h)
      (processEntries tick r rest cursors).run h := by
  induction rest generalizing done cursors h with
  | nil =>
    rintro h' later cursors' ⟨⟩
    rw [List.append_nil]
    exact position.evolves isActive later
  | cons e rest inductionHypothesis =>
    have appended : done ++ e :: rest = (done ++ [e]) ++ rest := (List.append_cons ..)
    rw [appended]
    unfold processEntries
    refine safe_ite (fun past => ?_) fun ahead => safe_ite (fun unselected => ?_) fun selected => ?_
    · exact inductionHypothesis (appended ▸ holds) (position.skip past)
    · refine inductionHypothesis (appended ▸ holds) (position.advance isActive holds fun selected => ?_)
      rw [sameEngine, selected] at unselected
      cases unselected
    · have selected : selects execute r e := by
        rw [sameEngine] at selected
        simpa using selected
      refine System.Safe.exceptBind (fun _ _ _ returned => by cases returned) ?_
      refine (System.Safe.tracking evolves_of_guar (Evolves.refl execute w₀ h)
        (safe_dispatch isActive (List.mem_append_right done List.mem_cons_self) selected holds)).mono ?_
      rintro result h₁ ⟨since, attempted⟩ value rfl
      exact inductionHypothesis (appended ▸ holds.evolves since)
        ((position.evolves isActive since).advance isActive (holds.evolves since) fun _ => attempted rfl)

theorem safe_persistCursors (first : Nat) {pairs : List (Int × Int)}
    (covered : ∀ i pair, pairs[i]? = some pair → first + i < shardCount r ∧ Covered execute h r (first + i) pair.2) :
    tape.Safe (replica execute w₀ ok tid call) tid (fun _ _ => True)
      (persistCursors tick r.reactionId first pairs).run h := by
  induction pairs generalizing first h with
  | nil => exact fun _ _ => trivial
  | cons pair pairs inductionHypothesis =>
    obtain ⟨old, new⟩ := pair
    have next : ∀ h', Evolves execute w₀ h h' → tape.Safe (replica execute w₀ ok tid call) tid (fun _ _ => True)
        (persistCursors tick r.reactionId (first + 1) pairs).run h' := by
      intro h' since
      refine inductionHypothesis (first + 1) fun i pair there => ?_
      obtain ⟨bound, known⟩ := covered (i + 1) pair there
      rw [show first + (i + 1) = first + 1 + i by omega] at bound known
      exact ⟨bound, since.covered r isActive _ _ known⟩
    obtain ⟨bound, known⟩ := covered 0 (old, new) rfl
    unfold persistCursors
    refine safe_ite (fun _ => ?_) fun _ => next h (Evolves.refl execute w₀ h)
    have writes : tape.Safe (replica execute w₀ ok tid call) tid (fun _ _ => True)
        (RunStore.setReactionCursor r.reactionId first new (tick.persistMs r.reactionId first)).run h :=
      safe_then (fun _ _ => trivial)
        (fun h' since => ⟨r, isActive, first, bound, rfl, rfl, since.covered r isActive _ _ known⟩)
        fun _ _ _ _ _ _ _ _ _ _ => trivial
    refine safe_orElse ((System.Safe.tracking evolves_of_guar (Evolves.refl execute w₀ h) writes).mono ?_)
    rintro _ h' ⟨since, -⟩ h'' later
    exact next h'' (since.trans later)

theorem safe_processReaction (sameEngine : tick.execute = execute) (holds : Holds execute w₀ start entries h)
    (position : Position execute r start [] cursors h) :
    tape.Safe (replica execute w₀ ok tid call) tid (fun _ _ => True) (processReaction tick entries r cursors).run h := by
  have nothing : Holds execute w₀ start ([] ++ entries) h := holds
  refine System.Safe.exceptBind (fun _ _ => trivial)
    ((safe_processEntries isActive sameEngine nothing position).mono ?_)
  intro result h₁ ends newCursors isOk
  have reached := ends newCursors isOk
  refine safe_persistCursors isActive 0 fun shard pair there => ?_
  obtain ⟨there, reachedThere⟩ := List.getElem?_zip_eq_some.mp there
  have bound : shard < shardCount r := position.length ▸ (List.getElem?_eq_some_iff.mp there).1
  have known := reached.covered shard bound
  rw [List.getD_eq_getElem?_getD, reachedThere] at known
  rw [Nat.zero_add]
  exact ⟨bound, known⟩

end Reaction

theorem safe_processReactions {start : Int} {entries : List EventEntry} {positions : List (Reaction × List Int)}
    (sameEngine : tick.execute = execute) (holds : Holds execute w₀ start entries h)
    (known : ∀ position ∈ positions, position.1 ∈ active w₀ ∧ Position execute position.1 start [] position.2 h) :
    tape.Safe (replica execute w₀ ok tid call) tid (fun _ _ => True) (processReactions tick entries positions).run h := by
  induction positions generalizing h with
  | nil => exact fun _ _ => trivial
  | cons first rest inductionHypothesis =>
    obtain ⟨isActive, position⟩ := known first List.mem_cons_self
    refine System.Safe.exceptBind (fun _ _ => trivial) ?_
    refine (System.Safe.tracking evolves_of_guar (Evolves.refl execute w₀ h)
      (safe_processReaction isActive sameEngine holds position)).mono ?_
    rintro _ h' ⟨since, -⟩ _ _
    refine inductionHypothesis (holds.evolves since) fun position member => ?_
    obtain ⟨isActive, there⟩ := known position (List.mem_cons_of_mem _ member)
    exact ⟨isActive, there.evolves isActive since⟩

/-! ## One pass -/

section Pass

variable {r : Reaction} (isActive : r ∈ active w₀) (consistent : Consistent execute w₀ h)

include isActive consistent

theorem safe_getReactionCursor (shard : Nat) (bound : shard < shardCount r) :
    tape.Safe (replica execute w₀ ok tid call) tid
      (fun result h => ∀ cursor, result = .ok cursor → Covered execute h r shard cursor)
      (RunStore.getReactionCursor r.reactionId shard).run h := by
  refine safe_then (fun _ _ _ returned => by cases returned) (fun _ _ => trivial) ?_
  rintro h₁ found state h₂ before answers after since h₃ third cursor ⟨⟩
  obtain ⟨read, rfl⟩ := exec_of_ok answers
  -- the cursor as it was when it was read covered its shard, and does so ever after
  have covered := (before.consistent consistent).cursors r isActive shard bound
  have since₁ : Evolves execute w₀ h₁ (h₁.push tid _ _ _) := evolves_push answers rfl trivial
  obtain rfl := Except.ok.inj read
  exact ((since₁.trans after).trans third).covered r isActive shard _ covered

theorem safe_readCursors (first : Nat) {shards : Nat} (bound : first + shards ≤ shardCount r) :
    tape.Safe (replica execute w₀ ok tid call) tid
      (fun result h => ∀ cursors, result = .ok cursors → cursors.length = shards ∧
        ∀ i < shards, Covered execute h r (first + i) (cursors.getD i 0))
      (readCursors r.reactionId first shards).run h := by
  induction shards generalizing first h with
  | zero =>
    rintro h' - cursors ⟨⟩
    exact ⟨rfl, fun i below => by omega⟩
  | succ shards inductionHypothesis =>
    refine System.Safe.exceptBind (fun _ _ _ returned => by cases returned) ?_
    refine (System.Safe.tracking evolves_of_guar (Evolves.refl execute w₀ h)
      (safe_getReactionCursor isActive consistent first (by omega))).mono ?_
    rintro _ h₁ ⟨since₁, covered⟩ cursor rfl
    refine System.Safe.exceptBind (fun _ _ _ returned => by cases returned) ?_
    refine (System.Safe.tracking evolves_of_guar (Evolves.refl execute w₀ h₁)
      (inductionHypothesis (since₁.consistent consistent) (first + 1) (by omega))).mono ?_
    rintro _ h₂ ⟨since₂, rest⟩ cursors rfl h₃ later _ ⟨⟩
    obtain ⟨length, others⟩ := rest cursors rfl
    refine ⟨by rw [List.length_cons, length], fun i below => ?_⟩
    cases i with
    | zero => exact (since₂.trans later).covered r isActive _ _ (covered cursor rfl)
    | succ i =>
      have known := later.covered r isActive _ _ (others i (by omega))
      rw [show first + 1 + i = first + (i + 1) by omega] at known
      exact known

end Pass

/-- The cursors of the reactions, each with its own. -/
def Known (execute : Cel.Engine) (w₀ : World) (positions : List (Reaction × List Int)) (h : TapeHist) : Prop :=
  ∀ position ∈ positions, position.1 ∈ active w₀ ∧ position.2.length = shardCount position.1 ∧
    ∀ shard < shardCount position.1, Covered execute h position.1 shard (position.2.getD shard 0)

theorem Known.evolves {positions : List (Reaction × List Int)} {h h' : TapeHist}
    (known : Known execute w₀ positions h) (evolves : Evolves execute w₀ h h') : Known execute w₀ positions h' := by
  intro position member
  obtain ⟨isActive, length, covered⟩ := known position member
  exact ⟨isActive, length, fun shard bound => evolves.covered _ isActive _ _ (covered shard bound)⟩

theorem safe_withCursors {reactions : List Reaction} (listed : ∀ r ∈ reactions, r ∈ active w₀)
    (consistent : Consistent execute w₀ h) :
    tape.Safe (replica execute w₀ ok tid call) tid
      (fun result h => ∀ positions, result = .ok positions → Known execute w₀ positions h)
      (withCursors reactions).run h := by
  induction reactions generalizing h with
  | nil =>
    rintro h' - positions ⟨⟩ position member
    cases member
  | cons r reactions inductionHypothesis =>
    have isActive := listed r List.mem_cons_self
    refine System.Safe.exceptBind (fun _ _ _ returned => by cases returned) ?_
    refine (System.Safe.tracking evolves_of_guar (Evolves.refl execute w₀ h)
      (safe_readCursors isActive consistent 0 (by omega))).mono ?_
    rintro _ h₁ ⟨since₁, own⟩ cursors rfl
    obtain ⟨length, covered⟩ := own cursors rfl
    refine System.Safe.exceptBind (fun _ _ _ returned => by cases returned) ?_
    refine (System.Safe.tracking evolves_of_guar (Evolves.refl execute w₀ h₁)
      (inductionHypothesis (fun r member => listed r (List.mem_cons_of_mem _ member))
        (since₁.consistent consistent))).mono ?_
    rintro _ h₂ ⟨since₂, rest⟩ others rfl h₃ later _ ⟨⟩ position member
    rcases List.mem_cons.mp member with rfl | member
    · refine ⟨isActive, length, fun shard bound => ?_⟩
      have known := (since₂.trans later).covered r isActive _ _ (covered shard bound)
      rwa [Nat.zero_add] at known
    · exact (rest others rfl).evolves later position member

theorem minCursor_le {cursors : List Int} {cursor : Int} (member : cursor ∈ cursors) : minCursor cursors ≤ cursor := by
  have least : ∀ (cursors : List Int) (bound : Int), cursors.foldl min bound ≤ bound ∧
      ∀ cursor ∈ cursors, cursors.foldl min bound ≤ cursor := by
    intro cursors
    induction cursors with
    | nil => exact fun bound => ⟨le_refl _, fun cursor member => by cases member⟩
    | cons first rest inductionHypothesis =>
      intro bound
      obtain ⟨below, others⟩ := inductionHypothesis (min bound first)
      refine ⟨le_trans below (min_le_left _ _), fun cursor member => ?_⟩
      rcases List.mem_cons.mp member with rfl | member
      · exact le_trans below (min_le_right _ _)
      · exact others cursor member
  have below := (least cursors i64Max).2 cursor member
  unfold minCursor
  simp only
  split
  next none =>
    have positive : 0 ≤ i64Max := by decide
    omega
  next => exact below

/-- A pass of the matcher, whatever runs beside it. -/
theorem safe_step (sameEngine : tick.execute = execute) (consistent : Consistent execute w₀ h) :
    tape.Safe (replica execute w₀ ok tid call) tid (fun _ _ => True) (step tick).run h := by
  have never : ∀ (e : StoreError) (h : TapeHist), True := fun _ _ => trivial
  refine safe_then never (fun _ _ => trivial) ?_
  intro h₁ reactions state h₂ before answers _ since₂
  have listed : reactions = active w₀ := by
    have read := (exec_of_ok answers).1.trans (listReactions_eq_active h₁.state)
    rw [Except.ok.inj read, (before.consistent consistent).active_eq]
  refine safe_ite (fun _ _ _ => trivial) fun _ => ?_
  refine System.Safe.exceptBind never ?_
  refine (System.Safe.tracking evolves_of_guar (Evolves.refl execute w₀ h₂)
    (safe_withCursors (fun r member => listed ▸ member) (since₂.consistent consistent))).mono ?_
  rintro _ h₃ ⟨since₃, known⟩ positions rfl
  refine safe_attempt (fun _ _ => trivial) fun _ h₄ _ since₄ => ?_
  refine safe_then never (fun _ _ => trivial) ?_
  intro h₅ entries state h₆ _ answers after since₆
  refine safe_ite (fun _ _ _ => trivial) fun _ => ?_
  have since := ((since₂.trans since₃).trans since₄).trans since₆
  refine safe_processReactions sameEngine ⟨since.consistent consistent, tid, _, after.log List.mem_cons_self⟩ ?_
  intro position member
  obtain ⟨isActive, length, covered⟩ := (known positions rfl).evolves (since₄.trans since₆) position member
  refine ⟨isActive, length, fun shard bound => ?_, covered, fun e member => by cases member⟩
  refine minCursor_le (List.mem_flatMap.mpr ⟨position, member, ?_⟩)
  rw [List.getD_eq_getElem?_getD, List.getElem?_eq_getElem (length.symm ▸ bound), Option.getD_some]
  exact List.getElem_mem _

/-! ## Any number of matchers -/

/-- Any other call: none of its statements is a matcher's write. -/
theorem safe_of_other (other : isMatcher call = false) (program : Prog Act Act.Res α) (h : TapeHist) :
    tape.Safe (replica execute w₀ ok tid call) tid (fun _ _ => True) program h := by
  refine System.Safe.of_all (p := fun _ => True) ?_ (fun _ _ => trivial) (Prog.all_true program) h
  intro h act res state _ allowed answers
  have above := above_of_permitted allowed.1
  have noWrite : changesMatching act = false := by
    have permits := allowed.1
    simp only [permitted, other, Bool.false_or, Bool.and_eq_true, Bool.not_eq_true'] at permits
    exact permits.1
  exact ⟨act, res, state, rfl, answers, above, proper_of_not_write noWrite, allowed.2⟩

variable (ok) in
theorem replica_compose : System.ComposeUnder tape (Consistent execute w₀) (Evaluates execute) (replica execute w₀ ok)
    fun _ _ _ _ => True where
  compatible _ guar := evolves_of_guar guar
  keeps guar consistent := (evolves_of_guar guar).consistent consistent
  fresh {tid call h} admitted _ consistent := by
    cases call with
    | matcherStep tick => exact safe_step admitted consistent
    | _ => exact safe_of_other rfl _ h

/-- Nothing was processed, and the journal's numbers are positive and unique. -/
structure Initial (w : World) : Prop where
  cursors : w.reactionCursors.rows = []
  positive : ∀ e ∈ w.journal.rows, 0 < e.globalSeq
  unique : ∀ a ∈ w.journal.rows, ∀ b ∈ w.journal.rows, a.globalSeq = b.globalSeq → a = b

theorem Initial.consistent (initial : Initial w₀) : Consistent execute w₀ (quiet w₀).toHist where
  reactions := rfl
  unique := initial.unique
  cursors r isActive shard bound := by
    have zero : cursorOf w₀ r.reactionId shard = 0 := by
      simp [cursorOf, Sql.Table.find?, initial.cursors]
    rw [quiet_state, zero]
    refine ⟨.inl (le_refl _), fun e member _ _ below => ?_⟩
    have positive := initial.positive e member
    omega
  reads tid start limit entries member := by cases member

end Safety

/-- A run whose steps meet `ok` keeps what proper statements keep. -/
theorem run_replicas {execute : Cel.Engine} {w₀ : World} {ok : Nat → Call → TapeHist → Act → Prop}
    {J : TapeHist → Prop} {choices : List (Choice Call)} (initial : Initial w₀)
    (sameEngine : ∀ tick, Choice.spawn (.matcherStep tick) ∈ choices → tick.execute = execute)
    (permits : ∀ tid call h act, ok tid call h act → permitted execute w₀ tid call h act)
    (along : tape.Along (System.Permits (fun _ => True) ok) (quiet w₀) choices)
    (preserved : ∀ tid call h act res state, tape.Answers act h.state res state → ok tid call h act →
      Proper execute w₀ h act → Consistent execute w₀ h → J h → J (h.push tid act res state))
    (start : J (quiet w₀).toHist) :
    Consistent execute w₀ (tape.run (quiet w₀) choices).toHist ∧ J (tape.run (quiet w₀) choices).toHist := by
  refine System.run_under (replica_compose ok) ?_ (fun event member => by cases member)
    (System.poolSafe_of_empty rfl) initial.consistent start (along.imp_mem fun c choice member allowed => ?_)
  · rintro tid call h h' ⟨act, res, state, rfl, answers, above, proper, meets⟩ consistent holds
    exact preserved tid call h act res state answers meets proper consistent holds
  · have both : System.Permits (fun _ => True)
        (fun tid call h act => permitted execute w₀ tid call h act ∧ ok tid call h act) c choice :=
      allowed.mono fun tid call act meets => ⟨permits tid call c.toHist act meets, meets⟩
    cases choice with
    | spawn call =>
      cases call with
      | matcherStep tick => exact sameEngine tick member
      | _ => trivial
    | exec tid => exact both
    | fault tid => exact both

/-- **What a cursor stands for.**  Take any number of matchers and any other calls, where only the
    matchers write what matchers write, statements fail and processes stop as they like, and each
    entry becomes visible above the entries of its shard that were read: an entry that an active
    reaction selects and that is at or below the cursor of its shard was attempted. -/
theorem attempted_of_cursor {execute : Cel.Engine} {w₀ : World} {choices : List (Choice Call)} (initial : Initial w₀)
    (sameEngine : ∀ tick, Choice.spawn (.matcherStep tick) ∈ choices → tick.execute = execute)
    (along : tape.Along (System.Permits (fun _ => True) fun tid call h act => permitted execute w₀ tid call h act)
      (quiet w₀) choices) {r : Reaction} (isActive : r ∈ active w₀) {e : EventEntry}
    (listed : e ∈ (tape.run (quiet w₀) choices).state.journal.rows) (selected : selects execute r e)
    (below : e.globalSeq ≤ cursorOf (tape.run (quiet w₀) choices).state r.reactionId (shardOf r e.runId)) :
    Attempted (tape.run (quiet w₀) choices).log r e := by
  have consistent := (run_replicas (J := fun _ => True) initial sameEngine (fun _ _ _ _ permits => permits) along
    (fun _ _ _ _ _ _ _ _ _ _ _ => trivial) trivial).1
  exact (consistent.cursors r isActive _ (shardOf_lt r e.runId)).attempted e listed selected rfl below

end Tape.Matcher
