import Tape.Rules
import Tape.Sql.Window

/-! # Firing timers

`list_due_timers(claim=true)` reads the timers that are due and then claims each by an `UPDATE` that asks
for `fired=0` alone.  `set_timer` rewrites the row and resets `fired`.  So a reactor can claim a timer
that was armed anew after it read the row: the claim uses up the new arming, and what is returned is the
old one.
-/

namespace Tape.Timer

open Sql Interleave

/-! ## Events -/

/-- The timer that `set_timer` arms. -/
def arms : TapeEvent → Option (String × String)
  | ⟨_, .sql (.timer (.upsertTimer runId timerId ..)), .ok _⟩ => some (runId, timerId)
  | _ => none

/-- The timer that an `UPDATE` of `list_due_timers` claimed. -/
def fires : TapeEvent → Option (String × String)
  | ⟨_, .sql (.timer (.fireTimer runId timerId)), .ok updated⟩ => claimed updated (runId, timerId)
  | _ => none
where
  claimed (updated : Nat) (pk : String × String) : Option (String × String) := if updated = 1 then some pk else none

/-- The timer that `cancel_timer` deletes. -/
def cancels : TapeEvent → Option (String × String)
  | ⟨_, .sql (.timer (.deleteTimer runId timerId)), .ok deleted⟩ => gone deleted (runId, timerId)
  | _ => none
where
  gone (deleted : Nat) (pk : String × String) : Option (String × String) := if 0 < deleted then some pk else none

/-- The timer is claimed, cancelled, or armed anew. -/
def touches (pk : String × String) (event : TapeEvent) : Prop :=
  fires event = some pk ∨ cancels event = some pk ∨ arms event = some pk

/-- The rows that a `SELECT` of due timers returned. -/
def lists : TapeEvent → Option (List TimerRecord)
  | ⟨_, .sql (.timer (.dueTimers ..)), .ok rows⟩ => some rows
  | _ => none

/-- The rows that the thread's last `SELECT` returned. -/
def listed (tid : Nat) (log : List TapeEvent) : List TimerRecord :=
  (log.findSome? fun event => if event.tid = tid then lists event else none).getD []

/-- A row as `list_due_timers` returns it. -/
def asFired (row : TimerRecord) : TimerRecord := { row with fired := true }

/-- The unfired row that the thread's next act, an `UPDATE` to claim a timer, finds. -/
def finds (c : TapeConfig) (tid : Nat) : Option TimerRecord :=
  match c.pending tid with
  | some (_, .sql (.timer (.fireTimer runId timerId))) =>
    (c.state.timers.find? (runId, timerId)).filter fun row => !row.fired
  | _ => none

/-- The rows that the thread claims in a run, as the table has them at that moment. -/
def claimed (tid : Nat) : TapeConfig → List (Choice Call) → List TimerRecord
  | _, [] => []
  | c, .exec other :: choices =>
    (if other = tid then (finds c tid).toList else []) ++ claimed tid (tape.step c (.exec other)) choices
  | c, choice :: choices => claimed tid (tape.step c choice) choices

/-! ## What is promised -/

/-- Every arming fires once. -/
structure FiresOnce (w : World) (choices : List (Choice Call)) : Prop where
  /-- Between two claims of a timer it is armed anew. -/
  once : ∀ newer between older first second pk,
    (tape.run (quiet w) choices).log = newer ++ second :: (between ++ first :: older) →
    fires first = some pk → fires second = some pk → ∃ event ∈ between, arms event = some pk
  /-- A call returns what it has claimed, as the table had it when it was claimed, and that was due. -/
  returned : ∀ tid nowMs limit records,
    (tape.run (quiet w) choices).pool[tid]? = some ⟨.listDueTimers nowMs limit true, .ret (.ok records)⟩ →
    records = (claimed tid (quiet w) choices).map asFired ∧
      ∀ row ∈ claimed tid (quiet w) choices, row.fireAtMs ≤ nowMs
  /-- A call that fails has claimed nothing. -/
  failed : ∀ tid nowMs limit e,
    (tape.run (quiet w) choices).pool[tid]? = some ⟨.listDueTimers nowMs limit true, .ret (.error e)⟩ →
    claimed tid (quiet w) choices = []
  /-- An arming that is not claimed, cancelled or overwritten stays in the table, and is listed once due,
      unless as many timers as are asked for are due no later. -/
  kept : ∀ before tid after call runId timerId fireAtMs kind payload ts, choices = before ++ .exec tid :: after →
    (tape.run (quiet w) before).pending tid =
      some (call, .timer (.upsertTimer runId timerId fireAtMs kind payload ts)) →
    (∀ event ∈ eventsSince (tape.run (quiet w) (before ++ [.exec tid])) (tape.run (quiet w) choices),
      ¬ touches (runId, timerId) event) →
    ∃ row, (tape.run (quiet w) choices).state.timers.find? (runId, timerId) = some row ∧
      (row.fireAtMs = fireAtMs ∧ row.kind = kind ∧ row.payload = payload ∧ row.fired = false) ∧
      ∀ nowMs limit rows, fireAtMs ≤ nowMs →
        (tape.alone (RunStore.listDueTimers nowMs limit false).run (tape.run (quiet w) choices).state).1 = .ok rows →
        row ∈ rows ∨ (max limit 1).toNat ≤ rows.length ∧ ∀ other ∈ rows, other.fireAtMs ≤ fireAtMs

/-- An `UPDATE` that claims a timer finds the row as the call's own `SELECT` has read it, and none fails
    after its call has claimed a timer. -/
def Undisturbed (c : TapeConfig) : Choice Call → Prop
  | .spawn _ => True
  | .exec tid => ∀ row ∈ finds c tid, row ∈ listed tid c.log
  | .fault tid => isFiring (c.pending tid) → ∀ event ∈ c.log, event.tid = tid → fires event = none
where
  isFiring : Option (Call × Act) → Bool
    | some (_, .sql (.timer (.fireTimer ..))) => true
    | _ => false

/-! ## Statements -/

/-- What a statement makes of the row under `pk`. -/
def rowAfter (pk : String × String) : TimerStmt → Option TimerRecord → Option TimerRecord
  | .upsertTimer runId timerId fireAtMs kind payload ts, row =>
    if (runId, timerId) = pk then
      some (row.elim { runId, timerId, fireAtMs, kind, payload, fired := false, createdAtMs := ts } fun row =>
        { row with fireAtMs, kind, payload, fired := false })
    else row
  | .deleteTimer runId timerId, row => if (runId, timerId) = pk then none else row
  | .fireTimer runId timerId, row => if (runId, timerId) = pk then row.map asFired else row
  | _, row => row

theorem asFired_of_fired {row : TimerRecord} (fired : row.fired) : asFired row = row := by
  cases row
  simp_all [asFired]

theorem find?_exec (s : TimerStmt) (w : World) (pk : String × String) :
    (s.exec w).2.find? pk = rowAfter pk s (w.timers.find? pk) := by
  cases s with
  | upsertTimer runId timerId fireAtMs kind payload ts => exact Table.find?_upsert ..
  | deleteTimer runId timerId =>
    refine (Table.find?_delete ..).trans ?_
    cases found : w.timers.find? pk with
    | none => simp [rowAfter]
    | some row =>
      have own : row.pk = pk := Table.key_of_find? found
      by_cases same : (runId, timerId) = pk
      · simp [rowAfter, same, own]
      · have other : ¬ (row.runId = runId ∧ row.timerId = timerId) := by
          rintro ⟨rfl, rfl⟩
          exact same own
        simp [rowAfter, same]
        tauto
  | fireTimer runId timerId =>
    refine (Table.find?_update ..).trans ?_
    cases found : w.timers.find? pk with
    | none => simp [rowAfter]
    | some row =>
      have own : row.pk = pk := Table.key_of_find? found
      by_cases same : (runId, timerId) = pk
      · cases fired : row.fired
        · simp [rowAfter, same, own, fired, asFired]
        · simp [rowAfter, same, fired, asFired_of_fired fired]
      · have other : ¬ (row.runId = runId ∧ row.timerId = timerId) := by
          rintro ⟨rfl, rfl⟩
          exact same own
        simp [rowAfter, same]
        tauto
  | _ => rfl

/-- A timer is claimed exactly if the `UPDATE` finds it unfired. -/
theorem claimed_eq (w : World) (runId timerId : String) :
    fires.claimed (w.timers.count fun row => row.pk = (runId, timerId) && !row.fired) (runId, timerId) =
      ((w.timers.find? (runId, timerId)).filter fun row => !row.fired).map TimerRecord.pk := by
  have one : w.timers.count (fun row => row.pk = (runId, timerId) && !row.fired) ≤ 1 :=
    Table.count_le_one (k := (runId, timerId)) fun row selected => by
      simp only [Bool.and_eq_true, decide_eq_true_eq] at selected
      exact selected.1
  have some_ := Table.count_pos_iff w.timers fun row => row.pk = (runId, timerId) && !row.fired
  cases unfired : (w.timers.find? (runId, timerId)).filter fun row => !row.fired with
  | none =>
    have nothing : ¬ 0 < w.timers.count fun row => row.pk = (runId, timerId) && !row.fired := by
      rw [some_]
      rintro ⟨row, found, selected⟩
      simp only [Bool.and_eq_true, decide_eq_true_eq] at selected
      rw [selected.1] at found
      rw [found, Option.filter_some, if_pos selected.2] at unfired
      cases unfired
    rw [fires.claimed, if_neg (by omega)]
    rfl
  | some row =>
    obtain ⟨found, isUnfired⟩ := Option.filter_eq_some_iff.mp unfired
    have own : row.pk = (runId, timerId) := Table.key_of_find? found
    have something : 0 < w.timers.count fun row => row.pk = (runId, timerId) && !row.fired :=
      some_.mpr ⟨row, own ▸ found, by simp [own, isUnfired]⟩
    rw [fires.claimed, if_pos (by omega), Option.map_some, own]

/-- Only a statement on the timers changes them. -/
theorem timers_cases {act : Act} {w w' : World} {res : act.Res} (answers : tape.Answers act w res w') :
    w'.timers = w.timers ∨ ∃ s, act = .timer s ∧ res = (act.exec w).1 ∧ w' = (act.exec w).2 := by
  cases answers with
  | fault _ => exact .inl rfl
  | exec =>
    rcases act with (s | s | s | s | s | s | s | s | s | s | s) | _ | _
    case sql.timer => exact .inr ⟨s, rfl, rfl, rfl⟩
    all_goals exact .inl rfl

/-! ## Each arming fires once -/

/-- The timer was claimed since it was last armed. -/
def spent (pk : String × String) : List TapeEvent → Bool
  | [] => false
  | event :: older => fires event = some pk || arms event ≠ some pk && spent pk older

/-- A timer that was claimed and not armed since is not unfired. -/
def SpentFired (h : TapeHist) : Prop :=
  ∀ pk row, spent pk h.log → h.state.timers.find? pk = some row → row.fired

/-- Whoever claims a timer finds it unfired, and leaves it fired. -/
theorem fires_cases {tid : Nat} {act : Act} {w w' : World} {res : act.Res} {pk : String × String}
    (answers : tape.Answers act w res w') (isFire : fires ⟨tid, act, res⟩ = some pk) :
    ∃ row, act = .timer (.fireTimer pk.1 pk.2) ∧ w.timers.find? pk = some row ∧ row.fired = false ∧
      w'.timers.find? pk = some (asFired row) := by
  unfold fires at isFire
  split at isFire
  next _ runId timerId updated same =>
    cases same
    obtain ⟨isCount, rfl⟩ := exec_of_ok answers
    cases isCount
    rw [claimed_eq, Option.map_eq_some_iff] at isFire
    obtain ⟨row, unfired, rfl⟩ := isFire
    obtain ⟨found, isUnfired⟩ := Option.filter_eq_some_iff.mp unfired
    have own : row.pk = (runId, timerId) := Table.key_of_find? found
    rw [own]
    refine ⟨row, rfl, found, by simpa using isUnfired, ?_⟩
    refine (find?_exec (.fireTimer runId timerId) w _).trans ?_
    simp [rowAfter, found]
  next => cases isFire

theorem SpentFired.push {tid : Nat} {h : TapeHist} {act : Act} {res : act.Res} {state : World}
    (answers : tape.Answers act h.state res state) (spentFired : SpentFired h) : SpentFired (h.push tid act res state) := by
  intro pk row isSpent found
  rw [Hist.push_state] at found
  rw [Hist.push_log, spent, Bool.or_eq_true, Bool.and_eq_true, decide_eq_true_eq, decide_eq_true_eq] at isSpent
  rcases isSpent with fired | ⟨unarmed, before⟩
  · obtain ⟨old, -, -, -, left⟩ := fires_cases answers fired
    rw [left] at found
    cases found
    rfl
  · rcases timers_cases answers with same | ⟨s, rfl, rfl, rfl⟩
    · exact spentFired pk row before (same ▸ found)
    · rw [show ((Act.timer s).exec h.state).2.timers = (s.exec h.state).2 from rfl, find?_exec] at found
      cases s with
      | upsertTimer runId timerId fireAtMs kind payload ts =>
        have other : (runId, timerId) ≠ pk := by
          rintro rfl
          exact unarmed rfl
        rw [rowAfter, if_neg other] at found
        exact spentFired pk row before found
      | deleteTimer runId timerId =>
        rw [rowAfter] at found
        split at found
        next => cases found
        next => exact spentFired pk row before found
      | fireTimer runId timerId =>
        rw [rowAfter] at found
        split at found
        next =>
          obtain ⟨old, -, rfl⟩ := Option.map_eq_some_iff.mp found
          rfl
        next => exact spentFired pk row before found
      | _ => exact spentFired pk row before found

/-- A timer that is claimed has not been claimed since it was last armed. -/
theorem unspent_of_fires {tid : Nat} {h : TapeHist} {act : Act} {res : act.Res} {state : World} {pk : String × String}
    (answers : tape.Answers act h.state res state) (spentFired : SpentFired h)
    (isFire : fires ⟨tid, act, res⟩ = some pk) : spent pk h.log = false := by
  obtain ⟨row, -, found, unfired, -⟩ := fires_cases answers isFire
  by_contra isSpent
  have fired := spentFired pk row (by simpa using isSpent) found
  rw [unfired] at fired
  cases fired

/-- What was claimed and not armed since is spent. -/
theorem spent_append {pk : String × String} {first : TapeEvent} {between older : List TapeEvent}
    (isFire : fires first = some pk) (unarmed : ∀ event ∈ between, arms event ≠ some pk) :
    spent pk (between ++ first :: older) := by
  induction between with
  | nil => simp [spent, isFire]
  | cons event between inductionHypothesis =>
    have rest := inductionHypothesis fun e member => unarmed e (List.mem_cons_of_mem _ member)
    simp [spent, rest, unarmed event List.mem_cons_self]

/-- In every run, between two claims of a timer it is armed. -/
theorem armed_between (w : World) (choices : List (Choice Call)) {newer between older : List TapeEvent}
    {first second : TapeEvent} {pk : String × String}
    (split : (tape.run (quiet w) choices).log = newer ++ second :: (between ++ first :: older))
    (isFirst : fires first = some pk) (isSecond : fires second = some pk) :
    ∃ event ∈ between, arms event = some pk := by
  have inv : SpentFired (tape.run (quiet w) choices).toHist ∧
      Logged (fun event older => ∀ pk, fires event = some pk → spent pk older = false)
        (tape.run (quiet w) choices).log := by
    refine System.run_kept (I := fun h => SpentFired h ∧
      Logged (fun event older => ∀ pk, fires event = some pk → spent pk older = false) h.log)
      (fun tid h act res state answers inv => ?_) ?_ choices
    · exact ⟨inv.1.push answers, fun pk isFire => unspent_of_fires answers inv.1 isFire, inv.2⟩
    · exact ⟨fun _ _ isSpent => (by cases isSpent), trivial⟩
  by_contra! unarmed
  have unspent := inv.2.of_split newer split pk isSecond
  rw [spent_append isFirst unarmed] at unspent
  cases unspent

/-! ## An arming stays -/

/-- What does not touch an unfired timer leaves it. -/
theorem kept_of_answers {tid : Nat} {act : Act} {w w' : World} {res : act.Res} {pk : String × String} {row : TimerRecord}
    (answers : tape.Answers act w res w') (found : w.timers.find? pk = some row) (unfired : row.fired = false)
    (untouched : ¬ touches pk ⟨tid, act, res⟩) : w'.timers.find? pk = some row := by
  rcases timers_cases answers with same | ⟨s, rfl, rfl, rfl⟩
  · rw [same, found]
  · have own : row.pk = pk := Table.key_of_find? found
    rw [show ((Act.timer s).exec w).2.timers = (s.exec w).2 from rfl, find?_exec, found]
    cases s with
    | upsertTimer runId timerId fireAtMs kind payload ts =>
      have other : (runId, timerId) ≠ pk := by
        rintro rfl
        exact untouched (.inr (.inr rfl))
      rw [rowAfter, if_neg other]
    | deleteTimer runId timerId =>
      have other : (runId, timerId) ≠ pk := by
        rintro rfl
        refine untouched (.inr (.inl ?_))
        have one : 0 < w.timers.count fun row => row.pk = (runId, timerId) :=
          Table.count_pos_of_find? found (by simpa using own)
        exact if_pos one
      rw [rowAfter, if_neg other]
    | fireTimer runId timerId =>
      have other : (runId, timerId) ≠ pk := by
        rintro rfl
        refine untouched (.inl ?_)
        refine (claimed_eq w runId timerId).trans ?_
        rw [found, Option.filter_some, unfired, Bool.not_false, if_pos rfl, Option.map_some, own]
      rw [rowAfter, if_neg other]
    | _ => rfl

theorem kept_of_run {c : TapeConfig} {pk : String × String} {row : TimerRecord}
    (found : c.state.timers.find? pk = some row) (unfired : row.fired = false) (choices : List (Choice Call))
    (untouched : ∀ event ∈ eventsSince c (tape.run c choices), ¬ touches pk event) :
    (tape.run c choices).state.timers.find? pk = some row := by
  obtain ⟨new, grown, stays⟩ : ∃ new, (tape.run c choices).log = new ++ c.log ∧
      ((∀ event ∈ new, ¬ touches pk event) → (tape.run c choices).state.timers.find? pk = some row) := by
    refine System.run_kept (I := fun h => ∃ new, h.log = new ++ c.log ∧
      ((∀ event ∈ new, ¬ touches pk event) → h.state.timers.find? pk = some row)) ?_ ⟨[], rfl, fun _ => found⟩ choices
    rintro tid h act res state answers ⟨new, grown, stays⟩
    refine ⟨⟨tid, act, res⟩ :: new, congrArg _ grown, fun quiet => ?_⟩
    exact kept_of_answers answers (stays fun event member => quiet event (List.mem_cons_of_mem _ member)) unfired
      (quiet _ List.mem_cons_self)
  rw [eventsSince_of_append grown] at untouched
  exact stays untouched

/-- A timer that is due is listed, unless as many as are asked for are due no later. -/
theorem listed_of_due {w : World} {row : TimerRecord} (member : row ∈ w.timers.rows) (unfired : row.fired = false)
    (nowMs limit : Int) (due : row.fireAtMs ≤ nowMs) {rows : List TimerRecord}
    (returned : (tape.alone (RunStore.listDueTimers nowMs limit false).run w).1 = .ok rows) :
    row ∈ rows ∨ (max limit 1).toNat ≤ rows.length ∧ ∀ other ∈ rows, other.fireAtMs ≤ row.fireAtMs := by
  let due_ := orderBy TimerRecord.fireAtMs (w.timers.rows.filter fun row => !row.fired && row.fireAtMs ≤ nowMs)
  have sorted : due_.Pairwise fun a b => a.fireAtMs ≤ b.fireAtMs := by
    apply List.pairwise_insertionSort
  have among : row ∈ due_ := (List.mem_insertionSort _).mpr (List.mem_filter.mpr ⟨member, by simp [unfired, due]⟩)
  have taken : rows = due_.take (max limit 1).toNat := by
    have limited : ¬ max limit 1 < 0 := by omega
    have isRows : limitRows (max limit 1) due_ = rows := Except.ok.inj returned
    rw [← isRows, limitRows, if_neg limited]
  subst taken
  rw [← List.take_append_drop (max limit 1).toNat due_] at among sorted
  rcases List.mem_append.mp among with kept | dropped
  · exact .inl kept
  · have long := List.length_pos_of_mem dropped
    refine .inr ⟨?_, fun other memberOther => (List.pairwise_append.mp sorted).2.2 other memberOther row dropped⟩
    rw [List.length_drop] at long
    rw [List.length_take]
    omega

/-- What arms a timer leaves it unfired. -/
theorem armed_of_step {c : TapeConfig} {tid : Nat} {call : Call} {runId timerId kind : String} {fireAtMs ts : Int}
    {payload : Json}
    (pending : c.pending tid = some (call, .timer (.upsertTimer runId timerId fireAtMs kind payload ts))) :
    ∃ row, (tape.step c (.exec tid)).state.timers.find? (runId, timerId) = some row ∧
      (row.fireAtMs = fireAtMs ∧ row.kind = kind ∧ row.payload = payload ∧ row.fired = false) := by
  have executed := congrArg Hist.state (System.step_exec_of_pending (S := tape) pending)
  rw [executed]
  refine ⟨_, (find?_exec (.upsertTimer runId timerId fireAtMs kind payload ts) c.state _).trans (if_pos rfl), ?_⟩
  cases c.state.timers.find? (runId, timerId) <;> simp

/-! ## What a call returns -/

/-- The rows of the timers the thread has claimed, as its `SELECT` read them, newest first. -/
def won (tid : Nat) : List TapeEvent → List TimerRecord
  | [] => []
  | event :: older =>
    (if event.tid = tid then
      ((fires event).bind fun pk => (listed tid older).find? fun row => row.pk = pk).toList
    else []) ++ won tid older

/-- An `UPDATE` to claim a timer failed, in a thread that had claimed one. -/
def LosesClaim (tid : Nat) (log : List TapeEvent) : Prop :=
  ∃ newer older runId timerId e, log = newer ++ ⟨tid, .timer (.fireTimer runId timerId), .error e⟩ :: older ∧
    won tid older ≠ []

theorem listed_of_silent {tid : Nat} {event : TapeEvent} {older : List TapeEvent}
    (silent : event.tid ≠ tid ∨ lists event = none) : listed tid (event :: older) = listed tid older := by
  have skipped : (if event.tid = tid then lists event else none) = none := by
    rcases silent with other | silent
    · exact if_neg other
    · rw [silent, ite_self]
  rw [listed, List.findSome?_cons, skipped, listed]

theorem listed_of_lists {tid : Nat} {event : TapeEvent} {older : List TapeEvent} {rows : List TimerRecord}
    (own : event.tid = tid) (answer : lists event = some rows) : listed tid (event :: older) = rows := by
  simp [listed, own, answer]

theorem won_of_other {tid : Nat} {event : TapeEvent} {older : List TapeEvent} (other : event.tid ≠ tid) :
    won tid (event :: older) = won tid older := by
  rw [won, if_neg other, List.nil_append]

theorem won_of_silent {tid : Nat} {event : TapeEvent} {older : List TapeEvent} (silent : fires event = none) :
    won tid (event :: older) = won tid older := by
  simp [won, silent]

/-- Of the rows that were listed, the one that was claimed is the one under its key. -/
theorem won_of_fires {tid : Nat} {event : TapeEvent} {older : List TapeEvent} {row : TimerRecord} (own : event.tid = tid)
    (distinct : ((listed tid older).map TimerRecord.pk).Nodup) (member : row ∈ listed tid older)
    (isFire : fires event = some row.pk) : won tid (event :: older) = row :: won tid older := by
  have first : (listed tid older).find? (fun other => other.pk = row.pk) = some row :=
    Table.find?_key_of_mem (t := ⟨listed tid older, distinct⟩) member
  rw [won, if_pos own, isFire, Option.bind_some, first]
  rfl

section Safety

variable {tid : Nat} {call : Call}

/-- What `list_due_timers(claim=true)` has done when it returns. -/
def claimPost (tid : Nat) : (call : Call) → Call.Out call → TapeHist → Prop
  | .listDueTimers nowMs _ true, .ok records, h =>
    records = (won tid h.log).reverse.map asFired ∧ ∀ row ∈ won tid h.log, row.fireAtMs ≤ nowMs
  | .listDueTimers _ _ true, .error _, h => won tid h.log = [] ∨ LosesClaim tid h.log
  | _, _, _ => True

/-- The contract of a thread that relies on its own past alone. -/
abbrev free (tid : Nat) (call : Call) : Contract World Act Act.Res :=
  tape.tracked (fun _ _ _ _ => True) (fun _ _ _ _ => True) tid call

/-- What the claiming loop adds to what the thread has claimed, and returns. -/
def loopPost (tid : Nat) (start : TapeHist) (rest : List TimerRecord) (result : Except StoreError (List TimerRecord))
    (h : TapeHist) : Prop :=
  (∀ fired, result = .ok fired → ∃ more : List TimerRecord, won tid h.log = more.reverse ++ won tid start.log ∧
    fired = more.map asFired ∧ ∀ row ∈ more, row ∈ rest) ∧
  ∀ e, result = .error e → won tid h.log = [] ∨ LosesClaim tid h.log

/-- The claiming loop over some of the rows that were listed. -/
theorem safe_claimTimers {rows : List TimerRecord} (distinct : (rows.map TimerRecord.pk).Nodup)
    (rest : List TimerRecord) (among : ∀ row ∈ rest, row ∈ rows) {h : TapeHist} (isListed : listed tid h.log = rows) :
    tape.Safe (free tid call) tid (loopPost tid h rest) (RunStore.claimTimers rest).run h := by
  induction rest generalizing h with
  | nil =>
    intro h' foreign
    have same : won tid h'.log = won tid h.log := foreign.eq_of_ignores fun _ _ other => won_of_other other
    refine ⟨fun fired isOk => ?_, fun e failed => by cases failed⟩
    cases isOk
    exact ⟨[], by simpa using same, rfl, by simp⟩
  | cons timer rest inductionHypothesis =>
    -- other threads win and list nothing for this one
    have before : ∀ {h₁ : TapeHist}, Foreign tid h h₁ → won tid h₁.log = won tid h.log ∧ listed tid h₁.log = rows :=
      fun foreign => ⟨foreign.eq_of_ignores fun _ _ other => won_of_other other,
        (foreign.eq_of_ignores fun _ _ other => listed_of_silent (.inl other)).trans isListed⟩
    refine safe_query_cases fun h₁ res₁ state₁ foreign₁ _ answers₁ => ⟨⟨_, res₁, state₁, rfl, answers₁, trivial, trivial⟩, ?_, ?_⟩
    · rintro (updated : Nat) rfl
      obtain ⟨wonBefore, listedBefore⟩ := before foreign₁
      have listedAfter : listed tid (h₁.push tid (.timer (.fireTimer timer.runId timer.timerId)) (.ok updated) state₁).log =
        rows :=
        (listed_of_silent (.inr rfl)).trans listedBefore
      -- the UPDATE that moved the row is the one that won it
      have wonAfter : won tid (h₁.push tid (.timer (.fireTimer timer.runId timer.timerId)) (.ok updated) state₁).log =
          (if updated = 1 then [timer] else []) ++ won tid h.log := by
        by_cases claimed : updated = 1
        · rw [if_pos claimed, ← wonBefore]
          exact won_of_fires rfl (by rwa [listedBefore]) (by rw [listedBefore]; exact among timer List.mem_cons_self)
            (if_pos claimed)
        · rw [if_neg claimed, ← wonBefore]
          exact won_of_silent (if_neg claimed)
      refine safe_return ((inductionHypothesis (fun row member => among row (List.mem_cons_of_mem _ member))
        listedAfter).mono ?_)
      rintro result h' ⟨returned, failed⟩
      refine ⟨?_, ?_⟩
      · intro fired isOk
        cases result with
        | error e => cases isOk
        | ok later =>
          obtain ⟨more, grown, rfl, member⟩ := returned later rfl
          cases isOk
          by_cases claimed : updated = 1
          · refine ⟨timer :: more, by rw [grown, wonAfter]; simp [claimed], by simp [claimed, asFired], ?_⟩
            simpa using fun row isMore => .inr (member row isMore)
          · refine ⟨more, by rw [grown, wonAfter]; simp [claimed], by simp [claimed], ?_⟩
            exact fun row isMore => List.mem_cons_of_mem _ (member row isMore)
      · intro e isError
        cases result with
        | error e' => exact failed e' rfl
        | ok later => cases isError
    · rintro e rfl h₂ foreign₂
      -- a failing UPDATE ends the loop, and what was won before is lost
      refine ⟨fun fired isOk => (by cases isOk), fun e' _ => ?_⟩
      have after : won tid h₂.log = won tid h₁.log := by
        exact (foreign₂.eq_of_ignores fun _ _ other => won_of_other other).trans (won_of_silent rfl)
      by_cases none_ : won tid h₁.log = []
      · exact .inl (after.trans none_)
      · obtain ⟨new, grown, -⟩ := foreign₂
        exact .inr ⟨new, h₁.log, _, _, e, grown, none_⟩

/-- Due timers, each listed once. -/
theorem dueTimers_cases {w : World} {nowMs limit : Int} {rows : List TimerRecord}
    (answer : ((TimerStmt.dueTimers nowMs limit).exec w).1 = .ok rows) :
    (rows.map TimerRecord.pk).Nodup ∧ ∀ row ∈ rows, row.fireAtMs ≤ nowMs := by
  have isRows : limitRows limit (orderBy TimerRecord.fireAtMs (w.timers.rows.filter fun row =>
      !row.fired && row.fireAtMs ≤ nowMs)) = rows := Except.ok.inj answer
  subst isRows
  constructor
  · have sorted : ((orderBy TimerRecord.fireAtMs (w.timers.rows.filter fun row =>
        !row.fired && row.fireAtMs ≤ nowMs)).map TimerRecord.pk).Nodup :=
      ((List.perm_insertionSort _ _).map _).nodup_iff.mpr (w.timers.nodup.sublist (List.filter_sublist.map _))
    unfold limitRows
    split
    · exact sorted
    · exact sorted.sublist ((List.take_sublist _ _).map _)
  · intro row member
    have due := (List.mem_filter.mp (mem_of_mem_orderBy (mem_of_mem_limitRows member))).2
    simp only [Bool.and_eq_true, decide_eq_true_eq] at due
    exact due.2

theorem safe_listDueTimers {nowMs limit : Int} {h : TapeHist} (fresh : lastOwn tid h.log = none) :
    tape.Safe (free tid call) tid (claimPost tid (.listDueTimers nowMs limit true))
      (RunStore.listDueTimers nowMs limit true).run h := by
  refine safe_query_cases fun h₁ res₁ state₁ foreign₁ _ answers₁ => ⟨⟨_, res₁, state₁, rfl, answers₁, trivial, trivial⟩, ?_, ?_⟩
  · rintro (rows : List TimerRecord) rfl
    obtain ⟨distinct, due⟩ := dueTimers_cases (exec_of_ok answers₁).1.symm
    have nothing : won tid (h₁.push tid (.timer (.dueTimers nowMs (max limit 1))) (.ok rows) state₁).log = [] :=
      ((won_of_silent rfl).trans (foreign₁.eq_of_ignores fun _ _ other => won_of_other other)).trans
        (eq_of_fresh (fun _ _ other => won_of_other other) fresh)
    have isListed : listed tid (h₁.push tid (.timer (.dueTimers nowMs (max limit 1))) (.ok rows) state₁).log = rows :=
      listed_of_lists rfl rfl
    refine (safe_claimTimers distinct rows (fun _ => id) isListed).mono ?_
    rintro result h' ⟨returned, failed⟩
    cases result with
    | error e => exact failed e rfl
    | ok fired =>
      obtain ⟨more, grown, rfl, among⟩ := returned fired rfl
      rw [nothing, List.append_nil] at grown
      refine ⟨by rw [grown, List.reverse_reverse], fun row member => due row (among row ?_)⟩
      rwa [grown, List.mem_reverse] at member
  · rintro e rfl h₂ foreign₂
    refine .inl ?_
    exact ((foreign₂.eq_of_ignores fun _ _ other => won_of_other other).trans (won_of_silent rfl)).trans
      ((foreign₁.eq_of_ignores fun _ _ other => won_of_other other).trans
        (eq_of_fresh (fun _ _ other => won_of_other other) fresh))

theorem claim_compose : System.Compose tape (fun _ => True)
    (tape.tracked (fun _ _ _ _ => True) fun _ _ _ _ => True) claimPost := by
  refine System.tracked_compose fun {tid call h} _ fresh => ?_
  have other : (∀ result h, claimPost tid call result h) →
      tape.Safe (free tid call) tid (claimPost tid call) (tape.body call) h := fun trivially =>
    System.Safe.of_all_proper trivially (Prog.all_of (fun _ _ => trivial) _) h
  cases call with
  | listDueTimers nowMs limit claim =>
    cases claim with
    | false => exact other fun _ _ => trivial
    | true => exact safe_listDueTimers fresh
  | _ => exact other fun _ _ => trivial

end Safety

/-! ## Runs -/

/-- What every thread has listed, each timer once. -/
def DistinctListed (h : TapeHist) : Prop := ∀ tid, ((listed tid h.log).map TimerRecord.pk).Nodup

theorem DistinctListed.push {tid : Nat} {h : TapeHist} {act : Act} {res : act.Res} {state : World}
    (answers : tape.Answers act h.state res state) (distinct : DistinctListed h) :
    DistinctListed (h.push tid act res state) := by
  intro other
  rw [Hist.push_log]
  by_cases silent : tid ≠ other ∨ lists ⟨tid, act, res⟩ = none
  · rw [listed_of_silent silent]
    exact distinct other
  · push Not at silent
    obtain ⟨rows, answer⟩ := Option.ne_none_iff_exists'.mp silent.2
    rw [listed_of_lists silent.1 answer]
    unfold lists at answer
    split at answer
    next nowMs limit rows' same =>
      cases same
      cases answer
      exact (dueTimers_cases (exec_of_ok answers).1.symm).1
    next => cases answer

/-- What a thread's act claims is what it finds. -/
theorem fires_of_exec {c : TapeConfig} {tid : Nat} {call : Call} {act : Act} (pending : c.pending tid = some (call, act)) :
    fires ⟨tid, act, (act.exec c.state).1⟩ = (finds c tid).map TimerRecord.pk := by
  rcases act with (s | s | s | s | s | s | s | s | s | s | s) | _ | _
  case sql.timer =>
    cases s with
    | fireTimer runId timerId =>
      rw [finds, pending]
      exact claimed_eq c.state runId timerId
    | _ =>
      rw [finds, pending]
      rfl
  all_goals
    rw [finds, pending]
    rfl

/-- A failed act claims nothing. -/
theorem fires_of_fault {tid : Nat} {act : Act} {res : act.Res} (failed : act.fault = some res) :
    fires ⟨tid, act, res⟩ = none := by
  unfold fires
  split
  next same =>
    cases same
    cases failed
  next => rfl

theorem claimed_cons (tid : Nat) (c : TapeConfig) (choice : Choice Call) (choices : List (Choice Call)) :
    claimed tid c (choice :: choices) = claimed tid c [choice] ++ claimed tid (tape.step c choice) choices := by
  cases choice <;> simp [claimed]

/-- Undisturbed, a thread claims rows it has listed. -/
theorem won_step {c : TapeConfig} {choice : Choice Call} (distinct : DistinctListed c.toHist)
    (undisturbed : Undisturbed c choice) (tid : Nat) :
    (won tid (tape.step c choice).log).reverse = (won tid c.log).reverse ++ claimed tid c [choice] := by
  cases choice with
  | spawn call => simp [claimed, System.step]
  -- a failing UPDATE wins nothing
  | fault other =>
    rcases System.step_fault_cases (S := tape) c other with same | ⟨call, act, res, -, failed, grown⟩
    · simp [claimed, congrArg Hist.log same]
    · simp [claimed, congrArg Hist.log grown, won_of_silent (fires_of_fault failed)]
  | exec other =>
    cases pending : c.pending other with
    | none =>
      rw [System.step_exec_of_idle (S := tape) pending]
      by_cases own : other = tid
      · subst own
        simp [claimed, finds, pending]
      · simp [claimed, own]
    | some executed =>
      obtain ⟨call, act⟩ := executed
      have grown : (tape.step c (.exec other)).log = ⟨other, act, (act.exec c.state).1⟩ :: c.log :=
        congrArg Hist.log (System.step_exec_of_pending (S := tape) pending)
      rw [grown]
      by_cases own : other = tid
      · subst own
        have isFire := fires_of_exec pending
        cases found : finds c other with
        | none =>
          rw [found] at isFire
          simp [claimed, found, won_of_silent isFire]
        | some row =>
          rw [found] at isFire
          -- the row it finds is the one it has listed
          have member : row ∈ listed other c.log := undisturbed row found
          simp [claimed, found, won_of_fires rfl (distinct other) member isFire]
      · have same : won tid (⟨other, act, (act.exec c.state).1⟩ :: c.log) = won tid c.log := won_of_other own
        simp [claimed, own, same]

theorem won_run {c : TapeConfig} {choices : List (Choice Call)} (distinct : DistinctListed c.toHist)
    (undisturbed : tape.Along Undisturbed c choices) (tid : Nat) :
    (won tid (tape.run c choices).log).reverse = (won tid c.log).reverse ++ claimed tid c choices := by
  induction choices generalizing c with
  | nil => simp [claimed]
  | cons choice choices inductionHypothesis =>
    have distinct' : DistinctListed (tape.step c choice).toHist :=
      System.step_hist (fun _ _ _ _ _ answers => DistinctListed.push answers) distinct choice
    rw [System.run_cons, inductionHypothesis distinct' undisturbed.2, won_step distinct undisturbed.1 tid,
      claimed_cons tid c choice choices, List.append_assoc]

theorem won_of_unfired {tid : Nat} {log : List TapeEvent}
    (unfired : ∀ event ∈ log, event.tid = tid → fires event = none) : won tid log = [] := by
  induction log with
  | nil => rfl
  | cons event log inductionHypothesis =>
    have rest := inductionHypothesis fun other member => unfired other (List.mem_cons_of_mem _ member)
    by_cases own : event.tid = tid
    · rw [won_of_silent (unfired event List.mem_cons_self own), rest]
    · rw [won_of_other own, rest]

theorem LosesClaim.of_cons {tid : Nat} {event : TapeEvent} {log : List TapeEvent} (loses : LosesClaim tid (event :: log)) :
    LosesClaim tid log ∨ won tid log ≠ [] ∧ ∃ runId timerId e, event = ⟨tid, .timer (.fireTimer runId timerId), .error e⟩ := by
  obtain ⟨newer, older, runId, timerId, e, split, some_⟩ := loses
  cases newer with
  | nil =>
    obtain ⟨rfl, rfl⟩ := List.cons.inj split
    exact .inr ⟨some_, runId, timerId, e, rfl⟩
  | cons newest newer => exact .inl ⟨newer, older, runId, timerId, e, (List.cons.inj split).2, some_⟩

/-- Undisturbed, no claim is lost to a failure. -/
theorem no_loss_step {c : TapeConfig} {choice : Choice Call} (undisturbed : Undisturbed c choice) {tid : Nat}
    (kept : ¬ LosesClaim tid c.log) : ¬ LosesClaim tid (tape.step c choice).log := by
  cases choice with
  | spawn call => exact kept
  | exec other =>
    cases pending : c.pending other with
    | none =>
      rw [System.step_exec_of_idle (S := tape) pending]
      exact kept
    | some executed =>
      obtain ⟨call, act⟩ := executed
      have grown : (tape.step c (.exec other)).log = ⟨other, act, (act.exec c.state).1⟩ :: c.log :=
        congrArg Hist.log (System.step_exec_of_pending (S := tape) pending)
      rw [grown]
      intro loses
      -- the `UPDATE` itself never answers with an error
      obtain ⟨-, runId, timerId, e, same⟩ := loses.of_cons.resolve_left kept
      cases same
  | fault other =>
    rcases System.step_fault_cases (S := tape) c other with same | ⟨call, act, res, pending, failed, grown⟩
    · rw [congrArg Hist.log same]
      exact kept
    · rw [congrArg Hist.log grown, Hist.push_log]
      intro loses
      obtain ⟨some_, runId, timerId, e, same⟩ := loses.of_cons.resolve_left kept
      cases same
      refine some_ (won_of_unfired (undisturbed ?_))
      rw [pending]
      rfl

/-- **Every arming fires once**, in every run in which each `UPDATE` that claims a timer finds the row its
    call has read, and no `UPDATE` fails after its call has claimed a timer. -/
theorem timer_fires_once {w : World} {choices : List (Choice Call)}
    (undisturbed : tape.Along Undisturbed (quiet w) choices) : FiresOnce w choices := by
  have permits : tape.Along (System.Permits (fun _ => True) fun _ _ _ _ => True) (quiet w) choices :=
    System.along_free tape (quiet w) _
  have safe := System.run_safe claim_compose (quiet_owned w) (System.poolSafe_of_empty rfl) permits
  -- the threads' own counts are the database's
  have wonAll : ∀ tid, (won tid (tape.run (quiet w) choices).log).reverse = claimed tid (quiet w) choices := fun tid =>
    won_run (c := quiet w) (fun tid => List.nodup_nil) undisturbed tid
  -- no call claims and then fails
  have noLoss : ∀ tid, ¬ LosesClaim tid (tape.run (quiet w) choices).log := fun tid =>
    System.run_invariant (I := fun c => ¬ LosesClaim tid c.log) (fun c choice kept undisturbed =>
      no_loss_step undisturbed kept) (by rintro ⟨newer, older, runId, timerId, e, split, some_⟩; simp at split) undisturbed
  constructor
  · exact fun newer between older first second pk split => armed_between w choices split
  · intro tid nowMs limit records returned
    obtain ⟨isAll, due⟩ := safe.returned returned
    refine ⟨isAll.trans (congrArg _ (wonAll tid)), fun row member => due row ?_⟩
    rw [← wonAll tid, List.mem_reverse] at member
    exact member
  · intro tid nowMs limit e failed
    have nothing := (safe.returned failed).resolve_right (noLoss tid)
    rw [← wonAll tid, nothing, List.reverse_nil]
  · intro before tid after call runId timerId fireAtMs kind payload ts split pending untouched
    -- an arming that nobody overwrites or fires stays, and is listed when it is due
    obtain ⟨row, found, columns⟩ := armed_of_step pending
    have first : tape.run (quiet w) (before ++ [.exec tid]) = tape.step (tape.run (quiet w) before) (.exec tid) :=
      System.run_append ..
    have all : tape.run (quiet w) choices = tape.run (tape.run (quiet w) (before ++ [.exec tid])) after := by
      rw [split, List.append_cons, System.run_append]
    rw [← first] at found
    rw [all] at untouched ⊢
    have stays := kept_of_run found columns.2.2.2 after untouched
    refine ⟨row, stays, columns, fun nowMs limit rows due returned => ?_⟩
    rw [← columns.1] at due ⊢
    exact listed_of_due (Table.mem_of_find? stays) columns.2.2.2 nowMs limit due returned

/-! ## Two reactors -/

def setWake (fireAtMs : Int) : Call := .setTimer "r" "wake" fireAtMs "redrive" .null 0 "t"

def wake (fireAtMs : Int) : TimerRecord where
  runId := "r"
  timerId := "wake"
  fireAtMs := fireAtMs
  kind := "redrive"
  payload := .null
  fired := false
  createdAtMs := 0

/-- Both read the timer before the first of them claims it. -/
def twoReactors : List (Choice Call) :=
  [.spawn (setWake 100), .exec 0, .exec 0, .spawn (.listDueTimers 150 10 true), .spawn (.listDueTimers 150 10 true),
    .exec 1, .exec 2, .exec 1, .exec 2]

theorem Undisturbed.of_none {c : TapeConfig} {tid : Nat} (nothing : finds c tid = none) : Undisturbed c (.exec tid) := by
  intro row found
  rw [nothing] at found
  cases found

theorem Undisturbed.of_listed {c : TapeConfig} {tid : Nat} (row : TimerRecord) (one : finds c tid = some row)
    (isListed : listed tid c.log = [row]) : Undisturbed c (.exec tid) := by
  intro other found
  rw [one] at found
  cases found
  rw [isListed]
  exact List.mem_singleton.mpr rfl

theorem first_reactor_fires : FiresOnce .empty twoReactors ∧ claimed 1 (quiet .empty) twoReactors = [wake 100] ∧
    claimed 2 (quiet .empty) twoReactors = [] := by
  refine ⟨timer_fires_once ?_, rfl, rfl⟩
  exact ⟨trivial, .of_none rfl, .of_none rfl, trivial, trivial, .of_none rfl, .of_none rfl,
    .of_listed (wake 100) rfl rfl, .of_none rfl, trivial⟩

/-- The timer is read when it is due, armed for later, and claimed. -/
def rearmed : List (Choice Call) :=
  serve 0 (setWake 100) ++ [.spawn (.listDueTimers 150 10 true), .exec 1] ++ serve 2 (setWake 1000) ++ [.exec 1]

/-- The call returns the timer of 100 and uses up the one of 1000, at 150. -/
theorem rearmed_fires_early : ¬ FiresOnce .empty rearmed := by
  intro firesOnce
  have due := (firesOnce.returned 1 150 10 [asFired (wake 100)] rfl).2 (wake 1000) List.mem_cons_self
  exact absurd due (by decide)

end Tape.Timer
