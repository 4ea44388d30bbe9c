import Tape.Sdk.Plugin
import Tape.Sdk.Starvation
import Tape.Timer.Fire

/-! # Timers whose action fails

`fire_due_timers_once` lists the due timers with `claim=true`, which marks them fired, and then acts on one
after the other.  An exception of an action becomes a line of the report.  Nothing marks a timer unfired
again.
-/

namespace Tape.Timer

open Sql Interleave Sdk

/-! ## A tick that fails -/

/-- What becomes of the action of one timer. -/
inductive ActionFate where
  | runs
  /-- An exception is raised, after so many acts. -/
  | raises (acts : Nat)
  /-- The process is gone, after so many acts. -/
  | crashes (acts : Nat)

/-- What a tick leaves, and the timers whose action completed. -/
structure Ticked where
  world : World
  completed : List TimerRecord

/-- The loop over the timers.  Where the fates come to an end, so does the process. -/
def fireAll (job : TimerJob) : List ActionFate → List TimerRecord → World → Ticked
  | _, [], w => ⟨w, []⟩
  | [], _ :: _, w => ⟨w, []⟩
  | .runs :: fates, t :: rest, w =>
    let answer := tape.alone (fireTimer job t).run w
    let later := fireAll job fates rest answer.2
    ⟨later.world, if answer.1.isOk then t :: later.completed else later.completed⟩
  | .raises acts :: fates, t :: rest, w => fireAll job fates rest (tape.cut acts (fireTimer job t).run w)
  | .crashes acts :: _, t :: _, w => ⟨tape.cut acts (fireTimer job t).run w, []⟩

/-- A tick whose listing and whose actions come to what is given.  If the listing does not answer, whether it
    failed or the process is gone, there is no action. -/
def tick (job : TimerJob) (listing : Fate) (fates : List ActionFate) (w : World) : Ticked :=
  match listing.reply (RunStore.listDueTimers job.now 500 true) w with
  | (none, left) => ⟨left, []⟩
  | (some timers, left) => fireAll job fates timers left

/-- A timer that was due and whose action did not complete is returned by every later listing that asks for
    as many as there are. -/
def NotLost (job : TimerJob) (listing : Fate) (fates : List ActionFate) (w : World) : Prop :=
  ∀ t ∈ w.timers.rows, t.fired = false → t.fireAtMs ≤ job.now → asFired t ∉ (tick job listing fates w).completed →
    ∀ nowMs limit : Int, job.now ≤ nowMs → ((tick job listing fates w).world.timers.rows.length : Int) ≤ limit →
      ∃ records, (tape.alone (RunStore.listDueTimers nowMs limit true).run (tick job listing fates w).world).1 =
        .ok records ∧ asFired t ∈ records

/-! ## A tick that does not -/

/-- The timers that a listing finds. -/
def due (nowMs limit : Int) (w : World) : List TimerRecord :=
  limitRows (max limit 1) (orderBy TimerRecord.fireAtMs (w.timers.rows.filter fun row => !row.fired && row.fireAtMs ≤ nowMs))

/-- Every action runs to its end, and raises nothing. -/
def AllComplete (job : TimerJob) : List ActionFate → List TimerRecord → World → Prop
  | _, [], _ => True
  | .runs :: fates, t :: rest, w =>
    (tape.alone (fireTimer job t).run w).1.isOk ∧ AllComplete job fates rest (tape.alone (fireTimer job t).run w).2
  | _, _ :: _, _ => False

/-- The listing is broken off before it marks a timer, or it answers and every action completes. -/
def Unbroken (job : TimerJob) : Fate → List ActionFate → World → Prop
  | .failed acts, _, w => acts ≤ 1 ∨ due job.now 500 w = []
  | .answered, fates, w => AllComplete job fates ((due job.now 500 w).map asFired)
      (tape.alone (RunStore.listDueTimers job.now 500 true).run w).2

/-! ## Marking timers fired -/

/-- A continuation that only returns adds nothing to where a program is broken off. -/
theorem cut_bind_of_ret {α β : Type} {program : Prog Act Act.Res α} {continuation : α → Prog Act Act.Res β}
    (returns : ∀ value, ∃ result, continuation value = .ret result) (n : Nat) (w : World) :
    tape.cut n (program.bind continuation) w = tape.cut n program w := by
  induction n generalizing program w with
  | zero => rfl
  | succ n inductionHypothesis =>
    cases program with
    | ret value =>
      obtain ⟨result, same⟩ := returns value
      rw [Prog.bind, same]
      rfl
    | call act next => exact inductionHypothesis _

/-- A sequence is broken off in its first part, or behind it. -/
theorem cut_bind {α β : Type} (program : Prog Act Act.Res α) (continuation : α → Prog Act Act.Res β) (n : Nat) (w : World) :
    tape.cut n (program.bind continuation) w = tape.cut n program w ∨
      ∃ m, tape.cut n (program.bind continuation) w =
        tape.cut m (continuation (tape.alone program w).1) (tape.alone program w).2 := by
  induction n generalizing program w with
  | zero => exact .inl rfl
  | succ n inductionHypothesis =>
    cases program with
    | ret value => exact .inr ⟨n + 1, rfl⟩
    | call act next => exact inductionHypothesis _ _

section Marking

variable {w : World} {pk : String × String}

/-- The row under `pk`, with `claimed` marked fired. -/
def marked (claimed : List TimerRecord) (w : World) (pk : String × String) : Option TimerRecord :=
  if pk ∈ claimed.map TimerRecord.pk then (w.timers.find? pk).map asFired else w.timers.find? pk

theorem find?_fireTimer (t : TimerRecord) (w : World) :
    ((TimerStmt.fireTimer t.runId t.timerId).exec w).2.find? pk = marked [t] w pk := by
  rw [find?_exec, rowAfter, marked]
  simp only [List.map_cons, List.map_nil, List.mem_singleton, eq_comm (a := pk)]

theorem marked_cons (t : TimerRecord) (rest : List TimerRecord) {left : World}
    (first : ∀ pk, left.timers.find? pk = marked [t] w pk) : marked rest left pk = marked (t :: rest) w pk := by
  unfold marked at first ⊢
  rw [first]
  by_cases isFirst : pk = t.pk
  · by_cases isLater : pk ∈ rest.map TimerRecord.pk
    · cases found : w.timers.find? pk <;> simp_all [asFired]
    · simp_all
  · simp_all

/-- The loop of `list_due_timers`, broken off. -/
theorem cut_claimTimers (n : Nat) (rows : List TimerRecord) (w : World) :
    (tape.cut n (RunStore.claimTimers rows).run w).timers.find? pk = marked (rows.take n) w pk := by
  induction rows generalizing n w with
  | nil => cases n <;> simp [RunStore.claimTimers, marked] <;> rfl
  | cons t rest inductionHypothesis =>
    cases n with
    | zero => simp [marked, System.cut]
    | succ n =>
      have first : tape.cut (n + 1) (RunStore.claimTimers (t :: rest)).run w =
          tape.cut n (RunStore.claimTimers rest).run
            { w with timers := ((TimerStmt.fireTimer t.runId t.timerId).exec w).2 } := by
        let more (fired : List TimerRecord) : StoreM (List TimerRecord) := return if w.timers.count (fun row =>
          row.pk = (t.runId, t.timerId) && !row.fired) = 1 then { t with fired := true } :: fired else fired
        have returns : ∀ value, ∃ result, ExceptT.bindCont more value = .ret result := by
          intro value
          cases value <;> exact ⟨_, rfl⟩
        exact cut_bind_of_ret returns n _
      rw [first, inductionHypothesis, List.take_succ_cons]
      exact marked_cons t _ fun pk => find?_fireTimer t w

/-- The timer is there, and unfired. -/
def Unfired (w : World) (t : TimerRecord) : Prop := w.timers.find? t.pk = some t ∧ t.fired = false

/-- The loop, to its end. -/
theorem alone_claimTimers (rows : List TimerRecord) (w : World) (distinct : (rows.map TimerRecord.pk).Nodup)
    (unfired : ∀ t ∈ rows, Unfired w t) :
    ∃ left, tape.alone (RunStore.claimTimers rows).run w = (.ok (rows.map asFired), left) ∧
      ∀ pk, left.timers.find? pk = marked rows w pk := by
  induction rows generalizing w with
  | nil => exact ⟨w, rfl, fun pk => by simp [marked]⟩
  | cons t rest inductionHypothesis =>
    rw [List.map_cons, List.nodup_cons] at distinct
    obtain ⟨found, isUnfired⟩ := unfired t List.mem_cons_self
    let left : World := { w with timers := ((TimerStmt.fireTimer t.runId t.timerId).exec w).2 }
    have marks (pk : String × String) : left.timers.find? pk = marked [t] w pk := find?_fireTimer t w
    have still : ∀ other ∈ rest, Unfired left other := by
      intro other isOther
      have different : other.pk ≠ t.pk := fun same => distinct.1 (same ▸ List.mem_map_of_mem isOther)
      refine ⟨?_, (unfired other (List.mem_cons_of_mem _ isOther)).2⟩
      rw [marks, marked, if_neg (by simpa using different)]
      exact (unfired other (List.mem_cons_of_mem _ isOther)).1
    obtain ⟨last, answer, marksRest⟩ := inductionHypothesis left distinct.2 still
    refine ⟨last, ?_, fun pk => (marksRest pk).trans (marked_cons t rest marks)⟩
    have one : w.timers.count (fun row => row.pk = (t.runId, t.timerId) && !row.fired) = 1 := by
      have claimed := claimed_eq w t.runId t.timerId
      have isPk : t.pk = (t.runId, t.timerId) := rfl
      rw [← isPk, found, Option.filter_some, isUnfired, Bool.not_false, if_pos rfl, fires.claimed] at claimed
      by_contra other
      rw [if_neg other] at claimed
      cases claimed
    have answer_ : (Stmt.exec (.timer (.fireTimer t.runId t.timerId)) w).1 = .ok (1 : Nat) := congrArg Except.ok one
    refine (alone_query answer_).trans ?_
    refine (alone_seq answer).trans ?_
    simp [asFired]
    rfl

theorem due_distinct (nowMs limit : Int) (w : World) : ((due nowMs limit w).map TimerRecord.pk).Nodup :=
  (@dueTimers_cases w nowMs (max limit 1) _ rfl).1

theorem unfired_of_due {nowMs limit : Int} {t : TimerRecord} (isDue : t ∈ due nowMs limit w) : Unfired w t := by
  obtain ⟨isRow, selected⟩ := List.mem_filter.mp (mem_of_mem_orderBy (mem_of_mem_limitRows isDue))
  simp only [Bool.and_eq_true, Bool.not_eq_true', decide_eq_true_eq] at selected
  exact ⟨Table.find?_key_of_mem isRow, selected.1⟩

/-- A listing returns the due timers, and marks them. -/
theorem alone_listDueTimers (nowMs limit : Int) (w : World) :
    ∃ left, tape.alone (RunStore.listDueTimers nowMs limit true).run w =
        (.ok ((due nowMs limit w).map asFired), left) ∧
      ∀ pk, left.timers.find? pk = marked (due nowMs limit w) w pk := by
  obtain ⟨left, answer, marks⟩ := alone_claimTimers (due nowMs limit w) w (due_distinct nowMs limit w)
    fun t isDue => unfired_of_due isDue
  exact ⟨left, answer, marks⟩

/-- The first act of a listing reads, and each act behind it marks a timer. -/
theorem cut_listDueTimers (n : Nat) (nowMs limit : Int) (w : World) :
    (tape.cut n (RunStore.listDueTimers nowMs limit true).run w).timers.find? pk =
      marked ((due nowMs limit w).take (n - 1)) w pk := by
  cases n with
  | zero => simp [marked, System.cut]
  | succ n => exact cut_claimTimers n (due nowMs limit w) w

end Marking

/-! ## The actions -/

section Actions

variable {job : TimerJob} {w : World}

def KeepsTimers (act : Act) : Prop := ∀ w, (act.exec w).2.timers = w.timers

theorem housekeeping_keeps_timers (act : Act) (housekeeping : Housekeeping act) : KeepsTimers act := by
  cases housekeeping <;> exact fun _ => rfl

/-- No action touches the timers. -/
theorem all_fireTimer (job : TimerJob) (t : TimerRecord) : (fireTimer job t).run.All KeepsTimers := by
  have act (act : Act) (keeps : KeepsTimers act) : (Prog.perform act : Prog Act Act.Res _).All KeepsTimers :=
    ⟨keeps, fun _ => trivial⟩
  have housekeeping (act_ : Act) (isHousekeeping : Housekeeping act_) :=
    act act_ (housekeeping_keeps_timers act_ isHousekeeping)
  refine fireTimer_of (all_composable KeepsTimers) (fun x _ => all_external fun _ => rfl) ?_ ?_ ?_ ?_ t
  · intro runId key status responseJson errorJson ts _
    exact all_reconcileEffect housekeeping_keeps_timers (fun _ => rfl) fun _ => rfl
  · exact fun runId key => all_query fun _ => rfl
  · exact fun runId => all_query fun _ => rfl
  · intro runId app user session gateName resolutionJson ts
    exact sendSignal_of (all_composable KeepsTimers) housekeeping (fun _ => all_query fun _ => rfl)
      (fun _ => all_query fun _ => rfl) (fun _ => all_query fun _ => rfl) (all_query fun _ => rfl)

theorem timers_alone (job : TimerJob) (t : TimerRecord) (w : World) :
    (tape.alone (fireTimer job t).run w).2.timers = w.timers :=
  System.alone_of_all (S := tape) (I := fun w' => w'.timers = w.timers) (fun _ _ keeps same => (keeps _).trans same)
    (all_fireTimer job t) rfl

theorem timers_cut (job : TimerJob) (t : TimerRecord) (acts : Nat) (w : World) :
    (tape.cut acts (fireTimer job t).run w).timers = w.timers :=
  System.cut_of_all (S := tape) (I := fun w' => w'.timers = w.timers) (fun _ _ keeps same => (keeps _).trans same)
    (all_fireTimer job t) acts rfl

theorem timers_fireAll (job : TimerJob) (fates : List ActionFate) (timers : List TimerRecord) (w : World) :
    (fireAll job fates timers w).world.timers = w.timers := by
  induction timers generalizing fates w with
  | nil => cases fates <;> rfl
  | cons t rest inductionHypothesis =>
    rcases fates with _ | ⟨_ | acts | acts, fates⟩
    · rfl
    · exact (inductionHypothesis _ _).trans (timers_alone job t w)
    · exact (inductionHypothesis _ _).trans (timers_cut job t acts w)
    · exact timers_cut job t acts w

theorem completed_sub (job : TimerJob) (fates : List ActionFate) (timers : List TimerRecord) (w : World) :
    ∀ t ∈ (fireAll job fates timers w).completed, t ∈ timers := by
  induction timers generalizing fates w with
  | nil => cases fates <;> simp [fireAll]
  | cons t rest inductionHypothesis =>
    rcases fates with _ | ⟨_ | acts | acts, fates⟩
    · simp [fireAll]
    · intro other isCompleted
      simp only [fireAll] at isCompleted
      split at isCompleted
      · cases List.mem_cons.mp isCompleted with
        | inl same => exact same ▸ List.mem_cons_self
        | inr later => exact List.mem_cons_of_mem _ (inductionHypothesis _ _ other later)
      · exact List.mem_cons_of_mem _ (inductionHypothesis _ _ other isCompleted)
    · exact fun other isCompleted => List.mem_cons_of_mem _ (inductionHypothesis _ _ other isCompleted)
    · simp [fireAll]

/-- All are completed exactly if no action raises and the process does not go before the last. -/
theorem allComplete_iff (job : TimerJob) (fates : List ActionFate) (timers : List TimerRecord) (w : World)
    (distinct : timers.Nodup) :
    AllComplete job fates timers w ↔ ∀ t ∈ timers, t ∈ (fireAll job fates timers w).completed := by
  induction timers generalizing fates w with
  | nil => cases fates <;> simp [AllComplete]
  | cons t rest inductionHypothesis =>
    obtain ⟨absent, distinctRest⟩ := List.nodup_cons.mp distinct
    have unlisted (fates : List ActionFate) (w : World) : t ∉ (fireAll job fates rest w).completed := fun isCompleted =>
      absent (completed_sub job fates rest w t isCompleted)
    rcases fates with _ | ⟨_ | acts | acts, fates⟩
    · exact iff_of_false id fun all => List.not_mem_nil (all t List.mem_cons_self)
    · simp only [AllComplete, fireAll, inductionHypothesis _ _ distinctRest]
      by_cases done : (tape.alone (fireTimer job t).run w).1.isOk
      · simp only [done, true_and, if_true, List.mem_cons]
        constructor
        · exact fun all other isOther => isOther.imp_right (all other)
        · intro all other isOther
          cases all other (.inr isOther) with
          | inl same => exact absurd (same ▸ isOther) absent
          | inr later => exact later
      · simp [done, unlisted]
    · exact iff_of_false id fun all => unlisted _ _ (all t List.mem_cons_self)
    · exact iff_of_false id fun all => List.not_mem_nil (all t List.mem_cons_self)

/-! ## The process

What a tick leaves in which nothing fails is what the process leaves; and wherever the process is broken off, it leaves
what some tick leaves.
-/

theorem alone_swallow (action : SdkM Unit) (w : World) :
    tape.alone (swallow action).run w = (.ok (), (tape.alone action.run w).2) := tape.alone_bind action.run _ w

theorem world_fireAll (job : TimerJob) (timers : List TimerRecord) (w : World) :
    (fireAll job (timers.map fun _ => .runs) timers w).world = (tape.alone (fireTimers job timers).run w).2 := by
  induction timers generalizing w with
  | nil => rfl
  | cons t rest inductionHypothesis =>
    have first : tape.alone (swallow (fireTimer job t) >>= fun _ => fireTimers job rest).run w =
        tape.alone (fireTimers job rest).run (tape.alone (fireTimer job t).run w).2 :=
      System.alone_exceptBind tape (alone_swallow (fireTimer job t) w)
    exact (inductionHypothesis _).trans (congrArg Prod.snd first).symm

theorem cut_fireTimers (job : TimerJob) (timers : List TimerRecord) (n : Nat) (w : World) :
    ∃ fates, (fireAll job fates timers w).world = tape.cut n (fireTimers job timers).run w := by
  induction timers generalizing n w with
  | nil =>
    refine ⟨[], ?_⟩
    cases n <;> rfl
  | cons t rest inductionHypothesis =>
    have returns : ∀ value : Except Status Unit, ∃ result,
        ((fun _ => .ret (.ok ())) value : Prog Act Act.Res (Except Status Unit)) = .ret result := fun _ => ⟨_, rfl⟩
    cases cut_bind (swallow (fireTimer job t)).run (ExceptT.bindCont fun _ => fireTimers job rest) n w with
    | inl inside => exact ⟨[.crashes n], ((cut_bind_of_ret returns n w).symm.trans inside.symm)⟩
    | inr behind =>
      obtain ⟨m, later⟩ := behind
      rw [alone_swallow] at later
      obtain ⟨fates, left⟩ := inductionHypothesis m (tape.alone (fireTimer job t).run w).2
      exact ⟨.runs :: fates, left.trans later.symm⟩

end Actions

/-! ## What is lost -/

section Ticks

variable {job : TimerJob} {listing : Fate} {fates : List ActionFate} {w : World}

/-- The timers that the listing of a tick marks fired. -/
def claims (job : TimerJob) (listing : Fate) (w : World) : List TimerRecord :=
  match listing with
  | .answered => due job.now 500 w
  | .failed acts => (due job.now 500 w).take (acts - 1)

theorem claims_sub {t : TimerRecord} (isClaimed : t ∈ claims job listing w) : t ∈ due job.now 500 w := by
  cases listing with
  | answered => exact isClaimed
  | failed acts => exact List.mem_of_mem_take isClaimed

/-- A tick leaves its timers marked, whatever became of the actions. -/
theorem find?_tick (job : TimerJob) (listing : Fate) (fates : List ActionFate) (w : World) (pk : String × String) :
    (tick job listing fates w).world.timers.find? pk = marked (claims job listing w) w pk := by
  cases listing with
  | answered =>
    obtain ⟨left, answer, marks⟩ := alone_listDueTimers job.now 500 w
    simp only [tick, Fate.reply, answer, Except.toOption, timers_fireAll]
    exact marks pk
  | failed acts => exact cut_listDueTimers acts job.now 500 w

/-- The client's listing. -/
theorem alone_listing (nowMs : Int) (w : World) :
    ∃ left, tape.alone (RunStore.listDueTimers nowMs 500 true).run w = (.ok ((due nowMs 500 w).map asFired), left) ∧
      tape.alone (Client.listDueTimers nowMs 500 true).run w = (.ok ((due nowMs 500 w).map asFired), left) := by
  obtain ⟨left, answer, -⟩ := alone_listDueTimers nowMs 500 w
  refine ⟨left, answer, (tape.alone_bind _ _ w).trans ?_⟩
  rw [if_pos (by decide), answer]
  rfl

/-- The process, undisturbed. -/
theorem world_tick (job : TimerJob) (w : World) :
    (tick job .answered ((due job.now 500 w).map fun _ => .runs) w).world = (tape.alone (fireDueTimersOnce job).run w).2 := by
  obtain ⟨left, answer, listed⟩ := alone_listing job.now w
  have behind : tape.alone (Client.listDueTimers job.now 500 true >>= fun timers => fireTimers job timers).run w =
      tape.alone (fireTimers job ((due job.now 500 w).map asFired)).run left := System.alone_exceptBind tape listed
  refine Eq.trans ?_ (congrArg Prod.snd behind).symm
  rw [← world_fireAll, List.map_map]
  simp only [tick, Fate.reply, answer, Except.toOption]
  rfl

/-- The process, broken off. -/
theorem cut_fireDueTimersOnce (job : TimerJob) (n : Nat) (w : World) :
    ∃ listing fates, (tick job listing fates w).world = tape.cut n (fireDueTimersOnce job).run w := by
  obtain ⟨left, answer, listed⟩ := alone_listing job.now w
  have listing_cut : tape.cut n (Client.listDueTimers job.now 500 true).run w =
      tape.cut n (RunStore.listDueTimers job.now 500 true).run w :=
    cut_bind_of_ret (fun value => by cases value <;> exact ⟨_, rfl⟩) n w
  cases cut_bind (Client.listDueTimers job.now 500 true).run (ExceptT.bindCont fun timers => fireTimers job timers) n w with
  | inl inside => exact ⟨.failed n, [], listing_cut.symm.trans inside.symm⟩
  | inr behind =>
    obtain ⟨m, later⟩ := behind
    rw [listed] at later
    obtain ⟨fates, left_⟩ := cut_fireTimers job ((due job.now 500 w).map asFired) m left
    refine ⟨.answered, fates, ?_⟩
    simp only [tick, Fate.reply, answer, Except.toOption]
    exact left_.trans later.symm

/-- A tick is unbroken exactly if the action of every timer that it marks completes. -/
theorem unbroken_iff (job : TimerJob) (listing : Fate) (fates : List ActionFate) (w : World) :
    Unbroken job listing fates w ↔
      ∀ t ∈ claims job listing w, asFired t ∈ (tick job listing fates w).completed := by
  cases listing with
  | answered =>
    obtain ⟨left, answer, -⟩ := alone_listDueTimers job.now 500 w
    have distinct : ((due job.now 500 w).map asFired).Nodup := by
      refine List.Nodup.of_map TimerRecord.pk ?_
      rw [List.map_map]
      exact due_distinct job.now 500 w
    simp only [Unbroken, tick, claims, Fate.reply, answer, Except.toOption, allComplete_iff _ _ _ _ distinct,
      List.forall_mem_map]
  | failed acts =>
    have nothing : (tick job (.failed acts) fates w).completed = [] := rfl
    rw [nothing, Unbroken, claims]
    simp only [List.not_mem_nil, imp_false, ← List.eq_nil_iff_forall_not_mem, List.take_eq_nil_iff]
    constructor
    · rintro (few | none_)
      · exact .inl (by omega)
      · exact .inr none_
    · rintro (few | none_)
      · exact .inl (by omega)
      · exact .inr none_

/-- A listing that asks for as many timers as there are leaves none out. -/
theorem mem_due {nowMs limit : Int} {t : TimerRecord} (found : w.timers.find? t.pk = some t) (unfired : t.fired = false)
    (isDue : t.fireAtMs ≤ nowMs) (enough : (w.timers.rows.length : Int) ≤ limit) : t ∈ due nowMs limit w := by
  have listed : t ∈ orderBy TimerRecord.fireAtMs (w.timers.rows.filter fun row => !row.fired && row.fireAtMs ≤ nowMs) := by
    refine (List.mem_insertionSort _).mpr (List.mem_filter.mpr ⟨Table.mem_of_find? found, ?_⟩)
    simp [unfired, isDue]
  have short : (orderBy TimerRecord.fireAtMs
      (w.timers.rows.filter fun row => !row.fired && row.fireAtMs ≤ nowMs)).length ≤ (max limit 1).toNat := by
    have filtered := List.length_filter_le (fun row => !row.fired && row.fireAtMs ≤ nowMs) w.timers.rows
    rw [orderBy, List.length_insertionSort]
    omega
  rw [due, limitRows, if_neg (by omega), List.take_of_length_le short]
  exact listed

/-- A timer whose action fails is lost: what is due is returned again after every tick exactly if no action raises and
    the process does not go before the last one, or if nothing was marked. -/
theorem timers_not_lost_iff (job : TimerJob) (listing : Fate) (fates : List ActionFate) (w : World) :
    NotLost job listing fates w ↔ Unbroken job listing fates w := by
  rw [unbroken_iff]
  constructor
  · intro notLost t isClaimed
    by_contra incomplete
    obtain ⟨found, unfired⟩ := unfired_of_due (claims_sub isClaimed)
    obtain ⟨isRow, selected⟩ := List.mem_filter.mp (mem_of_mem_orderBy (mem_of_mem_limitRows (claims_sub isClaimed)))
    simp only [Bool.and_eq_true, decide_eq_true_eq] at selected
    obtain ⟨records, answer, returned⟩ := notLost t isRow unfired selected.2 incomplete job.now _ le_rfl le_rfl
    obtain ⟨left, answer', -⟩ := alone_listDueTimers job.now
      ((tick job listing fates w).world.timers.rows.length : Int) (tick job listing fates w).world
    rw [answer', Except.ok.injEq] at answer
    rw [← answer, List.mem_map] at returned
    obtain ⟨other, isDue, same⟩ := returned
    -- the row under its key is marked, and a listing returns rows that are not
    obtain ⟨otherFound, otherUnfired⟩ := unfired_of_due isDue
    have samePk : (asFired other).pk = (asFired t).pk := congrArg TimerRecord.pk same
    rw [show other.pk = t.pk from samePk, find?_tick, marked, if_pos (List.mem_map_of_mem isClaimed), found] at otherFound
    rw [← Option.some.inj otherFound] at otherUnfired
    cases otherUnfired
  · intro complete t isRow unfired isDue incomplete nowMs limit later enough
    have unclaimed : t.pk ∉ (claims job listing w).map TimerRecord.pk := by
      intro isClaimed
      obtain ⟨other, otherClaimed, same⟩ := List.mem_map.mp isClaimed
      have otherFound := (unfired_of_due (claims_sub otherClaimed)).1
      rw [same, Table.find?_key_of_mem isRow] at otherFound
      rw [← Option.some.inj otherFound] at otherClaimed
      exact incomplete (complete t otherClaimed)
    have found : (tick job listing fates w).world.timers.find? t.pk = some t := by
      rw [find?_tick, marked, if_neg unclaimed]
      exact Table.find?_key_of_mem isRow
    obtain ⟨left, answer, -⟩ := alone_listDueTimers nowMs limit (tick job listing fates w).world
    refine ⟨_, congrArg Prod.fst answer, List.mem_map_of_mem ?_⟩
    exact mem_due found unfired (isDue.trans later) enough

end Ticks

/-! ## A gate that stays shut -/

/-- A run that waits at a gate, with a timer that is to open it at 1000. -/
def parked : World :=
  (tape.run (quiet .empty) (serve 0 (.beginRun 0 "app" "user" "s" "inv-1" {} "A" 60000 1 "r") ++
    serve 1 (.awaitSignal "r" "approval" "{}" 2) ++
    serve 2 (.setTimer "r" "t-1" 1000 "gate_timeout" (.obj [("gate", .str "approval")]) 3 ""))).state

def at1000 : TimerJob where
  now := 1000
  recordAt _ := 1000

/-- The signal of the timeout cannot be sent: the timer is spent, and the run waits on. -/
theorem gate_timeout_lost : ¬ NotLost at1000 .answered [.raises 0] parked ∧
    ((tick at1000 .answered [.raises 0] parked).world.runs.find? "r").map RunRow.waitingOnGate = some "approval" := by
  refine ⟨fun notLost => ?_, by decide +kernel⟩
  have timer : ∃ t ∈ parked.timers.rows, (t.fired = false ∧ t.fireAtMs ≤ 1000) ∧
      (tick at1000 .answered [.raises 0] parked).completed = [] := by decide +kernel
  obtain ⟨t, isRow, ⟨unfired, isDue⟩, nothing⟩ := timer
  obtain ⟨records, answer, returned⟩ := notLost t isRow unfired isDue (by simp [nothing]) 1000 1 le_rfl (by decide +kernel)
  have none_due : (due 1000 1 (tick at1000 .answered [.raises 0] parked).world).length = 0 := by decide +kernel
  obtain ⟨left, answer', -⟩ := alone_listDueTimers 1000 1 (tick at1000 .answered [.raises 0] parked).world
  rw [answer', Except.ok.injEq, List.length_eq_zero_iff.mp none_due] at answer
  rw [← answer] at returned
  cases returned

end Tape.Timer
