import Tape.Queue.Poison
import Tape.Sdk.Plugin
import Tape.Sequential

/-! # The dispatcher and its debouncer

`reactions.py`: `run_dispatcher` claims the tasks of a reaction, and `_dispatch_one` hands each to a worker,
or completes it without running the handler when the debouncer has allowed its subject a short while ago.
The debouncer remembers the subject and the time, and not whose attempt it was: a task that failed and is
handed out again within the window is held off by its own attempt, and completed.
-/

namespace Tape.Sdk

open Interleave Tape.Sequential

/-! ## The debouncer -/

/-- What the dispatcher reads of a `ReactionDef`, and what it was started with. -/
structure ReactionDef where
  serverReactionId : String
  debounceMs : Int := 0
  dlqAfterN : Int := 5
  owner : String
  claimMax : Int := 16
  leaseMs : Int := 60000

/-- `_Debouncer`.  Times are exact nanoseconds of the monotonic clock; the source has them in seconds, as floats, so a
    call at the very end of the window may be rounded to either side of it. -/
structure Debouncer where
  window : Int
  last : String → Option Int

namespace Debouncer

def init (windowMs : Int) : Debouncer where
  window := max 0 windowMs * 1000000
  last := fun _ => none

def allow (subject : String) (now : Int) (d : Debouncer) : Bool × Debouncer :=
  if d.window ≤ 0 then (true, d)
  else
    let last := (d.last subject).getD (-1)
    if last < 0 ∨ d.window ≤ now - last then (true, { d with last := Function.update d.last subject (some now) })
    else (false, d)

end Debouncer

/-! ## The dispatcher -/

inductive DispatcherEvent where
  /-- The debouncer allowed the task, which goes to a worker. -/
  | allowed (task : Task) (now : Nat)
  /-- The handler returned normally for the task. -/
  | returned (task : Task)
  | raised (task : Task)
  /-- `complete_task` was called. -/
  | completed (task : Task) (now : Nat)

/-- The dispatcher of one reaction, and the server's database. -/
structure Dispatcher where
  world : World
  clock : Nat
  debouncer : Debouncer
  /-- The rest of the batch that was claimed. -/
  batch : List Task
  /-- The tasks that were submitted to the executor. -/
  submitted : List Task
  /-- Newest first. -/
  log : List DispatcherEvent

namespace Dispatcher

def start (rd : ReactionDef) (w : World) (clock : Nat) : Dispatcher where
  world := w
  clock := clock
  debouncer := .init rd.debounceMs
  batch := []
  submitted := []
  log := []

/-- `claim_tasks`, once the batch is worked off; a failed claim is tried again. -/
def claimTasks (rd : ReactionDef) (serverNow : Int) (fate : Fate) (s : Dispatcher) : Dispatcher :=
  if s.batch.isEmpty then
    match fate.reply (RunStore.claimTasks rd.serverReactionId (-1) rd.owner rd.leaseMs rd.claimMax 0 serverNow) s.world with
    | (some tasks, w) => { s with world := w, batch := tasks }
    | (none, w) => { s with world := w }
  else s

/-- `complete_task`; the client learns whether the server marked the task `DONE`. -/
def complete (rd : ReactionDef) (task : Task) (ts : Int) (fate : Fate) (s : Dispatcher) : Bool × Dispatcher :=
  match fate.reply (RunStore.completeTask task.taskId rd.owner ts) s.world with
  | (some (some _), w) => (true, { s with world := w, log := .completed task s.clock :: s.log })
  | (_, w) => (false, { s with world := w, log := .completed task s.clock :: s.log })

/-- `nack_task`; when it fails nothing more is done. -/
def nack (rd : ReactionDef) (task : Task) (error : String) (serverNow : Int) (fate : Fate) (s : Dispatcher) : Dispatcher :=
  { s with world := (fate.reply (RunStore.nackTask task.taskId rd.owner error (rd.dlqAfterN ≤ task.attempts) serverNow
      serverNow) s.world).2 }

/-- `_dispatch_one`, on the next task of the batch. -/
def dispatchOne (rd : ReactionDef) (elapsed : Nat) (ts : Int) (fate : Fate) (s : Dispatcher) : Dispatcher :=
  match s.batch with
  | [] => s
  | task :: rest =>
    let now := s.clock + elapsed
    match s.debouncer.allow task.subject now with
    | (true, d) =>
      { s with
        clock := now, debouncer := d, batch := rest, submitted := s.submitted ++ [task]
        log := .allowed task now :: s.log }
    | (false, d) => (complete rd task ts fate { s with clock := now, debouncer := d, batch := rest }).2

/-- What became of a handler, and of the RPCs after it. -/
structure Work where
  /-- The exception the handler raised. -/
  raised : Option String := none
  completeAt : Int := 0
  completeFate : Fate := .answered
  nackAt : Int := 0
  nackFate : Fate := .answered

/-- `_work`, on a task that was submitted: a `complete_task` that raises is nacked like a failed handler. -/
def work (rd : ReactionDef) (i : Nat) (o : Work) (s : Dispatcher) : Dispatcher :=
  match s.submitted[i]? with
  | none => s
  | some task =>
    let s := { s with submitted := s.submitted.eraseIdx i }
    match o.raised with
    | some error => nack rd task error o.nackAt o.nackFate { s with log := .raised task :: s.log }
    | none =>
      match complete rd task o.completeAt o.completeFate { s with log := .returned task :: s.log } with
      | (true, s) => s
      | (false, s) => nack rd task "RpcError" o.nackAt o.nackFate s

inductive Move where
  | claim (serverNow : Int) (fate : Fate)
  | dispatch (elapsed : Nat) (ts : Int) (fate : Fate)
  | work (i : Nat) (o : Work)
  /-- Other processes change the database. -/
  | others (w : World)

def take (rd : ReactionDef) (s : Dispatcher) : Move → Dispatcher
  | .claim serverNow fate => s.claimTasks rd serverNow fate
  | .dispatch elapsed ts fate => s.dispatchOne rd elapsed ts fate
  | .work i o => s.work rd i o
  | .others w => { s with world := w }

end Dispatcher

/-! ## What is completed was done -/

section Honest

variable (rd : ReactionDef)

/-- `debounce_ms`, on the monotonic clock. -/
def ReactionDef.debounce : Int := max 0 rd.debounceMs * 1000000

/-- The handler returned normally for the task. -/
def handled (task : Task) : List DispatcherEvent → Bool
  | [] => false
  | .returned other :: older => other.taskId = task.taskId || handled task older
  | _ :: older => handled task older

/-- The handler was allowed for another task of the subject, less than `debounce_ms` ago. -/
def coveredByOther (task : Task) (now : Nat) : List DispatcherEvent → Bool
  | [] => false
  | .allowed other then_ :: older =>
    (other.subject = task.subject && other.taskId ≠ task.taskId && now < then_ + rd.debounce) ||
      coveredByOther task now older
  | _ :: older => coveredByOther task now older

/-- Whatever was completed was handled, or covered by another task of its subject. -/
def Honest : List DispatcherEvent → Prop
  | [] => True
  | .completed task now :: older => (handled task older ∨ coveredByOther rd task now older) ∧ Honest older
  | _ :: older => Honest older

instance Honest.decidable : (log : List DispatcherEvent) → Decidable (Honest rd log)
  | [] => isTrue trivial
  | .completed _ _ :: older => @instDecidableAnd _ _ inferInstance (Honest.decidable older)
  | .allowed .. :: older | .returned _ :: older | .raised _ :: older => Honest.decidable older

/-- The task that the debouncer allowed last of the subject, and when. -/
def lastAllowed (subject : String) : List DispatcherEvent → Option (Task × Nat)
  | [] => none
  | .allowed task now :: older => if task.subject = subject then some (task, now) else lastAllowed subject older
  | _ :: older => lastAllowed subject older

/-- The task comes back less than `debounce_ms` after it was itself the last of its subject to be allowed, and
    its handler has not returned. -/
def ComesBack (s : Dispatcher) : Dispatcher.Move → Prop
  | .dispatch elapsed _ _ => ∃ task ∈ s.batch.head?, ∃ last ∈ lastAllowed task.subject s.log,
      last.1.taskId = task.taskId ∧ ((s.clock + elapsed : Nat) : Int) < last.2 + rd.debounce ∧ handled task s.log = false
  | _ => False

end Honest

/-! ## What the debouncer remembers -/

section Debouncer

variable {rd : ReactionDef}

theorem debounce_nonneg : 0 ≤ rd.debounce := by
  unfold ReactionDef.debounce
  omega

/-- Tasks of a subject are allowed at least `debounce_ms` apart. -/
def Spaced (rd : ReactionDef) : List DispatcherEvent → Prop
  | [] => True
  | .allowed task now :: older => (∀ last ∈ lastAllowed task.subject older, last.2 + rd.debounce ≤ now) ∧ Spaced rd older
  | _ :: older => Spaced rd older

/-- Of the tasks of the subject only the last one can have been allowed within the window. -/
theorem covered_iff {task : Task} {now : Nat} {log : List DispatcherEvent} (spaced : Spaced rd log)
    (past : ∀ last ∈ lastAllowed task.subject log, last.2 ≤ now) :
    coveredByOther rd task now log ↔
      ∃ last ∈ lastAllowed task.subject log, last.1.taskId ≠ task.taskId ∧ (now : Int) < last.2 + rd.debounce := by
  induction log with
  | nil => simp [coveredByOther, lastAllowed]
  | cons event older inductionHypothesis =>
    cases event with
    | returned | raised | completed => exact inductionHypothesis spaced past
    | allowed other then_ =>
      by_cases same : other.subject = task.subject
      · have isLast : lastAllowed task.subject (.allowed other then_ :: older) = some (other, then_) := if_pos same
        have recent : then_ ≤ now := past (other, then_) (by rw [isLast]; rfl)
        have before : ∀ last ∈ lastAllowed task.subject older, last.2 + rd.debounce ≤ then_ := same ▸ spaced.1
        have nonneg := @debounce_nonneg rd
        have earlier := inductionHypothesis spaced.2 fun last member => by
          have apart := before last member
          omega
        -- an earlier one is a whole window older than the last
        have none_ : coveredByOther rd task now older = false := by
          rw [Bool.eq_false_iff, ne_eq, earlier]
          rintro ⟨last, member, -, within⟩
          have apart := before last member
          omega
        simp [coveredByOther, isLast, same, none_]
      · have isLast : lastAllowed task.subject (.allowed other then_ :: older) = lastAllowed task.subject older :=
          if_neg same
        rw [isLast] at past ⊢
        simpa [coveredByOther, same] using inductionHypothesis spaced.2 past

/-- The debouncer knows of each subject when a task of it was allowed last. -/
structure Tracks (rd : ReactionDef) (s : Dispatcher) : Prop where
  window : s.debouncer.window = rd.debounce
  last : 0 < rd.debounce → ∀ subject, s.debouncer.last subject = (lastAllowed subject s.log).map fun last => (last.2 : Int)
  past : ∀ subject, ∀ last ∈ lastAllowed subject s.log, last.2 ≤ s.clock
  spaced : Spaced rd s.log

theorem tracks_start (rd : ReactionDef) (w : World) (clock : Nat) : Tracks rd (.start rd w clock) where
  window := rfl
  last _ _ := rfl
  past _ _ member := by cases member
  spaced := trivial

/-- What is no attempt changes nothing of it. -/
theorem Tracks.of_same {s s' : Dispatcher} (tracks : Tracks rd s) (debouncer : s'.debouncer = s.debouncer)
    (later : s.clock ≤ s'.clock) (known : ∀ subject, lastAllowed subject s'.log = lastAllowed subject s.log)
    (spaced : Spaced rd s.log → Spaced rd s'.log) : Tracks rd s' where
  window := by rw [debouncer, tracks.window]
  last positive subject := by rw [debouncer, known, tracks.last positive]
  past subject last member := by
    rw [known] at member
    exact (tracks.past subject last member).trans later
  spaced := spaced tracks.spaced

/-- The debouncer allows a task exactly if the last one of its subject is a window ago. -/
theorem Tracks.allow_cases {s : Dispatcher} (tracks : Tracks rd s) (subject : String) {now : Nat} (later : s.clock ≤ now) :
    (∃ d, s.debouncer.allow subject now = (true, d) ∧ d.window = rd.debounce ∧
        (0 < rd.debounce → d.last = Function.update s.debouncer.last subject (some (now : Int))) ∧
        ∀ last ∈ lastAllowed subject s.log, last.2 + rd.debounce ≤ now) ∨
      (s.debouncer.allow subject now = (false, s.debouncer) ∧
        ∃ last ∈ lastAllowed subject s.log, (now : Int) < last.2 + rd.debounce) := by
  have nonneg := @debounce_nonneg rd
  unfold Debouncer.allow
  rw [tracks.window]
  by_cases off : rd.debounce ≤ 0
  · rw [if_pos off]
    refine .inl ⟨s.debouncer, rfl, tracks.window, fun positive => by omega, fun last member => ?_⟩
    have before := tracks.past subject last member
    omega
  · rw [if_neg off, tracks.last (by omega) subject]
    cases known : lastAllowed subject s.log with
    | none => exact .inl ⟨_, if_pos (by simp), rfl, fun _ => rfl, fun last member => by cases member⟩
    | some last =>
      simp only [Option.map_some, Option.getD_some]
      by_cases apart : rd.debounce ≤ now - last.2
      · refine .inl ⟨_, if_pos (.inr apart), rfl, fun _ => rfl, fun other member => ?_⟩
        obtain rfl := Option.some.inj member
        omega
      · refine .inr ⟨if_neg ?_, last, rfl, by omega⟩
        omega

end Debouncer

/-! ## Moves -/

section Moves

variable {rd : ReactionDef} {s : Dispatcher}

theorem complete_log (rd : ReactionDef) (task : Task) (ts : Int) (fate : Fate) (s : Dispatcher) :
    (s.complete rd task ts fate).2.log = .completed task s.clock :: s.log ∧
      (s.complete rd task ts fate).2.clock = s.clock ∧ (s.complete rd task ts fate).2.debouncer = s.debouncer := by
  unfold Dispatcher.complete
  split <;> exact ⟨rfl, rfl, rfl⟩

theorem claimTasks_same (rd : ReactionDef) (serverNow : Int) (fate : Fate) (s : Dispatcher) :
    (s.claimTasks rd serverNow fate).log = s.log ∧ (s.claimTasks rd serverNow fate).clock = s.clock ∧
      (s.claimTasks rd serverNow fate).debouncer = s.debouncer := by
  unfold Dispatcher.claimTasks
  split
  · split <;> exact ⟨rfl, rfl, rfl⟩
  · exact ⟨rfl, rfl, rfl⟩

/-- A worker's handler raises, or returns before the task is completed. -/
theorem work_log (rd : ReactionDef) (i : Nat) (o : Dispatcher.Work) (s : Dispatcher) :
    ((s.work rd i o).log = s.log ∨ (∃ task, (s.work rd i o).log = .raised task :: s.log) ∨
        ∃ task, (s.work rd i o).log = .completed task s.clock :: .returned task :: s.log) ∧
      (s.work rd i o).clock = s.clock ∧ (s.work rd i o).debouncer = s.debouncer := by
  unfold Dispatcher.work
  split
  next => exact ⟨.inl rfl, rfl, rfl⟩
  next task _ =>
    simp only
    split
    next => exact ⟨.inr (.inl ⟨task, rfl⟩), rfl, rfl⟩
    next =>
      have done := complete_log rd task o.completeAt o.completeFate
        { s with submitted := s.submitted.eraseIdx i, log := .returned task :: s.log }
      split
      next _ left completed =>
        rw [completed] at done
        exact ⟨.inr (.inr ⟨task, done.1⟩), done.2⟩
      next _ left completed =>
        rw [completed] at done
        exact ⟨.inr (.inr ⟨task, done.1⟩), done.2⟩

/-- The next task goes to a worker, or is completed because a task of its subject was allowed a short while ago. -/
theorem dispatchOne_cases (tracks : Tracks rd s) (elapsed : Nat) (ts : Int) (fate : Fate) {task : Task} {rest : List Task}
    (next : s.batch = task :: rest) :
    let s' := s.dispatchOne rd elapsed ts fate
    s'.clock = s.clock + elapsed ∧
      ((s'.log = .allowed task (s.clock + elapsed) :: s.log ∧ s'.debouncer.window = rd.debounce ∧
          (0 < rd.debounce → s'.debouncer.last =
            Function.update s.debouncer.last task.subject (some ((s.clock + elapsed : Nat) : Int))) ∧
          ∀ last ∈ lastAllowed task.subject s.log, last.2 + rd.debounce ≤ (s.clock + elapsed : Nat)) ∨
        (s'.log = .completed task (s.clock + elapsed) :: s.log ∧ s'.debouncer = s.debouncer ∧
          ∃ last ∈ lastAllowed task.subject s.log, ((s.clock + elapsed : Nat) : Int) < last.2 + rd.debounce)) := by
  simp only [Dispatcher.dispatchOne, next]
  cases tracks.allow_cases task.subject (Nat.le_add_right s.clock elapsed) with
  | inl allowed =>
    obtain ⟨d, isAllowed, window, last, apart⟩ := allowed
    simp only [isAllowed]
    exact ⟨trivial, .inl ⟨trivial, window, last, apart⟩⟩
  | inr held =>
    obtain ⟨isHeld, within⟩ := held
    simp only [isHeld]
    obtain ⟨log, clock, debouncer⟩ := complete_log rd task ts fate
      { s with clock := s.clock + elapsed, debouncer := s.debouncer, batch := rest }
    exact ⟨clock, .inr ⟨log, debouncer, within⟩⟩

theorem Tracks.take (tracks : Tracks rd s) (move : Dispatcher.Move) : Tracks rd (s.take rd move) := by
  cases move with
  | others w => exact tracks.of_same rfl le_rfl (fun _ => rfl) id
  | claim serverNow fate =>
    obtain ⟨log, clock, debouncer⟩ := claimTasks_same rd serverNow fate s
    exact tracks.of_same debouncer clock.ge (fun subject => congrArg (lastAllowed subject) log)
      (congrArg (Spaced rd) log).mpr
  | work i o =>
    obtain ⟨log, clock, debouncer⟩ := work_log rd i o s
    -- working on a task logs no allowance
    have same : (∀ subject, lastAllowed subject (s.work rd i o).log = lastAllowed subject s.log) ∧
        (Spaced rd s.log → Spaced rd (s.work rd i o).log) := by
      rcases log with log | ⟨task, log⟩ | ⟨task, log⟩ <;> rw [log] <;> exact ⟨fun _ => rfl, id⟩
    exact tracks.of_same debouncer clock.ge same.1 same.2
  | dispatch elapsed ts fate =>
    cases next : s.batch with
    | nil =>
      have stays : s.dispatchOne rd elapsed ts fate = s := by simp only [Dispatcher.dispatchOne, next]
      rw [Dispatcher.take, stays]
      exact tracks
    | cons task rest =>
      -- the debouncer lets the subject through, and notes when; or it holds the task back
      obtain ⟨clock, ⟨log, window, last, apart⟩ | ⟨log, debouncer, -⟩⟩ := dispatchOne_cases tracks elapsed ts fate next
      · constructor
        · exact window
        · intro positive subject
          rw [Dispatcher.take, last positive, log]
          by_cases own : subject = task.subject
          · subst own
            simp [lastAllowed]
          · rw [Function.update_of_ne own, tracks.last positive]
            simp [lastAllowed, Ne.symm own]
        · intro subject other member
          rw [Dispatcher.take, log] at member
          rw [Dispatcher.take, clock]
          simp only [lastAllowed] at member
          split at member
          · obtain rfl := Option.some.inj member
            exact le_rfl
          · exact (tracks.past subject other member).trans (Nat.le_add_right _ _)
        · rw [Dispatcher.take, log]
          exact ⟨apart, tracks.spaced⟩
      · exact tracks.of_same debouncer (clock.symm ▸ Nat.le_add_right _ _)
          (fun subject => (congrArg (lastAllowed subject) log).trans rfl) (congrArg (Spaced rd) log).mpr

/-- A move keeps the dispatcher honest exactly if it does not bring back a task that was allowed a short while ago. -/
theorem honest_take (tracks : Tracks rd s) (move : Dispatcher.Move) :
    Honest rd (s.take rd move).log ↔ Honest rd s.log ∧ ¬ ComesBack rd s move := by
  cases move with
  | others w => exact (and_iff_left not_false).symm
  | claim serverNow fate =>
    rw [Dispatcher.take, (claimTasks_same rd serverNow fate s).1]
    exact (and_iff_left not_false).symm
  | work i o =>
    refine Iff.trans ?_ (and_iff_left not_false).symm
    rw [Dispatcher.take]
    rcases (work_log rd i o s).1 with log | ⟨task, log⟩ | ⟨task, log⟩
    · rw [log]
    · rw [log]
      exact Iff.rfl
    · rw [log]
      exact and_iff_right (.inl (by simp [handled]))
  | dispatch elapsed ts fate =>
    cases next : s.batch with
    | nil =>
      have stays : s.dispatchOne rd elapsed ts fate = s := by simp only [Dispatcher.dispatchOne, next]
      rw [Dispatcher.take, stays]
      refine (and_iff_left ?_).symm
      rintro ⟨task, member, -⟩
      simp [next] at member
    | cons task rest =>
      have comesBack : ComesBack rd s (.dispatch elapsed ts fate) ↔ ∃ last ∈ lastAllowed task.subject s.log,
          last.1.taskId = task.taskId ∧ ((s.clock + elapsed : Nat) : Int) < last.2 + rd.debounce ∧
            handled task s.log = false := by
        simp [ComesBack, next]
      -- whatever was allowed was allowed before now
      have past : ∀ last ∈ lastAllowed task.subject s.log, last.2 ≤ s.clock + elapsed :=
        fun last member => (tracks.past _ last member).trans (Nat.le_add_right _ _)
      rw [comesBack, Dispatcher.take]
      obtain ⟨-, ⟨log, -, -, apart⟩ | ⟨log, -, last, known, within⟩⟩ := dispatchOne_cases tracks elapsed ts fate next
      · rw [log]
        refine (and_iff_left ?_).symm
        rintro ⟨last, member, -, within, -⟩
        -- a task that is let through is not inside the window
        have old := apart last member
        omega
      · rw [log]
        refine (and_comm.trans (and_congr_right fun _ => ?_))
        -- a task that is held back is completed: another one has to stand for it
        rw [covered_iff tracks.spaced past]
        rw [Option.mem_def] at known
        simp only [known, Option.mem_def, Option.some.injEq, exists_eq_left']
        cases handled task s.log with
        | true => simp
        | false =>
          have held : ((s.clock + elapsed : Nat) : Int) < last.2 + rd.debounce := within
          simp only [Bool.false_eq_true, false_or, and_true, held]

end Moves

/-- A dispatcher completes only what was done, or what another task of the subject stands for, exactly as long as
    no task comes back to it while its own attempt still holds its subject off. -/
theorem debounced_work_done_iff (rd : ReactionDef) (w : World) (clock : Nat) (moves : List Dispatcher.Move) :
    Honest rd (run (Dispatcher.take rd) (.start rd w clock) moves).log ↔
      Along (Dispatcher.take rd) (fun s move => ¬ ComesBack rd s move) (.start rd w clock) moves :=
  (run_iff_along (I := Tracks rd) (P := fun s => Honest rd s.log) (fun _ move tracks => tracks.take move)
    (fun _ move tracks => honest_take tracks move) (tracks_start rd w clock) moves).trans (and_iff_right trivial)

/-! ## A retry inside the window -/

/-- The reaction is debounced for five seconds; the server retries a failed task after one. -/
def alertWorld : World :=
  (tape.run (quiet (World.empty .sqlite))
    (serve 0 (.registerReaction { Queue.alertReaction with debounceMs := 5000, dlqAfterN := 5 } false 1 "") ++
      serve 1 (.createTask Queue.alertTask 10 "t"))).state

def alertDef : ReactionDef := { serverReactionId := "alert", debounceMs := 5000, owner := "dispatcher" }

/-- The handler fails, and the server hands the task out again one and a half seconds later. -/
def failedOnce : List Dispatcher.Move :=
  [.claim 1000 .answered, .dispatch 0 1000 .answered, .work 0 { raised := some "ConnectionError: refused", nackAt := 1010 },
    .claim 2500 .answered, .dispatch 1500000000 2500 .answered]

/-- The task ends `DONE`, and no handler has ever returned for it. -/
theorem failed_task_dropped :
    ¬ Honest alertDef (run (Dispatcher.take alertDef) (.start alertDef alertWorld 0) failedOnce).log ∧
      ((run (Dispatcher.take alertDef) (.start alertDef alertWorld 0) failedOnce).world.tasks.find? "t").map Task.status =
        some TaskStatus.done.code := by
  decide +kernel

end Tape.Sdk
