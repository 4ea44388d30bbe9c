import Tape.Bigtable.Table
import Tape.Interleave.Rely

/-! # Programs on a table

A machine executes single-row operations on a table for the threads of a pool.  A request can also fail, and
then it has done nothing.  What one thread has read of a row is what the row holds until somebody writes it:
`read_of_calm`.
-/

namespace Tape.Bigtable

open Interleave

variable {ε ι : Type} {Out : ι → Type}

/-- What a request comes back with. -/
abbrev Answer (ε : Type) (op : Op) : Type := Except ε op.Res

def machine (failed : ε) (body : (call : ι) → Prog Op (Answer ε) (Out call)) : System Contents Op (Answer ε) ι Out where
  exec op c := (.ok (op.exec c).1, (op.exec c).2)
  fault _ := some (.error failed)
  body := body

section Answers

variable {failed : ε} {body : (call : ι) → Prog Op (Answer ε) (Out call)} {op : Op} {s c : Contents} {res : Answer ε op}

/-- An answer is that of the table, or the request failed and nothing changed. -/
theorem machine_answers (answers : (machine failed body).Answers op s res c) :
    res = .ok (op.exec s).1 ∧ c = (op.exec s).2 ∨ res = .error failed ∧ c = s := by
  cases answers with
  | exec => exact .inl ⟨rfl, rfl⟩
  | fault failure => exact .inr ⟨(Option.some.inj failure).symm, rfl⟩

end Answers

/-! ## Reads and writes of a row -/

/-- What a read of the row was answered. -/
def readOf (key : String) : Event Op (Answer ε) → Option (Option RowMap)
  | ⟨_, .readRow k, .ok row⟩ => if k = key then some row else none
  | _ => none

/-- The event has written the row. -/
def writes (key : String) : Event Op (Answer ε) → Bool
  | ⟨_, .mutateRow k _, .ok _⟩ => k = key
  | ⟨_, .checkAndMutateRow k _ trueMutations falseMutations, .ok matched⟩ =>
    k = key && !(Op.taken trueMutations falseMutations matched).isEmpty
  | _ => false

/-- No write of the row has come after a read of it by the thread. -/
def calm (key : String) (tid : Nat) : List (Event Op (Answer ε)) → Bool
  | [] => true
  | event :: older => calm key tid older &&
    !(writes key event && older.any fun own => own.tid = tid && (readOf key own).isSome)

/-- What the thread has last read of the row. -/
def lastRead (key : String) (tid : Nat) : List (Event Op (Answer ε)) → Option (Option RowMap) :=
  ownFold tid (fun known event => (readOf key event).or known) none

section Reads

variable {failed : ε} {body : (call : ι) → Prog Op (Answer ε) (Out call)} {key : String} {tid : Nat} {op : Op}
  {c : Contents} {res : Answer ε op}

theorem not_writes_of_error (e : ε) : writes key ⟨tid, op, (.error e : Answer ε op)⟩ = false := by
  cases op <;> rfl

theorem eq_of_writes {k : String} {mutations : List Mutation} {res : Answer ε (.mutateRow k mutations)}
    (isWrite : writes key ⟨tid, .mutateRow k mutations, res⟩) : k = key := by
  cases res with
  | error e => cases isWrite
  | ok => exact of_decide_eq_true isWrite

theorem eq_of_writes_check {k : String} {predicate : RowFilter} {trueMutations falseMutations : List Mutation}
    {res : Answer ε (.checkAndMutateRow k predicate trueMutations falseMutations)}
    (isWrite : writes key ⟨tid, .checkAndMutateRow k predicate trueMutations falseMutations, res⟩) : k = key := by
  cases res with
  | error e => cases isWrite
  | ok matched => exact of_decide_eq_true (Bool.and_eq_true_iff.mp isWrite).1

/-- Who does not write a row leaves it as it was. -/
theorem read_of_not_writes {s : Contents} (answers : (machine failed body).Answers op s res c)
    (spares : writes key ⟨tid, op, res⟩ = false) : c.read key = s.read key := by
  rcases machine_answers answers with ⟨rfl, rfl⟩ | ⟨rfl, rfl⟩
  · cases op with
    | readRow | readPrefix | readRange | increment => rfl
    | mutateRow k mutations => exact Contents.read_mutate_ne s mutations (of_decide_eq_false spares)
    | checkAndMutateRow k predicate trueMutations falseMutations =>
      by_cases own : k = key
      · have nothing : Op.taken trueMutations falseMutations (predicate.accepts (s.cells k)) = [] := by
          simpa [writes, own, Op.exec] using spares
        simp only [Op.exec, nothing]
        exact Contents.read_mutate_nil s k key
      · exact Contents.read_mutate_ne s _ own
  · rfl

theorem readOf_answers {s : Contents} (answers : (machine failed body).Answers op s res c) {row : Option RowMap}
    (read : readOf key ⟨tid, op, res⟩ = some row) : s.read key = row ∧ c = s := by
  rcases machine_answers answers with ⟨rfl, rfl⟩ | ⟨rfl, rfl⟩
  · cases op with
    | readRow k =>
      by_cases own : k = key
      · subst own
        exact ⟨by simpa [readOf, Op.exec] using read, rfl⟩
      · simp [readOf, own] at read
    | _ => cases read
  · cases op <;> cases read

/-- A row that was read is as it was read until it is written. -/
def Standing (key : String) (h : Hist Contents Op (Answer ε)) : Prop :=
  ∀ newer event older row, h.log = newer ++ event :: older → readOf key event = some row →
    (∀ later ∈ newer, writes key later = false) → h.state.read key = row

theorem Standing.push {h : Hist Contents Op (Answer ε)} (standing : Standing key h)
    (answers : (machine failed body).Answers op h.state res c) : Standing key (h.push tid op res c) := by
  intro newer event older row split read unwritten
  cases newer with
  | nil =>
    obtain ⟨rfl, -⟩ := List.cons.inj split
    obtain ⟨found, rfl⟩ := readOf_answers answers read
    exact found
  | cons newest newer =>
    obtain ⟨rfl, rest⟩ := List.cons.inj split
    have before := standing newer event older row rest read fun later member =>
      unwritten later (List.mem_cons_of_mem _ member)
    exact (read_of_not_writes answers (unwritten _ List.mem_cons_self)).trans before

theorem Standing.initial {h : Hist Contents Op (Answer ε)} (empty : h.log = []) : Standing key h := by
  intro newer event older row split
  simp [empty] at split

/-- The last read is an event of the thread, and the newest of its reads of the row. -/
theorem split_of_lastRead {log : List (Event Op (Answer ε))} {row : Option RowMap}
    (last : lastRead key tid log = some row) :
    ∃ newer event older, log = newer ++ event :: older ∧ event.tid = tid ∧ readOf key event = some row := by
  induction log with
  | nil => cases last
  | cons event log inductionHypothesis =>
    have further : lastRead key tid log = some row → ∃ newer own older, event :: log = newer ++ own :: older ∧
        own.tid = tid ∧ readOf key own = some row := by
      intro earlier
      obtain ⟨newer, own, older, rfl, facts⟩ := inductionHypothesis earlier
      exact ⟨event :: newer, own, older, rfl, facts⟩
    by_cases own : event.tid = tid
    · rw [lastRead, ownFold_cons_self own] at last
      cases read : readOf key event with
      | none =>
        rw [read, Option.none_or] at last
        exact further last
      | some found =>
        rw [read, Option.some_or] at last
        exact ⟨[], event, log, rfl, own, read.trans last⟩
    · rw [lastRead, ownFold_cons_ne own] at last
      exact further last

theorem not_writes_of_calm {newer older : List (Event Op (Answer ε))} {event : Event Op (Answer ε)}
    (isCalm : calm key tid (newer ++ event :: older)) (own : event.tid = tid) {row : Option RowMap}
    (read : readOf key event = some row) : ∀ later ∈ newer, writes key later = false := by
  induction newer with
  | nil => exact fun later member => (List.not_mem_nil member).elim
  | cons newest newer inductionHypothesis =>
    simp only [List.cons_append, calm, Bool.and_eq_true, Bool.not_eq_true', Bool.and_eq_false_imp] at isCalm
    intro later member
    rcases List.mem_cons.mp member with rfl | member
    · by_contra isWrite
      have none_ := isCalm.2 (Bool.not_eq_false _ ▸ isWrite)
      simp [own, read] at none_
    · exact inductionHypothesis isCalm.1 later member

/-- Nobody has written the row since the thread has read it: it holds what was read. -/
theorem read_of_calm {h : Hist Contents Op (Answer ε)} (standing : Standing key h) (isCalm : calm key tid h.log)
    {row : Option RowMap} (last : lastRead key tid h.log = some row) : h.state.read key = row := by
  obtain ⟨newer, event, older, split, own, read⟩ := split_of_lastRead last
  rw [split] at isCalm
  exact standing newer event older row split read (not_writes_of_calm isCalm own read)

@[simp] theorem readOf_readRow {row : Option RowMap} :
    readOf key (⟨tid, .readRow key, .ok row⟩ : Event Op (Answer ε)) = some row := if_pos rfl

theorem readOf_readRow_ne {k : String} (differs : k ≠ key) (res : Answer ε (.readRow k)) :
    readOf key (⟨tid, .readRow k, res⟩ : Event Op (Answer ε)) = none := by
  cases res with
  | error e => rfl
  | ok row => exact if_neg differs

/-- A thread has read what it was just answered. -/
theorem lastRead_push_readRow (h : Hist Contents Op (Answer ε)) (row : Option RowMap) (state : Contents) :
    lastRead key tid (h.push tid (.readRow key) (.ok row) state).log = some row := by
  have isLast : lastRead key tid (h.push tid (.readRow key) (.ok row) state).log =
      (readOf key (⟨tid, .readRow key, .ok row⟩ : Event Op (Answer ε))).or (lastRead key tid h.log) :=
    ownFold_cons_self rfl
  rw [isLast, readOf_readRow, Option.some_or]

/-- Other operations leave it at that. -/
theorem lastRead_push_of_unread {h : Hist Contents Op (Answer ε)} {state : Contents}
    (unread : readOf key ⟨tid, op, res⟩ = none) :
    lastRead key tid (h.push tid op res state).log = lastRead key tid h.log := by
  have isLast : lastRead key tid (h.push tid op res state).log = (readOf key ⟨tid, op, res⟩).or (lastRead key tid h.log) :=
    ownFold_cons_self rfl
  rw [isLast, unread, Option.none_or]

theorem lastRead_foreign {h h' : Hist Contents Op (Answer ε)} (foreign : Foreign tid h h') :
    lastRead key tid h'.log = lastRead key tid h.log := foreign.ownFold_eq

end Reads

/-! ## One request after the other -/

def perform (op : Op) : ExceptT ε (Prog Op (Answer ε)) op.Res := ExceptT.mk (Prog.perform op)

section Perform

variable {α : Type} {failed : ε} {body : (call : ι) → Prog Op (Answer ε) (Out call)} {tid : Nat} {call : ι}
  {ok proper : Nat → ι → Hist Contents Op (Answer ε) → Op → Prop} {h : Hist Contents Op (Answer ε)} {op : Op}
  {post : Except ε α → Hist Contents Op (Answer ε) → Prop}

theorem safe_perform {f : op.Res → ExceptT ε (Prog Op (Answer ε)) α} (fails : ∀ e h, post (.error e) h)
    (isProper : ∀ h', Foreign tid h h' → ok tid call h' op → proper tid call h' op)
    (rest : ∀ (h' : Hist Contents Op (Answer ε)) (value : op.Res) (state : Contents), Foreign tid h h' →
      ok tid call h' op → (machine failed body).Answers op h'.state (.ok value) state →
      (machine failed body).Safe ((machine failed body).tracked ok proper tid call) tid post (f value).run
        (h'.push tid op (.ok value) state)) :
    (machine failed body).Safe ((machine failed body).tracked ok proper tid call) tid post (perform op >>= f).run h := by
  intro h' foreign permitted res state answers
  refine ⟨⟨op, res, state, rfl, answers, permitted, isProper h' foreign permitted⟩, ?_⟩
  cases res with
  | error e => exact fun h'' _ => fails e h''
  | ok value => exact rest h' value state foreign permitted answers

end Perform

end Tape.Bigtable
