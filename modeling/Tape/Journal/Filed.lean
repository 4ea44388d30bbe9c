import Tape.Journal.Cursor
import Tape.Processes

/-! # What the journal contains

Whatever calls run, and however they are interleaved or broken off: an entry of the journal has one of the
payloads that the methods write, and the subject that its payload derives.
-/

namespace Tape.Journal

open Interleave

/-- The act inserts no entry but such as the methods file. -/
def Files (act : Act) : Prop := ∀ row, act = .journal (.insertEntry row) → Filed row

theorem files_of_isPlain {act : Act} (isPlain : isPlain act) : Files act := by
  rintro row rfl
  cases isPlain

theorem files_of_housekeeping {act : Act} (housekeeping : Housekeeping act) : Files act :=
  (neutral_of_housekeeping housekeeping).2

/-- All programs insert such entries only. -/
theorem all_files (call : Call) : call.body.All Files := by
  have numbered : Numbered (fun {α} (program : Prog Act Act.Res α) => program.All Files) fun _ _ {_} program =>
      program.All Files :=
    .of_housekeeping (all_composable Files) (fun act isPlain => ⟨files_of_isPlain isPlain, fun _ => trivial⟩)
      fun act housekeeping => ⟨files_of_housekeeping housekeeping, fun _ => trivial⟩
  refine numbered.call (fun _ _ => ⟨nofun, fun _ => trivial⟩) (numbered.compactRun fun act isBlanking => ⟨?_, fun _ => trivial⟩)
    call ?_
  · rintro row rfl
    cases isBlanking
  · rintro runId decisionIndex model requestJson responseJson rationale policyVersion ts rfl
    refine numbered.recordDecision (fun runId seq payload ts isWritten => ?_) ..
    exact journal_of (all_composable Files) (fun act housekeeping => ⟨files_of_housekeeping housekeeping, fun _ => trivial⟩)
      runId seq "decision" payload ts isWritten

/-- `journal_range`: the entries of a run from a number on, as `SubscribeRun` sends them. -/
def journalRange (w : World) (runId : String) (fromSeq : Int) : List EventEntry :=
  orderBy EventEntry.seq (w.journal.rows.filter fun row => row.runId = runId && fromSeq ≤ row.seq)

/-- Every entry is filed. -/
def AllFiled (w : World) : Prop := ∀ e ∈ w.journal.rows, Filed e

/-- Every entry of the journal was filed by a method. -/
theorem run_filed {w : World} (filed : AllFiled w) (choices : List (Choice Call)) :
    AllFiled (tape.run (quiet w) choices).state := by
  refine System.run_of_all all_files ?_ (quiet_owned w) rfl filed choices
  intro act w res w' files answers holds
  rcases journal_of_answers answers with same | ⟨row, isInsert, grown, -⟩
  · intro e member
    rw [same] at member
    exact holds e member
  · intro e member
    rw [grown] at member
    rcases List.mem_append.mp member with old | new
    · exact holds e old
    · rw [List.mem_singleton.mp new]
      exact files row isInsert

theorem mem_of_mem_journalRange {w : World} {runId : String} {fromSeq : Int} {e : EventEntry}
    (member : e ∈ journalRange w runId fromSeq) : e ∈ w.journal.rows ∧ e.runId = runId := by
  obtain ⟨isRow, selected⟩ := List.mem_filter.mp (mem_of_mem_orderBy member)
  simp only [Bool.and_eq_true, decide_eq_true_eq] at selected
  exact ⟨isRow, selected.1⟩

/-- The entries of a run that has an id. -/
theorem written_of_mem_journalRange {w : World} (filed : AllFiled w) {runId : String} {fromSeq : Int} {e : EventEntry}
    (named : runId ≠ "") (member : e ∈ journalRange w runId fromSeq) : Written e.kind e.payload := by
  obtain ⟨isRow, ofRun⟩ := mem_of_mem_journalRange member
  rcases filed e isRow with ⟨isWritten, -⟩ | ⟨-, nameless, -⟩
  · exact isWritten
  · exact absurd (ofRun.symm.trans nameless) named

end Tape.Journal
