import Tape.Rules
import Tape.Subjects.Identity

/-! # The verb of an effect's entry

Five methods append entries of kind `effect`.  Each writes a label of its own choice into the
entry's `status`, and `derive` makes the verb of the subject from it: a label it does not know
becomes `pending`.  The label of `record_external_observation` is `observed` whatever was observed,
so its entries say `pending` of rows that are `CONFIRMED` or `FAILED`.
-/

namespace Tape.Effect

open Sql Interleave

/-- A call of a method that journals effects. -/
inductive EffectCall where
  | begin (server : Nat) (request : RunStore.EffectRequest) (ts : Int)
  | complete (runId key : String) (status : Int) (responseJson errorJson : String) (ts : Int)
  | reconcile (runId key : String) (status : Int) (responseJson errorJson : String) (ts : Int)
  | attempt (runId key error : String) (nextDispatchAtMs ts : Int)
  | observation (runId key : String) (resolution : Int)
      (externalRef responseJson errorJson compensateOnDuplicateKind : String) (ts registerTs : Int)

namespace EffectCall

def call : EffectCall → Call
  | begin server request ts => .beginEffect server request ts
  | complete runId key status responseJson errorJson ts =>
    .completeEffect runId key status responseJson errorJson ts
  | reconcile runId key status responseJson errorJson ts =>
    .reconcileEffect runId key status responseJson errorJson ts
  | attempt runId key error nextDispatchAtMs ts => .recordDispatchAttempt runId key error nextDispatchAtMs ts
  | observation runId key resolution externalRef responseJson errorJson compensateOnDuplicateKind ts registerTs =>
    .recordExternalObservation runId key resolution externalRef responseJson errorJson compensateOnDuplicateKind
      ts registerTs

def pk : EffectCall → String × String
  | begin _ request _ => (request.runId, request.key)
  | complete runId key .. | reconcile runId key .. | attempt runId key .. | observation runId key .. => (runId, key)

/-- The `status` of the entry the method journals. -/
def label : EffectCall → String
  | begin .. => "pending"
  | complete _ _ status .. => RunStore.outcomeLabel status
  | reconcile .. => "reconciled"
  | attempt _ _ _ nextDispatchAtMs _ => if nextDispatchAtMs ≤ 0 then "unknown" else "pending"
  | observation .. => "observed"

/-- The status the method leaves in the row, given the row it found. -/
def written (w : World) : EffectCall → Int
  | begin .. => EffectStatus.pending.code
  | complete _ _ status .. | reconcile _ _ status .. => status
  | attempt _ _ _ nextDispatchAtMs _ => attemptStatus nextDispatchAtMs
  | observation runId key resolution .. =>
    ((w.effects.find? (runId, key)).map (RunStore.observedStatus resolution)).getD 0

/-- The verb of the entry the method journals. -/
def verb : EffectCall → String
  | begin .. | observation .. => "pending"
  | complete _ _ status .. =>
    if status = EffectStatus.confirmed.code then "confirmed"
    else if status = EffectStatus.failed.code then "failed"
    else if status = EffectStatus.unknown.code then "unknown"
    else "pending"
  | reconcile .. => "reconciled"
  | attempt _ _ _ nextDispatchAtMs _ => if nextDispatchAtMs ≤ 0 then "unknown" else "pending"

def isComplete : EffectCall → Bool
  | complete .. => true
  | _ => false

def isObservation : EffectCall → Bool
  | observation .. => true
  | _ => false

end EffectCall

/-- The database after the call, with nobody else running and no statement failing of itself. -/
def after (w : World) (c : EffectCall) : World := (tape.alone c.call.body w).2

/-- What was appended to the journal on the way from `w` to `w'`. -/
def appended (w w' : World) : List EventEntry := w'.journal.rows.drop w.journal.rows.length

/-- The status of the call's effect once the call is done. -/
def StatusAfter (w : World) (c : EffectCall) (status : EffectStatus) : Prop :=
  ∃ row, (after w c).effects.find? c.pk = some row ∧ row.status = status.code

/-- The segment of an effect's subject that stands for its status. -/
def verbOf (subject : String) : String := String.ofList ((Subjects.splitSlash subject.toList).getD 3 [])

def statusVerb : EffectStatus → Option String
  | .unspecified => none
  | .pending => some "pending"
  | .confirmed => some "confirmed"
  | .failed => some "failed"
  | .unknown => some "unknown"

/-- The entry's verb is the status the row has after the call, or `reconciled`. -/
def Truthful (w : World) (c : EffectCall) (entry : EventEntry) : Prop :=
  verbOf entry.subject = "reconciled" ∨
    ∃ status, statusVerb status = some (verbOf entry.subject) ∧ StatusAfter w c status

/-- `complete_effect` is given a status that has a verb, and an observation leaves the row `PENDING`: it
    is `ABSENT` and the effect idempotent, or it says nothing about a row that was `PENDING`. -/
def KeepsVerb (w : World) : EffectCall → Prop
  | .complete _ _ status .. => ∃ s, (statusVerb s).isSome ∧ s.code = status
  | .observation runId key resolution .. => ∃ row, w.effects.find? (runId, key) = some row ∧
      ((resolution = EffectResolution.absent.code ∧ row.semantics = EffectSemantics.idempotent.code) ∨
        (row.status = EffectStatus.pending.code ∧ ∀ r : EffectResolution, r.code = resolution → r = .unspecified))
  | _ => True

/-! ## The entries of a call -/

section Entries

variable {α : Type} {Q : EventEntry → Prop} {label : String}

/-- The entry's subject is derived from a payload with this label. -/
def Labelled (label : String) (entry : EventEntry) : Prop :=
  ∃ payload, entry.subject = Subjects.derive "effect" payload ∧ payload.strAt "status" = label

/-- An inserted entry of kind `effect` meets `Q`. -/
def Journals (Q : EventEntry → Prop) : Act → Prop
  | .sql (.journal (.insertEntry entry)) => entry.kind = "effect" → Q entry
  | _ => True

abbrev Labels (label : String) : Act → Prop := Journals (Labelled label)

theorem journals_nextSeq (runId : String) : (RunStore.nextSeq runId).run.All (Journals Q) :=
  .exceptBind (all_query trivial) fun _ => .exceptBind (all_query trivial) fun _ => trivial

/-- Entries of another kind say nothing of effects. -/
theorem journals_other {runId kind : String} {seq ts : Int} {payload : Json} (other : kind ≠ "effect") :
    (RunStore.journal runId seq kind payload ts).run.All (Journals Q) :=
  .exceptBind (all_query trivial) fun _ => all_query fun isEffect => absurd isEffect other

theorem labels_journal {runId kind : String} {seq ts : Int} {payload : Json}
    (fits : kind = "effect" → (payload.insertMissing "run_id" (.str runId)).strAt "status" = label) :
    (RunStore.journal runId seq kind payload ts).run.All (Labels label) := by
  refine .exceptBind (all_query trivial) fun globalSeq => all_query ?_
  rintro rfl
  exact ⟨_, rfl, fits rfl⟩

/-- The entry a method ends with, under the run's next number. -/
theorem labels_journaled {runId kind : String} {payload : Int → Json} {ts : Int} {f : Unit → StoreM α}
    (fits : ∀ seq, kind = "effect" → ((payload seq).insertMissing "run_id" (.str runId)).strAt "status" = label)
    (rest : (f ()).run.All (Labels label)) :
    Prog.All (Labels label) (do
      let seq ← RunStore.nextSeq runId
      RunStore.journal runId seq kind (payload seq) ts >>= f).run :=
  .exceptBind (journals_nextSeq runId) fun seq => .exceptBind (labels_journal (fits seq)) fun _ => rest

theorem labels_registerCompensation {runId effectKey kind : String} {payload : Json}
    {compensatorRef : String} {maxAttempts ts : Int} :
    (RunStore.registerCompensation runId effectKey kind payload compensatorRef maxAttempts ts).run.All
      (Labels label) := by
  refine .exceptBind (all_query trivial) fun found => ?_
  cases found with
  | some recorded => exact trivial
  | none =>
    refine .exceptBind (journals_nextSeq runId) fun seq => .exceptBind (all_query trivial) fun _ => ?_
    exact .exceptBind (journals_other (by decide)) fun _ => trivial

theorem labels_admitEffect (request : RunStore.EffectRequest) (ts : Int) :
    (RunStore.admitEffect request ts).run.All (Labels "pending") := by
  refine .exceptBind (all_query trivial) fun own => ?_
  cases own with
  | some recorded => exact trivial
  | none =>
    refine .exceptBind (all_ite (all_query trivial) trivial) fun other => ?_
    cases other with
    | some recorded => exact trivial
    | none =>
      refine .exceptBind (journals_nextSeq _) fun seq => .exceptBind (all_query trivial) fun _ => ?_
      exact .exceptBind (labels_journal fun _ => rfl) fun _ => trivial

theorem labels_beginEffect (server : Nat) (request : RunStore.EffectRequest) (ts : Int) :
    (RunStore.beginEffect server request ts).run.All (Labels "pending") := by
  have scopes : (RunStore.runScopesFor server request.runId).run.All (Labels "pending") := by
    refine .exceptBind (all_access trivial) fun cached => ?_
    cases cached with
    | some scopes => exact trivial
    | none => exact .exceptBind (all_query trivial) fun _ => .exceptBind (all_access trivial) fun _ => trivial
  unfold RunStore.beginEffect
  refine all_ite trivial (all_ite trivial (all_ite trivial (all_ite (labels_admitEffect request ts) ?_)))
  refine .exceptBind scopes fun granted => all_ite (labels_admitEffect request ts) ?_
  refine .exceptBind (journals_nextSeq _) fun seq => ?_
  exact .exceptBind (all_orElse (journals_other (by decide))) fun _ => trivial

theorem labels_body (c : EffectCall) : c.call.body.All (Labels c.label) := by
  cases c with
  | begin server request ts => exact labels_beginEffect server request ts
  | complete runId key status responseJson errorJson ts =>
    refine .exceptBind (all_query trivial) fun found => ?_
    cases found with
    | none => exact trivial
    | some existing =>
      exact all_ite trivial (.exceptBind (all_query trivial) fun _ => labels_journaled (fun _ _ => rfl) trivial)
  | reconcile runId key status responseJson errorJson ts =>
    refine .exceptBind (all_query trivial) fun found => ?_
    cases found with
    | none => exact trivial
    | some existing =>
      exact all_ite trivial (.exceptBind (all_query trivial) fun _ => labels_journaled (fun _ _ => rfl) trivial)
  | attempt runId key error nextDispatchAtMs ts =>
    refine .exceptBind (all_query trivial) fun found => ?_
    cases found with
    | none => exact trivial
    | some existing =>
      refine .exceptBind (all_query trivial) fun _ => labels_journaled (fun _ _ => ?_) (all_query trivial)
      simp [Json.insertMissing, Json.strAt, Json.get?, EffectCall.label]
  | observation runId key resolution externalRef responseJson errorJson kind ts registerTs =>
    refine .exceptBind (all_query trivial) fun found => ?_
    cases found with
    | none => exact trivial
    | some existing =>
      refine .exceptBind (all_query trivial) fun _ => labels_journaled (fun _ _ => rfl) ?_
      exact all_ite (.exceptBind labels_registerCompensation fun _ => all_query trivial) (all_query trivial)

/-- The journal only grows. -/
theorem appended_of_all {program : Prog Act Act.Res α} (all : program.All (Journals Q)) (w : World) :
    ∀ entry ∈ appended w (tape.alone program w).2, entry.kind = "effect" → Q entry := by
  have grows : ∃ new, (tape.alone program w).2.journal.rows = w.journal.rows ++ new ∧
      ∀ entry ∈ new, entry.kind = "effect" → Q entry := by
    refine System.alone_of_all (S := tape) (p := Journals Q)
      (I := fun w' => ∃ new, w'.journal.rows = w.journal.rows ++ new ∧ ∀ entry ∈ new, entry.kind = "effect" → Q entry)
      ?_ all ⟨[], by simp⟩
    rintro act w' journals ⟨new, grown, fits⟩
    have unchanged : (act.exec w').2.journal = w'.journal → ∃ new,
        (act.exec w').2.journal.rows = w.journal.rows ++ new ∧ ∀ entry ∈ new, entry.kind = "effect" → Q entry :=
      fun same => ⟨new, by rw [same, grown], fits⟩
    rcases act with (s | s | s | s | s | s | s | s | s | s | s) | c | x
    case sql.journal =>
      cases s with
      | insertEntry entry =>
        show ∃ new, (insertRow "tape_journal" w'.journal _ entry).2.rows = _ ∧ _
        unfold insertRow
        split
        next inserted accepted =>
          refine ⟨new ++ [entry], by rw [Table.rows_insert accepted, grown, List.append_assoc], ?_⟩
          intro other member
          rcases List.mem_append.mp member with member | member
          · exact fits other member
          · rw [List.mem_singleton.mp member]
            exact journals
        next => exact ⟨new, grown, fits⟩
      | _ => exact unchanged rfl
    all_goals exact unchanged rfl
  obtain ⟨new, grown, fits⟩ := grows
  rwa [appended, grown, List.drop_left]

end Entries

/-! ## The row after a call -/

section Row

variable {α β : Type} {w w' : World}

/-- Neither the effects nor the journal change. -/
def isApart : Act → Bool
  | .sql (.effect (.getEffect ..)) | .sql (.effect (.findBusinessKey ..)) => true
  | .sql (.effect _) | .sql (.journal (.insertEntry _)) => false
  | _ => true

/-- The effects do not change. -/
def keepsEffects : Act → Bool
  | .sql (.effect (.getEffect ..)) | .sql (.effect (.findBusinessKey ..)) => true
  | .sql (.effect _) => false
  | _ => true

theorem effects_of_keeps {program : Prog Act Act.Res α} (all : program.All fun act => keepsEffects act) (w : World) :
    (tape.alone program w).2.effects = w.effects := by
  refine System.alone_of_all (S := tape) (p := fun act => keepsEffects act) (I := fun w' => w'.effects = w.effects)
    ?_ all rfl
  rintro act w' keeps same
  rcases act with (s | s | s | s | s | s | s | s | s | s | s) | c | x
  case sql.effect => cases s <;> first | exact same | cases keeps
  all_goals exact same

theorem apart_alone {program : Prog Act Act.Res α} (all : program.All fun act => isApart act) (w : World) :
    (tape.alone program w).2.effects = w.effects ∧ (tape.alone program w).2.journal = w.journal := by
  refine System.alone_of_all (S := tape) (p := fun act => isApart act)
    (I := fun w' => w'.effects = w.effects ∧ w'.journal = w.journal) ?_ all ⟨rfl, rfl⟩
  rintro act w' apart same
  rcases act with (s | s | s | s | s | s | s | s | s | s | s) | c | x
  case sql.effect => cases s <;> first | exact same | cases apart
  case sql.journal => cases s <;> first | exact same | cases apart
  all_goals exact same

/-- What a sequence leaves is what its second part leaves, unless the first one failed. -/
theorem alone_seq_cases (action : StoreM α) (f : α → StoreM β) (w : World) :
    (tape.alone (action >>= f).run w).2 = (tape.alone action.run w).2 ∨
      ∃ value, (tape.alone action.run w).1 = .ok value ∧
        (tape.alone (action >>= f).run w).2 = (tape.alone (f value).run (tape.alone action.run w).2).2 := by
  cases done : tape.alone action.run w with
  | mk result between =>
    cases result with
    | error e => exact .inl (by rw [alone_seq_error done])
    | ok value => exact .inr ⟨value, rfl, by rw [alone_seq done]⟩

/-- Either no effect entry was appended, or the row has the status that was written. -/
def Recorded (w w' : World) (pk : String × String) (status : Int) : Prop :=
  (∀ entry ∈ appended w w', entry.kind ≠ "effect") ∨ ∃ row, w'.effects.find? pk = some row ∧ row.status = status

theorem recorded_of_same {pk : String × String} {status : Int} (same : w'.journal = w.journal) :
    Recorded w w' pk status := by
  refine .inl fun entry member => ?_
  simp [appended, same] at member

/-- What comes first does not touch the journal. -/
theorem Recorded.after {w₁ : World} {pk : String × String} {status : Int} (same : w₁.journal = w.journal)
    (recorded : Recorded w₁ w' pk status) : Recorded w w' pk status := by
  unfold Recorded appended at recorded ⊢
  rwa [← same]

theorem recorded_of_unjournaled {program : Prog Act Act.Res α} {pk : String × String} {status : Int}
    (all : program.All (Journals fun _ => False)) : Recorded w (tape.alone program w).2 pk status :=
  .inl (appended_of_all all w)

theorem recorded_of_apart {action : StoreM α} {f : α → StoreM β} {pk : String × String} {status : Int}
    (apart : action.run.All fun act => isApart act)
    (rest : ∀ value w₁, Recorded w₁ (tape.alone (f value).run w₁).2 pk status) :
    Recorded w (tape.alone (action >>= f).run w).2 pk status := by
  have kept := (apart_alone apart w).2
  rcases alone_seq_cases action f w with failed | ⟨value, -, done⟩
  · exact recorded_of_same (by rw [failed, kept])
  · rw [done]
    exact (rest value _).after kept

/-- After the `INSERT` of a row, or its refusal. -/
theorem recorded_of_inserted (row : EffectRecord) {f : (EffectStmt.insertEffect row).Res → StoreM α}
    (rest : ∀ value, (f value).run.All fun act => keepsEffects act) :
    Recorded w (tape.alone ((EffectStmt.insertEffect row).query >>= f).run w).2 row.pk row.status := by
  rcases alone_seq_cases (EffectStmt.insertEffect row).query f w with failed | ⟨value, inserted, done⟩
  · exact recorded_of_same (by rw [failed]; rfl)
  · refine .inr ⟨row, ?_, rfl⟩
    rw [done, effects_of_keeps (rest value)]
    exact (find?_insertRow_of_ok inserted).2

/-- After an `UPDATE` of the row the rest of the method leaves the effects alone. -/
theorem recorded_of_updated {s : EffectStmt} {f : s.Res → StoreM α} {pk : String × String} {row : EffectRecord}
    {status : Int} (found : w.effects.find? pk = some row) (writes : (s.apply row).status = status)
    (rest : ∀ value, (f value).run.All fun act => keepsEffects act) :
    Recorded w (tape.alone (s.query >>= f).run w).2 pk status := by
  refine .inr ⟨s.apply row, ?_, writes⟩
  have updated : (tape.alone s.query.run w).2.effects.find? pk = some (s.apply row) := EffectStmt.find?_exec_of_some found
  rcases alone_seq_cases s.query f w with failed | ⟨value, -, done⟩
  · rw [failed, updated]
  · rw [done, effects_of_keeps (rest value), updated]

theorem keeps_housekeeping (act : Act) (housekeeping : Housekeeping act) : keepsEffects act := by
  cases housekeeping <;> rfl

theorem recorded_of_selected {runId key : String} {row : EffectRecord} {status : Int} {s : EffectStmt} {f : s.Res → StoreM α}
    {w : World} (found : w.effects.find? (runId, key) = some row) (selected : s.selects row)
    (writes : (s.assign row).status = status) (rest : ∀ value, (f value).run.All fun act => keepsEffects act) :
    Recorded w (tape.alone (s.query >>= f).run w).2 (runId, key) status :=
  recorded_of_updated found (by rw [EffectStmt.apply, if_pos selected, writes]) rest

theorem recorded_completeEffect (w : World) (runId key : String) (status : Int) (responseJson errorJson : String) (ts : Int) :
    Recorded w (tape.alone (RunStore.completeEffect runId key status responseJson errorJson ts).run w).2
      (runId, key) status := by
  unfold RunStore.completeEffect
  have read : tape.alone (RunStore.getEffect runId key).run w = (.ok (w.effects.find? (runId, key)), w) := rfl
  rw [alone_seq read]
  cases found : w.effects.find? (runId, key) with
  | none => exact recorded_of_same rfl
  | some existing =>
    simp only
    split
    next => exact recorded_of_same rfl
    next =>
      have same := Table.key_of_find? found
      exact recorded_of_selected found (by simp [EffectStmt.selects, same]) rfl fun _ =>
        all_journaled keeps_housekeeping trivial fun _ => by constructor

theorem recorded_reconcileEffect (w : World) (runId key : String) (status : Int) (responseJson errorJson : String)
    (ts : Int) :
    Recorded w (tape.alone (RunStore.reconcileEffect runId key status responseJson errorJson ts).run w).2
      (runId, key) status := by
  unfold RunStore.reconcileEffect
  have read : tape.alone (RunStore.getEffect runId key).run w = (.ok (w.effects.find? (runId, key)), w) := rfl
  rw [alone_seq read]
  cases found : w.effects.find? (runId, key) with
  | none => exact recorded_of_same rfl
  | some existing =>
    simp only
    split
    next => exact recorded_of_same rfl
    next =>
      have same := Table.key_of_find? found
      exact recorded_of_selected found (by simp [EffectStmt.selects, same]) rfl fun _ =>
        all_journaled keeps_housekeeping trivial fun _ => by constructor

theorem recorded_recordDispatchAttempt (w : World) (runId key error : String) (nextDispatchAtMs ts : Int) :
    Recorded w (tape.alone (RunStore.recordDispatchAttempt runId key error nextDispatchAtMs ts).run w).2
      (runId, key) (attemptStatus nextDispatchAtMs) := by
  unfold RunStore.recordDispatchAttempt
  have read : tape.alone (RunStore.getEffect runId key).run w = (.ok (w.effects.find? (runId, key)), w) := rfl
  rw [alone_seq read]
  cases found : w.effects.find? (runId, key) with
  | none => exact recorded_of_same rfl
  | some existing =>
    have same := Table.key_of_find? found
    exact recorded_of_selected found (by simp [EffectStmt.selects, same]) rfl fun _ =>
      all_journaled keeps_housekeeping (all_query rfl) fun _ => by constructor

theorem recorded_recordExternalObservation (w : World) (runId key : String) (resolution : Int)
    (externalRef responseJson errorJson kind : String) (ts registerTs : Int) :
    Recorded w (tape.alone (RunStore.recordExternalObservation runId key resolution externalRef responseJson errorJson
        kind ts registerTs).run w).2 (runId, key)
      (((w.effects.find? (runId, key)).map (RunStore.observedStatus resolution)).getD 0) := by
  unfold RunStore.recordExternalObservation
  have read : tape.alone (RunStore.getEffect runId key).run w = (.ok (w.effects.find? (runId, key)), w) := rfl
  rw [alone_seq read]
  cases found : w.effects.find? (runId, key) with
  | none => exact recorded_of_same rfl
  | some existing =>
    have same := Table.key_of_find? found
    refine recorded_of_selected found (by simp [EffectStmt.selects, same]) rfl fun _ =>
      all_journaled keeps_housekeeping (all_ite ?_ (all_query rfl)) fun _ => by constructor
    exact .exceptBind (all_registerCompensation keeps_housekeeping rfl fun _ => rfl) fun _ => all_query rfl

/-- The run's own effect or another one's under the business key is returned as it is; a new one is
    `PENDING`. -/
theorem recorded_admitEffect (w : World) (request : RunStore.EffectRequest) (ts : Int) :
    Recorded w (tape.alone (RunStore.admitEffect request ts).run w).2 (request.runId, request.key)
      EffectStatus.pending.code := by
  refine recorded_of_apart (all_query rfl) fun own w => ?_
  cases own with
  | some recorded => exact recorded_of_same rfl
  | none =>
    refine recorded_of_apart (all_ite (all_query rfl) trivial) fun other w => ?_
    cases other with
    | some other => exact recorded_of_same rfl
    | none =>
      refine recorded_of_apart (.exceptBind (all_query rfl) fun _ => .exceptBind (all_query rfl) fun _ => trivial)
        fun seq w => ?_
      exact recorded_of_inserted (RunStore.freshEffect request seq ts) fun _ =>
        .exceptBind (all_journal keeps_housekeeping _ _ _ _ _ (by constructor)) fun _ => trivial

theorem recorded_beginEffect (w : World) (server : Nat) (request : RunStore.EffectRequest) (ts : Int) :
    Recorded w (tape.alone (RunStore.beginEffect server request ts).run w).2 (request.runId, request.key)
      EffectStatus.pending.code := by
  unfold RunStore.beginEffect
  split
  next => exact recorded_of_same rfl
  split
  next => exact recorded_of_same rfl
  split
  next => exact recorded_of_same rfl
  split
  next => exact recorded_admitEffect w request ts
  refine recorded_of_apart ?_ fun granted w => ?_
  · refine .exceptBind (all_access rfl) fun cached => ?_
    cases cached with
    | some scopes => exact trivial
    | none => exact .exceptBind (all_query rfl) fun _ => .exceptBind (all_access rfl) fun _ => trivial
  split
  next => exact recorded_admitEffect w request ts
  -- a denial is journaled under the kind `policy`
  refine recorded_of_unjournaled (.exceptBind (journals_nextSeq _) fun seq => ?_)
  exact .exceptBind (all_orElse (journals_other (by decide))) fun _ => trivial

theorem recorded_body (w : World) (c : EffectCall) : Recorded w (after w c) c.pk (c.written w) := by
  cases c with
  | begin server request ts => exact recorded_beginEffect w server request ts
  | complete => exact recorded_completeEffect ..
  | reconcile => exact recorded_reconcileEffect ..
  | attempt => exact recorded_recordDispatchAttempt ..
  | observation => exact recorded_recordExternalObservation ..

end Row

/-! ## Verbs -/

section Verbs

open Subjects

/-- What `derive` makes of an effect's label. -/
def verbOfLabel (label : String) : String :=
  if label.toLower ∈ ["pending", "confirmed", "failed", "unknown", "reconciled"] then label.toLower else "pending"

/-- The segments of an effect's subject. -/
theorem splitSlash_effect (payload : Json) :
    splitSlash (derive "effect" payload).toList = [] :: "tape".toList :: "effect".toList ::
      (verbOfLabel (payload.strAt "status")).toList :: tailSegments .effect payload := by
  have fits : Kind.StatusFits String.toLower .effect payload := trivial
  have isSplit := splitSlash_of_fits fits
  have isDerived : derive "effect" payload = deriveWith String.toLower Kind.effect.name payload := rfl
  have isVerb : Kind.verb String.toLower .effect payload = verbOfLabel (payload.strAt "status") := rfl
  rw [isDerived, isSplit, isVerb]
  simp only [Kind.name]

theorem verbOf_derive (payload : Json) : verbOf (derive "effect" payload) = verbOfLabel (payload.strAt "status") := by
  rw [verbOf, splitSlash_effect]
  exact String.ofList_toList

theorem verbOfLabel_outcomeLabel (status : Int) :
    verbOfLabel (RunStore.outcomeLabel status) =
      if status = EffectStatus.confirmed.code then "confirmed"
      else if status = EffectStatus.failed.code then "failed"
      else if status = EffectStatus.unknown.code then "unknown"
      else "pending" := by
  have completed : status ≠ 2 → status ≠ 3 → status ≠ 4 → RunStore.outcomeLabel status = "completed" := by
    intro notConfirmed notFailed notUnknown
    by_cases unspecified : (0 : Int) = status
    · simp [RunStore.outcomeLabel, EffectStatus.tryFrom, EffectStatus.code, unspecified]
    · by_cases pending : (1 : Int) = status
      · simp [RunStore.outcomeLabel, EffectStatus.tryFrom, EffectStatus.code, unspecified, pending]
      · simp [RunStore.outcomeLabel, EffectStatus.tryFrom, EffectStatus.code, unspecified, pending,
          Ne.symm notConfirmed, Ne.symm notFailed, Ne.symm notUnknown]
  simp only [EffectStatus.code]
  by_cases confirmed : status = 2
  · subst confirmed
    decide +kernel
  by_cases failed : status = 3
  · subst failed
    decide +kernel
  by_cases unknown : status = 4
  · subst unknown
    decide +kernel
  simp only [completed confirmed failed unknown, confirmed, failed, unknown, if_false]
  decide +kernel

theorem verbOfLabel_label (c : EffectCall) : verbOfLabel c.label = c.verb := by
  cases c with
  | begin =>
    show verbOfLabel "pending" = "pending"
    decide +kernel
  | reconcile =>
    show verbOfLabel "reconciled" = "reconciled"
    decide +kernel
  | observation =>
    show verbOfLabel "observed" = "pending"
    decide +kernel
  | complete runId key status => exact verbOfLabel_outcomeLabel status
  | attempt runId key error nextDispatchAtMs ts =>
    simp only [EffectCall.label, EffectCall.verb]
    split <;> decide +kernel

/-- `/tape/effect/<verb>/**`. -/
def verbPattern (verb : String) : String := "/tape/effect/" ++ verb ++ "/**"

/-- The pattern of a reaction on one verb matches the effects of that verb. -/
theorem matches_verbPattern_iff {verb : String} (segment : IsSegment verb.toList) (payload : Json) :
    «matches» (verbPattern verb) (derive "effect" payload) ↔ verbOf (derive "effect" payload) = verb := by
  have clean : ∀ token ∈ ["tape".toList, "effect".toList, verb.toList], '/' ∉ token := by
    simp [segment.2.1]
  have literal : ∀ token ∈ ["tape".toList, "effect".toList, verb.toList], IsLiteral token := by
    have plain : IsLiteral verb.toList := isLiteral_of_clean segment.2.2
    simp [plain]
    simp [IsLiteral]
  have spelled : verbPattern verb = String.ofList (joinSlash
      ([] :: ["tape".toList, "effect".toList, verb.toList] ++ [['*', '*']])) := by
    rw [← String.toList_inj, verbPattern, String.toList_append, String.toList_append, String.toList_ofList]
    simp [joinSlash]
  rw [spelled, matches_path_rest (by simp) clean literal, splitSlash_effect, verbOf_derive]
  simp [String.toList_inj, eq_comm]

/-- Whatever stands behind the verb in a pattern, the pattern matches effects of that verb only. -/
theorem verbOf_of_matches {verb : String} (segment : IsSegment verb.toList) {rest subject : String}
    (matched : «matches» ("/tape/effect/" ++ verb ++ "/" ++ rest) subject) : verbOf subject = verb := by
  have literal : ∀ token ∈ [[], "tape".toList, "effect".toList, verb.toList], IsLiteral token := by
    have plain : IsLiteral verb.toList := isLiteral_of_clean segment.2.2
    simp [plain]
    simp [IsLiteral]
  have spelled : ("/tape/effect/" ++ verb ++ "/" ++ rest).toList =
      [] ++ '/' :: ("tape".toList ++ '/' :: ("effect".toList ++ '/' :: (verb.toList ++ '/' :: rest.toList))) := by
    simp
  have isSplit : splitSlash ("/tape/effect/" ++ verb ++ "/" ++ rest).toList =
      [[], "tape".toList, "effect".toList, verb.toList] ++ splitSlash rest.toList := by
    rw [spelled, splitSlash_append (by simp), splitSlash_append (by simp), splitSlash_append (by simp),
      splitSlash_append segment.2.1]
    simp
  have nonempty : ("/tape/effect/" ++ verb ++ "/" ++ rest).isEmpty = false := by
    cases isEmpty : ("/tape/effect/" ++ verb ++ "/" ++ rest).isEmpty with
    | false => rfl
    | true =>
      rw [String.isEmpty_iff.mp isEmpty] at spelled
      simp at spelled
  rw [«matches», nonempty, Bool.false_or, isSplit] at matched
  obtain ⟨behind, split⟩ := prefix_of_matchTokens literal matched
  rw [verbOf, ← split]
  simp

/-- The verb of a call's entry. -/
theorem verbOf_appended {w : World} {c : EffectCall} {entry : EventEntry} (journaled : entry ∈ appended w (after w c))
    (isEffect : entry.kind = "effect") :
    verbOf entry.subject = c.verb ∧
      ∀ verb : String, IsSegment verb.toList → («matches» (verbPattern verb) entry.subject ↔ c.verb = verb) := by
  obtain ⟨payload, subject, label⟩ := appended_of_all (labels_body c) w entry journaled isEffect
  have isVerb : verbOf entry.subject = c.verb := by rw [subject, verbOf_derive, label, verbOfLabel_label]
  refine ⟨isVerb, fun verb segment => ?_⟩
  rw [← isVerb, subject]
  exact matches_verbPattern_iff segment payload

end Verbs

/-! ## Verb and status -/

section Truth

variable {w : World} {c : EffectCall} {entry : EventEntry} (journaled : entry ∈ appended w (after w c))
  (isEffect : entry.kind = "effect")

include journaled isEffect

theorem statusAfter_iff (status : EffectStatus) : StatusAfter w c status ↔ c.written w = status.code := by
  rcases recorded_body w c with none | ⟨row, found, isWritten⟩
  · exact absurd isEffect (none entry journaled)
  · simp [StatusAfter, found, isWritten]

omit journaled isEffect in
/-- An observation leaves the row `PENDING` when nothing landed of an idempotent effect, or when it says
    nothing of a pending one. -/
theorem observedStatus_pending_iff (resolution : Int) (row : EffectRecord) :
    RunStore.observedStatus resolution row = EffectStatus.pending.code ↔
      (resolution = EffectResolution.absent.code ∧ row.semantics = EffectSemantics.idempotent.code) ∨
        (row.status = EffectStatus.pending.code ∧ ∀ r : EffectResolution, r.code = resolution → r = .unspecified) := by
  have silent : (∀ r : EffectResolution, r.code = resolution → r = .unspecified) ↔
      resolution ∉ [1, 2, 3, 4, 5] := by
    constructor
    · intro nothing listed
      simp only [List.mem_cons, List.not_mem_nil, or_false] at listed
      rcases listed with rfl | rfl | rfl | rfl | rfl
      · cases nothing .confirmed rfl
      · cases nothing .failed rfl
      · cases nothing .absent rfl
      · cases nothing .duplicate rfl
      · cases nothing .stuck rfl
    · rintro unlisted r rfl
      cases r with
      | unspecified => rfl
      | _ => exact absurd (by decide) unlisted
  rw [silent]
  simp only [RunStore.observedStatus, EffectResolution.code, EffectStatus.code, EffectSemantics.code, List.mem_cons,
    List.not_mem_nil, or_false, not_or]
  split_ifs <;> omega

theorem truthful_iff : Truthful w c entry ↔ KeepsVerb w c := by
  have isVerb := (verbOf_appended journaled isEffect).1
  simp only [Truthful, isVerb, statusAfter_iff journaled isEffect]
  have pending : ∀ status, statusVerb status = some "pending" ↔ status = .pending := by
    intro status
    cases status <;> simp [statusVerb]
  cases c with
  | begin server request ts => exact iff_of_true (.inr ⟨.pending, rfl, rfl⟩) trivial
  | reconcile => exact iff_of_true (.inl rfl) trivial
  | complete runId key status responseJson errorJson ts =>
    simp only [EffectCall.verb, EffectCall.written, KeepsVerb]
    constructor
    · rintro (reconciled | ⟨s, isVerb, same⟩)
      · split_ifs at reconciled <;> simp at reconciled
      · exact ⟨s, by simp [isVerb], same.symm⟩
    · rintro ⟨s, hasVerb, rfl⟩
      refine .inr ⟨s, ?_, rfl⟩
      cases s with
      | unspecified => cases hasVerb
      | _ => rfl
  | attempt runId key error nextDispatchAtMs ts =>
    refine iff_of_true (.inr ?_) trivial
    simp only [EffectCall.verb, EffectCall.written, attemptStatus]
    split
    next => exact ⟨.unknown, rfl, rfl⟩
    next => exact ⟨.pending, rfl, rfl⟩
  | observation runId key resolution externalRef responseJson errorJson kind ts registerTs =>
    simp only [EffectCall.verb, EffectCall.written, KeepsVerb, pending, exists_eq_left]
    cases found : w.effects.find? (runId, key) with
    | none => simp [EffectStatus.code]
    | some row =>
      have outcome := observedStatus_pending_iff resolution row
      simp [outcome]

end Truth

/-- **The verb of an effect's entry.**  For every entry of kind `effect` that a call appends: its verb
    names the status the row has after the call, or is `reconciled`, exactly if the call is an
    observation only where it leaves the row `PENDING`, and a completion only with a status that has a
    verb.  Of the calls that leave the row `CONFIRMED` a reaction on `confirmed/**` sees the completions
    alone, and of those that leave it `CONFIRMED` or `FAILED` a reaction on `pending/**` sees the
    observations. -/
theorem effect_verb_truthful_iff {w : World} {c : EffectCall} {entry : EventEntry}
    (journaled : entry ∈ appended w (after w c)) (isEffect : entry.kind = "effect") :
    (Truthful w c entry ↔ KeepsVerb w c) ∧
    (StatusAfter w c .confirmed →
      (Subjects.matches "/tape/effect/confirmed/**" entry.subject ↔ c.isComplete)) ∧
    (StatusAfter w c .confirmed ∨ StatusAfter w c .failed →
      (¬ Subjects.matches "/tape/effect/pending/**" entry.subject ↔ ¬ c.isObservation)) := by
  have seen := (verbOf_appended journaled isEffect).2
  have written := statusAfter_iff journaled isEffect
  have confirmedSeen : Subjects.matches "/tape/effect/confirmed/**" entry.subject ↔ c.verb = "confirmed" :=
    seen "confirmed" (by simp [Subjects.IsSegment])
  have pendingSeen : Subjects.matches "/tape/effect/pending/**" entry.subject ↔ c.verb = "pending" :=
    seen "pending" (by simp [Subjects.IsSegment])
  refine ⟨truthful_iff journaled isEffect, fun confirmed => ?_, fun settled => ?_⟩
  · rw [confirmedSeen]
    rw [written] at confirmed
    cases c with
    | complete runId key status responseJson errorJson ts =>
      obtain rfl : status = EffectStatus.confirmed.code := confirmed
      exact iff_of_true rfl rfl
    | attempt runId key error nextDispatchAtMs ts =>
      simp only [EffectCall.verb, EffectCall.isComplete]
      split <;> simp
    | _ => simp [EffectCall.verb, EffectCall.isComplete]
  · rw [pendingSeen, not_iff_not]
    simp only [written] at settled
    cases c with
    | begin server request ts => simp [EffectCall.written, EffectStatus.code] at settled
    | complete runId key status responseJson errorJson ts =>
      -- complete_effect names the status it was given
      rcases settled with confirmed | failed
      · obtain rfl : status = EffectStatus.confirmed.code := confirmed
        simp [EffectCall.verb, EffectCall.isObservation]
      · obtain rfl : status = EffectStatus.failed.code := failed
        simp [EffectCall.verb, EffectCall.isObservation, EffectStatus.code]
    | reconcile => simp [EffectCall.verb, EffectCall.isObservation]
    | attempt runId key error nextDispatchAtMs ts =>
      -- an attempt leaves UNKNOWN or PENDING, never an outcome
      simp only [EffectCall.written, attemptStatus] at settled
      split at settled <;> simp [EffectStatus.code] at settled
    | observation => simp [EffectCall.verb, EffectCall.isObservation]

/-! ## A wire -/

/-- A run with one wire of the outbox, `PENDING`. -/
def wiredWorld : World :=
  after (tape.run (quiet (World.empty .sqlite))
      (serve 0 (.beginRun 0 "app" "user" "s" "inv-1" {} "A" 60000 1 "r"))).state
    (.begin 0 { runId := "r", toolName := "wire", customKey := "k", dispatchMode := EffectDispatchMode.outbox.code } 10)

def observeWire : EffectCall := .observation "r" "k" EffectResolution.confirmed.code "ref" "{}" "" "" 20 20

def completeWire : EffectCall := .complete "r" "k" EffectStatus.confirmed.code "{}" "" 20

/-- An observation confirms the wire, under the verb `pending`. -/
theorem confirmed_under_pending : ∃ entry ∈ appended wiredWorld (after wiredWorld observeWire),
    entry.kind = "effect" ∧ entry.subject = "/tape/effect/pending/wire/r" ∧
      StatusAfter wiredWorld observeWire .confirmed ∧ ¬ Truthful wiredWorld observeWire entry ∧
      Subjects.matches "/tape/effect/pending/**" entry.subject ∧
      ¬ Subjects.matches "/tape/effect/confirmed/**" entry.subject := by
  have journaled : (appended wiredWorld (after wiredWorld observeWire)).any fun entry =>
    entry.kind = "effect" && entry.subject = "/tape/effect/pending/wire/r" := by decide +kernel
  obtain ⟨entry, member, isEntry⟩ := List.any_eq_true.mp journaled
  simp only [Bool.and_eq_true, decide_eq_true_eq] at isEntry
  obtain ⟨isEffect, subject⟩ := isEntry
  refine ⟨entry, member, isEffect, subject, ?_, ?_, ?_, ?_⟩
  · rw [statusAfter_iff member isEffect]
    decide +kernel
  · rw [truthful_iff member isEffect]
    rintro ⟨row, -, absent | ⟨-, silent⟩⟩
    · exact absurd absent.1 (by decide)
    · cases silent .confirmed rfl
  · rw [subject]
    decide +kernel
  · rw [subject]
    decide +kernel

/-- A completion confirms it under its own verb. -/
theorem confirmed_under_confirmed : ∃ entry ∈ appended wiredWorld (after wiredWorld completeWire),
    entry.kind = "effect" ∧ Truthful wiredWorld completeWire entry := by
  have journaled : (appended wiredWorld (after wiredWorld completeWire)).any fun entry => entry.kind = "effect" := by
    decide +kernel
  obtain ⟨entry, member, isEntry⟩ := List.any_eq_true.mp journaled
  have isEffect := of_decide_eq_true isEntry
  exact ⟨entry, member, isEffect, (effect_verb_truthful_iff member isEffect).1.mpr ⟨.confirmed, rfl, rfl⟩⟩

end Tape.Effect
