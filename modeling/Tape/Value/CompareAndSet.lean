import Tape.Rules
import Tape.Value.Changes

/-! # Compare-and-set on values

A conditional `write_value` reads the version, upserts and reads back, in three
statements of which no two are one step.  The row of a value is a function of the
changes executed on it (`rowAfter`), and its version never falls.  A conditional
writer that no change overtakes between its statements therefore moves the value
from the version it was given to the next one, and returns the record it wrote.
-/

namespace Tape.Value

open Interleave

/-! ## The row as a function of the log -/

/-- The record an upsert leaves. -/
def written («namespace» key valueJson : String) (version ts : Int) (writer : String) : ValueRecord where
  «namespace» := «namespace»
  key := key
  valueJson := valueJson
  version := version
  tsMs := ts
  writer := writer
  deleted := false

/-- The version of a row; zero while there is none. -/
def versionIn (row : Option ValueRecord) : Int := (row.map ValueRecord.version).getD 0

/-- The upsert of a `write_value`, or the tombstone of a `delete_value`, carried out. -/
def changesValue (pk : String × String) : TapeEvent → Bool
  | ⟨_, .sql (.value (.upsertValue «namespace» key ..)), .ok _⟩ => («namespace», key) = pk
  | ⟨_, .sql (.value (.tombstone «namespace» key _)), .ok _⟩ => («namespace», key) = pk
  | _ => false

def rowOf (pk : String × String) (event : TapeEvent) (row : Option ValueRecord) : Option ValueRecord :=
  match event with
  | ⟨_, .sql (.value (.upsertValue «namespace» key valueJson ts writer)), .ok _⟩ =>
    if («namespace», key) = pk then some (written «namespace» key valueJson (versionIn row + 1) ts writer) else row
  | ⟨_, .sql (.value (.tombstone «namespace» key ts)), .ok _⟩ =>
    if («namespace», key) = pk then
      row.map fun record => { record with valueJson := "", version := record.version + 1, tsMs := ts, deleted := true }
    else row
  | _ => row

/-- The row that the changes of the log, newest first, make of `start`. -/
def rowAfter (pk : String × String) (start : Option ValueRecord) : List TapeEvent → Option ValueRecord
  | [] => start
  | event :: older => rowOf pk event (rowAfter pk start older)

section Rows

variable {pk : String × String} {event : TapeEvent}

theorem rowOf_of_calm (calm : changesValue pk event = false) (row : Option ValueRecord) : rowOf pk event row = row := by
  unfold changesValue at calm
  unfold rowOf
  split
  next => exact if_neg (of_decide_eq_false calm)
  next => exact if_neg (of_decide_eq_false calm)
  next => rfl

theorem versionIn_le_rowOf (row : Option ValueRecord) : versionIn row ≤ versionIn (rowOf pk event row) := by
  unfold rowOf
  split
  next =>
    split
    · simp only [versionIn, written, Option.map_some, Option.getD_some]
      omega
    · exact le_refl _
  next =>
    split
    · cases row with
      | none => exact le_refl _
      | some record =>
        simp only [versionIn, Option.map_some, Option.getD_some]
        omega
    · exact le_refl _
  next => exact le_refl _

theorem rowAfter_append_of_calm {start : Option ValueRecord} {between older : List TapeEvent}
    (calm : ∀ event ∈ between, changesValue pk event = false) :
    rowAfter pk start (between ++ older) = rowAfter pk start older := by
  induction between with
  | nil => rfl
  | cons event between inductionHypothesis =>
    rw [List.cons_append, rowAfter, rowOf_of_calm (calm event List.mem_cons_self)]
    exact inductionHypothesis fun event member => calm event (List.mem_cons_of_mem _ member)

variable (pk) in
theorem versionIn_le_of_suffix (start : Option ValueRecord) {earlier later : List TapeEvent}
    (isSuffix : earlier <:+ later) : versionIn (rowAfter pk start earlier) ≤ versionIn (rowAfter pk start later) := by
  obtain ⟨newer, rfl⟩ := isSuffix
  induction newer with
  | nil => exact le_refl _
  | cons event newer inductionHypothesis => exact inductionHypothesis.trans (versionIn_le_rowOf _)

/-- What an act makes of the row of a value. -/
theorem row_of_answers (tid : Nat) {act : Act} {res : act.Res} {w w' : World} (answers : tape.Answers act w res w') :
    w'.values.find? pk = rowOf pk ⟨tid, act, res⟩ (w.values.find? pk) := by
  rcases act with (s | s | s | s | s | s | s | s | s | s | s) | _ | _
  case sql.value =>
    cases answers with
    | fault failed =>
      obtain rfl := Option.some.inj failed
      cases s <;> rfl
    | exec =>
      cases s with
      | getValue => rfl
      | upsertValue «namespace» key valueJson ts writer =>
        change ((ValueStmt.upsertValue «namespace» key valueJson ts writer).exec w).2.find? pk = ite _ _ _
        simp only [ValueStmt.exec, Sql.Table.find?_upsert]
        split
        next own =>
          subst own
          cases found : w.values.find? («namespace», key) with
          | none => rfl
          | some record =>
            have own : record.pk = («namespace», key) := Sql.Table.key_of_find? found
            obtain ⟨rfl, rfl⟩ := Prod.mk.inj own
            rfl
        next => rfl
      | tombstone «namespace» key ts =>
        change ((ValueStmt.tombstone «namespace» key ts).exec w).2.find? pk = ite _ _ _
        simp only [ValueStmt.exec, Sql.Table.find?_update]
        cases found : w.values.find? pk with
        | none => simp
        | some record =>
          have own : record.pk = pk := Sql.Table.key_of_find? found
          subst own
          by_cases same : («namespace», key) = record.pk
          · simp [same]
          · rw [if_neg same, Option.map_some, if_neg (by simpa using Ne.symm same)]
  all_goals
    cases answers <;> rfl

end Rows

/-! ## Calls -/

def isValueCall : Call → Bool
  | .writeValue .. | .deleteValue .. => true
  | _ => false

/-- The call is a conditional write of the value. -/
def isConditional (pk : String × String) : Call → Bool
  | .writeValue «namespace» key _ ifVersion .. => («namespace», key) = pk && 0 ≤ ifVersion
  | _ => false

/-- The act is the upsert of the value, or a read of it. -/
def onValue (pk : String × String) : Act → Bool
  | .sql (.value (.upsertValue «namespace» key ..)) => («namespace», key) = pk
  | .sql (.value (.getValue «namespace» key)) => («namespace», key) = pk
  | _ => false

/-- No change of the value was carried out since the previous statement of the conditional write. -/
def undisturbed (pk : String × String) (tid : Nat) (call : Call) (h : TapeHist) (act : Act) : Bool :=
  !(isConditional pk call && onValue pk act) || (lastOwn tid h.log).isNone || calmSince tid (changesValue pk) h.log

/-- The value as the event read it. -/
def valueRead (pk : String × String) : TapeEvent → Option (Option ValueRecord)
  | ⟨_, .sql (.value (.getValue «namespace» key)), .ok row⟩ => if («namespace», key) = pk then some row else none
  | _ => none

/-- A value is upserted by a write of it, a conditional one right after it read the version it was given. -/
def proper (tid : Nat) (call : Call) (log : List TapeEvent) : Act → Prop
  | .sql (.value (.upsertValue «namespace» key valueJson ts writer)) =>
    ∃ ifVersion, call = .writeValue «namespace» key valueJson ifVersion writer ts ∧
      (0 ≤ ifVersion → ∃ event row, lastOwn tid log = some event ∧ valueRead («namespace», key) event = some row ∧
        versionIn row = ifVersion)
  | _ => True

/-- A conditional write that has returned a record read it right after its upsert. -/
def writePost (tid : Nat) (call : Call) (out : call.Out) (h : TapeHist) : Prop :=
  match call, out with
  | .writeValue «namespace» key valueJson ifVersion writer ts, .ok record => 0 ≤ ifVersion →
    ∃ older n, ⟨tid, .value (.getValue «namespace» key), .ok (some record)⟩ :: older <:+ h.log ∧
      lastOwn tid older = some ⟨tid, .value (.upsertValue «namespace» key valueJson ts writer), .ok n⟩
  | _, _ => True

abbrev writeContract (pk : String × String) : Nat → Call → Contract World Act Act.Res :=
  tape.tracked (fun tid call h act => undisturbed pk tid call h act) fun tid call h act => proper tid call h.log act

section Safety

variable {ok : Nat → Call → TapeHist → Act → Prop} {tid : Nat} {call : Call} {«namespace» key valueJson writer : String}
  {ts : Int}

variable (tid call ts) in
theorem all_journaledValue (subject : String) (payload : Json) :
    (orElse (RunStore.journalFull "" 0 "value" subject payload ts) ()).run.All fun act =>
    ∀ h : TapeHist, proper tid call h.log act :=
  all_orElse (.exceptBind (all_query fun _ => trivial) fun _ => all_query fun _ => trivial)

/-- The record returned was read by the statement after the upsert. -/
theorem safe_putValue {ifVersion : Int} (h : TapeHist)
    (serves : call = .writeValue «namespace» key valueJson ifVersion writer ts)
    (read : ∀ h', Foreign tid h h' → 0 ≤ ifVersion → ∃ event row, lastOwn tid h'.log = some event ∧
      valueRead («namespace», key) event = some row ∧ versionIn row = ifVersion) :
    tape.Safe (tape.tracked ok (fun tid call h act => proper tid call h.log act) tid call) tid
      (fun result h => ∀ record, result = .ok record →
        ∃ older n, ⟨tid, .value (.getValue «namespace» key), .ok (some record)⟩ :: older <:+ h.log ∧
          lastOwn tid older = some ⟨tid, .value (.upsertValue «namespace» key valueJson ts writer), .ok n⟩)
      (RunStore.putValue «namespace» key valueJson writer ts).run h := by
  refine safe_query (fun _ _ _ isOk => by cases isOk) fun h₁ res₁ state₁ foreign₁ permitted₁ answers₁ => ?_
  refine ⟨⟨_, res₁, state₁, rfl, answers₁, permitted₁, ifVersion, serves, read h₁ foreign₁⟩, fun n isOk => ?_⟩
  subst isOk
  refine safe_query (fun _ _ _ isOk => by cases isOk) fun h₂ res₂ state₂ foreign₂ permitted₂ answers₂ => ?_
  refine ⟨⟨_, res₂, state₂, rfl, answers₂, permitted₂, trivial⟩, fun found isOk => ?_⟩
  subst isOk
  cases found with
  | none => exact fun _ _ _ isOk => by cases isOk
  | some record =>
    have last : lastOwn tid h₂.log = some ⟨tid, .value (.upsertValue «namespace» key valueJson ts writer), .ok n⟩ :=
      foreign₂.lastOwn_eq.trans (lastOwn_push_self ..)
    -- what follows is the journal entry, whether or not it succeeds
    have journals : tape.Safe (tape.tracked ok (fun tid call h act => proper tid call h.log act) tid call) tid
      (fun _ _ => True) _ _ :=
      System.Safe.of_all_proper (fun _ _ => trivial) (all_journaledValue tid call ts
        (Subjects.derive "value" (.obj [("namespace", .str «namespace»), ("key", .str key)]))
        (RunStore.valuePayload «namespace» key valueJson writer record.version))
        (h₂.push tid (.value (.getValue «namespace» key)) (.ok (some record)) state₂)
    refine System.Safe.exceptBind (fun _ _ _ isOk => by cases isOk)
      ((journals.and_suffix (List.suffix_refl _)).mono ?_)
    rintro _ h₃ ⟨-, past⟩ _ _ h₄ foreign₄ record' isOk
    obtain rfl := Except.ok.inj isOk
    exact ⟨h₂.log, n, past.trans foreign₄.suffix, last⟩

theorem safe_writeValue {ifVersion : Int} {h : TapeHist}
    (serves : call = .writeValue «namespace» key valueJson ifVersion writer ts) :
    tape.Safe (tape.tracked ok (fun tid call h act => proper tid call h.log act) tid call) tid
      (fun result h => 0 ≤ ifVersion → ∀ record, result = .ok record →
        ∃ older n, ⟨tid, .value (.getValue «namespace» key), .ok (some record)⟩ :: older <:+ h.log ∧
          lastOwn tid older = some ⟨tid, .value (.upsertValue «namespace» key valueJson ts writer), .ok n⟩)
      (RunStore.writeValue «namespace» key valueJson ifVersion writer ts).run h := by
  refine safe_ite (fun conditional => ?_) fun blind => ?_
  · refine safe_query (fun _ _ _ _ isOk => by cases isOk) fun h₁ res₁ state₁ _ permitted₁ answers₁ => ?_
    refine ⟨⟨_, res₁, state₁, rfl, answers₁, permitted₁, trivial⟩, fun current isOk => ?_⟩
    subst isOk
    refine safe_ite (fun _ => fun _ _ _ _ isOk => by cases isOk) fun same => ?_
    refine (safe_putValue _ serves fun h₂ foreign _ => ?_).mono fun _ _ returned _ => returned
    exact ⟨_, current, foreign.lastOwn_eq.trans (lastOwn_push_self ..), if_pos rfl, not_not.mp same⟩
  · exact (safe_putValue h serves fun _ _ conditional => absurd conditional blind).mono fun _ _ returned _ => returned

theorem all_deleteValue : (RunStore.deleteValue «namespace» key ts).run.All fun act =>
    ∀ h : TapeHist, proper tid call h.log act := by
  refine .exceptBind (all_query fun _ => trivial) fun found => ?_
  cases found with
  | none => exact trivial
  | some record =>
    refine .exceptBind (all_query fun _ => trivial) fun _ => .exceptBind (all_query fun _ => trivial) fun current => ?_
    exact .exceptBind (all_journaledValue tid call ts _ _) fun _ => trivial

end Safety

theorem write_compose (pk : String × String) :
    System.Compose tape (fun call => isValueCall call) (writeContract pk) writePost := by
  refine System.tracked_compose fun {tid call h} admitted _ => ?_
  cases call with
  | writeValue «namespace» key valueJson ifVersion writer ts =>
    refine (safe_writeValue rfl).mono fun result h returned => ?_
    cases result with
    | error e => trivial
    | ok record => exact fun conditional => returned conditional record rfl
  | deleteValue => exact System.Safe.of_all_proper (fun _ _ => trivial) all_deleteValue h
  | _ => cases admitted

/-! ## The log -/

/-- The row is what the changes made of it, and every event of the log was executed when it was so. -/
structure Recorded (pk : String × String) (start : Option ValueRecord) (calls : Nat → Option Call) (h : TapeHist) :
    Prop where
  row : h.state.values.find? pk = rowAfter pk start h.log
  read : Logged (fun event older => ∀ row, valueRead pk event = some row → row = rowAfter pk start older) h.log
  /-- The statements of a conditional write come one right after the other. -/
  calm : Logged (fun event older => ∀ call, calls event.tid = some call → isConditional pk call → onValue pk event.op →
    lastOwn event.tid older = none ∨ calmSince event.tid (changesValue pk) older) h.log
  checked : Logged (fun event older => ∀ call, calls event.tid = some call → proper event.tid call older event.op) h.log

section Recorded

variable {pk : String × String} {start : Option ValueRecord} {calls : Nat → Option Call} {h : TapeHist} {tid : Nat}

/-- A read is of the row as it is. -/
theorem row_of_valueRead {act : Act} {res : act.Res} {state : World} {row : Option ValueRecord}
    (answers : tape.Answers act h.state res state) (isRead : valueRead pk ⟨tid, act, res⟩ = some row) :
    row = h.state.values.find? pk := by
  unfold valueRead at isRead
  split at isRead
  next _ «namespace» key found same =>
    cases same
    split at isRead
    next own =>
      subst own
      cases isRead
      obtain ⟨answer, -⟩ := exec_of_ok answers
      exact Except.ok.inj answer
    next => cases isRead
  next => cases isRead

theorem calm_of_valueRead {event : TapeEvent} {row : Option ValueRecord} (isRead : valueRead pk event = some row) :
    changesValue pk event = false := by
  unfold valueRead at isRead
  split at isRead
  next => rfl
  next => cases isRead

theorem Recorded.push {call : Call} {act : Act} {res : act.Res} {state : World} (recorded : Recorded pk start calls h)
    (serves : calls tid = some call) (answers : tape.Answers act h.state res state)
    (calm : undisturbed pk tid call h act) (isProper : proper tid call h.log act) :
    Recorded pk start calls (h.push tid act res state) where
  row := by
    rw [Hist.push_state, row_of_answers tid answers, recorded.row]
    rfl
  read := ⟨fun row isRead => (row_of_valueRead answers isRead).trans recorded.row, recorded.read⟩
  calm := by
    refine ⟨fun call' serves' conditional isOn => ?_, recorded.calm⟩
    obtain rfl : call = call' := Option.some.inj (serves.symm.trans serves')
    simpa [undisturbed, conditional, isOn] using calm
  checked := by
    refine ⟨fun call' serves' => ?_, recorded.checked⟩
    obtain rfl : call = call' := Option.some.inj (serves.symm.trans serves')
    exact isProper

/-- The upsert of a conditional write finds the version that its check was given. -/
theorem Recorded.version_before (recorded : Recorded pk start calls h) {valueJson writer : String} {ifVersion ts : Int}
    (serves : calls tid = some (.writeValue pk.1 pk.2 valueJson ifVersion writer ts)) (conditional : 0 ≤ ifVersion)
    {newer older : List TapeEvent} {res : Except StoreError Nat}
    (split : h.log = newer ++ ⟨tid, .value (.upsertValue pk.1 pk.2 valueJson ts writer), res⟩ :: older) :
    versionIn (rowAfter pk start older) = ifVersion := by
  obtain ⟨given, same, checked⟩ := recorded.checked.of_split newer split _ serves
  obtain rfl : ifVersion = given := by
    cases same
    rfl
  obtain ⟨event, row, last, isRead, isVersion⟩ := checked conditional
  have isConditional : isConditional pk (.writeValue pk.1 pk.2 valueJson ifVersion writer ts) := by
    simp [isConditional, conditional]
  have calm := (recorded.calm.of_split newer split _ serves isConditional (by simp [onValue])).resolve_left
    (by simp [last])
  obtain ⟨between, oldest, since, quiet⟩ := calmSince_split calm last
  have earlier : h.log = (newer ++ ⟨tid, .value (.upsertValue pk.1 pk.2 valueJson ts writer), res⟩ :: between) ++
      event :: oldest := by
    rw [split, since, List.append_assoc, List.cons_append]
  have atRead : row = rowAfter pk start oldest := recorded.read.of_split _ earlier row isRead
  rw [since, rowAfter_append_of_calm quiet, rowAfter, rowOf_of_calm (calm_of_valueRead isRead), ← atRead, isVersion]

/-- A conditional write that has returned moved the value one version on, to the record it returned. -/
theorem Recorded.won (recorded : Recorded pk start calls h) {valueJson writer : String} {ifVersion ts : Int}
    {record : ValueRecord} (serves : calls tid = some (.writeValue pk.1 pk.2 valueJson ifVersion writer ts))
    (conditional : 0 ≤ ifVersion)
    (returned : ∃ older n, ⟨tid, .value (.getValue pk.1 pk.2), .ok (some record)⟩ :: older <:+ h.log ∧
      lastOwn tid older = some ⟨tid, .value (.upsertValue pk.1 pk.2 valueJson ts writer), .ok n⟩) :
    record = written pk.1 pk.2 valueJson (ifVersion + 1) ts writer ∧
      ∃ older n, ⟨tid, .value (.upsertValue pk.1 pk.2 valueJson ts writer), .ok n⟩ :: older <:+ h.log ∧
        versionIn (rowAfter pk start older) = ifVersion ∧
        rowAfter pk start (⟨tid, .value (.upsertValue pk.1 pk.2 valueJson ts writer), .ok n⟩ :: older) = some record := by
  obtain ⟨later, n, ⟨newest, grown⟩, last⟩ := returned
  have isConditional : isConditional pk (.writeValue pk.1 pk.2 valueJson ifVersion writer ts) := by
    simp [isConditional, conditional]
  have calm := (recorded.calm.of_split newest grown.symm _ serves isConditional (by simp [onValue])).resolve_left
    (by simp [last])
  obtain ⟨between, older, since, quiet⟩ := calmSince_split calm last
  have split : h.log = (newest ++ ⟨tid, .value (.getValue pk.1 pk.2), .ok (some record)⟩ :: between) ++
      ⟨tid, .value (.upsertValue pk.1 pk.2 valueJson ts writer), .ok n⟩ :: older := by
    rw [← grown, since, List.append_assoc, List.cons_append]
  have version := recorded.version_before serves conditional split
  -- the read-back found what the upsert had left
  have found : some record = rowAfter pk start (⟨tid, .value (.upsertValue pk.1 pk.2 valueJson ts writer), .ok n⟩ ::
      older) := by
    rw [← rowAfter_append_of_calm quiet, ← since]
    exact recorded.read.of_split newest grown.symm _ (if_pos rfl)
  have left : rowAfter pk start (⟨tid, .value (.upsertValue pk.1 pk.2 valueJson ts writer), .ok n⟩ :: older) =
      some (written pk.1 pk.2 valueJson (ifVersion + 1) ts writer) := by
    rw [← version]
    exact if_pos rfl
  exact ⟨Option.some.inj (found.trans left), older, n, ⟨_, split.symm⟩, version, found.symm⟩

end Recorded

/-! ## Compare-and-set -/

/-- The `write_value` of thread `tid` has returned `record`. -/
def Wrote (c : TapeConfig) (tid : Nat) («namespace» key valueJson : String) (ifVersion : Int) (writer : String) (ts : Int)
    (record : ValueRecord) : Prop :=
  c.pool[tid]? = some ⟨.writeValue «namespace» key valueJson ifVersion writer ts, .ret (.ok record)⟩

section Runs

variable {«namespace» key : String} {w : World} {choices : List (Choice Call)}
  (calm : tape.Along (System.Permits (fun call => isValueCall call)
    fun tid call h act => undisturbed («namespace», key) tid call h act) (quiet w) choices)

include calm

theorem recorded_of_run : Recorded («namespace», key) (w.values.find? («namespace», key))
    (tape.run (quiet w) choices).callOf (tape.run (quiet w) choices).toHist := by
  refine System.run_tracked (write_compose («namespace», key)) ?_ (quiet_owned w) (System.poolSafe_of_empty rfl) ?_ calm
  · exact fun tid call h act res state serves answers calm isProper recorded =>
      recorded.push serves answers calm isProper
  · exact ⟨rfl, trivial, trivial, trivial⟩

theorem won_of_wrote {tid : Nat} {valueJson writer : String} {ifVersion ts : Int} {record : ValueRecord}
    (conditional : 0 ≤ ifVersion)
    (wrote : Wrote (tape.run (quiet w) choices) tid «namespace» key valueJson ifVersion writer ts record) :
    record = written «namespace» key valueJson (ifVersion + 1) ts writer ∧
      ∃ older n, ⟨tid, .value (.upsertValue «namespace» key valueJson ts writer), .ok n⟩ :: older <:+
          (tape.run (quiet w) choices).log ∧
        versionIn (rowAfter («namespace», key) (w.values.find? («namespace», key)) older) = ifVersion ∧
        rowAfter («namespace», key) (w.values.find? («namespace», key))
          (⟨tid, .value (.upsertValue «namespace» key valueJson ts writer), .ok n⟩ :: older) = some record := by
  have returned := (System.run_safe (write_compose («namespace», key)) (quiet_owned w) (System.poolSafe_of_empty rfl)
    calm).returned wrote
  have serves : (tape.run (quiet w) choices).callOf tid =
      some (.writeValue «namespace» key valueJson ifVersion writer ts) := by
    rw [Config.callOf, show (tape.run (quiet w) choices).pool[tid]? = _ from wrote]
    rfl
  have recorded : Recorded («namespace», key) _ _ _ := recorded_of_run calm
  exact recorded.won serves conditional (returned conditional)

end Runs

/-- **Compare-and-set.**  Along every interleaving of `write_value` and `delete_value` calls, from any
    database, in which no change of the value is carried out between two statements of a conditional write
    of it: of the writes under one version at most one succeeds, and a write that succeeds moved the value
    from its version to the next, to the record it returned, which is its own. -/
theorem compare_and_set («namespace» key : String) (w : World) (choices : List (Choice Call))
    (calm : tape.Along (System.Permits (fun call => isValueCall call)
      fun tid call h act => undisturbed («namespace», key) tid call h act) (quiet w) choices)
    {first : Nat} {valueJson writer : String} {ifVersion ts : Int} {record : ValueRecord} (conditional : 0 ≤ ifVersion)
    (wrote : Wrote (tape.run (quiet w) choices) first «namespace» key valueJson ifVersion writer ts record) :
    (∀ second valueJson' writer' ts' record',
        Wrote (tape.run (quiet w) choices) second «namespace» key valueJson' ifVersion writer' ts' record' →
          second = first) ∧
      record = written «namespace» key valueJson (ifVersion + 1) ts writer ∧
      ∃ before choice after, choices = before ++ choice :: after ∧
        versionOf (tape.run (quiet w) before).state («namespace», key) = ifVersion ∧
        (tape.run (quiet w) (before ++ [choice])).state.values.find? («namespace», key) = some record := by
  obtain ⟨own, older, n, ⟨newer, split⟩, version, left⟩ := won_of_wrote calm conditional wrote
  refine ⟨fun second valueJson' writer' ts' record' wrote' => ?_, own, ?_⟩
  · obtain ⟨own', older', n', ⟨newer', split'⟩, version', left'⟩ := won_of_wrote calm conditional wrote'
    by_contra other
    have moved : versionIn (some record) = ifVersion + 1 := by rw [own]; rfl
    have moved' : versionIn (some record') = ifVersion + 1 := by rw [own']; rfl
    -- one of the two upserts is the older one, and the other one found what it left
    rcases List.suffix_or_suffix_of_suffix ⟨newer, split⟩ ⟨newer', split'⟩ with earlier | earlier
    · rcases List.suffix_cons_iff.mp earlier with same | before
      · exact other (congrArg Event.tid (List.cons.inj same).1).symm
      · have grows := versionIn_le_of_suffix («namespace», key) (w.values.find? («namespace», key)) before
        rw [version', left, moved] at grows
        omega
    · rcases List.suffix_cons_iff.mp earlier with same | before
      · exact other (congrArg Event.tid (List.cons.inj same).1)
      · have grows := versionIn_le_of_suffix («namespace», key) (w.values.find? («namespace», key)) before
        rw [version, left', moved'] at grows
        omega
  · obtain ⟨before, choice, after, rfl, atOlder, atUpsert⟩ := System.choice_of_split split.symm ⟨older, by simp⟩
    have alongs := (System.Along.append.mp calm)
    have through : tape.Along _ (quiet w) (before ++ [choice]) :=
      System.Along.append.mpr ⟨alongs.1, alongs.2.1, trivial⟩
    refine ⟨before, choice, after, rfl, ?_, ?_⟩
    · rw [← version, ← atOlder, ← (recorded_of_run alongs.1).row]
      rfl
    · rw [(recorded_of_run through).row, atUpsert, left]

/-! ## Two writers at once -/

/-- The record that thread `tid` has returned, if it served a write of the value under `ifVersion`. -/
def recordWritten («namespace» key : String) (ifVersion : Int) (c : TapeConfig) (tid : Nat) : Option ValueRecord :=
  match c.pool[tid]? with
  | some ⟨.writeValue n k _ v .., .ret (.ok record)⟩ =>
    if (n, k, v) = («namespace», key, ifVersion) then some record else none
  | _ => none

theorem wrote_of_recordWritten {«namespace» key : String} {ifVersion : Int} {c : TapeConfig} {tid : Nat}
    {record : ValueRecord} (returned : recordWritten «namespace» key ifVersion c tid = some record) :
    ∃ valueJson writer ts, Wrote c tid «namespace» key valueJson ifVersion writer ts record := by
  unfold recordWritten at returned
  split at returned
  next n k valueJson v writer ts record' isReturn =>
    split at returned
    next own =>
      cases own
      cases returned
      exact ⟨valueJson, writer, ts, isReturn⟩
    next => cases returned
  next => cases returned

/-- A first write of the spending limit. -/
def limitBy (writer valueJson : String) : Call := .writeValue "billing" "limit" valueJson 0 writer 10

/-- What thread `tid` has returned, if it wrote the limit under version 0. -/
def limitWritten (choices : List (Choice Call)) (tid : Nat) : Option ValueRecord :=
  recordWritten "billing" "limit" 0 (tape.run (quiet (World.empty .sqlite)) choices) tid

/-- Both writers read that there is no limit, then both upsert, then both read back. -/
def writersAtOnce : List (Choice Call) :=
  [.spawn (limitBy "alice" "10"), .spawn (limitBy "bob" "20"), .exec 0, .exec 1, .exec 0, .exec 1] ++
    List.replicate 8 (.exec 0) ++ List.replicate 8 (.exec 1)

/-- Both conditional writes succeed, and one returns what the other wrote. -/
theorem both_writers_succeed :
    limitWritten writersAtOnce 0 = some (written "billing" "limit" "20" 2 10 "bob") ∧
      limitWritten writersAtOnce 1 = some (written "billing" "limit" "20" 2 10 "bob") := by
  refine ⟨?_, ?_⟩ <;> decide +kernel

/-- One writer after the other. -/
def writersInTurn : List (Choice Call) := Tape.serve 0 (limitBy "alice" "10") ++ Tape.serve 1 (limitBy "bob" "20")

theorem one_writer_succeeds :
    (limitWritten writersInTurn 0).map ValueRecord.version = some 1 ∧ limitWritten writersInTurn 1 = none := by
  have returned : (limitWritten writersInTurn 0).isSome := by decide +kernel
  obtain ⟨record, isRecord⟩ := Option.isSome_iff_exists.mp returned
  obtain ⟨valueJson, writer, ts, wrote⟩ := wrote_of_recordWritten isRecord
  obtain ⟨only, own, -⟩ := compare_and_set "billing" "limit" (World.empty .sqlite) writersInTurn (by decide +kernel)
    (le_refl 0) wrote
  refine ⟨by rw [isRecord, own]; rfl, Option.eq_none_iff_forall_ne_some.mpr fun record' isRecord' => ?_⟩
  obtain ⟨valueJson', writer', ts', wrote'⟩ := wrote_of_recordWritten isRecord'
  exact absurd (only 1 valueJson' writer' ts' record' wrote') (by decide)

end Tape.Value
