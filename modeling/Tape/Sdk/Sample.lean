import Tape.Bigtable.Decimal
import Tape.Bigtable.Segments
import Tape.Effect.Recorded
import Tape.Sdk.Plugin
import Tape.Sequential

/-! # Journaled non-determinism

`det.py`: `tape.sample` has a function called once at a position of a run, and journals what it gives; who comes to
the position again gets what is on record.  A position is counted by the name of the sample, in the memory of the
process.
-/

namespace Tape.Sdk

open Interleave Tape.Sequential Effect

/-! ## Positions -/

/-- The `n`-th sample of a name in a run. -/
structure Position where
  runId : String
  name : String
  n : Nat
  deriving DecidableEq, Repr

namespace Position

def key (p : Position) : String := p.runId ++ "/sample-" ++ p.name ++ "-" ++ toString p.n

def request (p : Position) : RunStore.EffectRequest where
  runId := p.runId
  decisionIndex := -1
  toolName := "tape:sample:" ++ p.name
  callIndex := p.n
  requestJson := "{}"
  customKey := p.key

theorem plain_toString (n : Nat) : '-' ∉ (toString n).toList := by
  intro member
  rw [Nat.toString_eq_repr, Nat.toList_repr] at member
  have digit := List.all_eq_true.mp (Bigtable.all_toDigits n) _ member
  cases digit

theorem toList_key (p : Position) : p.key.toList =
    (p.runId ++ "/sample-").toList ++ (p.name.toList ++ '-' :: (toString p.n).toList) := by
  simp [key, String.toList_append]

/-- Positions of a run have different keys: the index is what follows the last hyphen. -/
theorem eq_of_key {p q : Position} (sameRun : p.runId = q.runId) (same : p.key = q.key) : p = q := by
  have texts := congrArg String.toList same
  rw [toList_key, toList_key, sameRun, List.append_right_inj] at texts
  have indices := congrArg (Segments.lastSegment '-') texts
  rw [Segments.lastSegment_append (plain_toString p.n), Segments.lastSegment_append (plain_toString q.n)] at indices
  have sameIndex : p.n = q.n := by
    rw [Nat.toString_eq_repr, Nat.toString_eq_repr, Nat.toList_repr, Nat.toList_repr] at indices
    have read := congrArg Bigtable.digits? indices
    rw [Bigtable.digits?_toDigits, Bigtable.digits?_toDigits] at read
    exact Option.some.inj read
  rw [sameIndex, List.append_left_inj] at texts
  obtain ⟨runId, name, n⟩ := p
  obtain ⟨runId', name', n'⟩ := q
  cases sameRun
  cases sameIndex
  cases String.toList_injective texts
  rfl

theorem key_request (p : Position) : p.request.key = p.key := by
  have nonempty : p.key.isEmpty = false := by
    rw [Bool.eq_false_iff]
    intro empty
    have texts := congrArg String.toList (String.isEmpty_iff.mp empty)
    rw [toList_key] at texts
    simp at texts
  simp [RunStore.EffectRequest.key, request, nonempty]

end Position

/-! ## Samples -/

/-- What `json` does with the values of the functions: `json.dumps(v, default=str)`, and the value that is read from a
    record, if it can be read.  Values are of any type, floats among them. -/
structure SampleJson (V : Type) where
  dumps : V → String
  /-- `json.loads(text)["v"]`; none where it raises. -/
  loads : String → Option V

namespace SampleJson

variable {V : Type} (json : SampleJson V)

/-- `json.dumps({"v": v}, default=str)`. -/
def record (value : V) : String := "\x7b\"v\": " ++ json.dumps value ++ "\x7d"

/-- The value survives the round trip through JSON. -/
def Lossless (value : V) : Prop := json.loads (json.record value) = some value

end SampleJson

variable {V : Type}

/-- A call of `tape.sample` by a process, and what became of its two RPCs. -/
structure SampleCall (V : Type) where
  process : Nat
  runId : String
  name : String := "sample"
  /-- What the function gives, where it is called. -/
  value : V
  server : Nat := 0
  ts : Int
  begun : Fate := .answered
  completed : Fate := .answered

inductive SampleStep (V : Type) where
  | sample (call : SampleCall V)
  /-- The counters are gone. -/
  | restart (process : Nat)
  | other (act : Act)

/-- A sample that returned. -/
structure SampleEvent (V : Type) where
  position : Position
  value : V
  /-- `begin_effect` answered. -/
  isBegun : Bool
  /-- The value was on record, and the function was not called. -/
  isReplay : Bool
  /-- The function was called, and the completion of its value was acknowledged. -/
  isAcknowledged : Bool
  /-- The value that the sample leaves on record. -/
  recorded : Option V

structure Sampling (V : Type) where
  world : World
  /-- `_counters` of each process. -/
  counters : Nat → String × String → Nat
  /-- Newest first. -/
  log : List (SampleEvent V)

namespace Sampling

def start (w : World) : Sampling V := ⟨w, fun _ _ => 0, []⟩

/-- What `sample` reads from the answer of `begin_effect`. -/
def onRecord (json : SampleJson V) (be : EffectRecord) : Option V :=
  if be.status = EffectStatus.confirmed.code && !be.responseJson.isEmpty then json.loads be.responseJson else none

/-- The value that is on record at a position: that of a confirmed effect. -/
def recordedAt (json : SampleJson V) (w : World) (p : Position) : Option V :=
  (w.effects.find? (p.runId, p.key)).bind (onRecord json)

/-- `_next`. -/
def position (s : Sampling V) (c : SampleCall V) : Position := ⟨c.runId, c.name, s.counters c.process (c.runId, c.name)⟩

def count (s : Sampling V) (c : SampleCall V) : Nat → String × String → Nat :=
  let counters := s.counters c.process
  Function.update s.counters c.process (Function.update counters (c.runId, c.name) (counters (c.runId, c.name) + 1))

def sample (json : SampleJson V) (c : SampleCall V) (s : Sampling V) : Sampling V :=
  -- Tape is not active
  if c.runId.isEmpty then s
  else
    let p := s.position c
    match c.begun.reply (RunStore.beginEffect c.server p.request c.ts) s.world with
    | (none, w) =>
      ⟨w, s.count c,
        { position := p, value := c.value, isBegun := false, isReplay := false, isAcknowledged := false
          recorded := recordedAt json w p } :: s.log⟩
    | (some be, w) =>
      match onRecord json be with
      | some v =>
        ⟨w, s.count c,
          { position := p, value := v, isBegun := true, isReplay := true, isAcknowledged := false
            recorded := recordedAt json w p } :: s.log⟩
      | none =>
        let done := c.completed.reply (RunStore.completeEffect c.runId p.key EffectStatus.confirmed.code
          (json.record c.value) "" c.ts) w
        ⟨done.2, s.count c,
          { position := p, value := c.value, isBegun := true, isReplay := false
            isAcknowledged := done.1.any Option.isSome, recorded := recordedAt json done.2 p } :: s.log⟩

end Sampling

namespace SampleStep

variable (json : SampleJson V)

def take (s : Sampling V) : SampleStep V → Sampling V
  | sample c => s.sample json c
  | restart process => { s with counters := Function.update s.counters process fun _ => 0 }
  | other act => { s with world := (act.exec s.world).2 }

/-- The functions give values that survive JSON, and nobody else touches the effects of samples. -/
def Admits (s : Sampling V) : SampleStep V → Prop
  | sample c => json.Lossless c.value
  | restart _ => True
  | other act => ∀ p : Position, (act.exec s.world).2.effects.find? (p.runId, p.key) = s.world.effects.find? (p.runId, p.key)

end SampleStep

/-- What is replayed was given by the function at that position; a value whose completion was acknowledged is on record;
    and once a value is on record, a sample at its position returns it. -/
def Deterministic : List (SampleEvent V) → Prop
  | [] => True
  | e :: earlier =>
    (e.isReplay → ∃ e' ∈ earlier, e'.position = e.position ∧ ¬ e'.isReplay ∧ e'.value = e.value) ∧
      (e.isAcknowledged → e.recorded = some e.value) ∧
      (e.isBegun → ∀ e' ∈ earlier, e'.position = e.position → ∀ v, e'.recorded = some v → e.value = v) ∧
      Deterministic earlier

/-! ## The effects of the two RPCs -/

variable {json : SampleJson V} {p : Position} {w w' : World} {ts : Int}

/-- Nothing is lost, and what is new is pending. -/
structure Extends (w w' : World) : Prop where
  kept : ∀ pk row, w.effects.find? pk = some row → w'.effects.find? pk = some row
  added : ∀ pk row, w'.effects.find? pk = some row → w.effects.find? pk = some row ∨ row.status = EffectStatus.pending.code

theorem Extends.of_effects (same : w'.effects = w.effects) : Extends w w' := by
  constructor <;> simp_all

theorem Extends.trans {w'' : World} (first : Extends w w') (second : Extends w' w'') : Extends w w'' where
  kept pk row found := second.kept pk row (first.kept pk row found)
  added pk row found := by
    cases second.added pk row found with
    | inl earlier => exact first.added pk row earlier
    | inr pending => exact .inr pending

theorem extends_insertEffect {row : EffectRecord} (pending : row.status = EffectStatus.pending.code) (w : World) :
    Extends w ((Act.sql (.effect (.insertEffect row))).exec w).2 where
  kept pk old found := EffectStmt.find?_exec_of_some (s := .insertEffect row) found
  added pk new found := by
    cases before : w.effects.find? pk with
    | some old =>
      have same := EffectStmt.find?_exec_of_some (s := .insertEffect row) before
      exact .inl (same.symm.trans found)
    | none =>
      have inserted := find?_insertRow_of_none before found
      rw [inserted.2]
      exact .inr pending

/-- `begin_effect` of a sample, act by act. -/
theorem extends_begin (fate : Fate) (server : Nat) (p : Position) (ts : Int) (w : World) :
    Extends w (fate.reply (RunStore.beginEffect server p.request ts) w).2 := by
  have quiet : ∀ act, Housekeeping act → ∀ w, Extends w (act.exec w).2 := fun act housekeeping w =>
    .of_effects (housekeeping_keeps_effects act housekeeping w)
  have all : (RunStore.beginEffect server p.request ts).run.All fun act => ∀ w, Extends w (act.exec w).2 := by
    change (RunStore.admitEffect p.request ts).run.All _
    refine .exceptBind (all_query fun _ => .of_effects rfl) fun own => ?_
    cases own with
    | some recorded => exact trivial
    | none =>
      refine .exceptBind trivial fun other => ?_
      cases other with
      | some recorded => exact trivial
      | none =>
        refine .exceptBind (all_nextSeq quiet _) fun seq => ?_
        refine .exceptBind (all_query (extends_insertEffect rfl)) fun _ => ?_
        exact .exceptBind (all_journal quiet _ _ _ _ _ (by constructor)) fun _ => trivial
  exact fate.reply_of_all (I := fun w' => Extends w w') (fun act w' admitted first => first.trans (admitted w')) all
    (.of_effects rfl)

/-- The effect of the key may have been confirmed with the response, and the others are as they were. -/
structure Completes (runId key text : String) (w w' : World) : Prop where
  others : ∀ pk, pk ≠ (runId, key) → w'.effects.find? pk = w.effects.find? pk
  own : ∀ row, w'.effects.find? (runId, key) = some row → w.effects.find? (runId, key) = some row ∨
    row.status = EffectStatus.confirmed.code ∧ row.responseJson = text

variable {runId key text : String}

theorem Completes.of_effects (same : w'.effects = w.effects) : Completes runId key text w w' := by
  constructor <;> simp_all

theorem Completes.trans {w'' : World} (first : Completes runId key text w w') (second : Completes runId key text w' w'') :
    Completes runId key text w w'' where
  others pk other := (second.others pk other).trans (first.others pk other)
  own row found := by
    cases second.own row found with
    | inl earlier => exact first.own row earlier
    | inr recorded => exact .inr recorded

theorem completes_setOutcome (w : World) : Completes runId key text w
    ((Act.sql (.effect (.setOutcome runId key EffectStatus.confirmed.code text "" ts))).exec w).2 where
  others pk other := by
    have updated := find?_exec (s := .setOutcome runId key EffectStatus.confirmed.code text "" ts)
      (fun _ same => by cases same) w pk
    refine updated.trans ?_
    cases found : w.effects.find? pk with
    | none => rfl
    | some row =>
      have isKey : row.pk = pk := Sql.Table.key_of_find? found
      simp [EffectStmt.apply, EffectStmt.selects, isKey, other]
  own row found := by
    have updated := find?_exec (s := .setOutcome runId key EffectStatus.confirmed.code text "" ts)
      (fun _ same => by cases same) w (runId, key)
    have isAfter := found.symm.trans updated
    cases before : w.effects.find? (runId, key) with
    | none =>
      rw [before] at isAfter
      cases isAfter
    | some old =>
      have isKey : old.pk = (runId, key) := Sql.Table.key_of_find? before
      rw [before, Option.map_some, Option.some.injEq] at isAfter
      simp [isAfter, EffectStmt.apply, EffectStmt.selects, EffectStmt.assign, isKey]

theorem completes_complete (fate : Fate) (runId key text : String) (ts : Int) (w : World) : Completes runId key text w
    (fate.reply (RunStore.completeEffect runId key EffectStatus.confirmed.code text "" ts) w).2 := by
  have quiet : ∀ act, Housekeeping act → ∀ w, Completes runId key text w (act.exec w).2 := fun act housekeeping w =>
    .of_effects (housekeeping_keeps_effects act housekeeping w)
  have all : Prog.All (fun act => ∀ w, Completes runId key text w (act.exec w).2)
      (RunStore.completeEffect runId key EffectStatus.confirmed.code text "" ts).run :=
    all_completeEffect quiet (fun w => .of_effects rfl) completes_setOutcome
  exact fate.reply_of_all (I := fun w' => Completes runId key text w w')
    (fun act w' admitted first => first.trans (admitted w')) all (.of_effects rfl)

/-! ## What is journaled -/

variable {s : Sampling V} {step : SampleStep V} {c : SampleCall V}

theorem onRecord_of_lossless {value : V} (lossless : json.Lossless value) {be : EffectRecord}
    (confirmed : be.status = EffectStatus.confirmed.code) (response : be.responseJson = json.record value) :
    Sampling.onRecord json be = some value := by
  have nonempty : (json.record value).isEmpty = false := by
    rw [Bool.eq_false_iff]
    intro empty
    have texts := congrArg String.toList (String.isEmpty_iff.mp empty)
    simp [SampleJson.record, String.toList_append] at texts
  unfold SampleJson.Lossless at lossless
  simp [Sampling.onRecord, confirmed, response, nonempty, lossless]

theorem confirmed_of_onRecord {be : EffectRecord} {v : V} (onRecord : Sampling.onRecord json be = some v) :
    be.status = EffectStatus.confirmed.code := by
  unfold Sampling.onRecord at onRecord
  split at onRecord
  next readable => exact of_decide_eq_true (Bool.and_eq_true_iff.mp readable).1
  next => cases onRecord

theorem recordedAt_of_found {row : EffectRecord} (found : w.effects.find? (p.runId, p.key) = some row) :
    Sampling.recordedAt json w p = Sampling.onRecord json row := by
  rw [Sampling.recordedAt, found, Option.bind_some]

/-- What is on record stays on record, and what is on record was given by the function. -/
structure Journaled (json : SampleJson V) (s : Sampling V) : Prop where
  kept : ∀ e ∈ s.log, ∀ v, e.recorded = some v → Sampling.recordedAt json s.world e.position = some v
  rows : ∀ p : Position, ∀ row, s.world.effects.find? (p.runId, p.key) = some row →
    row.status = EffectStatus.pending.code ∨ row.status = EffectStatus.confirmed.code ∧
      ∃ e ∈ s.log, e.position = p ∧ ¬ e.isReplay ∧ json.Lossless e.value ∧ row.responseJson = json.record e.value

/-- A world that extends another one still has on record what that had. -/
theorem Extends.recordedAt (extends_ : Extends w w') {v : V} (recorded : Sampling.recordedAt json w p = some v) :
    Sampling.recordedAt json w' p = some v := by
  obtain ⟨row, found, onRecord⟩ := Option.bind_eq_some_iff.mp recorded
  rw [recordedAt_of_found (extends_.kept _ _ found), onRecord]

/-- A sample whose `begin_effect` left no more than pending effects, and which logs `e`. -/
theorem Journaled.extend (journaled : Journaled json s) (extends_ : Extends s.world w)
    (counters : Nat → String × String → Nat) {e : SampleEvent V}
    (isRecorded : e.recorded = Sampling.recordedAt json w e.position) :
    Journaled json ⟨w, counters, e :: s.log⟩ where
  kept := by
    intro e' logged v recorded
    cases List.mem_cons.mp logged with
    | inl new => rw [new] at recorded ⊢; exact isRecorded.symm.trans recorded
    | inr earlier => exact extends_.recordedAt (journaled.kept e' earlier v recorded)
  rows := by
    intro p row found
    cases extends_.added _ _ found with
    | inr pending => exact .inl pending
    | inl before =>
      cases journaled.rows p row before with
      | inl pending => exact .inl pending
      | inr recorded =>
        obtain ⟨confirmed, e', logged, given⟩ := recorded
        exact .inr ⟨confirmed, e', List.mem_cons_of_mem _ logged, given⟩

/-- What `begin_effect` answers is the row of the position. -/
theorem found_of_reply {fate : Fate} {server : Nat} {be : EffectRecord}
    (reply : fate.reply (RunStore.beginEffect server p.request ts) w = (some be, w')) :
    w'.effects.find? (p.runId, p.key) = some be := by
  cases fate with
  | failed acts => cases reply
  | answered =>
    obtain ⟨answer, isAfter⟩ := Prod.mk.inj reply
    have answered : (tape.alone (RunStore.beginEffect server p.request ts).run w).1 = .ok be := by
      cases result : (tape.alone (RunStore.beginEffect server p.request ts).run w).1 with
      | error e => simp [result, Except.toOption] at answer
      | ok row =>
        rw [result] at answer
        cases answer
        rfl
    have found := found_of_beginEffect (r := p.request) (by rfl) (Prod.ext answered isAfter)
    rwa [p.key_request] at found

/-- The function is called only while the effect of the position is pending. -/
theorem pending_of_unrecorded (journaled : Journaled json s) (extends_ : Extends s.world w) {be : EffectRecord}
    (found : w.effects.find? (p.runId, p.key) = some be) (unrecorded : Sampling.onRecord json be = none) :
    be.status = EffectStatus.pending.code := by
  cases extends_.added _ _ found with
  | inr pending => exact pending
  | inl before =>
    cases journaled.rows p be before with
    | inl pending => exact pending
    | inr recorded =>
      obtain ⟨confirmed, e, logged, _, _, lossless, response⟩ := recorded
      rw [onRecord_of_lossless lossless confirmed response] at unrecorded
      cases unrecorded

/-- A value on record was given by the function at the position. -/
theorem given_of_onRecord (journaled : Journaled json s) (extends_ : Extends s.world w) {be : EffectRecord}
    (found : w.effects.find? (p.runId, p.key) = some be) {v : V} (onRecord : Sampling.onRecord json be = some v) :
    ∃ e ∈ s.log, e.position = p ∧ ¬ e.isReplay ∧ e.value = v := by
  have notPending : ¬ be.status = EffectStatus.pending.code := by
    rw [confirmed_of_onRecord onRecord]
    decide
  have before := (extends_.added _ _ found).resolve_right notPending
  obtain ⟨confirmed, e, logged, samePosition, given, lossless, response⟩ := (journaled.rows p be before).resolve_left notPending
  rw [onRecord_of_lossless lossless confirmed response] at onRecord
  cases onRecord
  exact ⟨e, logged, samePosition, given, rfl⟩

/-- A sample whose function was called, after its completion. -/
theorem Journaled.complete (journaled : Journaled json s) (extends_ : Extends s.world w) {be : EffectRecord}
    (found : w.effects.find? (p.runId, p.key) = some be) (unrecorded : Sampling.onRecord json be = none)
    (counters : Nat → String × String → Nat) {value : V} (lossless : json.Lossless value)
    (completes : Completes p.runId p.key (json.record value) w w') (acknowledged : Bool) :
    Journaled json ⟨w', counters,
      { position := p, value, isBegun := true, isReplay := false, isAcknowledged := acknowledged
        recorded := Sampling.recordedAt json w' p } :: s.log⟩ where
  kept := by
    intro e logged v recorded
    cases List.mem_cons.mp logged with
    | inl new => rw [new] at recorded ⊢; exact recorded
    | inr earlier =>
      have before := extends_.recordedAt (journaled.kept e earlier v recorded)
      rw [Sampling.recordedAt, completes.others, ← Sampling.recordedAt, before]
      -- a value on record at this key would have been replayed
      intro sameKey
      have samePosition : e.position = p := Position.eq_of_key (congrArg Prod.fst sameKey) (congrArg Prod.snd sameKey)
      rw [samePosition, recordedAt_of_found found, unrecorded] at before
      cases before
  rows := by
    intro q row isRow
    by_cases sameKey : (q.runId, q.key) = (p.runId, p.key)
    · have samePosition : q = p := Position.eq_of_key (congrArg Prod.fst sameKey) (congrArg Prod.snd sameKey)
      subst samePosition
      cases completes.own row isRow with
      | inl same =>
        rw [found] at same
        cases same
        exact .inl (pending_of_unrecorded journaled extends_ found unrecorded)
      | inr recorded => exact .inr ⟨recorded.1, _, List.mem_cons_self, rfl, by simp, lossless, recorded.2⟩
    · rw [completes.others _ sameKey] at isRow
      cases extends_.added _ _ isRow with
      | inr pending => exact .inl pending
      | inl before =>
        cases journaled.rows q row before with
        | inl pending => exact .inl pending
        | inr recorded =>
          obtain ⟨confirmed, e, logged, given⟩ := recorded
          exact .inr ⟨confirmed, e, List.mem_cons_of_mem _ logged, given⟩

/-! ## A sample, by what `begin_effect` answered -/

theorem sample_of_unbegun (active : c.runId.isEmpty = false)
    (reply : c.begun.reply (RunStore.beginEffect c.server (s.position c).request c.ts) s.world = (none, w)) :
    s.sample json c = ⟨w, s.count c,
      { position := s.position c, value := c.value, isBegun := false, isReplay := false, isAcknowledged := false
        recorded := Sampling.recordedAt json w (s.position c) } :: s.log⟩ := by
  simp only [Sampling.sample, active, reply, Bool.false_eq_true, if_false]

theorem sample_of_recorded (active : c.runId.isEmpty = false) {be : EffectRecord} {v : V}
    (reply : c.begun.reply (RunStore.beginEffect c.server (s.position c).request c.ts) s.world = (some be, w))
    (onRecord : Sampling.onRecord json be = some v) :
    s.sample json c = ⟨w, s.count c,
      { position := s.position c, value := v, isBegun := true, isReplay := true, isAcknowledged := false
        recorded := Sampling.recordedAt json w (s.position c) } :: s.log⟩ := by
  simp only [Sampling.sample, active, reply, onRecord, Bool.false_eq_true, if_false]

theorem sample_of_unrecorded (active : c.runId.isEmpty = false) {be : EffectRecord} {done : Option (Option EffectRecord) × World}
    (reply : c.begun.reply (RunStore.beginEffect c.server (s.position c).request c.ts) s.world = (some be, w))
    (onRecord : Sampling.onRecord json be = none)
    (isDone : c.completed.reply (RunStore.completeEffect c.runId (s.position c).key EffectStatus.confirmed.code
      (json.record c.value) "" c.ts) w = done) :
    s.sample json c = ⟨done.2, s.count c,
      { position := s.position c, value := c.value, isBegun := true, isReplay := false
        isAcknowledged := done.1.any Option.isSome, recorded := Sampling.recordedAt json done.2 (s.position c) } :: s.log⟩ := by
  simp only [Sampling.sample, active, reply, onRecord, isDone, Bool.false_eq_true, if_false]

/-- A completion that is acknowledged has put the value on record. -/
theorem recordedAt_of_acknowledged {fate : Fate} {value : V} (lossless : json.Lossless value) {be : EffectRecord}
    (found : w.effects.find? (p.runId, p.key) = some be) (pending : be.status = EffectStatus.pending.code)
    (acknowledged : (fate.reply (RunStore.completeEffect p.runId p.key EffectStatus.confirmed.code (json.record value) "" ts)
      w).1.any Option.isSome) :
    Sampling.recordedAt json (fate.reply (RunStore.completeEffect p.runId p.key EffectStatus.confirmed.code
      (json.record value) "" ts) w).2 p = some value := by
  cases fate with
  | failed acts => simp [Fate.reply] at acknowledged
  | answered =>
    have records : Records p.runId p.key (json.record value) (tape.alone (RunStore.completeEffect p.runId p.key
        EffectStatus.confirmed.code (json.record value) "" ts).run w).2 := records_completeEffect found pending _ _
    obtain ⟨row, isRow, confirmed, response⟩ := records
    rw [Fate.reply, recordedAt_of_found isRow, onRecord_of_lossless lossless confirmed response]

/-- What `begin_effect` answers has the value that an earlier sample has left on record. -/
theorem onRecord_of_kept (journaled : Journaled json s) (extends_ : Extends s.world w) {be : EffectRecord}
    (found : w.effects.find? (p.runId, p.key) = some be) {e : SampleEvent V} (logged : e ∈ s.log) (samePosition : e.position = p)
    {v : V} (recorded : e.recorded = some v) : Sampling.onRecord json be = some v := by
  subst samePosition
  rw [← recordedAt_of_found found]
  exact extends_.recordedAt (journaled.kept e logged v recorded)

theorem Journaled.sample (journaled : Journaled json s) (deterministic : Deterministic s.log)
    (lossless : json.Lossless c.value) :
    Journaled json (s.sample json c) ∧ Deterministic (s.sample json c).log := by
  cases active : c.runId.isEmpty with
  | true =>
    have inert : s.sample json c = s := by simp only [Sampling.sample, active, if_true]
    rw [inert]
    exact ⟨journaled, deterministic⟩
  | false =>
    have extends_ := extends_begin c.begun c.server (s.position c) c.ts s.world
    cases reply : c.begun.reply (RunStore.beginEffect c.server (s.position c).request c.ts) s.world with
    | mk answer w =>
      rw [reply] at extends_
      cases answer with
      | none =>
        rw [sample_of_unbegun active reply]
        exact ⟨journaled.extend extends_ _ rfl, by simp, by simp, by simp, deterministic⟩
      | some be =>
        have found := found_of_reply reply
        cases onRecord : Sampling.onRecord json be with
        | some v =>
          rw [sample_of_recorded active reply onRecord]
          refine ⟨journaled.extend extends_ _ rfl, fun _ => ?_, by simp, fun _ e logged samePosition v' recorded =>
            ?_, deterministic⟩
          · exact given_of_onRecord journaled extends_ found onRecord
          · have own := onRecord_of_kept journaled extends_ found logged samePosition recorded
            exact Option.some.inj (onRecord.symm.trans own)
        | none =>
          rw [sample_of_unrecorded active reply onRecord rfl]
          have pending := pending_of_unrecorded journaled extends_ found onRecord
          have completes := completes_complete c.completed c.runId (s.position c).key (json.record c.value) c.ts w
          refine ⟨journaled.complete extends_ found onRecord _ lossless completes _, by simp, ?_, ?_, deterministic⟩
          · exact recordedAt_of_acknowledged lossless found pending
          · intro _ e logged samePosition v recorded
            -- it would have been replayed
            rw [onRecord_of_kept journaled extends_ found logged samePosition recorded] at onRecord
            cases onRecord

theorem Journaled.take (journaled : Journaled json s) (deterministic : Deterministic s.log) (admits : step.Admits json s) :
    Journaled json (step.take json s) ∧ Deterministic (step.take json s).log := by
  cases step with
  | sample c => exact journaled.sample deterministic admits
  | restart process => exact ⟨⟨journaled.kept, journaled.rows⟩, deterministic⟩
  | other act =>
    refine ⟨⟨fun e logged v recorded => ?_, fun p row found => ?_⟩, deterministic⟩
    · have before := journaled.kept e logged v recorded
      rwa [Sampling.recordedAt, ← admits e.position, ← Sampling.recordedAt] at before
    · exact journaled.rows p row ((admits p).symm.trans found)

/-- Over any sequence of samples by any number of processes, with restarts and with RPCs that fail at any act: what a
    sample replays, the function gave at its position; an acknowledged value is on record; and once a value is on record
    every sample at its position that `begin_effect` answers returns it. -/
theorem samples_deterministic (json : SampleJson V) (w : World)
    (unsampled : ∀ p : Position, w.effects.find? (p.runId, p.key) = none) (steps : List (SampleStep V))
    (admits : Along (SampleStep.take json) (SampleStep.Admits json) (.start w) steps) :
    Deterministic (run (SampleStep.take json) (.start w) steps).log := by
  have start : Journaled json (.start w) ∧ Deterministic (Sampling.start (V := V) w).log := by
    refine ⟨⟨fun e logged => (List.not_mem_nil logged).elim, fun p row found => ?_⟩, trivial⟩
    rw [Sampling.start, unsampled p] at found
    cases found
  refine (run_invariant (I := fun s => Journaled json s ∧ Deterministic s.log) ?_ start admits).2
  exact fun s step kept admits => kept.1.take kept.2 admits

/-! ## The clock of a run over a restart -/

/-- Seconds with their tenths, as JSON writes them. -/
def tenths : SampleJson (Nat × Fin 10) where
  dumps v := toString v.1 ++ "." ++ toString v.2.val
  loads text := if text = "\x7b\"v\": 7.5\x7d" then some (7, 5) else none

def sampledRun : World :=
  (tape.alone (RunStore.beginRun 0 "app" "user" "s" "inv" {} "A" 60000 1 "r").run (World.empty .sqlite)).2

/-- `tape.now`; the first process loses the answer to its completion. -/
def readClock (process : Nat) (completed : Fate) (ts : Int) : SampleStep (Nat × Fin 10) :=
  .sample { process, runId := "r", name := "now", value := (7, 5), ts, completed }

def clockReadings : List (SampleStep (Nat × Fin 10)) :=
  [readClock 0 (.failed 4) 10, readClock 1 .answered 20, .restart 0, readClock 0 .answered 30]

theorem clock_deterministic :
    (run (SampleStep.take tenths) (.start sampledRun) clockReadings).log.map SampleEvent.isReplay = [true, true, false] ∧
    Deterministic (run (SampleStep.take tenths) (.start sampledRun) clockReadings).log := by
  refine ⟨by decide +kernel, samples_deterministic tenths sampledRun (fun p => by rfl) clockReadings ?_⟩
  have lossless : tenths.Lossless (7, 5) := by
    have text : tenths.record (7, 5) = "\x7b\"v\": 7.5\x7d" := by decide +kernel
    rw [SampleJson.Lossless, text]
    rfl
  exact ⟨lossless, lossless, trivial, lossless, trivial⟩

end Tape.Sdk
