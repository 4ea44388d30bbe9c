import Tape.Embedded.Reconciler

/-! # Recording a duplicate

What `record_external_observation` makes of an effect that the counterparty has twice, and what one
tick of the reconciler makes of the effects that it reads.  An observation and the inverse that goes
with it are written together; the inverse is refused where its kind is registered already.
-/

namespace Tape.Embedded.Reconciler

open Sql Interleave

/-! ## What a recorder promises -/

/-- `left` is `s` after the observation made `new` of `row`. -/
structure Records (s : Store) (row : StorageEffect) (o : Observation) (new : StorageEffect) (left : Store) : Prop where
  effect : left.effect row.session row.idempotencyKey = some new
  others : ∀ session key, (session, key) ≠ row.pk → left.effect session key = s.effect session key
  plain : o.compensates = false → left.obligations = s.obligations
  registers : o.compensates → ∃ obligation, left.obligations.rows = s.obligations.rows ++ [obligation] ∧
    obligation.session = row.session ∧ obligation.effectKey = row.idempotencyKey ∧
      obligation.kind = o.compensateOnDuplicateKind

/-- The resolution is one of the five. -/
def known (o : Observation) : Bool := !(o.resolution matches .other _)

/-- A recorder writes what `made` says of the row, or it raises and leaves the store. -/
structure Lawful {ε : Type} (record : Recorder ε) (made : Observation → Int → StorageEffect → Option StorageEffect) :
    Prop where
  made_isSome : ∀ o now row, (made o now row).isSome = known o
  confirms : ∀ o now row new, o.resolution = .duplicate → made o now row = some new → new.status = .confirmed
  refuses : ∀ s session key row o now, s.effect session key = some row →
    made o now row = none ∨ refusedWith s o row = true → ∃ e, record session key o now s = (.error e, s)
  records : ∀ s session key row o now new, s.effect session key = some row → made o now row = some new →
    refusedWith s o row = false → ∃ answer left, record session key o now s = (.ok answer, left) ∧ Records s row o new left

/-! ## The two recorders -/

/-- What the Python method makes of a row. -/
def madePython (o : Observation) (now : Int) (row : StorageEffect) : Option StorageEffect :=
  (o.apply row).map fun _ => (o.update now).apply row

/-- What the Go method makes of a row. -/
def madeGo (unmarshal : Json → Json) (o : Observation) (now : Int) (row : StorageEffect) : Option StorageEffect :=
  (Go.observedColumns o (Go.scanEffect unmarshal row)).map fun columns =>
    (Go.Stmt.commitObservation row.session row.idempotencyKey columns none now).set.apply row

section Recorders

variable {unmarshal : Json → Json} {s : Store} {session : SessionKey} {key : String} {row : StorageEffect}

/-- The effect and its inverse, written together. -/
theorem records_of_insert (found : s.effect session key = some row) (o : Observation) (u : Update StorageEffect.pk)
    {obligations : Table StorageObligation.pk} (plain : o.compensates = false → obligations = s.obligations)
    (registers : o.compensates → ∃ obligation, obligations.rows = s.obligations.rows ++ [obligation] ∧
      obligation.session = row.session ∧ obligation.effectKey = row.idempotencyKey ∧
        obligation.kind = o.compensateOnDuplicateKind) :
    Records s row o (u.apply row) { s.writeEffect session key u with obligations } := by
  have isKey : row.pk = (session, key) := Table.key_of_find? found
  obtain ⟨rfl, rfl⟩ := Prod.mk.inj isKey
  exact {
    effect := s.effect_writeEffect_self found u
    others := fun session' key' ne => s.effect_writeEffect_ne u ne
    plain
    registers }

theorem recordPython_ok {o : Observation} {now : Int} {answer : Option StorageEffect} {left : Store}
    (recorded : recordExternalObservation session key o now s = .ok (answer, left)) :
    recordPython session key o now s = (.ok answer, left) := by
  simp [recordPython, recorded, Except.map]

theorem recordPython_error {o : Observation} {now : Int} {e : ServiceError}
    (raised : recordExternalObservation session key o now s = .error e) :
    recordPython session key o now s = (.error e, s) := by
  simp [recordPython, raised, Except.map]

theorem lawful_python : Lawful recordPython madePython where
  made_isSome o now row := by
    cases resolution : o.resolution <;> simp [madePython, Observation.apply, known, resolution]
  confirms o now row new duplicate isMade := by
    simp only [madePython, Observation.apply, duplicate, Option.map_some, Option.some.injEq] at isMade
    subst isMade
    simp [Observation.update, Observation.apply, duplicate]
  refuses s session key row o now found refused := by
    by_cases unknown : (o.apply row).isNone
    · exact ⟨unknownResolution o, recordPython_error (by simp [recordExternalObservation, found, unknown])⟩
    · have isRefused : refusedWith s o row = true := by
        cases refused with
        | inl isNone => simp [madePython] at isNone; simp [isNone] at unknown
        | inr isRefused => exact isRefused
      have compensates : o.compensates := by
        simp only [refusedWith, Bool.and_eq_true] at isRefused
        exact isRefused.1
      -- the insert comes last, and its clash undoes the UPDATE before it
      have inserted := duplicateObligation_inserted_iff o row now s compensates
      cases isInsert : s.obligations.insert (sameObligation (duplicateObligation o row now s))
          (duplicateObligation o row now s) with
      | some registered => simp [isInsert, isRefused] at inserted
      | none =>
        refine ⟨obligationClash, recordPython_error ?_⟩
        simp [recordExternalObservation, found, unknown, compensates, isInsert]
  records s session key row o now new found isMade allowed := by
    obtain ⟨seen, isSeen, rfl⟩ := Option.map_eq_some_iff.mp isMade
    -- a duplicate registers the inverse besides
    by_cases compensates : o.compensates
    · have inserted := duplicateObligation_inserted_iff o row now s compensates
      cases isInsert : s.obligations.insert (sameObligation (duplicateObligation o row now s))
          (duplicateObligation o row now s) with
      | none => simp [isInsert, allowed] at inserted
      | some registered =>
        have recorded : recordExternalObservation session key o now s =
            .ok (some ((o.update now).apply row),
              { s.writeEffect session key (o.update now) with obligations := registered }) := by
          simp [recordExternalObservation, found, isSeen, compensates, isInsert]
        refine ⟨_, _, recordPython_ok recorded, records_of_insert found o (o.update now) ?_ ?_⟩
        · simp [compensates]
        · exact fun _ => ⟨_, Table.rows_insert isInsert, rfl, rfl, rfl⟩
    · have recorded : recordExternalObservation session key o now s =
          .ok (some ((o.update now).apply row), s.writeEffect session key (o.update now)) := by
        simp [recordExternalObservation, found, isSeen, compensates]
      refine ⟨_, _, recordPython_ok recorded, ?_⟩
      exact records_of_insert found o (o.update now) (fun _ => rfl) fun yes => absurd yes compensates

theorem alone_query {α : Type} {stmt : Go.Stmt} {value : stmt.Value} {f : stmt.Value → Go.GoM α} {s' : Store}
    (executed : stmt.exec s = (.ok value, s')) :
    (Go.service unmarshal).alone (Go.query stmt >>= f).run s = (Go.service unmarshal).alone (f value).run s' :=
  System.alone_exceptBind _ executed

theorem alone_getEffect {α : Type} {f : Option StorageEffect → Go.GoM α} (found : s.effect session key = some row) :
    (Go.service unmarshal).alone (Go.getEffect unmarshal session key >>= f).run s =
      (Go.service unmarshal).alone (f (some (Go.scanEffect unmarshal row))).run s := by
  have read : (Go.service unmarshal).alone (Go.getEffect unmarshal session key).run s =
      (.ok (some (Go.scanEffect unmarshal row)), s) := by
    have executed : (Go.Stmt.getEffect session key).exec s = (.ok (some row), s) := by
      simp [Go.Stmt.exec, found]
    exact alone_query executed
  exact System.alone_exceptBind _ read

/-- The obligation that goes with the observation, if one does. -/
def inverse (o : Observation) (row : StorageEffect) (now : Int) : Option StorageObligation :=
  if o.compensates then some (duplicateObligation o row now .empty) else none

theorem recordGo_unknown (found : s.effect session key = some row) {o : Observation} (now : Int)
    (unknown : Go.observedColumns o (Go.scanEffect unmarshal row) = none) :
    recordGo unmarshal session key o now s = (.error "RecordExternalObservation: unknown resolution", s) := by
  refine (alone_getEffect found).trans ?_
  simp only [unknown]
  rfl

/-- The transaction, then the row as it is afterwards. -/
theorem recordGo_known (found : s.effect session key = some row) {o : Observation} (now : Int)
    {columns : Go.ObservedColumns} (isColumns : Go.observedColumns o (Go.scanEffect unmarshal row) = some columns) :
    recordGo unmarshal session key o now s = (Go.service unmarshal).alone
      (Go.query (.commitObservation session key columns (inverse o row now) now) >>= fun _ =>
        Go.getEffect unmarshal session key).run s := by
  refine (alone_getEffect found).trans ?_
  simp only [isColumns]
  rfl

/-- The obligation as the database numbers it. -/
def numbered (obligation : StorageObligation) (s : Store) : StorageObligation :=
  { obligation with seq := nextObligationSeq s }

theorem inverse_inserted_iff (o : Observation) (row : StorageEffect) (now : Int) (s : Store)
    (compensates : o.compensates) :
    (s.obligations.insert (sameObligation (numbered (duplicateObligation o row now .empty) s))
      (numbered (duplicateObligation o row now .empty) s)).isSome ↔ refusedWith s o row = false := by
  rw [refusedWith, compensates, Bool.true_and]
  exact numbered_inserted_iff (duplicateObligation o row now .empty) s

theorem exec_commitObservation (columns : Go.ObservedColumns) (obligation : StorageObligation) (now : Int) :
    (Go.Stmt.commitObservation session key columns (some obligation) now).exec s =
      match s.obligations.insert (sameObligation (numbered obligation s)) (numbered obligation s) with
      | some registered =>
        (.ok (), { s.writeEffect session key (Go.Stmt.commitObservation session key columns none now).set with
          obligations := registered })
      | none => (.error "UNIQUE constraint failed: tape_obligations", s) := rfl

theorem lawful_go : Lawful (recordGo unmarshal) (madeGo unmarshal) where
  made_isSome o now row := by
    cases resolution : o.resolution <;> simp [madeGo, Go.observedColumns, known, resolution]
  confirms o now row new duplicate isMade := by
    simp only [madeGo, Go.observedColumns, duplicate, Option.map_some, Option.some.injEq] at isMade
    subst isMade
    rfl
  refuses s session key row o now found refused := by
    cases isColumns : Go.observedColumns o (Go.scanEffect unmarshal row) with
    | none => exact ⟨_, recordGo_unknown found now isColumns⟩
    | some columns =>
      have isRefused : refusedWith s o row = true := by
        cases refused with
        | inl isNone => simp [madeGo, isColumns] at isNone
        | inr isRefused => exact isRefused
      have compensates : o.compensates := by
        simp only [refusedWith, Bool.and_eq_true] at isRefused
        exact isRefused.1
      -- the insert and the UPDATE are one transaction, so a clash undoes both
      have inserted := inverse_inserted_iff o row now s compensates
      cases isInsert : s.obligations.insert (sameObligation (numbered (duplicateObligation o row now .empty) s))
          (numbered (duplicateObligation o row now .empty) s) with
      | some registered => simp [isInsert, isRefused] at inserted
      | none =>
        have executed : (Go.Stmt.commitObservation session key columns (inverse o row now) now).exec s =
            (.error "UNIQUE constraint failed: tape_obligations", s) := by
          rw [inverse, if_pos compensates, exec_commitObservation, isInsert]
        exact ⟨_, (recordGo_known found now isColumns).trans (System.alone_exceptBind_error _ executed)⟩
  records s session key row o now new found isMade allowed := by
    obtain ⟨columns, isColumns, rfl⟩ := Option.map_eq_some_iff.mp isMade
    have isKey : row.pk = (session, key) := Table.key_of_find? found
    obtain ⟨rfl, rfl⟩ := Prod.mk.inj isKey
    rw [recordGo_known found now isColumns]
    let u := (Go.Stmt.commitObservation row.session row.idempotencyKey columns none now).set
    -- with a duplicate the inverse is registered beside the columns, else the columns alone are set
    by_cases compensates : o.compensates
    · have inserted := inverse_inserted_iff o row now s compensates
      cases isInsert : s.obligations.insert (sameObligation (numbered (duplicateObligation o row now .empty) s))
          (numbered (duplicateObligation o row now .empty) s) with
      | none => simp [isInsert, allowed] at inserted
      | some registered =>
        have executed : (Go.Stmt.commitObservation row.session row.idempotencyKey columns (inverse o row now) now).exec s =
            (.ok (), { s.writeEffect row.session row.idempotencyKey u with obligations := registered }) := by
          rw [inverse, if_pos compensates, exec_commitObservation, isInsert]
        refine ⟨_, _, alone_query executed, records_of_insert found o u ?_ ?_⟩
        · simp [compensates]
        · exact fun _ => ⟨_, Table.rows_insert isInsert, rfl, rfl, rfl⟩
    · have executed : (Go.Stmt.commitObservation row.session row.idempotencyKey columns (inverse o row now) now).exec s =
          (.ok (), s.writeEffect row.session row.idempotencyKey u) := by
        rw [inverse, if_neg compensates]
        rfl
      refine ⟨_, _, alone_query executed, ?_⟩
      exact records_of_insert found o u (fun _ => rfl) fun yes => absurd yes compensates

end Recorders

/-! ## One duplicate -/

/-- The duplicate is recorded: the method succeeds, the effect is `CONFIRMED`, and there is one obligation
    for it of the kind. -/
def DuplicateRecorded {ε : Type} (record : Recorder ε) (s : Store) (session : SessionKey) (key : String)
    (o : Observation) (now : Int) : Prop :=
  ∃ answer left, record session key o now s = (.ok answer, left) ∧
    (∃ row, left.effect session key = some row ∧ row.status = .confirmed) ∧
      left.obligations.count (StorageObligation.isOf session key o.compensateOnDuplicateKind) = 1

/-- How many obligations of the kind the effect has before a duplicate adds its own. -/
def expected (o : Observation) : Nat := if o.compensateOnDuplicateKind = "" then 1 else 0

section One

variable {ε : Type} {record : Recorder ε} {made : Observation → Int → StorageEffect → Option StorageEffect} {s left : Store}
  {session : SessionKey} {key : String} {row new : StorageEffect} {o : Observation}

theorem refusedWith_false_iff (compensates : o.compensates) : refusedWith s o row = false ↔
    s.obligations.count (StorageObligation.isOf row.session row.idempotencyKey o.compensateOnDuplicateKind) = 0 := by
  have same : ∀ old : StorageObligation, StorageObligation.isOf row.session row.idempotencyKey o.compensateOnDuplicateKind old =
      (row.session = old.session && row.idempotencyKey = old.effectKey && o.compensateOnDuplicateKind = old.kind) := by
    intro old
    simp only [StorageObligation.isOf, eq_comm]
  rw [refusedWith, compensates, Bool.true_and, Table.count, List.length_eq_zero_iff, List.filter_eq_nil_iff,
    List.any_eq_false]
  simp only [same]

/-- A recorded observation adds one obligation, if it asks for one. -/
theorem Records.count (recorded : Records s row o new left) (duplicate : o.resolution = .duplicate) :
    left.obligations.count (StorageObligation.isOf row.session row.idempotencyKey o.compensateOnDuplicateKind) =
      s.obligations.count (StorageObligation.isOf row.session row.idempotencyKey o.compensateOnDuplicateKind) +
        if o.compensateOnDuplicateKind = "" then 0 else 1 := by
  by_cases noKind : o.compensateOnDuplicateKind = ""
  · have plain : o.compensates = false := by simp [Observation.compensates, noKind]
    rw [recorded.plain plain, if_pos noKind, Nat.add_zero]
  · have compensates : o.compensates := by simp [Observation.compensates, noKind, duplicate]
    obtain ⟨obligation, rows, isSession, isKey, isKind⟩ := recorded.registers compensates
    rw [if_neg noKind, Table.count, rows, List.filter_append, List.length_append, Table.count]
    simp [StorageObligation.isOf, isSession, isKey, isKind]

theorem Lawful.duplicate_iff (lawful : Lawful record made) (found : s.effect session key = some row)
    (duplicate : o.resolution = .duplicate) (now : Int) : DuplicateRecorded record s session key o now ↔
      s.obligations.count (StorageObligation.isOf session key o.compensateOnDuplicateKind) = expected o := by
  have isKey : row.pk = (session, key) := Table.key_of_find? found
  obtain ⟨rfl, rfl⟩ := Prod.mk.inj isKey
  have isKnown : (made o now row).isSome := by rw [lawful.made_isSome, known, duplicate]; rfl
  obtain ⟨new, isMade⟩ := Option.isSome_iff_exists.mp isKnown
  cases refused : refusedWith s o row with
  | true =>
    -- the inverse is there, so the observation is rolled back with the one it brings
    have compensates : o.compensates := by
      simp only [refusedWith, Bool.and_eq_true] at refused
      exact refused.1
    have there : s.obligations.count (StorageObligation.isOf row.session row.idempotencyKey o.compensateOnDuplicateKind) ≠ 0 :=
      fun none_ => by simp [(refusedWith_false_iff compensates).mpr none_] at refused
    have kind : o.compensateOnDuplicateKind ≠ "" := by
      simp only [Observation.compensates, Bool.and_eq_true, decide_eq_true_eq] at compensates
      exact compensates.2
    obtain ⟨e, raised⟩ := lawful.refuses s _ _ row o now found (.inr refused)
    simp only [DuplicateRecorded, raised, expected, if_neg kind, there, iff_false]
    rintro ⟨answer, left, answered, -⟩
    cases answered
  | false =>
    obtain ⟨answer, left, answered, recorded⟩ := lawful.records s _ _ row o now new found isMade refused
    have confirmed := lawful.confirms o now row new duplicate isMade
    have counted := recorded.count duplicate
    have recordedIff : DuplicateRecorded record s row.session row.idempotencyKey o now ↔
        left.obligations.count (StorageObligation.isOf row.session row.idempotencyKey o.compensateOnDuplicateKind) = 1 := by
      constructor
      · rintro ⟨answer', left', answered', -, one⟩
        rw [answered] at answered'
        cases answered'
        exact one
      · exact fun one => ⟨answer, left, answered, ⟨new, recorded.effect, confirmed⟩, one⟩
    rw [recordedIff, counted, expected]
    by_cases noKind : o.compensateOnDuplicateKind = ""
    · simp [noKind]
    · simp [noKind]

end One

/-! ## One tick -/

/-- What the effect's connector answers, if it has one that does not raise. -/
def Settings.answer (settings : Settings) (eff : StorageEffect) : Option Observation :=
  match settings.connector eff with
  | none => none
  | some observe =>
    match observe eff with
    | .raised _ => none
    | .returned o => some o

/-- Each effect whose connector answers has become what the answer makes of it. -/
def AnswersRecorded (made : Observation → Int → StorageEffect → Option StorageEffect) (settings : Settings)
    (recordAt : StorageEffect → Int) (effects : List StorageEffect) (final : Store) : Prop :=
  ∀ eff ∈ effects, ∀ o, settings.answer eff = some o →
    ∃ new, made o (recordAt eff) eff = some new ∧ final.effect eff.session eff.idempotencyKey = some new

/-- The answers have known resolutions, and none is a duplicate whose inverse is registered already. -/
def NoneRefused (settings : Settings) (effects : List StorageEffect) (s : Store) : Prop :=
  ∀ eff ∈ effects, ∀ o, settings.answer eff = some o → known o ∧ refusedWith s o eff = false

section Tick

variable {ε : Type} {record : Recorder ε} {made : Observation → Int → StorageEffect → Option StorageEffect}

theorem reconcileOne_skips {settings : Settings} {now : Int} {eff : StorageEffect} (s : Store)
    (silent : settings.answer eff = none) : ∃ audit, reconcileOne record settings now eff s = (.ok audit, s) := by
  unfold Settings.answer at silent
  unfold reconcileOne
  cases connected : settings.connector eff with
  | none => exact ⟨.noConnector eff.idempotencyKey eff.connector, rfl⟩
  | some observe =>
    simp only [connected] at silent
    simp only
    cases observed : observe eff with
    | raised e => exact ⟨.observeRaised eff.idempotencyKey e, rfl⟩
    | returned o => simp [observed] at silent

theorem reconcileOne_records {settings : Settings} {now : Int} {eff : StorageEffect} {o : Observation} (s : Store)
    (answered : settings.answer eff = some o) :
    reconcileOne record settings now eff s =
      ((record eff.session eff.idempotencyKey o now s).1.map fun _ =>
          .outcome eff.idempotencyKey o.resolution o.externalRef,
        (record eff.session eff.idempotencyKey o now s).2) := by
  unfold Settings.answer at answered
  unfold reconcileOne
  cases connected : settings.connector eff with
  | none => simp [connected] at answered
  | some observe =>
    simp only [connected] at answered
    simp only
    cases observed : observe eff with
    | raised e => simp [observed] at answered
    | returned o' =>
      simp only [observed, Option.some.injEq] at answered
      rw [answered]

variable {settings : Settings} {recordAt : StorageEffect → Int} {eff : StorageEffect} {s : Store}

/-- The body of the loop skips the effect, fails and ends the tick, or records the answer. -/
theorem Lawful.reconcileOne_cases (lawful : Lawful record made) (settings : Settings) (now : Int)
    (found : s.effect eff.session eff.idempotencyKey = some eff) :
    (settings.answer eff = none ∧ ∃ audit, reconcileOne record settings now eff s = (.ok audit, s)) ∨
    ∃ o, settings.answer eff = some o ∧
      (((known o = false ∨ refusedWith s o eff = true) ∧ ∃ e, reconcileOne record settings now eff s = (.error e, s)) ∨
        ∃ new audit left, made o now eff = some new ∧ known o ∧ refusedWith s o eff = false ∧
          reconcileOne record settings now eff s = (.ok audit, left) ∧ Records s eff o new left) := by
  cases answered : settings.answer eff with
  | none => exact .inl ⟨rfl, reconcileOne_skips s answered⟩
  | some o =>
    refine .inr ⟨o, rfl, ?_⟩
    rw [reconcileOne_records s answered]
    have isMade := lawful.made_isSome o now eff
    by_cases refused : known o = false ∨ refusedWith s o eff = true
    · have refuses : made o now eff = none ∨ refusedWith s o eff = true := by
        cases refused with
        | inl unknown => exact .inl (by simpa [unknown] using isMade)
        | inr refused => exact .inr refused
      obtain ⟨e, raised⟩ := lawful.refuses s _ _ eff o now found refuses
      exact .inl ⟨refused, e, by rw [raised]; rfl⟩
    · simp only [not_or, Bool.not_eq_false, Bool.not_eq_true] at refused
      rw [refused.1] at isMade
      obtain ⟨new, isMade⟩ := Option.isSome_iff_exists.mp isMade
      obtain ⟨answer, left, recorded, records⟩ := lawful.records s _ _ eff o now new found isMade refused.2
      exact .inr ⟨new, _, left, isMade, refused.1, refused.2, by rw [recorded]; rfl, records⟩

theorem Records.found {o : Observation} {new other : StorageEffect} {left : Store} (recorded : Records s eff o new left)
    (ne : other.pk ≠ eff.pk) (found : s.effect other.session other.idempotencyKey = some other) :
    left.effect other.session other.idempotencyKey = some other :=
  (recorded.others _ _ ne).trans found

/-- An obligation of one effect is in the way of no other effect's. -/
theorem Records.refusedWith_eq {o o' : Observation} {new other : StorageEffect} {left : Store}
    (recorded : Records s eff o new left) (ne : other.pk ≠ eff.pk) : refusedWith left o' other = refusedWith s o' other := by
  cases compensates : o.compensates with
  | false => rw [refusedWith, refusedWith, recorded.plain compensates]
  | true =>
    obtain ⟨obligation, rows, isSession, isKey, -⟩ := recorded.registers compensates
    have elsewhere : ¬(other.session = obligation.session ∧ other.idempotencyKey = obligation.effectKey) := by
      rw [isSession, isKey]
      exact fun same => ne (Prod.ext same.1 same.2)
    have notOwn : (decide (other.session = obligation.session) && decide (other.idempotencyKey = obligation.effectKey)) =
      false := by
      simpa using fun same => (not_and.mp elsewhere) same
    simp only [refusedWith, rows, List.any_append, List.any_cons, List.any_nil, notOwn, Bool.false_and, Bool.or_false]

/-- The rows that a tick reads: each is in the table as it was read, under its own key. -/
structure Read (effects : List StorageEffect) (s : Store) : Prop where
  found : ∀ eff ∈ effects, s.effect eff.session eff.idempotencyKey = some eff
  distinct : (effects.map StorageEffect.pk).Nodup

theorem Read.ne {effects : List StorageEffect} (read : Read (eff :: effects) s) {other : StorageEffect}
    (member : other ∈ effects) : other.pk ≠ eff.pk := by
  intro same
  exact (List.nodup_cons.mp read.distinct).1 (same ▸ List.mem_map_of_mem member)

theorem Read.tail {effects : List StorageEffect} (read : Read (eff :: effects) s) : Read effects s where
  found other member := read.found other (List.mem_cons_of_mem eff member)
  distinct := (List.nodup_cons.mp read.distinct).2

theorem Read.records {effects : List StorageEffect} (read : Read (eff :: effects) s) {o : Observation}
    {new : StorageEffect} {left : Store} (recorded : Records s eff o new left) : Read effects left where
  found other member := recorded.found (read.ne member) (read.tail.found other member)
  distinct := read.tail.distinct

theorem reconcileEach_ok {effects : List StorageEffect} {audit : Audit} {left : Store}
    (one : reconcileOne record settings (recordAt eff) eff s = (.ok audit, left)) :
    (reconcileEach record settings recordAt (eff :: effects) s).2 = (reconcileEach record settings recordAt effects left).2 := by
  simp only [reconcileEach, one]

theorem reconcileEach_error {effects : List StorageEffect} {e : ε} {left : Store}
    (one : reconcileOne record settings (recordAt eff) eff s = (.error e, left)) :
    (reconcileEach record settings recordAt (eff :: effects) s).2 = left := by
  simp only [reconcileEach, one]

/-- A tick writes the effects that it read, and no others. -/
theorem Lawful.effect_reconcileEach (lawful : Lawful record made) {effects : List StorageEffect} (read : Read effects s)
    {session : SessionKey} {key : String} (notRead : (session, key) ∉ effects.map StorageEffect.pk) :
    (reconcileEach record settings recordAt effects s).2.effect session key = s.effect session key := by
  induction effects generalizing s with
  | nil => rfl
  | cons eff effects inductionHypothesis =>
    simp only [List.map_cons, List.mem_cons, not_or] at notRead
    rcases lawful.reconcileOne_cases settings (recordAt eff) (read.found eff List.mem_cons_self) with
      ⟨-, audit, skipped⟩ | ⟨o, -, ⟨-, e, raised⟩ | ⟨new, audit, left, -, -, -, recorded, records⟩⟩
    · rw [reconcileEach_ok skipped, inductionHypothesis read.tail notRead.2]
    · rw [reconcileEach_error raised]
    · rw [reconcileEach_ok recorded, inductionHypothesis (read.records records) notRead.2]
      exact records.others session key notRead.1

/-- One tick records every answer, unless one of them is refused. -/
theorem Lawful.answersRecorded_iff (lawful : Lawful record made) {effects : List StorageEffect} (read : Read effects s)
    (isOpen : ∀ eff ∈ effects, eff.status ≠ .confirmed) :
    AnswersRecorded made settings recordAt effects (reconcileEach record settings recordAt effects s).2 ↔
      NoneRefused settings effects s := by
  induction effects generalizing s with
  | nil => simp [AnswersRecorded, NoneRefused]
  | cons eff effects inductionHypothesis =>
    have isOpenTail : ∀ other ∈ effects, other.status ≠ .confirmed :=
      fun other member => isOpen other (List.mem_cons_of_mem eff member)
    rcases lawful.reconcileOne_cases settings (recordAt eff) (read.found eff List.mem_cons_self) with
      ⟨silent, audit, skipped⟩ | ⟨o, answered, ⟨refused, e, raised⟩ |
        ⟨new, audit, left, isMade, isKnown, allowed, recorded, records⟩⟩
    · rw [reconcileEach_ok skipped]
      have rest := inductionHypothesis read.tail isOpenTail
      simpa [AnswersRecorded, NoneRefused, silent] using rest
    · -- the tick ends here, with the row as it was
      rw [reconcileEach_error raised]
      constructor
      · intro all
        obtain ⟨new, isMade, isNew⟩ := all eff List.mem_cons_self o answered
        rw [read.found eff List.mem_cons_self] at isNew
        cases isNew
        cases refused with
        | inl unknown => simp [← lawful.made_isSome o (recordAt eff) eff, isMade] at unknown
        | inr refused =>
          simp only [refusedWith, Observation.compensates, Bool.and_eq_true, decide_eq_true_eq] at refused
          exact absurd (lawful.confirms o _ _ _ refused.1.1 isMade) (isOpen eff List.mem_cons_self)
      · intro none_
        have both := none_ eff List.mem_cons_self o answered
        simp [both.1, both.2] at refused
    · rw [reconcileEach_ok recorded]
      have rest := inductionHypothesis (read.records records) isOpenTail
      have kept : (reconcileEach record settings recordAt effects left).2.effect eff.session eff.idempotencyKey = some new := by
        rw [lawful.effect_reconcileEach (read.records records) (List.nodup_cons.mp read.distinct).1]
        exact records.effect
      have sameRefusals : NoneRefused settings effects left ↔ NoneRefused settings effects s := by
        refine forall₂_congr fun other member => forall₂_congr fun o' _ => ?_
        rw [records.refusedWith_eq (read.ne member)]
      rw [sameRefusals] at rest
      constructor
      · intro all other member o' answered'
        cases List.mem_cons.mp member with
        | inl same =>
          subst same
          rw [answered] at answered'
          cases answered'
          exact ⟨isKnown, allowed⟩
        | inr member => exact rest.mp (fun other member => all other (List.mem_cons_of_mem eff member)) other member o' answered'
      · intro none_ other member o' answered'
        cases List.mem_cons.mp member with
        | inl same =>
          subst same
          rw [answered] at answered'
          cases answered'
          exact ⟨new, isMade, kept⟩
        | inr member =>
          exact rest.mpr (fun other member => none_ other (List.mem_cons_of_mem eff member)) other member o' answered'

end Tick

/-! ## The window -/

theorem isHot_cases {olderThanMs : Int} {includePending includeUnknown : Bool} {row : StorageEffect}
    (hot : isHot olderThanMs includePending includeUnknown row) : row.status = .pending ∨ row.status = .unknown := by
  unfold isHot at hot
  split at hot
  · simp at hot
    tauto
  · split at hot
    · simp at hot
      tauto
    · simp at hot
      tauto

theorem mem_window {settings : Settings} {clock : Int} {s : Store} {eff : StorageEffect}
    (member : eff ∈ window settings clock s) :
    eff ∈ s.effects.rows ∧ (eff.status = .pending ∨ eff.status = .unknown) := by
  have selected := List.mem_filter.mp (mem_of_mem_orderBy (mem_of_mem_limitRows member))
  exact ⟨selected.1, isHot_cases selected.2⟩

/-- Neither an order nor a limit lists a row twice. -/
theorem nodup_limitRows_orderBy {ρ κ : Type} {column : ρ → κ} {rows : List ρ} (n : Int) (key : ρ → Int)
    (nodup : (rows.map column).Nodup) : ((limitRows n (orderBy key rows)).map column).Nodup := by
  have sorted : ((orderBy key rows).map column).Nodup :=
    ((List.perm_insertionSort (fun a b => key a ≤ key b) rows).map column).nodup_iff.mpr nodup
  unfold limitRows
  split
  · exact sorted
  · exact sorted.sublist ((List.take_sublist _ _).map _)

theorem read_window (settings : Settings) (clock : Int) (s : Store) : Read (window settings clock s) s where
  found _ member := Table.find?_key_of_mem (mem_window member).1
  distinct := nodup_limitRows_orderBy _ _ (s.effects.nodup.sublist (List.filter_sublist.map _))

/-! ## The methods and the ticks -/

/-- Either method records a duplicate exactly if the effect has no obligation of the kind so far (without a
    kind: if it has one already, as none is added), and either tick records its answers exactly if none
    of them is refused. -/
theorem duplicate_recorded_iff (unmarshal : Json → Json) (s : Store) (session : SessionKey) (key : String) (o : Observation)
    (now : Int)
    (settings : Settings) (clock : Int) (recordAt : StorageEffect → Int) :
    (∀ row, s.effect session key = some row → o.resolution = .duplicate →
      (DuplicateRecorded recordPython s session key o now ↔
        s.obligations.count (StorageObligation.isOf session key o.compensateOnDuplicateKind) = expected o) ∧
      (DuplicateRecorded (recordGo unmarshal) s session key o now ↔
        s.obligations.count (StorageObligation.isOf session key o.compensateOnDuplicateKind) = expected o)) ∧
    (AnswersRecorded madePython settings recordAt (window settings clock s) (reconcileOnce settings clock recordAt s).2 ↔
        NoneRefused settings (window settings clock s) s) ∧
    (AnswersRecorded (madeGo unmarshal) (settings.go unmarshal) recordAt (window (settings.go unmarshal) clock s)
        (goReconcileOnce unmarshal settings clock recordAt s).2 ↔
      NoneRefused (settings.go unmarshal) (window (settings.go unmarshal) clock s) s) := by
  constructor
  · intro row found duplicate
    exact ⟨lawful_python.duplicate_iff found duplicate now, lawful_go.duplicate_iff found duplicate now⟩
  · have isOpen : ∀ settings' : Settings, ∀ eff ∈ window settings' clock s, eff.status ≠ .confirmed := by
      intro settings' eff member confirmed
      have pendingOrUnknown := (mem_window member).2
      rw [confirmed] at pendingOrUnknown
      simp at pendingOrUnknown
    exact ⟨lawful_python.answersRecorded_iff (read_window settings clock s) (isOpen settings),
      lawful_go.answersRecorded_iff (read_window (settings.go unmarshal) clock s) (isOpen (settings.go unmarshal))⟩

/-! ## A tool that registered the inverse itself -/

def payee : SessionKey := ⟨"bank", "alice", "s-1"⟩

/-- A wire that goes through the outbox. -/
def transfer (key : String) : BeginEffect where
  session := payee
  invocationId := "inv-1"
  toolName := "wire"
  customKey := key
  semantics := .nonIdempotent
  dispatchMode := .outbox
  businessKey := some key
  connector := some "bank.wire"

def reversal : RegisterCompensation where
  session := payee
  invocationId := "inv-1"
  effectKey := "w-1"
  kind := "wire.reverse"

/-- Two wires whose acks were lost. -/
def unackedWires : Store :=
  let first := leaves (beginEffect (transfer "w-1") 1 .empty) .empty
  let second := leaves (beginEffect (transfer "w-2") 2 first) first
  let lost := leaves (recordDispatchAttempt payee "w-1" "ack lost" 0 3 second) second
  leaves (recordDispatchAttempt payee "w-2" "ack lost" 0 4 lost) lost

/-- The inverse of the second is recorded where nothing was registered. -/
theorem fresh_duplicate_recorded : DuplicateRecorded recordPython unackedWires payee "w-2"
    { resolution := .duplicate, compensateOnDuplicateKind := "wire.reverse" } 6 := by
  have there : (unackedWires.effect payee "w-2").isSome := by decide +kernel
  obtain ⟨row, found⟩ := Option.isSome_iff_exists.mp there
  have free : unackedWires.obligations.count (StorageObligation.isOf payee "w-2" "wire.reverse") = 0 := by decide +kernel
  exact ((duplicate_recorded_iff id unackedWires payee "w-2" _ 6 ⟨fun _ => none, 0, 50⟩ 6 fun _ => 6).1 row found rfl).1.mpr free

/-- The inverse of the first is registered. -/
def lostWires : Store := leaves (registerCompensation reversal 5 unackedWires) unackedWires

/-- The bank has the first wire twice, and the second once. -/
def bank : Connector := fun eff => .returned
  (if eff.idempotencyKey = "w-1" then { resolution := .duplicate, compensateOnDuplicateKind := "wire.reverse" }
    else { resolution := .confirmed })

def reconciling : Settings where
  connectors name := if name = "bank.wire" then some bank else none

/-- The duplicate of the first wire is refused, and no tick gets as far as the second. -/
theorem registered_inverse_blocks :
    ¬ DuplicateRecorded recordPython lostWires payee "w-1"
        { resolution := .duplicate, compensateOnDuplicateKind := "wire.reverse" } 6 ∧
      ¬ DuplicateRecorded (recordGo id) lostWires payee "w-1"
        { resolution := .duplicate, compensateOnDuplicateKind := "wire.reverse" } 6 ∧
      (window reconciling 6 lostWires).map StorageEffect.idempotencyKey = ["w-1", "w-2"] ∧
      (reconcileOnce reconciling 6 (fun _ => 6) lostWires).1 = .error obligationClash ∧
      ((reconcileOnce reconciling 6 (fun _ => 6) lostWires).2.effects.rows.map StorageEffect.status) = [.unknown, .unknown] := by
  have there : (lostWires.effect payee "w-1").isSome := by decide +kernel
  obtain ⟨row, found⟩ := Option.isSome_iff_exists.mp there
  have registered : lostWires.obligations.count (StorageObligation.isOf payee "w-1" "wire.reverse") ≠ 0 := by decide +kernel
  refine ⟨?_, ?_, by decide +kernel, by rfl, by decide +kernel⟩
  · exact fun recorded => registered ((lawful_python.duplicate_iff found rfl 6).mp recorded)
  · exact fun recorded => registered ((lawful_go.duplicate_iff found rfl 6).mp recorded)

end Tape.Embedded.Reconciler
