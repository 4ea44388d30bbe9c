import Tape.Compensation.Obligation

/-! # Registering inverses

`register_compensation` is meant to be idempotent on `(run_id, effect_key, kind)`: it
looks for the obligation and inserts it when there is none.  The table's key is
`(run_id, seq)` with a fresh `seq`, so nothing but the look itself keeps a second
registrar from inserting the same inverse again.
-/

namespace Tape.Compensation

open Interleave

/-- What an obligation is the inverse of. -/
abbrev inverse (row : ObligationRecord) : String × String × String := (row.runId, row.effectKey, row.kind)

/-- No inverse is queued twice. -/
def UniqueInverses (w : World) : Prop := (w.obligations.rows.map inverse).Nodup

instance (w : World) : Decidable (UniqueInverses w) := inferInstanceAs (Decidable (List.Nodup _))

/-- The thread looked for the inverse and found none. -/
def looked (tid : Nat) (what : String × String × String) : TapeEvent → Bool
  | ⟨looker, .sql (.obligation (.findObligation runId effectKey kind)), .ok none⟩ =>
    looker = tid && (runId, effectKey, kind) = what
  | _ => false

/-- An obligation for the inverse was inserted. -/
def inserted (what : String × String × String) : TapeEvent → Bool
  | ⟨_, .sql (.obligation (.insertObligation row)), .ok _⟩ => inverse row = what
  | _ => false

/-- Nobody has inserted the inverse since the thread looked for it. -/
def undisturbed (tid : Nat) (what : String × String × String) : List TapeEvent → Bool
  | [] => true
  | event :: older => looked tid what event || (!inserted what event && undisturbed tid what older)

/-- `act` inserts no obligation that another thread has inserted since this one looked for it. -/
def registersUndisturbed (tid : Nat) (h : TapeHist) : Act → Bool
  | .sql (.obligation (.insertObligation row)) => undisturbed tid (inverse row) h.log
  | _ => true

/-! ## The statements -/

theorem inverse_apply (s : ObligationStmt) (row : ObligationRecord) : inverse (s.apply row) = inverse row := by
  unfold ObligationStmt.apply
  split
  · cases s <;> rfl
  · rfl

/-- The inverses an executed statement leaves are those that were there, and the one it inserted. -/
theorem inverses_of_answers (tid : Nat) {act : Act} {w w' : World} {res : act.Res}
    (answers : tape.Answers act w res w') :
    w'.obligations.rows.map inverse = w.obligations.rows.map inverse ∨
      ∃ row, (⟨tid, act, res⟩ : TapeEvent) = ⟨tid, .obligation (.insertObligation row), .ok ()⟩ ∧
        w'.obligations.rows.map inverse = w.obligations.rows.map inverse ++ [inverse row] := by
  rcases obligations_cases answers with same | ⟨s, rfl, rfl, rfl⟩
  · exact .inl (by rw [same])
  · have updated : (w.obligations.update s.selects s.set).rows.map inverse = w.obligations.rows.map inverse := by
      simp only [Sql.Table.update, List.map_map]
      exact List.map_congr_left fun row _ => inverse_apply s row
    cases s with
    | insertObligation row =>
      cases accepted : w.obligations.insert (fun _ => false) row with
      | none => exact .inl (by simp [Act.exec, Stmt.exec, ObligationStmt.exec, insertRow, accepted])
      | some table =>
        refine .inr ⟨row, ?_, ?_⟩
        · simp [Act.exec, Stmt.exec, ObligationStmt.exec, insertRow, accepted]
          rfl
        · simp [Act.exec, Stmt.exec, ObligationStmt.exec, insertRow, accepted, Sql.Table.rows_insert accepted]
    | claimObligation => exact .inl updated
    | recordAttempt => exact .inl updated
    | resolve => exact .inl updated
    | _ => exact .inl rfl

/-! ## Looking first -/

/-- A thread that looked for an inverse nobody has inserted since is right that there is none. -/
def LooksHold (h : TapeHist) : Prop :=
  ∀ tid what, (∃ event ∈ h.log, looked tid what event) → undisturbed tid what h.log →
    ∀ old ∈ h.state.obligations.rows, inverse old ≠ what

/-- The thread inserts what it has looked for. -/
def LooksFirst (tid : Nat) (_ : Call) (h : TapeHist) : Act → Prop
  | .sql (.obligation (.insertObligation row)) => ∃ event ∈ h.log, looked tid (inverse row) event
  | _ => True

section Steps

variable {tid : Nat} {call : Call} {h : TapeHist} {act : Act} {res : act.Res} {state : World}

/-- What was looked for and not found is not there. -/
theorem absent_of_looked {looker : Nat} {what : String × String × String}
    (answers : tape.Answers act h.state res state) (isLook : looked looker what ⟨tid, act, res⟩) :
    ∀ old ∈ state.obligations.rows, inverse old ≠ what := by
  unfold looked at isLook
  split at isLook
  next _ tid' runId effectKey kind same =>
    cases same
    simp only [Bool.and_eq_true, decide_eq_true_eq] at isLook
    obtain ⟨read, rfl⟩ := exec_of_ok answers
    have none := List.find?_eq_none.mp (Except.ok.inj read).symm
    intro old member isInverse
    have mismatch := none old member
    rw [← isLook.2, inverse, Prod.mk.injEq, Prod.mk.injEq] at isInverse
    simp [isInverse] at mismatch
  next => cases isLook

theorem LooksHold.push (holds : LooksHold h) (answers : tape.Answers act h.state res state) :
    LooksHold (h.push tid act res state) := by
  intro looker what ⟨event, member, isLook⟩ isUndisturbed
  cases now : looked looker what ⟨tid, act, res⟩ with
  | true => exact absent_of_looked answers now
  | false =>
    simp only [Hist.push_log, undisturbed, now, Bool.false_or, Bool.and_eq_true, Bool.not_eq_true'] at isUndisturbed
    have earlier : event ∈ h.log := by
      rcases List.mem_cons.mp member with rfl | earlier
      · rw [now] at isLook
        cases isLook
      · exact earlier
    have absent := holds looker what ⟨event, earlier, isLook⟩ isUndisturbed.2
    have before : what ∉ h.state.obligations.rows.map inverse := by
      rintro listed
      obtain ⟨old, old_member, same⟩ := List.mem_map.mp listed
      exact absent old old_member same
    intro old member same
    have after : what ∈ state.obligations.rows.map inverse := List.mem_map.mpr ⟨old, member, same⟩
    rcases inverses_of_answers tid answers with unchanged | ⟨row, isInsert, grown⟩
    · exact before (unchanged ▸ after)
    · rw [grown, List.mem_append, List.mem_singleton] at after
      -- the inserted inverse is another one
      refine after.elim before fun isNew => ?_
      cases isInsert
      simp [inserted, isNew] at isUndisturbed

theorem uniqueInverses_push (unique : UniqueInverses h.state) (holds : LooksHold h)
    (answers : tape.Answers act h.state res state) (first : LooksFirst tid call h act)
    (permitted : registersUndisturbed tid h act) : UniqueInverses state := by
  rcases inverses_of_answers tid answers with same | ⟨row, isInsert, grown⟩
  · rw [UniqueInverses, same]
    exact unique
  · cases isInsert
    rw [UniqueInverses, grown]
    refine unique.append (List.nodup_singleton _) ?_
    rw [List.disjoint_singleton, List.mem_map]
    rintro ⟨old, member, same⟩
    exact holds tid _ first permitted old member same

end Steps

/-! ## The registrars -/

/-- The obligation `pk` is there, and is the inverse of `what`. -/
def Registered (what : String × String × String) (pk : String × Int) (w : World) : Prop :=
  ∃ row, w.obligations.find? pk = some row ∧ inverse row = what

/-- Obligations that are registered in `w` are in `w'`. -/
def KeepsRegistered (w w' : World) : Prop := ∀ what pk, Registered what pk w → Registered what pk w'

theorem keepsRegistered_of_answers {act : Act} {w w' : World} {res : act.Res}
    (answers : tape.Answers act w res w') : KeepsRegistered w w' := by
  rintro what pk ⟨row, found, same⟩
  obtain kept | ⟨s, -, -, -, changed⟩ := obligation_of_answers answers found
  · exact ⟨row, kept, same⟩
  · exact ⟨_, changed, (inverse_apply s row).trans same⟩

def registerContract (tid : Nat) (_ : Call) : Contract World Act Act.Res where
  rely h h' := KeepsRegistered h.state h'.state
  allowed h act := registersUndisturbed tid h act
  guar h h' := KeepsRegistered h.state h'.state
  rely_refl _ := fun _ _ registered => registered
  rely_trans first second := fun what pk registered => second what pk (first what pk registered)

/-- A `register_compensation` that returned handed out an obligation for its inverse. -/
def registerPost (_ : Nat) (call : Call) (out : call.Out) (h : TapeHist) : Prop :=
  match call, out with
  | .registerCompensation runId effectKey kind .., .ok ob => Registered (runId, effectKey, kind) ob.pk h.state
  | _, _ => True

section Safety

variable {tid : Nat} {call : Call}

/-- No act forgets a registered obligation. -/
theorem safe_keeping {α : Type} {what : String × String × String} {pk : String × Int} (program : Prog Act Act.Res α)
    {h : TapeHist} (registered : Registered what pk h.state) :
    tape.Safe (registerContract tid call) tid (fun _ h => Registered what pk h.state) program h := by
  refine System.Safe.of_all_knowing (K := registerContract tid call) (fun h => Registered what pk h.state)
    (fun keeps registered => keeps what pk registered) ?_ (fun _ _ registered => registered)
    (Prog.all_true program) registered
  intro h act res state _ _ registered answers
  have keeps := keepsRegistered_of_answers answers
  exact ⟨keeps, keeps what pk registered⟩

theorem safe_any {α : Type} (program : Prog Act Act.Res α) (h : TapeHist) :
    tape.Safe (registerContract tid call) tid (fun _ _ => True) program h :=
  System.Safe.of_all (K := registerContract tid call)
    (fun _ _ _ _ _ _ answers => keepsRegistered_of_answers answers) (fun _ _ => trivial) (Prog.all_true program) h

theorem safe_registerCompensation {runId effectKey kind : String} {payload : Json} {compensatorRef : String}
    {maxAttempts ts : Int} (h : TapeHist) :
    tape.Safe (registerContract tid call) tid
      (fun result h => ∀ ob, result = .ok ob → Registered (runId, effectKey, kind) ob.pk h.state)
      (RunStore.registerCompensation runId effectKey kind payload compensatorRef maxAttempts ts).run h := by
  refine safe_query (fun _ _ _ returned => by cases returned) fun h₁ res₁ state₁ _ _ answers₁ => ?_
  refine ⟨keepsRegistered_of_answers answers₁, fun found isOk₁ => ?_⟩
  subst isOk₁
  obtain ⟨read, rfl⟩ := exec_of_ok answers₁
  cases found with
  | some recorded =>
    -- the obligation that was found
    have isFound := (Except.ok.inj read).symm
    have member := List.mem_of_find?_eq_some isFound
    have matched := List.find?_some isFound
    simp only [Bool.and_eq_true, decide_eq_true_eq] at matched
    rintro h₂ keeps ob ⟨⟩
    refine keeps _ _ ⟨recorded, Sql.Table.find?_key_of_mem member, ?_⟩
    rw [inverse, matched.1.1, matched.1.2, matched.2]
  | none =>
    refine System.Safe.exceptBind (fun _ _ _ returned => by cases returned) ((safe_any _ _).mono ?_)
    intro _ h₂ _ seq _
    refine safe_query (fun _ _ _ returned => by cases returned) fun h₃ res₃ state₃ _ _ answers₃ => ?_
    refine ⟨keepsRegistered_of_answers answers₃, fun inserted isOk₃ => ?_⟩
    subst isOk₃
    obtain ⟨accepted, rfl⟩ := exec_of_ok answers₃
    -- the obligation that was inserted
    have there := (find?_insertRow_of_ok accepted.symm).2
    refine System.Safe.exceptBind (fun _ _ _ returned => by cases returned)
      ((safe_keeping _ ⟨_, there, rfl⟩).mono ?_)
    rintro _ h₄ registered _ - h₅ keeps ob ⟨⟩
    exact keeps _ _ registered

end Safety

/-- The calls that register inverses. -/
def isRegistrar : Call → Bool
  | .registerCompensation .. | .recordExternalObservation .. => true
  | _ => false

theorem register_compose :
    System.Compose tape (fun call => isRegistrar call) registerContract registerPost where
  compatible _ keeps := keeps
  fresh {tid call h} admitted _ := by
    cases call with
    | registerCompensation =>
      refine (safe_registerCompensation h).mono fun result h returned => ?_
      cases result with
      | ok ob => exact returned ob rfl
      | error e => trivial
    | recordExternalObservation => exact (safe_any _ h).mono fun _ _ _ => trivial
    | _ => cases admitted

section Looks

variable {tid : Nat} {call : Call} {ok : Nat → Call → TapeHist → Act → Prop}

theorem looksFirst_of_housekeeping (act : Act) (housekeeping : Housekeeping act) (h : TapeHist) :
    LooksFirst tid call h act := by
  cases housekeeping <;> trivial

/-- A program that inserts no obligation. -/
theorem safe_looking {α : Type} {program : Prog Act Act.Res α} (all : program.All fun act => ∀ h, LooksFirst tid call h act)
    (h : TapeHist) : tape.Safe (tape.tracked ok LooksFirst tid call) tid (fun _ _ => True) program h :=
  System.Safe.of_all_proper (fun _ _ => trivial) all h

/-- `register_compensation` inserts only after it has looked. -/
theorem safe_registerLooking {runId effectKey kind : String} {payload : Json} {compensatorRef : String}
    {maxAttempts ts : Int} (h : TapeHist) :
    tape.Safe (tape.tracked ok LooksFirst tid call) tid (fun _ _ => True)
      (RunStore.registerCompensation runId effectKey kind payload compensatorRef maxAttempts ts).run h := by
  refine safe_query (fun _ _ => trivial) fun h₁ res₁ state₁ _ permitted₁ answers₁ => ?_
  refine ⟨⟨_, res₁, state₁, rfl, answers₁, permitted₁, trivial⟩, fun found isOk => ?_⟩
  subst isOk
  cases found with
  | some recorded => exact fun _ _ => trivial
  | none =>
    -- the look stays in the log while the number is drawn
    have numbered : (RunStore.nextSeq runId).run.All fun act => ∀ h, LooksFirst tid call h act :=
      all_nextSeq looksFirst_of_housekeeping runId
    refine System.Safe.exceptBind (fun _ _ => trivial)
      ((System.Safe.mem_of_all_proper numbered List.mem_cons_self).mono ?_)
    intro _ h₂ inLog seq _
    refine safe_query (fun _ _ => trivial) fun h₃ res₃ state₃ foreign permitted₃ answers₃ => ?_
    have first : LooksFirst tid call h₃ (.obligation (.insertObligation
        (RunStore.freshObligation runId effectKey kind payload compensatorRef maxAttempts seq ts))) :=
      ⟨_, foreign.mem inLog, by simp [looked, inverse, RunStore.freshObligation]⟩
    refine ⟨⟨_, res₃, state₃, rfl, answers₃, permitted₃, first⟩, fun _ _ => safe_looking ?_ _⟩
    exact .exceptBind (all_journal looksFirst_of_housekeeping _ _ _ _ _ (by constructor)) fun _ => trivial

theorem safe_observationLooking {runId key : String} {resolution : Int}
    {externalRef responseJson errorJson kind : String} {ts registerTs : Int} (h : TapeHist) :
    tape.Safe (tape.tracked ok LooksFirst tid call) tid (fun _ _ => True)
      (RunStore.recordExternalObservation runId key resolution externalRef responseJson errorJson kind ts
        registerTs).run h := by
  refine System.Safe.seq (safe_looking (all_query (by exact fun _ => trivial)) h) fun found h₁ => ?_
  cases found with
  | none => exact fun _ _ => trivial
  | some existing =>
    refine System.Safe.seq (safe_looking (all_query (by exact fun _ => trivial)) h₁) fun _ h₂ => ?_
    refine System.Safe.seq (safe_looking (all_nextSeq looksFirst_of_housekeeping _) h₂) fun _ h₃ => ?_
    refine System.Safe.seq (safe_looking (all_journal looksFirst_of_housekeeping _ _ _ _ _ (by constructor)) h₃) fun _ h₄ => ?_
    split
    · refine System.Safe.seq (safe_registerLooking h₄) fun _ h₅ => ?_
      exact safe_looking (all_query (by exact fun _ => trivial)) h₅
    · exact safe_looking (all_query (by exact fun _ => trivial)) h₄

end Looks

theorem looking_compose (ok : Nat → Call → TapeHist → Act → Prop) :
    System.Compose tape (fun call => isRegistrar call) (tape.tracked ok LooksFirst) fun _ _ _ _ => True :=
  System.tracked_compose fun {tid call h} admitted _ => by
    cases call with
    | registerCompensation => exact safe_registerLooking h
    | recordExternalObservation => exact safe_observationLooking h
    | _ => cases admitted

/-! ## Runs -/

theorem registered_unique {w : World} (unique : UniqueInverses w) {what : String × String × String}
    {pk pk' : String × Int} (first : Registered what pk w) (second : Registered what pk' w) : pk = pk' := by
  obtain ⟨row, found, same⟩ := first
  obtain ⟨row', found', same'⟩ := second
  have equal : row = row' := List.inj_on_of_nodup_map unique (Sql.Table.mem_of_find? found)
    (Sql.Table.mem_of_find? found') (same.trans same'.symm)
  rw [← Sql.Table.key_of_find? found, ← Sql.Table.key_of_find? found', equal]

/-- Thread `tid` is a `register_compensation` that returned `ob` for the inverse `what`. -/
def HandedOut (c : TapeConfig) (tid : Nat) (what : String × String × String) (ob : ObligationRecord) : Prop :=
  ∃ payload compensatorRef maxAttempts ts, c.pool[tid]? =
    some ⟨.registerCompensation what.1 what.2.1 what.2.2 payload compensatorRef maxAttempts ts, .ret (.ok ob)⟩

/-- **One obligation per inverse.**  Along every interleaving of registrars in which no obligation is
    inserted that another registrar has inserted since this one looked for it, from any database
    without duplicates: there are never two obligations for one inverse, and all
    `register_compensation` calls for it that returned handed out the same one. -/
theorem one_obligation_per_inverse (w : World) (choices : List (Choice Call)) (unique : UniqueInverses w)
    (alone : tape.Along (System.Permits (fun call => isRegistrar call)
      fun tid _ h act => registersUndisturbed tid h act) (quiet w) choices) :
    UniqueInverses (tape.run (quiet w) choices).state ∧
    ∀ what tid₁ ob₁ tid₂ ob₂, HandedOut (tape.run (quiet w) choices) tid₁ what ob₁ →
      HandedOut (tape.run (quiet w) choices) tid₂ what ob₂ → (ob₁.runId, ob₁.seq) = (ob₂.runId, ob₂.seq) := by
  have owned := quiet_owned w
  obtain ⟨stays, -⟩ : UniqueInverses (tape.run (quiet w) choices).state ∧
      LooksHold (tape.run (quiet w) choices).toHist := by
    refine System.run_tracked (I := fun h => UniqueInverses h.state ∧ LooksHold h)
      (looking_compose fun tid _ h act => registersUndisturbed tid h act) ?_ owned (System.poolSafe_of_empty rfl)
      ⟨unique, ?_⟩ alone
    · rintro tid call h act res state - answers permitted first ⟨unique, holds⟩
      exact ⟨uniqueInverses_push unique holds answers first permitted, holds.push answers⟩
    · rintro tid what ⟨event, member, -⟩
      cases member
  have safe := System.run_safe register_compose owned (System.poolSafe_of_empty rfl) alone
  refine ⟨stays, ?_⟩
  rintro what tid₁ ob₁ tid₂ ob₂ ⟨_, _, _, _, done₁⟩ ⟨_, _, _, _, done₂⟩
  have first : Registered what ob₁.pk _ := safe.returned done₁
  have second : Registered what ob₂.pk _ := safe.returned done₂
  exact registered_unique stays first second

/-! ## Two registrars at once -/

/-- The run `"r"`, just begun. -/
def begunWorld : World :=
  (tape.run (quiet (World.empty .sqlite))
    (serve 0 (.beginRun 0 "app" "user" "session" "invocation" {} "driver" 60000 1 "r"))).state

/-- The plugin and the outbox dispatcher register the refund of `"k"`. -/
def refund (compensatorRef : String) (ts : Int) : Call :=
  .registerCompensation "r" "k" "refund" (.obj []) compensatorRef 0 ts

/-- The first registrar finds no obligation; before it goes on, the second one comes and goes. -/
def registeredAtOnce : List (Choice Call) :=
  serve 0 (refund "plugin" 10) 1 ++ serve 1 (refund "outbox" 11) ++ List.replicate 16 (.exec 0)

def registeredInTurn : List (Choice Call) := serve 0 (refund "plugin" 10) ++ serve 1 (refund "outbox" 11)

/-- The `seq` of the obligation that thread `tid` returned. -/
def handedOutSeq (c : TapeConfig) (tid : Nat) : Option Int :=
  match c.pool[tid]? with
  | some ⟨.registerCompensation .., .ret (.ok ob)⟩ => some (seqOf ob)
  | _ => none
where
  seqOf (ob : ObligationRecord) : Int := ob.seq

/-- Both registrars insert: the refund is queued twice. -/
theorem refund_queued_twice :
    UniqueInverses begunWorld ∧ ¬ UniqueInverses (tape.run (quiet begunWorld) registeredAtOnce).state ∧
      handedOutSeq (tape.run (quiet begunWorld) registeredAtOnce) 0 = some 3 ∧
      handedOutSeq (tape.run (quiet begunWorld) registeredAtOnce) 1 = some 2 := by
  refine ⟨?_, ?_, ?_, ?_⟩ <;> decide +kernel

/-- In turn, the second registrar gets the obligation of the first. -/
theorem refund_queued_once :
    UniqueInverses (tape.run (quiet begunWorld) registeredInTurn).state ∧
      ∀ ob₁ ob₂, HandedOut (tape.run (quiet begunWorld) registeredInTurn) 0 ("r", "k", "refund") ob₁ →
        HandedOut (tape.run (quiet begunWorld) registeredInTurn) 1 ("r", "k", "refund") ob₂ →
        (ob₁.runId, ob₁.seq) = (ob₂.runId, ob₂.seq) := by
  obtain ⟨unique, same⟩ := one_obligation_per_inverse begunWorld registeredInTurn (by decide +kernel)
    (by decide +kernel)
  exact ⟨unique, fun ob₁ ob₂ => same _ 0 ob₁ 1 ob₂⟩

end Tape.Compensation
