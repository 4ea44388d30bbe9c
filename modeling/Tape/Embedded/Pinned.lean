import Mathlib.Data.List.Dedup
import Tape.Embedded.Settled
import Tape.Interleave.Protocol

/-! # Compaction beside other writers

`CompactOnce` counts what keeps a session, and deletes the session's rows in statements of
their own.  Between the two it has the session in hand.  Of the writers beside it
`RegisterCompensation`, `RecordObligationAttempt` and `SetTimer` do not take the mutex.  While
none of them makes a session live that a compaction has in hand, nothing is deleted that
is open (`compaction_keeps_open`).
-/

namespace Tape.Embedded.Go.Compaction

open Sql Interleave

/-! ## What a compaction has in hand -/

/-- The sessions that were found without open obligations, and those found without unfired
    timers, until their obligations and their timers are deleted. -/
structure InHand where
  settled : List SessionKey := []
  quiet : List SessionKey := []

namespace InHand

def dropSettled (hand : InHand) (session : SessionKey) : InHand :=
  { hand with settled := hand.settled.filter fun other => other ≠ session }

def dropQuiet (hand : InHand) (session : SessionKey) : InHand :=
  { hand with quiet := hand.quiet.filter fun other => other ≠ session }

/-- What comes of a count, by whether it is zero. -/
def counted (n : Nat) (none_ some_ : InHand) : InHand := if n = 0 then none_ else some_

/-- A session that is not archivable is put back, and an error ends the compaction. -/
def after (hand : InHand) : (stmt : Stmt) → stmt.Res → InHand
  | _, .error _ => {}
  | .countActive session, .ok n => counted n { hand with settled := session :: hand.settled } hand
  | .countStuck session, .ok n => counted n hand (hand.dropSettled session)
  | .countUnfired session, .ok n => counted n { hand with quiet := session :: hand.quiet } (hand.dropSettled session)
  | .deleteObligations session, .ok _ => hand.dropSettled session
  | .deleteTimers session, .ok _ => hand.dropQuiet session
  | .lock, .ok _ | .unlock, .ok _ | .candidates .., .ok _ | .deleteEffects _, .ok _ | .pruneObligations _, .ok _
  | .pruneTimers _, .ok _ | .pruneEffects _, .ok _ | .findObligation .., .ok _ | .insertObligation _, .ok _
  | .obligationBySeq _, .ok _ | .claimObligation .., .ok _ | .setAttempt .., .ok _ | .findTimer .., .ok _
  | .insertTimer _, .ok _ => hand

/-- A session is deleted from only while it is in hand. -/
def proper (hand : InHand) : Stmt → Prop
  | .deleteEffects session | .deleteObligations session => session ∈ hand.settled
  | .deleteTimers session => session ∈ hand.quiet
  | _ => True

end InHand

/-- The groups of a `GROUP BY` are different. -/
def expects : (stmt : Stmt) → stmt.Res → Prop
  | .candidates .., .ok sessions => List.Nodup (α := SessionKey) sessions
  | _, _ => True

def handling : Protocol Stmt Stmt.Res InHand := ⟨{}, InHand.proper, InHand.after, expects⟩

theorem stale_nodup (groups : GroupOrder) (sessionCutoff limit : Int) (s : Store) :
    (Stmt.stale groups sessionCutoff limit s).Nodup := by
  have distinct : (groups.order (s.effects.rows.map StorageEffect.session).dedup).Nodup :=
    (groups.perm _).nodup_iff.mpr (List.nodup_dedup _)
  rw [Stmt.stale, limitRows]
  split
  · exact distinct.filter _
  · exact (distinct.filter _).sublist (List.take_sublist ..)

theorem handling_expects {dialect : Dialect} {stmt : Stmt} {s s' : Shared} {res : stmt.Res}
    (answers : (service dialect).Answers stmt s res s') : handling.expects stmt res := by
  cases stmt with
  | candidates groups sessionCutoff limit =>
    cases answers with
    | exec => exact stale_nodup groups sessionCutoff limit s.store
    | fault failed =>
      cases failed
      trivial
  | _ => trivial

/-! ## The programs follow it -/

section Follows

variable {α : Type}

/-- A statement goes on with its value, or ends the method. -/
theorem follows_query {stmt : Stmt} {f : stmt.Value → GoM α} {post : Except String α → InHand → Prop} {hand : InHand}
    (isProper : hand.proper stmt) (failed : ∀ e, post (.error e) {})
    (rest : ∀ value, expects stmt (.ok value) → handling.Follows post (hand.after stmt (.ok value)) (f value).run) :
    handling.Follows post hand (query stmt >>= f).run := by
  refine ⟨isProper, fun res expected => ?_⟩
  cases res with
  | error e => exact failed e
  | ok value => exact rest value expected

/-- What the checks come to, from `hand` to `hand'`. -/
structure Checked (candidates archivable : List SessionKey) (hand hand' : InHand) : Prop where
  sublist : archivable.Sublist candidates
  inHand : ∀ session ∈ archivable, session ∈ hand'.settled ∧ session ∈ hand'.quiet
  settled : ∀ session ∈ hand.settled, session ∉ candidates → session ∈ hand'.settled
  quiet : ∀ session ∈ hand.quiet, session ∉ candidates → session ∈ hand'.quiet

variable {c : SessionKey} {candidates archivable : List SessionKey} {hand between hand' : InHand}

/-- The first candidate is left out. -/
theorem Checked.skip (settled : ∀ session ∈ hand.settled, session ≠ c → session ∈ between.settled)
    (quiet : ∀ session ∈ hand.quiet, session ≠ c → session ∈ between.quiet)
    (rest : Checked candidates archivable between hand') : Checked (c :: candidates) archivable hand hand' where
  sublist := rest.sublist.cons c
  inHand := rest.inHand
  settled := by
    intro session member absent
    rw [List.mem_cons, not_or] at absent
    exact rest.settled session (settled session member absent.1) absent.2
  quiet := by
    intro session member absent
    rw [List.mem_cons, not_or] at absent
    exact rest.quiet session (quiet session member absent.1) absent.2

/-- The first candidate is archivable. -/
theorem Checked.keep (fresh : c ∉ candidates)
    (rest : Checked candidates archivable ⟨c :: hand.settled, c :: hand.quiet⟩ hand') :
    Checked (c :: candidates) (c :: archivable) hand hand' where
  sublist := rest.sublist.cons_cons c
  inHand := by
    intro session member
    cases member with
    | head => exact ⟨rest.settled c List.mem_cons_self fresh, rest.quiet c List.mem_cons_self fresh⟩
    | tail _ member => exact rest.inHand session member
  settled := by
    intro session member absent
    rw [List.mem_cons, not_or] at absent
    exact rest.settled session (List.mem_cons_of_mem c member) absent.2
  quiet := by
    intro session member absent
    rw [List.mem_cons, not_or] at absent
    exact rest.quiet session (List.mem_cons_of_mem c member) absent.2

/-- The sessions that come out of the checks are in hand, and those that were in hand stay. -/
theorem follows_keepArchivable (distinct : candidates.Nodup) (hand : InHand) :
    handling.Follows (fun out hand' => ∀ archivable, out = .ok archivable → Checked candidates archivable hand hand')
      hand (keepArchivable candidates).run := by
  induction candidates generalizing hand with
  | nil =>
    intro archivable isOut
    cases isOut
    exact ⟨.slnil, by simp, fun _ member _ => member, fun _ member _ => member⟩
  | cons c candidates inductionHypothesis =>
    rw [List.nodup_cons] at distinct
    obtain ⟨fresh, distinct⟩ := distinct
    have failed : ∀ e hand', ∀ archivable, (.error e : Except String (List SessionKey)) = .ok archivable →
        Checked (c :: candidates) archivable hand hand' := fun _ _ _ isOut => by cases isOut
    -- the candidate is left out, and what was in hand besides it is still
    have skip : ∀ between : InHand, (∀ session ∈ hand.settled, session ≠ c → session ∈ between.settled) →
        hand.quiet = between.quiet → handling.Follows (fun out hand' => ∀ archivable, out = .ok archivable →
          Checked (c :: candidates) archivable hand hand') between (keepArchivable candidates).run := by
      intro between settled quiet
      refine (inductionHypothesis distinct between).mono fun out hand' checked archivable isOut => ?_
      exact (checked archivable isOut).skip settled fun session member _ => quiet ▸ member
    refine follows_query trivial (failed · {}) fun (nActive : Nat) _ => ?_
    by_cases active : nActive > 0
    · have some_ : nActive ≠ 0 := by omega
      simp only [active, if_true, InHand.after, InHand.counted, some_, if_false]
      exact skip hand (fun _ member _ => member) rfl
    have none_ : nActive = 0 := by omega
    simp only [InHand.after, InHand.counted, none_, if_true]
    refine follows_query trivial (failed · {}) fun (nStuck : Nat) _ => ?_
    by_cases stuck : nStuck > 0
    · have some_ : nStuck ≠ 0 := by omega
      simp only [stuck, if_true, InHand.after, InHand.counted, some_, if_false]
      refine skip _ (fun session member ne => ?_) rfl
      simp [InHand.dropSettled, member, ne]
    have none_ : nStuck = 0 := by omega
    simp only [InHand.after, InHand.counted, none_, if_true]
    refine follows_query trivial (failed · {}) fun (nLive : Nat) _ => ?_
    by_cases live : nLive > 0
    · have some_ : nLive ≠ 0 := by omega
      simp only [live, if_true, InHand.after, InHand.counted, some_, if_false]
      refine skip _ (fun session member ne => ?_) rfl
      simp [InHand.dropSettled, member, ne]
    have none_ : nLive = 0 := by omega
    simp only [InHand.after, InHand.counted, none_, if_true]
    refine Protocol.Follows.exceptBind ((inductionHypothesis distinct _).mono fun out hand' checked => ?_)
    cases out with
    | error e => exact failed e hand'
    | ok archivable =>
      intro all isOut
      cases isOut
      exact (checked archivable rfl).keep fresh

/-- The sessions of the loop are in hand until their deletes. -/
theorem follows_archive (distinct : archivable.Nodup)
    (inHand : ∀ session ∈ archivable, session ∈ hand.settled ∧ session ∈ hand.quiet) (result : CompactionResult) :
    handling.Follows (fun _ _ => True) hand (archive archivable result).run := by
  induction archivable generalizing hand result with
  | nil => trivial
  | cons sess archivable inductionHypothesis =>
    obtain ⟨settled, quiet⟩ := inHand sess List.mem_cons_self
    rw [List.nodup_cons] at distinct
    refine follows_query settled (fun _ => trivial) fun _ _ => ?_
    refine follows_query settled (fun _ => trivial) fun _ _ => ?_
    refine follows_query quiet (fun _ => trivial) fun _ _ => ?_
    refine inductionHypothesis distinct.2 ?_ _
    intro session member
    have ne : session ≠ sess := fun same => distinct.1 (same ▸ member)
    obtain ⟨settled, quiet⟩ := inHand session (List.mem_cons_of_mem _ member)
    exact ⟨by simp [InHand.after, InHand.dropSettled, InHand.dropQuiet, settled, ne],
      by simp [InHand.after, InHand.dropSettled, InHand.dropQuiet, quiet, ne]⟩

/-- A statement that deletes nothing of a session is proper whatever is in hand. -/
def Plain (stmt : Stmt) : Prop := ∀ hand : InHand, hand.proper stmt

theorem all_query {stmt : Stmt} {f : stmt.Value → GoM α} (plain : Plain stmt) (rest : ∀ value, (f value).run.All Plain) :
    (query stmt >>= f).run.All Plain := by
  refine ⟨plain, fun res => ?_⟩
  cases res with
  | error e => trivial
  | ok value => exact rest value

theorem all_withCASLock {dialect : Dialect} {fn : GoM α} (all : fn.run.All Plain) :
    (withCASLock dialect fn).run.All Plain := by
  cases dialect with
  | postgres => exact all
  | sqlite =>
    refine ⟨fun _ => trivial, fun _ => all.bind fun result => ?_⟩
    exact ⟨fun _ => trivial, fun _ => trivial⟩

theorem all_pruneObligations (policy : CompactionPolicy) (cutoff : Int) (result : CompactionResult) :
    (pruneObligations policy cutoff result).run.All Plain := by
  rw [pruneObligations]
  split
  · exact all_query (fun _ => trivial) fun _ => trivial
  · trivial

theorem all_pruneTimers (policy : CompactionPolicy) (cutoff : Int) (result : CompactionResult) :
    (pruneTimers policy cutoff result).run.All Plain := by
  rw [pruneTimers]
  split
  · exact all_query (fun _ => trivial) fun _ => trivial
  · trivial

theorem all_pruneEffects (cutoff : Int) (result : CompactionResult) : (pruneEffects cutoff result).run.All Plain :=
  all_query (fun _ => trivial) fun _ => trivial

theorem all_scan {ρ : Type} (row : Option ρ) : (scan row).run.All Plain := by
  cases row <;> trivial

theorem all_registerCompensation (o : RegisterCompensation) (now : Int) : (registerCompensation o now).run.All Plain := by
  rw [registerCompensation]
  refine all_query (fun _ => trivial) fun existing => ?_
  cases existing with
  | some row => trivial
  | none => exact all_query (fun _ => trivial) fun _ => all_query (fun _ => trivial) all_scan

theorem all_claimObligation (dialect : Dialect) (seq : Int) (claimer : String) (leaseTtlMs nowOverrideMs clock : Int) :
    (claimObligation dialect seq claimer leaseTtlMs nowOverrideMs clock).run.All Plain := by
  refine (all_withCASLock ?_).exceptBind fun affected => ?_
  · exact ⟨fun _ => trivial, fun _ => trivial⟩
  · exact all_query (fun _ => trivial) fun _ => trivial

theorem all_recordObligationAttempt (seq : Int) (errMsg : String) (nextAttemptAtMs now : Int) :
    (recordObligationAttempt seq errMsg nextAttemptAtMs now).run.All Plain := by
  rw [recordObligationAttempt]
  refine all_query (fun _ => trivial) fun existing => ?_
  cases existing with
  | none => trivial
  | some row => exact all_query (fun _ => trivial) fun _ => ⟨fun _ => trivial, fun _ => trivial⟩

theorem all_setTimer (o : SetTimer) (now : Int) : (setTimer o now).run.All Plain := by
  rw [setTimer]
  refine all_query (fun _ => trivial) fun existing => ?_
  cases existing with
  | some row => trivial
  | none => exact all_query (fun _ => trivial) fun _ => all_query (fun _ => trivial) all_scan

theorem follows_compactUnderLock (groups : GroupOrder) (policy : CompactionPolicy) (sessionCutoff effectCutoff : Int) :
    handling.Follows (fun _ _ => True) {} (compactUnderLock groups policy sessionCutoff effectCutoff).run := by
  refine Protocol.Follows.exceptBind ?_
  have checks : handling.Follows (fun out hand => ∀ archivable, out = .ok archivable → archivable.Nodup ∧
      ∀ session ∈ archivable, session ∈ hand.settled ∧ session ∈ hand.quiet) {}
        (findArchivableSessions groups sessionCutoff (maxPerTick policy)).run := by
    refine follows_query trivial (fun _ _ isOut => by cases isOut) fun candidates distinct => ?_
    refine (follows_keepArchivable distinct _).mono fun out hand checked archivable isOut => ?_
    exact ⟨(checked archivable isOut).sublist.nodup distinct, (checked archivable isOut).inHand⟩
  refine checks.mono fun out hand inHand => ?_
  cases out with
  | error e => trivial
  | ok archivable =>
    obtain ⟨distinct, inHand⟩ := inHand archivable rfl
    refine Protocol.Follows.exceptBind ((follows_archive distinct inHand {}).mono fun out hand _ => ?_)
    cases out with
    | error e => trivial
    | ok archived =>
      refine Protocol.Follows.of_all ?_
      refine (all_pruneObligations policy effectCutoff archived).exceptBind fun settled => ?_
      refine (all_pruneTimers policy effectCutoff settled).exceptBind fun fired => ?_
      exact all_pruneEffects effectCutoff fired

theorem follows_body (dialect : Dialect) (call : Call) :
    handling.Follows (fun _ _ => True) handling.start (call.body dialect) := by
  cases call with
  | compactOnce groups policy nowMs clock =>
    have locked := follows_compactUnderLock groups policy (addI64 (orNow nowMs clock) (-policy.sessionTtlMs))
      (addI64 (orNow nowMs clock) (-policy.effectTtlMs))
    cases dialect with
    | postgres => exact locked
    | sqlite =>
      refine ⟨trivial, fun answer _ => ?_⟩
      have taken : handling.after handling.start .lock answer = {} := by cases answer <;> rfl
      have unlock : ∀ (result : Except String CompactionResult) (hand : InHand), handling.Follows (fun _ _ => True) hand
          ((Prog.perform Stmt.unlock).bind fun _ => .ret result) := fun _ _ => ⟨trivial, fun _ _ => trivial⟩
      have unlocks := locked.mono fun result hand _ => unlock result hand
      rw [taken]
      exact unlocks.bind
  | registerCompensation o now => exact Protocol.Follows.of_all (all_registerCompensation o now)
  | claimObligation seq claimer leaseTtlMs nowOverrideMs clock =>
    exact Protocol.Follows.of_all (all_claimObligation dialect seq claimer leaseTtlMs nowOverrideMs clock)
  | recordObligationAttempt seq errMsg nextAttemptAtMs now =>
    exact Protocol.Follows.of_all (all_recordObligationAttempt seq errMsg nextAttemptAtMs now)
  | setTimer o now => exact Protocol.Follows.of_all (all_setTimer o now)

end Follows

/-! ## What is in hand stays settled -/

/-- A session in hand has no open obligation, or no unfired timer. -/
structure ClearOf (s : Store) (hand : InHand) : Prop where
  obligations : ∀ o ∈ s.obligations.rows, o.session ∈ hand.settled → o.status.isActive = false
  timers : ∀ t ∈ s.timers.rows, t.session ∈ hand.quiet → t.fired

/-- The statement makes no session live that is in hand. -/
def Spares (s : Store) (hand : InHand) : Stmt → Prop
  | .insertObligation o => o.session ∉ hand.settled
  | .setAttempt seq _ _ status .. =>
    status.isActive → ∀ o ∈ s.obligations.rows, o.seq = seq → o.session ∉ hand.settled
  | .insertTimer t => t.session ∉ hand.quiet
  | _ => True

/-- What is open has not gone: open obligations, unfired timers, and the effects that open
    obligations of their session name. -/
structure KeepsOpen (s left : Store) : Prop where
  obligations : ∀ o ∈ s.obligations.rows, o.status.isActive → ∃ kept ∈ left.obligations.rows, kept.seq = o.seq
  timers : ∀ t ∈ s.timers.rows, t.fired = false → ∃ kept ∈ left.timers.rows, kept.pk = t.pk
  effects : ∀ row ∈ s.effects.rows, ∀ o ∈ s.obligations.rows, o.session = row.session →
    o.effectKey = row.idempotencyKey → o.status.isActive → row ∈ left.effects.rows

theorem KeepsOpen.refl (s : Store) : KeepsOpen s s where
  obligations o member _ := ⟨o, member, rfl⟩
  timers t member _ := ⟨t, member, rfl⟩
  effects _ member _ _ _ _ _ := member

section Step

variable {κ ρ : Type} {pk : ρ → κ} {t : Table pk} {cond : ρ → Bool}

theorem mem_update_of_mem {u : Update pk} {r : ρ} (member : r ∈ t.rows) :
    ∃ kept ∈ (t.update cond u).rows, pk kept = pk r := by
  refine ⟨_, List.mem_map_of_mem member, ?_⟩
  split
  · exact u.key_apply r
  · rfl

theorem eq_false_of_count (none_ : t.count cond = 0) : ∀ r ∈ t.rows, cond r = false := by
  simpa [Table.count, List.length_eq_zero_iff, List.filter_eq_nil_iff] using none_

/-- A row of the updated table is an old row, or what the update makes of one. -/
theorem mem_update_cases {u : Update pk} {r : ρ} (member : r ∈ (t.update cond u).rows) :
    r ∈ t.rows ∨ ∃ old ∈ t.rows, cond old ∧ r = u.apply old := by
  obtain ⟨old, isOld, rfl⟩ := List.mem_map.mp member
  by_cases touched : cond old
  · exact .inr ⟨old, isOld, touched, if_pos touched⟩
  · left
    rwa [if_neg touched]

end Step

instance Spares.decidable (s : Store) (hand : InHand) (stmt : Stmt) : Decidable (Spares s hand stmt) :=
  match stmt with
  | .insertObligation o => inferInstanceAs (Decidable (o.session ∉ hand.settled))
  | .insertTimer t => inferInstanceAs (Decidable (t.session ∉ hand.quiet))
  | .setAttempt seq _ _ status .. => inferInstanceAs
    (Decidable (status.isActive → ∀ o ∈ s.obligations.rows, o.seq = seq → o.session ∉ hand.settled))
  | .lock | .unlock | .candidates .. | .countActive _ | .countStuck _ | .countUnfired _ | .deleteEffects _
  | .deleteObligations _ | .deleteTimers _ | .pruneObligations _ | .pruneTimers _ | .pruneEffects _
  | .findObligation .. | .obligationBySeq _ | .claimObligation .. | .findTimer .. => isTrue trivial

theorem ClearOf.nothing (s : Store) : ClearOf s {} where
  obligations _ _ inHand := nomatch inHand
  timers _ _ inHand := nomatch inHand

section Exec

variable {s : Shared} {hand : InHand} {stmt : Stmt}

/-- Rows that are deleted leave what remains as clear as it was. -/
theorem ClearOf.of_subset {s left : Store} (clear : ClearOf s hand)
    (obligations : ∀ o ∈ left.obligations.rows, o ∈ s.obligations.rows)
    (timers : ∀ t ∈ left.timers.rows, t ∈ s.timers.rows) : ClearOf left hand :=
  ⟨fun o member => clear.obligations o (obligations o member), fun t member => clear.timers t (timers t member)⟩

/-- A statement that spares what is in hand leaves it clear. -/
theorem ClearOf.exec (clear : ClearOf s.store hand) (spares : Spares s.store hand stmt) :
    ClearOf (stmt.exec s).2.store hand := by
  cases stmt with
  | lock | unlock | candidates | countActive | countStuck | countUnfired | findObligation | obligationBySeq | findTimer =>
    exact clear
  | deleteEffects | pruneEffects => exact ⟨clear.obligations, clear.timers⟩
  | deleteObligations | pruneObligations =>
    exact clear.of_subset (fun o member => (mem_delete.mp member).1) fun _ member => member
  | deleteTimers | pruneTimers =>
    exact clear.of_subset (fun _ member => member) fun t member => (mem_delete.mp member).1
  | claimObligation seq claimer expires now =>
    refine ⟨fun o member inHand => ?_, clear.timers⟩
    cases mem_update_cases member with
    | inl old => exact clear.obligations o old inHand
    | inr touched =>
      -- the claim was open before, so its session is not in hand
      obtain ⟨old, isOld, claimable, rfl⟩ := touched
      have closed := clear.obligations old isOld inHand
      exfalso
      cases status : old.status <;> simp [Stmt.claimable, status, ObligationStatus.isActive] at claimable closed
  | setAttempt seq attempts error status nextAttemptAtMs now =>
    refine ⟨fun o member inHand => ?_, clear.timers⟩
    cases mem_update_cases member with
    | inl old => exact clear.obligations o old inHand
    | inr touched =>
      obtain ⟨old, isOld, isSeq, rfl⟩ := touched
      by_contra active
      have opens : status.isActive := by simpa [Stmt.attempt] using active
      exact spares opens old isOld (by simpa using isSeq) inHand
  | insertObligation o =>
    simp only [Stmt.exec]
    split
    · rename_i inserted isInsert
      refine ⟨fun o' member inHand => ?_, clear.timers⟩
      rw [Table.rows_insert isInsert, List.mem_append, List.mem_singleton] at member
      cases member with
      | inl old => exact clear.obligations o' old inHand
      | inr new =>
        subst new
        exact absurd inHand spares
    · exact clear
  | insertTimer t =>
    simp only [Stmt.exec]
    split
    · rename_i inserted isInsert
      refine ⟨clear.obligations, fun t' member inHand => ?_⟩
      rw [Table.rows_insert isInsert, List.mem_append, List.mem_singleton] at member
      cases member with
      | inl old => exact clear.timers t' old inHand
      | inr new =>
        subst new
        exact absurd inHand spares
    · exact clear

theorem ClearOf.mono {s : Store} {hand' : InHand} (clear : ClearOf s hand)
    (settled : ∀ session ∈ hand'.settled, session ∈ hand.settled)
    (quiet : ∀ session ∈ hand'.quiet, session ∈ hand.quiet) : ClearOf s hand' :=
  ⟨fun o member inHand => clear.obligations o member (settled _ inHand),
    fun t member inHand => clear.timers t member (quiet _ inHand)⟩

theorem ClearOf.dropSettled {s : Store} (clear : ClearOf s hand) (session : SessionKey) :
    ClearOf s (hand.dropSettled session) :=
  clear.mono (fun _ member => (List.mem_filter.mp member).1) fun _ member => member

theorem ClearOf.dropQuiet {s : Store} (clear : ClearOf s hand) (session : SessionKey) : ClearOf s (hand.dropQuiet session) :=
  clear.mono (fun _ member => member) fun _ member => (List.mem_filter.mp member).1

/-- What the statement's own thread takes in hand is clear: the count has just shown it. -/
theorem ClearOf.after (clear : ClearOf (stmt.exec s).2.store hand) :
    ClearOf (stmt.exec s).2.store (hand.after stmt (stmt.exec s).1) := by
  cases stmt with
  | lock | unlock | candidates | deleteEffects | pruneObligations | pruneTimers | pruneEffects | findObligation
  | obligationBySeq | claimObligation | setAttempt | findTimer => exact clear
  | countActive session =>
    simp only [Stmt.exec, InHand.after, InHand.counted]
    split
    · rename_i none_
      refine ⟨fun o member inHand => ?_, clear.timers⟩
      cases inHand with
      | head => simpa using eq_false_of_count none_ o member
      | tail _ inHand => exact clear.obligations o member inHand
    · exact clear
  | countStuck session =>
    simp only [Stmt.exec, InHand.after, InHand.counted]
    split
    · exact clear
    · exact clear.dropSettled session
  | countUnfired session =>
    simp only [Stmt.exec, InHand.after, InHand.counted]
    split
    · rename_i none_
      refine ⟨clear.obligations, fun t member inHand => ?_⟩
      cases inHand with
      | head => simpa using eq_false_of_count none_ t member
      | tail _ inHand => exact clear.timers t member inHand
    · exact clear.dropSettled session
  | deleteObligations session => exact clear.dropSettled session
  | deleteTimers session => exact clear.dropQuiet session
  | insertObligation o =>
    generalize ((Stmt.insertObligation o).exec s).1 = answer
    cases answer with
    | error e => exact .nothing _
    | ok value => exact clear
  | insertTimer t =>
    generalize ((Stmt.insertTimer t).exec s).1 = answer
    cases answer with
    | error e => exact .nothing _
    | ok value => exact clear

/-- A statement that is proper for what is in hand deletes nothing open. -/
theorem keepsOpen_exec (clear : ClearOf s.store hand) (isProper : hand.proper stmt) :
    KeepsOpen s.store (stmt.exec s).2.store := by
  have same := KeepsOpen.refl s.store
  cases stmt with
  | lock | unlock | candidates | countActive | countStuck | countUnfired | findObligation | obligationBySeq | findTimer =>
    exact same
  | deleteEffects session =>
    refine ⟨same.obligations, same.timers, fun row member o isObligation sameSession _ active => ?_⟩
    -- the obligations of a session that is deleted are closed, so this one is of another
    have other : row.session ≠ session := by
      intro isSession
      have closed := clear.obligations o isObligation (by rw [sameSession, isSession]; exact isProper)
      rw [closed] at active
      cases active
    exact mem_delete.mpr ⟨member, by simpa using other⟩
  | deleteObligations session =>
    refine ⟨fun o member active => ⟨o, ?_, rfl⟩, same.timers, same.effects⟩
    have other : o.session ≠ session := by
      intro isSession
      have closed := clear.obligations o member (by rw [isSession]; exact isProper)
      rw [closed] at active
      cases active
    exact mem_delete.mpr ⟨member, by simpa using other⟩
  | deleteTimers session =>
    refine ⟨same.obligations, fun t member unfired => ⟨t, ?_, rfl⟩, same.effects⟩
    have other : t.session ≠ session := by
      intro isSession
      -- and its timers have fired
      have fired := clear.timers t member (by rw [isSession]; exact isProper)
      rw [unfired] at fired
      cases fired
    exact mem_delete.mpr ⟨member, by simpa using other⟩
  | pruneObligations cutoff =>
    refine ⟨fun o member active => ⟨o, mem_delete.mpr ⟨member, ?_⟩, rfl⟩, same.timers, same.effects⟩
    -- the compaction takes COMPENSATED obligations alone
    have settled : o.status ≠ .compensated := by
      intro compensated
      rw [compensated] at active
      cases active
    simp [prunableObligation, settled]
  | pruneTimers cutoff =>
    refine ⟨same.obligations, fun t member unfired => ⟨t, mem_delete.mpr ⟨member, ?_⟩, rfl⟩, same.effects⟩
    simp [prunableTimer, unfired]
  | pruneEffects cutoff =>
    refine ⟨same.obligations, same.timers, fun row member o isObligation sameSession sameKey active => ?_⟩
    -- an effect that an open obligation names is exempt from the compaction
    have names : pinned s.store row :=
      List.any_eq_true.mpr ⟨o, isObligation, by simp [sameSession, sameKey, active]⟩
    exact mem_delete.mpr ⟨member, by simp [prunableEffect, names]⟩
  | claimObligation => exact ⟨fun o member _ => mem_update_of_mem member, same.timers, same.effects⟩
  | setAttempt => exact ⟨fun o member _ => mem_update_of_mem member, same.timers, same.effects⟩
  | insertObligation o =>
    simp only [Stmt.exec]
    split
    · rename_i inserted isInsert
      refine ⟨fun o' member _ => ⟨o', ?_, rfl⟩, same.timers, same.effects⟩
      rw [Table.rows_insert isInsert]
      exact List.mem_append_left _ member
    · exact same
  | insertTimer t =>
    simp only [Stmt.exec]
    split
    · rename_i inserted isInsert
      refine ⟨same.obligations, fun t' member _ => ⟨t', ?_, rfl⟩, same.effects⟩
      rw [Table.rows_insert isInsert]
      exact List.mem_append_left _ member
    · exact same

end Exec

/-! ## Every run -/

/-- No goroutine that has done anything has a session in hand that the statement makes live. -/
def Undisturbed (_ : Nat) (_ : Call) (h : Hist Shared Stmt Stmt.Res) (stmt : Stmt) : Prop :=
  ∀ event ∈ h.log, Spares h.state.store (handling.stage event.tid h.log) stmt

/-- A goroutine that has done nothing has nothing in hand. -/
theorem Undisturbed.spares {tid : Nat} {call : Call} {h : Hist Shared Stmt Stmt.Res} {stmt : Stmt}
    (undisturbed : Undisturbed tid call h stmt) (other : Nat) : Spares h.state.store (handling.stage other h.log) stmt := by
  cases own : lastOwn other h.log with
  | some event =>
    have isOwn : event.tid = other := by simpa using List.find?_some own
    exact isOwn ▸ undisturbed event (List.mem_of_find?_eq_some own)
  | none =>
    have nothing : handling.stage other h.log = {} := ownFold_of_fresh own
    rw [nothing]
    cases stmt with
    | insertObligation | insertTimer => exact List.not_mem_nil
    | setAttempt => exact fun _ _ _ _ => List.not_mem_nil
    | _ => trivial

/-- What the goroutines have in hand is clear. -/
def AllClear (h : Hist Shared Stmt Stmt.Res) : Prop := ∀ tid, ClearOf h.state.store (handling.stage tid h.log)

theorem allClear_exec {h : Hist Shared Stmt Stmt.Res} {tid : Nat} {call : Call} {stmt : Stmt} (clear : AllClear h)
    (undisturbed : Undisturbed tid call h stmt) :
    AllClear (h.push tid stmt (stmt.exec h.state).1 (stmt.exec h.state).2) := by
  intro other
  have left := (clear other).exec (undisturbed.spares other)
  by_cases own : other = tid
  · subst own
    rw [Protocol.stage_push_self]
    exact left.after
  · rw [Protocol.stage_push_ne _ _ _ _ _ own]
    exact left

theorem allClear_fault {h : Hist Shared Stmt Stmt.Res} {tid : Nat} {stmt : Stmt} {res : stmt.Res}
    (failed : stmt.fault = some res) (clear : AllClear h) : AllClear (h.push tid stmt res h.state) := by
  intro other
  by_cases own : other = tid
  · subst own
    rw [Protocol.stage_push_self]
    have ends : handling.after (handling.stage other h.log) stmt res = {} := by
      cases stmt <;> cases failed <;> rfl
    rw [ends]
    exact .nothing _
  · rw [Protocol.stage_push_ne _ _ _ _ _ own]
    exact clear other

/-- **While no writer makes a session live that a compaction has in hand, no statement deletes
    an open obligation, an unfired timer, or an effect that an open obligation names.**  The
    mutex, held or not, has no part in it. -/
theorem compaction_keeps_open (dialect : Dialect) (s : Shared) {choices : List (Choice Call)}
    (undisturbed : (service dialect).Along (System.Executes Undisturbed) (quiet s) choices) :
    (service dialect).Along (fun c choice => KeepsOpen c.state.store ((service dialect).step c choice).state.store)
      (quiet s) choices := by
  have start : AllClear (quiet s).toHist := fun _ => .nothing _
  have known := Protocol.along_protocol (P := handling) handling_expects (follows_body dialect)
    (fun tid call h stmt met clear => allClear_exec clear met.1) (fun tid h stmt res failed => allClear_fault failed)
    rfl rfl start undisturbed
  refine System.Along.executes_state (R := fun s left => KeepsOpen s.store left.store) (fun s => KeepsOpen.refl s.store)
    ?_ known
  intro tid call h stmt met
  exact keepsOpen_exec (met.2 tid) met.1.2

instance (tid : Nat) (call : Call) (h : Hist Shared Stmt Stmt.Res) (stmt : Stmt) :
    Decidable (Undisturbed tid call h stmt) :=
  inferInstanceAs (Decidable (∀ event ∈ h.log, Spares h.state.store (handling.stage event.tid h.log) stmt))

/-! ## A compensation that is registered in between -/

instance (tid : Nat) (call : Call) (h : Hist Shared Stmt Stmt.Res) (stmt : Stmt) : Decidable (Waits tid call h stmt) :=
  inferInstanceAs (Decidable (_ → _))

/-- The wire was confirmed. -/
def confirmedWire : Shared := ⟨leaves (Embedded.completeEffect wire.session wire.key .confirmed .null .null 2 begunWire)
    begunWire, 0, false⟩

/-- The compensation of the wire. -/
def reversal : RegisterCompensation where
  session := wire.session
  invocationId := wire.invocationId
  effectKey := wire.key
  kind := "reverse_wire"
  payloadJson := .null
  compensatorRef := ""
  maxAttempts := 0

/-- Thirty-one days after the wire, in milliseconds. -/
def monthLater : Int := 31 * 24 * 60 * 60 * 1000

/-- The compactor has found the session archivable; then the compensation is registered,
    without the mutex. -/
def registeredBetween : List (Choice Call) :=
  [.spawn (.compactOnce ⟨id, fun _ => .refl _⟩ {} 0 monthLater), .spawn (.registerCompensation reversal monthLater)] ++
    List.replicate 5 (.exec 0) ++ List.replicate 3 (.exec 1)

/-- The compactor goes on: the effects of the session, then its obligations. -/
def deletedThen : List (Choice Call) := registeredBetween ++ [.exec 0]

/-- Had it been registered before the checks, the compactor would have kept the session. -/
theorem reversal_kept : (service .sqlite).Along
    (fun c choice => KeepsOpen c.state.store ((service .sqlite).step c choice).state.store) (quiet confirmedWire)
    ([.spawn (.registerCompensation reversal monthLater), .exec 0, .exec 0, .exec 0,
      .spawn (.compactOnce ⟨id, fun _ => .refl _⟩ {} 0 monthLater)] ++ List.replicate 7 (.exec 1)) :=
  compaction_keeps_open .sqlite confirmedWire (by decide +kernel)

/-- Registered while the compactor has the session in hand, it is deleted with it. -/
theorem reversal_deleted :
    (service .sqlite).Along (System.Permits (fun _ => True) Waits) (quiet confirmedWire) (deletedThen ++ [.exec 0]) ∧
      ¬ (service .sqlite).Along
        (fun c choice => KeepsOpen c.state.store ((service .sqlite).step c choice).state.store)
        (quiet confirmedWire) (deletedThen ++ [.exec 0]) := by
  refine ⟨by decide +kernel, fun keeps => ?_⟩
  have last := (System.Along.append.mp keeps).2.1
  have open_ : ((service .sqlite).run (quiet confirmedWire) deletedThen).state.store.obligations.rows.map
      StorageObligation.status = [.pending] := by decide +kernel
  have gone : ((service .sqlite).step ((service .sqlite).run (quiet confirmedWire) deletedThen)
      (.exec 0)).state.store.obligations.rows.map StorageObligation.status = [] := by decide +kernel
  obtain ⟨o, isRow, pending⟩ := List.map_eq_singleton_iff.mp open_
  obtain ⟨kept, member, -⟩ := last.obligations o (by simp [isRow]) (by rw [pending]; rfl)
  rw [List.map_eq_nil_iff.mp gone] at member
  cases member

end Tape.Embedded.Go.Compaction
