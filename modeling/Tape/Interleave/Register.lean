import Mathlib.Data.List.Nodup
import Mathlib.Data.List.Range
import Mathlib.Logic.Function.Iterate
import Tape.Interleave.Protocol

/-! # Registers

A register is a part of the state that operations read and write.  A thread whose write follows from what it last read
has raced if somebody wrote in between: then a write is lost, and where no thread has raced, none is.
-/

namespace Tape.Interleave

variable {σ Op ι β : Type} {Res : Op → Type} {Out : ι → Type}

structure Register (S : System σ Op Res ι Out) (β : Type) where
  view : σ → β
  /-- What a read was answered. -/
  readOf : Event Op Res → Option β
  /-- What a write has left. -/
  wrote : Event Op Res → Option β
  /-- What the answer to an operation can be relied upon to be. -/
  expects : (op : Op) → Res op → Prop
  reads : ∀ {tid op s res s' b}, S.Answers op s res s' → readOf ⟨tid, op, res⟩ = some b →
    view s = b ∧ wrote ⟨tid, op, res⟩ = none
  writes : ∀ {tid op s res s' b}, S.Answers op s res s' → wrote ⟨tid, op, res⟩ = some b → view s' = b
  keeps : ∀ {tid op s res s'}, S.Answers op s res s' → wrote ⟨tid, op, res⟩ = none → view s' = view s
  expected : ∀ {op s res s'}, S.Answers op s res s' → expects op res

namespace Register

variable {S : System σ Op Res ι Out} (R : Register S β)

/-- What the thread has last read. -/
def lastRead (tid : Nat) : List (Event Op Res) → Option β := ownFold tid (fun known event => (R.readOf event).or known) none

/-- Somebody has written since the thread last read. -/
def stale (tid : Nat) : List (Event Op Res) → Bool
  | [] => false
  | event :: older =>
    if event.tid = tid && (R.readOf event).isSome then false else (R.wrote event).isSome || stale tid older

/-- Who has written had read what was there. -/
def Unraced (log : List (Event Op Res)) : Prop :=
  Logged (fun event older => (R.wrote event).isSome → R.stale event.tid older = false) log

def decideUnraced : (log : List (Event Op Res)) → Decidable (R.Unraced log)
  | [] => .isTrue trivial
  | event :: older =>
    have := decideUnraced older
    inferInstanceAs (Decidable (((R.wrote event).isSome → R.stale event.tid older = false) ∧ R.Unraced older))

instance (log : List (Event Op Res)) : Decidable (R.Unraced log) := R.decideUnraced log

/-- What was written, newest first. -/
def written (log : List (Event Op Res)) : List β := log.filterMap R.wrote

/-- The calls that have written, newest first. -/
def writers (calls : Nat → Option ι) (log : List (Event Op Res)) : List ι :=
  log.filterMap fun event => if (R.wrote event).isSome then calls event.tid else none

/-- What the thread writes is what `f` makes of its last read. -/
def Derives (f : β → β) (tid : Nat) (h : Hist σ Op Res) (op : Op) : Prop :=
  ∀ res s' b', S.Answers op h.state res s' → R.wrote ⟨tid, op, res⟩ = some b' → ∃ b, R.lastRead tid h.log = some b ∧ b' = f b

variable {R} {tid : Nat} {h : Hist σ Op Res} {op : Op} {res : Res op} {s' : σ} {f : β → β}

theorem lastRead_push_ne {other : Nat} (ne : other ≠ tid) :
    R.lastRead other (h.push tid op res s').log = R.lastRead other h.log := ownFold_cons_ne (Ne.symm ne)

theorem lastRead_push_self :
    R.lastRead tid (h.push tid op res s').log = (R.readOf ⟨tid, op, res⟩).or (R.lastRead tid h.log) := ownFold_cons_self rfl

theorem stale_push_of_write {other : Nat} (answers : S.Answers op h.state res s')
    (isWrite : (R.wrote ⟨tid, op, res⟩).isSome) : R.stale other (h.push tid op res s').log = true := by
  have noRead : R.readOf ⟨tid, op, res⟩ = none := by
    cases read : R.readOf ⟨tid, op, res⟩ with
    | none => rfl
    | some b => simp [(R.reads answers read).2] at isWrite
  simp [stale, noRead, isWrite]

/-- A thread that is not stale has read what is there, and a stale one may have. -/
def Fresh (R : Register S β) (h : Hist σ Op Res) : Prop :=
  ∀ tid b, R.lastRead tid h.log = some b → R.stale tid h.log = false → R.view h.state = b

theorem Fresh.push (fresh : R.Fresh h) (answers : S.Answers op h.state res s') : R.Fresh (h.push tid op res s') := by
  intro other b last notStale
  cases isWrite : R.wrote ⟨tid, op, res⟩ with
  | some b' =>
    rw [stale_push_of_write answers (by simp [isWrite])] at notStale
    cases notStale
  | none =>
    have kept : R.view s' = R.view h.state := R.keeps answers isWrite
    rw [Hist.push_state, kept]
    by_cases same : other = tid
    · subst same
      rw [lastRead_push_self] at last
      cases read : R.readOf ⟨other, op, res⟩ with
      | some found =>
        rw [read, Option.some_or, Option.some.injEq] at last
        exact (R.reads answers read).1.trans last
      | none =>
        rw [read, Option.none_or] at last
        exact fresh other b last (by simpa [stale, read, isWrite] using notStale)
    · rw [lastRead_push_ne same] at last
      have earlier : R.stale other h.log = false := by simpa [stale, Ne.symm same, isWrite] using notStale
      exact fresh other b last earlier

/-! ## Nothing is lost -/

section Folded

variable {call : ι} {calls : Nat → Option ι} {g : ι → β → β} {start : β}

/-- The register holds what the writes have made of it, one after the other. -/
def Folded (R : Register S β) (calls : Nat → Option ι) (g : ι → β → β) (start : β) (h : Hist σ Op Res) : Prop :=
  R.Unraced h.log → R.view h.state = (R.writers calls h.log).foldr g start

theorem Folded.push (folded : R.Folded calls g start h) (fresh : R.Fresh h) (serves : calls tid = some call)
    (derives : R.Derives (g call) tid h op) (answers : S.Answers op h.state res s') :
    R.Folded calls g start (h.push tid op res s') := by
  rintro ⟨newest, unraced⟩
  have before := folded unraced
  cases isWrite : R.wrote ⟨tid, op, res⟩ with
  | none =>
    have writers : R.writers calls (h.push tid op res s').log = R.writers calls h.log := by simp [writers, isWrite]
    rw [writers, ← before]
    exact R.keeps answers isWrite
  | some b' =>
    have writers : R.writers calls (h.push tid op res s').log = call :: R.writers calls h.log := by
      simp [writers, isWrite, serves]
    obtain ⟨b, last, rfl⟩ := derives res s' b' answers isWrite
    have isRead := fresh tid b last (newest (by simp [isWrite]))
    rw [writers, List.foldr_cons, ← before, isRead]
    exact R.writes answers isWrite

end Folded

/-! ## Versions -/

/-- As long as nobody has raced: the versions after `start` are written in their order, and who is stale has read one
    that is not the newest. -/
structure Counted (R : Register S β) (f : β → β) (start : β) (h : Hist σ Op Res) (n : Nat) : Prop where
  unraced : R.Unraced h.log
  written : R.written h.log = ((List.range n).map fun k => f^[k + 1] start).reverse
  view : R.view h.state = f^[n] start
  last : ∀ tid b, R.lastRead tid h.log = some b → ∃ k ≤ n, b = f^[k] start ∧ (R.stale tid h.log → k < n)

/-- Somebody has raced, and a version was written twice. -/
structure Collided (R : Register S β) (h : Hist σ Op Res) : Prop where
  raced : ¬ R.Unraced h.log
  twice : ¬ (R.written h.log).Nodup

variable {start : β} {n : Nat}

theorem Collided.push (collided : R.Collided h) : R.Collided (h.push tid op res s') where
  raced unraced := collided.raced unraced.2
  twice distinct := collided.twice (distinct.sublist (List.Sublist.filterMap _ (List.sublist_cons_self _ _)))

theorem Counted.keep (counted : R.Counted f start h n) (answers : S.Answers op h.state res s')
    (unwritten : R.wrote ⟨tid, op, res⟩ = none) : R.Counted f start (h.push tid op res s') n where
  unraced := ⟨by simp [unwritten], counted.unraced⟩
  written := by
    rw [← counted.written]
    simp [Register.written, unwritten]
  view := (R.keeps answers unwritten).trans counted.view
  last := by
    intro other b last
    by_cases same : other = tid
    · subst same
      rw [lastRead_push_self] at last
      cases read : R.readOf ⟨other, op, res⟩ with
      | some found =>
        rw [read, Option.some_or, Option.some.injEq] at last
        subst last
        have isNewest := (R.reads answers read).1.symm.trans counted.view
        exact ⟨n, Nat.le_refl n, isNewest, by simp [stale, read]⟩
      | none =>
        rw [read, Option.none_or] at last
        simpa [stale, read, unwritten] using counted.last other b last
    · rw [lastRead_push_ne same] at last
      simpa [stale, Ne.symm same, unwritten] using counted.last other b last

/-- The next version, by a thread that has read the newest. -/
theorem Counted.next (counted : R.Counted f start h n) (answers : S.Answers op h.state res s') {b : β}
    (last : R.lastRead tid h.log = some b) (isWrite : R.wrote ⟨tid, op, res⟩ = some (f b))
    (notStale : R.stale tid h.log = false) (fresh : R.Fresh h) : R.Counted f start (h.push tid op res s') (n + 1) := by
  have isNewest : b = f^[n] start := (fresh tid b last notStale).symm.trans counted.view
  subst isNewest
  have isNext : R.view s' = f^[n + 1] start := by
    rw [R.writes answers isWrite, Function.iterate_succ_apply']
  refine ⟨⟨fun _ => notStale, counted.unraced⟩, ?_, isNext, fun other b' last' => ?_⟩
  · have earlier := counted.written
    simp only [Register.written] at earlier
    simp [Register.written, isWrite, earlier, List.range_succ, Function.iterate_succ_apply']
  · have noRead : R.readOf ⟨tid, op, res⟩ = none := by
      cases read : R.readOf ⟨tid, op, res⟩ with
      | none => rfl
      | some found => simp [(R.reads answers read).2] at isWrite
    have before : R.lastRead other h.log = some b' := by
      by_cases same : other = tid
      · subst same
        rwa [lastRead_push_self, noRead, Option.none_or] at last'
      · rwa [lastRead_push_ne same] at last'
    obtain ⟨k, bound, isVersion, -⟩ := counted.last other b' before
    exact ⟨k, by omega, isVersion, fun _ => by omega⟩

/-- A stale thread writes a version again that is there. -/
theorem Counted.collide (counted : R.Counted f start h n) {b : β} (last : R.lastRead tid h.log = some b)
    (isWrite : R.wrote ⟨tid, op, res⟩ = some (f b)) (isStale : R.stale tid h.log = true) :
    R.Collided (h.push tid op res s') where
  raced unraced := by simp [unraced.1 (by simp [isWrite])] at isStale
  twice := by
    obtain ⟨k, -, isVersion, older⟩ := counted.last tid b last
    have earlier : f b ∈ R.written h.log := by
      rw [counted.written, List.mem_reverse, List.mem_map]
      exact ⟨k, List.mem_range.mpr (older isStale), by rw [isVersion, Function.iterate_succ_apply']⟩
    simp [Register.written, isWrite] at earlier ⊢
    exact fun unwritten => absurd earlier (by simpa using unwritten)

/-- Either nobody has raced, and the versions are as they should be, or there is a version that was written twice. -/
def Tallied (R : Register S β) (f : β → β) (start : β) (h : Hist σ Op Res) : Prop :=
  R.Fresh h ∧ ((∃ n, R.Counted f start h n) ∨ R.Collided h)

theorem Tallied.push (tallied : R.Tallied f start h) (derives : R.Derives f tid h op)
    (answers : S.Answers op h.state res s') : R.Tallied f start (h.push tid op res s') := by
  refine ⟨tallied.1.push answers, ?_⟩
  cases tallied.2 with
  | inr collided => exact .inr collided.push
  | inl exists_ =>
    obtain ⟨n, counted⟩ := exists_
    cases isWrite : R.wrote ⟨tid, op, res⟩ with
    | none => exact .inl ⟨n, counted.keep answers isWrite⟩
    | some b' =>
      obtain ⟨b, last, rfl⟩ := derives res s' b' answers isWrite
      cases isStale : R.stale tid h.log with
      | false => exact .inl ⟨n + 1, counted.next answers last isWrite isStale tallied.1⟩
      | true => exact .inr (counted.collide last isWrite isStale)

theorem Tallied.initial (empty : h.log = []) (isStart : R.view h.state = start) : R.Tallied f start h := by
  refine ⟨fun tid b last => ?_, .inl ⟨0, ?_, ?_, isStart, fun tid b last => ?_⟩⟩
  · simp [lastRead, ownFold, empty] at last
  · rw [Unraced, empty]
    trivial
  · simp [Register.written, empty]
  · simp [lastRead, ownFold, empty] at last

/-- Versions that do not come back are given once exactly if nobody has raced. -/
theorem Tallied.nodup_iff (tallied : R.Tallied f start h)
    (distinct : ∀ i j, i < j → j < (R.written h.log).length → f^[i + 1] start ≠ f^[j + 1] start) :
    (R.written h.log).Nodup ↔ R.Unraced h.log := by
  cases tallied.2 with
  | inr collided => exact iff_of_false collided.twice collided.raced
  | inl exists_ =>
    obtain ⟨n, counted⟩ := exists_
    refine iff_of_true ?_ counted.unraced
    have length : (R.written h.log).length = n := by simp [counted.written]
    rw [counted.written, List.nodup_reverse]
    refine List.Nodup.map_on (fun i iBound j jBound same => ?_) List.nodup_range
    rw [List.mem_range] at iBound jBound
    by_contra differs
    cases Nat.lt_or_gt_of_ne differs with
    | inl less => exact distinct i j less (by omega) same
    | inr more => exact distinct j i more (by omega) same.symm

/-! ## Runs -/

variable (R) in
/-- The protocol of a thread that writes what `f` makes of its last read. -/
def protocol (f : β → β) (tid : Nat) : Protocol Op Res (Option β) where
  start := none
  proper known op := ∀ res b', R.wrote ⟨tid, op, res⟩ = some b' → ∃ b, known = some b ∧ b' = f b
  after known op res := (R.readOf ⟨tid, op, res⟩).or known
  expects := R.expects

theorem stage_protocol (log : List (Event Op Res)) : (R.protocol f tid).stage tid log = R.lastRead tid log := by
  induction log with
  | nil => rfl
  | cons event log inductionHypothesis =>
    by_cases own : event.tid = tid
    · subst own
      simp only [Protocol.stage, lastRead, ownFold_cons_self] at inductionHypothesis ⊢
      rw [inductionHypothesis]
      rfl
    · simp only [Protocol.stage, lastRead, ownFold_cons_ne own] at inductionHypothesis ⊢
      exact inductionHypothesis

variable {admits : ι → Prop} {c : Config σ Op Res ι Out} {choices : List (Choice ι)}

/-- What proper operations preserve holds at the end, for protocols that depend on the thread and on its call. -/
theorem run_protocols {Stage : Type} {P : Nat → ι → Protocol Op Res Stage}
    (expected : ∀ tid call {op s res s'}, S.Answers op s res s' → (P tid call).expects op res)
    (follows : ∀ tid call, admits call → (P tid call).Follows (fun _ _ => True) (P tid call).start (S.body call))
    {I : Hist σ Op Res → Prop}
    (kept : ∀ tid call h op res state, (S.run c choices).callOf tid = some call → S.Answers op h.state res state →
      (P tid call).proper ((P tid call).stage tid h.log) op → I h → I (h.push tid op res state))
    (noPool : c.pool = []) (noLog : c.log = []) (start : I c.toHist)
    (along : S.Along (System.Permits admits fun _ _ _ _ => True) c choices) : I (S.run c choices).toHist := by
  have compose : System.Compose S admits (S.tracked (fun _ _ _ _ => True)
      fun tid call h op => (P tid call).proper ((P tid call).stage tid h.log) op)
      (fun _ _ _ _ => True) :=
    System.tracked_compose fun {tid call h} admitted fresh => by
      have safe : S.Safe (S.tracked (fun _ _ _ _ => True) (P tid call).InStage tid call) tid
          (fun _ _ => True) (S.body call) h :=
        (follows tid call admitted).safe (expected tid call) (ownFold_of_fresh fresh)
      exact safe
  have owned : c.Owned := by
    intro event member
    rw [noLog] at member
    cases member
  exact System.run_tracked compose (fun tid call h op res state serves answers _ proper =>
    kept tid call h op res state serves answers proper) owned (System.poolSafe_of_empty noPool) start along

/-- What holds before the first operation, and is kept by each that derives its write, holds at the end. -/
theorem run_derived {g : ι → β → β}
    (follows : ∀ tid call, admits call → (R.protocol (g call) tid).Follows (fun _ _ => True) none (S.body call))
    {I : Hist σ Op Res → Prop}
    (kept : ∀ tid call h op res state, (S.run c choices).callOf tid = some call → S.Answers op h.state res state →
      R.Derives (g call) tid h op → I h → I (h.push tid op res state))
    (noPool : c.pool = []) (noLog : c.log = []) (start : I c.toHist)
    (along : S.Along (System.Permits admits fun _ _ _ _ => True) c choices) : I (S.run c choices).toHist := by
  have preserved : ∀ tid call h op res state, (S.run c choices).callOf tid = some call → S.Answers op h.state res state →
      (R.protocol (g call) tid).proper ((R.protocol (g call) tid).stage tid h.log) op → I h →
        I (h.push tid op res state) := by
    intro tid call h op res state serves answers proper
    refine kept tid call h op res state serves answers fun res' state' b' _ isWrite => ?_
    rw [stage_protocol] at proper
    exact proper res' b' isWrite
  exact run_protocols (fun _ _ _ _ _ _ => R.expected) follows preserved noPool noLog start along

/-- **No write is lost** where nobody has raced. -/
theorem run_folded {g : ι → β → β}
    (follows : ∀ tid call, admits call → (R.protocol (g call) tid).Follows (fun _ _ => True) none (S.body call))
    (noPool : c.pool = []) (noLog : c.log = []) (along : S.Along (System.Permits admits fun _ _ _ _ => True) c choices)
    (unraced : R.Unraced (S.run c choices).log) :
    R.view (S.run c choices).state =
      (R.writers (S.run c choices).callOf (S.run c choices).log).foldr g (R.view c.state) := by
  have start : R.Fresh c.toHist ∧ R.Folded (S.run c choices).callOf g (R.view c.state) c.toHist := by
    constructor
    · intro tid b last
      simp [lastRead, ownFold, noLog] at last
    · intro _
      simp [writers, noLog]
  have both := run_derived (I := fun h => R.Fresh h ∧ R.Folded (S.run c choices).callOf g (R.view c.state) h) follows
    (fun _ _ _ _ _ _ serves answers derives kept =>
      ⟨kept.1.push answers, kept.2.push kept.1 serves derives answers⟩) noPool noLog start along
  exact both.2 unraced

theorem run_tallied (follows : ∀ tid call, admits call → (R.protocol f tid).Follows (fun _ _ => True) none (S.body call))
    (noPool : c.pool = []) (noLog : c.log = []) (along : S.Along (System.Permits admits fun _ _ _ _ => True) c choices) :
    R.Tallied f (R.view c.state) (S.run c choices).toHist :=
  run_derived (g := fun _ => f) (I := fun h => R.Tallied f (R.view c.state) h) follows
    (fun _ _ _ _ _ _ _ answers derives kept => kept.push derives answers) noPool noLog (.initial noLog rfl) along

/-- **No version is given twice**, exactly if nobody has raced. -/
theorem run_nodup_iff (follows : ∀ tid call, admits call → (R.protocol f tid).Follows (fun _ _ => True) none (S.body call))
    (noPool : c.pool = []) (noLog : c.log = []) (along : S.Along (System.Permits admits fun _ _ _ _ => True) c choices)
    (distinct : ∀ i j, i < j → j < (R.written (S.run c choices).log).length →
      f^[i + 1] (R.view c.state) ≠ f^[j + 1] (R.view c.state)) :
    (R.written (S.run c choices).log).Nodup ↔ R.Unraced (S.run c choices).log :=
  (run_tallied follows noPool noLog along).nodup_iff distinct

/-- Then the register has come as far as there were writes. -/
theorem run_counted (follows : ∀ tid call, admits call → (R.protocol f tid).Follows (fun _ _ => True) none (S.body call))
    (noPool : c.pool = []) (noLog : c.log = []) (along : S.Along (System.Permits admits fun _ _ _ _ => True) c choices)
    (unraced : R.Unraced (S.run c choices).log) :
    R.view (S.run c choices).state = f^[(R.written (S.run c choices).log).length] (R.view c.state) := by
  cases (run_tallied follows noPool noLog along).2 with
  | inr collided => exact absurd unraced collided.raced
  | inl exists_ =>
    obtain ⟨n, counted⟩ := exists_
    have length : (R.written (S.run c choices).log).length = n := by simp [counted.written]
    rw [length]
    exact counted.view

/-- What all operations of the programs are, all that is logged is. -/
theorem log_of_all {p : Op → Prop} (bodies : ∀ call, (S.body call).All p) {c : Config σ Op Res ι Out} (noPool : c.pool = [])
    (noLog : c.log = []) (choices : List (Choice ι)) : ∀ event ∈ (S.run c choices).log, p event.op := by
  have compose : System.Compose S (fun _ => True) (S.tracked (fun _ _ _ _ => True) fun _ _ _ op => p op)
      fun _ _ _ _ => True :=
    System.tracked_compose fun {tid call h} _ _ =>
      System.Safe.of_all_proper (fun _ _ => trivial) ((bodies call).mono fun _ isKind _ => isKind) h
  have owned : c.Owned := by
    intro event member
    rw [noLog] at member
    cases member
  refine System.run_tracked (I := fun h => ∀ event ∈ h.log, p event.op) compose ?_ owned (System.poolSafe_of_empty noPool)
    ?_ (System.along_free S c choices)
  · intro tid call h op res state _ _ _ isKind earlier event member
    cases List.mem_cons.mp member with
    | inl new => rw [new]; exact isKind
    | inr old => exact earlier event old
  · intro event member
    rw [noLog] at member
    cases member

/-- Registers that are read together and written together are raced together. -/
theorem Unraced.congr {γ : Type} {R' : Register S γ} {log : List (Event Op Res)}
    (together : ∀ event ∈ log, (R'.wrote event).isSome = (R.wrote event).isSome ∧
      (R'.readOf event).isSome = (R.readOf event).isSome) (unraced : R.Unraced log) : R'.Unraced log := by
  have stale_eq : ∀ (tid : Nat) (log : List (Event Op Res)), (∀ event ∈ log, (R'.wrote event).isSome = (R.wrote event).isSome ∧
      (R'.readOf event).isSome = (R.readOf event).isSome) → R'.stale tid log = R.stale tid log := by
    intro tid log together
    induction log with
    | nil => rfl
    | cons event log inductionHypothesis =>
      have own := together event List.mem_cons_self
      rw [stale, stale, own.1, own.2, inductionHypothesis fun e member => together e (List.mem_cons_of_mem _ member)]
  induction log with
  | nil => trivial
  | cons event log inductionHypothesis =>
    have older : ∀ e ∈ log, (R'.wrote e).isSome = (R.wrote e).isSome ∧ (R'.readOf e).isSome = (R.readOf e).isSome :=
      fun e member => together e (List.mem_cons_of_mem _ member)
    refine ⟨fun isWrite => ?_, inductionHypothesis older unraced.2⟩
    rw [stale_eq event.tid log older]
    exact unraced.1 ((together event List.mem_cons_self).1 ▸ isWrite)

end Register

end Tape.Interleave
