import Tape.Bigtable.Machine

/-! # Find or create

An object is found through an index row, which names it.  Who finds no name there creates an object, and then has
the index row name it.  These are three operations: two callers can both find no name, and one that stops after the
second leaves an object behind that nobody finds.

`Registry.Steps` says what the callers do and `Registry.unraced` what the schedule has to spare them.  Then there is
one object, and whoever looks for it finds it: `Registry.Registered`.
-/

namespace Tape.Bigtable

open Interleave

structure Registry where
  /-- The row that names the object, and the column it does so in. -/
  index : String
  column : String
  /-- The row of an object. -/
  object : String → String
  /-- Cells of an object that this index row is for. -/
  describes : RowMap → Bool
  /-- Mutations that create one. -/
  makes : List Mutation → Bool
  object_injective : Function.Injective object
  object_ne_index : ∀ id, object id ≠ index

namespace Registry

variable {ε ι : Type} {Out : ι → Type} (r : Registry)

/-- What the index row names. -/
def named (row : Option RowMap) : String := (row.map fun m => (m.get? r.column).getD "").getD ""

/-! ## Events and steps -/

/-- An object was created. -/
def creates : Event Op (Answer ε) → Bool
  | ⟨_, .mutateRow _ mutations, .ok _⟩ => r.makes mutations
  | _ => false

def created (id : String) : Event Op (Answer ε) → Bool
  | ⟨_, .mutateRow key mutations, .ok _⟩ => key = r.object id && r.makes mutations
  | _ => false

/-- The index row was made to name the object. -/
def names (id : String) : Event Op (Answer ε) → Bool
  | ⟨_, .mutateRow key mutations, .ok _⟩ => key = r.index && r.named (some (Mutation.applyAll mutations [])) = id
  | _ => false

/-- Of a row that is there, the mutations leave something, and they do not make an object of it. -/
def Keeps (mutations : List Mutation) : Prop :=
  ∀ m, m ≠ [] → Mutation.applyAll mutations m ≠ [] ∧ (r.describes (Mutation.applyAll mutations m) → r.describes m)

/-- The operation writes no index row and creates no object. -/
def Spares : Op → Prop
  | .mutateRow key mutations => key ≠ r.index ∧ r.makes mutations = false ∧
    ∀ id, key = r.object id → r.describes (Mutation.applyAll mutations []) = false ∧ r.Keeps mutations
  | .checkAndMutateRow key _ trueMutations falseMutations => key ≠ r.index ∧
    ∀ id, key = r.object id → r.Keeps trueMutations ∧ falseMutations = []
  | _ => True

/-- The index row that the thread has last read names no object, or one that was not there when it looked. -/
def Missed (tid : Nat) (log : List (Event Op (Answer ε))) : Prop :=
  ∃ row, lastRead r.index tid log = some row ∧ (r.named row = "" ∨
    ∃ newer event older, log = newer ++ event :: older ∧ readOf (r.object (r.named row)) event = some none ∧
      ∃ own ∈ older, readOf r.index own = some row)

/-- What a thread does that finds an object or creates it. -/
inductive Steps (tid : Nat) (h : Hist Contents Op (Answer ε)) : Op → Prop
  | spare {op : Op} (spares : r.Spares op) : Steps tid h op
  | create {id : String} {mutations : List Mutation} (makes : r.makes mutations)
      (some_ : ∀ m, Mutation.applyAll mutations m ≠ []) (missed : r.Missed tid h.log) :
      Steps tid h (.mutateRow (r.object id) mutations)
  | name {id : String} (nonempty : id ≠ "") (own : ∃ event ∈ h.log, event.tid = tid ∧ r.created id event)
      (missed : r.Missed tid h.log) : Steps tid h (.mutateRow r.index [.setCell r.column id])

/-! ## What is known -/

/-- What a read could tell, after `older`. -/
structure Told (event : Event Op (Answer ε)) (older : List (Event Op (Answer ε))) : Prop where
  nameless : ∀ row, readOf r.index event = some row → r.named row = "" → older.any (writes r.index) = false
  named : ∀ row, readOf r.index event = some row → r.named row ≠ "" → ∃ naming ∈ older, r.names (r.named row) naming
  found : ∀ id m, readOf (r.object id) event = some (some m) → r.describes m → ∃ creation ∈ older, r.created id creation
  missing : ∀ id, readOf (r.object id) event = some none → ∀ creation ∈ older, r.created id creation = false

structure Registered (h : Hist Contents Op (Answer ε)) : Prop where
  told : Logged r.Told h.log
  /-- The index row goes on to name an object, -/
  kept : h.log.any (writes r.index) → r.named (h.state.read r.index) ≠ ""
  indexed : r.named (h.state.read r.index) ≠ "" → ∃ event ∈ h.log, r.names (r.named (h.state.read r.index)) event
  /-- which was created, -/
  made : Logged (fun event older => ∀ id, r.names id event → ∃ creation ∈ older, r.created id creation) h.log
  /-- and is there. -/
  present : ∀ id, (∃ event ∈ h.log, r.created id event) → ∃ m, h.state.read (r.object id) = some m
  described : ∀ id m, h.state.read (r.object id) = some m → r.describes m → ∃ event ∈ h.log, r.created id event

section Steps

variable {r} {failed : ε} {body : (call : ι) → Prog Op (Answer ε) (Out call)} {tid : Nat} {op : Op} {id : String}
  {h : Hist Contents Op (Answer ε)}

/-- A thread that does not look again has still found no object. -/
theorem Missed.later {log log' : List (Event Op (Answer ε))} (missed : r.Missed tid log)
    (same : lastRead r.index tid log' = lastRead r.index tid log) (grown : log <:+ log') : r.Missed tid log' := by
  obtain ⟨row, last, miss⟩ := missed
  refine ⟨row, same.trans last, miss.imp_right ?_⟩
  rintro ⟨newer, event, older, rfl, facts⟩
  obtain ⟨newest, rfl⟩ := grown
  exact ⟨newest ++ newer, event, older, by simp, facts⟩

theorem creates_of_created {event : Event Op (Answer ε)} (isCreated : r.created id event) : r.creates event := by
  unfold created at isCreated
  split at isCreated
  next => exact (Bool.and_eq_true_iff.mp isCreated).2
  next => cases isCreated

theorem created_of_error (e : ε) : r.created id ⟨tid, op, (.error e : Answer ε op)⟩ = false := by
  cases op <;> rfl

theorem names_of_error (e : ε) : r.names id ⟨tid, op, (.error e : Answer ε op)⟩ = false := by
  cases op <;> rfl

theorem id_of_created {id₁ id₂ : String} {event : Event Op (Answer ε)} (first : r.created id₁ event)
    (second : r.created id₂ event) : id₁ = id₂ := by
  unfold created at first second
  split at first
  next =>
    simp only [Bool.and_eq_true, decide_eq_true_eq] at first second
    exact r.object_injective (first.1.symm.trans second.1)
  next => cases first

theorem id_of_names {id₁ id₂ : String} {event : Event Op (Answer ε)} (first : r.names id₁ event)
    (second : r.names id₂ event) : id₁ = id₂ := by
  unfold names at first second
  split at first
  next =>
    simp only [Bool.and_eq_true, decide_eq_true_eq] at first second
    exact first.2.symm.trans second.2
  next => cases first

theorem writes_of_names {event : Event Op (Answer ε)} (isNaming : r.names id event) : writes r.index event := by
  unfold names at isNaming
  split at isNaming
  next => exact (Bool.and_eq_true_iff.mp isNaming).1
  next => cases isNaming

@[simp] theorem named_set (m : RowMap) (id : String) : r.named (some (m.set r.column id)) = id := by
  simp [named]

/-- What a read tells is so. -/
theorem Registered.tells {res : Answer ε op} {c : Contents} (registered : r.Registered h)
    (answers : (machine failed body).Answers op h.state res c) : r.Told ⟨tid, op, res⟩ h.log where
  nameless row read nameless := by
    obtain ⟨rfl, -⟩ := readOf_answers answers read
    by_contra written
    exact registered.kept (by simpa using written) nameless
  named row read isNamed := by
    obtain ⟨rfl, -⟩ := readOf_answers answers read
    exact registered.indexed isNamed
  found id m read isDescribed := by
    obtain ⟨found, -⟩ := readOf_answers answers read
    exact registered.described id m found isDescribed
  missing id read creation member := by
    obtain ⟨missing, -⟩ := readOf_answers answers read
    by_contra isCreated
    obtain ⟨m, found⟩ := registered.present id ⟨creation, member, by simpa using isCreated⟩
    rw [missing] at found
    cases found

/-- What a step has to keep. -/
theorem Registered.push {res : Answer ε op} {c : Contents} (registered : r.Registered h)
    (answers : (machine failed body).Answers op h.state res c)
    (index : writes r.index ⟨tid, op, res⟩ → ∃ id ≠ "", r.names id ⟨tid, op, res⟩ ∧ r.named (c.read r.index) = id ∧
      ∃ event ∈ h.log, r.created id event)
    (present : ∀ id, r.created id ⟨tid, op, res⟩ ∨ (∃ m, h.state.read (r.object id) = some m) →
      ∃ m, c.read (r.object id) = some m)
    (described : ∀ id m, c.read (r.object id) = some m → r.describes m →
      r.created id ⟨tid, op, res⟩ ∨ ∃ m, h.state.read (r.object id) = some m ∧ r.describes m) :
    r.Registered (h.push tid op res c) where
  told := ⟨registered.tells answers, registered.told⟩
  kept written := by
    cases isWrite : writes r.index ⟨tid, op, res⟩ with
    | true =>
      -- whoever writes the index row names an object in it
      obtain ⟨id, nonempty, -, isNamed, -⟩ := index isWrite
      exact fun nameless => nonempty (isNamed.symm.trans nameless)
    | false =>
      rw [Hist.push_state, read_of_not_writes answers isWrite]
      rw [Hist.push_log, List.any_cons, isWrite, Bool.false_or] at written
      exact registered.kept written
  indexed isNamed := by
    cases isWrite : writes r.index ⟨tid, op, res⟩ with
    | true =>
      obtain ⟨id, -, isNaming, same, -⟩ := index isWrite
      rw [Hist.push_state, same]
      exact ⟨_, List.mem_cons_self, isNaming⟩
    | false =>
      rw [Hist.push_state, read_of_not_writes answers isWrite] at isNamed ⊢
      obtain ⟨event, member, isNaming⟩ := registered.indexed isNamed
      exact ⟨event, List.mem_cons_of_mem _ member, isNaming⟩
  made := by
    refine ⟨fun id isNaming => ?_, registered.made⟩
    -- and has created the object before
    obtain ⟨other, -, alsoNaming, -, isCreated⟩ := index (writes_of_names isNaming)
    rwa [id_of_names isNaming alsoNaming]
  present id isCreated := by
    obtain ⟨event, member, isCreated⟩ := isCreated
    rcases List.mem_cons.mp member with rfl | member
    · exact present id (.inl isCreated)
    · exact present id (.inr (registered.present id ⟨event, member, isCreated⟩))
  described id m found isDescribed := by
    rcases described id m found isDescribed with isCreated | ⟨m, found, isDescribed⟩
    · exact ⟨_, List.mem_cons_self, isCreated⟩
    · obtain ⟨event, member, isCreated⟩ := registered.described id m found isDescribed
      exact ⟨event, List.mem_cons_of_mem _ member, isCreated⟩

theorem Registered.fault {res : Answer ε op} (registered : r.Registered h)
    (fails : (machine failed body).fault op = some res) : r.Registered (h.push tid op res h.state) := by
  obtain rfl : Except.error failed = res := Option.some.inj fails
  refine registered.push (.fault fails) ?_ ?_ ?_
  · intro isWrite
    rw [not_writes_of_error] at isWrite
    cases isWrite
  · rintro id (isCreated | found)
    · rw [created_of_error] at isCreated
      cases isCreated
    · exact found
  · exact fun id m found isDescribed => .inr ⟨m, found, isDescribed⟩

/-- What is not to be an object stays what it is, and objects stay. -/
theorem row_of_spares {s : Contents} (spares : r.Spares op) :
    ((∃ m, s.read (r.object id) = some m) → ∃ m, (op.exec s).2.read (r.object id) = some m) ∧
      ∀ m, (op.exec s).2.read (r.object id) = some m → r.describes m →
        ∃ m, s.read (r.object id) = some m ∧ r.describes m := by
  have same : (op.exec s).2.read (r.object id) = s.read (r.object id) → ((∃ m, s.read (r.object id) = some m) →
      ∃ m, (op.exec s).2.read (r.object id) = some m) ∧ ∀ m, (op.exec s).2.read (r.object id) = some m → r.describes m →
        ∃ m, s.read (r.object id) = some m ∧ r.describes m := by
    intro same
    rw [same]
    exact ⟨fun found => found, fun m found isDescribed => ⟨m, found, isDescribed⟩⟩
  have kept : ∀ {m mutations}, s.read (r.object id) = some m → r.Keeps mutations →
      (s.mutate (r.object id) mutations).read (r.object id) = some (Mutation.applyAll mutations m) := by
    intro m mutations found keeps
    have left := (keeps m (Contents.ne_nil_of_read found)).1
    obtain rfl := Contents.cells_of_read found
    exact Contents.read_mutate_self left
  cases op with
  | readRow | readPrefix | readRange | increment => exact same rfl
  | mutateRow key mutations =>
    obtain ⟨-, -, keeps⟩ := spares
    by_cases own : key = r.object id
    · subst own
      obtain ⟨nothing, keeps⟩ := keeps id rfl
      cases found : s.read (r.object id) with
      | none =>
        refine ⟨by simp, fun m written isDescribed => ?_⟩
        have empty : s.cells (r.object id) = [] := by rw [Contents.cells, found, Option.getD_none]
        simp only [Op.exec, Contents.mutate, empty, Contents.read_write, if_pos] at written
        split at written
        next => cases written
        next =>
          rw [← Option.some.inj written, nothing] at isDescribed
          cases isDescribed
      | some m =>
        have written := kept found keeps
        refine ⟨fun _ => ⟨_, written⟩, fun m' left isDescribed => ⟨m, rfl, ?_⟩⟩
        obtain rfl := Option.some.inj (written.symm.trans left)
        exact (keeps m (Contents.ne_nil_of_read found)).2 isDescribed
    · exact same (Contents.read_mutate_ne s mutations own)
  | checkAndMutateRow key predicate trueMutations falseMutations =>
    obtain ⟨-, keeps⟩ := spares
    by_cases own : key = r.object id
    · subst own
      obtain ⟨isKept, rfl⟩ := keeps id rfl
      cases matched : predicate.accepts (s.cells (r.object id)) with
      | false =>
        refine same ?_
        simp only [Op.exec, matched, Op.taken]
        exact Contents.read_mutate_nil s _ _
      | true =>
        cases found : s.read (r.object id) with
        | none =>
          -- a filter accepts no row without cells
          rw [Contents.cells, found, Option.getD_none] at matched
          cases matched
        | some m =>
          have written := kept found isKept
          simp only [Op.exec, matched, Op.taken, if_pos]
          refine ⟨fun _ => ⟨_, written⟩, fun m' left isDescribed => ⟨m, rfl, ?_⟩⟩
          obtain rfl := Option.some.inj (written.symm.trans left)
          exact (isKept m (Contents.ne_nil_of_read found)).2 isDescribed
    · exact same (Op.read_check_ne own)

theorem not_writes_of_spares (spares : r.Spares op) (res : Answer ε op) :
    writes r.index (⟨tid, op, res⟩ : Event Op (Answer ε)) = false := by
  cases op with
  | readRow | readPrefix | readRange | increment => rfl
  | mutateRow key mutations => cases res <;> simp [writes, spares.1]
  | checkAndMutateRow key predicate trueMutations falseMutations => cases res <;> simp [writes, spares.1]

theorem not_created_of_spares (spares : r.Spares op) (res : Answer ε op) :
    r.created id (⟨tid, op, res⟩ : Event Op (Answer ε)) = false := by
  cases op with
  | mutateRow key mutations => cases res <;> simp [created, spares.2.1]
  | _ => rfl

theorem Registered.exec (registered : r.Registered h) (steps : r.Steps tid h op)
    (answers : (machine failed body).Answers op h.state (.ok (op.exec h.state).1) (op.exec h.state).2) :
    r.Registered (h.push tid op (.ok (op.exec h.state).1) (op.exec h.state).2) := by
  cases steps with
  | spare spares =>
    refine registered.push answers ?_ ?_ ?_
    · intro isWrite
      -- an operation that spares both rows changes nothing here
      rw [not_writes_of_spares spares] at isWrite
      cases isWrite
    · rintro id (isCreated | found)
      · rw [not_created_of_spares spares] at isCreated
        cases isCreated
      · exact (row_of_spares spares).1 found
    · exact fun id m found isDescribed => .inr ((row_of_spares spares).2 m found isDescribed)
  | @create id mutations makes some_ missed =>
    have isCreated : r.created id (⟨tid, .mutateRow (r.object id) mutations, .ok ()⟩ : Event Op (Answer ε)) := by
      simp [created, makes]
    refine registered.push answers ?_ ?_ ?_
    · intro isWrite
      exact absurd (of_decide_eq_true isWrite) (r.object_ne_index id)
    · intro other either
      by_cases own : id = other
      · subst own
        exact ⟨_, Contents.read_mutate_self (some_ _)⟩
      · -- the objects have rows of their own
        have differs : r.object id ≠ r.object other := fun same => own (r.object_injective same)
        simp only [Op.exec, Contents.read_mutate_ne _ _ differs]
        exact either.resolve_left fun created => own (id_of_created isCreated created)
    · intro other m found isDescribed
      by_cases own : id = other
      · subst own
        exact .inl isCreated
      · have differs : r.object id ≠ r.object other := fun same => own (r.object_injective same)
        simp only [Op.exec, Contents.read_mutate_ne _ _ differs] at found
        exact .inr ⟨m, found, isDescribed⟩
  | @name id nonempty own missed =>
    obtain ⟨event, member, -, isCreated⟩ := own
    -- naming an object touches the index row alone
    have left : Mutation.applyAll [.setCell r.column id] (h.state.cells r.index) ≠ [] := List.cons_ne_nil _ _
    refine registered.push answers ?_ ?_ ?_
    · refine fun _ => ⟨id, nonempty, ?_, ?_, event, member, isCreated⟩
      · simp [names, Mutation.apply]
      · simp only [Op.exec, Contents.read_mutate_self left]
        exact named_set _ _
    · rintro other (made | found)
      · simp [created, Ne.symm (r.object_ne_index other)] at made
      · simpa only [Op.exec, Contents.read_mutate_ne _ _ (r.object_ne_index other).symm] using found
    · intro other m found isDescribed
      simp only [Op.exec, Contents.read_mutate_ne _ _ (r.object_ne_index other).symm] at found
      exact .inr ⟨m, found, isDescribed⟩

theorem Registered.initial (empty : h.log = []) (nameless : r.named (h.state.read r.index) = "")
    (nothing : ∀ id m, h.state.read (r.object id) = some m → ¬ r.describes m) : r.Registered h where
  told := by simp [empty, Logged]
  kept written := by simp [empty] at written
  indexed isNamed := absurd nameless isNamed
  made := by simp [empty, Logged]
  present id isCreated := by simp [empty] at isCreated
  described id m found isDescribed := absurd isDescribed (nothing id m found)

/-- What has a name was created. -/
theorem Registered.created_of_names (registered : r.Registered h) {event : Event Op (Answer ε)} (member : event ∈ h.log)
    (isNaming : r.names id event) : ∃ creation ∈ h.log, r.created id creation := by
  obtain ⟨newer, older, split⟩ := List.append_of_mem member
  obtain ⟨creation, isLogged, isCreated⟩ := registered.made.of_split newer split id isNaming
  exact ⟨creation, by simp [split, isLogged], isCreated⟩

variable (r) in
/-- The index row was made to name the object, or it was found to. -/
def Finds (id : String) (event : Event Op (Answer ε)) : Prop :=
  r.names id event ∨ ∃ row, readOf r.index event = some row ∧ r.named row = id ∧ id ≠ ""

theorem Registered.names_of_finds (registered : r.Registered h) {event : Event Op (Answer ε)} (member : event ∈ h.log)
    (finds : r.Finds id event) : ∃ naming ∈ h.log, r.names id naming := by
  rcases finds with isNaming | ⟨row, read, rfl, isNamed⟩
  · exact ⟨event, member, isNaming⟩
  · obtain ⟨newer, older, split⟩ := List.append_of_mem member
    obtain ⟨naming, isLogged, isNaming⟩ := (registered.told.of_split newer split).named row read isNamed
    exact ⟨naming, by simp [split, isLogged], isNaming⟩

theorem Registered.created_of_finds (registered : r.Registered h) {event : Event Op (Answer ε)} (member : event ∈ h.log)
    (finds : r.Finds id event) : ∃ creation ∈ h.log, r.created id creation := by
  obtain ⟨naming, isLogged, isNaming⟩ := registered.names_of_finds member finds
  exact registered.created_of_names isLogged isNaming

/-- What was named was there, so that who has found no object has found no name. -/
theorem Registered.nameless_of_missed (registered : r.Registered h) (missed : r.Missed tid h.log) :
    ∃ row, lastRead r.index tid h.log = some row ∧ r.named row = "" := by
  obtain ⟨row, last, miss⟩ := missed
  refine ⟨row, last, ?_⟩
  rcases miss with nameless | ⟨newer, event, older, split, missing, own, member, read⟩
  · exact nameless
  · by_contra isNamed
    obtain ⟨newer', older', rfl⟩ := List.append_of_mem member
    have before : r.Told own older' := registered.told.of_split (newer ++ event :: newer') (by simp [split])
    obtain ⟨naming, isLogged, isNaming⟩ := before.named row read isNamed
    obtain ⟨newest, oldest, rfl⟩ := List.append_of_mem isLogged
    obtain ⟨creation, isOld, isCreated⟩ : ∃ creation ∈ oldest, r.created (r.named row) creation :=
      registered.made.of_split (newer ++ event :: (newer' ++ own :: newest)) (by simp [split]) _ isNaming
    have unmade := (registered.told.of_split newer split).missing _ missing creation (by simp [isOld])
    rw [isCreated] at unmade
    cases unmade

end Steps

/-! ## One object, or one name -/

/-- All events that say so say it of one id. -/
def Single (of : String → Event Op (Answer ε) → Bool) (log : List (Event Op (Answer ε))) : Prop :=
  ∀ id₁ id₂, ∀ event₁ ∈ log, ∀ event₂ ∈ log, of id₁ event₁ → of id₂ event₂ → id₁ = id₂

/-- Nobody has created an object since the thread has last read the index row; and whoever had created one before, had
    written the index row. -/
def unraced (tid : Nat) : List (Event Op (Answer ε)) → Bool
  | [] => true
  | event :: older =>
    if event.tid = tid && (readOf r.index event).isSome then
      older.all fun creation => !r.creates creation ||
        older.any fun write => write.tid = creation.tid && writes r.index write
    else !r.creates event && unraced tid older

/-- The operation creates no object, or nobody else is about to create one. -/
def Unraced (tid : Nat) (h : Hist Contents Op (Answer ε)) (op : Op) : Prop :=
  r.creates ⟨tid, op, (.ok (op.exec h.state).1 : Answer ε op)⟩ → r.unraced tid h.log

instance (tid : Nat) (h : Hist Contents Op (Answer ε)) (op : Op) : Decidable (r.Unraced tid h op) :=
  inferInstanceAs (Decidable (_ → _))

/-- The operation does not write the index row, or nobody has written it since the thread has read it. -/
def Calm (tid : Nat) (h : Hist Contents Op (Answer ε)) (op : Op) : Prop :=
  writes r.index ⟨tid, op, (.ok (op.exec h.state).1 : Answer ε op)⟩ → calm r.index tid h.log

instance (tid : Nat) (h : Hist Contents Op (Answer ε)) (op : Op) : Decidable (r.Calm tid h op) :=
  inferInstanceAs (Decidable (_ → _))

section One

variable {r} {failed : ε} {body : (call : ι) → Prog Op (Answer ε) (Out call)} {tid : Nat} {op : Op} {id : String}
  {h : Hist Contents Op (Answer ε)} {log : List (Event Op (Answer ε))} {event : Event Op (Answer ε)}

theorem Single.cons {of : String → Event Op (Answer ε) → Bool} (single : Single of log)
    (own : ∀ {id₁ id₂}, of id₁ event → of id₂ event → id₁ = id₂)
    (first : ∀ id, of id event → ∀ other ∈ log, ∀ id, of id other = false) : Single of (event :: log) := by
  intro id₁ id₂ event₁ member₁ event₂ member₂ of₁ of₂
  rcases List.mem_cons.mp member₁ with rfl | earlier₁
  · rcases List.mem_cons.mp member₂ with rfl | earlier₂
    · exact own of₁ of₂
    · cases (first id₁ of₁ event₂ earlier₂ id₂).symm.trans of₂
  · rcases List.mem_cons.mp member₂ with rfl | earlier₂
    · cases (first id₂ of₂ event₁ earlier₁ id₁).symm.trans of₁
    · exact single id₁ id₂ event₁ earlier₁ event₂ earlier₂ of₁ of₂

theorem Single.unique {of : String → Event Op (Answer ε) → Bool} (single : Single of log) :
    ∃ id, ∀ other, ∀ event ∈ log, of other event → other = id := by
  by_cases some_ : ∃ id, ∃ event ∈ log, of id event
  · obtain ⟨id, event, member, of_⟩ := some_
    exact ⟨id, fun other event' member' of' => single other id event' member' event member of' of_⟩
  · exact ⟨"", fun other event member of_ => absurd ⟨other, event, member, of_⟩ some_⟩

theorem not_creates_of_read {key : String} {row : Option RowMap} (read : readOf key event = some row) :
    r.creates event = false := by
  unfold readOf at read
  split at read
  next => rfl
  next => cases read

/-- What a thread that was spared has read last, and what went before and after. -/
theorem unraced_split {row : Option RowMap} (isUnraced : r.unraced tid log) (last : lastRead r.index tid log = some row) :
    ∃ newer event older, log = newer ++ event :: older ∧ readOf r.index event = some row ∧
      (∀ later ∈ newer, r.creates later = false) ∧
        ∀ creation ∈ older, r.creates creation → older.any (writes r.index) := by
  induction log with
  | nil => cases last
  | cons event log inductionHypothesis =>
    by_cases isLast : event.tid = tid && (readOf r.index event).isSome
    · rw [unraced, if_pos isLast] at isUnraced
      obtain ⟨own, isRead⟩ := Bool.and_eq_true_iff.mp isLast
      obtain ⟨found, read⟩ := Option.isSome_iff_exists.mp isRead
      rw [lastRead, ownFold_cons_self (of_decide_eq_true own), read, Option.some_or] at last
      refine ⟨[], event, log, rfl, read.trans last, by simp, fun creation member isCreation => ?_⟩
      have written := List.all_eq_true.mp isUnraced creation member
      rw [isCreation, Bool.not_true, Bool.false_or] at written
      obtain ⟨write, isLogged, both⟩ := List.any_eq_true.mp written
      exact List.any_eq_true.mpr ⟨write, isLogged, (Bool.and_eq_true_iff.mp both).2⟩
    · rw [unraced, if_neg isLast, Bool.and_eq_true, Bool.not_eq_true'] at isUnraced
      have earlier : lastRead r.index tid log = some row := by
        by_cases own : event.tid = tid
        · have unread : readOf r.index event = none := by simpa [own] using isLast
          rwa [lastRead, ownFold_cons_self own, unread, Option.none_or] at last
        · rwa [lastRead, ownFold_cons_ne own] at last
      obtain ⟨newer, read, older, rfl, facts, unmade, written⟩ := inductionHypothesis isUnraced.2 earlier
      refine ⟨event :: newer, read, older, rfl, facts, fun later member => ?_, written⟩
      rcases List.mem_cons.mp member with rfl | member
      · exact isUnraced.1
      · exact unmade later member

/-- A thread that was spared, and has found no object, is the first to create one. -/
theorem Registered.none_created (registered : r.Registered h) (isUnraced : r.unraced tid h.log)
    (missed : r.Missed tid h.log) : ∀ event ∈ h.log, r.creates event = false := by
  obtain ⟨row, last, nameless⟩ := registered.nameless_of_missed missed
  obtain ⟨newer, event, older, split, read, unmade, written⟩ := unraced_split isUnraced last
  have unwritten := (registered.told.of_split newer split).nameless row read nameless
  intro other member
  rw [split] at member
  rcases List.mem_append.mp member with later | member
  · exact unmade other later
  · rcases List.mem_cons.mp member with rfl | earlier
    · exact not_creates_of_read read
    · by_contra isCreation
      have isWritten := written other earlier (by simpa using isCreation)
      rw [unwritten] at isWritten
      cases isWritten

/-- Where nobody is raced, one object is created. -/
theorem single_created (registered : r.Registered h) (steps : r.Steps tid h op) (isUnraced : r.Unraced tid h op)
    (single : Single r.created h.log) : Single r.created (h.push tid op (.ok (op.exec h.state).1) (op.exec h.state).2).log := by
  refine single.cons id_of_created fun id isCreated other member other_ => ?_
  cases steps with
  | spare spares => cases (not_created_of_spares spares _).symm.trans isCreated
  | name => simp [created, Ne.symm (r.object_ne_index id)] at isCreated
  | create makes some_ missed =>
    have unmade := registered.none_created (isUnraced (creates_of_created isCreated)) missed other member
    by_contra alsoCreated
    cases unmade.symm.trans (creates_of_created (by simpa using alsoCreated))

/-- Where the index row is as the thread has read it, it is written once. -/
theorem single_names (registered : r.Registered h) (standing : Standing r.index h) (steps : r.Steps tid h op)
    (isCalm : r.Calm tid h op) (single : Single r.names h.log) :
    Single r.names (h.push tid op (.ok (op.exec h.state).1) (op.exec h.state).2).log := by
  refine single.cons id_of_names fun id isNaming other member other_ => ?_
  have isWrite := writes_of_names isNaming
  cases steps with
  | spare spares => cases (not_writes_of_spares spares _).symm.trans isWrite
  | create => exact absurd (of_decide_eq_true isWrite) (r.object_ne_index _)
  | name nonempty own missed =>
    obtain ⟨row, last, nameless⟩ := registered.nameless_of_missed missed
    rw [← read_of_calm standing (isCalm isWrite) last] at nameless
    by_contra alsoNaming
    exact registered.kept (List.any_eq_true.mpr ⟨other, member, writes_of_names (by simpa using alsoNaming)⟩) nameless

theorem single_of_fault {of : String → Event Op (Answer ε) → Bool} {res : Answer ε op}
    (nothing : ∀ id (e : ε), of id ⟨tid, op, .error e⟩ = false) (fails : (machine failed body).fault op = some res)
    (single : Single of h.log) : Single of (h.push tid op res h.state).log := by
  obtain rfl : Except.error failed = res := Option.some.inj fails
  refine single.cons (fun of₁ _ => ?_) fun id of_ => ?_
  · cases (nothing _ _).symm.trans of₁
  · cases (nothing _ _).symm.trans of_

end One

end Registry

end Tape.Bigtable
