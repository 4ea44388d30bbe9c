import Tape.Value.CompareAndSet

/-! # Watching a value

`WatchValue` polls the row of the value and sends what is newer than what it sent last, with the version
and value it sent before.  A version that is overwritten between two polls is never sent, and before the
first event the version before is taken to be none.
-/

namespace Tape.Value

open Interleave

/-! ## The loop as a function of its reads -/

/-- The variables of the loop, and what it has sent. -/
structure Watch where
  fromVersion : Int
  prevVersion : Int
  prevValueJson : String
  sent : List ValueEvent

def Watch.start (fromVersion : Int) : Watch where
  fromVersion := fromVersion
  prevVersion := 0
  prevValueJson := ""
  sent := []

/-- One poll that found `row`. -/
def Watch.poll (s : Watch) (row : Option ValueRecord) : Watch :=
  match row.filter fun record => s.fromVersion < record.version with
  | some record =>
    { fromVersion := record.version
      prevVersion := record.version
      prevValueJson := record.valueJson
      sent := s.sent ++ [{ value := record, prevVersion := s.prevVersion, prevValueJson := s.prevValueJson }] }
  | none => s

/-- Where the reads of the log, newest first, have brought the watcher. -/
def watching (tid : Nat) (pk : String × String) (fromVersion : Int) : List TapeEvent → Watch
  | [] => .start fromVersion
  | event :: older =>
    if event.tid = tid then (valueRead pk event).elim (watching tid pk fromVersion older) (watching tid pk fromVersion older).poll
    else watching tid pk fromVersion older

theorem watching_of_other {tid : Nat} {pk : String × String} {fromVersion : Int} {event : TapeEvent}
    {older : List TapeEvent} (other : event.tid ≠ tid) :
    watching tid pk fromVersion (event :: older) = watching tid pk fromVersion older := if_neg other

theorem watching_of_silent {tid : Nat} {pk : String × String} {fromVersion : Int} {event : TapeEvent}
    {older : List TapeEvent} (silent : valueRead pk event = none) :
    watching tid pk fromVersion (event :: older) = watching tid pk fromVersion older := by
  simp [watching, silent]

theorem watching_of_read {tid : Nat} {pk : String × String} {fromVersion : Int} {event : TapeEvent}
    {older : List TapeEvent} {row : Option ValueRecord} (own : event.tid = tid) (isRead : valueRead pk event = some row) :
    watching tid pk fromVersion (event :: older) = (watching tid pk fromVersion older).poll row := by
  simp [watching, own, isRead]

theorem Watch.poll_of_newer {s : Watch} {record : ValueRecord} (newer : s.fromVersion < record.version) :
    s.poll (some record) =
      { fromVersion := record.version
        prevVersion := record.version
        prevValueJson := record.valueJson
        sent := s.sent ++ [{ value := record, prevVersion := s.prevVersion, prevValueJson := s.prevValueJson }] } := by
  simp [Watch.poll, Option.filter_some, newer]

theorem Watch.poll_of_not_newer {s : Watch} {row : Option ValueRecord}
    (old : ∀ record ∈ row, record.version ≤ s.fromVersion) : s.poll row = s := by
  cases row with
  | none => rfl
  | some record =>
    have notNewer : ¬ s.fromVersion < record.version := not_lt.mpr (old record rfl)
    simp [Watch.poll, Option.filter_some, notNewer]

/-- What was found at a poll is behind the watcher. -/
theorem Watch.le_poll (s : Watch) (record : ValueRecord) : record.version ≤ (s.poll (some record)).fromVersion := by
  by_cases newer : s.fromVersion < record.version
  · rw [s.poll_of_newer newer]
  · have notNewer : ∀ found ∈ some record, found.version ≤ s.fromVersion := by
      rintro found ⟨⟩
      exact not_lt.mp newer
    rw [s.poll_of_not_newer notNewer]
    exact not_lt.mp newer

theorem le_watching_of_lastOwn {tid : Nat} {pk : String × String} {fromVersion : Int} {log : List TapeEvent}
    {event : TapeEvent} {record : ValueRecord} (last : lastOwn tid log = some event)
    (isRead : valueRead pk event = some (some record)) : record.version ≤ (watching tid pk fromVersion log).fromVersion := by
  induction log with
  | nil => cases last
  | cons newest log inductionHypothesis =>
    by_cases own : newest.tid = tid
    · obtain rfl : newest = event := by simpa [lastOwn, own] using last
      rw [watching_of_read own isRead]
      exact Watch.le_poll _ _
    · rw [watching_of_other own]
      exact inductionHypothesis (by simpa [lastOwn, own] using last)

/-! ## What is promised -/

/-- The value was `record` at some point of the run. -/
def Was (pk : String × String) (start : Option ValueRecord) (log : List TapeEvent) (record : ValueRecord) : Prop :=
  ∃ older, older <:+ log ∧ rowAfter pk start older = some record

/-- The version and value before an event: none before the first version. -/
def IsPrior (pk : String × String) (start : Option ValueRecord) (log : List TapeEvent) (event : ValueEvent) : Prop :=
  event.prevVersion = event.value.version - 1 ∧
    (event.prevVersion = 0 ∧ event.prevValueJson = "" ∨
      ∃ record, Was pk start log record ∧ record.version = event.prevVersion ∧ record.valueJson = event.prevValueJson)

/-- Every version after `fromVersion`, each with the one before it. -/
structure Transitions (pk : String × String) (start : Option ValueRecord) (log : List TapeEvent) (fromVersion : Int)
    (sent : List ValueEvent) : Prop where
  versions : sent.map (fun event => event.value.version) = (List.range sent.length).map fun (i : Nat) => fromVersion + 1 + i
  values : ∀ event ∈ sent, Was pk start log event.value
  prior : ∀ event ∈ sent, IsPrior pk start log event

/-- The poll finds nothing new, or the next version: the first one, or one after a version that was sent. -/
def Watch.Follows (s : Watch) (record : ValueRecord) : Prop :=
  record.version ≤ s.fromVersion ∨ record.version = s.fromVersion + 1 ∧ (s.fromVersion = 0 ∨ s.sent ≠ [])

instance (s : Watch) (record : ValueRecord) : Decidable (s.Follows record) :=
  inferInstanceAs (Decidable (_ ∨ _ ∧ (_ ∨ _)))

/-- Every poll of a watcher finds nothing new or the next version. -/
def unskipped (tid : Nat) (call : Call) (h : TapeHist) : Bool :=
  match call with
  | .watchValue «namespace» key fromVersion _ => (h.state.values.find? («namespace», key)).all fun record =>
    (watching tid («namespace», key) fromVersion h.log).Follows record
  | _ => true

/-! ## The call -/

section Safety

variable {tid : Nat} {call : Call} {«namespace» key : String} {fromVersion : Int}

abbrev watchContract (tid : Nat) (call : Call) : Contract World Act Act.Res :=
  tape.tracked (fun _ _ _ _ => True) (fun _ _ _ _ => True) tid call

/-- A watcher returns what its reads have made it send. -/
def watchPost (tid : Nat) : (call : Call) → Call.Out call → TapeHist → Prop
  | .watchValue «namespace» key fromVersion _, result, h =>
    result = .ok (watching tid («namespace», key) fromVersion h.log).sent
  | _, _, _ => True

theorem watching_of_foreign {pk : String × String} {h h' : TapeHist} (foreign : Foreign tid h h') :
    watching tid pk fromVersion h'.log = watching tid pk fromVersion h.log :=
  foreign.eq_of_ignores fun _ _ other => watching_of_other other

theorem safe_watchValue (polls : Nat) {s : Watch} {h : TapeHist}
    (standing : watching tid («namespace», key) fromVersion h.log = s) :
    tape.Safe (watchContract tid call) tid
      (fun result h' => ∃ more, result = .ok more ∧
        (watching tid («namespace», key) fromVersion h'.log).sent = s.sent ++ more)
      (watchValue «namespace» key polls s.fromVersion s.prevVersion s.prevValueJson).run h := by
  induction polls generalizing s h with
  | zero =>
    intro h' foreign
    exact ⟨[], rfl, by rw [watching_of_foreign foreign, standing, List.append_nil]⟩
  | succ polls inductionHypothesis =>
    refine safe_attempt (safe_return (safe_perform fun h₁ res₁ state₁ foreign₁ _ answers₁ =>
      ⟨⟨_, res₁, state₁, rfl, answers₁, trivial, trivial⟩, ?_⟩))
    intro h₂ foreign₂ h₃ foreign₃
    have since : watching tid («namespace», key) fromVersion h₁.log = s := (watching_of_foreign foreign₁).trans standing
    -- what other threads do does not count as a poll
    have upTo : ∀ {h'}, Foreign tid h₃ h' → watching tid («namespace», key) fromVersion h'.log =
        watching tid («namespace», key) fromVersion (h₁.push tid (.value (.getValue «namespace» key)) res₁ state₁).log :=
      fun foreign => watching_of_foreign ((foreign₂.trans foreign₃).trans foreign)
    match res₁ with
    | .error e =>
      intro h' foreign
      -- a failing poll ends the stream
      have silent := (upTo foreign).trans (watching_of_silent rfl)
      exact ⟨[], rfl, by rw [silent, since, List.append_nil]⟩
    | .ok row =>
      have polled : watching tid («namespace», key) fromVersion h₃.log = s.poll row := by
        refine (upTo (Foreign.refl tid h₃)).trans ?_
        rw [← since]
        exact watching_of_read rfl (if_pos rfl)
      cases newer : row.filter fun record => decide (s.fromVersion < record.version) with
      | none =>
        -- no newer version: nothing is sent
        have same : s.poll row = s := by simp only [Watch.poll, newer]
        have rest := inductionHypothesis (polled.trans same)
        simp only [Except.map, Except.toOption, newer]
        exact rest
      | some record =>
        -- a newer version is sent, and the next poll goes on from it
        have sends : s.poll row =
            { fromVersion := record.version
              prevVersion := record.version
              prevValueJson := record.valueJson
              sent := s.sent ++ [{ value := record, prevVersion := s.prevVersion, prevValueJson := s.prevValueJson }] } := by
          simp only [Watch.poll, newer]
        have rest := inductionHypothesis (polled.trans sends)
        simp only [Except.map, Except.toOption, newer]
        refine safe_return (rest.mono ?_)
        rintro result h' ⟨more, rfl, grown⟩
        exact ⟨_, rfl, by rw [grown, List.append_assoc, List.singleton_append]⟩

theorem watch_compose :
    System.Compose tape (fun _ => True) (tape.tracked (fun _ _ _ _ => True) fun _ _ _ _ => True) watchPost := by
  refine System.tracked_compose fun {tid call h} _ fresh => ?_
  have other : (∀ result h, watchPost tid call result h) →
      tape.Safe (watchContract tid call) tid (watchPost tid call) (tape.body call) h := fun trivially =>
    System.Safe.of_all_proper trivially (Prog.all_of (fun _ _ => trivial) _) h
  cases call with
  | watchValue «namespace» key fromVersion polls =>
    have standing : watching tid («namespace», key) fromVersion h.log = .start fromVersion :=
      eq_of_fresh (fun _ _ other => watching_of_other other) fresh
    refine (safe_watchValue polls standing).mono ?_
    rintro result h' ⟨more, rfl, grown⟩
    exact congrArg Except.ok (grown.trans (List.nil_append more)).symm
  | _ => exact other fun _ _ => trivial

end Safety

/-! ## One poll -/

section Poll

variable {pk : String × String} {start : Option ValueRecord} {log : List TapeEvent} {fromVersion : Int} {s : Watch}
  {record : ValueRecord}

theorem Was.mono {log' : List TapeEvent} (was : Was pk start log record) (isSuffix : log <:+ log') :
    Was pk start log' record := by
  obtain ⟨older, past, found⟩ := was
  exact ⟨older, past.trans isSuffix, found⟩

theorem IsPrior.mono {log' : List TapeEvent} {event : ValueEvent} (prior : IsPrior pk start log event)
    (isSuffix : log <:+ log') : IsPrior pk start log' event :=
  ⟨prior.1, prior.2.imp_right fun ⟨record, was, same⟩ => ⟨record, was.mono isSuffix, same⟩⟩

/-- The watcher has sent every version up to its own, and remembers the last one. -/
structure Sound (pk : String × String) (start : Option ValueRecord) (log : List TapeEvent) (fromVersion : Int)
    (s : Watch) : Prop extends Transitions pk start log fromVersion s.sent where
  cursor : s.fromVersion = fromVersion + s.sent.length
  last : s.sent = [] ∧ s.prevVersion = 0 ∧ s.prevValueJson = "" ∨
    s.sent ≠ [] ∧ s.prevVersion = s.fromVersion ∧
      ∃ record, Was pk start log record ∧ record.version = s.fromVersion ∧ record.valueJson = s.prevValueJson

theorem Sound.initial : Sound pk start log fromVersion (.start fromVersion) where
  versions := rfl
  values := by simp [Watch.start]
  prior := by simp [Watch.start]
  cursor := by simp [Watch.start]
  last := .inl ⟨rfl, rfl, rfl⟩

theorem Sound.mono {log' : List TapeEvent} (sound : Sound pk start log fromVersion s) (isSuffix : log <:+ log') :
    Sound pk start log' fromVersion s where
  versions := sound.versions
  values event member := (sound.values event member).mono isSuffix
  prior event member := (sound.prior event member).mono isSuffix
  cursor := sound.cursor
  last := sound.last.imp_right fun ⟨some_, same, record, was, isLast⟩ => ⟨some_, same, record, was.mono isSuffix, isLast⟩

theorem Sound.poll (sound : Sound pk start log fromVersion s) (was : Was pk start log record) (follows : s.Follows record) :
    Sound pk start log fromVersion (s.poll (some record)) := by
  rcases follows with old | ⟨next, first⟩
  · have same : s.poll (some record) = s := Watch.poll_of_not_newer (by rintro found ⟨⟩; exact old)
    rw [same]
    exact sound
  · rw [Watch.poll_of_newer (by omega)]
    have prior : IsPrior pk start log { value := record, prevVersion := s.prevVersion, prevValueJson := s.prevValueJson } := by
      rcases sound.last with ⟨none_, version, json⟩ | ⟨-, version, last, wasLast, isLast, json⟩
      · -- the first event is for version 1
        have zero : s.fromVersion = 0 := first.resolve_right fun some_ => some_ none_
        exact ⟨by simp only; omega, .inl ⟨version, json⟩⟩
      · exact ⟨by simp only; omega, .inr ⟨last, wasLast, by simp only; omega, json⟩⟩
    refine { versions := ?_, values := ?_, prior := ?_, cursor := ?_, last := .inr ⟨by simp, rfl, record, was, rfl, rfl⟩ }
    · have cursor := sound.cursor
      have number : record.version = fromVersion + 1 + s.sent.length := by omega
      rw [List.map_append, sound.versions, List.length_append, List.length_singleton, List.range_succ, List.map_append]
      simp [number]
    · intro event member
      rcases List.mem_append.mp member with earlier | now
      · exact sound.values event earlier
      · rw [List.mem_singleton.mp now]
        exact was
    · intro event member
      rcases List.mem_append.mp member with earlier | now
      · exact sound.prior event earlier
      · rw [List.mem_singleton.mp now]
        exact prior
    · have cursor := sound.cursor
      simp only [List.length_append, List.length_singleton]
      omega

end Poll

/-! ## Runs -/

/-- The row is what the log made of it, and the watcher has sent every version up to its own. -/
def Following (pk : String × String) (start : Option ValueRecord) (tid : Nat) (fromVersion : Int) (h : TapeHist) : Prop :=
  h.state.values.find? pk = rowAfter pk start h.log ∧
    Sound pk start h.log fromVersion (watching tid pk fromVersion h.log)

theorem Following.push {pk : String × String} {start : Option ValueRecord} {tid other : Nat} {fromVersion : Int}
    {h : TapeHist} {act : Act} {res : act.Res} {state : World} (following : Following pk start tid fromVersion h)
    (answers : tape.Answers act h.state res state)
    (follows : other = tid → ∀ found, valueRead pk ⟨other, act, res⟩ = some found →
      ∀ record ∈ found, (watching tid pk fromVersion h.log).Follows record) :
    Following pk start tid fromVersion (h.push other act res state) := by
  obtain ⟨row, sound⟩ := following
  have isSuffix : h.log <:+ (h.push other act res state).log := List.suffix_cons _ _
  refine ⟨by rw [Hist.push_state, row_of_answers other answers, row]; rfl, ?_⟩
  by_cases own : other = tid
  · cases isRead : valueRead pk ⟨other, act, res⟩ with
    | none =>
      have same : watching tid pk fromVersion (h.push other act res state).log = watching tid pk fromVersion h.log :=
        watching_of_silent isRead
      rw [same]
      exact sound.mono isSuffix
    | some found =>
      have polled : watching tid pk fromVersion (h.push other act res state).log =
          (watching tid pk fromVersion h.log).poll found := watching_of_read own isRead
      rw [polled]
      cases found with
      | none => exact sound.mono isSuffix
      | some record =>
        have was : Was pk start h.log record :=
          ⟨h.log, List.suffix_refl _, row.symm.trans (row_of_valueRead answers isRead).symm⟩
        exact (sound.poll was (follows own _ isRead record rfl)).mono isSuffix
  · have same : watching tid pk fromVersion (h.push other act res state).log = watching tid pk fromVersion h.log :=
      watching_of_other own
    rw [same]
    exact sound.mono isSuffix

theorem valueRead_of_fault {tid : Nat} {pk : String × String} {act : Act} {res : act.Res} (failed : act.fault = some res) :
    valueRead pk ⟨tid, act, res⟩ = none := by
  unfold valueRead
  split
  next same =>
    cases same
    cases failed
  next => rfl

/-- **A watcher sees every transition**, in every run in which its polls find nothing new or the next
    version, the first of them version 1 of a watch from 0: it has sent every version after `fromVersion` up to
    what its last poll found, in order, each with the version and value before it. -/
theorem watcher_sees_transitions {w : World} {choices : List (Choice Call)} {tid : Nat} {«namespace» key : String}
    {fromVersion : Int} {polls : Nat}
    (follows : tape.Along (System.Executes fun tid call h _ => unskipped tid call h) (quiet w) choices)
    (serves : (tape.run (quiet w) choices).callOf tid = some (.watchValue «namespace» key fromVersion polls)) :
    ∃ sent, Transitions («namespace», key) (w.values.find? («namespace», key)) (tape.run (quiet w) choices).log
        fromVersion sent ∧
      (∀ event record, lastOwn tid (tape.run (quiet w) choices).log = some event →
        valueRead («namespace», key) event = some (some record) → record.version ≤ fromVersion + sent.length) ∧
      ∀ result, (tape.run (quiet w) choices).pool[tid]? =
        some ⟨.watchValue «namespace» key fromVersion polls, .ret result⟩ → result = .ok sent := by
  have following : Following («namespace», key) (w.values.find? («namespace», key)) tid fromVersion
      (tape.run (quiet w) choices).toHist := by
    refine System.run_hist_of_execs ?_ ?_ ⟨rfl, .initial⟩ follows
    · intro other call h act isCall permitted following
      refine following.push .exec fun own found isRead record member => ?_
      obtain rfl : found = h.state.values.find? («namespace», key) := row_of_valueRead .exec isRead
      rw [own, serves, Option.some.injEq] at isCall
      subst isCall own
      rw [unskipped, show h.state.values.find? («namespace», key) = some record from member, Option.all_some] at permitted
      exact of_decide_eq_true permitted
    · intro other h act res failed following
      refine following.push (.fault failed) fun _ found isRead => ?_
      rw [valueRead_of_fault failed] at isRead
      cases isRead
  refine ⟨(watching tid («namespace», key) fromVersion (tape.run (quiet w) choices).log).sent,
    following.2.toTransitions, ?_, ?_⟩
  · intro event record last isRead
    rw [← following.2.cursor]
    exact le_watching_of_lastOwn last isRead
  · intro result returned
    have permits : tape.Along (System.Permits (fun _ => True) fun _ _ _ _ => True) (quiet w) choices :=
      System.along_free tape (quiet w) _
    exact (System.run_safe watch_compose (quiet_owned w) (System.poolSafe_of_empty rfl) permits).returned returned

/-! ## Two writes between two polls -/

def writeX (valueJson : String) : Call := .writeValue "counters" "X" valueJson (-1) "w" 0

/-- The watcher polls after each write. -/
def watchedEach : List (Choice Call) :=
  [.spawn (.watchValue "counters" "X" 0 2)] ++ Tape.serve 1 (writeX "70") ++ [.exec 0] ++ Tape.serve 2 (writeX "90") ++ [.exec 0]

/-- The watcher polls after both. -/
def watchedLate : List (Choice Call) :=
  [.spawn (.watchValue "counters" "X" 0 2)] ++ Tape.serve 1 (writeX "70") ++ Tape.serve 2 (writeX "90") ++ [.exec 0, .exec 0]

/-- The record of the value after its `version`-th write. -/
def recordX (valueJson : String) (version : Int) : ValueRecord := written "counters" "X" valueJson version 0 "w"

/-- It is sent 70, and then 90 as the change from 70. -/
theorem each_write_seen :
    (tape.run (quiet .empty) watchedEach).pool[0]? = some ⟨.watchValue "counters" "X" 0 2, .ret (.ok
      [{ value := recordX "70" 1, prevVersion := 0, prevValueJson := "" },
        { value := recordX "90" 2, prevVersion := 1, prevValueJson := "70" }])⟩ ∧
    ∃ sent, Transitions ("counters", "X") none (tape.run (quiet .empty) watchedEach).log 0 sent ∧ sent.length = 2 := by
  have returned : (tape.run (quiet .empty) watchedEach).pool[0]? = some ⟨.watchValue "counters" "X" 0 2, .ret (.ok
      [{ value := recordX "70" 1, prevVersion := 0, prevValueJson := "" },
        { value := recordX "90" 2, prevVersion := 1, prevValueJson := "70" }])⟩ := by rfl
  have follows : tape.Along (System.Executes fun tid call h _ => unskipped tid call h) (quiet .empty) watchedEach := by
    decide +kernel
  have serves : (tape.run (quiet .empty) watchedEach).callOf 0 = some (.watchValue "counters" "X" 0 2) := by rfl
  obtain ⟨sent, transitions, -, isSent⟩ := watcher_sees_transitions follows serves
  cases isSent _ returned
  exact ⟨returned, _, transitions, rfl⟩

/-- It is sent 90 alone, as if there had been no value before. -/
theorem first_write_skipped : ¬ ∃ sent, Transitions ("counters", "X") none (tape.run (quiet .empty) watchedLate).log 0 sent ∧
    ∀ result, (tape.run (quiet .empty) watchedLate).pool[0]? = some ⟨.watchValue "counters" "X" 0 2, .ret result⟩ →
      result = .ok sent := by
  rintro ⟨sent, transitions, isSent⟩
  have returned : (tape.run (quiet .empty) watchedLate).pool[0]? = some ⟨.watchValue "counters" "X" 0 2, .ret (.ok
      [{ value := recordX "90" 2, prevVersion := 0, prevValueJson := "" }])⟩ := by rfl
  cases isSent _ returned
  exact absurd transitions.versions (by decide)

end Tape.Value
