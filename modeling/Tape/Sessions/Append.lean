import Tape.Sessions.Store

/-! # Appending events

`append_event` reads the next ordinal and the current state in two statements and writes
the event and the merged state in one transaction.  The key of `tape_events` is the only
guard: when the transaction is accepted, nobody has appended since the ordinal was read, so
the state it merged into is the state it replaces.
-/

namespace Tape.Sessions

open Sql Interleave

abbrev SessionEvent : Type := Event Op Op.Res

abbrev SessionHist : Type := Hist Database Op Op.Res

abbrev SessionConfig : Type := Config Database Op Op.Res Call Call.Out

/-- The database without any process running. -/
def quiet (db : Database) : SessionConfig where
  state := db
  log := []
  pool := []

/-- The state of a session; the empty object while there is no row. -/
def stateOf (db : Database) (session : Key) : String := ((db.sessions.find? session).map SessionRow.stateJson).getD "{}"

/-! ## The log -/

/-- The thread that appended an event to the session. -/
def appender (session : Key) : SessionEvent → Option Nat
  | ⟨tid, .append row _, .ok ()⟩ => if row.session = session then some tid else none
  | _ => none

/-- The threads whose transaction on the session was carried out, first one first. -/
def appenders (session : Key) (log : List SessionEvent) : List Nat := (log.filterMap (appender session)).reverse

/-- The next ordinal as the event read it. -/
def ordRead (session : Key) : SessionEvent → Option Int
  | ⟨_, .nextOrd key, .ok ord⟩ => if key = session then some ord else none
  | _ => none

/-- The state as the event read it. -/
def stateRead (session : Key) : SessionEvent → Option String
  | ⟨_, .readState key, .ok current⟩ => if key = session then some (current.getD "{}") else none
  | _ => none

/-- The delta of an `append_event`. -/
def deltaOf : Option Call → String
  | some (.appendEvent _ _ stateDeltaJson _) => effectiveDelta stateDeltaJson
  | _ => "{}"

/-- The deltas of the threads, merged into a state one after the other. -/
def merged (serde : SerdeJson) (calls : Nat → Option Call) (start : String) (tids : List Nat) : String :=
  tids.foldl (fun state tid => serde.mergeJson state (deltaOf (calls tid))) start

/-- The event as it is stored and handed back. -/
def stamped (event : EventRecord) (now : Int) : EventRecord := { event with timestampMs := eventTime event now }

/-- The thread has appended nothing. -/
def Idle (tid : Nat) (log : List SessionEvent) : Prop :=
  ∀ event ∈ log, event.tid = tid → ∀ session, appender session event = none

/-- The transaction of an `append_event`, the first of its thread: its ordinal and the state it merges into
    were read before, in this order. -/
def Prepared (serde : SerdeJson) (tid : Nat) (call : Call) (log : List SessionEvent) : Op → Prop
  | .append row updated => Idle tid log ∧ ∃ event stateDeltaJson now,
    call = .appendEvent row.session event stateDeltaJson now ∧ row.event = stamped event now ∧
      updated.session = row.session ∧
      ∃ newer between older atState atOrd current,
        log = newer ++ atState :: (between ++ atOrd :: older) ∧
        ordRead row.session atOrd = some row.ord ∧ stateRead row.session atState = some current ∧
        updated.stateJson = serde.mergeJson current (effectiveDelta stateDeltaJson)
  | .nextOrd _ | .readState _ | .readSession _ | .readEvents .. => True
  | _ => False

theorem appenders_append (session : Key) (newer older : List SessionEvent) :
    appenders session (newer ++ older) = appenders session older ++ appenders session newer := by
  simp [appenders]

theorem appenders_cons_of_none {session : Key} {event : SessionEvent} (none : appender session event = none)
    (log : List SessionEvent) : appenders session (event :: log) = appenders session log := by
  simp [appenders, none]

theorem appenders_cons_of_some {session : Key} {event : SessionEvent} {tid : Nat}
    (appended : appender session event = some tid) (log : List SessionEvent) :
    appenders session (event :: log) = appenders session log ++ [tid] := by
  simp [appenders, appended]

theorem mem_appenders {session : Key} {tid : Nat} {log : List SessionEvent} :
    tid ∈ appenders session log ↔ ∃ event ∈ log, appender session event = some tid := by
  simp [appenders]

theorem tid_of_appender {session : Key} {tid : Nat} {event : SessionEvent} (appended : appender session event = some tid) :
    event.tid = tid := by
  unfold appender at appended
  split at appended
  next =>
    split at appended
    · exact Option.some.inj appended
    · cases appended
  next => cases appended

theorem Idle.not_mem {tid : Nat} {log : List SessionEvent} (idle : Idle tid log) (session : Key) :
    tid ∉ appenders session log := by
  intro member
  obtain ⟨event, known, appended⟩ := mem_appenders.mp member
  have nothing := idle event known (tid_of_appender appended) session
  rw [appended] at nothing
  cases nothing

/-! ## The tables -/

section Tables

variable {db : Database} {session : Key} {n : Nat}

/-- After the ordinals `0` to `n - 1` comes `n`. -/
theorem nextOrd_of_ords (ords : (db.eventsOf session).map EventRow.ord = (List.range n).map Int.ofNat) :
    db.nextOrd session = n := by
  rw [Database.nextOrd, ords]
  cases n with
  | zero => rfl
  | succ n =>
    have last : ((List.range (n + 1)).map Int.ofNat).max? = some (n : Int) := by
      rw [List.max?_eq_some_iff]
      refine ⟨List.mem_map.mpr ⟨n, List.mem_range.mpr n.lt_succ_self, rfl⟩, fun ord member => ?_⟩
      obtain ⟨i, bound, rfl⟩ := List.mem_map.mp member
      have bound := List.mem_range.mp bound
      simp only [Int.ofNat_eq_natCast]
      omega
    rw [last, Option.getD_some]
    push_cast
    rfl

theorem eventsOf_insert {row : EventRow} {events : Table EventRow.pk} (session : Key) (sessions : Table SessionRow.pk)
    (accepted : db.events.insert (fun _ => false) row = some events) :
    Database.eventsOf { sessions, events } session =
      db.eventsOf session ++ if row.session = session then [row] else [] := by
  rw [Database.eventsOf, Table.rows_insert accepted, List.filter_append, Database.eventsOf]
  split
  next same => simp [same]
  next other => simp [other]

/-- An ordinal under which an event was accepted is not among the first `n`. -/
theorem le_ord_of_insert {row : EventRow} {events : Table EventRow.pk}
    (ords : (db.eventsOf session).map EventRow.ord = (List.range n).map Int.ofNat) (own : row.session = session)
    {i : Nat} (ord : row.ord = i) (accepted : db.events.insert (fun _ => false) row = some events) : n ≤ i := by
  by_contra below
  have listed : row.ord ∈ (db.eventsOf session).map EventRow.ord := by
    rw [ords, ord]
    exact List.mem_map.mpr ⟨i, List.mem_range.mpr (by omega), rfl⟩
  obtain ⟨old, member, same⟩ := List.mem_map.mp listed
  obtain ⟨stored, isOwn⟩ := List.mem_filter.mp member
  have found := Table.find?_key_of_mem stored
  have key : old.pk = row.pk := Prod.ext ((of_decide_eq_true isOwn).trans own.symm) same
  rw [key, Table.find?_none_of_insert accepted] at found
  cases found

theorem stateOf_upsert (updated : SessionRow) (events : Table EventRow.pk) :
    stateOf { sessions := db.upsertSession updated, events } session =
      if updated.session = session then updated.stateJson else stateOf db session := by
  simp only [stateOf, Database.upsertSession, Table.find?_upsert]
  split
  next => cases db.sessions.find? session <;> rfl
  next => rfl

end Tables

/-! ## The invariant -/

/-- From `n` events and the state `start`: every append stored its event under the next ordinal, the state
    is what the deltas made of the one at the start, and every read was of what there was. -/
structure Linear (serde : SerdeJson) (session : Key) (n : Nat) (start : String) (calls : Nat → Option Call)
    (log : List SessionEvent) (db : Database) : Prop where
  ords : (db.eventsOf session).map EventRow.ord =
    (List.range (n + (appenders session log).length)).map Int.ofNat
  state : stateOf db session = merged serde calls start (appenders session log)
  once : (appenders session log).Nodup
  stored : ∀ i tid, (appenders session log)[i]? = some tid → ∃ event stateDeltaJson now,
    calls tid = some (.appendEvent session event stateDeltaJson now) ∧
      ((db.eventsOf session)[n + i]?).map EventRow.event = some (stamped event now)
  reads : Logged (fun event older =>
    (∀ ord, ordRead session event = some ord → ord = (n + (appenders session older).length : Nat)) ∧
      ∀ current, stateRead session event = some current → current = merged serde calls start (appenders session older)) log

section Step

variable {serde : SerdeJson} {session : Key} {n : Nat} {start : String} {calls : Nat → Option Call}
  {log : List SessionEvent} {db db' : Database}

theorem Linear.length_eventsOf (linear : Linear serde session n start calls log db) :
    (db.eventsOf session).length = n + (appenders session log).length := by
  simpa using congrArg List.length linear.ords

/-- An operation that appends nothing to the session leaves it as it is. -/
theorem Linear.cons_quiet (linear : Linear serde session n start calls log db) {event : SessionEvent}
    (nothing : appender session event = none) (events : db'.eventsOf session = db.eventsOf session)
    (state : stateOf db' session = stateOf db session)
    (ord : ∀ ord, ordRead session event = some ord → ord = db.nextOrd session)
    (current : ∀ current, stateRead session event = some current → current = stateOf db session) :
    Linear serde session n start calls (event :: log) db' where
  ords := by rw [events, appenders_cons_of_none nothing, linear.ords]
  state := by rw [state, appenders_cons_of_none nothing, linear.state]
  once := by rw [appenders_cons_of_none nothing]; exact linear.once
  stored := by rw [events, appenders_cons_of_none nothing]; exact linear.stored
  reads := by
    refine ⟨⟨fun read isRead => ?_, fun read isRead => ?_⟩, linear.reads⟩
    · rw [ord read isRead, nextOrd_of_ords linear.ords]
    · rw [current read isRead, linear.state]

/-- When the key of the event is free, nobody has appended since its ordinal was read: the ordinal is the
    next one, and the state that was read is the state there is. -/
theorem Linear.upToDate (linear : Linear serde session n start calls log db) {row : EventRow}
    {events : Table EventRow.pk} (own : row.session = session)
    (accepted : db.events.insert (fun _ => false) row = some events)
    {newer between older : List SessionEvent} {atState atOrd : SessionEvent} {current : String}
    (split : log = newer ++ atState :: (between ++ atOrd :: older)) (isOrd : ordRead session atOrd = some row.ord)
    (isState : stateRead session atState = some current) :
    row.ord = (n + (appenders session log).length : Nat) ∧ current = stateOf db session := by
  have ord := (linear.reads.of_split (newer ++ atState :: between) (by rw [split, List.append_assoc, List.cons_append])).1
    row.ord isOrd
  have state := (linear.reads.of_split newer split).2 current isState
  have bound := le_ord_of_insert linear.ords own ord accepted
  have whole : appenders session log = appenders session (between ++ atOrd :: older) ++
      appenders session (newer ++ [atState]) := by
    rw [split, ← appenders_append, List.append_assoc, List.singleton_append]
  have earlier : appenders session (between ++ atOrd :: older) = appenders session older ++
      appenders session (between ++ [atOrd]) := by
    rw [← appenders_append, List.append_assoc, List.singleton_append]
  have total := congrArg List.length whole
  have partly := congrArg List.length earlier
  rw [List.length_append] at total partly
  have nothing : appenders session (newer ++ [atState]) = [] := List.length_eq_zero_iff.mp (by omega)
  constructor
  · rw [ord]
    omega
  · rw [state, linear.state, whole, nothing, List.append_nil]

/-- A transaction that is accepted merges into the state it replaces. -/
theorem Linear.cons_append (linear : Linear serde session n start calls log db) {tid : Nat} {call : Call}
    {row : EventRow} {updated : SessionRow} {events : Table EventRow.pk} (serves : calls tid = some call)
    (prepared : Prepared serde tid call log (.append row updated)) (own : row.session = session)
    (accepted : db.events.insert (fun _ => false) row = some events) :
    Linear serde session n start calls (⟨tid, .append row updated, .ok ()⟩ :: log)
      { sessions := db.upsertSession updated, events } := by
  obtain ⟨idle, event, stateDeltaJson, now, rfl, isEvent, ofSession, newer, between, older, atState, atOrd, current,
    split, isOrd, isState, isMerged⟩ := prepared
  subst own
  have appended : appender row.session ⟨tid, .append row updated, .ok ()⟩ = some tid := if_pos rfl
  -- what the call had read is still there, or the ordinal would be taken
  obtain ⟨next, state⟩ := linear.upToDate rfl accepted split isOrd isState
  have rows := eventsOf_insert row.session (db.upsertSession updated) accepted
  rw [if_pos rfl] at rows
  constructor
  · rw [rows, List.map_append, linear.ords, appenders_cons_of_some appended, List.length_append, List.length_singleton,
      ← add_assoc, List.range_succ, List.map_append, List.map_singleton, List.map_singleton, next]
    rfl
  · rw [stateOf_upsert, if_pos ofSession, isMerged, state, linear.state, appenders_cons_of_some appended, merged, merged,
      List.foldl_append, List.foldl_cons, List.foldl_nil, serves]
    rfl
  · rw [appenders_cons_of_some appended]
    exact List.Nodup.append linear.once (List.nodup_singleton _) (by simpa using idle.not_mem row.session)
  · intro i other isAppender
    have length := linear.length_eventsOf
    rw [rows]
    rw [appenders_cons_of_some appended] at isAppender
    -- the call is the last one to append, and its event the last one
    by_cases earlier : i < (appenders row.session log).length
    · rw [List.getElem?_append_left earlier] at isAppender
      rw [List.getElem?_append_left (by omega)]
      exact linear.stored i other isAppender
    · rw [List.getElem?_append_right (by omega)] at isAppender
      obtain ⟨rfl, rfl⟩ : i = (appenders row.session log).length ∧ other = tid := by
        cases beyond : i - (appenders row.session log).length with
        | zero =>
          rw [beyond] at isAppender
          exact ⟨by omega, (Option.some.inj isAppender).symm⟩
        | succ k =>
          rw [beyond] at isAppender
          cases isAppender
      refine ⟨event, stateDeltaJson, now, serves, ?_⟩
      rw [List.getElem?_append_right (by omega), ← length, Nat.sub_self]
      exact congrArg some isEvent
  · exact ⟨⟨fun _ isRead => (by cases isRead), fun _ isRead => (by cases isRead)⟩, linear.reads⟩

theorem Linear.push {tid : Nat} {call : Call} {op : Op} {res : op.Res}
    (linear : Linear serde session n start calls log db) (serves : calls tid = some call)
    (prepared : Prepared serde tid call log op) (answers : (store serde).Answers op db res db') :
    Linear serde session n start calls (⟨tid, op, res⟩ :: log) db' := by
  cases answers with
  | fault failed =>
    obtain rfl := Option.some.inj failed
    refine linear.cons_quiet ?_ rfl rfl (fun _ isRead => ?_) fun _ isRead => ?_
    · cases op <;> rfl
    · cases op <;> cases isRead
    · cases op <;> cases isRead
  | exec =>
    cases op with
    | nextOrd key =>
      refine linear.cons_quiet rfl rfl rfl (fun ord isRead => ?_) fun _ isRead => by cases isRead
      obtain ⟨rfl, isOrd⟩ := Option.ite_none_right_eq_some.mp isRead
      exact (Option.some.inj isOrd).symm
    | readState key =>
      refine linear.cons_quiet rfl rfl rfl (fun _ isRead => by cases isRead) fun current isRead => ?_
      obtain ⟨rfl, isState⟩ := Option.ite_none_right_eq_some.mp isRead
      exact (Option.some.inj isState).symm
    | append row updated =>
      cases accepted : db.events.insert (fun _ => false) row with
      | none =>
        -- the ordinal is taken: the whole transaction is undone
        have refused : (store serde).exec (.append row updated) db = (.error (constraintFailed "tape_events"), db) := by
          simp only [store, Op.exec, accepted]
        rw [refused]
        exact linear.cons_quiet rfl rfl rfl (fun _ isRead => by cases isRead) fun _ isRead => by cases isRead
      | some events =>
        have done : (store serde).exec (.append row updated) db =
            (.ok (), { sessions := db.upsertSession updated, events }) := by
          simp only [store, Op.exec, accepted]
        rw [done]
        by_cases own : row.session = session
        · exact linear.cons_append serves prepared own accepted
        · -- an append to another session
          obtain ⟨-, _, _, _, -, -, ofSession, -⟩ := prepared
          refine linear.cons_quiet (if_neg own) ?_ ?_ (fun _ isRead => by cases isRead) fun _ isRead => by cases isRead
          · rw [eventsOf_insert _ _ accepted, if_neg own, List.append_nil]
          · rw [stateOf_upsert, if_neg (ofSession ▸ own)]
    | readSession | readEvents =>
      exact linear.cons_quiet rfl rfl rfl (fun _ isRead => by cases isRead) fun _ isRead => by cases isRead
    | _ => exact prepared.elim

end Step

/-! ## The threads -/

def isAppendOrRead : Call → Bool
  | .appendEvent .. | .getSession .. => true
  | _ => false

/-- An `append_event` that has returned appended its event, and one that has failed nothing. -/
def appendPost (tid : Nat) (call : Call) (out : call.Out) (h : SessionHist) : Prop :=
  match call, out with
  | .appendEvent session .., .ok _ => tid ∈ appenders session h.log
  | .appendEvent .., .error _ => Idle tid h.log
  | _, _ => True

abbrev appendContract (serde : SerdeJson) : Nat → Call → Contract Database Op Op.Res :=
  (store serde).tracked (fun _ _ _ _ => True) fun tid call h op => Prepared serde tid call h.log op

section Safety

variable {serde : SerdeJson} {tid : Nat} {call : Call} {α : Type} {h h' : SessionHist}

theorem Idle.of_foreign (idle : Idle tid h.log) (foreign : Foreign tid h h') : Idle tid h'.log :=
  fun event member own => idle event (foreign.own member own) own

theorem Idle.of_fresh (fresh : lastOwn tid h.log = none) : Idle tid h.log := by
  intro event member own
  have other := List.find?_eq_none.mp fresh event member
  simp only [decide_eq_true_eq] at other
  exact absurd own other

theorem Idle.push {op : Op} {res : op.Res} {state : Database} (idle : Idle tid h.log)
    (nothing : ∀ session, appender session ⟨tid, op, res⟩ = none) : Idle tid (h.push tid op res state).log := by
  intro event member own session
  rcases List.mem_cons.mp member with rfl | member
  · exact nothing session
  · exact idle event member own session

theorem safe_query {op : Op} {post : Except StoreError α → SessionHist → Prop} {f : op.Ok → SessionM α}
    (step : ∀ h' res state, Foreign tid h h' → (store serde).Answers op h'.state res state →
      Prepared serde tid call h'.log op ∧
        match res with
        | .ok value => (store serde).Safe (appendContract serde tid call) tid post (f value).run
            (h'.push tid op (.ok value) state)
        | .error e => ∀ h'', Foreign tid (h'.push tid op (.error e) state) h'' → post (.error e) h'') :
    (store serde).Safe (appendContract serde tid call) tid post (op.query >>= f).run h := by
  intro h' foreign _ res state answers
  obtain ⟨prepared, rest⟩ := step h' res state foreign answers
  refine ⟨⟨op, res, state, rfl, answers, trivial, prepared⟩, ?_⟩
  cases res with
  | ok value => exact rest
  | error e => exact rest

theorem safe_appendEvent {session : Key} {event : EventRecord} {stateDeltaJson : String} {now : Int}
    (serves : call = .appendEvent session event stateDeltaJson now) (idle : Idle tid h.log) :
    (store serde).Safe (appendContract serde tid call) tid (fun result h =>
        match result with
        | .ok _ => tid ∈ appenders session h.log
        | .error _ => Idle tid h.log)
      (appendEvent serde session event stateDeltaJson now).run h := by
  refine safe_query fun h₁ res₁ state₁ foreign₁ _ => ⟨trivial, ?_⟩
  have idle₁ : Idle tid (h₁.push tid (.nextOrd session) res₁ state₁).log := (idle.of_foreign foreign₁).push fun _ => rfl
  cases res₁ with
  | error e => exact fun _ foreign => idle₁.of_foreign foreign
  | ok ord =>
    refine safe_query fun h₂ res₂ state₂ foreign₂ _ => ⟨trivial, ?_⟩
    have idle₂ : Idle tid (h₂.push tid (.readState session) res₂ state₂).log :=
      (idle₁.of_foreign foreign₂).push fun _ => rfl
    cases res₂ with
    | error e => exact fun _ foreign => idle₂.of_foreign foreign
    | ok current =>
      refine safe_query fun h₃ res₃ state₃ foreign₃ _ => ⟨?_, ?_⟩
      · have stillIdle := idle₂.of_foreign foreign₃
        obtain ⟨newer, grown, -⟩ := foreign₃
        obtain ⟨between, since, -⟩ := foreign₂
        refine ⟨stillIdle, event, stateDeltaJson, now, serves, rfl, rfl, newer, between, h₁.log,
          ⟨tid, .readState session, .ok current⟩, ⟨tid, .nextOrd session, .ok ord⟩, current.getD "{}", ?_, if_pos rfl,
          if_pos rfl, rfl⟩
        rw [grown]
        exact congrArg (fun log => newer ++ ⟨tid, .readState session, .ok current⟩ :: log) since
      · cases res₃ with
        | error e => exact fun _ foreign => ((idle₂.of_foreign foreign₃).push fun _ => rfl).of_foreign foreign
        | ok done =>
          intro h₄ foreign₄
          exact mem_appenders.mpr ⟨_, foreign₄.mem List.mem_cons_self, if_pos rfl⟩

theorem all_getSession (session : Key) (maxEvents : Int) :
    (getSession session maxEvents).run.All fun op => ∀ h : SessionHist, Prepared serde tid call h.log op := by
  refine .exceptBind ⟨fun _ => trivial, fun _ => trivial⟩ fun found => ?_
  cases found with
  | none => trivial
  | some row => exact .exceptBind ⟨fun _ => trivial, fun _ => trivial⟩ fun _ => trivial

end Safety

theorem append_compose (serde : SerdeJson) :
    System.Compose (store serde) (fun call => isAppendOrRead call) (appendContract serde) appendPost := by
  refine System.tracked_compose fun {tid call h} admitted fresh => ?_
  cases call with
  | appendEvent session event stateDeltaJson now =>
    refine (safe_appendEvent rfl (Idle.of_fresh fresh)).mono fun result h returned => ?_
    cases result with
    | error e => exact returned
    | ok appended => exact returned
  | getSession session maxEvents =>
    exact System.Safe.of_all_proper (fun _ _ => trivial) (all_getSession session maxEvents) h
  | createSession | deleteSession => cases admitted

/-! ## Linearizability -/

/-- **Session appends are linearizable.**  Along every interleaving of `append_event` and `get_session` calls,
    from a database where the session's events are numbered from zero: they stay numbered without gaps, in the
    order in which the appends were carried out; the state is that of the start with the deltas of these appends
    merged into it in that order; an append that has returned was carried out, once; and one that has failed
    left nothing. -/
theorem session_appends_linearizable (serde : SerdeJson) (session : Key) (db : Database)
    (contiguous : (db.eventsOf session).map EventRow.ord =
      (List.range (db.eventsOf session).length).map Int.ofNat)
    (choices : List (Choice Call))
    (appends : (store serde).Along (System.Permits (fun call => isAppendOrRead call) fun _ _ _ _ => True) (quiet db)
      choices) :
    let c := (store serde).run (quiet db) choices
    let tids := appenders session c.log
    (c.state.eventsOf session).map EventRow.ord =
        (List.range ((db.eventsOf session).length + tids.length)).map Int.ofNat ∧
      stateOf c.state session = merged serde c.callOf (stateOf db session) tids ∧
      tids.Nodup ∧
      (∀ i tid, tids[i]? = some tid → ∃ event stateDeltaJson now,
        c.callOf tid = some (.appendEvent session event stateDeltaJson now) ∧
          ((c.state.eventsOf session)[(db.eventsOf session).length + i]?).map EventRow.event =
            some (stamped event now)) ∧
      ∀ tid event stateDeltaJson now result,
        c.pool[tid]? = some ⟨.appendEvent session event stateDeltaJson now, .ret result⟩ →
          (tid ∈ tids ↔ result.isOk) := by
  intro c tids
  have safe := System.run_safe (append_compose serde) (fun _ member => by cases member)
    (System.poolSafe_of_empty rfl) appends
  have linear : Linear serde session (db.eventsOf session).length (stateOf db session) c.callOf c.toHist.log
      c.toHist.state := by
    refine System.run_tracked (I := fun h => Linear serde session _ _ _ h.log h.state) (append_compose serde) ?_
      (fun _ member => by cases member) (System.poolSafe_of_empty rfl) ?_ appends
    · exact fun tid call h op res state serves answers _ prepared linear => linear.push serves prepared answers
    · exact ⟨contiguous, rfl, List.nodup_nil, fun _ _ isAppender => (by cases isAppender), trivial⟩
  refine ⟨linear.ords, linear.state, linear.once, linear.stored, ?_⟩
  intro tid event stateDeltaJson now result returned
  have post := safe.returned returned
  cases result with
  | ok appended => exact ⟨fun _ => rfl, fun _ => post⟩
  | error e => exact ⟨fun member => absurd member (Idle.not_mem post session), fun isOk => absurd isOk Bool.false_ne_true⟩

/-! ## Two appends at once -/

/-- A member as it is written, or an object of such members. -/
inductive Flat where
  | token (word : String)
  | members (list : List (String × String))
  deriving DecidableEq

namespace Flat

def text : Flat → String
  | token word => word
  | members list => "\x7b" ++ ",".intercalate (list.map fun (key, word) => "\"" ++ key ++ "\":" ++ word) ++ "\x7d"

def object? : Flat → Option (List (String × Flat))
  | token _ => none
  | members list => some (list.map fun (key, word) => (key, token word))

def parse (documents : List Flat) (text : String) : Option Flat := documents.find? fun document => document.text = text

/-- `serde_json` on a few documents. -/
def serde (documents : List Flat) : SerdeJson where
  Value := Flat
  fromStr := parse documents
  toString := text
  asObject := object?
  object list := members (list.map fun (key, value) => (key, value.text))
  isNull value := value = token "null"

end Flat

/-- A session with a limit and an owner. -/
def limitAndOwner : SerdeJson :=
  Flat.serde [.members [], .members [("limit", "10")], .members [("owner", "7")], .members [("limit", "10"), ("owner", "7")]]

def chat : Key := ("app", "user", "chat")

def turn (author : String) (stateDelta : Flat) : Call :=
  .appendEvent chat
    { id := author, invocationId := "i", author, branch := "", contentJson := "", actionsJson := "", timestampMs := 5 }
    stateDelta.text 5

/-- Both appends read that there is no event; the second one is refused, and tried again. -/
def turnsAtOnce : List (Choice Call) :=
  [.spawn (turn "alice" (.members [("limit", "10")])), .spawn (turn "bob" (.members [("owner", "7")])), .exec 0, .exec 1, .exec 0,
    .exec 1, .exec 0, .exec 1, .spawn (turn "bob" (.members [("owner", "7")])), .exec 2, .exec 2, .exec 2]

theorem turns_at_once_numbered :
    (((store limitAndOwner).run (quiet .empty) turnsAtOnce).state.eventsOf chat).map EventRow.ord = [0, 1] ∧
      stateOf ((store limitAndOwner).run (quiet .empty) turnsAtOnce).state chat =
        Flat.text (.members [("limit", "10"), ("owner", "7")]) := by
  obtain ⟨ords, state, -⟩ := session_appends_linearizable limitAndOwner chat .empty rfl turnsAtOnce (by decide +kernel)
  have carriedOut : appenders chat ((store limitAndOwner).run (quiet .empty) turnsAtOnce).log = [0, 2] := by decide +kernel
  rw [carriedOut] at ords state
  exact ⟨ords, state.trans (by decide +kernel)⟩

end Tape.Sessions
