import Tape.Journal.Filed

/-! # Replay snapshots

`chaos/snapshot.py`: a run's journal as a tuple of lines, with what differs from run to run taken out of
the payloads and the run's id replaced by a fixed name.  The payloads are JSON, the lines are Python
values: a dict becomes a tuple of pairs in the order of its keys, and so does a dict in a list.
-/

namespace Tape.Chaos

open Interleave Journal

/-! ## Taking out and renaming -/

/-- `str.replace` for a text that is not empty; so many characters of the last match are still to be
    passed by. -/
def replaceFrom (raw canonical : List Char) : Nat → List Char → List Char
  | _, [] => []
  | matched + 1, _ :: rest => replaceFrom raw canonical matched rest
  | 0, c :: rest =>
    if raw.isPrefixOf (c :: rest) then canonical ++ replaceFrom raw canonical (raw.length - 1) rest
    else c :: replaceFrom raw canonical 0 rest

/-- `if raw and raw in value: return value.replace(raw, canonical)`. -/
def rename (raw canonical value : String) : String :=
  if raw.isEmpty then value else String.ofList (replaceFrom raw.toList canonical.toList 0 value.toList)

/-- `_STRIP_KEYS`. -/
def stripKeys : List String :=
  ["ts_ms", "started_at_ms", "ended_at_ms", "last_update_time_ms", "lease_expires_at_ms", "claim_expires_at_ms",
    "dispatch_claim_expires_at_ms", "next_dispatch_at_ms", "next_attempt_at_ms", "fire_at_ms", "lease_owner",
    "claimed_by", "dispatch_claimed_by", "trace_id", "span_id", "parent_span_id", "seq", "global_seq", "invocation_id"]

/-- The members under `keys` are left out at every depth, and the strings are rewritten. -/
def rewrite (keys : List String) (f : String → String) : Json → Json
  | .str value => .str (f value)
  | .arr items => .arr (rewriteItems items)
  | .obj members => .obj (rewriteMembers members)
  | value => value
where
  rewriteItems : List Json → List Json
    | [] => []
    | item :: items => rewrite keys f item :: rewriteItems items
  rewriteMembers : List (String × Json) → List (String × Json)
    | [] => []
    | (key, value) :: members =>
      if key ∈ keys then rewriteMembers members else (key, rewrite keys f value) :: rewriteMembers members

/-- `_canonical`, with one run in the map. -/
def canonical (runId canonicalRunId : String) : Json → Json := rewrite stripKeys (rename runId canonicalRunId)

/-! ## Lines -/

/-- Members in the order of their keys. -/
def byKey {α : Type} (members : List (String × α)) : List (String × α) :=
  members.insertionSort fun a b => a.1 ≤ b.1

/-- Python values up to `==`: a boolean is a number, and a dict has its members in order. -/
inductive Py where
  | none
  | num (value : Int)
  | str (value : String)
  | tuple (items : List Py)
  | list (items : List Py)
  | dict (members : List (String × Py))

namespace Py

def ofJson : Json → Py
  | .null => .none
  | .bool value => .num (if value then 1 else 0)
  | .int value => .num value
  | .str value => .str value
  | .arr items => .list (ofItems items)
  | .obj members => .dict (byKey (ofMembers members))
where
  ofItems : List Json → List Py
    | [] => []
    | item :: items => ofJson item :: ofItems items
  ofMembers : List (String × Json) → List (String × Py)
    | [] => []
    | (key, value) :: members => (key, ofJson value) :: ofMembers members

/-- The pairs of a dict. -/
def pairs (members : List (String × Py)) : Py := .tuple ((byKey members).map fun member => .tuple [.str member.1, member.2])

/-- What `_to_tuple` makes of a member. -/
def member : Json → Py
  | .obj members => pairs (ofMembers members)
  | .arr items => .tuple (ofItems items)
  | value => ofJson value
where
  ofItems : List Json → List Py
    | [] => []
    | .obj members :: items => pairs (ofMembers members) :: ofItems items
    | item :: items => ofJson item :: ofItems items
  ofMembers : List (String × Json) → List (String × Py)
    | [] => []
    | (key, value) :: members => (key, member value) :: ofMembers members

/-- `_to_tuple`. -/
def toTuple (members : List (String × Json)) : Py := pairs (member.ofMembers members)

end Py

structure JournalLine where
  kind : String
  payload : Py

/-- The loop's body. -/
def line (runId canonicalRunId : String) (entry : EventEntry) : JournalLine where
  kind := entry.kind
  payload := match canonical runId canonicalRunId entry.payload with
    | .obj members => Py.toTuple members
    | value => .tuple [.tuple [.str "_value", Py.ofJson value]]

def terminalStatuses : List String := ["terminal", "failed", "cancelled", "stuck"]

/-- The entry that ends the loop. -/
def isLast (entry : EventEntry) : Bool :=
  entry.kind = "run" && terminalStatuses.contains (entry.payload.strAt "status").toLower

/-- `capture`, given what the stream sends before the deadline. -/
def capture (runId canonicalRunId : String) : List EventEntry → List JournalLine
  | [] => []
  | entry :: rest =>
    line runId canonicalRunId entry :: if isLast entry then [] else capture runId canonicalRunId rest

/-! ## The same history -/

/-- The keys of clocks, lease owners, sequences and invocations that `_STRIP_KEYS` leaves out. -/
def unstrippedKeys : List String := ["claimer", "obligation_seq", "compacted_at_ms"]

/-- Whatever is of a clock, a lease's owner, a trace, a sequence or an invocation. -/
def volatileKeys : List String := stripKeys ++ unstrippedKeys

/-- JSON up to the order of keys. -/
def normal : Json → Json
  | .arr items => .arr (normalItems items)
  | .obj members => .obj (byKey (normalMembers members))
  | value => value
where
  normalItems : List Json → List Json
    | [] => []
    | item :: items => normal item :: normalItems items
  normalMembers : List (String × Json) → List (String × Json)
    | [] => []
    | (key, value) :: members => (key, normal value) :: normalMembers members

/-- An entry without what is volatile, and with the run renamed. -/
def logical (runId canonicalRunId : String) (entry : EventEntry) : String × Json :=
  (entry.kind, normal (rewrite volatileKeys (rename runId canonicalRunId) entry.payload))

/-- What is volatile in an entry and yet is captured. -/
def unstripped (runId canonicalRunId : String) (entry : EventEntry) : List (String × Json) :=
  match canonical runId canonicalRunId entry.payload with
  | .obj members => byKey (members.filter fun member => member.1 ∈ unstrippedKeys)
  | _ => []

/-- The entries up to the one that ends the loop. -/
def upToLast : List EventEntry → List EventEntry
  | [] => []
  | entry :: rest => entry :: if isLast entry then [] else upToLast rest

/-- Those behind it. -/
def behindLast : List EventEntry → List EventEntry
  | [] => []
  | entry :: rest => if isLast entry then rest else behindLast rest

/-- The histories of two runs agree in everything that is not volatile. -/
def SameHistory (canonicalRunId : String) (runId₁ runId₂ : String) (entries₁ entries₂ : List EventEntry) : Prop :=
  entries₁.map (logical runId₁ canonicalRunId) = entries₂.map (logical runId₂ canonicalRunId)

/-- Histories that agree have the same claimers, numbers of obligations and times of compaction in what is captured;
    histories that agree in what is captured agree behind it. -/
structure Alike (canonicalRunId : String) (runId₁ runId₂ : String) (entries₁ entries₂ : List EventEntry) : Prop where
  fields : SameHistory canonicalRunId runId₁ runId₂ entries₁ entries₂ →
    (upToLast entries₁).map (unstripped runId₁ canonicalRunId) = (upToLast entries₂).map (unstripped runId₂ canonicalRunId)
  behind : SameHistory canonicalRunId runId₁ runId₂ (upToLast entries₁) (upToLast entries₂) →
    (upToLast entries₁).map (unstripped runId₁ canonicalRunId) = (upToLast entries₂).map (unstripped runId₂ canonicalRunId) →
    SameHistory canonicalRunId runId₁ runId₂ (behindLast entries₁) (behindLast entries₂)

/-! ## Members in order -/

section ByKey

variable {α β : Type} {members : List (String × α)}

theorem byKey_map (f : α → β) (members : List (String × α)) :
    byKey (members.map fun member => (member.1, f member.2)) = (byKey members).map fun member => (member.1, f member.2) :=
  (List.map_insertionSort (fun a b : String × α => a.1 ≤ b.1) (fun a b : String × β => a.1 ≤ b.1)
    (fun member => (member.1, f member.2)) members fun _ _ _ _ => Iff.rfl).symm

theorem byKey_perm (members : List (String × α)) : (byKey members).Perm members := List.perm_insertionSort _ _

/-- Different keys are in strict order. -/
theorem byKey_strict (distinct : (members.map Prod.fst).Nodup) :
    (byKey members).Pairwise fun a b => a.1 < b.1 := by
  have ordered : (byKey members).Pairwise fun a b => a.1 ≤ b.1 := List.pairwise_insertionSort _ _
  have different : ((byKey members).map Prod.fst).Nodup := ((byKey_perm members).map Prod.fst).nodup_iff.mpr distinct
  rw [List.Nodup, List.pairwise_map] at different
  exact (ordered.and different).imp fun both => lt_of_le_of_ne both.1 both.2

/-- Members in strict order are determined by what they are. -/
theorem eq_of_perm_of_strict {a b : List (String × α)} (perm : a.Perm b) (strictA : a.Pairwise fun a b => a.1 < b.1)
    (strictB : b.Pairwise fun a b => a.1 < b.1) : a = b :=
  perm.eq_of_pairwise (fun _ _ _ _ less more => absurd less (lt_asymm more)) strictA strictB

theorem byKey_filter (distinct : (members.map Prod.fst).Nodup) (p : String × α → Bool) :
    byKey (members.filter p) = (byKey members).filter p := by
  refine eq_of_perm_of_strict ?_ (byKey_strict (distinct.sublist (List.filter_sublist.map _)))
    ((byKey_strict distinct).sublist List.filter_sublist)
  exact (byKey_perm _).trans ((byKey_perm members).symm.filter p)

/-- Members in strict order are the same if those that meet `p` are, and those that do not. -/
theorem eq_iff_filter_eq {a b : List (String × α)} (strictA : a.Pairwise fun a b => a.1 < b.1)
    (strictB : b.Pairwise fun a b => a.1 < b.1) (p : String × α → Bool) :
    a = b ↔ a.filter p = b.filter p ∧ a.filter (fun member => !p member) = b.filter fun member => !p member := by
  constructor
  · rintro rfl
    exact ⟨rfl, rfl⟩
  · rintro ⟨met, unmet⟩
    refine eq_of_perm_of_strict ?_ strictA strictB
    have splitA := List.filter_append_perm p a
    have splitB := List.filter_append_perm p b
    rw [met, unmet] at splitA
    exact splitA.symm.trans splitB

/-- What is found under a key does not depend on the order. -/
theorem find?_byKey (distinct : (members.map Prod.fst).Nodup) (key : String) :
    (byKey members).find? (fun member => member.1 = key) = members.find? fun member => member.1 = key := by
  cases found : members.find? fun member => member.1 = key with
  | none =>
    rw [List.find?_eq_none] at found ⊢
    exact fun member isMember => found member ((byKey_perm members).mem_iff.mp isMember)
  | some member =>
    have isMember := (byKey_perm members).mem_iff.mpr (List.mem_of_find?_eq_some found)
    have isKey : member.1 = key := by simpa using List.find?_some found
    cases other : (byKey members).find? fun member => member.1 = key with
    | none =>
      rw [List.find?_eq_none] at other
      exact absurd isKey (by simpa using other member isMember)
    | some second =>
      have isKey' : second.1 = key := by simpa using List.find?_some other
      have isMember' := (byKey_perm members).mem_iff.mp (List.mem_of_find?_eq_some other)
      have same := List.inj_on_of_nodup_map distinct isMember' (List.mem_of_find?_eq_some found) (isKey'.trans isKey.symm)
      rw [same]

end ByKey

/-- Lists with the same images, where those of their elements stay apart. -/
theorem map_inj_on {α β : Type} {f : α → β} : ∀ {a b : List α}, a.map f = b.map f →
    (∀ x ∈ a, ∀ y ∈ b, f x = f y → x = y) → a = b
  | [], b, same, _ => by simpa using same.symm
  | _ :: _, [], same, _ => by simp at same
  | x :: a, y :: b, same, apart => by
    simp only [List.map_cons, List.cons.injEq] at same
    rw [apart x List.mem_cons_self y List.mem_cons_self same.1, map_inj_on same.2 fun x isX y isY =>
      apart x (List.mem_cons_of_mem _ isX) y (List.mem_cons_of_mem _ isY)]

/-! ## The payloads of runs -/

/-- What stands in the payloads: numbers, strings and lists of strings. -/
inductive Plain : Json → Prop
  | int (n : Int) : Plain (.int n)
  | str (value : String) : Plain (.str value)
  | texts (texts : List String) : Plain (.arr (texts.map .str))

/-- An object with different keys and nothing nested but lists of strings. -/
structure Flat (members : List (String × Json)) : Prop where
  distinct : (members.map Prod.fst).Nodup
  plain : ∀ member ∈ members, Plain member.2

theorem flat_of_written {kind : String} {payload : Json} (isWritten : Written kind payload) :
    ∃ members, payload = .obj members ∧ Flat members := by
  cases isWritten
  all_goals
    refine ⟨_, rfl, by simp, ?_⟩
    simp [Plain.int, Plain.str, Plain.texts]

section Plain

variable {keys : List String} {f : String → String} {value : Json}

theorem rewriteMembers_eq (members : List (String × Json)) : rewrite.rewriteMembers keys f members =
    (members.filter fun member => member.1 ∉ keys).map fun member => (member.1, rewrite keys f member.2) := by
  induction members with
  | nil => rfl
  | cons member members inductionHypothesis =>
    obtain ⟨key, value⟩ := member
    rw [rewrite.rewriteMembers, inductionHypothesis]
    by_cases taken : key ∈ keys <;> simp [taken]

theorem normalMembers_eq (members : List (String × Json)) :
    normal.normalMembers members = members.map fun member => (member.1, normal member.2) := by
  induction members with
  | nil => rfl
  | cons member members inductionHypothesis => rw [normal.normalMembers, inductionHypothesis, List.map_cons]

theorem ofMembers_eq (members : List (String × Json)) :
    Py.member.ofMembers members = members.map fun member => (member.1, Py.member member.2) := by
  induction members with
  | nil => rfl
  | cons member members inductionHypothesis => rw [Py.member.ofMembers, inductionHypothesis, List.map_cons]

theorem rewriteItems_texts (texts : List String) :
    rewrite.rewriteItems keys f (texts.map .str) = (texts.map f).map .str := by
  induction texts with
  | nil => rfl
  | cons text texts inductionHypothesis =>
    simp only [List.map_cons, rewrite.rewriteItems, rewrite, inductionHypothesis]

theorem normalItems_texts (texts : List String) : normal.normalItems (texts.map .str) = texts.map .str := by
  induction texts with
  | nil => rfl
  | cons text texts inductionHypothesis =>
    simp only [List.map_cons, normal.normalItems, normal, inductionHypothesis]

theorem ofItems_texts (texts : List String) : Py.member.ofItems (texts.map .str) = texts.map .str := by
  induction texts with
  | nil => rfl
  | cons text texts inductionHypothesis =>
    simp only [List.map_cons, Py.member.ofItems, Py.ofJson, inductionHypothesis]

theorem Plain.rewrite (plain : Plain value) : Plain (Chaos.rewrite keys f value) := by
  cases plain with
  | int n => exact .int n
  | str value => exact .str (f value)
  | texts texts =>
    rw [Chaos.rewrite, rewriteItems_texts]
    exact .texts _

/-- There are no keys to leave out. -/
theorem Plain.rewrite_keys (plain : Plain value) (keys' : List String) :
    Chaos.rewrite keys f value = Chaos.rewrite keys' f value := by
  cases plain with
  | int n => rfl
  | str value => rfl
  | texts texts => rw [Chaos.rewrite, Chaos.rewrite, rewriteItems_texts, rewriteItems_texts]

theorem Plain.normal (plain : Plain value) : normal value = value := by
  cases plain with
  | int n => rfl
  | str value => rfl
  | texts texts => rw [Chaos.normal, normalItems_texts]

/-- A number, a string and a list of strings stay apart. -/
theorem Plain.member_inj {other : Json} (plain : Plain value) (plain' : Plain other)
    (same : Py.member value = Py.member other) : value = other := by
  have strings (a b : List String) (same : a.map Py.str = b.map Py.str) : a = b :=
    List.map_injective_iff.mpr (fun _ _ same => Py.str.inj same) same
  cases plain with
  | int n => cases plain' <;> simp_all [Py.member, Py.ofJson]
  | str text => cases plain' <;> simp_all [Py.member, Py.ofJson]
  | texts texts =>
    cases plain' with
    | int n => simp [Py.member, Py.ofJson] at same
    | str text => simp [Py.member, Py.ofJson] at same
    | texts texts' =>
      simp only [Py.member, ofItems_texts, Py.tuple.injEq] at same
      rw [strings _ _ same]

end Plain

/-! ## What a line shows -/

/-- The members of a line, in the order of their keys. -/
def shown (runId canonicalRunId : String) (members : List (String × Json)) : List (String × Json) :=
  byKey ((members.filter fun member => member.1 ∉ stripKeys).map fun member =>
    (member.1, rewrite stripKeys (rename runId canonicalRunId) member.2))

section Shown

variable {runId canonicalRunId : String} {members : List (String × Json)} {entry : EventEntry}

theorem Flat.shown_strict (flat : Flat members) :
    (shown runId canonicalRunId members).Pairwise fun a b => a.1 < b.1 := by
  apply byKey_strict
  rw [List.map_map]
  exact flat.distinct.sublist (List.filter_sublist.map _)

theorem Flat.shown_plain (flat : Flat members) : ∀ member ∈ shown runId canonicalRunId members, Plain member.2 := by
  intro member isShown
  have isRewritten := (byKey_perm _).mem_iff.mp isShown
  simp only [List.mem_map, List.mem_filter] at isRewritten
  obtain ⟨original, ⟨isMember, -⟩, rfl⟩ := isRewritten
  exact (flat.plain original isMember).rewrite

/-- The members with a key in `keys`, or without one, are filtered out of what is shown. -/
theorem Flat.shown_filter (flat : Flat members) (p : String → Bool) :
    byKey (((members.filter fun member => member.1 ∉ stripKeys).map fun member =>
      (member.1, rewrite stripKeys (rename runId canonicalRunId) member.2)).filter fun member => p member.1) =
    (shown runId canonicalRunId members).filter fun member => p member.1 := by
  apply byKey_filter
  rw [List.map_map]
  exact flat.distinct.sublist (List.filter_sublist.map _)

theorem line_payload (payload : entry.payload = .obj members) : (line runId canonicalRunId entry).payload =
    .tuple ((shown runId canonicalRunId members).map fun member => .tuple [.str member.1, Py.member member.2]) := by
  simp only [line, canonical, payload, rewrite, rewriteMembers_eq, Py.toTuple, Py.pairs, ofMembers_eq]
  rw [byKey_map, List.map_map]
  rfl

theorem logical_eq (payload : entry.payload = .obj members) (flat : Flat members) :
    logical runId canonicalRunId entry =
      (entry.kind, .obj ((shown runId canonicalRunId members).filter fun member => member.1 ∉ unstrippedKeys)) := by
  have members_eq : normal.normalMembers (rewrite.rewriteMembers volatileKeys (rename runId canonicalRunId) members) =
      (((members.filter fun member => member.1 ∉ stripKeys).map fun member =>
        (member.1, rewrite stripKeys (rename runId canonicalRunId) member.2)).filter fun member =>
          member.1 ∉ unstrippedKeys) := by
    have keys (key : String) : key ∉ volatileKeys ↔ key ∉ unstrippedKeys ∧ key ∉ stripKeys := by
      simp [volatileKeys, and_comm]
    rw [normalMembers_eq, rewriteMembers_eq, List.filter_map, List.filter_filter, List.map_map]
    simp only [Function.comp_def, keys, Bool.decide_and]
    apply List.map_congr_left
    intro member isMember
    have plain := flat.plain member (List.mem_of_mem_filter isMember)
    rw [plain.rewrite_keys stripKeys, plain.rewrite.normal]
  simp only [logical, payload, rewrite, normal, members_eq]
  rw [flat.shown_filter fun key => key ∉ unstrippedKeys]

theorem unstripped_eq (payload : entry.payload = .obj members) (flat : Flat members) :
    unstripped runId canonicalRunId entry =
      (shown runId canonicalRunId members).filter fun member => member.1 ∈ unstrippedKeys := by
  simp only [unstripped, canonical, payload, rewrite, rewriteMembers_eq]
  rw [flat.shown_filter fun key => key ∈ unstrippedKeys]

/-- Lines are the same if the histories agree, in what is volatile and yet captured as well. -/
theorem line_eq_iff {runId₁ runId₂ : String} {entry₁ entry₂ : EventEntry} (isWritten₁ : Written entry₁.kind entry₁.payload)
    (isWritten₂ : Written entry₂.kind entry₂.payload) :
    line runId₁ canonicalRunId entry₁ = line runId₂ canonicalRunId entry₂ ↔
      logical runId₁ canonicalRunId entry₁ = logical runId₂ canonicalRunId entry₂ ∧
        unstripped runId₁ canonicalRunId entry₁ = unstripped runId₂ canonicalRunId entry₂ := by
  obtain ⟨members₁, payload₁, flat₁⟩ := flat_of_written isWritten₁
  obtain ⟨members₂, payload₂, flat₂⟩ := flat_of_written isWritten₂
  have same_members (same : (line runId₁ canonicalRunId entry₁).payload = (line runId₂ canonicalRunId entry₂).payload) :
      shown runId₁ canonicalRunId members₁ = shown runId₂ canonicalRunId members₂ := by
    rw [line_payload payload₁, line_payload payload₂, Py.tuple.injEq] at same
    apply map_inj_on same
    intro a isA b isB same
    simp only [Py.tuple.injEq, List.cons.injEq, Py.str.injEq, and_true] at same
    exact Prod.ext same.1 ((flat₁.shown_plain a isA).member_inj (flat₂.shown_plain b isB) same.2)
  rw [logical_eq payload₁ flat₁, logical_eq payload₂ flat₂, unstripped_eq payload₁ flat₁, unstripped_eq payload₂ flat₂]
  constructor
  · intro same
    have kinds : entry₁.kind = entry₂.kind := congrArg JournalLine.kind same
    rw [kinds, same_members (congrArg JournalLine.payload same)]
    exact ⟨rfl, rfl⟩
  · rintro ⟨agree, fields⟩
    simp only [Prod.mk.injEq, Json.obj.injEq] at agree
    have same := (eq_iff_filter_eq flat₁.shown_strict flat₂.shown_strict fun member => member.1 ∈ unstrippedKeys).mpr
      ⟨fields, by simpa using agree.2⟩
    have payloads : (line runId₁ canonicalRunId entry₁).payload = (line runId₂ canonicalRunId entry₂).payload := by
      rw [line_payload payload₁, line_payload payload₂, same]
    have kinds : (line runId₁ canonicalRunId entry₁).kind = (line runId₂ canonicalRunId entry₂).kind := agree.1
    cases first : line runId₁ canonicalRunId entry₁
    cases second : line runId₂ canonicalRunId entry₂
    simp_all

end Shown

/-! ## The last entry -/

section Renaming

variable {raw canonical value : String}

theorem replaceFrom_of_short {raw canonical : List Char} : ∀ {value : List Char}, value.length < raw.length →
    replaceFrom raw canonical 0 value = value
  | [], _ => rfl
  | c :: rest, short => by
    have absent : ¬ raw.isPrefixOf (c :: rest) := by
      intro found
      have bounded := (List.isPrefixOf_iff_prefix.mp found).length_le
      omega
    have shorter : rest.length < raw.length := by
      simp only [List.length_cons] at short
      omega
    rw [replaceFrom, if_neg absent, replaceFrom_of_short shorter]

/-- A text in which there is no room for the run's id. -/
theorem rename_of_short (short : value.length < raw.length) : rename raw canonical value = value := by
  unfold rename
  split
  · rfl
  · have shorter : value.toList.length < raw.toList.length := by
      rw [String.length_toList, String.length_toList]
      exact short
    rw [replaceFrom_of_short shorter, String.ofList_toList]

end Renaming

theorem endLabel_length (status : Int) : (RunStore.endLabel status).length < 36 := by
  unfold RunStore.endLabel
  split <;> decide

section Histories

variable {canonicalRunId runId runId₁ runId₂ : String} {entry₁ entry₂ : EventEntry} {entries₁ entries₂ : List EventEntry}

/-- The status of a run's entry is neither volatile nor does it contain the id. -/
theorem logical_status {entry : EventEntry} (isWritten : Written entry.kind entry.payload) (isRun : entry.kind = "run")
    (uuid : runId.length = 36) :
    (logical runId canonicalRunId entry).2.strAt "status" = entry.payload.strAt "status" := by
  obtain ⟨members, payload, flat⟩ := flat_of_written isWritten
  have distinct : (((members.filter fun member => member.1 ∉ stripKeys).map fun member =>
      (member.1, rewrite stripKeys (rename runId canonicalRunId) member.2)).map Prod.fst).Nodup := by
    rw [List.map_map]
    exact flat.distinct.sublist (List.filter_sublist.map _)
  have found : (logical runId canonicalRunId entry).2.get? "status" =
      (entry.payload.get? "status").map fun value => rewrite stripKeys (rename runId canonicalRunId) value := by
    have isKept (key : String) : key ∉ unstrippedKeys ∧ key = "status" ↔ key = "status" := by
      by_cases isStatus : key = "status" <;> simp [isStatus, unstrippedKeys]
    have isCaptured (key : String) : key ∉ stripKeys ∧ key = "status" ↔ key = "status" := by
      by_cases isStatus : key = "status" <;> simp [isStatus, stripKeys]
    rw [logical_eq payload flat, payload]
    simp only [Json.get?, List.find?_filter, decide_eq_true_eq, isKept, shown]
    rw [find?_byKey distinct, List.find?_map, List.find?_filter]
    simp only [Function.comp_def, decide_eq_true_eq, isCaptured, Option.map_map]
  have short (text : String) (fits : text.length < 36) : rename runId canonicalRunId text = text :=
    rename_of_short (by omega)
  rw [Json.strAt, Json.strAt, found]
  generalize entry.kind = kind at isWritten isRun
  generalize entry.payload = payload at isWritten
  cases isWritten with
  | begun => simp [Json.get?, rewrite, short "running" (by decide)]
  | ended app user session runId status => simp [Json.get?, rewrite, short _ (endLabel_length status)]
  | compacted => simp [Json.get?]
  | _ => simp at isRun

theorem isLast_of_logical (isWritten₁ : Written entry₁.kind entry₁.payload) (isWritten₂ : Written entry₂.kind entry₂.payload)
    (uuid₁ : runId₁.length = 36) (uuid₂ : runId₂.length = 36)
    (same : logical runId₁ canonicalRunId entry₁ = logical runId₂ canonicalRunId entry₂) : isLast entry₁ = isLast entry₂ := by
  have kinds : entry₁.kind = entry₂.kind := congrArg Prod.fst same
  by_cases isRun : entry₁.kind = "run"
  · have status := congrArg (fun agreed => agreed.2.strAt "status") same
    simp only [logical_status isWritten₁ isRun uuid₁, logical_status isWritten₂ (kinds ▸ isRun) uuid₂] at status
    rw [isLast, isLast, kinds, status]
  · simp [isLast, isRun, kinds ▸ isRun]

theorem capture_eq_map (runId canonicalRunId : String) (entries : List EventEntry) :
    capture runId canonicalRunId entries = (upToLast entries).map (line runId canonicalRunId) := by
  induction entries with
  | nil => rfl
  | cons entry rest inductionHypothesis =>
    rw [capture, upToLast, List.map_cons, inductionHypothesis]
    split <;> rfl

theorem upToLast_append (entries : List EventEntry) : upToLast entries ++ behindLast entries = entries := by
  induction entries with
  | nil => rfl
  | cons entry rest inductionHypothesis =>
    rw [upToLast, behindLast]
    split
    · rfl
    · rw [List.cons_append, inductionHypothesis]

theorem mem_of_mem_upToLast {entry : EventEntry} {entries : List EventEntry} (member : entry ∈ upToLast entries) :
    entry ∈ entries := by
  rw [← upToLast_append entries]
  exact List.mem_append_left _ member

/-- Every entry was filed by a method. -/
def AllWritten (entries : List EventEntry) : Prop := ∀ entry ∈ entries, Written entry.kind entry.payload

/-- Histories that agree have their last entries in the same place. -/
theorem sameHistory_iff (uuid₁ : runId₁.length = 36) (uuid₂ : runId₂.length = 36) :
    ∀ (entries₁ entries₂ : List EventEntry), AllWritten entries₁ → AllWritten entries₂ →
      (SameHistory canonicalRunId runId₁ runId₂ entries₁ entries₂ ↔
        SameHistory canonicalRunId runId₁ runId₂ (upToLast entries₁) (upToLast entries₂) ∧
          SameHistory canonicalRunId runId₁ runId₂ (behindLast entries₁) (behindLast entries₂))
  | [], [], _, _ => by simp [SameHistory, upToLast, behindLast]
  | [], entry :: rest, _, _ => by simp [SameHistory, upToLast]
  | entry :: rest, [], _, _ => by simp [SameHistory, upToLast]
  | entry₁ :: rest₁, entry₂ :: rest₂, written₁, written₂ => by
    have inner := sameHistory_iff uuid₁ uuid₂ rest₁ rest₂ (fun entry isEntry => written₁ entry (List.mem_cons_of_mem _ isEntry))
      fun entry isEntry => written₂ entry (List.mem_cons_of_mem _ isEntry)
    by_cases heads : logical runId₁ canonicalRunId entry₁ = logical runId₂ canonicalRunId entry₂
    · have last := isLast_of_logical (written₁ _ List.mem_cons_self) (written₂ _ List.mem_cons_self) uuid₁ uuid₂ heads
      rw [upToLast, upToLast, behindLast, behindLast, last]
      split
      · simp [SameHistory, heads]
      · simpa [SameHistory, heads] using inner
    · simp [SameHistory, upToLast, heads]

/-- What is captured agrees if the histories do up to the last entry, in what is volatile and yet captured as well. -/
theorem map_line_eq_iff : ∀ (entries₁ entries₂ : List EventEntry), AllWritten entries₁ → AllWritten entries₂ →
    (entries₁.map (line runId₁ canonicalRunId) = entries₂.map (line runId₂ canonicalRunId) ↔
      SameHistory canonicalRunId runId₁ runId₂ entries₁ entries₂ ∧
        entries₁.map (unstripped runId₁ canonicalRunId) = entries₂.map (unstripped runId₂ canonicalRunId))
  | [], [], _, _ => by simp [SameHistory]
  | [], entry :: rest, _, _ => by simp [SameHistory]
  | entry :: rest, [], _, _ => by simp [SameHistory]
  | entry₁ :: rest₁, entry₂ :: rest₂, written₁, written₂ => by
    have heads := @line_eq_iff canonicalRunId runId₁ runId₂ entry₁ entry₂ (written₁ _ List.mem_cons_self)
      (written₂ _ List.mem_cons_self)
    have inner := map_line_eq_iff rest₁ rest₂ (fun entry isEntry => written₁ entry (List.mem_cons_of_mem _ isEntry))
      fun entry isEntry => written₂ entry (List.mem_cons_of_mem _ isEntry)
    simp only [SameHistory, List.map_cons, List.cons.injEq] at inner ⊢
    rw [heads, inner]
    constructor
    · rintro ⟨⟨head, field⟩, tail, fields⟩
      exact ⟨⟨head, tail⟩, field, fields⟩
    · rintro ⟨⟨head, tail⟩, field, fields⟩
      exact ⟨⟨head, field⟩, tail, fields⟩

theorem capture_eq_iff (written₁ : AllWritten entries₁) (written₂ : AllWritten entries₂) :
    capture runId₁ canonicalRunId entries₁ = capture runId₂ canonicalRunId entries₂ ↔
      SameHistory canonicalRunId runId₁ runId₂ (upToLast entries₁) (upToLast entries₂) ∧
        (upToLast entries₁).map (unstripped runId₁ canonicalRunId) =
          (upToLast entries₂).map (unstripped runId₂ canonicalRunId) := by
  rw [capture_eq_map, capture_eq_map]
  exact map_line_eq_iff _ _ (fun entry isEntry => written₁ entry (mem_of_mem_upToLast isEntry))
    fun entry isEntry => written₂ entry (mem_of_mem_upToLast isEntry)

end Histories

/-! ## Comparing -/

/-- The journal of a run at the end of what a server did. -/
def history (dialect : Subjects.Dialect) (choices : List (Choice Call)) (runId : String) : List EventEntry :=
  journalRange (tape.run (quiet (World.empty dialect)) choices).state runId 0

theorem history_written (dialect : Subjects.Dialect) (choices : List (Choice Call)) {runId : String}
    (uuid : runId.length = 36) : AllWritten (history dialect choices runId) := by
  have filed := run_filed (w := World.empty dialect) (fun entry isEntry => (List.not_mem_nil isEntry).elim) choices
  have named : runId ≠ "" := by
    rintro rfl
    simp at uuid
  exact fun entry isEntry => written_of_mem_journalRange filed named isEntry

/-- Snapshots of two runs compare as their histories do, exactly if the claimers, numbers of obligations and times of
    compaction that are captured are the same where the histories are, and the entries behind the last one are the same
    where what is captured is. -/
theorem snapshots_compare_iff (canonicalRunId runId₁ runId₂ : String) (dialect₁ dialect₂ : Subjects.Dialect)
    (choices₁ choices₂ : List (Choice Call)) (uuid₁ : runId₁.length = 36) (uuid₂ : runId₂.length = 36) :
    (capture runId₁ canonicalRunId (history dialect₁ choices₁ runId₁) =
        capture runId₂ canonicalRunId (history dialect₂ choices₂ runId₂) ↔
      SameHistory canonicalRunId runId₁ runId₂ (history dialect₁ choices₁ runId₁) (history dialect₂ choices₂ runId₂)) ↔
    Alike canonicalRunId runId₁ runId₂ (history dialect₁ choices₁ runId₁) (history dialect₂ choices₂ runId₂) := by
  have written₁ := history_written dialect₁ choices₁ uuid₁
  have written₂ := history_written dialect₂ choices₂ uuid₂
  have captured := @capture_eq_iff canonicalRunId runId₁ runId₂ _ _ written₁ written₂
  have histories := @sameHistory_iff canonicalRunId runId₁ runId₂ uuid₁ uuid₂ _ _ written₁ written₂
  rw [captured]
  constructor
  · intro agree
    refine ⟨fun same => (agree.mpr same).2, fun same fields => ?_⟩
    exact (histories.mp (agree.mp ⟨same, fields⟩)).2
  · intro alike
    constructor
    · rintro ⟨same, fields⟩
      exact histories.mpr ⟨same, alike.behind same fields⟩
    · intro same
      exact ⟨(histories.mp same).1, alike.fields same⟩

/-! ## One history on two hosts -/

/-- Whether two values are the same. -/
def same : Json → Json → Bool
  | .null, .null => true
  | .bool a, .bool b => a = b
  | .int a, .int b => a = b
  | .str a, .str b => a = b
  | .arr a, .arr b => sameItems a b
  | .obj a, .obj b => sameMembers a b
  | _, _ => false
where
  sameItems : List Json → List Json → Bool
    | [], [] => true
    | a :: as, b :: bs => same a b && sameItems as bs
    | _, _ => false
  sameMembers : List (String × Json) → List (String × Json) → Bool
    | [], [] => true
    | (key, a) :: as, (key', b) :: bs => key = key' && same a b && sameMembers as bs
    | _, _ => false

mutual

theorem same_iff : ∀ a b, same a b = true ↔ a = b
  | .null, b => by cases b <;> simp [same]
  | .bool a, b => by cases b <;> simp [same]
  | .int a, b => by cases b <;> simp [same]
  | .str a, b => by cases b <;> simp [same]
  | .arr a, b => by cases b <;> simp [same, sameItems_iff a]
  | .obj a, b => by cases b <;> simp [same, sameMembers_iff a]

theorem sameItems_iff : ∀ as bs, same.sameItems as bs = true ↔ as = bs
  | [], bs => by cases bs <;> simp [same.sameItems]
  | a :: as, bs => by cases bs <;> simp [same.sameItems, same_iff a, sameItems_iff as]

theorem sameMembers_iff : ∀ as bs, same.sameMembers as bs = true ↔ as = bs
  | [], bs => by cases bs <;> simp [same.sameMembers]
  | (key, a) :: as, bs => by
    cases bs with
    | nil => simp [same.sameMembers]
    | cons b bs => simp [same.sameMembers, same_iff a, sameMembers_iff as, Prod.ext_iff]

end

instance : DecidableEq Json := fun a b => decidable_of_iff _ (same_iff a b)

def runA : String := "3f2c9a51-7d0e-4b6b-9c2f-0a8d5e41b7c3"

def runB : String := "b81d4f06-25aa-4c7e-8e93-6f1720c9d5ea"

/-- A run with an obligation that `claimer` claims. -/
def compensating (tid : Nat) (runId invocation claimer : String) (ts : Int) : List (Choice Call) :=
  serve tid (.beginRun 0 "app" "user" "s" invocation {} claimer 60000 ts runId) ++
    serve (tid + 1) (.registerCompensation runId (runId ++ "/decision-0/charge/0") "refund" (.obj []) "refund" 3 (ts + 1)) ++
    serve (tid + 2) (.claimObligation runId 2 claimer 60000 (ts + 2) (ts + 2))

def onTwoHosts : List (Choice Call) :=
  compensating 0 runA "inv-1" "host-1:41" 1000 ++ compensating 3 runB "inv-2" "host-2:57" 9000

/-- The journals differ in nothing but clocks, invocations, owners and the id, and the snapshots differ. -/
theorem claimers_captured :
    SameHistory "run-1" runA runB (history .sqlite onTwoHosts runA) (history .sqlite onTwoHosts runB) ∧
      capture runA "run-1" (history .sqlite onTwoHosts runA) ≠ capture runB "run-1" (history .sqlite onTwoHosts runB) := by
  have agree : SameHistory "run-1" runA runB (history .sqlite onTwoHosts runA) (history .sqlite onTwoHosts runB) := by
    unfold SameHistory
    decide +kernel
  have differ : (upToLast (history .sqlite onTwoHosts runA)).map (unstripped runA "run-1") ≠
      (upToLast (history .sqlite onTwoHosts runB)).map (unstripped runB "run-1") := by
    decide +kernel
  refine ⟨agree, fun captured => differ ?_⟩
  have writtenA := @history_written .sqlite onTwoHosts runA (by decide)
  have writtenB := @history_written .sqlite onTwoHosts runB (by decide)
  exact ((capture_eq_iff writtenA writtenB).mp captured).2

theorem snapshots_on_two_hosts : runA.length = 36 ∧ runB.length = 36 ∧
    ((capture runA "run-1" (history .sqlite onTwoHosts runA) = capture runB "run-1" (history .sqlite onTwoHosts runB) ↔
      SameHistory "run-1" runA runB (history .sqlite onTwoHosts runA) (history .sqlite onTwoHosts runB)) ↔
    Alike "run-1" runA runB (history .sqlite onTwoHosts runA) (history .sqlite onTwoHosts runB)) :=
  ⟨by decide, by decide,
    snapshots_compare_iff "run-1" runA runB .sqlite .sqlite onTwoHosts onTwoHosts (by decide) (by decide)⟩

end Tape.Chaos
