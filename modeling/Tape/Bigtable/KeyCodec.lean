import Tape.Bigtable.Keys

/-! # Row keys as a code

What a key says of its record: whether it is the key of no other one, whether only the scans of its own parent
come upon it, what its readers take from it, and the order in which a scan finds numbered rows.
-/

namespace Tape.BigtableRunStore

open Bigtable Segments

/-- The id is one segment. -/
def Plain (id : String) : Prop := '#' ∉ id.toList

instance (id : String) : Decidable (Plain id) := inferInstanceAs (Decidable (¬ _))

namespace RowId

/-! ## Records of one key -/

/-- No other record has the key. -/
def Unshared (id : RowId) : Prop := ∀ other : RowId, other.key = id.key → other = id

def IsShard (segment : List Char) : Prop := ∃ shard : I32, (pad10 shard).toList = segment

/-- The segments of the key can be read as the ids of the record only.  The key of an effect leaves out the run. -/
def Unambiguous : RowId → Prop
  | effect .. => False
  | pending reactionId _ taskId => (∀ segment ∈ (reactionId.toList.splitOn '#').tail, ¬ IsShard segment) ∧
    ∀ segment ∈ (taskId.toList.splitOn '#').dropLast, ¬ IsShard segment
  | id => id.ids.length ≤ 1 ∨ ∀ x ∈ id.ids, Plain x

/-- The ids come first, and nothing but ids and numbers tells the record. -/
def Regular : RowId → Prop
  | effect .. | pending .. => False
  | _ => True

/-- The record of other ids. -/
def withIds : RowId → List String → RowId
  | run _, [id] => run id
  | idx .., [app, user, name, inv] => idx app user name inv
  | route .., [app, user, name] => route app user name
  | decision _ i, [id] => decision id i
  | obligation _ seq, [id] => obligation id seq
  | budget _, [id] => budget id
  | signal .., [id, gate] => signal id gate
  | session .., [app, user, name] => session app user name
  | event _ _ _ ord, [app, user, name] => event app user name ord
  | journal _ seq, [id] => journal id seq
  | businessKey .., [connector, name] => businessKey connector name
  | reaction _, [id] => reaction id
  | cursor _ shard, [id] => cursor id shard
  | task _, [id] => task id
  | taskidx _ shard globalSeq, [id] => taskidx id shard globalSeq
  | timer .., [id, name] => timer id name
  | value .., [ns, name] => value ns name
  | id, _ => id

section Unique

variable {a b : RowId}

theorem withIds_spec (regular : a.Regular) {names : List String} (length : names.length = a.ids.length) :
    (a.withIds names).tag = a.tag ∧ (a.withIds names).fields = names ++ a.numbers ∧ (a.withIds names).ids = names := by
  cases a
  all_goals first
    | exact regular.elim
    | match names, length with
      | [], length => first | exact ⟨rfl, rfl, rfl⟩ | cases length
      | [_], length => first | exact ⟨rfl, rfl, rfl⟩ | cases length
      | [_, _], length => first | exact ⟨rfl, rfl, rfl⟩ | cases length
      | [_, _, _], length => first | exact ⟨rfl, rfl, rfl⟩ | cases length
      | [_, _, _, _], length => first | exact ⟨rfl, rfl, rfl⟩ | cases length
      | _ :: _ :: _ :: _ :: _ :: _, length => cases length

theorem of_tag_eq (regular : a.Regular) (same : b.tag = a.tag) :
    b.fields = b.ids ++ b.numbers ∧ b.ids.length = a.ids.length ∧ b.numbers.length = a.numbers.length ∧
      (b.numbers = a.numbers → b = a.withIds b.ids) := by
  cases a <;> cases b
  all_goals first
    | (simp [tag] at same; done)
    | exact regular.elim
    | exact ⟨rfl, rfl, rfl, fun same => by simp_all [numbers, withIds, ids]⟩

theorem plain_numbers (a : RowId) : ∀ x ∈ a.numbers.map String.toList, '#' ∉ x := by
  cases a <;> simp [numbers, pad20, pad10, hash_not_mem_pad]

theorem segments_of_regular (regular : a.Regular) :
    a.segments = Segments.segments '#' (a.ids.map String.toList) ++ a.numbers.map String.toList := by
  rw [segments, (of_tag_eq regular rfl).1, List.map_append, segments_append, segments_of_plain (plain_numbers a)]

theorem map_toList_injective : Function.Injective (List.map String.toList) :=
  List.map_injective_iff.mpr fun _ _ => String.toList_inj.mp

/-- A record that is told by its ids and numbers has its key for itself exactly if its ids can be told from the key. -/
theorem unshared_iff_of_regular (regular : a.Regular) :
    a.Unshared ↔ ∀ names : List (List Char), names.length = (a.ids.map String.toList).length →
      Segments.segments '#' names = Segments.segments '#' (a.ids.map String.toList) → names = a.ids.map String.toList := by
  constructor
  · intro unshared names length same
    have length' : (names.map String.ofList).length = a.ids.length := by simpa using length
    have spec := withIds_spec regular length'
    have back : (names.map String.ofList).map String.toList = names := by simp
    have again : a.withIds (names.map String.ofList) = a := by
      refine unshared _ (key_eq_iff.mpr ⟨spec.1, ?_⟩)
      rw [segments, spec.2.1, List.map_append, segments_append, segments_of_plain (plain_numbers a), back, same,
        segments_of_regular regular]
    rw [again] at spec
    rw [spec.2.2, back]
  · intro determines b same
    obtain ⟨tags, segs⟩ := key_eq_iff.mp same
    obtain ⟨fields, lengthIds, lengthNumbers, rebuild⟩ := of_tag_eq regular tags
    rw [segments, fields, List.map_append, segments_append, segments_of_plain (plain_numbers b),
      segments_of_regular regular] at segs
    have ids := List.append_inj_left' segs (by simpa using lengthNumbers)
    have numbers := List.append_inj_right' segs (by simpa using lengthNumbers)
    rw [rebuild (map_toList_injective numbers), map_toList_injective (determines _ (by simpa using lengthIds) ids)]
    exact ((of_tag_eq regular rfl).2.2.2 rfl).symm

theorem segments_pending (reactionId : String) (shard : I32) (taskId : String) : (pending reactionId shard taskId).segments =
    reactionId.toList.splitOn '#' ++ (pad10 shard).toList :: taskId.toList.splitOn '#' := by
  simp [segments, fields, List.splitOn_eq_singleton (hash_not_mem_pad 10 shard), pad10]

theorem shard_injective : Function.Injective fun shard : I32 => (pad10 shard).toList :=
  fun _ _ same => pad10_inj.mp (String.toList_inj.mp same)

theorem shard_plain (shard : I32) : '#' ∉ (pad10 shard).toList := hash_not_mem_pad 10 shard

theorem unambiguous_pending_iff {reactionId taskId : String} {shard : I32} :
    (pending reactionId shard taskId).Unambiguous ↔ ∀ (r' : List Char) (s' : I32),
      r'.splitOn '#' ++ [(pad10 s').toList] <+: reactionId.toList.splitOn '#' ++ (pad10 shard).toList ::
        (taskId.toList.splitOn '#').dropLast → r' = reactionId.toList ∧ s' = shard := by
  rw [mark_iff (s := shard) shard_injective shard_plain]
  simp only [Unambiguous, IsShard, not_exists]

theorem unshared_pending_iff {reactionId taskId : String} {shard : I32} :
    (pending reactionId shard taskId).Unshared ↔ (pending reactionId shard taskId).Unambiguous := by
  rw [unambiguous_pending_iff]
  constructor
  · intro unshared r' s' isPrefix
    obtain ⟨t', same⟩ := (mark_prefix_iff (s := shard) shard_plain).mp isPrefix
    have equal := unshared (pending (String.ofList r') s' (String.ofList t')) (key_eq_iff.mpr ⟨rfl, by
      simpa only [segments_pending, String.toList_ofList] using same⟩)
    simp only [pending.injEq] at equal
    exact ⟨by rw [← equal.1, String.toList_ofList], equal.2.1⟩
  · intro only other same
    obtain ⟨tags, segs⟩ := key_eq_iff.mp same
    cases other
    case pending r' s' t' =>
      rw [segments_pending, segments_pending] at segs
      obtain ⟨equal, rfl⟩ := only r'.toList s' ((mark_prefix_iff (s := shard) shard_plain).mpr ⟨t'.toList, segs⟩)
      obtain rfl := String.toList_inj.mp equal
      have rest := (List.cons.inj (List.append_cancel_left segs)).2
      rw [String.toList_inj.mp (splitOn_injective rest)]
    all_goals simp [tag] at tags

/-- A record has its key for itself exactly if its segments can be read in one way. -/
theorem unshared_iff (a : RowId) : a.Unshared ↔ a.Unambiguous := by
  by_cases regular : a.Regular
  · have unambiguous : a.Unambiguous ↔ a.ids.length ≤ 1 ∨ ∀ x ∈ a.ids, Plain x := by
      cases a <;> first | exact Iff.rfl | exact regular.elim
    rw [unshared_iff_of_regular regular, determines_iff, unambiguous]
    simp [Plain]
  · cases a
    case effect runId name =>
      refine iff_of_false (fun unshared => ?_) not_false
      have same := unshared (effect (runId ++ "#") name) rfl
      simp at same
    case pending => exact unshared_pending_iff
    all_goals exact absurd trivial regular

end Unique

end RowId

/-! ## Scans -/

/-- A scan of what belongs to one parent.  The decisions of a run are read one by one. -/
inductive Scan where
  | decisions (runId : String)
  | obligations (runId : String)
  | journal (runId : String)
  | signals (runId : String)
  | events (app user session : String)
  | sessions (app user : String)
  | pending (reactionId : String) (shard : I32)

namespace Scan

open RowId (map_toList_injective)

/-- What the keys are to begin with. -/
def start : Scan → String
  | decisions runId => "d#" ++ runId ++ "#"
  | obligations runId => "o#" ++ runId ++ "#"
  | journal runId => "j#" ++ runId ++ "#"
  | signals runId => "sig#" ++ runId ++ "#"
  | events app user session => "ev#" ++ app ++ "#" ++ user ++ "#" ++ session ++ "#"
  | sessions app user => "sess#" ++ app ++ "#" ++ user ++ "#"
  | pending reactionId shard => "pending#" ++ reactionId ++ "#" ++ pad10 shard ++ "#"

def reads (start : String) (id : RowId) : Prop := start.toList.isPrefixOf id.key.toList

/-- The record belongs to the parent. -/
def Covers : Scan → RowId → Prop
  | decisions runId, .decision id _ => id = runId
  | obligations runId, .obligation id _ => id = runId
  | journal runId, .journal id _ => id = runId
  | signals runId, .signal id _ => id = runId
  | events app user session, .event a u s _ => a = app ∧ u = user ∧ s = session
  | sessions app user, .session a u _ => a = app ∧ u = user
  | pending reactionId shard, .pending id n _ => id = reactionId ∧ n = shard
  | _, _ => False

def tag : Scan → String
  | decisions .. => "d"
  | obligations .. => "o"
  | journal .. => "j"
  | signals .. => "sig"
  | events .. => "ev"
  | sessions .. => "sess"
  | pending .. => "pending"

def fields : Scan → List String
  | decisions id | obligations id | journal id | signals id => [id]
  | events app user name => [app, user, name]
  | sessions app user => [app, user]
  | pending id shard => [id, pad10 shard]

section Reads

variable {scan : Scan} {id : RowId}

theorem toList_start (scan : Scan) : scan.start.toList = join '#' (scan.tag.toList :: scan.fields.map String.toList) ++
    ['#'] := by
  cases scan <;> simp [start, tag, fields, join]

theorem reads_iff : reads scan.start id ↔
    scan.tag = id.tag ∧ segments '#' (scan.fields.map String.toList) <+: id.segments.dropLast := by
  have plain : '#' ∉ scan.tag.toList := by cases scan <;> simp [tag]
  have some_ : id.segments ≠ [] := by cases id <;> simp [RowId.segments, RowId.fields, RowId.ids, RowId.numbers]
  rw [reads, List.isPrefixOf_iff_prefix, toList_start, append_sep_prefix_iff, splitOn_join (List.cons_ne_nil _ _), segments_cons,
    List.splitOn_eq_singleton plain, RowId.splitOn_key, List.dropLast_cons_of_ne_nil some_, List.singleton_append,
    List.cons_prefix_cons, String.toList_inj]

theorem dropLast_segments {xs : List String} {z : String} (ends : id.fields = xs ++ [z]) :
    id.segments.dropLast = segments '#' (xs.map String.toList) ++ (z.toList.splitOn '#').dropLast := by
  rw [RowId.segments, ends, List.map_append, segments_append]
  simp [List.dropLast_append_of_ne_nil]

theorem tag_of_covers (covers : scan.Covers id) : scan.tag = id.tag := by
  cases scan <;> cases id <;> first | rfl | exact covers.elim

/-- Where the scans of a kind are those for any ids that can stand before the last one, they keep to their own parent
    exactly if no id has a separator. -/
theorem reads_iff_covers_iff {xs : List String} {z : String} (some_ : xs ≠ []) (ends : id.fields = xs ++ [z])
    (kind : ∀ scan : Scan, scan.tag = id.tag → scan.fields.length = xs.length ∧ (scan.Covers id ↔ scan.fields = xs))
    (every : ∀ ys : List String, ys.length = xs.length → ∃ scan : Scan, scan.tag = id.tag ∧ scan.fields = ys) :
    (∀ scan : Scan, reads scan.start id ↔ scan.Covers id) ↔ (∀ x ∈ xs, Plain x) ∧ Plain z := by
  have named : xs.map String.toList ≠ [] := by simpa using some_
  have encloses := encloses_iff '#' z.toList named
  have plain : (∀ x ∈ xs.map String.toList, '#' ∉ x) ↔ ∀ x ∈ xs, Plain x := by simp [Plain]
  rw [plain] at encloses
  refine Iff.trans ⟨fun keeps ys length => ?_, fun keeps scan => ?_⟩ encloses
  · obtain ⟨scan, same, named⟩ := every (ys.map String.ofList) (by simpa using length)
    have back : scan.fields.map String.toList = ys := by simp [named]
    have covers := (kind scan same).2
    have reads := keeps scan
    rw [reads_iff, dropLast_segments ends, back] at reads
    rw [← back, map_toList_injective.eq_iff, ← covers, ← reads, back]
    exact ⟨fun isPrefix => ⟨same, isPrefix⟩, And.right⟩
  · by_cases same : scan.tag = id.tag
    · obtain ⟨length, covers⟩ := kind scan same
      have known := keeps (scan.fields.map String.toList) (by simpa using length)
      rw [reads_iff, dropLast_segments ends, covers, ← map_toList_injective.eq_iff, ← known]
      exact ⟨And.right, fun isPrefix => ⟨same, isPrefix⟩⟩
    · exact iff_of_false (fun reads => same (reads_iff.mp reads).1) fun covers => same (tag_of_covers covers)

/-- Only the scans of its own parent come upon the record. -/
def Kept (id : RowId) : Prop := ∀ scan : Scan, reads scan.start id ↔ scan.Covers id

/-- No id has a separator.  Of a pending task it may not look like a shard. -/
def Enclosed : RowId → Prop
  | .decision id _ | .obligation id _ | .journal id _ => Plain id
  | .signal id gate => Plain id ∧ Plain gate
  | .event app user name _ | .session app user name => Plain app ∧ Plain user ∧ Plain name
  | .pending reactionId shard taskId => (RowId.pending reactionId shard taskId).Unambiguous
  | _ => True

theorem plain_pad (width : Nat) (n : Int) : Plain (pad width n) := hash_not_mem_pad width n

theorem kept_pending_iff {reactionId taskId : String} {shard : I32} :
    Kept (.pending reactionId shard taskId) ↔ Enclosed (.pending reactionId shard taskId) := by
  have prefixes (r' : String) (s' : I32) : reads (pending r' s').start (.pending reactionId shard taskId) ↔
      r'.toList.splitOn '#' ++ [(pad10 s').toList] <+: reactionId.toList.splitOn '#' ++ (pad10 shard).toList ::
        (taskId.toList.splitOn '#').dropLast := by
    have some_ := List.splitOn_ne_nil '#' taskId.toList
    rw [reads_iff, RowId.segments_pending, List.dropLast_append_of_ne_nil (List.cons_ne_nil _ _),
      List.dropLast_cons_of_ne_nil some_]
    simp [fields, tag, RowId.tag, List.splitOn_eq_singleton (RowId.shard_plain s')]
  rw [Enclosed, RowId.unambiguous_pending_iff]
  constructor
  · intro keeps r' s' isPrefix
    obtain ⟨rfl, rfl⟩ := (keeps (pending (String.ofList r') s')).mp ((prefixes _ _).mpr (by rwa [String.toList_ofList]))
    exact ⟨String.toList_ofList.symm, rfl⟩
  · intro only scan
    cases scan
    case pending r' s' =>
      rw [prefixes]
      constructor
      · intro isPrefix
        obtain ⟨same, rfl⟩ := only _ _ isPrefix
        exact ⟨String.toList_inj.mp same.symm, rfl⟩
      · rintro ⟨rfl, rfl⟩
        exact ⟨_, by rw [List.append_assoc, List.singleton_append]⟩
    all_goals exact iff_of_false (fun found => by simp [reads_iff, tag, RowId.tag] at found) id

/-- The ids of the parent, and what follows them in the key. -/
def parent? : RowId → Option (List String × String)
  | .decision id n | .obligation id n | .journal id n => some ([id], pad20 n)
  | .signal id gate => some ([id], gate)
  | .event app user name ord => some ([app, user, name], pad20 ord)
  | .session app user name => some ([app, user], name)
  | _ => none

theorem fields_of_parent {xs : List String} {z : String} (parent : parent? id = some (xs, z)) :
    xs ≠ [] ∧ id.fields = xs ++ [z] ∧ ∀ scan : Scan, scan.tag = id.tag →
      scan.fields.length = xs.length ∧ (scan.Covers id ↔ scan.fields = xs) := by
  cases id <;> cases parent
  all_goals
    refine ⟨List.cons_ne_nil _ _, rfl, fun scan same => ?_⟩
    cases scan <;> simp [tag, RowId.tag, fields, Covers, eq_comm] at same ⊢

theorem exists_scan_of_parent {xs ys : List String} {z : String} (parent : parent? id = some (xs, z))
    (length : ys.length = xs.length) : ∃ scan : Scan, scan.tag = id.tag ∧ scan.fields = ys := by
  cases id <;> cases parent
  case session =>
    obtain ⟨app, user, rfl⟩ := List.length_eq_two.mp length
    exact ⟨.sessions app user, rfl, rfl⟩
  case event =>
    obtain ⟨app, user, name, rfl⟩ := List.length_eq_three.mp length
    exact ⟨.events app user name, rfl, rfl⟩
  all_goals obtain ⟨y, rfl⟩ := List.length_eq_one_iff.mp length
  case decision => exact ⟨.decisions y, rfl, rfl⟩
  case obligation => exact ⟨.obligations y, rfl, rfl⟩
  case journal => exact ⟨.journal y, rfl, rfl⟩
  case signal => exact ⟨.signals y, rfl, rfl⟩

theorem enclosed_iff_of_parent {xs : List String} {z : String} (parent : parent? id = some (xs, z)) :
    Enclosed id ↔ (∀ x ∈ xs, Plain x) ∧ Plain z := by
  cases id <;> cases parent <;> simp [Enclosed, pad20, plain_pad, and_assoc]

theorem kept_of_not_parent (none_ : parent? id = none) (other : id.tag ≠ "pending") : Kept id ∧ Enclosed id := by
  cases id <;> first | exact absurd rfl other | refine ⟨fun scan => ?_, trivial⟩ | cases none_
  all_goals
    cases scan <;> exact iff_of_false (fun found => by simp [reads_iff, tag, RowId.tag] at found) not_false

/-- Only the scans of the parent come upon the record exactly if no id of its has a separator. -/
theorem kept_iff (id : RowId) : Kept id ↔ Enclosed id := by
  cases parent : parent? id with
  | some split =>
    obtain ⟨xs, z⟩ := split
    obtain ⟨some_, ends, kind⟩ := fields_of_parent parent
    rw [enclosed_iff_of_parent parent]
    exact reads_iff_covers_iff some_ ends kind fun ys length => exists_scan_of_parent parent length
  | none =>
    by_cases other : id.tag = "pending"
    · cases id
      case pending => exact kept_pending_iff
      all_goals simp [RowId.tag] at other
    · have both := kept_of_not_parent parent other
      exact iff_of_true both.1 both.2

/-! `claim_tasks` reads all shards of a reaction when it is not asked for one. -/

theorem reads_allShards_iff {other reactionId taskId : String} {shard : I32} :
    reads ("pending#" ++ other ++ "#") (.pending reactionId shard taskId) ↔ other.toList.splitOn '#' <+:
      reactionId.toList.splitOn '#' ++ (pad10 shard).toList :: (taskId.toList.splitOn '#').dropLast := by
  have start : ("pending#" ++ other ++ "#").toList = join '#' ["pending".toList, other.toList] ++ ['#'] := by simp [join]
  have some_ := List.splitOn_ne_nil '#' taskId.toList
  rw [reads, List.isPrefixOf_iff_prefix, start, append_sep_prefix_iff, splitOn_join (List.cons_ne_nil _ _), RowId.splitOn_key,
    List.dropLast_cons_of_ne_nil (by simp [RowId.segments_pending]), RowId.segments_pending,
    List.dropLast_append_of_ne_nil (List.cons_ne_nil _ _), List.dropLast_cons_of_ne_nil some_]
  have tag : "pending".toList.splitOn '#' = ["pending".toList] := List.splitOn_eq_singleton (by simp)
  rw [segments_cons, tag, segments_cons, segments_nil, List.append_nil, List.singleton_append, RowId.tag, List.cons_prefix_cons]
  exact ⟨And.right, fun isPrefix => ⟨rfl, isPrefix⟩⟩

/-- The id of another reaction can be that of the reaction and the shard. -/
theorem reads_allShards_other (reactionId taskId : String) (shard : I32) :
    reads ("pending#" ++ (reactionId ++ "#" ++ pad10 shard) ++ "#") (.pending reactionId shard taskId) := by
  rw [reads_allShards_iff, String.toList_append, String.toList_append, List.append_assoc]
  show List.splitOn '#' (reactionId.toList ++ '#' :: (pad10 shard).toList) <+: _
  rw [List.splitOn_append_cons_self, List.splitOn_eq_singleton (RowId.shard_plain shard)]
  exact ⟨_, by rw [List.append_assoc, List.singleton_append]⟩

/-- Among the reactions whose ids are plain, only its own reads a task exactly if the id of that one is plain as well. -/
theorem reads_allShards_plain_iff (reactionId taskId : String) (shard : I32) :
    (∀ other, Plain other → (reads ("pending#" ++ other ++ "#") (.pending reactionId shard taskId) ↔ other = reactionId)) ↔
      Plain reactionId := by
  constructor
  · intro only
    obtain ⟨first, rest, split⟩ := List.exists_cons_of_ne_nil (List.splitOn_ne_nil '#' reactionId.toList)
    have plain : '#' ∉ first := not_mem_of_mem_splitOn (x := reactionId.toList) (by simp [split])
    have isPlain : Plain (String.ofList first) := by rwa [Plain, String.toList_ofList]
    have same := (only (String.ofList first) isPlain).mp (by
      rw [reads_allShards_iff, String.toList_ofList, List.splitOn_eq_singleton plain, split]
      simp)
    rwa [← same]
  · intro plain other isPlain
    rw [reads_allShards_iff, List.splitOn_eq_singleton plain, List.splitOn_eq_singleton isPlain]
    simp [String.toList_inj]

end Reads

end Scan

/-! ## What is read off a key -/

/-- `key.rsplit('#').next()`. -/
def rsplitNext (key : String) : String := String.ofList (lastSegment '#' key.toList)

/-- The number after the last `#`. -/
def ordOfKey (key : String) : Option Int := parseI64 (rsplitNext key)

/-- `key.splitn(3, '#')`: the run and the number of an obligation. -/
def obligationOfKey (key : String) : Option (String × Int) := do
  let (_, rest) ← splitOnce '#' key.toList
  let (run, seq) ← splitOnce '#' rest
  return (String.ofList run, (parseI64 (String.ofList seq)).getD 0)

/-- `rest.split_once('#').unwrap_or((rest, ""))`: the run and the id of a timer. -/
def timerOfKey (key : String) : String × String :=
  let rest := trimStartMatches "tmr#".toList key.toList
  let (run, timer) := (splitOnce '#' rest).getD (rest, [])
  (String.ofList run, String.ofList timer)

namespace RowId

/-- What the readers of the record take from its key are its own ids and number. -/
def Decoded : RowId → Prop
  | run runId => trimKey "r#" (rkRun runId) = runId
  | effect _ name => trimKey "e#" (rkEffect name) = name
  | reaction reactionId => trimKey "react#" (rkReaction reactionId) = reactionId
  | task taskId => trimKey "task#" (rkTask taskId) = taskId
  | obligation runId seq => ordOfKey (rkObligation runId seq) = some ↑seq ∧
    obligationOfKey (rkObligation runId seq) = some (runId, ↑seq)
  | journal runId seq => ordOfKey (rkJournal runId seq) = some ↑seq
  | event app user name ord => ordOfKey (rkEvent app user name ord) = some ↑ord
  | session app user name => rsplitNext (rkSession app user name) = name
  | journalGs globalSeq => parseI64 (trimKey "jg#" (rkJournalGs globalSeq)) = some ↑globalSeq
  | timer runId timerId => timerOfKey (rkTimer runId timerId) = (runId, timerId)
  | _ => True

/-- The ids do not begin with the tag that is taken off, and have no separator where a key is split. -/
def Readable : RowId → Prop
  | run runId => ¬ "r#".toList <+: runId.toList
  | effect _ name => ¬ "e#".toList <+: name.toList
  | reaction reactionId => ¬ "react#".toList <+: reactionId.toList
  | task taskId => ¬ "task#".toList <+: taskId.toList
  | obligation runId _ => Plain runId
  | session _ _ name => Plain name
  | timer runId _ => Plain runId ∧ runId ≠ "tmr"
  | _ => True

section Decoders

theorem trimKey_eq_iff {tag name : String} (some_ : tag ≠ "") : trimKey tag (tag ++ name) = name ↔ ¬ tag.toList <+:
    name.toList := by
  have nonempty : tag.toList ≠ [] := by simpa using some_
  rw [← trim_eq_iff nonempty, trimKey, String.toList_append, ← String.toList_inj, String.toList_ofList]

theorem ordOfKey_pad (before : String) (n : I64) : ordOfKey (before ++ "#" ++ pad20 n) = some ↑n := by
  have split : (before ++ "#" ++ pad20 n).toList = before.toList ++ '#' :: (pad20 n).toList := by simp
  have plain : '#' ∉ (pad20 n).toList := hash_not_mem_pad 20 n
  rw [ordOfKey, rsplitNext, split, lastSegment_append plain, String.ofList_toList]
  exact parseI64_pad 20 n.2

theorem rsplitNext_eq_iff {before name : String} : rsplitNext (before ++ "#" ++ name) = name ↔ Plain name := by
  have split : (before ++ "#" ++ name).toList = before.toList ++ '#' :: name.toList := by simp
  rw [rsplitNext, split, ← String.toList_inj, String.toList_ofList]
  exact lastSegment_eq_iff

theorem obligationOfKey_eq_iff {runId : String} {seq : I64} :
    obligationOfKey (rkObligation runId seq) = some (runId, ↑seq) ↔ Plain runId := by
  have split : (rkObligation runId seq).toList = ['o'] ++ '#' :: (runId.toList ++ '#' :: (pad20 seq).toList) := by
    simp [rkObligation]
  simp only [obligationOfKey, split, splitOnce_append (show '#' ∉ ['o'] by simp), Option.bind_eq_bind, Option.bind_some]
  constructor
  · intro decoded
    obtain ⟨⟨run, rest⟩, parts, same⟩ := Option.bind_eq_some_iff.mp decoded
    have plain := (splitOnce_spec parts).1
    obtain ⟨rfl, -⟩ := Prod.mk.inj (Option.some.inj same)
    rwa [Plain, String.toList_ofList]
  · intro plain
    simp [splitOnce_append plain, pad20, parseI64_pad 20 seq.2]

theorem timerOfKey_eq_iff {runId timerId : String} :
    timerOfKey (rkTimer runId timerId) = (runId, timerId) ↔ Plain runId ∧ runId ≠ "tmr" := by
  have split : (rkTimer runId timerId).toList = "tmr#".toList ++ (runId.toList ++ '#' :: timerId.toList) := by simp [rkTimer]
  have begins (plain : Plain runId) : "tmr#".toList <+: runId.toList ++ '#' :: timerId.toList ↔ runId = "tmr" := by
    show "tmr".toList ++ ['#'] <+: _ ↔ _
    rw [append_sep_prefix_iff, List.splitOn_append_cons_self, List.splitOn_eq_singleton plain,
      List.splitOn_eq_singleton (show '#' ∉ "tmr".toList by simp),
      List.dropLast_append_of_ne_nil (List.splitOn_ne_nil '#' timerId.toList), List.singleton_append, List.cons_prefix_cons,
      String.toList_inj]
    exact ⟨fun both => both.1.symm, fun same => ⟨same.symm, List.nil_prefix⟩⟩
  rw [timerOfKey, split, trim_append (by simp)]
  constructor
  · intro decoded
    have parts : Plain runId ∧ runId.toList.length + timerId.toList.length ≤
        (trimStartMatches "tmr#".toList (runId.toList ++ '#' :: timerId.toList)).length := by
      generalize trimStartMatches "tmr#".toList (runId.toList ++ '#' :: timerId.toList) = rest at decoded ⊢
      cases cut : splitOnce '#' rest with
      | none =>
        rw [cut] at decoded
        obtain ⟨rfl, rfl⟩ := Prod.mk.inj decoded
        refine ⟨fun inside => ?_, by simp⟩
        rw [String.toList_ofList] at inside
        rw [splitOnce, if_pos inside] at cut
        cases cut
      | some both =>
        obtain ⟨before, after⟩ := both
        rw [cut] at decoded
        obtain ⟨rfl, rfl⟩ := Prod.mk.inj decoded
        obtain ⟨plain, rfl⟩ := splitOnce_spec cut
        exact ⟨by rwa [Plain, String.toList_ofList], by simp⟩
    refine ⟨parts.1, ?_⟩
    rintro rfl
    -- the id is taken off as a second tag
    have again : trimStartMatches "tmr#".toList ("tmr".toList ++ '#' :: timerId.toList) =
      trimStartMatches "tmr#".toList timerId.toList :=
      trim_append (by simp) timerId.toList
    have shorter := length_trim_le "tmr#".toList timerId.toList
    have longer := parts.2
    rw [again] at longer
    have three : "tmr".toList.length = 3 := rfl
    omega
  · rintro ⟨plain, other⟩
    rw [← trim_append (by simp), (trim_eq_iff (by simp)).mpr ((begins plain).not.mpr other), splitOnce_append plain]
    simp

/-- What is read off a key is what it was made of exactly if the ids are readable. -/
theorem decoded_iff (id : RowId) : id.Decoded ↔ id.Readable := by
  cases id
  case run => exact trimKey_eq_iff (by simp)
  case effect => exact trimKey_eq_iff (by simp)
  case reaction => exact trimKey_eq_iff (by simp)
  case task => exact trimKey_eq_iff (by simp)
  case obligation runId seq =>
    rw [Decoded, obligationOfKey_eq_iff]
    exact and_iff_right (ordOfKey_pad ("o#" ++ runId) seq)
  case journal runId seq => exact iff_of_true (ordOfKey_pad ("j#" ++ runId) seq) trivial
  case event app user name ord =>
    exact iff_of_true (ordOfKey_pad ("ev#" ++ app ++ "#" ++ user ++ "#" ++ name) ord) trivial
  case session => exact rsplitNext_eq_iff
  case timer => exact timerOfKey_eq_iff
  case journalGs n =>
    refine iff_of_true ?_ trivial
    have plain : ¬ "jg#".toList <+: (pad20 n).toList := by
      rintro ⟨rest, same⟩
      exact hash_not_mem_pad 20 n (by rw [← pad20, ← same]; simp)
    rw [Decoded, rkJournalGs, (trimKey_eq_iff (by simp)).mpr plain]
    exact parseI64_pad 20 n.2
  all_goals exact Iff.rfl

end Decoders

end RowId

/-! ## The order of numbered rows -/

/-- The keys of rows that are told by a sequence number, the rest being the same. -/
inductive Numbered : (Int → String) → Prop
  | decision (runId : String) : Numbered (rkDecision runId)
  | obligation (runId : String) : Numbered (rkObligation runId)
  | journal (runId : String) : Numbered (rkJournal runId)
  | event (app user session : String) : Numbered (rkEvent app user session)
  | journalGs : Numbered rkJournalGs
  | taskidx (reactionId : String) (shard : I32) : Numbered (rkTaskidx reactionId shard)

theorem append_lt_append_iff {start x y : List Char} : start ++ x < start ++ y ↔ x < y := by
  induction start with
  | nil => rfl
  | cons c start inductionHypothesis =>
    rw [List.cons_append, List.cons_append, List.cons_lt_cons_iff, inductionHypothesis]
    simp

theorem key_lt_key_iff {key : Int → String} (numbered : Numbered key) {a b : I64} (nonnegA : (0 : Int) ≤ a)
    (nonnegB : (0 : Int) ≤ b) : key a < key b ↔ (a : Int) < b := by
  obtain ⟨start, same⟩ : ∃ start : String, ∀ n, key n = start ++ pad20 n := by
    cases numbered with
    | decision runId | obligation runId | journal runId => exact ⟨_, fun n => rfl⟩
    | event app user session => exact ⟨_, fun n => rfl⟩
    | journalGs => exact ⟨_, fun n => rfl⟩
    | taskidx reactionId shard => exact ⟨_, fun n => rfl⟩
  have boundA := a.2.2
  have boundB := b.2.2
  rw [same, same, String.lt_iff, String.toList_append, String.toList_append, append_lt_append_iff]
  exact pad_lt_iff nonnegA nonnegB (by omega) (by omega) (by omega)

/-! ## The code -/

/-- Every record has a key of its own; the scans of a parent find what is the parent's and nothing else, also those of all
    shards; what is read off a key is what it was made of; and numbered rows are in the order of their numbers. -/
structure KeyCodec : Prop where
  unshared : ∀ id : RowId, id.Unshared
  kept : ∀ id : RowId, Scan.Kept id
  allShards : ∀ (other reactionId taskId : String) (shard : I32),
    Scan.reads ("pending#" ++ other ++ "#") (.pending reactionId shard taskId) ↔ other = reactionId
  decoded : ∀ id : RowId, id.Decoded
  ordered : ∀ key, Numbered key → ∀ a b : I64, (0 : Int) ≤ a → (0 : Int) ≤ b → (key a < key b ↔ (a : Int) < b)

/-- A user `b#c` of the application `a`, and a user `c` of the application `a#b`, have the sessions of each other. -/
theorem not_keyCodec : ¬ KeyCodec := by
  intro codec
  have same := codec.unshared (.session "a" "b#c" "s") (.session "a#b" "c" "s") (by decide)
  simp at same

/-- **The row keys are a code where ids have no separator**: each law holds of a record exactly if its own ids are such
    that the key can be read in one way. -/
theorem key_codec (id : RowId) (reactionId taskId : String) (shard : I32) :
    (id.Unshared ↔ id.Unambiguous) ∧
      (Scan.Kept id ↔ Scan.Enclosed id) ∧
      ((∀ other, Plain other →
        (Scan.reads ("pending#" ++ other ++ "#") (.pending reactionId shard taskId) ↔ other = reactionId)) ↔ Plain reactionId) ∧
      Scan.reads ("pending#" ++ (reactionId ++ "#" ++ pad10 shard) ++ "#") (.pending reactionId shard taskId) ∧
      (id.Decoded ↔ id.Readable) ∧
      ∀ key, Numbered key → ∀ a b : I64, (0 : Int) ≤ a → (0 : Int) ≤ b → (key a < key b ↔ (a : Int) < b) :=
  ⟨RowId.unshared_iff id, Scan.kept_iff id, Scan.reads_allShards_plain_iff reactionId taskId shard,
    Scan.reads_allShards_other reactionId taskId shard, RowId.decoded_iff id,
    fun _ numbered _ _ nonnegA nonnegB => key_lt_key_iff numbered nonnegA nonnegB⟩

end Tape.BigtableRunStore
