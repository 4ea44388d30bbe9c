import Tape.Bigtable.Segments
import Tape.Store.RunStore
import Tape.Subjects.Identity

/-! # Derived keys

`derive_key` joins the run, the decision, the tool and the index of the call with slashes and escapes
none of them.  A tool may have any name, with slashes in it or without.  A key is read from both ends:
no run, no decision and no index has a slash, so that what is left in the middle is the tool.
-/

namespace Tape.Effect

open RunStore (deriveKey)

/-- A run's id.  `begin_run` makes up a UUID. -/
structure RunId where
  text : String
  plain : '/' ∉ text.toList

theorem RunId.ext {r r' : RunId} (same : r.text = r'.text) : r = r' := by
  cases r
  cases r'
  cases same
  rfl

/-- The `custom_key` of `before_tool_callback` for a function call that has an id. -/
def callIdKey (runId functionCallId : String) : String := runId ++ "/fc-" ++ functionCallId

/-- What a derived key says of the decision. -/
def decisionField (decisionIndex : Int) : String :=
  if decisionIndex < 0 then "no-decision" else "decision-" ++ toString decisionIndex

theorem plain_toString (n : Int) : '/' ∉ (toString n).toList := (Subjects.isSegment_toString n).2.1

theorem plain_decisionField (d : Int) : '/' ∉ (decisionField d).toList := by
  unfold decisionField
  split
  · decide
  · rw [String.toList_append, List.mem_append, not_or]
    exact ⟨by decide, plain_toString d⟩

theorem decisionField_eq_iff (d d' : Int) : decisionField d = decisionField d' ↔ d = d' ∨ d < 0 ∧ d' < 0 := by
  have marked : ∀ n : Int, "no-decision" ≠ "decision-" ++ toString n := by
    intro n same
    have texts := congrArg String.toList same
    simp [String.toList_append] at texts
  unfold decisionField
  by_cases negative : d < 0
  · by_cases negative' : d' < 0
    · simp [negative, negative']
    · simp only [negative, negative', if_true, if_false, marked, and_false, or_false, false_iff]
      omega
  · by_cases negative' : d' < 0
    · simp only [negative, negative', if_true, if_false, (marked d).symm, false_and, or_false, false_iff]
      omega
    · simp [negative, negative', String.append_right_inj, Int.toString_eq_repr, Int.repr_inj]

theorem toList_deriveKey (r : String) (d : Int) (t : String) (c : Int) : (deriveKey r d t c).toList =
    Segments.join '/' [r.toList, (decisionField d).toList, t.toList, (toString c).toList] := by
  unfold deriveKey decisionField
  split <;> simp [Segments.join, String.toList_append, List.intercalate, List.intersperse]

theorem toList_callIdKey (r id : String) :
    (callIdKey r id).toList = Segments.join '/' [r.toList, "fc-".toList ++ id.toList] := by
  simp [callIdKey, Segments.join, String.toList_append, List.intercalate, List.intersperse]

/-- The segments of a key: the tool's may be any number, the others are one each. -/
theorem segments_key (r : RunId) (d : Int) (t : String) (c : Int) :
    Segments.segments '/' [r.text.toList, (decisionField d).toList, t.toList, (toString c).toList] =
      r.text.toList :: (decisionField d).toList :: (t.toList.splitOn '/' ++ [(toString c).toList]) := by
  simp only [Segments.segments_cons, Segments.segments_nil, List.splitOn_eq_singleton r.plain,
    List.splitOn_eq_singleton (plain_decisionField d), List.splitOn_eq_singleton (plain_toString c),
    List.singleton_append, List.append_nil]

theorem deriveKey_eq_iff (r r' : RunId) (d d' : Int) (t t' : String) (c c' : Int) :
    deriveKey r.text d t c = deriveKey r'.text d' t' c' ↔ r = r' ∧ t = t' ∧ c = c' ∧ (d = d' ∨ d < 0 ∧ d' < 0) := by
  constructor
  · intro same
    have joined := congrArg String.toList same
    rw [toList_deriveKey, toList_deriveKey, Segments.join_eq_iff (by simp) (by simp), segments_key, segments_key,
      List.cons.injEq, List.cons.injEq] at joined
    obtain ⟨runs, decisions, rest⟩ := joined
    obtain ⟨tools, indices⟩ := List.append_inj' rest rfl
    have index : toString c = toString c' := String.toList_injective (List.singleton_inj.mp indices)
    exact ⟨RunId.ext (String.toList_injective runs), String.toList_injective (Segments.splitOn_injective tools),
      by simpa [Int.toString_eq_repr, Int.repr_inj] using index,
      (decisionField_eq_iff d d').mp (String.toList_injective decisions)⟩
  · rintro ⟨rfl, rfl, rfl, decisions⟩
    apply String.toList_injective
    rw [toList_deriveKey, toList_deriveKey, (decisionField_eq_iff d d').mpr decisions]

/-- The field after the run starts with another letter. -/
theorem deriveKey_ne_callIdKey (r r' : RunId) (d : Int) (t : String) (c : Int) (id : String) :
    deriveKey r.text d t c ≠ callIdKey r'.text id := by
  intro same
  have joined := congrArg String.toList same
  rw [toList_deriveKey, toList_callIdKey, Segments.join_eq_iff (by simp) (by simp), segments_key,
    Segments.segments_cons, List.splitOn_eq_singleton r'.plain, List.singleton_append, List.cons.injEq] at joined
  have field : (decisionField d).toList.head? = some 'f' := by
    have fields := congrArg List.head? joined.2
    obtain ⟨first, rest, split⟩ := List.exists_cons_of_ne_nil (List.splitOn_ne_nil '/' ("c-".toList ++ id.toList))
    have isF : ("fc-".toList ++ id.toList).splitOn '/' = ('f' :: first) :: rest := by
      have unfolded : "fc-".toList ++ id.toList = 'f' :: ("c-".toList ++ id.toList) := by simp
      rw [unfolded, List.splitOn_cons_eq_if_modifyHead, split]
      simp
    rw [Segments.segments_cons, isF] at fields
    simp only [List.head?_cons, List.cons_append, Option.some.injEq] at fields
    rw [fields]
    rfl
  unfold decisionField at field
  split at field <;> simp [String.toList_append] at field

/-- A derived key names one call of one run, but for which negative index a call without a decision was
    given, and no derived key is the key of a function call's id. -/
theorem derived_key_names_call (r r' : RunId) (d d' : Int) (t t' : String) (c c' : Int) (id : String) :
    (deriveKey r.text d t c = deriveKey r'.text d' t' c' ↔ r = r' ∧ t = t' ∧ c = c' ∧ (d = d' ∨ d < 0 ∧ d' < 0)) ∧
      deriveKey r.text d t c ≠ callIdKey r'.text id :=
  ⟨deriveKey_eq_iff r r' d d' t t' c c', deriveKey_ne_callIdKey r r' d t c id⟩

end Tape.Effect
