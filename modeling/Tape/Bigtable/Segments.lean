import Mathlib.Data.List.Flatten
import Mathlib.Data.List.Infix

/-! # Fields joined by a separator

Fields are joined as they are: one that contains the separator is read as several.  What a joined text
keeps of its fields are their segments, the pieces between separators, and these it keeps exactly.
-/

namespace Tape.Segments

variable {α : Type} [DecidableEq α] {sep : α} {xs ys : List (List α)}

def join (sep : α) (fields : List (List α)) : List α := [sep].intercalate fields

/-- The pieces of the fields between separators. -/
def segments (sep : α) (fields : List (List α)) : List (List α) := fields.flatMap fun field => field.splitOn sep

@[simp] theorem segments_nil : segments sep ([] : List (List α)) = [] := rfl

@[simp] theorem segments_cons (field : List α) (fields : List (List α)) :
    segments sep (field :: fields) = field.splitOn sep ++ segments sep fields := List.flatMap_cons ..

@[simp] theorem segments_append (xs ys : List (List α)) : segments sep (xs ++ ys) = segments sep xs ++ segments sep ys :=
  List.flatMap_append ..

theorem splitOn_join (some_ : xs ≠ []) : (join sep xs).splitOn sep = segments sep xs := by
  induction xs with
  | nil => exact absurd rfl some_
  | cons field fields inductionHypothesis =>
    cases fields with
    | nil => simp [join]
    | cons next fields =>
      have rest := inductionHypothesis (List.cons_ne_nil _ _)
      rw [join, List.intercalate_cons_cons, List.append_assoc, List.singleton_append, List.splitOn_append_cons_self]
      rw [segments_cons, ← rest, join]

theorem splitOn_injective {x y : List α} (same : x.splitOn sep = y.splitOn sep) : x = y := by
  have joined : [sep].intercalate (x.splitOn sep) = x := List.intercalate_splitOn sep
  rw [← joined, same, List.intercalate_splitOn]

/-- Two texts are the same if their segments are. -/
theorem join_eq_iff (some_ : xs ≠ []) (some' : ys ≠ []) : join sep xs = join sep ys ↔ segments sep xs = segments sep ys := by
  rw [← splitOn_join some_, ← splitOn_join some']
  exact ⟨fun same => by rw [same], splitOn_injective⟩

/-! ## Plain fields -/

theorem not_mem_of_mem_splitOn {x segment : List α} (member : segment ∈ x.splitOn sep) : sep ∉ segment := by
  induction x generalizing segment with
  | nil =>
    rw [List.splitOn_nil, List.mem_singleton] at member
    simp [member]
  | cons a x inductionHypothesis =>
    rw [List.splitOn_cons_eq_if_modifyHead] at member
    split at member
    next =>
      rcases List.mem_cons.mp member with rfl | member
      · exact List.not_mem_nil
      · exact inductionHypothesis member
    next other =>
      obtain ⟨first, rest, split⟩ := List.exists_cons_of_ne_nil (List.splitOn_ne_nil sep x)
      rw [split, List.modifyHead_cons] at member
      rcases List.mem_cons.mp member with rfl | member
      · have plain : sep ∉ first := inductionHypothesis (by simp [split])
        have differs : sep ≠ a := fun same => other (by simp [same])
        simp [differs, plain]
      · exact inductionHypothesis (by simp [split, member])

theorem segments_of_plain (plain : ∀ x ∈ xs, sep ∉ x) : segments sep xs = xs := by
  induction xs with
  | nil => rfl
  | cons field fields inductionHypothesis =>
    rw [segments_cons, List.splitOn_eq_singleton (plain field List.mem_cons_self),
      inductionHypothesis fun x member => plain x (List.mem_cons_of_mem _ member), List.singleton_append]

variable (sep) in
theorem length_le_segments (xs : List (List α)) : xs.length ≤ (segments sep xs).length := by
  induction xs with
  | nil => exact Nat.le_refl _
  | cons field fields inductionHypothesis =>
    have pos := List.length_pos_of_ne_nil (List.splitOn_ne_nil sep field)
    rw [segments_cons, List.length_append, List.length_cons]
    omega

/-- Fields without a separator are all their segments. -/
theorem eq_segments_of_length (same : (segments sep xs).length = xs.length) : segments sep xs = xs := by
  induction xs with
  | nil => rfl
  | cons field fields inductionHypothesis =>
    have pos := List.length_pos_of_ne_nil (List.splitOn_ne_nil sep field)
    have more := length_le_segments sep fields
    rw [segments_cons, List.length_append, List.length_cons] at same
    obtain ⟨segment, single⟩ := List.length_eq_one_iff.mp (show (field.splitOn sep).length = 1 by omega)
    have whole : [sep].intercalate (field.splitOn sep) = field := List.intercalate_splitOn sep
    rw [single, List.intercalate_singleton] at whole
    rw [segments_cons, inductionHypothesis (by omega), single, whole, List.singleton_append]

/-- A field with a separator can share it with a neighbour. -/
theorem exists_other {x : List α} (two : 2 ≤ xs.length) (member : x ∈ xs) (inside : sep ∈ x) :
    ∃ ys, ys.length = xs.length ∧ segments sep ys = segments sep xs ∧ ys ≠ xs := by
  induction xs with
  | nil => cases member
  | cons field fields inductionHypothesis =>
    rcases List.mem_cons.mp member with rfl | member
    · cases fields with
      | nil => simp at two
      | cons next rest =>
        obtain ⟨a, b, rfl⟩ := List.append_of_mem inside
        refine ⟨a :: (b ++ sep :: next) :: rest, rfl, by simp [List.splitOn_append_cons_self], fun same => ?_⟩
        have shorter := congrArg List.length (List.cons.inj same).1
        simp at shorter
    · by_cases more : 2 ≤ fields.length
      · obtain ⟨ys, length, same, differs⟩ := inductionHypothesis more member
        exact ⟨field :: ys, by simp [length], by simp [same], fun same => differs (List.cons.inj same).2⟩
      · obtain ⟨last, rfl⟩ := List.length_eq_one_iff.mp (show fields.length = 1 by simp at two; omega)
        obtain rfl := List.mem_singleton.mp member
        obtain ⟨a, b, rfl⟩ := List.append_of_mem inside
        refine ⟨[field ++ sep :: a, b], rfl, by simp [List.splitOn_append_cons_self], fun same => ?_⟩
        have longer := congrArg List.length (List.cons.inj same).1
        simp at longer

/-- The segments tell the fields from any others of their number exactly if there is one field only, or none of them
    contains the separator. -/
theorem determines_iff :
    (∀ ys, ys.length = xs.length → segments sep ys = segments sep xs → ys = xs) ↔ xs.length ≤ 1 ∨ ∀ x ∈ xs, sep ∉ x := by
  constructor
  · intro determines
    by_contra unclear
    obtain ⟨many, x, member, inside⟩ : ¬ xs.length ≤ 1 ∧ ∃ x ∈ xs, sep ∈ x := by simpa using unclear
    obtain ⟨ys, length, same, differs⟩ := exists_other (by omega) member inside
    exact differs (determines ys length same)
  · rintro (one | plain) ys length same
    · match xs, ys with
      | [], ys => exact List.length_eq_zero_iff.mp length
      | [x], [y] => exact congrArg ([·]) (splitOn_injective (by simpa using same))
      | _ :: _ :: _, _ => simp at one
    · rw [segments_of_plain plain] at same
      exact (eq_segments_of_length (by rw [same, length])).symm.trans same

/-! ## Beginnings -/

/-- A text that is followed by a separator begins a text whose first segments are its own, and that has more. -/
theorem append_sep_prefix_iff {x l : List α} : x ++ [sep] <+: l ↔ x.splitOn sep <+: (l.splitOn sep).dropLast := by
  constructor
  · rintro ⟨rest, rfl⟩
    rw [List.append_assoc, List.singleton_append, List.splitOn_append_cons_self,
      List.dropLast_append_of_ne_nil (List.splitOn_ne_nil sep rest)]
    exact List.prefix_append _ _
  · rintro ⟨between, first⟩
    have last := List.dropLast_append_getLast (List.splitOn_ne_nil sep l)
    rw [← first, List.append_assoc] at last
    have plain : ∀ segment ∈ between ++ [(l.splitOn sep).getLast (List.splitOn_ne_nil sep l)], sep ∉ segment := by
      intro segment member
      exact not_mem_of_mem_splitOn (last ▸ List.mem_append_right _ member)
    have same : x ++ sep :: join sep (between ++ [(l.splitOn sep).getLast (List.splitOn_ne_nil sep l)]) = l := by
      apply splitOn_injective
      rw [List.splitOn_append_cons_self, splitOn_join (by simp), segments_of_plain plain, last]
    exact ⟨_, by rw [← same, List.append_assoc, List.singleton_append]⟩

/-- The segments of a text are those of the text that joins them. -/
theorem splitOn_join_of_mem {segments : List (List α)} {x : List α} (some_ : segments ≠ [])
    (within : ∀ segment ∈ segments, segment ∈ x.splitOn sep) : (join sep segments).splitOn sep = segments := by
  rw [splitOn_join some_, segments_of_plain fun segment member => not_mem_of_mem_splitOn (within segment member)]

variable (sep) in
/-- Nothing but the fields themselves, followed by a separator, begins the text that joins them to another one, exactly
    if none of all these contains the separator. -/
theorem encloses_iff (z : List α) (some_ : xs ≠ []) :
    (∀ ys, ys.length = xs.length → (segments sep ys <+: segments sep xs ++ (z.splitOn sep).dropLast ↔ ys = xs)) ↔
      (∀ x ∈ xs, sep ∉ x) ∧ sep ∉ z := by
  constructor
  · intro encloses
    have plain : ∀ x ∈ xs, sep ∉ x := by
      -- as many of the first segments
      have bound := length_le_segments sep xs
      have firsts : segments sep ((segments sep xs).take xs.length) = (segments sep xs).take xs.length := by
        refine segments_of_plain fun segment member => ?_
        obtain ⟨x, -, inside⟩ := List.mem_flatMap.mp (List.mem_of_mem_take member)
        exact not_mem_of_mem_splitOn inside
      have same := (encloses ((segments sep xs).take xs.length) (by simp [bound])).mp (by
        rw [firsts]
        exact (List.take_prefix _ _).trans (List.prefix_append _ _))
      intro x member
      rw [← same] at member
      obtain ⟨y, -, inside⟩ := List.mem_flatMap.mp (List.mem_of_mem_take member)
      exact not_mem_of_mem_splitOn inside
    refine ⟨plain, fun inside => ?_⟩
    obtain ⟨a, b, rfl⟩ := List.append_of_mem inside
    -- the last of the fields can take some of the text
    obtain ⟨front, last, rfl⟩ := (List.eq_nil_or_concat xs).resolve_left some_
    have same := (encloses (front ++ [last ++ sep :: a]) (by simp)).mp (by
      simp only [segments_append, segments_cons, segments_nil, List.append_nil, List.splitOn_append_cons_self,
        List.dropLast_append_of_ne_nil (List.splitOn_ne_nil sep b)]
      simp)
    simp at same
  · rintro ⟨plain, plainLast⟩ ys length
    rw [List.splitOn_eq_singleton plainLast, List.dropLast_singleton, List.append_nil, segments_of_plain plain]
    constructor
    · intro isPrefix
      have bound := length_le_segments sep ys
      have whole := isPrefix.eq_of_length_le (by omega)
      exact (eq_segments_of_length (by rw [whole, length])).symm.trans whole
    · rintro rfl
      rw [segments_of_plain plain]

/-! ## Fields around a mark -/

section Mark

variable {β : Type} {mark : β → List α} {r t : List α} {s : β}

theorem not_mem_of_mem_marked (plain : ∀ s, sep ∉ mark s) {piece : List α}
    (member : piece ∈ r.splitOn sep ++ mark s :: t.splitOn sep) : sep ∉ piece := by
  rcases List.mem_append.mp member with first | second
  · exact not_mem_of_mem_splitOn first
  · rcases List.mem_cons.mp second with rfl | second
    · exact plain s
    · exact not_mem_of_mem_splitOn second

/-- A mark between two fields is taken for no other one exactly if the first field has none but, it may be, at its
    beginning, and the second none but at its end. -/
theorem mark_iff (injective : Function.Injective mark) (plain : ∀ s, sep ∉ mark s) :
    (∀ r' s', r'.splitOn sep ++ [mark s'] <+: r.splitOn sep ++ mark s :: (t.splitOn sep).dropLast → r' = r ∧ s' = s) ↔
      (∀ segment ∈ (r.splitOn sep).tail, ∀ s', mark s' ≠ segment) ∧
        ∀ segment ∈ (t.splitOn sep).dropLast, ∀ s', mark s' ≠ segment := by
  constructor
  · intro encloses
    constructor
    · intro segment member s' same
      obtain ⟨first, rest, split⟩ := List.exists_cons_of_ne_nil (List.splitOn_ne_nil sep r)
      rw [split, List.tail_cons] at member
      obtain ⟨before, after, rfl⟩ := List.append_of_mem member
      -- the text up to that segment
      have own : (join sep (first :: before)).splitOn sep = first :: before :=
        splitOn_join_of_mem (x := r) (List.cons_ne_nil _ _) fun piece inside => by
          rw [split, ← List.cons_append]
          exact List.mem_append_left _ inside
      have equal := (encloses (join sep (first :: before)) s' (by rw [own, split, same]; simp)).1
      rw [equal, split] at own
      simp at own
    · intro segment member s' same
      obtain ⟨before, after, split⟩ := List.append_of_mem member
      have pieces : ∀ piece ∈ r.splitOn sep ++ mark s :: before, sep ∉ piece := by
        intro piece inside
        have within : before ⊆ t.splitOn sep := by
          intro other front
          exact List.mem_of_mem_dropLast (by simp [split, front])
        refine not_mem_of_mem_marked plain (r := r) (s := s) (t := t) ?_
        exact List.append_subset.mpr ⟨List.subset_append_left _ _, fun other found =>
          List.mem_append_right _ (List.cons_subset_cons _ within found)⟩ inside
      have own : (join sep (r.splitOn sep ++ mark s :: before)).splitOn sep = r.splitOn sep ++ mark s :: before := by
        rw [splitOn_join (by simp), segments_of_plain pieces]
      have equal := (encloses (join sep (r.splitOn sep ++ mark s :: before)) s' (by rw [own, split, same]; simp)).1
      rw [equal] at own
      simp at own
  · rintro ⟨noneFirst, noneLast⟩ r' s' ⟨rest, joined⟩
    rw [List.append_assoc, List.singleton_append] at joined
    rcases List.append_eq_append_iff.mp joined with ⟨more, whole, others⟩ | ⟨more, whole, others⟩
    · cases more with
      | nil =>
        obtain ⟨marks, -⟩ := List.cons.inj others
        exact ⟨(splitOn_injective (by simpa using whole)).symm, injective marks⟩
      | cons head more =>
        -- the other mark would be in the first field
        obtain ⟨rfl, -⟩ := List.cons.inj others
        obtain ⟨first, before, split⟩ := List.exists_cons_of_ne_nil (List.splitOn_ne_nil sep r')
        exact absurd rfl (noneFirst (mark s') (by simp [whole, split]) s')
    · cases more with
      | nil =>
        obtain ⟨marks, -⟩ := List.cons.inj others
        exact ⟨splitOn_injective (by simpa using whole), (injective marks).symm⟩
      | cons head more =>
        obtain ⟨rfl, further⟩ := List.cons.inj others
        exact absurd rfl (noneLast (mark s') (by simp [further]) s')

/-- Such a beginning is that of a text that has the other mark between other fields. -/
theorem mark_prefix_iff (plain : ∀ s, sep ∉ mark s) {r' : List α} {s' : β} :
    r'.splitOn sep ++ [mark s'] <+: r.splitOn sep ++ mark s :: (t.splitOn sep).dropLast ↔
      ∃ t' : List α, r'.splitOn sep ++ mark s' :: t'.splitOn sep = r.splitOn sep ++ mark s :: t.splitOn sep := by
  constructor
  · rintro ⟨rest, joined⟩
    obtain ⟨front, last, split⟩ := (List.eq_nil_or_concat (t.splitOn sep)).resolve_left (List.splitOn_ne_nil sep t)
    have all : r'.splitOn sep ++ mark s' :: (rest ++ [last]) = r.splitOn sep ++ mark s :: t.splitOn sep := by
      rw [split, List.concat_eq_append, List.dropLast_concat] at joined
      have longer := congrArg (· ++ [last]) joined
      rw [split, List.concat_eq_append]
      simpa using longer
    refine ⟨join sep (rest ++ [last]), ?_⟩
    rw [splitOn_join (by simp), segments_of_plain fun piece inside => ?_, all]
    refine not_mem_of_mem_marked plain (r := r) (s := s) (t := t) ?_
    rw [← all]
    exact List.mem_append_right _ (List.mem_cons_of_mem _ inside)
  · rintro ⟨t', joined⟩
    have shorter := congrArg List.dropLast joined
    rw [List.dropLast_append_of_ne_nil (List.cons_ne_nil _ _), List.dropLast_append_of_ne_nil (List.cons_ne_nil _ _),
      List.dropLast_cons_of_ne_nil (List.splitOn_ne_nil sep t'), List.dropLast_cons_of_ne_nil (List.splitOn_ne_nil sep t)]
      at shorter
    exact ⟨(t'.splitOn sep).dropLast, by rw [← shorter, List.append_assoc, List.singleton_append]⟩

end Mark

/-! ## Ends -/

/-- What follows the last separator. -/
def lastSegment (sep : α) (text : List α) : List α := (text.reverse.takeWhile (· ≠ sep)).reverse

theorem not_mem_lastSegment (text : List α) : sep ∉ lastSegment sep text := by
  intro member
  have all := List.all_takeWhile (p := fun c => decide (c ≠ sep)) (l := text.reverse)
  simpa using List.all_eq_true.mp all sep (List.mem_reverse.mp member)

theorem lastSegment_append {before last : List α} (plain : sep ∉ last) : lastSegment sep (before ++ sep :: last) = last := by
  have all : ∀ c ∈ last.reverse, decide (c ≠ sep) = true := by
    intro c member
    have differs : c ≠ sep := fun same => plain (by rwa [← same, ← List.mem_reverse])
    simpa using differs
  rw [lastSegment, List.reverse_append, List.reverse_cons, List.append_assoc, List.takeWhile_append_of_pos all]
  simp

/-- The last field is what follows the last separator exactly if it has none. -/
theorem lastSegment_eq_iff {before last : List α} : lastSegment sep (before ++ sep :: last) = last ↔ sep ∉ last := by
  constructor
  · intro same
    rw [← same]
    exact not_mem_lastSegment _
  · exact lastSegment_append

/-! ## Parts of a text -/

/-- `split_once`: what is before the first separator, and what after it. -/
def splitOnce (sep : α) (text : List α) : Option (List α × List α) :=
  if sep ∈ text then some (text.takeWhile (· ≠ sep), (text.dropWhile (· ≠ sep)).tail) else none

theorem splitOnce_append {before after : List α} (plain : sep ∉ before) :
    splitOnce sep (before ++ sep :: after) = some (before, after) := by
  have all : ∀ c ∈ before, decide (c ≠ sep) = true := by
    intro c member
    have differs : c ≠ sep := fun same => plain (same ▸ member)
    simpa using differs
  rw [splitOnce, if_pos (by simp), List.takeWhile_append_of_pos all, List.dropWhile_append_of_pos all]
  simp

theorem splitOnce_spec {text before after : List α} (split : splitOnce sep text = some (before, after)) :
    sep ∉ before ∧ text = before ++ sep :: after := by
  by_cases inside : sep ∈ text
  · obtain ⟨front, back, rfl, plain⟩ := List.eq_append_cons_of_mem inside
    rw [splitOnce_append plain] at split
    obtain ⟨rfl, rfl⟩ := Prod.mk.inj (Option.some.inj split)
    exact ⟨plain, rfl⟩
  · rw [splitOnce, if_neg inside] at split
    cases split

/-- `trim_start_matches`: the text without the tag, however often it begins with it. -/
def trimStartMatches (tag text : List α) : List α := go text.length text
where
  go : Nat → List α → List α
    | 0, text => text
    | fuel + 1, text => if tag.isPrefixOf text then go fuel (text.drop tag.length) else text

section Trim

variable {tag text : List α}

variable (tag) in
theorem length_go_le (fuel : Nat) (text : List α) : (trimStartMatches.go tag fuel text).length ≤ text.length := by
  induction fuel generalizing text with
  | zero => exact Nat.le_refl _
  | succ fuel inductionHypothesis =>
    rw [trimStartMatches.go]
    split
    next =>
      have shorter := inductionHypothesis (text.drop tag.length)
      rw [List.length_drop] at shorter
      omega
    next => exact Nat.le_refl _

theorem length_trim_le (tag text : List α) : (trimStartMatches tag text).length ≤ text.length := length_go_le tag _ _

theorem go_of_not_prefix (other : ¬ tag <+: text) (fuel : Nat) : trimStartMatches.go tag fuel text = text := by
  cases fuel with
  | zero => rfl
  | succ fuel => rw [trimStartMatches.go, if_neg (by rwa [List.isPrefixOf_iff_prefix])]

theorem go_succ (some_ : tag ≠ []) {fuel : Nat} (enough : text.length ≤ fuel) :
    trimStartMatches.go tag (fuel + 1) text = trimStartMatches.go tag fuel text := by
  have pos := List.length_pos_of_ne_nil some_
  induction fuel generalizing text with
  | zero =>
    obtain rfl := List.length_eq_zero_iff.mp (Nat.le_zero.mp enough)
    simp [trimStartMatches.go]
  | succ fuel inductionHypothesis =>
    rw [trimStartMatches.go]
    conv => rhs; rw [trimStartMatches.go]
    rw [inductionHypothesis]
    rw [List.length_drop]
    omega

theorem go_enough (some_ : tag ≠ []) {fuel : Nat} (enough : text.length ≤ fuel) :
    trimStartMatches.go tag fuel text = trimStartMatches tag text := by
  obtain ⟨more, rfl⟩ := Nat.exists_eq_add_of_le enough
  induction more with
  | zero => rfl
  | succ more inductionHypothesis =>
    rw [← Nat.add_assoc, go_succ some_ (by omega)]
    exact inductionHypothesis (by omega)

theorem trim_append (some_ : tag ≠ []) (text : List α) : trimStartMatches tag (tag ++ text) = trimStartMatches tag text := by
  have pos := List.length_pos_of_ne_nil some_
  obtain ⟨fuel, enough⟩ := Nat.exists_eq_add_of_lt (show 0 < (tag ++ text).length by simp; omega)
  rw [trimStartMatches, enough, Nat.zero_add, trimStartMatches.go, if_pos (by simp), List.drop_left]
  refine go_enough some_ ?_
  simp at enough
  omega

/-- The tag is taken off a text exactly if what follows does not begin with it. -/
theorem trim_eq_iff (some_ : tag ≠ []) : trimStartMatches tag (tag ++ text) = text ↔ ¬ tag <+: text := by
  rw [trim_append some_]
  constructor
  · rintro same ⟨rest, rfl⟩
    have pos := List.length_pos_of_ne_nil some_
    rw [trim_append some_] at same
    have shorter := length_trim_le tag rest
    rw [same, List.length_append] at shorter
    omega
  · exact fun other => go_of_not_prefix other _

end Trim

end Tape.Segments
