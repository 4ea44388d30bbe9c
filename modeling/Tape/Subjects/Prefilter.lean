import Tape.Sql.Like
import Tape.Subjects.Path
import Tape.Wire

/-! # The `LIKE` prefilter

`events_by_subject` asks the database for the subjects that `pattern_to_sql_like` covers
and runs `matches` over the answer, so whatever the prefilter rejects is never seen.

`read` is what `LIKE` makes of a pattern, character by character.  The prefilter accepts
all that the pattern matches exactly if every segment of the pattern, read this way,
covers itself, and the pattern does not end in `/**`.
-/

namespace Tape.Subjects

open Sql

/-! ## What `LIKE` makes of a pattern -/

/-- Where the reading stands: after a star that may absorb a second one, or after a
    backslash of the pattern, which `LIKE` takes for an escape. -/
inductive Mode where
  | plain | starred | escaped
  deriving DecidableEq, Repr

def readChar (mode : Mode) (c : Char) : List (LikeToken Char) × Mode :=
  if c = '*' then
    match mode with
    | .plain => ([.any], .starred)
    | .starred => ([], .plain)
    | .escaped => ([.lit '%'], .starred)
  else if c = '\\' then
    match mode with
    | .escaped => ([.lit '\\'], .plain)
    | _ => ([], .escaped)
  else if c = '%' then
    match mode with
    | .escaped => ([.lit '\\', .any], .plain)
    | _ => ([.lit '%'], .plain)
  else if c = '_' then
    match mode with
    | .escaped => ([.lit '\\', .one], .plain)
    | _ => ([.lit '_'], .plain)
  -- a character beyond ASCII is taken for the characters of its bytes
  else ((String.utf8EncodeChar c).map fun b => .lit (byteChar b), .plain)

def read (mode : Mode) : List Char → List (LikeToken Char) × Mode
  | [] => ([], mode)
  | c :: rest => ((readChar mode c).1 ++ (read (readChar mode c).2 rest).1, (read (readChar mode c).2 rest).2)

/-- The segment, read as `LIKE` text, covers itself. -/
def ReadsItself (segment : List Char) : Prop := Covers (read .plain segment).1 segment

/-- What the prefilter loses nothing of: a pattern that matches everything or nothing, and one
    without `**` each segment of which reads itself. -/
def Prefilterable (pattern : String) : Prop :=
  pattern = "" ∨ pattern = "**" ∨ ['*', '*'] ∈ (splitSlash pattern.toList).dropLast ∨
    (['*', '*'] ∉ splitSlash pattern.toList ∧ (∀ segment ∈ splitSlash pattern.toList, ReadsItself segment) ∧
      (read .plain pattern.toList).2 ≠ .escaped)

/-! ## The reading is what `pattern_to_sql_like` writes -/

section Reading

variable {mode : Mode} {c : Char}

/-- Special in `pattern_to_sql_like` or in `LIKE`. -/
def isMeta (b : UInt8) : Bool := b = 0x2a || b = 0x25 || b = 0x5f || b = 0x5c

theorem isMeta_eq_false {b : UInt8} (plain : isMeta b = false) :
    b ≠ 0x2a ∧ b ≠ 0x25 ∧ b ≠ 0x5f ∧ b ≠ 0x5c := by
  simpa [isMeta, and_assoc] using plain

theorem not_isMeta_utf8 (star : c ≠ '*') (backslash : c ≠ '\\') (percent : c ≠ '%') (underscore : c ≠ '_') :
    ∀ b ∈ String.utf8EncodeChar c, isMeta b = false := by
  intro b member
  by_cases ascii : c.toNat < 128
  · rw [utf8EncodeChar_of_ascii ascii, List.mem_singleton] at member
    have isChar : byteChar b = c := by rw [member, byteChar_ofNat ascii]
    simp only [isMeta, Bool.or_eq_false_iff, decide_eq_false_iff_not]
    refine ⟨⟨⟨?_, ?_⟩, ?_⟩, ?_⟩ <;> rintro rfl
    · exact star isChar.symm
    · exact percent isChar.symm
    · exact underscore isChar.symm
    · exact backslash isChar.symm
  · have large := (beyond_ascii (Nat.le_of_not_lt ascii)).2 b member
    simp only [isMeta, Bool.or_eq_false_iff, decide_eq_false_iff_not]
    refine ⟨⟨⟨?_, ?_⟩, ?_⟩, ?_⟩ <;> rintro rfl <;> simp at large

/-- The characters of ordinary bytes stand for themselves in `LIKE`. -/
theorem byteChar_ordinary {b : UInt8} (plain : isMeta b = false) :
    byteChar b ≠ '%' ∧ byteChar b ≠ '_' ∧ byteChar b ≠ '\\' := by
  obtain ⟨-, percent, underscore, backslash⟩ := isMeta_eq_false plain
  refine ⟨fun same => percent ?_, fun same => underscore ?_, fun same => backslash ?_⟩
  · exact byteChar_inj same
  · exact byteChar_inj same
  · exact byteChar_inj same

theorem likeBytes_cons_ordinary {b : UInt8} (plain : isMeta b = false) (starred : Bool) (rest : List UInt8) :
    likeBytes starred (b :: rest) = byteChar b :: likeBytes false rest := by
  obtain ⟨star, percent, underscore, -⟩ := isMeta_eq_false plain
  rw [likeBytes, if_neg star, if_neg (by simp [percent, underscore])]

theorem likeBytes_ordinary {bytes : List UInt8} (plain : ∀ b ∈ bytes, isMeta b = false) (rest : List UInt8) :
    likeBytes false (bytes ++ rest) = bytes.map byteChar ++ likeBytes false rest := by
  induction bytes with
  | nil => rfl
  | cons b bytes inductionHypothesis =>
    rw [List.cons_append, likeBytes_cons_ordinary (plain b List.mem_cons_self),
      inductionHypothesis fun other member => plain other (List.mem_cons_of_mem _ member)]
    rfl

theorem likeTokens_ordinary {bytes : List UInt8} (plain : ∀ b ∈ bytes, isMeta b = false) (text : List Char) :
    likeTokens (bytes.map byteChar ++ text) =
      (likeTokens text).map ((bytes.map fun b => .lit (byteChar b)) ++ ·) := by
  induction bytes with
  | nil => simp
  | cons b bytes inductionHypothesis =>
    obtain ⟨notAny, notOne, notEscape⟩ := byteChar_ordinary (plain b List.mem_cons_self)
    rw [List.map_cons, List.cons_append, likeTokens_cons notAny notOne notEscape,
      inductionHypothesis fun other member => plain other (List.mem_cons_of_mem _ member), Option.map_map]
    rfl

/-- The backslash that the pattern has left pending in the `LIKE` text. -/
def Mode.pending : Mode → List Char
  | .escaped => ['\\']
  | _ => []

/-- One character of the pattern. -/
theorem likeTokens_step (mode : Mode) (c : Char) (rest : List Char) :
    likeTokens (mode.pending ++ likeBytes (mode = .starred) ((c :: rest).flatMap String.utf8EncodeChar)) =
      (likeTokens ((readChar mode c).2.pending ++
        likeBytes ((readChar mode c).2 = .starred) (rest.flatMap String.utf8EncodeChar))).map
          ((readChar mode c).1 ++ ·) := by
  rw [List.flatMap_cons]
  by_cases star : c = '*'
  · subst star
    cases mode <;> simp [readChar, Mode.pending, utf8EncodeChar_of_ascii, likeBytes, likeTokens]
  by_cases backslash : c = '\\'
  · subst backslash
    cases mode <;>
      simp [readChar, Mode.pending, utf8EncodeChar_of_ascii, likeBytes, likeTokens,
        show byteChar 0x5c = '\\' from rfl]
  by_cases percent : c = '%'
  · subst percent
    cases mode <;>
      simp [readChar, Mode.pending, utf8EncodeChar_of_ascii, likeBytes, likeTokens,
        show byteChar 0x25 = '%' from rfl, Function.comp_def]
  by_cases underscore : c = '_'
  · subst underscore
    cases mode <;>
      simp [readChar, Mode.pending, utf8EncodeChar_of_ascii, likeBytes, likeTokens,
        show byteChar 0x5f = '_' from rfl, Function.comp_def]
  have plain := not_isMeta_utf8 star backslash percent underscore
  obtain ⟨b, bytes, isBytes⟩ := List.exists_cons_of_ne_nil (String.utf8EncodeChar_ne_nil (c := c))
  rw [isBytes] at plain
  have plainTail := fun other member => plain other (List.mem_cons_of_mem b member)
  have ordinary : readChar mode c = ((b :: bytes).map fun b => .lit (byteChar b), .plain) := by
    simp only [readChar, if_neg star, if_neg backslash, if_neg percent, if_neg underscore, isBytes]
  rw [ordinary, isBytes, List.cons_append, likeBytes_cons_ordinary (plain b List.mem_cons_self),
    likeBytes_ordinary plainTail]
  cases mode with
  | plain | starred => exact likeTokens_ordinary plain _
  | escaped =>
    -- the escape takes the first byte, which needs none
    rw [Mode.pending, List.singleton_append, likeTokens, likeTokens_ordinary plainTail, Option.map_map]
    rfl

theorem likeTokens_read (mode : Mode) (chars : List Char) :
    likeTokens (mode.pending ++ likeBytes (mode = .starred) (chars.flatMap String.utf8EncodeChar)) =
      if (read mode chars).2 = .escaped then none else some (read mode chars).1 := by
  induction chars generalizing mode with
  | nil => cases mode <;> rfl
  | cons c rest inductionHypothesis =>
    rw [likeTokens_step, inductionHypothesis, read]
    split <;> simp

theorem anySuffix_iff (p : List Char → Bool) (text : List Char) :
    anySuffix p text ↔ ∃ before rest, text = before ++ rest ∧ p rest := by
  induction text with
  | nil => simp [anySuffix]
  | cons c text inductionHypothesis =>
    rw [anySuffix, Bool.or_eq_true, inductionHypothesis]
    constructor
    · rintro (here | ⟨before, rest, rfl, later⟩)
      · exact ⟨[], c :: text, rfl, here⟩
      · exact ⟨c :: before, rest, rfl, later⟩
    · rintro ⟨before, rest, split, meets⟩
      cases before with
      | nil => exact .inl (by rw [split]; exact meets)
      | cons d before =>
        obtain ⟨-, tail⟩ := List.cons.inj (split.trans (List.cons_append ..))
        exact .inr ⟨before, rest, tail, meets⟩

/-- `LIKE` under the standard semantics is the covering of its tokens. -/
theorem like_iff_covers (pattern text : List Char) :
    like .postgres pattern text ↔ ∃ tokens, likeTokens pattern = some tokens ∧ Covers tokens text := by
  induction pattern using likeTokens.induct generalizing text with
  | case1 => simp [like, likeTokens]
  | case2 pattern inductionHypothesis =>
    simp only [like, anySuffix_iff, inductionHypothesis, likeTokens, Option.map_eq_some_iff]
    constructor
    · rintro ⟨before, rest, split, tokens, isTokens, covers⟩
      exact ⟨_, ⟨tokens, isTokens, rfl⟩, before, rest, split, covers⟩
    · rintro ⟨_, ⟨tokens, isTokens, rfl⟩, before, rest, split, covers⟩
      exact ⟨before, rest, split, tokens, isTokens, covers⟩
  | case3 pattern inductionHypothesis => cases text <;> simp [like, likeTokens, inductionHypothesis]
  | case4 => simp [like, likeTokens]
  | case5 c pattern inductionHypothesis | case6 c pattern _ _ _ _ inductionHypothesis =>
    cases text <;> simp [like, likeTokens, inductionHypothesis, Dialect.sameChar, and_left_comm]

/-- What the prefilter accepts. -/
theorem like_pattern_iff {pattern : String} (nonempty : pattern ≠ "") (text : List Char) :
    like .postgres (patternToSqlLike pattern).toList text ↔
      (read .plain pattern.toList).2 ≠ .escaped ∧ Covers (read .plain pattern.toList).1 text := by
  have isRead : likeTokens (likeBytes false (asBytes pattern)) =
      if (read .plain pattern.toList).2 = .escaped then none else some (read .plain pattern.toList).1 :=
    likeTokens_read .plain pattern.toList
  rw [patternToSqlLike, if_neg (by simpa using nonempty), String.toList_ofList, like_iff_covers, isRead]
  split
  next escaped => simp [escaped]
  next closed => simp [closed]

end Reading

/-! ## Segment by segment -/

section Segments

/-- A slash stands for itself, also after a backslash. -/
theorem readChar_slash (mode : Mode) : readChar mode '/' = ([.lit '/'], .plain) := by
  have bytes : String.utf8EncodeChar '/' = [0x2f] := utf8EncodeChar_of_ascii (by decide)
  have isChar : byteChar 0x2f = '/' := rfl
  simp [readChar, bytes, isChar]

theorem read_append (mode : Mode) (first second : List Char) :
    read mode (first ++ second) =
      ((read mode first).1 ++ (read (read mode first).2 second).1, (read (read mode first).2 second).2) := by
  induction first generalizing mode with
  | nil => rfl
  | cons c first inductionHypothesis => simp [read, inductionHypothesis]

theorem read_slash (mode : Mode) (segment rest : List Char) :
    read mode (segment ++ '/' :: rest) =
      ((read mode segment).1 ++ .lit '/' :: (read .plain rest).1, (read .plain rest).2) := by
  rw [read_append, read, readChar_slash]
  rfl

/-- No other character is read as a slash. -/
theorem slashes_readChar (mode : Mode) {c : Char} (other : c ≠ '/') :
    (readChar mode c).1.countP (LikeToken.isLit (· = '/')) = 0 := by
  have bytes : ((String.utf8EncodeChar c).map fun b => LikeToken.lit (byteChar b)).countP (LikeToken.isLit (· = '/')) = 0 := by
    rw [List.countP_eq_zero]
    intro token member
    obtain ⟨b, isByte, rfl⟩ := List.mem_map.mp member
    simp only [LikeToken.isLit_lit, decide_eq_true_eq]
    intro isSlash
    by_cases ascii : c.toNat < 128
    · rw [utf8EncodeChar_of_ascii ascii, List.mem_singleton] at isByte
      rw [isByte, byteChar_ofNat ascii] at isSlash
      exact other isSlash
    · have large := (beyond_ascii (Nat.le_of_not_lt ascii)).2 b isByte
      rw [← toNat_byteChar, isSlash] at large
      simp at large
  unfold readChar
  split
  · cases mode <;> rfl
  · split
    · cases mode <;> rfl
    · split
      · cases mode <;> rfl
      · split
        · cases mode <;> rfl
        · exact bytes

theorem slashes_read (mode : Mode) (chars : List Char) :
    (read mode chars).1.countP (LikeToken.isLit (· = '/')) = chars.count '/' := by
  induction chars generalizing mode with
  | nil => rfl
  | cons c rest inductionHypothesis =>
    rw [read, List.countP_append, inductionHypothesis]
    by_cases isSlash : c = '/'
    · subst isSlash
      rw [readChar_slash, List.count_cons_self]
      simp
      omega
    · rw [slashes_readChar mode isSlash, List.count_cons_of_ne (by simpa using isSlash), Nat.zero_add]

/-- A pattern reads itself exactly if its segments do. -/
theorem covers_itself_iff (pattern : List Char) :
    Covers (read .plain pattern).1 pattern ↔ ∀ segment ∈ splitSlash pattern, ReadsItself segment := by
  induction pattern using segments_induction with
  | last segment clean => simp [splitSlash_of_clean clean, ReadsItself]
  | more segment rest clean inductionHypothesis =>
    rw [splitSlash_append clean, List.forall_mem_cons, ← inductionHypothesis, read_slash]
    constructor
    · intro covers
      exact covers.cut clean (by rw [slashes_read])
    · rintro ⟨first, others⟩
      exact (covers_append _ _ _).mpr ⟨segment, '/' :: rest, rfl, first, by simpa using others⟩

/-- A pattern whose segments read themselves covers whatever it matches. -/
theorem covers_of_match {pattern text : List Char} (noRest : ['*', '*'] ∉ splitSlash pattern)
    (readable : ∀ segment ∈ splitSlash pattern, ReadsItself segment)
    (isMatch : matchTokens (splitSlash pattern) (splitSlash text)) : Covers (read .plain pattern).1 text := by
  -- one segment of the text per segment of the pattern, equal unless the latter is `*`
  have one : ∀ {segment part : List Char}, ReadsItself segment → (segment = ['*'] ∨ segment = part) →
      Covers (read .plain segment).1 part := by
    rintro segment part reads (rfl | rfl)
    · exact covers_any_alone
    · exact reads
  induction pattern using segments_induction generalizing text with
  | last segment clean =>
    rw [splitSlash_of_clean clean] at noRest readable isMatch
    rcases split_cases text with cleanText | ⟨part, rest, rfl, cleanPart⟩
    · rw [splitSlash_of_clean cleanText] at isMatch
      rw [List.mem_singleton] at noRest
      refine one (readable segment List.mem_cons_self) ?_
      by_contra differs
      simp [matchTokens, Ne.symm noRest, differs] at isMatch
    · rw [splitSlash_append cleanPart] at isMatch
      obtain ⟨next, others, isSplit⟩ := List.exists_cons_of_ne_nil (splitSlash_ne_nil rest)
      rw [List.mem_singleton] at noRest
      simp [matchTokens, Ne.symm noRest, isSplit] at isMatch
  | more segment rest clean inductionHypothesis =>
    rw [splitSlash_append clean] at noRest readable isMatch
    rw [List.mem_cons, not_or] at noRest
    rcases split_cases text with cleanText | ⟨part, later, rfl, cleanPart⟩
    · rw [splitSlash_of_clean cleanText] at isMatch
      obtain ⟨next, others, isSplit⟩ := List.exists_cons_of_ne_nil (splitSlash_ne_nil rest)
      have nextPlain : next ≠ ['*', '*'] := fun same => noRest.2 (by rw [isSplit, same]; exact List.mem_cons_self)
      simp [matchTokens, Ne.symm noRest.1, isSplit, nextPlain] at isMatch
    · rw [splitSlash_append cleanPart] at isMatch
      have both : (segment = ['*'] ∨ segment = part) ∧ matchTokens (splitSlash rest) (splitSlash later) := by
        simpa [matchTokens, Ne.symm noRest.1] using isMatch
      rw [read_slash]
      refine (covers_append _ _ _).mpr ⟨part, '/' :: later, rfl, ?_, ?_⟩
      · exact one (readable segment List.mem_cons_self) both.1
      · rw [covers_lit_cons]
        exact ⟨rfl, inductionHypothesis noRest.2 (fun other member => readable other (List.mem_cons_of_mem _ member)) both.2⟩

/-- A segment that reads itself is ASCII: a character beyond it asks for one of each of its bytes. -/
theorem ascii_of_readsItself {segment : List Char} (reads : ReadsItself segment) : ∀ c ∈ segment, c.toNat < 128 := by
  have beyond : ∀ mode chars, 2 * chars.countP (fun c => 128 ≤ c.toNat) ≤
      (read mode chars).1.countP (LikeToken.isLit fun c => 128 ≤ c.toNat) := by
    intro mode chars
    induction chars generalizing mode with
    | nil => simp
    | cons c rest inductionHypothesis =>
      have later := inductionHypothesis (readChar mode c).2
      rw [read, List.countP_append, List.countP_cons]
      by_cases ascii : c.toNat < 128
      · rw [if_neg (by simpa using ascii)]
        omega
      · have large := beyond_ascii (Nat.le_of_not_lt ascii)
        have ordinary : readChar mode c = ((String.utf8EncodeChar c).map fun b => .lit (byteChar b), .plain) := by
          have other : ∀ d : Char, d.toNat < 128 → c ≠ d := fun d small same => ascii (same ▸ small)
          simp [readChar, other '*' (by decide), other '\\' (by decide), other '%' (by decide), other '_' (by decide)]
        have all : (readChar mode c).1.countP (LikeToken.isLit fun c => 128 ≤ c.toNat) =
            (String.utf8EncodeChar c).length := by
          rw [ordinary, List.countP_eq_length.mpr, List.length_map]
          intro token member
          obtain ⟨b, isByte, rfl⟩ := List.mem_map.mp member
          simpa using large.2 b isByte
        rw [if_pos (by simpa using ascii), all]
        omega
  have fewer := Covers.countP_le (fun c => 128 ≤ c.toNat) reads
  have more := beyond .plain segment
  intro c member
  by_contra notAscii
  have present : 0 < segment.countP fun c => 128 ≤ c.toNat :=
    List.countP_pos_iff.mpr ⟨c, member, by simpa using notAscii⟩
  omega

/-- Without a backslash that is all there is to it. -/
theorem readsItself_of_ascii {segment : List Char} (noEscape : '\\' ∉ segment) (ascii : ∀ c ∈ segment, c.toNat < 128) :
    ReadsItself segment := by
  -- after a star the `%` it has written can still absorb what follows
  have both : Covers (read .plain segment).1 segment ∧ Covers (.any :: (read .starred segment).1) segment := by
    induction segment with
    | nil => exact ⟨rfl, covers_any_alone⟩
    | cons c rest inductionHypothesis =>
      rw [List.mem_cons, not_or] at noEscape
      obtain ⟨plain, starred⟩ := inductionHypothesis noEscape.2 fun d member => ascii d (List.mem_cons_of_mem _ member)
      by_cases star : c = '*'
      · subst star
        exact ⟨(covers_any_cons _).mpr (.inr starred), ⟨['*'], rest, rfl, plain⟩⟩
      · have one : ∀ mode, mode ≠ .escaped → readChar mode c = ([.lit c], .plain) := by
          intro mode open_
          by_cases percent : c = '%'
          · subst percent
            cases mode <;> first | rfl | exact absurd rfl open_
          by_cases underscore : c = '_'
          · subst underscore
            cases mode <;> first | rfl | exact absurd rfl open_
          have small := ascii c List.mem_cons_self
          simp [readChar, star, Ne.symm noEscape.1, percent, underscore, utf8EncodeChar_of_ascii small,
            byteChar_ofNat small]
        refine ⟨?_, [], c :: rest, rfl, ?_⟩
        · simpa [read, one .plain] using plain
        · simpa [read, one .starred] using plain
  exact both.1

end Segments

/-! ## What the prefilter loses -/

section Matching

variable {tokens : List (List Char)}

theorem matchTokens_self (noRest : ['*', '*'] ∉ tokens) : matchTokens tokens tokens := by
  induction tokens with
  | nil => rfl
  | cons token tokens inductionHypothesis =>
    rw [List.mem_cons, not_or] at noRest
    simpa [matchTokens, Ne.symm noRest.1] using inductionHypothesis noRest.2

/-- A final `**` also stands for no segment at all. -/
theorem matchTokens_without_rest (noRest : ['*', '*'] ∉ tokens) : matchTokens (tokens ++ [['*', '*']]) tokens := by
  induction tokens with
  | nil => rfl
  | cons token tokens inductionHypothesis =>
    rw [List.mem_cons, not_or] at noRest
    simpa [matchTokens, Ne.symm noRest.1] using inductionHypothesis noRest.2

/-- A `**` with something after it matches nothing. -/
theorem matchTokens_of_early (early : ['*', '*'] ∈ tokens.dropLast) (segments : List (List Char)) :
    matchTokens tokens segments = false := by
  induction tokens generalizing segments with
  | nil => cases early
  | cons token tokens inductionHypothesis =>
    cases tokens with
    | nil => cases early
    | cons next tokens =>
      rw [List.dropLast_cons_cons, List.mem_cons] at early
      by_cases isRest : token = ['*', '*']
      · simp [matchTokens, isRest]
      · have later := inductionHypothesis (early.resolve_left (Ne.symm isRest))
        cases segments with
        | nil => simp [matchTokens, isRest]
        | cons segment segments =>
          rw [matchTokens, if_neg isRest]
          simp only [later, ite_self]

end Matching

/-- `subject LIKE …`, as `events_by_subject` asks a database for it. -/
def accepts (dialect : Dialect) (pattern subject : String) : Bool :=
  like dialect (patternToSqlLike pattern).toList subject.toList

section Patterns

variable {pattern : String}

theorem matches_iff (nonempty : pattern ≠ "") (subject : String) :
    «matches» pattern subject ↔ matchTokens (splitSlash pattern.toList) (splitSlash subject.toList) := by
  simp [«matches», nonempty]

/-- A `**` that is not followed by anything is the last segment. -/
theorem rest_is_last {tokens : List (List Char)} (isRest : ['*', '*'] ∈ tokens) (notEarly : ['*', '*'] ∉ tokens.dropLast) :
    tokens = tokens.dropLast ++ [['*', '*']] := by
  rcases List.eq_nil_or_concat tokens with rfl | ⟨first, last, rfl⟩
  · cases isRest
  · rw [List.concat_eq_append, List.mem_append, List.mem_singleton] at isRest
    rw [List.concat_eq_append, List.dropLast_concat] at notEarly ⊢
    rw [← isRest.resolve_left notEarly]

/-- A pattern that ends in `/**` matches the path before it, which has a slash too few for `LIKE`. -/
theorem matched_not_accepted (nonempty : pattern ≠ "") {tokens : List (List Char)} (some_ : tokens ≠ [])
    (noRest : ['*', '*'] ∉ tokens) (isSplit : splitSlash pattern.toList = tokens ++ [['*', '*']]) :
    ∃ subject, «matches» pattern subject ∧ accepts .postgres pattern subject = false := by
  have clean : ∀ segment ∈ tokens, '/' ∉ segment := by
    intro segment member
    have within : segment ∈ splitSlash pattern.toList := by
      rw [isSplit]
      exact List.mem_append_left _ member
    exact clean_of_mem_splitSlash within
  have subjectSplit := splitSlash_joinSlash some_ clean
  refine ⟨String.ofList (joinSlash tokens), ?_, ?_⟩
  · rw [matches_iff nonempty, String.toList_ofList, subjectSplit, isSplit]
    exact matchTokens_without_rest noRest
  · rw [← Bool.not_eq_true, accepts, like_pattern_iff nonempty, String.toList_ofList]
    rintro ⟨-, covers⟩
    have fewer := covers.countP_le (· = '/')
    have slashes := length_splitSlash pattern.toList
    have subjectSlashes := length_splitSlash (joinSlash tokens)
    rw [isSplit, List.length_append, List.length_singleton] at slashes
    rw [subjectSplit] at subjectSlashes
    rw [slashes_read, countP_eq_count] at fewer
    omega

theorem accepts_everything (everything : pattern = "" ∨ pattern = "**") (subject : String) :
    accepts .postgres pattern subject := by
  rcases everything with rfl | rfl <;> exact (like_iff_covers _ _).mpr ⟨[.any], rfl, covers_any_alone⟩

/-- The prefilter accepts whatever the pattern matches exactly if the pattern is prefilterable. -/
theorem accepts_matched_iff (pattern : String) :
    (∀ subject, «matches» pattern subject → accepts .postgres pattern subject) ↔ Prefilterable pattern := by
  by_cases empty : pattern = ""
  · exact ⟨fun _ => .inl empty, fun _ subject _ => accepts_everything (.inl empty) subject⟩
  by_cases early : ['*', '*'] ∈ (splitSlash pattern.toList).dropLast
  · refine ⟨fun _ => .inr (.inr (.inl early)), fun _ subject matched => ?_⟩
    rw [matches_iff empty, matchTokens_of_early early] at matched
    cases matched
  by_cases isRest : ['*', '*'] ∈ splitSlash pattern.toList
  · have isSplit := rest_is_last isRest early
    by_cases alone : (splitSlash pattern.toList).dropLast = []
    · have everything : pattern = "**" := by
        rw [← String.toList_inj, ← joinSlash_splitSlash pattern.toList, isSplit, alone]
        rfl
      exact ⟨fun _ => .inr (.inl everything), fun _ subject _ => accepts_everything (.inr everything) subject⟩
    · obtain ⟨subject, matched, rejected⟩ := matched_not_accepted empty alone early isSplit
      constructor
      · intro sound
        exact absurd (sound subject matched) (by simp [rejected])
      · rintro (isEmpty | rfl | isEarly | ⟨noRest, -⟩)
        · exact absurd isEmpty empty
        · exact absurd rfl alone
        · exact absurd isEarly early
        · exact absurd isRest noRest
  · constructor
    · intro sound
      have self := sound pattern ((matches_iff empty pattern).mpr (matchTokens_self isRest))
      obtain ⟨closed, covers⟩ := (like_pattern_iff empty _).mp self
      exact .inr (.inr (.inr ⟨isRest, (covers_itself_iff _).mp covers, closed⟩))
    · rintro (isEmpty | rfl | isEarly | ⟨-, readable, closed⟩) subject matched
      · exact absurd isEmpty empty
      · exact absurd (by decide) isRest
      · exact absurd isEarly early
      · exact (like_pattern_iff empty _).mpr ⟨closed, covers_of_match isRest readable ((matches_iff empty subject).mp matched)⟩

end Patterns

/-- A journal entry under a subject. -/
def entryAbout (subject : String) : EventEntry where
  runId := ""
  seq := 0
  kind := ""
  payload := .null
  tsMs := 0
  globalSeq := 1
  subject := subject
  schemaVersion := 1
  traceId := ""
  spanId := ""
  parentSpanId := ""

/-- The two stages return what the matcher alone returns, whatever the entries, exactly if the first
    stage accepts whatever the second one does. -/
theorem two_stages_iff (pattern : String) :
    (∀ entries : List EventEntry, (entries.filter fun e => accepts .postgres pattern e.subject).filter
        (fun e => «matches» pattern e.subject) = entries.filter fun e => «matches» pattern e.subject) ↔
      ∀ subject, «matches» pattern subject → accepts .postgres pattern subject := by
  constructor
  · intro same subject matched
    have one := same [entryAbout subject]
    by_contra rejected
    simp [entryAbout, matched, rejected] at one
  · intro sound entries
    rw [List.filter_filter]
    refine List.filter_congr fun e _ => ?_
    by_cases matched : «matches» pattern e.subject
    · simp [matched, sound e.subject matched]
    · simp [matched]

/-- **The prefilter loses nothing** of a pattern exactly if the pattern is empty, is `**`, has a `**`
    before its last segment and so matches nothing, or has no `**` at all, each of its segments, read
    as `LIKE` text, covers itself, and it does not end in an escape. -/
theorem prefilter_sound_iff (pattern : String) :
    ((∀ subject, «matches» pattern subject → accepts .postgres pattern subject) ↔ Prefilterable pattern) ∧
    ((∀ entries : List EventEntry, (entries.filter fun e => accepts .postgres pattern e.subject).filter
        (fun e => «matches» pattern e.subject) = entries.filter fun e => «matches» pattern e.subject) ↔
      Prefilterable pattern) :=
  ⟨accepts_matched_iff pattern, (two_stages_iff pattern).trans (accepts_matched_iff pattern)⟩

example : accepts .postgres "/tape/value/changed/café" "/tape/value/changed/café" = false := by decide +kernel

/-- `/tape/**` matches `/tape`, which is not `LIKE '/tape/%'`. -/
theorem subject_itself_filtered_out :
    ¬ ∀ pattern subject, «matches» pattern subject → accepts .postgres pattern subject := by
  intro sound
  have accepted := sound "/tape/**" "/tape" (by decide +kernel)
  revert accepted
  decide +kernel

end Tape.Subjects
