import Tape.Wire

/-! # Subjects

`subjects.rs`: deriving the subject of a journal entry, matching it against a
pattern, and the coarse SQL `LIKE` prefilter for a pattern.

Subjects are `/`-separated paths.  In a pattern `*` stands for one segment and a
final `**` for any number of trailing segments.
-/

namespace Tape.Subjects

/-- `s.as_bytes()`. -/
def asBytes (s : String) : List UInt8 := s.toList.flatMap String.utf8EncodeChar

/-- `c as char` for a byte `c`: the code point of that number. -/
def byteChar (b : UInt8) : Char := Char.ofNat b.toNat

def hexDigit (n : Nat) : Char := if n < 10 then Char.ofNat (48 + n) else Char.ofNat (55 + n)

/-- The bytes `encode_segment` writes as `%XX`. -/
def needsEscape (b : UInt8) : Bool :=
  b = 0x2f || b = 0x20 || b = 0x2a || b = 0x25 || b = 0x3f || b = 0x23 || b = 0x5c || b < 0x20 || b = 0x7f

def encodeSegment (s : String) : String :=
  if s.isEmpty then "_"
  else String.ofList <| (asBytes s).flatMap fun b =>
    if needsEscape b then ['%', hexDigit (b.toNat / 16), hexDigit (b.toNat % 16)] else [byteChar b]

/-- The `(namespace, key)` of a value payload: nested under `"value"`, or at the top. -/
def valueDims (payload : Json) : String × String :=
  match payload.get? "value" with
  | some (.obj members) =>
    ((Json.obj members).strAt "namespace", (Json.obj members).strAt "key")
  | _ => (payload.strAt "namespace", payload.strAt "key")

/-- `subjects::derive`, over `str::to_lowercase`. -/
def deriveWith (toLowercase : String → String) (kind : String) (payload : Json) : String :=
  let segment (name : String) := encodeSegment (payload.strAt name)
  let status := toLowercase (payload.strAt "status")
  if kind = "run" then
    "/tape/run/" ++ status ++ "/" ++ segment "app" ++ "/" ++ segment "user" ++ "/" ++
      segment "session" ++ "/" ++ segment "run_id"
  else if kind = "decision" then
    "/tape/decision/recorded/" ++ segment "run_id" ++ "/" ++ toString (payload.intAt "decision_index")
  else if kind = "effect" then
    let verb := if status ∈ ["pending", "confirmed", "failed", "unknown", "reconciled"] then status
      else "pending"
    "/tape/effect/" ++ verb ++ "/" ++ segment "tool" ++ "/" ++ segment "run_id"
  else if kind = "obligation" then
    let verb := if status.isEmpty then "registered" else status
    "/tape/obligation/" ++ verb ++ "/" ++ segment "kind" ++ "/" ++ segment "run_id"
  else if kind = "gate" then
    let verb := if status.isEmpty then "waiting" else status
    "/tape/gate/" ++ verb ++ "/" ++ segment "gate" ++ "/" ++ segment "run_id"
  else if kind = "value" then
    let verb := match payload.get? "deleted" with
      | some (.bool true) => "deleted"
      | _ => "changed"
    "/tape/value/" ++ verb ++ "/" ++ encodeSegment (valueDims payload).1 ++ "/" ++
      encodeSegment (valueDims payload).2
  else if kind = "event" then
    "/tape/event/appended/" ++ segment "app" ++ "/" ++ segment "user" ++ "/" ++ segment "session"
  else "/tape/" ++ kind

/-- `subjects::derive` where the status is one of the store's own labels, all of them ASCII. -/
def derive : String → Json → String := deriveWith String.toLower

/-! ## Matching -/

/-- `split('/')`: never empty, one segment more than there are slashes. -/
def splitSlash : List Char → List (List Char)
  | [] => [[]]
  | c :: rest =>
    if c = '/' then [] :: splitSlash rest
    else match splitSlash rest with
      | [] => [[c]]
      | segment :: segments => (c :: segment) :: segments

/-- The loop of `subjects::matches` over the remaining tokens and segments. -/
def matchTokens : List (List Char) → List (List Char) → Bool
  | [], segments => segments.isEmpty
  | token :: tokens, segments =>
    if token = ['*', '*'] then tokens.isEmpty
    else match segments with
      | [] => false
      | segment :: segments =>
        if token = ['*'] || token = segment then matchTokens tokens segments else false

def «matches» (pattern subject : String) : Bool :=
  pattern.isEmpty || matchTokens (splitSlash pattern.toList) (splitSlash subject.toList)

/-! ## The `LIKE` prefilter -/

/-- The loop of `pattern_to_sql_like` over the remaining bytes.  `starred` says that
    the byte before was a `*` that may still absorb a second one. -/
def likeBytes (starred : Bool) : List UInt8 → List Char
  | [] => []
  | b :: rest =>
    if b = 0x2a then
      if starred then likeBytes false rest else '%' :: likeBytes true rest
    else if b = 0x25 || b = 0x5f then '\\' :: byteChar b :: likeBytes false rest
    else byteChar b :: likeBytes false rest

def patternToSqlLike (pattern : String) : String :=
  if pattern.isEmpty then "%" else String.ofList (likeBytes false (asBytes pattern))

/-- The two SQL dialects.  They compare characters differently in `LIKE`. -/
inductive Dialect where
  | sqlite | postgres
  deriving DecidableEq, Repr

/-- SQLite folds ASCII case in `LIKE`; Postgres does not. -/
def Dialect.sameChar : Dialect → Char → Char → Bool
  | .sqlite, a, b => a.toLower = b.toLower
  | .postgres, a, b => a = b

/-- Some suffix of `text` (the text itself included) meets `p`. -/
def anySuffix (p : List Char → Bool) : List Char → Bool
  | [] => p []
  | c :: rest => p (c :: rest) || anySuffix p rest

/-- `text LIKE pattern ESCAPE '\'`. -/
def like (dialect : Dialect) : List Char → List Char → Bool
  | [], text => text.isEmpty
  | '%' :: pattern, text => anySuffix (like dialect pattern) text
  | '_' :: pattern, text =>
    match text with
    | [] => false
    | _ :: text => like dialect pattern text
  | ['\\'], _ => false
  | '\\' :: c :: pattern, text =>
    match text with
    | [] => false
    | t :: text => dialect.sameChar c t && like dialect pattern text
  | c :: pattern, text =>
    match text with
    | [] => false
    | t :: text => dialect.sameChar c t && like dialect pattern text

example : «matches» "/a/*/b/**" "/a/x/b" = true := by decide +kernel

example : patternToSqlLike "/a_b/*/c" = "/a\\_b/%/c" := by decide +kernel

end Tape.Subjects
