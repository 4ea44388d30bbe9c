import Tape.Subjects.Identity

/-! # Reaction patterns

`reactions.py`: the helpers that build the subject pattern of a reaction from a namespace, key,
tool or gate.  They percent-encode with `urllib.parse.quote`, and the server with a list of its own:
the two agree on what both keep and on what both escape.
-/

namespace Tape.Sdk

open Subjects

/-- The bytes `urllib.parse.quote` keeps: ASCII letters and digits, and `_.-~`. -/
def isUnreserved (b : UInt8) : Bool :=
  (0x41 ≤ b && b ≤ 0x5a) || (0x61 ≤ b && b ≤ 0x7a) || (0x30 ≤ b && b ≤ 0x39) ||
    b = 0x5f || b = 0x2e || b = 0x2d || b = 0x7e

/-- `urllib.parse.quote(s, safe="")`. -/
def quote (s : String) : String :=
  String.ofList <| (asBytes s).flatMap fun b =>
    if isUnreserved b then [byteChar b] else ['%', hexDigit (b.toNat / 16), hexDigit (b.toNat % 16)]

/-- `_seg`. -/
def seg (s : String) : String := if s = "*" ∨ s = "**" then s else quote s

/-- `on_value_change` and `on_value_deleted`. -/
def onValue (verb «namespace» key : String) : String :=
  "/tape/value/" ++ verb ++ "/" ++ seg «namespace» ++ "/" ++ seg key

def onValueChange («namespace» : String) (key : String := "*") : String := onValue "changed" «namespace» key

def onValueDeleted («namespace» : String) (key : String := "*") : String := onValue "deleted" «namespace» key

/-- `on_effect_confirmed`, `on_effect_failed` and `on_effect_unknown`. -/
def onEffect (verb tool : String) : String := "/tape/effect/" ++ verb ++ "/" ++ seg tool ++ "/**"

def onEffectConfirmed (tool : String := "*") : String := onEffect "confirmed" tool

def onEffectFailed (tool : String := "*") : String := onEffect "failed" tool

def onEffectUnknown (tool : String := "*") : String := onEffect "unknown" tool

def onGate (gate : String) (verb : String := "released") : String :=
  "/tape/gate/" ++ seg verb ++ "/" ++ seg gate ++ "/**"

/-! ## The subjects the patterns are for -/

/-- The subject of the entry that `write_value` or `delete_value` journals. -/
def valueSubject (deleted : Bool) («namespace» key : String) : String :=
  derive "value" (.obj ([("namespace", .str «namespace»), ("key", .str key)] ++
    if deleted then [("deleted", .bool true)] else []))

/-- The subject of an entry about a gate. -/
def gateSubject (status gate runId : String) : String :=
  derive "gate" (.obj [("gate", .str gate), ("status", .str status), ("run_id", .str runId)])

/-- Neither wildcard. -/
def Literal (s : String) : Prop := s ≠ "*" ∧ s ≠ "**"

/-- Server and SDK write the name alike, and no other name like it: it has no character that only one
    of them escapes, is not empty, and is not what the server writes for the empty name. -/
def Agreed (s : String) : Prop :=
  s ≠ "" ∧ s ≠ "_" ∧ ∀ b ∈ asBytes s, isUnreserved b = !needsEscape b

instance (s : String) : Decidable (Agreed s) := inferInstanceAs (Decidable (_ ∧ _ ∧ _))

/-! ## Two encoders -/

section Encoders

theorem toList_quote (s : String) : (quote s).toList = (asBytes s).flatMap (escapeByte fun b => !isUnreserved b) := by
  rw [quote, String.toList_ofList]
  refine congrArg (fun code => (asBytes s).flatMap code) (funext fun b => ?_)
  cases kept : isUnreserved b <;> simp [escapeByte, kept]

theorem clean_quote (s : String) : '/' ∉ (quote s).toList ∧ '*' ∉ (quote s).toList := by
  rw [toList_quote]
  exact clean_escapeBytes rfl rfl (asBytes s)

/-- What the SDK writes for `s` is what the server writes for `t`. -/
theorem quote_eq_iff (s t : String) : quote s = encodeSegment t ↔
    (s = t ∧ s ≠ "" ∧ ∀ b ∈ asBytes s, isUnreserved b = !needsEscape b) ∨ (s = "_" ∧ t = "") := by
  have alike : ∀ b, (!isUnreserved b) = needsEscape b ↔ isUnreserved b = !needsEscape b := by
    intro b
    cases isUnreserved b <;> cases needsEscape b <;> decide
  by_cases empty : t = ""
  · have underscore : quote "_" = "_" := by decide +kernel
    subst empty
    rw [encodeSegment_empty]
    constructor
    · intro same
      have codes := congrArg String.toList (same.trans underscore.symm)
      rw [toList_quote, toList_quote, escapeBytes_eq_iff rfl rfl] at codes
      exact .inr ⟨asBytes_inj codes.1, rfl⟩
    · rintro (⟨rfl, nonempty, -⟩ | ⟨rfl, -⟩)
      · exact absurd rfl nonempty
      · exact underscore
  · rw [← String.toList_inj, toList_quote, toList_encodeSegment empty, escapeBytes_eq_iff rfl rfl]
    simp only [alike, empty, and_false, or_false]
    constructor
    · rintro ⟨bytes, treated⟩
      obtain rfl := asBytes_inj bytes
      exact ⟨rfl, empty, treated⟩
    · rintro ⟨rfl, -, treated⟩
      exact ⟨rfl, treated⟩

/-- The patterns of a name select it alone exactly if the name is agreed. -/
theorem agreed_iff (s : String) : (∀ t, quote s = encodeSegment t ↔ s = t) ↔ Agreed s := by
  simp only [quote_eq_iff]
  constructor
  · intro alone
    have nonempty : s ≠ "" := by
      rintro rfl
      simpa using (alone "").mpr rfl
    have treated := (alone s).mpr rfl
    simp only [nonempty, and_false, or_false, true_and, ne_eq] at treated
    refine ⟨nonempty, ?_, treated.2⟩
    rintro rfl
    exact absurd ((alone "").mp (.inr ⟨rfl, rfl⟩)) (by decide)
  · rintro ⟨nonempty, notUnderscore, treated⟩ t
    simp only [nonempty, notUnderscore, false_and, or_false, ne_eq, not_false_eq_true, true_and, and_iff_left_iff_imp]
    exact fun _ => treated

end Encoders

/-! ## Patterns and subjects -/

section Patterns

variable {verb «namespace» key name : String}

theorem seg_literal (literal : Literal name) : seg name = quote name := if_neg (not_or.mpr literal)

theorem seg_of_clean (noStar : '*' ∉ name.toList) : seg name = quote name := by
  refine seg_literal ⟨?_, ?_⟩
  · rintro rfl
    exact noStar (by decide)
  · rintro rfl
    exact noStar (by decide)

theorem isLiteral_quote (name : String) : IsLiteral (quote name).toList := isLiteral_of_clean (clean_quote name).2

/-- The pattern of a value matches the entries of that verb whose names the server writes like the SDK. -/
theorem matches_onValue_iff (segment : IsSegment verb.toList) (literalNamespace : Literal «namespace»)
    (literalKey : Literal key) (payload : Json) :
    «matches» (onValue verb «namespace» key) (derive "value" payload) ↔
      Kind.verb String.toLower .value payload = verb ∧ quote «namespace» = encodeSegment (valueDims payload).1 ∧
        quote key = encodeSegment (valueDims payload).2 := by
  have fits : Kind.StatusFits String.toLower .value payload := trivial
  have isSplit := splitSlash_of_fits fits
  have isDerived : derive "value" payload = deriveWith String.toLower Kind.value.name payload := rfl
  have spelled : onValue verb «namespace» key = String.ofList (joinSlash ([] ::
      ["tape".toList, "value".toList, verb.toList, (quote «namespace»).toList, (quote key).toList])) := by
    rw [← String.toList_inj, onValue, seg_literal literalNamespace, seg_literal literalKey, String.toList_ofList]
    simp [joinSlash]
  rw [spelled, matches_path (by simp), isDerived, isSplit]
  · simp only [Kind.name, tailSegments, Kind.names, Kind.index, List.cons.injEq, true_and, List.map_cons, List.map_nil,
      Option.toList_none, List.append_nil, and_true, String.toList_inj]
    simp only [eq_comm]
  · simp [segment.2.1, (clean_quote «namespace»).1, (clean_quote key).1]
  · simp only [List.forall_mem_cons]
    exact ⟨isLiteral_of_clean (by decide), isLiteral_of_clean (by decide), isLiteral_of_clean segment.2.2,
      isLiteral_quote «namespace», isLiteral_quote key, by simp⟩

/-- A pattern that fixes verb and first name, and leaves the rest open. -/
theorem matches_open_iff {kind : Kind} {payload : Json} {pattern first : String} {others : List String}
    (fits : kind.StatusFits String.toLower payload) (dims : kind.names payload = first :: others)
    (segment : IsSegment verb.toList) (spelled : pattern.toList = joinSlash ([] ::
      ["tape".toList, kind.name.toList, verb.toList, (quote name).toList] ++ [['*', '*']])) :
    «matches» pattern (deriveWith String.toLower kind.name payload) ↔
      kind.verb String.toLower payload = verb ∧ quote name = encodeSegment first := by
  have nameFits : IsSegment kind.name.toList := by cases kind <;> simp [IsSegment, Kind.name]
  have isSplit := splitSlash_of_fits fits
  have isPattern : pattern = String.ofList _ := String.toList_inj.mp (spelled.trans String.toList_ofList.symm)
  rw [isPattern, matches_path_rest (by simp), isSplit]
  · simp [tailSegments, dims, String.toList_inj, eq_comm]
  · simp [nameFits.2.1, segment.2.1, (clean_quote name).1]
  · simp only [List.forall_mem_cons]
    exact ⟨isLiteral_of_clean (by decide), isLiteral_of_clean nameFits.2.2, isLiteral_of_clean segment.2.2,
      isLiteral_quote name, by simp⟩

theorem matches_onEffect_iff (segment : IsSegment verb.toList) (literal : Literal name) (payload : Json) :
    «matches» (onEffect verb name) (derive "effect" payload) ↔
      Kind.verb String.toLower .effect payload = verb ∧ quote name = encodeSegment (payload.strAt "tool") := by
  have fits : Kind.StatusFits String.toLower .effect payload := trivial
  have spelled : (onEffect verb name).toList = joinSlash ([] ::
      ["tape".toList, Kind.effect.name.toList, verb.toList, (quote name).toList] ++ [['*', '*']]) := by
    rw [onEffect, seg_literal literal]
    simp [joinSlash, Kind.name]
  have isDerived : derive "effect" payload = deriveWith String.toLower Kind.effect.name payload := rfl
  rw [isDerived]
  exact matches_open_iff fits rfl segment spelled

theorem matches_onGate_iff {status gate : String} (segment : IsSegment verb.toList) (plain : quote verb = verb)
    (isStatus : status.toLower = status) (statusFits : IsSegment status.toList) (literal : Literal name)
    (runId : String) :
    «matches» (onGate name verb) (gateSubject status gate runId) ↔ status = verb ∧ quote name = encodeSegment gate := by
  have isLabel : (Json.obj [("gate", .str gate), ("status", .str status), ("run_id", .str runId)]).strAt "status" =
    status := by simp [Json.strAt, Json.get?]
  have fits : Kind.StatusFits String.toLower .gate
      (.obj [("gate", .str gate), ("status", .str status), ("run_id", .str runId)]) := by
    simp only [Kind.StatusFits, isLabel, isStatus]
    exact statusFits.2
  have isVerb : Kind.verb String.toLower .gate
      (.obj [("gate", .str gate), ("status", .str status), ("run_id", .str runId)]) = status := by
    simp only [Kind.verb, isLabel, isStatus]
    exact if_neg (by simpa using statusFits.1)
  have spelled : (onGate name verb).toList = joinSlash ([] ::
      ["tape".toList, Kind.gate.name.toList, verb.toList, (quote name).toList] ++ [['*', '*']]) := by
    rw [onGate, seg_of_clean segment.2.2, plain, seg_literal literal]
    simp [joinSlash, Kind.name]
  have isDerived : gateSubject status gate runId = deriveWith String.toLower Kind.gate.name
    (.obj [("gate", .str gate), ("status", .str status), ("run_id", .str runId)]) := rfl
  rw [isDerived, matches_open_iff fits rfl segment spelled, isVerb]
  simp [Json.strAt, Json.get?]

end Patterns

/-! ## Agreement -/

/-- The builder's pattern matches the entry of the value and no entry of another value. -/
def SelectsValue (deleted : Bool) («namespace» key : String) : Prop :=
  let pattern := if deleted then onValueDeleted «namespace» key else onValueChange «namespace» key
  «matches» pattern (valueSubject deleted «namespace» key) ∧
    ∀ other namespace' key', «matches» pattern (valueSubject other namespace' key') → (namespace', key') = («namespace», key)

/-- The pattern matches the effects of the tool under the verb, whatever else their entries carry, and
    nothing else. -/
def SelectsEffects (pattern verb tool : String) : Prop :=
  ∀ payload, «matches» pattern (derive "effect" payload) ↔
    Kind.verb String.toLower .effect payload = verb ∧ payload.strAt "tool" = tool

/-- The builder's pattern matches the entries of the gate under the verb, of whatever run, and nothing
    else. -/
def SelectsGate (verb gate : String) : Prop :=
  ∀ status ∈ ["waiting", "released"], ∀ gate' runId,
    «matches» (onGate gate verb) (gateSubject status gate' runId) ↔ status = verb ∧ gate' = gate

section Agreement

variable {deleted : Bool} {«namespace» key verb tool gate : String}

theorem matches_valueSubject_iff (literalNamespace : Literal «namespace») (literalKey : Literal key) (other : Bool)
    (namespace' key' : String) :
    «matches» (if deleted then onValueDeleted «namespace» key else onValueChange «namespace» key)
        (valueSubject other namespace' key') ↔
      other = deleted ∧ quote «namespace» = encodeSegment namespace' ∧ quote key = encodeSegment key' := by
  have changed : IsSegment "changed".toList := by simp [IsSegment]
  have removed : IsSegment "deleted".toList := by simp [IsSegment]
  have asChange := matches_onValue_iff changed literalNamespace literalKey
  have asDelete := matches_onValue_iff removed literalNamespace literalKey
  cases deleted <;> cases other <;>
    simp [onValueChange, onValueDeleted, valueSubject, asChange, asDelete, Kind.verb, Kind.isDeleted, valueDims,
      Json.get?, Json.strAt]

theorem selectsValue_iff (literalNamespace : Literal «namespace») (literalKey : Literal key) :
    SelectsValue deleted «namespace» key ↔ Agreed «namespace» ∧ Agreed key := by
  simp only [SelectsValue, matches_valueSubject_iff literalNamespace literalKey, true_and, ← agreed_iff]
  constructor
  · rintro ⟨⟨ownNamespace, ownKey⟩, alone⟩
    refine ⟨fun t => ⟨fun same => ?_, fun same => same ▸ ownNamespace⟩, fun t => ⟨fun same => ?_, fun same => same ▸ ownKey⟩⟩
    · exact (congrArg Prod.fst (alone deleted t key ⟨rfl, same, ownKey⟩)).symm
    · exact (congrArg Prod.snd (alone deleted «namespace» t ⟨rfl, ownNamespace, same⟩)).symm
  · rintro ⟨namespaces, keys⟩
    refine ⟨⟨(namespaces _).mpr rfl, (keys _).mpr rfl⟩, ?_⟩
    rintro other namespace' key' ⟨-, sameNamespace, sameKey⟩
    rw [(namespaces _).mp sameNamespace, (keys _).mp sameKey]

theorem selectsEffects_iff (listed : verb ∈ ["confirmed", "failed", "unknown"]) (literal : Literal tool) :
    SelectsEffects (onEffect verb tool) verb tool ↔ Agreed tool := by
  simp only [List.mem_cons, List.not_mem_nil, or_false] at listed
  have segment : IsSegment verb.toList := by
    rcases listed with rfl | rfl | rfl <;> simp [IsSegment]
  have known : verb.toLower = verb ∧ verb ∈ ["pending", "confirmed", "failed", "unknown", "reconciled"] := by
    rcases listed with rfl | rfl | rfl <;> decide +kernel
  simp only [SelectsEffects, matches_onEffect_iff segment literal, and_congr_right_iff, ← agreed_iff]
  constructor
  · intro selects t
    -- an entry of that verb for each tool
    have isLabel : (Json.obj [("tool", .str t), ("status", .str verb)]).strAt "status" = verb := by
      simp [Json.strAt, Json.get?]
    have isVerb : Kind.verb String.toLower .effect (.obj [("tool", .str t), ("status", .str verb)]) = verb := by
      simp only [Kind.verb, isLabel, known.1]
      exact if_pos known.2
    have one := selects (.obj [("tool", .str t), ("status", .str verb)]) isVerb
    simpa [Json.strAt, Json.get?, eq_comm] using one
  · intro alone payload _
    rw [alone, eq_comm]

theorem selectsGate_iff (listed : verb ∈ ["waiting", "released"]) (literal : Literal gate) :
    SelectsGate verb gate ↔ Agreed gate := by
  have fits : ∀ status ∈ ["waiting", "released"], IsSegment status.toList ∧ status.toLower = status ∧
      quote status = status := by
    simp only [List.mem_cons, List.not_mem_nil, or_false, forall_eq_or_imp, forall_eq]
    refine ⟨⟨by simp [IsSegment], by decide +kernel, by decide +kernel⟩, by simp [IsSegment], by decide +kernel,
      by decide +kernel⟩
  have matched : ∀ status ∈ ["waiting", "released"], ∀ gate' runId,
      «matches» (onGate gate verb) (gateSubject status gate' runId) ↔ status = verb ∧ quote gate = encodeSegment gate' :=
    fun status member gate' runId => matches_onGate_iff (fits verb listed).1 (fits verb listed).2.2
      (fits status member).2.1 (fits status member).1 literal runId
  rw [← agreed_iff]
  constructor
  · intro selects t
    have one := selects verb listed t "r"
    rw [matched verb listed] at one
    simpa [eq_comm] using one
  · intro alone status member gate' runId
    rw [matched status member, alone]
    simp [eq_comm]

end Agreement

/-- **Patterns and subjects agree** on a name exactly if SDK and server encode it alike and nothing else
    like it: for values both in the namespace and in the key, for effects in the tool, for gates in the
    gate. -/
theorem reaction_patterns_select_iff (deleted : Bool) («namespace» key tool gate : String) :
    (Literal «namespace» → Literal key →
      (SelectsValue deleted «namespace» key ↔ Agreed «namespace» ∧ Agreed key)) ∧
    (Literal tool →
      (SelectsEffects (onEffectConfirmed tool) "confirmed" tool ↔ Agreed tool) ∧
      (SelectsEffects (onEffectFailed tool) "failed" tool ↔ Agreed tool) ∧
      (SelectsEffects (onEffectUnknown tool) "unknown" tool ↔ Agreed tool)) ∧
    ∀ verb ∈ ["waiting", "released"], Literal gate → (SelectsGate verb gate ↔ Agreed gate) := by
  refine ⟨fun literalNamespace literalKey => selectsValue_iff literalNamespace literalKey,
    fun literal => ⟨?_, ?_, ?_⟩, fun verb listed literal => selectsGate_iff listed literal⟩
  · exact selectsEffects_iff (.head _) literal
  · exact selectsEffects_iff (.tail _ (.head _)) literal
  · exact selectsEffects_iff (.tail _ (.tail _ (.head _))) literal

/-- A namespace with a space and a key with a slash, which both sides escape. -/
theorem escaped_by_both : SelectsValue false "spot rates" "eur/usd" :=
  ((reaction_patterns_select_iff false "spot rates" "eur/usd" "" "").1 ⟨by decide, by decide⟩ ⟨by decide, by decide⟩).mpr
    ⟨by decide +kernel, by decide +kernel⟩

/-- The SDK escapes a colon and an accent, and the server does not; and the server's name for the empty
    key is another key's. -/
theorem escaped_by_one :
    ¬ «matches» (onValueChange "fx" "eur:usd") (valueSubject false "fx" "eur:usd") ∧
      ¬ «matches» (onEffectConfirmed "café") (derive "effect" (.obj
        [("tool", .str "café"), ("status", .str "confirmed"), ("run_id", .str "r")])) ∧
      «matches» (onValueChange "fx" "_") (valueSubject false "fx" "") := by
  decide +kernel

end Tape.Sdk
