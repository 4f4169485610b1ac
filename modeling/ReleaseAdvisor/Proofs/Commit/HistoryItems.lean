import Mathlib.Data.List.Forall2
import ReleaseAdvisor.Commit.History
import ReleaseAdvisor.Proofs.Json.Limits
import ReleaseAdvisor.Proofs.Result

/-!
# What a text says as a history

A history is read from a JSON array, item by item. An item is a message or a pair: an object that
has one header, which is text, and one body at most, which is text too. Whatever else stands in the
object does not matter. A single item that is neither refuses the whole text, wherever it stands, so
a history that is read has a commit for each item, in their order.

A blank text is refused with a fault of its own. This hides nothing, because no blank text is a
JSON text.
-/

namespace ReleaseAdvisor

namespace Json

/-! ## Members of an object -/

/-- An object whose only member with a certain name has a certain value. -/
structure HasOnce (members : List (String × Json)) (name : String) (value : Json) : Prop where
  mem : (name, value) ∈ members
  once : (members.map Prod.fst).count name = 1

variable {members : List (String × Json)} {name : String}

theorem length_filter_name (members : List (String × Json)) (name : String) :
    (members.filter (·.1 == name)).length = (members.map Prod.fst).count name := by
  rw [List.count, List.countP_map, List.countP_eq_length_filter]
  rfl

theorem member_eq_missing_iff : member members name = .missing ↔ name ∉ members.map Prod.fst := by
  rw [← List.count_eq_zero, ← length_filter_name, List.length_eq_zero_iff, member]
  generalize members.filter (·.1 == name) = named
  rcases named with _ | ⟨⟨key, value⟩, _ | ⟨second, others⟩⟩ <;> simp

theorem member_eq_present_iff {value : Json} :
    member members name = .present value ↔ HasOnce members name value := by
  constructor
  · intro present
    rw [member] at present
    split at present
    · contradiction
    · rename_i key only named
      cases present
      have inside : (key, value) ∈ members.filter (·.1 == name) := by
        simp [named]
      rcases List.mem_filter.mp inside with ⟨isMember, isNamed⟩
      obtain rfl : key = name := by
        simpa using isNamed
      refine ⟨isMember, ?_⟩
      rw [← length_filter_name, named]
      rfl
    · contradiction
  · rintro ⟨isMember, once⟩
    have inside : (name, value) ∈ members.filter (·.1 == name) := by
      simp [isMember]
    rw [← length_filter_name] at once
    rcases List.length_eq_one_iff.mp once with ⟨only, named⟩
    rw [named, List.mem_singleton] at inside
    rw [member, named, ← inside]

/-! ## Blank texts -/

theorem digit?_of_blank {character : Char} (blank : Text.isBlank character) :
    Lexer.digit? character = none := by
  rw [Lexer.digit?, if_neg]
  rintro ⟨fromZero, toNine⟩
  have lower : 48 ≤ character.toNat := fromZero
  have upper : character.toNat ≤ 57 := toNine
  simp only [Text.isBlank, Bool.or_eq_true, Bool.and_eq_true, decide_eq_true_eq, beq_iff_eq] at blank
  omega

/-- A blank character is skipped or stops the reader. -/
theorem start_of_blank {character : Char} (blank : Text.isBlank character) :
    Lexer.start character = some (.between, []) ∨ Lexer.start character = none := by
  unfold Lexer.start
  split <;> try contradiction
  rw [digit?_of_blank blank]
  by_cases isSpace : Lexer.isSpace character <;> simp [isSpace]

theorem tokensFrom?_of_blank {text : List Char} (blank : ∀ character ∈ text, Text.isBlank character)
    {tokens : List Token} (read : Lexer.tokensFrom? .between text = some tokens) : tokens = [] := by
  induction text with
  | nil => simpa [Lexer.tokensFrom?, Lexer.finish?] using read.symm
  | cons first rest ih =>
      rcases List.forall_mem_cons.mp blank with ⟨firstBlank, restBlank⟩
      have stepEq : Lexer.step .between first = Lexer.start first := rfl
      rcases start_of_blank firstBlank with skipped | stopped
      · rw [Lexer.tokensFrom?_of_silent_step (stepEq.trans skipped)] at read
        exact ih restBlank read
      · rw [Lexer.tokensFrom?, stepEq, stopped] at read
        contradiction

theorem not_blank_of_parse? {text : String} {value : Json} (read : parse? text = some value) :
    Text.isBlankString text = false := by
  by_contra notFalse
  have blank : ∀ character ∈ text.toList, Text.isBlank character := by
    simpa [Text.isBlankString] using notFalse
  rw [parse?, Option.bind_eq_bind, Option.bind_eq_some_iff] at read
  rcases read with ⟨document, isDocument, _⟩
  rw [Document.read?, Lexer.tokens?_eq_tokensFrom?, Option.bind_eq_bind, Option.bind_eq_some_iff]
    at isDocument
  rcases isDocument with ⟨tokens, tokensRead, finished⟩
  obtain rfl := tokensFrom?_of_blank blank tokensRead
  contradiction

end Json

namespace Commit

/-- An item of a history and the commit that it is: a message is split, and a pair is taken as it
stands. -/
inductive WrittenAs : Commit → Json → Prop where
  | message {text : String} : WrittenAs (ofMessage text) (.string text)
  | pair {members : List (String × Json)} {header body : String} :
      Json.HasOnce members "header" (.string header) →
        Json.HasOnce members "body" (.string body) → WrittenAs ⟨header, body⟩ (.object members)
  | bare {members : List (String × Json)} {header : String} :
      Json.HasOnce members "header" (.string header) →
        "body" ∉ members.map Prod.fst → WrittenAs ⟨header, ""⟩ (.object members)

theorem ofJson?_eq_some_iff {item : Json} {commit : Commit} :
    ofJson? item = some commit ↔ commit.WrittenAs item := by
  constructor
  · intro read
    unfold ofJson? at read
    split at read
    · cases read
      exact WrittenAs.message
    · split at read
      · rename_i members header headerRead bodyRead
        cases read
        exact WrittenAs.bare (Json.member_eq_present_iff.mp headerRead)
          (Json.member_eq_missing_iff.mp bodyRead)
      · rename_i members header body headerRead bodyRead
        cases read
        exact WrittenAs.pair (Json.member_eq_present_iff.mp headerRead)
          (Json.member_eq_present_iff.mp bodyRead)
      · contradiction
    · contradiction
  · intro written
    cases written with
    | message => rfl
    | pair headerOnce bodyOnce =>
        simp [ofJson?, Json.member_eq_present_iff.mpr headerOnce,
          Json.member_eq_present_iff.mpr bodyOnce]
    | bare headerOnce noBody =>
        simp [ofJson?, Json.member_eq_present_iff.mpr headerOnce,
          Json.member_eq_missing_iff.mpr noBody]

theorem mapM_ofJson?_eq_some_iff {items : List Json} {history : List Commit} :
    items.mapM ofJson? = some history ↔ List.Forall₂ WrittenAs history items := by
  have read : items.mapM ofJson? = some history ↔ List.Forall₂ (flip WrittenAs) items history :=
    List.mapM_eq_some_iff_forall₂ fun _ _ => ofJson?_eq_some_iff
  exact read.trans ⟨List.Forall₂.flip, List.Forall₂.flip⟩

theorem exists_writtenAs_iff {items : List Json} :
    (∃ history, List.Forall₂ WrittenAs history items) ↔
      ∀ item ∈ items, ∃ commit : Commit, commit.WrittenAs item := by
  have paired : (∃ history, List.Forall₂ (flip WrittenAs) items history) ↔
      ∀ item ∈ items, ∃ commit : Commit, commit.WrittenAs item :=
    List.exists_forall₂_iff
  rw [← paired]
  exact exists_congr fun _ => ⟨List.Forall₂.flip, List.Forall₂.flip⟩

theorem parseHistory_eq_ok_iff {text : String} {history : List Commit} :
    parseHistory text = .ok history ↔
      ∃ items, Json.parse? text = some (.array items) ∧ List.Forall₂ WrittenAs history items := by
  constructor
  · intro read
    unfold parseHistory at read
    split at read
    · contradiction
    · split at read
      · rename_i items isArray
        split at read
        · rename_i commits areCommits
          cases read
          exact ⟨items, isArray, mapM_ofJson?_eq_some_iff.mp areCommits⟩
        · contradiction
      · contradiction
  · rintro ⟨items, isArray, written⟩
    have notBlank := Json.not_blank_of_parse? isArray
    simp [parseHistory, notBlank, isArray, mapM_ofJson?_eq_some_iff.mpr written]

theorem parseHistory_eq_malformed_iff {text : String} (notBlank : Text.isBlankString text = false) :
    parseHistory text = .error .malformed ↔ ¬∃ history, parseHistory text = .ok history := by
  rw [parseHistory, if_neg (by simp [notBlank])]
  split
  · split <;> simp
  · simp

/-- Of the items of a text only the commits that they are matter. -/
theorem parseHistory_congr {text other : String} {items others : List Json}
    (isText : Json.parse? text = some (.array items))
    (isOther : Json.parse? other = some (.array others))
    (same : items.map ofJson? = others.map ofJson?) : parseHistory text = parseHistory other := by
  have sameCommits : items.mapM ofJson? = others.mapM ofJson? := by
    have asMap : ∀ list : List Json, list.mapM ofJson? = (list.map ofJson?).mapM id := by
      intro list
      rw [List.mapM_map]
      rfl
    rw [asMap, asMap, same]
  simp [parseHistory, Json.not_blank_of_parse? isText, Json.not_blank_of_parse? isOther, isText,
    isOther, sameCommits]

/-- A text is read as a history if it is an array of messages and pairs and nothing else, and then
it is read as the commits that these are, one by one. Otherwise it is refused as malformed,
whichever item is to blame. Only a blank text is refused as blank. -/
theorem history_read_whole_or_refused (text : String) :
    (Text.isBlankString text → parseHistory text = .error .blank) ∧
    (Text.isBlankString text = false →
      (∀ history, parseHistory text = .ok history ↔
        ∃ items, Json.parse? text = some (.array items) ∧ List.Forall₂ WrittenAs history items) ∧
      ((∃ history, parseHistory text = .ok history) ↔
        ∃ items, Json.parse? text = some (.array items) ∧
          ∀ item ∈ items, ∃ commit : Commit, commit.WrittenAs item) ∧
      ((¬∃ history, parseHistory text = .ok history) →
        parseHistory text = .error .malformed) ∧
      ∀ before item after, Json.parse? text = some (.array (before ++ item :: after)) →
        (∀ commit : Commit, ¬commit.WrittenAs item) → parseHistory text = .error .malformed) := by
  have succeeds : (∃ history, parseHistory text = .ok history) ↔
      ∃ items, Json.parse? text = some (.array items) ∧
        ∀ item ∈ items, ∃ commit : Commit, commit.WrittenAs item := by
    simp only [parseHistory_eq_ok_iff, ← exists_writtenAs_iff]
    constructor
    · rintro ⟨history, items, isArray, written⟩
      exact ⟨items, isArray, history, written⟩
    · rintro ⟨items, isArray, history, written⟩
      exact ⟨history, items, isArray, written⟩
  constructor
  · intro blank
    rw [parseHistory, if_pos blank]
  · intro notBlank
    have refused := parseHistory_eq_malformed_iff notBlank
    refine ⟨fun _ => parseHistory_eq_ok_iff, succeeds, refused.mpr, ?_⟩
    intro before item after isArray noCommit
    rw [refused, succeeds]
    rintro ⟨items, isOther, written⟩
    rw [isArray, Option.some.injEq, Json.array.injEq] at isOther
    subst isOther
    rcases written item (by simp) with ⟨commit, isCommit⟩
    exact noCommit commit isCommit

/-- A body that is `null` refuses the messages around it as well. -/
theorem history_read_whole_or_refused_null_body :
    let item : Json := .object [("header", .string "fix(b): d"), ("body", .null)]
    let text := (Json.array ([.string "fix(a): b"] ++ item :: [.string "feat(b): e"])).toLine
    Text.isBlankString "\n\u3000" ∧ parseHistory "\n\u3000" = .error .blank ∧
      Text.isBlankString text = false ∧ (∀ commit : Commit, ¬commit.WrittenAs item) ∧
      parseHistory text = .error .malformed := by
  intro item text
  have noCommit : ∀ commit : Commit, ¬commit.WrittenAs item := by
    intro commit written
    simp only [item] at written
    cases written with
    | pair _ bodyOnce => simpa using bodyOnce.mem
    | bare _ noBody => simp at noBody
  have itemWithin : Json.Within 126 item := by
    apply Json.Within.object
    simp [Json.Within.string, Json.Within.null]
  have isArray : Json.parse? text =
      some (.array ([.string "fix(a): b"] ++ item :: [.string "feat(b): e"])) := by
    apply Json.parse?_eq_some_iff.mpr
    refine ⟨Json.read?_toLine _, Json.Within.array ?_⟩
    simp [Json.Within.string, itemWithin]
  have blank : Text.isBlankString "\n\u3000" := by
    decide
  have notBlank := Json.not_blank_of_parse? isArray
  exact ⟨blank, (history_read_whole_or_refused _).1 blank, notBlank, noCommit,
    ((history_read_whole_or_refused text).2 notBlank).2.2.2 _ item _ isArray noCommit⟩

end Commit

end ReleaseAdvisor
