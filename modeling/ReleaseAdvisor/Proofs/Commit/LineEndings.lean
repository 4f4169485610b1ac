import Mathlib.Data.List.DropRight
import ReleaseAdvisor.Analysis.Report
import ReleaseAdvisor.Proofs.Commit.BreakingNotes
import ReleaseAdvisor.Proofs.Commit.MessageSplits

/-!
# Line endings

A message whose lines end in a carriage return and a line feed decides as the one with bare line
feeds. Three readers meet the carriage returns. The first line of a message loses those at its end;
the blank lines before the body go, whatever they are made of; so the body is the old body with a
carriage return before each line feed. Splitting the body into lines takes off one carriage return
from each line. A line may keep others that it had before, but a note is a keyword and a colon at
the start of a line, and a carriage return behind the line is neither.
-/

namespace ReleaseAdvisor

namespace Text

/-- The text with a carriage return before each line feed. -/
def addReturns (text : List Char) : List Char :=
  text.flatMap fun character => if character = '\n' then ['\r', '\n'] else [character]

def crlf (text : String) : String :=
  String.ofList (addReturns text.toList)

theorem addReturns_cons (first : Char) (rest : List Char) :
    addReturns (first :: rest) =
      (if first = '\n' then ['\r', '\n'] else [first]) ++ addReturns rest :=
  List.flatMap_cons

theorem addReturns_of_oneLine {line : List Char} (oneLine : '\n' ∉ line) :
    addReturns line = line := by
  induction line with
  | nil => rfl
  | cons first rest ih =>
      simp only [List.mem_cons, not_or] at oneLine
      rcases oneLine with ⟨notLineFeed, restOneLine⟩
      rw [addReturns_cons, if_neg (Ne.symm notLineFeed), ih restOneLine]
      rfl

theorem addReturns_lineFeed {line : List Char} (oneLine : '\n' ∉ line) (rest : List Char) :
    addReturns (line ++ '\n' :: rest) = (line ++ ['\r']) ++ '\n' :: addReturns rest := by
  have front : addReturns (line ++ '\n' :: rest) = addReturns line ++ addReturns ('\n' :: rest) :=
    List.flatMap_append
  rw [front, addReturns_of_oneLine oneLine, addReturns_cons, if_pos rfl]
  simp

/-- A test that does not mind a carriage return at the end of a line does not mind any that are put
there. -/
theorem any_pieces_addReturns {test : List Char → Bool}
    (stable : ∀ line, test (line ++ ['\r']) = test line) (text : List Char) :
    (List.splitOn '\n' (addReturns text)).any test = (List.splitOn '\n' text).any test := by
  induction text using pieces_induction '\n' with
  | last line oneLine => rw [addReturns_of_oneLine oneLine]
  | ended line rest oneLine ih =>
      have returnedOneLine : '\n' ∉ line ++ ['\r'] := by
        simp [oneLine]
      rw [addReturns_lineFeed oneLine, List.splitOn_append_cons_self_of_not_mem returnedOneLine,
        List.splitOn_append_cons_self_of_not_mem oneLine, List.any_cons, List.any_cons, stable, ih]

end Text

theorem BreakingNote.isIn_crlf (body : String) (keywords : List String) :
    isIn (Text.crlf body) keywords = isIn body keywords := by
  simp only [isIn_eq_any_pieces, Text.crlf, String.toList_ofList]
  apply Text.any_pieces_addReturns
  intro line
  simp only [opensWith_return]

namespace Commit

theorem dropWhile_addReturns (body : List Char) :
    (Text.addReturns body).dropWhile isLineBreak =
      Text.addReturns (body.dropWhile isLineBreak) := by
  induction body with
  | nil => rfl
  | cons first rest ih =>
      rw [Text.addReturns_cons]
      by_cases isLineFeed : first = '\n'
      · subst first
        simpa [isLineBreak] using ih
      · by_cases isReturn : first = '\r'
        · subst first
          simpa [isLineBreak] using ih
        · simp [isLineFeed, isReturn, isLineBreak, Text.addReturns_cons]

theorem splitMessage_addReturns (message : List Char) :
    splitMessage (Text.addReturns message) =
      ((splitMessage message).1, Text.addReturns (splitMessage message).2) := by
  by_cases ended : '\n' ∈ message
  · rcases List.eq_append_cons_of_mem ended with ⟨header, body, rfl, oneLine⟩
    have returnedOneLine : '\n' ∉ header ++ ['\r'] := by
      simp [oneLine]
    rw [Text.addReturns_lineFeed oneLine, splitMessage_lineFeed returnedOneLine,
      splitMessage_lineFeed oneLine, dropWhile_addReturns, Text.dropEndWhile_eq_rdropWhile,
      List.rdropWhile_concat_pos _ _ _ rfl]
    rfl
  · rw [Text.addReturns_of_oneLine ended, splitMessage_of_oneLine ended]
    rfl

/-- The commit with a carriage return before each line feed of its body. -/
def crlf (commit : Commit) : Commit :=
  { commit with body := Text.crlf commit.body }

theorem ofMessage_crlf (message : String) :
    ofMessage (Text.crlf message) = (ofMessage message).crlf := by
  simp only [ofMessage, crlf, Text.crlf, String.toList_ofList, splitMessage_addReturns]

example : ofMessage (Text.crlf "fix(a): b\n\nBREAKING CHANGE: c\nd") =
    ⟨"fix(a): b", "BREAKING CHANGE: c\r\nd"⟩ := by
  decide

end Commit

/-- The narrowed commit with a carriage return before each line feed of its body. -/
def ScopedCommit.crlf (own : ScopedCommit) : ScopedCommit :=
  { own with body := Text.crlf own.body }

def JudgedCommit.crlf (judged : JudgedCommit) : JudgedCommit :=
  { judged with commit := judged.commit.crlf }

theorem Commit.narrow?_crlf (commit : Commit) (scope : String) :
    commit.crlf.narrow? scope = (commit.narrow? scope).map (·.crlf) := by
  simp only [narrow?, crlf]
  cases Header.parse? commit.header with
  | none => rfl
  | some header =>
      by_cases declared : scope ∈ header.scopes
      · simp [declared, ScopedCommit.crlf]
      · simp [declared]

theorem RuleSet.classify_crlf (rules : RuleSet) (own : ScopedCommit) :
    rules.classify own.crlf = rules.classify own := by
  have admits : ∀ rule : Rule,
      rule.admits rules.keywords own.crlf = rule.admits rules.keywords own := by
    intro rule
    simp only [Rule.admits, ScopedCommit.crlf, BreakingNote.isIn_crlf]
  simp only [classify, admits]

theorem RuleSet.judge_crlf (rules : RuleSet) (scope : String) (history : List Commit) :
    rules.judge scope (history.map (·.crlf)) = (rules.judge scope history).map (·.crlf) := by
  simp only [judge, ScopedCommit.select, List.filterMap_map, List.map_filterMap,
    Function.comp_def, Commit.narrow?_crlf, Option.map_map, classify_crlf, JudgedCommit.crlf]

/-- A message and the same message with a carriage return before each line feed give commits with
the same header, which concern the same scopes and differ in nothing but the line endings of the
body. Both or neither carry a note, whatever the keywords are, so every rule set says the same of
them. Hence a module reports the same of a list of messages in either form: the same commits but for
their line endings, the same verdict on each, and the same decision. -/
theorem line_endings_never_decide :
    (∀ message : String,
      let plain := Commit.ofMessage message
      let returned := Commit.ofMessage (Text.crlf message)
      returned.header = plain.header ∧
      (∀ keywords,
        BreakingNote.isIn returned.body keywords = BreakingNote.isIn plain.body keywords) ∧
      ∀ scope,
        returned.narrow? scope = (plain.narrow? scope).map (·.crlf) ∧
        ∀ rules : RuleSet,
          (returned.narrow? scope).map rules.classify =
            (plain.narrow? scope).map rules.classify) ∧
    (∀ (module : Module) (messages : List String),
      let plain := module.analyze (messages.map Commit.ofMessage)
      let returned := module.analyze (messages.map fun message =>
        Commit.ofMessage (Text.crlf message))
      returned = { plain with commits := plain.commits.map (·.crlf) } ∧
      returned.commits.map (·.verdict) = plain.commits.map (·.verdict) ∧
      returned.decision = plain.decision) := by
  constructor
  · intro message plain returned
    have inBodyOnly : returned = plain.crlf := Commit.ofMessage_crlf message
    rw [inBodyOnly]
    refine ⟨rfl, BreakingNote.isIn_crlf plain.body, ?_⟩
    intro scope
    refine ⟨plain.narrow?_crlf scope, ?_⟩
    intro rules
    have classified : (rules.classify ∘ fun own => own.crlf) = rules.classify :=
      funext rules.classify_crlf
    rw [plain.narrow?_crlf, Option.map_map, classified]
  · intro module messages plain returned
    have history : (messages.map fun message => Commit.ofMessage (Text.crlf message)) =
        (messages.map Commit.ofMessage).map (·.crlf) := by
      simp only [List.map_map, Function.comp_def, Commit.ofMessage_crlf]
    have commits : returned.commits = plain.commits.map (·.crlf) := by
      simp only [returned, plain, Module.analyze, history, RuleSet.judge_crlf]
    have verdicts : returned.commits.map (·.verdict) = plain.commits.map (·.verdict) := by
      rw [commits, List.map_map]
      rfl
    have decision : returned.decision = plain.decision := by
      have levels := congrArg (List.map (·.level)) verdicts
      simp only [List.map_map] at levels
      exact congrArg Level.highest levels
    refine ⟨?_, verdicts, decision⟩
    rw [← commits, ← decision]
    rfl

end ReleaseAdvisor
