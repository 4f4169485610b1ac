import ReleaseAdvisor.Analysis.Summary
import ReleaseAdvisor.Proofs.Analysis.HistoryParts
import ReleaseAdvisor.Proofs.Commit.MessageSplits
import ReleaseAdvisor.Proofs.Text.OneLine

/-!
# Lines of a summary

The header of a commit that was split from a message has no line feed. Reading it takes a type of
letters, digits and underscores and a subject that ends with the line, so the header under which a
module sees the commit has none either if the scope has none. These two headers and a level are all
that a summary shows of a commit. So every commit takes one line, and the lines of the summary are
told apart by their line feeds: a heading, a line for each of the first commits, and a line that
counts the others.
-/

namespace ReleaseAdvisor

theorem Commit.isOneLine_header_ofMessage (message : String) :
    Text.IsOneLine (ofMessage message).header := by
  by_cases ended : '\n' ∈ message.toList
  · exact (exists_joined_ofMessage ended).1.header_oneLine
  · rw [ofMessage_of_oneLine ended]
    exact ended

theorem Header.WellFormed.isOneLine_narrowed {header : Header} (wellFormed : header.WellFormed)
    {scope : String} (scopeLine : Text.IsOneLine scope) :
    Text.IsOneLine (narrowed header.type scope header.subject) := by
  have typeLine : Text.IsOneLine header.type := by
    intro lineFeedMem
    have isTypeCharacter := wellFormed.typeCharacters '\n' lineFeedMem
    contradiction
  have subjectLine : Text.IsOneLine header.subject := wellFormed.subject.oneLine
  have openLine : Text.IsOneLine "(" := Text.isOneLine_ofList (by decide)
  have closeLine : Text.IsOneLine "): " := Text.isOneLine_ofList (by decide)
  simp only [narrowed, Text.isOneLine_append, typeLine, openLine, scopeLine, closeLine,
    subjectLine, and_self]

theorem Commit.isOneLine_of_narrow? {commit : Commit} {scope : String} {own : ScopedCommit}
    (narrowed : commit.narrow? scope = some own) (scopeLine : Text.IsOneLine scope)
    (headerLine : Text.IsOneLine commit.header) :
    Text.IsOneLine own.header ∧ Text.IsOneLine own.writtenHeader := by
  rcases narrow?_eq_some_iff.mp narrowed with ⟨header, parsed, _, rfl⟩
  have wellFormed := Header.wellFormed_of_parse? parsed
  exact ⟨wellFormed.isOneLine_narrowed scopeLine, headerLine⟩

theorem Level.isOneLine_name (level : Level) : Text.IsOneLine level.name := by
  cases level <;> exact Text.isOneLine_ofList (by decide)

namespace Report

theorem isOneLine_heading {report : Report} (titleLine : Text.IsOneLine report.identity.title)
    (scopeLine : Text.IsOneLine report.identity.commitScope)
    (prefixLine : Text.IsOneLine report.identity.tagPrefix) :
    Text.IsOneLine (report.heading false) := by
  have openLine : Text.IsOneLine " (" := Text.isOneLine_ofList (by decide)
  have tagLine : Text.IsOneLine ", tag prefix " := Text.isOneLine_ofList (by decide)
  have closeLine : Text.IsOneLine "): " := Text.isOneLine_ofList (by decide)
  simp only [heading, styled, Bool.false_eq_true, if_false, Text.isOneLine_append, titleLine,
    openLine, scopeLine, tagLine, prefixLine, closeLine, report.decision.isOneLine_name, and_self]

theorem isOneLine_commitLine {judged : JudgedCommit}
    (headerLine : Text.IsOneLine judged.commit.header)
    (writtenLine : Text.IsOneLine judged.commit.writtenHeader) :
    Text.IsOneLine (commitLine judged) := by
  have openLine : Text.IsOneLine "  [" := Text.isOneLine_ofList (by decide)
  have closeLine : Text.IsOneLine "] " := Text.isOneLine_ofList (by decide)
  have fromLine : Text.IsOneLine " (from: " := Text.isOneLine_ofList (by decide)
  have endLine : Text.IsOneLine ")" := Text.isOneLine_ofList (by decide)
  have written : Text.IsOneLine
      (if judged.commit.writtenHeader = judged.commit.header then ""
      else " (from: " ++ judged.commit.writtenHeader ++ ")") := by
    split
    · exact Text.isOneLine_ofList (by decide)
    · simp only [Text.isOneLine_append, fromLine, writtenLine, endLine, and_self]
  simp only [commitLine, Text.isOneLine_append, openLine, judged.verdict.level.isOneLine_name,
    closeLine, headerLine, written, and_self]

theorem isOneLine_countLine (others : Nat) :
    Text.IsOneLine ("  ... and " ++ toString others ++ " more commits") := by
  have andLine : Text.IsOneLine "  ... and " := Text.isOneLine_ofList (by decide)
  have moreLine : Text.IsOneLine " more commits" := Text.isOneLine_ofList (by decide)
  simp only [Text.isOneLine_append, andLine, Text.isOneLine_toString, moreLine, and_self]

section Places

variable (report : Report) (color : Bool)

theorem length_summaryLines :
    (report.summaryLines color).length =
      1 + min report.commits.length listedCommits +
        (if listedCommits < report.commits.length then 1 else 0) := by
  unfold summaryLines
  split
  · simp [Nat.add_comm, Nat.min_comm]
  · simp [Nat.add_comm, Nat.min_comm]

theorem getElem?_summaryLines_commit {place : Nat}
    (isListed : place < min report.commits.length listedCommits) :
    (report.summaryLines color)[1 + place]? = report.commits[place]?.map commitLine := by
  rcases Nat.lt_min.mp isListed with ⟨inside, belowLimit⟩
  have inCommits : place < ((report.commits.take listedCommits).map commitLine).length := by
    simpa using ⟨belowLimit, inside⟩
  rw [summaryLines, List.cons_append, Nat.add_comm, List.getElem?_cons_succ,
    List.getElem?_append_left inCommits, List.getElem?_map, List.getElem?_take_of_lt belowLimit]

theorem getElem?_summaryLines_count (isLonger : listedCommits < report.commits.length) :
    (report.summaryLines color)[1 + listedCommits]? =
      some ("  ... and " ++ toString (report.commits.length - listedCommits) ++
        " more commits") := by
  have allListed : ((report.commits.take listedCommits).map commitLine).length =
      listedCommits := by
    simpa using isLonger.le
  rw [summaryLines, if_pos isLonger, List.cons_append, Nat.add_comm, List.getElem?_cons_succ,
    List.getElem?_append_right allListed.le, allListed]
  simp

end Places

theorem commitLine_of_narrow? {commit : Commit} {scope : String} {own : ScopedCommit}
    (narrowed : commit.narrow? scope = some own) (verdict : Verdict) :
    commitLine ⟨own, verdict⟩ =
      "  [" ++ verdict.level.name ++ "] " ++ own.header ++
        if commit.header = own.header then "" else " (from: " ++ commit.header ++ ")" := by
  rcases Commit.narrow?_eq_some_iff.mp narrowed with ⟨header, _, _, rfl⟩
  rfl

theorem isOneLine_summaryLines {module : Module} {history : List Commit}
    (titleLine : Text.IsOneLine module.identity.title)
    (scopeLine : Text.IsOneLine module.identity.commitScope)
    (prefixLine : Text.IsOneLine module.identity.tagPrefix)
    (headerLines : ∀ commit ∈ history, Text.IsOneLine commit.header) :
    ∀ line ∈ (module.analyze history).summaryLines false, Text.IsOneLine line := by
  intro line lineMem
  rcases List.mem_append.mp lineMem with inHeadingOrCommits | inCount
  · rcases List.mem_cons.mp inHeadingOrCommits with rfl | inCommits
    · exact isOneLine_heading titleLine scopeLine prefixLine
    · rcases List.mem_map.mp inCommits with ⟨judged, judgedMem, rfl⟩
      rcases List.mem_map.mp (List.mem_of_mem_take judgedMem) with ⟨own, selected, rfl⟩
      rcases List.mem_filterMap.mp selected with ⟨commit, commitMem, narrowed⟩
      rcases Commit.isOneLine_of_narrow? narrowed scopeLine (headerLines commit commitMem) with
        ⟨headerLine, writtenLine⟩
      exact isOneLine_commitLine headerLine writtenLine
  · split at inCount
    · rw [List.mem_singleton.mp inCount]
      exact isOneLine_countLine _
    · contradiction

end Report

theorem Module.getElem?_commits_analyze {module : Module} {history : List Commit} {place : Nat}
    {own : ScopedCommit}
    (selected : (ScopedCommit.select module.identity.commitScope history)[place]? = some own) :
    (module.analyze history).commits[place]? = some ⟨own, module.rules.classify own⟩ := by
  simp [analyze, RuleSet.judge, selected]

/-- The summary of a module's commits, without colours, where the history was split from messages
and the title, the scope and the tag prefix of the module are each one line. The text is a heading
line, a line for each of the first ten commits that declare the module's scope, in their order, and
a line with the number of the others if there are any. A commit line shows the level that the rules
give the commit and the header that the module sees, and the header as it was written if that is
another. Splitting the text at its line feeds gives these lines, so no commit takes more than one,
and each commit is either listed or counted. -/
theorem summary_accounts_for_every_commit (module : Module) (messages : List String)
    (titleLine : Text.IsOneLine module.identity.title)
    (scopeLine : Text.IsOneLine module.identity.commitScope)
    (prefixLine : Text.IsOneLine module.identity.tagPrefix) :
    let scope := module.identity.commitScope
    let history := messages.map Commit.ofMessage
    let relevant := history.filter (·.declares scope)
    let listed := min relevant.length 10
    let others := relevant.length - 10
    let text := (module.analyze history).summary false
    ∃ lines : List String,
      text = String.join (lines.map (· ++ "\n")) ∧
      List.splitOn '\n' text.toList = lines.map (·.toList) ++ [[]] ∧
      lines.length = 1 + listed + (if 10 < relevant.length then 1 else 0) ∧
      (∀ place < listed, ∃ commit own,
        relevant[place]? = some commit ∧ commit.narrow? scope = some own ∧
          lines[1 + place]? =
            some ("  [" ++ (module.rules.classify own).level.name ++ "] " ++ own.header ++
              if commit.header = own.header then "" else " (from: " ++ commit.header ++ ")")) ∧
      (10 < relevant.length →
        lines[11]? = some ("  ... and " ++ toString others ++ " more commits")) ∧
      listed + others = relevant.length := by
  intro scope history relevant listed others text
  have headerLines : ∀ commit ∈ history, Text.IsOneLine commit.header := by
    intro commit commitMem
    rcases List.mem_map.mp commitMem with ⟨message, _, rfl⟩
    exact Commit.isOneLine_header_ofMessage message
  have selected := ScopedCommit.forall₂_select scope history
  have sameLength : (module.analyze history).commits.length = relevant.length :=
    module.length_commits_analyze history
  refine ⟨(module.analyze history).summaryLines false, rfl, ?_, ?_, ?_, ?_, ?_⟩
  · exact Text.splitOn_lines
      (Report.isOneLine_summaryLines titleLine scopeLine prefixLine headerLines)
  · rw [Report.length_summaryLines, sameLength]
    rfl
  · intro place isListed
    have inRelevant : place < relevant.length := (Nat.lt_min.mp isListed).1
    have inSelected : place < (ScopedCommit.select scope history).length :=
      selected.length_eq ▸ inRelevant
    have narrowed : relevant[place].narrow? scope =
        some (ScopedCommit.select scope history)[place] :=
      selected.get inRelevant inSelected
    have judged := Module.getElem?_commits_analyze (List.getElem?_eq_getElem inSelected)
    have isShown : place < min (module.analyze history).commits.length Report.listedCommits := by
      rw [sameLength]
      exact isListed
    have shown := (module.analyze history).getElem?_summaryLines_commit false isShown
    rw [judged, Option.map_some, Report.commitLine_of_narrow? narrowed] at shown
    exact ⟨_, _, List.getElem?_eq_getElem inRelevant, narrowed, shown⟩
  · intro isLonger
    have counted := (module.analyze history).getElem?_summaryLines_count false
    rw [sameLength] at counted
    exact counted isLonger
  · omega

/-- Of twelve commits, the first declares two scopes and is shown with the header that it was
written with. Its message holds what looks like another line, which is in the body and not shown. -/
theorem summary_accounts_for_every_commit_twelve :
    let module : Module := ⟨⟨"m"⟩, ⟨"m", "M", "core", "Mv"⟩, .descriptor, .standard "core"⟩
    let messages := "feat(api, core): a\r\n  [major] b" :: List.replicate 11 "fix(core): c"
    let text := (module.analyze (messages.map Commit.ofMessage)).summary false
    (Text.IsOneLine "M" ∧ Text.IsOneLine "core" ∧ Text.IsOneLine "Mv") ∧
      ∃ lines : List String, List.splitOn '\n' text.toList = lines.map (·.toList) ++ [[]] ∧
        lines.length = 12 ∧
        lines[1]? = some "  [minor] feat(core): a (from: feat(api, core): a)" ∧
        lines[11]? = some "  ... and 2 more commits" := by
  intro module messages text
  have titleLine : Text.IsOneLine "M" := by
    decide
  have scopeLine : Text.IsOneLine "core" := by
    decide
  have prefixLine : Text.IsOneLine "Mv" := by
    decide
  rcases summary_accounts_for_every_commit module messages titleLine scopeLine prefixLine with
    ⟨lines, _, split, length, listed, counted, _⟩
  let relevant := (messages.map Commit.ofMessage).filter (·.declares "core")
  have twelve : relevant.length = 12 := by
    decide +kernel
  have first : relevant[0]? = some ⟨"feat(api, core): a", "  [major] b"⟩ := by
    decide +kernel
  have isNarrowed : Commit.narrow? ⟨"feat(api, core): a", "  [major] b"⟩ "core" =
      some ⟨"feat", "core", "a", "feat(core): a", "feat(api, core): a", "  [major] b"⟩ := by
    decide
  refine ⟨⟨titleLine, scopeLine, prefixLine⟩, lines, split, ?_, ?_, ?_⟩
  · have count : lines.length = 1 + min relevant.length 10 +
        (if 10 < relevant.length then 1 else 0) := length
    simpa [twelve] using count
  · rcases listed 0 (by decide +kernel) with ⟨commit, own, present, narrowed, shown⟩
    cases first.symm.trans present
    cases isNarrowed.symm.trans narrowed
    exact shown.trans (by decide +kernel)
  · have isLonger : 10 < relevant.length := by
      simp [twelve]
    have shown : lines[11]? =
        some ("  ... and " ++ toString (relevant.length - 10) ++ " more commits") :=
      counted isLonger
    rw [shown, twelve]
    rfl

end ReleaseAdvisor
