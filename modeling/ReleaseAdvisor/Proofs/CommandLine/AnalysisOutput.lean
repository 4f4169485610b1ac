import ReleaseAdvisor.Proofs.CommandLine.Diagnostics
import ReleaseAdvisor.Proofs.Result

/-!
# What an analysis of several directories leaves behind

An analysis goes through its directories one by one, and a directory that is refused disturbs none
of the others. As text its reports go to the output and its refusals to the error stream, among the
warnings about the reports and after what the log shows. The exit code and the line at the end of
the output are settled apart from each other, the first by looking for a refusal, the second by
counting the reports. They agree, so that line is there exactly if the code is 0.

Encoded, each directory has an item of its own, whether it is refused or not, and the code is that
of the text. But this is so only where every directory is text. The first one that is not takes all
others with it: nothing is printed, and the code tells of the directory and not of the analysis.
-/

namespace ReleaseAdvisor.CommandLine

/-- What an analysis has to say besides its reports. -/
inductive Notice where
  | refusal (directory : Path) (error : ConfigError)
  | warning (warning : Warning)

namespace Notice

def text (refusals : Refusals) : Notice → String
  | .refusal directory error =>
      line ("ERROR: " ++ directory.text ++ ": " ++ error.message refusals)
  | .warning found => line ("⚠ WARNING: " ++ found.message)

def refusal? : Notice → Option (Path × ConfigError)
  | .refusal directory error => some (directory, error)
  | .warning _ => none

def ofOutcome (outcome : Outcome) : List Notice :=
  match outcome.result with
  | .ok report => (Warning.ofReport report).map .warning
  | .error error => [.refusal outcome.directory error]

/-- A refusal is one line exactly if its error shows no values of several lines. -/
theorem isLine_text_refusal_iff {directory : Path} {error : ConfigError}
    (directoryLine : Text.IsOneLine directory.text) (composed : error.isComposed)
    (namedLines : ∀ name ∈ error.named, Text.IsOneLine name) (refusals : Refusals) :
    IsLine ((refusal directory error).text refusals) ↔
      ∀ value ∈ error.quoted, Text.IsOneLine value := by
  have errorLine : Text.IsOneLine "ERROR: " := Text.isOneLine_ofList (by decide)
  have colonLine : Text.IsOneLine ": " := Text.isOneLine_ofList (by decide)
  rw [text, isLine_line, Text.isOneLine_append,
    ConfigError.isOneLine_message_iff composed namedLines]
  simp [Text.isOneLine_append, errorLine, directoryLine, colonLine]

end Notice

/-! ## One outcome -/

theorem succeeded_iff {outcome : Outcome} :
    succeeded outcome ↔ ∃ report, outcome.result = .ok report := by
  rcases outcome with ⟨directory, report | error⟩ <;> simp [succeeded]

theorem outcomeOut_eq (outcome : Outcome) :
    outcomeOut outcome = String.join (outcome.result.toOption.toList.map (·.summary false)) := by
  rcases outcome with ⟨directory, error | report⟩
  · rfl
  · simp [outcomeOut, Except.toOption]

theorem outcomeErr_eq (refusals : Refusals) (outcome : Outcome) :
    outcomeErr refusals outcome =
      String.join ((Notice.ofOutcome outcome).map (Notice.text refusals)) := by
  rcases outcome with ⟨directory, error | report⟩
  · simp [outcomeErr, Notice.ofOutcome, Notice.text]
  · simp only [outcomeErr, Notice.ofOutcome, List.map_map]
    rfl

/-! ## All outcomes -/

theorem join_map_join {α β : Type} (parts : α → List β) (text : β → String) (items : List α) :
    String.join (items.map fun item => String.join ((parts item).map text)) =
      String.join ((items.flatMap parts).map text) := by
  induction items with
  | nil => rfl
  | cons first rest ih =>
      rw [List.map_cons, String.join_cons, ih, List.flatMap_cons, List.map_append,
        String.join_append]

section Outcomes

variable (refusals : Refusals) (outcomes : List Outcome)

theorem all_succeeded_iff :
    outcomes.all succeeded ↔ ∀ outcome ∈ outcomes, ∃ report, outcome.result = .ok report := by
  simp only [List.all_eq_true, succeeded_iff]

theorem countP_succeeded_eq_length_iff :
    outcomes.countP succeeded = outcomes.length ↔ outcomes.all succeeded := by
  rw [List.countP_eq_length, List.all_eq_true]

theorem code_showOutcomes :
    (showOutcomes refusals outcomes).code = if outcomes.all succeeded then 0 else 1 :=
  rfl

theorem code_showOutcomes_eq_zero_iff :
    (showOutcomes refusals outcomes).code = 0 ↔ outcomes.all succeeded := by
  rw [code_showOutcomes]
  split <;> simp_all

theorem code_showOutcomes_eq_one_iff :
    (showOutcomes refusals outcomes).code = 1 ↔ ¬(showOutcomes refusals outcomes).code = 0 := by
  rw [code_showOutcomes]
  split <;> simp

theorem reports_eq :
    String.join (outcomes.map outcomeOut) =
      String.join ((outcomes.filterMap (·.result.toOption)).map (·.summary false)) := by
  rw [funext outcomeOut_eq, join_map_join, List.filterMap_eq_flatMap_toList]

/-- The reports are counted up to the number of directories exactly if the code says so. -/
theorem lastLine_eq :
    (if outcomes.countP succeeded = outcomes.length then
      line ("✓ Analyzed " ++ toString (outcomes.countP succeeded) ++ " module(s)")
    else "") =
      if (showOutcomes refusals outcomes).code = 0 then
        line ("✓ Analyzed " ++ toString outcomes.length ++ " module(s)")
      else "" := by
  have counted := countP_succeeded_eq_length_iff outcomes
  rw [← code_showOutcomes_eq_zero_iff refusals] at counted
  by_cases complete : outcomes.countP succeeded = outcomes.length
  · rw [if_pos complete, if_pos (counted.mp complete), complete]
  · rw [if_neg complete, if_neg (mt counted.mpr complete)]

theorem out_showOutcomes :
    (showOutcomes refusals outcomes).out =
      String.join ((outcomes.filterMap (·.result.toOption)).map (·.summary false)) ++
        if (showOutcomes refusals outcomes).code = 0 then
          line ("✓ Analyzed " ++ toString outcomes.length ++ " module(s)")
        else "" := by
  rw [← lastLine_eq refusals, ← reports_eq]
  rfl

theorem err_showOutcomes :
    (showOutcomes refusals outcomes).err =
      String.join ((outcomes.flatMap Notice.ofOutcome).map (Notice.text refusals)) := by
  rw [← join_map_join, ← funext (outcomeErr_eq refusals)]
  rfl

end Outcomes

/-! ## The directories of an analysis -/

section Directories

variable (resolution : Path → Except ConfigError Module) (history : List Commit)

/-- The outcome of a directory, from what it resolves to. -/
def outcomeOf (directory : Path) : Outcome :=
  ⟨directory, (resolution directory).map (·.analyze history)⟩

def resolvedAmong (directories : List Path) : List Module :=
  directories.filterMap fun directory => (resolution directory).toOption

def refusalOf (directory : Path) : Option (Path × ConfigError) :=
  match resolution directory with
  | .ok _ => none
  | .error error => some (directory, error)

theorem outcomeOf_eq_ok_iff {directory : Path} :
    (∃ report, (outcomeOf resolution history directory).result = .ok report) ↔
      ∃ module, resolution directory = .ok module := by
  unfold outcomeOf
  cases resolution directory <;> simp [Except.map]

theorem reports_of_directories (directories : List Path) :
    (directories.map (outcomeOf resolution history)).filterMap (·.result.toOption) =
      (resolvedAmong resolution directories).map (·.analyze history) := by
  rw [resolvedAmong, List.filterMap_map, List.map_filterMap]
  apply List.filterMap_congr
  intro directory _
  simp only [Function.comp_apply, outcomeOf]
  cases resolution directory <;> rfl

theorem filterMap_refusal?_ofOutcome (directory : Path) :
    (Notice.ofOutcome (outcomeOf resolution history directory)).filterMap Notice.refusal? =
      (refusalOf resolution directory).toList := by
  unfold outcomeOf refusalOf
  cases resolution directory with
  | ok module => simp [Except.map, Notice.ofOutcome, Notice.refusal?]
  | error error => simp [Except.map, Notice.ofOutcome, Notice.refusal?]

theorem refusals_of_directories (directories : List Path) :
    ((directories.map (outcomeOf resolution history)).flatMap Notice.ofOutcome).filterMap
        Notice.refusal? =
      directories.filterMap (refusalOf resolution) := by
  rw [List.filterMap_flatMap, List.flatMap_map, List.filterMap_eq_flatMap_toList]
  simp only [filterMap_refusal?_ofOutcome]

theorem notes_of_directories (directories : List Path) :
    (directories.map (outcomeOf resolution history)).flatMap (·.notes) =
      (resolvedAmong resolution directories).flatMap (·.notes) := by
  induction directories with
  | nil => rfl
  | cons directory rest ih =>
      rw [List.map_cons, List.flatMap_cons, ih, outcomeOf, resolvedAmong, resolvedAmong,
        List.filterMap_cons]
      cases resolution directory <;> rfl

end Directories

/-! ## Runs -/

/-- What a directory resolves to in a run. -/
def resolutionIn (surroundings : Surroundings) (settings : Settings) (directory : Path) :
    Except ConfigError Module :=
  (Module.resolve surroundings.files settings .empty directory).1

section Foreign

variable {surroundings : Surroundings} {settings : Settings} {history : List Commit}

theorem isForeign_outcomeOf (directory : Path) :
    surroundings.isForeign (outcomeOf (resolutionIn surroundings settings) history directory) =
      surroundings.foreign.contains directory := by
  unfold Surroundings.isForeign outcomeOf
  cases resolved : resolutionIn surroundings settings directory with
  | ok module => exact congrArg _ (Module.directory_eq_of_resolve resolved)
  | error error => rfl

theorem canWrite_outcomes_iff {directories : List Path} :
    surroundings.CanWrite
        (directories.map (outcomeOf (resolutionIn surroundings settings) history)) ↔
      ∀ directory ∈ directories, ¬surroundings.foreign.contains directory := by
  simp only [Surroundings.CanWrite, List.forall_mem_map, isForeign_outcomeOf]

end Foreign

section Analysis

variable {surroundings : Surroundings} {settings : Settings} {target : Target} {commits : Path}
  {directories : List Path}

variable (listed : directoriesOf surroundings settings target = .ok directories)

include listed

theorem fails_runAnalyze {error : CommitsError}
    (unread : readCommits surroundings commits = .error error) (json : Bool) :
    (runAnalyze surroundings settings target commits json).Fails := by
  simp only [runAnalyze, listed, unread]
  exact ⟨rfl, rfl⟩

theorem runAnalyze_eq {history : List Commit}
    (commitsRead : readCommits surroundings commits = .ok history) (json : Bool) :
    runAnalyze surroundings settings target commits json =
      (printOutcomes surroundings json
        (directories.map (outcomeOf (resolutionIn surroundings settings) history))).afterNotes
        surroundings.words.log
        ((resolvedAmong (resolutionIn surroundings settings) directories).flatMap (·.notes)) := by
  rw [← notes_of_directories _ history]
  simp only [runAnalyze, listed, commitsRead, Module.analyzeAll_fst_eq]
  rfl

end Analysis

/-- What an analysis of some directories leaves behind as text. -/
structure Output.ShowsAnalysis (output : Output) (surroundings : Surroundings)
    (settings : Settings) (history : List Commit) (directories : List Path) : Prop where
  succeeds : output.code = 0 ↔ ∀ directory ∈ directories, ∃ module,
    resolutionIn surroundings settings directory = .ok module
  fails : output.code = 1 ↔ ∃ directory ∈ directories, ∃ error,
    resolutionIn surroundings settings directory = .error error
  reports : output.out =
    String.join ((resolvedAmong (resolutionIn surroundings settings) directories).map fun module =>
      (module.analyze history).summary false) ++
    if output.code = 0 then
      line ("✓ Analyzed " ++ toString directories.length ++ " module(s)")
    else ""
  notices : ∃ notices : List Notice,
    output.err =
      surroundings.words.log.text
        ((resolvedAmong (resolutionIn surroundings settings) directories).flatMap (·.notes)) ++
      String.join (notices.map (Notice.text surroundings.words.refusals)) ∧
    notices.filterMap Notice.refusal? =
      directories.filterMap (refusalOf (resolutionIn surroundings settings))

section Analysis

variable {surroundings : Surroundings} {settings : Settings} {target : Target} {commits : Path}
  {directories : List Path} {history : List Commit}
  (listed : directoriesOf surroundings settings target = .ok directories)
  (commitsRead : readCommits surroundings commits = .ok history)

include listed commitsRead

theorem showsAnalysis_runAnalyze :
    (runAnalyze surroundings settings target commits false).ShowsAnalysis surroundings settings
      history directories := by
  let refusals := surroundings.words.refusals
  let outcomes := directories.map (outcomeOf (resolutionIn surroundings settings) history)
  have succeeds : (showOutcomes refusals outcomes).code = 0 ↔ ∀ directory ∈ directories, ∃ module,
      resolutionIn surroundings settings directory = .ok module := by
    rw [code_showOutcomes_eq_zero_iff, all_succeeded_iff]
    simp only [outcomes, List.forall_mem_map, outcomeOf_eq_ok_iff]
  rw [runAnalyze_eq listed commitsRead]
  refine ⟨succeeds, ?_, ?_, ?_⟩
  · refine (code_showOutcomes_eq_one_iff refusals outcomes).trans ?_
    rw [succeeds]
    simp only [not_forall, Except.not_exists_ok_iff, exists_prop]
  · have reports := out_showOutcomes refusals outcomes
    rwa [reports_of_directories, List.map_map, List.length_map] at reports
  · refine ⟨outcomes.flatMap Notice.ofOutcome, ?_, refusals_of_directories _ history directories⟩
    exact congrArg (surroundings.words.log.text _ ++ ·) (err_showOutcomes refusals outcomes)

/-- Where every directory is text, the encoded analysis has the code of the other and an item for
each directory. -/
theorem encodes_runAnalyze
    (texts : ∀ directory ∈ directories, ¬surroundings.foreign.contains directory) :
    let encoded := runAnalyze surroundings settings target commits true
    encoded.code = (runAnalyze surroundings settings target commits false).code ∧
      ∃ items, Json.read? encoded.out = some (.array items) ∧
        List.Forall₂ (fun directory =>
          (outcomeOf (resolutionIn surroundings settings) history directory).PrintedAs
            surroundings.words.refusals) directories items := by
  intro encoded
  let outcomes := directories.map (outcomeOf (resolutionIn surroundings settings) history)
  have writable : surroundings.CanWrite outcomes := canWrite_outcomes_iff.mpr texts
  have sameCode : (encodeOutcomes surroundings outcomes).code =
      (showOutcomes surroundings.words.refusals outcomes).code := by
    rw [encodeOutcomes_of_canWrite writable, code_showOutcomes]
  have encodedEq : encoded = (encodeOutcomes surroundings outcomes).afterNotes _ _ :=
    runAnalyze_eq listed commitsRead true
  rw [encodedEq, runAnalyze_eq listed commitsRead false, Output.code_afterNotes,
    Output.out_afterNotes]
  exact ⟨sameCode, _, read?_encodeOutcomes writable,
    List.forall₂_map_left_iff.mp (forall₂_printedAs _ outcomes)⟩

/-- The first directory that is not text ends the encoded analysis, whatever the others are. -/
theorem breaks_runAnalyze {before after : List Path} {directory : Path}
    (split : directories = before ++ directory :: after)
    (texts : ∀ earlier ∈ before, ¬surroundings.foreign.contains earlier)
    (foreign : surroundings.foreign.contains directory) :
    let encoded := runAnalyze surroundings settings target commits true
    encoded.out = "" ∧
      (∀ module, resolutionIn surroundings settings directory = .ok module → encoded.code = 1) ∧
      ∀ error, resolutionIn surroundings settings directory = .error error →
        encoded.code = 101 := by
  intro encoded
  let outcome := outcomeOf (resolutionIn surroundings settings) history
  have writable : surroundings.CanWrite (before.map outcome) := canWrite_outcomes_iff.mpr texts
  have outcomeForeign : surroundings.isForeign (outcome directory) :=
    (isForeign_outcomeOf directory).trans foreign
  have broken := @encodeOutcomes_of_foreign surroundings _ (after.map outcome) _ writable
    outcomeForeign
  rw [← List.map_cons, ← List.map_append, ← split] at broken
  have encodedEq : encoded =
      (encodeOutcomes surroundings (directories.map outcome)).afterNotes _ _ :=
    runAnalyze_eq listed commitsRead true
  rw [encodedEq, Output.out_afterNotes, Output.code_afterNotes, broken]
  refine ⟨?_, ?_, ?_⟩
  · split <;> rfl
  · intro module resolved
    simp [outcome, outcomeOf, resolved, succeeded, Except.map, failed]
  · intro error refused
    simp [outcome, outcomeOf, refused, succeeded, Except.map]

end Analysis

/-- An analysis whose commits cannot be read ends with code 1 and prints nothing. Otherwise the
analysis as text ends with code 0 if every directory resolves and with code 1 if one does not. The
output is the reports of the modules that resolved, in the order of the directories, and then the
number of the directories if the code is 0. The error stream has what the log shows of these modules
and then one refusal for each directory that did not resolve, and besides these only warnings. A
refusal is one line exactly if the values are that it shows from the files of the module. Where
every directory is text, the encoded analysis has the same code and an item for each directory, in
their order. Where one is not, nothing is printed and the first such directory gives the code. -/
theorem analysis_of_directories {surroundings : Surroundings} {settings? : Option Path}
    {settings : Settings} {target : Target} {commits : Path} {directories : List Path}
    {plain json : List String}
    (asked : Invocation.ofArguments plain = .ok ⟨settings?, .analyze target commits false⟩)
    (askedJson : Invocation.ofArguments json = .ok ⟨settings?, .analyze target commits true⟩)
    (loaded : Settings.load surroundings.files surroundings.userDirectory? settings? = .ok settings)
    (listed : directoriesOf surroundings settings target = .ok directories) :
    let shown := run surroundings plain
    let encoded := run surroundings json
    let resolution := resolutionIn surroundings settings
    let refusals := surroundings.words.refusals
    (∀ error, readCommits surroundings commits = .error error → shown.Fails ∧ encoded.Fails) ∧
    ∀ history, readCommits surroundings commits = .ok history →
      shown.ShowsAnalysis surroundings settings history directories ∧
      (∀ directory ∈ directories, ∀ error, resolution directory = .error error →
        error.isComposed → Text.IsOneLine directory.text →
        Text.IsOneLine settings.descriptorFile → Text.IsOneLine settings.legacyFile →
        (IsLine ((Notice.refusal directory error).text refusals) ↔
          ∀ value ∈ error.quoted, Text.IsOneLine value)) ∧
      ((∀ directory ∈ directories, ¬surroundings.foreign.contains directory) →
        encoded.code = shown.code ∧
        ∃ items, Json.read? encoded.out = some (.array items) ∧
          List.Forall₂ (fun directory =>
            (outcomeOf resolution history directory).PrintedAs refusals) directories items) ∧
      ∀ before directory after, directories = before ++ directory :: after →
        (∀ earlier ∈ before, ¬surroundings.foreign.contains earlier) →
        surroundings.foreign.contains directory →
        encoded.out = "" ∧
          (∀ module, resolution directory = .ok module → encoded.code = 1) ∧
          ∀ error, resolution directory = .error error → encoded.code = 101 := by
  intro shown encoded resolution refusals
  have shownEq : shown = runAnalyze surroundings settings target commits false :=
    run_command asked loaded
  have encodedEq : encoded = runAnalyze surroundings settings target commits true :=
    run_command askedJson loaded
  rw [shownEq, encodedEq]
  constructor
  · intro error unread
    exact ⟨fails_runAnalyze listed unread false, fails_runAnalyze listed unread true⟩
  · intro history commitsRead
    refine ⟨showsAnalysis_runAnalyze listed commitsRead, ?_,
      encodes_runAnalyze listed commitsRead, ?_⟩
    · intro directory _ error refused composed directoryLine descriptorLine legacyLine
      have namedLines := Module.isOneLine_named directoryLine descriptorLine legacyLine refused
      exact Notice.isLine_text_refusal_iff directoryLine composed namedLines refusals
    · intro before directory after split
      exact breaks_runAnalyze listed commitsRead split

/-- One of two directories resolves. Its report is printed, the other is refused in one line, and
both ways to print end with code 1. With a directory that is not text in the place of the other,
nothing is encoded. Without the commits nothing is printed at all. -/
theorem analysis_of_directories_partly :
    let text := "name=\"m\"\ntitle=\"M\"\ncommit_scope=\"c\"\ntag_prefix=\"Mv\"\n"
    let tree := (FileTree.empty.write ⟨"m/module.toml"⟩ (.text text)).write ⟨"log.json"⟩
      (.text "[\"fix(c): x\"]")
    let surroundings : Surroundings := ⟨tree.toFileSystem, none, .text "", .allReplaced, .brief⟩
    let plain := ["analyze", "m", "n", "-c", "log.json"]
    let shown := run surroundings plain
    let encoded := run surroundings (plain ++ ["--json"])
    let broken := run surroundings ["analyze", "m", "\ufffd", "-c", "log.json", "--json"]
    let refusal := Notice.refusal ⟨"n"⟩ (.noConfiguration ⟨"n"⟩)
    (shown.code = 1 ∧ encoded.code = 1 ∧
      shown.out = "M (c, tag prefix Mv): patch\n  [patch] fix(c): x\n" ∧
      (∃ notices : List Notice,
        shown.err = String.join (notices.map (Notice.text surroundings.words.refusals)) ∧
        notices.filterMap Notice.refusal? = [(⟨"n"⟩, .noConfiguration ⟨"n"⟩)]) ∧
      IsLine (refusal.text surroundings.words.refusals)) ∧
    (broken.code = 101 ∧ broken.out = "") ∧
    (run surroundings ["analyze", "m", "-c", "none"]).Fails := by
  intro text tree surroundings plain shown encoded broken refusal
  have loaded : Settings.load surroundings.files surroundings.userDirectory? none =
      .ok .standard := by
    decide +kernel
  have commitsRead : readCommits surroundings ⟨"log.json"⟩ = .ok [⟨"fix(c): x", ""⟩] := by
    decide +kernel
  have unread : readCommits surroundings ⟨"none"⟩ = .error (.unreadable .notFound) := by
    decide +kernel
  have refused : ∀ name ∈ ["n", "\ufffd"], resolutionIn surroundings .standard ⟨name⟩ =
      .error (.noConfiguration ⟨name⟩) := by
    decide +kernel
  have asked : ∀ second ∈ ["n", "\ufffd"], ∀ json : Bool,
      Invocation.ofArguments (["analyze", "m", second, "-c", "log.json"] ++
        if json then ["--json"] else []) =
        .ok ⟨none, .analyze (.directories [⟨"m"⟩, ⟨second⟩]) ⟨"log.json"⟩ json⟩ := by
    decide +kernel
  have askedAlone : ∀ json : Bool,
      Invocation.ofArguments (["analyze", "m", "-c", "none"] ++ if json then ["--json"] else []) =
        .ok ⟨none, .analyze (.directories [⟨"m"⟩]) ⟨"none"⟩ json⟩ := by
    decide +kernel
  have texts : ∀ directory ∈ [⟨"m"⟩, ⟨"n"⟩], ¬surroundings.foreign.contains directory := by
    have shown : ∀ directory ∈ [(⟨"m"⟩ : Path), ⟨"n"⟩], '\ufffd' ∉ directory.text.toList := by
      decide
    exact fun directory mem => surroundings.foreign.not_contains_of_not_replaced (shown _ mem)
  have succeeds := (analysis_of_directories (asked "n" (by simp) false)
    (asked "n" (by simp) true) loaded rfl).2 _ commitsRead
  have breaks := (analysis_of_directories (asked "\ufffd" (by simp) false)
    (asked "\ufffd" (by simp) true) loaded rfl).2 _ commitsRead
  have fails := (analysis_of_directories (askedAlone false) (askedAlone true) loaded rfl).1 _ unread
  rcases succeeds with ⟨showsAnalysis, refusalLines, encodes, _⟩
  rcases breaks with ⟨_, _, _, endsAt⟩
  have isOne : shown.code = 1 :=
    showsAnalysis.fails.mpr ⟨⟨"n"⟩, by simp, _, refused "n" (by simp)⟩
  have silent := endsAt [⟨"m"⟩] ⟨"\ufffd"⟩ [] rfl (by decide) (by decide)
  refine ⟨⟨isOne, (encodes texts).1.trans isOne, ?_, ?_, ?_⟩, ?_, fails.1⟩
  · exact showsAnalysis.reports.trans (by decide +kernel)
  · rcases showsAnalysis.notices with ⟨notices, told, refusals⟩
    exact ⟨notices, told.trans (String.empty_append ..), refusals.trans (by decide +kernel)⟩
  · exact (refusalLines ⟨"n"⟩ (by simp) _ (refused "n" (by simp)) rfl (by decide) (by decide)
      (by decide)).mpr (by decide)
  · exact ⟨silent.2.2 _ (refused "\ufffd" (by simp)), silent.1⟩

/-- Both modules resolve, so the analysis as text succeeds, but one directory is not text and the
encoded analysis fails and loses the other module. The error of a third directory shows a tag prefix
of two lines, and this one refusal makes two lines on the error stream that begin like one. -/
theorem analysis_lost_and_refusal_doubled :
    let text := "name=\"m\"\ntitle=\"M\"\ncommit_scope=\"c\"\ntag_prefix=\"Mv\"\n"
    let written := (FileTree.empty.write ⟨"m/module.toml"⟩ (.text text)).write
      ⟨"m\ufffd/module.toml"⟩ (.text text)
    let tree := (written.write ⟨"n/.releaserc.json"⟩ (.text "[\"S\\nERROR: x\"]")).write
      ⟨"log.json"⟩ (.text "[]")
    let surroundings : Surroundings := ⟨tree.toFileSystem, none, .text "", .allReplaced, .brief⟩
    let analyze := fun directories : List String =>
      run surroundings (["analyze", "-c", "log.json"] ++ directories)
    ((analyze ["m", "m\ufffd"]).code = 0 ∧ (analyze ["m", "m\ufffd", "--json"]).code = 1 ∧
      (analyze ["m", "m\ufffd", "--json"]).out = "") ∧
    ((List.splitOn '\n' (analyze ["n"]).err.toList).filter
      ("ERROR: ".toList.isPrefixOf ·)).length = 2 := by
  decide +kernel

end ReleaseAdvisor.CommandLine
