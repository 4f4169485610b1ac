import ReleaseAdvisor.Module.Legacy
import ReleaseAdvisor.Proofs.Json.Limits
import ReleaseAdvisor.Proofs.Json.Members
import ReleaseAdvisor.Proofs.Result
import ReleaseAdvisor.Proofs.Text.Occurrence

/-!
# The analyzer's entry of a legacy document

What a legacy document says once it is written as an object: its tag format and its list of plugins.
The options are those of the first entry with the analyzer's name. What stands before that entry and
after it makes no difference, and neither do other members of the object. There is one exception. The
reader reads every entry before it knows which of them it needs, so an entry that it cannot read, for
a number out of range, an escape that is no text or too deep nesting, refuses the whole document
wherever it stands. Of the other members only the keys are read.
-/

namespace ReleaseAdvisor

namespace Json

/-- A document that the reader reads as a value, at the depth that is left for it. -/
def ReadsAs (depth : Nat) (document : Document) (value : Json) : Prop :=
  document.value? = some value ∧ Within depth value

theorem mapM_ofDocument?_eq_some_iff {depth : Nat} {documents : List Document}
    {values : List Json} :
    documents.mapM (ofDocument? depth) = some values ↔
      List.Forall₂ (ReadsAs depth) documents values :=
  List.mapM_eq_some_iff_forall₂ fun document => ofDocument?_eq_some_iff document depth

end Json

namespace LegacySource

open Json (Document ReadsAs)

/-! ## What is written -/

/-- How a tag format may stand under its name. -/
inductive TagFormatWritten : List Document → Option String → Prop where
  | missing : TagFormatWritten [] none
  | null : TagFormatWritten [.null] none
  | template {parts : List Json.StringPart} {template : String} :
      Json.stringOf? parts = some template → TagFormatWritten [.string parts] (some template)

/-- How plugins may stand under their name. -/
inductive PluginsWritten : List Document → List Document → Prop where
  | missing : PluginsWritten [] []
  | list {entries : List Document} : PluginsWritten [.array entries] entries

/-- An object with a tag format and a list of plugins. -/
def Writes (text : String) (tagFormat? : Option String) (entries : List Document) : Prop :=
  ∃ members, Document.read? text = some (.object members) ∧ Json.KeysReadable members ∧
    TagFormatWritten (Document.named members "tagFormat") tagFormat? ∧
    PluginsWritten (Document.named members "plugins") entries

/-- How deep an entry may nest: the object and the list stand around it. -/
def entryDepth : Nat :=
  Json.maxDepth - 2

section Object

variable {text : String} {members : List (List Json.StringPart × Document)}
  (isObject : Document.read? text = some (.object members))

include isObject

theorem ofDocument?_of_unread
    (unread : Json.ofNamedMembers? ["tagFormat", "plugins"] (Json.maxDepth - 1) members = none) :
    ofDocument? text = none := by
  have refused : Json.ofRecord? ["tagFormat", "plugins"] Json.maxDepth (.object members) = none :=
    congrArg (Option.map Json.object) unread
  simp only [ofDocument?, isObject, refused, Option.bind_eq_bind, Option.bind_some,
    Option.bind_none]

theorem ofDocument?_of_read {values : List (String × Json)}
    (read : Json.ofNamedMembers? ["tagFormat", "plugins"] (Json.maxDepth - 1) members =
      some values) :
    ofDocument? text =
      (AnalyzerOptions.memberOr tagFormatOf? none (Json.member values "tagFormat")).bind
        fun tagFormat? =>
          (AnalyzerOptions.memberOr pluginsOf? [] (Json.member values "plugins")).map
            (tagFormat?, ·) := by
  have record : Json.ofRecord? ["tagFormat", "plugins"] Json.maxDepth (.object members) =
      some (.object values) :=
    congrArg (Option.map Json.object) read
  simp only [ofDocument?, isObject, record, Option.bind_eq_bind, Option.bind_some,
    Option.pure_def, Option.map_eq_bind]
  rfl

end Object

/-! ## What is read of it -/

theorem TagFormatWritten.readable {documents : List Document} {tagFormat? : Option String}
    (written : TagFormatWritten documents tagFormat?) (depth : Nat) :
    ∀ item ∈ documents, ∃ value, Json.ofDocument? depth item = some value := by
  cases written with
  | missing => exact List.forall_mem_nil _
  | null => exact List.forall_mem_singleton.mpr ⟨.null, rfl⟩
  | @template parts template isTemplate =>
      refine List.forall_mem_singleton.mpr ⟨.string template, ?_⟩
      rw [Json.ofDocument?, isTemplate, Option.map_some]

theorem PluginsWritten.readable {documents entries : List Document}
    (written : PluginsWritten documents entries) {depth : Nat} {plugins : List Json}
    (read : entries.mapM (Json.ofDocument? depth) = some plugins) :
    ∀ item ∈ documents, ∃ value, Json.ofDocument? (depth + 1) item = some value := by
  cases written with
  | missing => exact List.forall_mem_nil _
  | list =>
      refine List.forall_mem_singleton.mpr ⟨.array plugins, ?_⟩
      rw [Json.ofDocument?_array, read, Option.map_some]

section Read

variable {documents : List Document} {depth : Nat} {values : List (String × Json)} {name : String}

theorem TagFormatWritten.memberOr_eq {tagFormat? : Option String}
    (written : TagFormatWritten documents tagFormat?)
    (read : documents.map (Json.ofDocument? depth) = (Json.named values name).map some) :
    AnalyzerOptions.memberOr tagFormatOf? none (Json.member values name) = some tagFormat? := by
  rw [Json.member_eq_match_named]
  cases written with
  | missing =>
      rw [List.map_eq_nil_iff.mp read.symm]
      rfl
  | null =>
      rcases List.map_eq_singleton_iff.mp read.symm with ⟨value, isValue, valueRead⟩
      cases valueRead
      rw [isValue]
      rfl
  | template isTemplate =>
      rcases List.map_eq_singleton_iff.mp read.symm with ⟨value, isValue, valueRead⟩
      rw [Json.ofDocument?, isTemplate] at valueRead
      cases valueRead
      rw [isValue]
      rfl

theorem PluginsWritten.memberOr_eq {entries : List Document}
    (written : PluginsWritten documents entries)
    (read : documents.map (Json.ofDocument? (depth + 1)) = (Json.named values name).map some) :
    AnalyzerOptions.memberOr pluginsOf? [] (Json.member values name) =
      entries.mapM (Json.ofDocument? depth) := by
  rw [Json.member_eq_match_named]
  cases written with
  | missing =>
      rw [List.map_eq_nil_iff.mp read.symm]
      rfl
  | list =>
      rcases List.map_eq_singleton_iff.mp read.symm with ⟨value, isValue, valueRead⟩
      rw [Json.ofDocument?_array, eq_comm] at valueRead
      rcases Option.map_eq_some_iff.mp valueRead with ⟨plugins, pluginsRead, rfl⟩
      rw [isValue, pluginsRead]
      rfl

end Read

theorem ofDocument?_of_writes {text : String} {tagFormat? : Option String}
    {entries : List Document} (writes : Writes text tagFormat? entries) :
    ofDocument? text = (entries.mapM (Json.ofDocument? entryDepth)).map (tagFormat?, ·) := by
  rcases writes with ⟨members, isObject, keys, isTagFormat, arePlugins⟩
  cases read : Json.ofNamedMembers? ["tagFormat", "plugins"] (Json.maxDepth - 1) members with
  | some values =>
      rw [ofDocument?_of_read isObject read,
        isTagFormat.memberOr_eq (Json.map_ofDocument?_named read (by simp)),
        arePlugins.memberOr_eq (Json.map_ofDocument?_named read (by simp)), Option.bind_some]
      rfl
  | none =>
      have unread : entries.mapM (Json.ofDocument? entryDepth) = none := by
        refine Option.eq_none_iff_forall_ne_some.mpr ?_
        intro plugins pluginsRead
        have inside : ∀ name ∈ ["tagFormat", "plugins"], ∀ item ∈ Document.named members name,
            ∃ value, Json.ofDocument? (Json.maxDepth - 1) item = some value := by
          simp only [List.mem_cons, List.not_mem_nil, or_false, forall_eq_or_imp, forall_eq]
          exact ⟨isTagFormat.readable _, arePlugins.readable pluginsRead⟩
        rcases Json.exists_ofNamedMembers?_iff.mpr ⟨keys, inside⟩ with ⟨values, isRead⟩
        rw [read] at isRead
        contradiction
      rw [ofDocument?_of_unread isObject read, unread, Option.map_none]

/-! ## Which entry counts -/

/-- A value that is an entry with the analyzer's name, and the options in it. -/
def GivesOptions (value options : Json) : Prop :=
  ∃ name, value = .array [.string name, options] ∧ analyzerName.toList <:+: name.toList

theorem analyzerOptions?_eq_some_iff {value options : Json} :
    analyzerOptions? value = some options ↔ GivesOptions value options := by
  constructor
  · intro found
    unfold analyzerOptions? at found
    split at found
    · rename_i name given
      split at found
      · rename_i named
        cases found
        exact ⟨name, rfl, Text.occursIn_iff.mp named⟩
      · contradiction
    · contradiction
  · rintro ⟨name, rfl, named⟩
    rw [analyzerOptions?, if_pos (Text.occursIn_iff.mpr named)]

/-- What parsing a list of plugins comes to, with the tag format that stands beside it. -/
inductive Parses (path : Path) (tagFormat? : Option String) (entries : List Document) :
    Except ConfigError LegacySource → Prop where
  | unreadable {entry : Document} : entry ∈ entries → (∀ value, ¬ReadsAs entryDepth entry value) →
      Parses path tagFormat? entries (.error (.invalidLegacy path .document))
  | noAnalyzer {plugins : List Json} : List.Forall₂ (ReadsAs entryDepth) entries plugins →
      plugins.NoResult GivesOptions →
      Parses path tagFormat? entries (.ok ⟨tagFormat?, .ofRules []⟩)
  | badOptions {plugins : List Json} {given : Json} :
      List.Forall₂ (ReadsAs entryDepth) entries plugins → plugins.FirstResult GivesOptions given →
      AnalyzerOptions.ofJson? given.lastWins = none →
      Parses path tagFormat? entries (.error (.invalidLegacy path .options))
  | badRules {plugins : List Json} {given : Json} {options : AnalyzerOptions} {error : RecordError} :
      List.Forall₂ (ReadsAs entryDepth) entries plugins → plugins.FirstResult GivesOptions given →
      AnalyzerOptions.ofJson? given.lastWins = some options →
      RuleSet.ofRecords? options.records = .error error →
      Parses path tagFormat? entries (.error (.badRules path error))
  | parsed {plugins : List Json} {given : Json} {options : AnalyzerOptions} {rules : RuleSet} :
      List.Forall₂ (ReadsAs entryDepth) entries plugins → plugins.FirstResult GivesOptions given →
      AnalyzerOptions.ofJson? given.lastWins = some options →
      RuleSet.ofRecords? options.records = .ok rules →
      Parses path tagFormat? entries (.ok ⟨tagFormat?, rules.withKeywords options.keywords⟩)

theorem exists_parses (path : Path) (tagFormat? : Option String) (entries : List Document) :
    ∃ result, Parses path tagFormat? entries result := by
  by_cases readable : ∃ plugins, List.Forall₂ (ReadsAs entryDepth) entries plugins
  · rcases readable with ⟨plugins, read⟩
    by_cases none : plugins.NoResult GivesOptions
    · exact ⟨_, Parses.noAnalyzer read none⟩
    · rcases List.exists_firstResult_iff.mpr none with ⟨given, first⟩
      cases decoded : AnalyzerOptions.ofJson? given.lastWins with
      | none => exact ⟨_, Parses.badOptions read first decoded⟩
      | some options =>
          cases checked : RuleSet.ofRecords? options.records with
          | error error => exact ⟨_, Parses.badRules read first decoded checked⟩
          | ok rules => exact ⟨_, Parses.parsed read first decoded checked⟩
  · simp only [List.exists_forall₂_iff, not_forall, not_exists] at readable
    rcases readable with ⟨entry, entryMem, unreadable⟩
    exact ⟨_, Parses.unreadable entryMem unreadable⟩

theorem optionsOf?_of_first {plugins : List Json} {given : Json}
    (first : plugins.FirstResult GivesOptions given) :
    optionsOf? plugins = AnalyzerOptions.ofJson? given.lastWins := by
  have found : plugins.findSome? analyzerOptions? = some given :=
    (List.findSome?_eq_some_iff_firstResult fun _ _ _ => analyzerOptions?_eq_some_iff).mpr first
  simp only [optionsOf?, found]

theorem optionsOf?_of_none {plugins : List Json} (none : plugins.NoResult GivesOptions) :
    optionsOf? plugins = some AnalyzerOptions.none := by
  have nothing : plugins.findSome? analyzerOptions? = Option.none :=
    (List.findSome?_eq_none_iff_noResult fun _ _ _ => analyzerOptions?_eq_some_iff).mpr none
  simp only [optionsOf?, nothing]

section Writes

variable {text : String} {tagFormat? : Option String} {entries : List Document}
  (writes : Writes text tagFormat? entries) {path : Path}

include writes

theorem ofDocument?_of_readsAs {plugins : List Json}
    (read : List.Forall₂ (ReadsAs entryDepth) entries plugins) :
    ofDocument? text = some (tagFormat?, plugins) := by
  rw [ofDocument?_of_writes writes, Json.mapM_ofDocument?_eq_some_iff.mpr read, Option.map_some]

theorem Parses.parse_eq {result : Except ConfigError LegacySource}
    (parses : Parses path tagFormat? entries result) : parse text path = result := by
  cases parses with
  | unreadable entryMem unreadable =>
      have unread : entries.mapM (Json.ofDocument? entryDepth) = none := by
        refine Option.eq_none_iff_forall_ne_some.mpr ?_
        intro plugins pluginsRead
        have read := Json.mapM_ofDocument?_eq_some_iff.mp pluginsRead
        rcases List.exists_forall₂_iff.mp ⟨plugins, read⟩ _ entryMem with ⟨value, isRead⟩
        exact unreadable value isRead
      simp only [parse, ofDocument?_of_writes writes, unread, Option.map_none]
  | noAnalyzer read none =>
      simp only [parse, ofDocument?_of_readsAs writes read, optionsOf?_of_none none]
      rfl
  | badOptions read first refused =>
      simp only [parse, ofDocument?_of_readsAs writes read, optionsOf?_of_first first, refused]
  | badRules read first decoded refused =>
      simp only [parse, ofDocument?_of_readsAs writes read, optionsOf?_of_first first, decoded,
        refused]
  | parsed read first decoded checked =>
      simp only [parse, ofDocument?_of_readsAs writes read, optionsOf?_of_first first, decoded,
        checked]

theorem parse_eq_iff {result : Except ConfigError LegacySource} :
    parse text path = result ↔ Parses path tagFormat? entries result := by
  constructor
  · rintro rfl
    rcases exists_parses path tagFormat? entries with ⟨result, parses⟩
    rwa [parses.parse_eq writes]
  · exact Parses.parse_eq writes

end Writes

/-! ## What makes no difference -/

/-- The first entry decides alone: a document that has no other one says the same. -/
theorem parse_eq_of_first {text alone : String} {tagFormat? : Option String}
    {entries : List Document} {entry : Document} {plugins : List Json} {value given : Json}
    (writes : Writes text tagFormat? entries)
    (read : List.Forall₂ (ReadsAs entryDepth) entries plugins)
    (first : plugins.FirstResult GivesOptions given) (writesAlone : Writes alone tagFormat? [entry])
    (readAlone : ReadsAs entryDepth entry value) (gives : GivesOptions value given) (path : Path) :
    parse text path = parse alone path := by
  have onlyFirst : [value].FirstResult GivesOptions given :=
    ⟨[], value, [], rfl, List.forall_mem_nil _, gives⟩
  have onlyRead : List.Forall₂ (ReadsAs entryDepth) [entry] [value] :=
    List.Forall₂.cons readAlone List.Forall₂.nil
  simp only [parse, ofDocument?_of_readsAs writes read, ofDocument?_of_readsAs writesAlone onlyRead,
    optionsOf?_of_first first, optionsOf?_of_first onlyFirst]

section Members

variable {text other : String} {members others : List (List Json.StringPart × Document)}
  (isObject : Document.read? text = some (.object members)) (path : Path)

include isObject

theorem parse_of_unreadable_key (unreadable : ¬Json.KeysReadable members) :
    parse text path = .error (.invalidLegacy path .document) := by
  have unread : Json.ofNamedMembers? ["tagFormat", "plugins"] (Json.maxDepth - 1) members = none := by
    refine Option.eq_none_iff_forall_ne_some.mpr ?_
    intro values read
    exact unreadable (Json.exists_ofNamedMembers?_iff.mp ⟨values, read⟩).1
  simp only [parse, ofDocument?_of_unread isObject unread]

theorem parse_eq_of_named (otherIsObject : Document.read? other = some (.object others))
    (readable : Json.KeysReadable members) (othersReadable : Json.KeysReadable others)
    (agree : ∀ name ∈ ["tagFormat", "plugins"],
      Document.named members name = Document.named others name) :
    parse text path = parse other path := by
  have sameDocument : ofDocument? text = ofDocument? other := by
    rcases Json.ofNamedMembers?_alike (Json.maxDepth - 1) readable othersReadable agree with
      ⟨unread, othersUnread⟩ | ⟨values, more, read, moreRead, same⟩
    · rw [ofDocument?_of_unread isObject unread, ofDocument?_of_unread otherIsObject othersUnread]
    · have sameMember : ∀ name ∈ ["tagFormat", "plugins"],
          Json.member values name = Json.member more name := by
        intro name known
        rw [Json.member_eq_match_named, Json.member_eq_match_named, same name known]
      rw [ofDocument?_of_read isObject read, ofDocument?_of_read otherIsObject moreRead,
        sameMember "tagFormat" (by simp), sameMember "plugins" (by simp)]
  rw [parse, parse, sameDocument]

end Members

theorem writes_of_plugins {text : String} {entries : List Document}
    (isObject : Document.read? text =
      some (.object [("plugins".toList.map .char, .array entries)])) :
    Writes text none entries := by
  refine ⟨_, isObject, ?_, TagFormatWritten.missing, PluginsWritten.list⟩
  exact List.forall_mem_singleton.mpr ⟨"plugins", rfl⟩

/-- The first entry with the analyzer's name decides what a list of plugins says. If the reader
cannot read an entry, the document is refused. Otherwise the result is that of the options in the
first entry with the name: they may be malformed, their records may be refused, and nothing else is
tried then. Without such an entry there are no rules, and the keywords are the default ones. So the
document with that entry alone gives the same result. Other members have no influence as long as
their keys can be read. -/
theorem first_analyzer_entry_decides (path : Path) :
    (∀ text tagFormat? entries, Writes text tagFormat? entries → ∀ result,
      parse text path = result ↔ Parses path tagFormat? entries result) ∧
    (∀ text alone tagFormat? entries entry before name options after,
      Writes text tagFormat? entries →
      List.Forall₂ (ReadsAs entryDepth) entries
        (before ++ .array [.string name, options] :: after) →
      analyzerName.toList <:+: name.toList → before.NoResult GivesOptions →
      Writes alone tagFormat? [entry] →
      ReadsAs entryDepth entry (.array [.string name, options]) →
        parse text path = parse alone path) ∧
    (∀ text other members others, Document.read? text = some (.object members) →
      Document.read? other = some (.object others) →
      Json.KeysReadable members → Json.KeysReadable others →
      (∀ name ∈ ["tagFormat", "plugins"],
        Document.named members name = Document.named others name) →
        parse text path = parse other path) ∧
    ∀ text members, Document.read? text = some (.object members) → ¬Json.KeysReadable members →
      parse text path = .error (.invalidLegacy path .document) := by
  refine ⟨?_, ?_, ?_, ?_⟩
  · exact fun text tagFormat? entries writes result => parse_eq_iff writes
  · intro text alone tagFormat? entries entry before name options after writes read named noneBefore
      writesAlone readAlone
    have gives : GivesOptions (.array [.string name, options]) options := ⟨name, rfl, named⟩
    have first : (before ++ .array [.string name, options] :: after).FirstResult GivesOptions
        options :=
      ⟨before, _, after, rfl, noneBefore, gives⟩
    exact parse_eq_of_first writes read first writesAlone readAlone gives path
  · intro text other members others isObject otherIsObject readable othersReadable agree
    exact parse_eq_of_named isObject path otherIsObject readable othersReadable agree
  · exact fun text members isObject unreadable => parse_of_unreadable_key isObject path unreadable

/-- Other values stand on both sides of the entry, and a number out of range is no obstacle under a
name that is not known. -/
theorem first_analyzer_entry_decides_surrounded :
    let name := "@semantic-release/commit-analyzer"
    let entry : Document := .array [.string (name.toList.map .char), .array []]
    let text := "\x7b\"plugins\":[true,[\"@semantic-release/commit-analyzer\",[]],null]\x7d"
    let alone := "\x7b\"plugins\":[[\"@semantic-release/commit-analyzer\",[]]]\x7d"
    let unknown := "\x7b\"x\":1e999\x7d"
    let unreadable := "\x7b\"\\ud800\":0\x7d"
    let path : Path := ⟨"p"⟩
    Writes text none [.bool true, entry, .null] ∧ Writes alone none [entry] ∧
      parse text path = parse alone path ∧
      Parses path none [entry] (.ok ⟨none, .ofRules []⟩) ∧
      parse unknown path = parse "\x7b\x7d" path ∧
      parse unreadable path = .error (.invalidLegacy path .document) := by
  intro name entry text alone unknown unreadable path
  have textRead : Document.read? text = some (.object [("plugins".toList.map .char,
      .array [.bool true, entry, .null])]) := by
    simp only [text, entry, name]
    rfl
  have aloneRead : Document.read? alone = some (.object [("plugins".toList.map .char,
      .array [entry])]) := by
    simp only [alone, entry, name]
    rfl
  have unknownRead : Document.read? unknown =
      some (.object [([.char 'x'], .number ⟨false, 1, [], 999⟩)]) := by
    simp only [unknown]
    rfl
  have unreadableRead : Document.read? unreadable =
      some (.object [([.unit 0xD800], .number ⟨false, 0, [], 0⟩)]) := by
    simp only [unreadable]
    rfl
  have entryReads : Json.ofDocument? entryDepth entry =
      some (.array [.string name, .array []]) := by
    have nameRead : Json.stringOf? (name.toList.map .char) = some name := by
      decide
    simp [entry, entryDepth, Json.maxDepth, Json.ofDocument?, Json.ofItems?, nameRead]
  have read : List.Forall₂ (ReadsAs entryDepth) [.bool true, entry, .null]
      ([.bool true] ++ .array [.string name, .array []] :: [.null]) := by
    rw [← Json.mapM_ofDocument?_eq_some_iff, List.mapM_eq_some_iff]
    simp only [List.map_cons, entryReads]
    rfl
  have noneBefore : [Json.bool true].NoResult GivesOptions := by
    simp [List.NoResult, GivesOptions]
  have writesText := writes_of_plugins textRead
  have writesAlone := writes_of_plugins aloneRead
  rcases first_analyzer_entry_decides path with ⟨outcome, onlyFirst, members, keys⟩
  refine ⟨writesText, writesAlone, ?_, ?_, ?_, ?_⟩
  · exact onlyFirst text alone none _ entry _ name _ _ writesText read List.infix_rfl noneBefore
      writesAlone ((Json.ofDocument?_eq_some_iff _ _ _).mp entryReads)
  · exact (outcome alone none [entry] writesAlone _).mp (by decide +kernel)
  · exact members unknown "\x7b\x7d" _ [] unknownRead rfl
      (List.forall_mem_singleton.mpr ⟨"x", rfl⟩) (List.forall_mem_nil _)
      (List.forall_mem_cons.mpr ⟨rfl, List.forall_mem_singleton.mpr rfl⟩)
  · refine keys unreadable _ unreadableRead ?_
    intro readable
    rcases readable _ List.mem_cons_self with ⟨key, isKey⟩
    cases isKey

/-- A number out of range before the analyzer's entry refuses the document, and so does a key that is
half of a surrogate pair. Without them the documents are parsed. -/
theorem neighbours_beyond_limits_refuse_document :
    let name := "@semantic-release/commit-analyzer"
    let entry : Document := .array [.string (name.toList.map .char), .array []]
    let alone := "\x7b\"plugins\":[[\"@semantic-release/commit-analyzer\",[]]]\x7d"
    let preceded := "\x7b\"plugins\":[1e999,[\"@semantic-release/commit-analyzer\",[]]]\x7d"
    let keyed := "\x7b\"\\ud800\":0\x7d"
    let path : Path := ⟨"p"⟩
    Writes alone none [entry] ∧ Writes preceded none [.number ⟨false, 1, [], 999⟩, entry] ∧
      Document.read? keyed = some (.object [([.unit 0xD800], .number ⟨false, 0, [], 0⟩)]) ∧
      parse alone path = .ok ⟨none, .ofRules []⟩ ∧
      parse preceded path = .error (.invalidLegacy path .document) ∧
      parse "\x7b\x7d" path = .ok ⟨none, .ofRules []⟩ ∧
      parse keyed path = .error (.invalidLegacy path .document) := by
  intro name entry alone preceded keyed path
  refine ⟨writes_of_plugins ?_, writes_of_plugins ?_, ?_, ?_, ?_, ?_, ?_⟩
  · simp only [alone, entry, name]
    rfl
  · simp only [preceded, entry, name]
    rfl
  · simp only [keyed]
    rfl
  · decide +kernel
  · decide +kernel
  · decide
  · decide

end LegacySource

end ReleaseAdvisor
