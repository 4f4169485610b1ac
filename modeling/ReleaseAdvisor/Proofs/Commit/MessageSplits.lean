import Mathlib.Data.List.DropRight
import ReleaseAdvisor.Proofs.Commit.HistoryItems
import ReleaseAdvisor.Proofs.Commit.HistoryText
import ReleaseAdvisor.Proofs.Text.Trimming

/-!
# Messages as a header, a separator and a body

A message of several lines is a header and a body with a separator between them: carriage returns,
a line feed, and any line breaks after it. The parts can be told apart again. The header has no
line feed, so it lies before the first one, and since it does not end in a carriage return, those
in front of the line feed are all of the separator. In the same way the separator takes every line
break that the body does not start with. So a message has one such split, and a message that was
put together is split where it was joined.
-/

namespace ReleaseAdvisor.Commit

theorem splitMessage_of_oneLine {message : List Char} (oneLine : '\n' ∉ message) :
    splitMessage message = (message, []) := by
  have whole := Text.bne_of_not_mem oneLine
  rw [splitMessage, List.span_eq_takeWhile_dropWhile, List.takeWhile_eq_self_iff.mpr whole,
    List.dropWhile_eq_nil_iff.mpr whole]

theorem splitMessage_lineFeed {header : List Char} (oneLine : '\n' ∉ header) (body : List Char) :
    splitMessage (header ++ '\n' :: body) =
      (Text.dropEndWhile (· == '\r') header, body.dropWhile isLineBreak) := by
  have whole := Text.bne_of_not_mem oneLine
  rw [splitMessage, List.span_eq_takeWhile_dropWhile, List.takeWhile_append_of_pos whole,
    List.dropWhile_append_of_pos whole]
  simp

/-- A commit whose parts can be told apart in a message. -/
structure IsClean (commit : Commit) : Prop where
  header_oneLine : '\n' ∉ commit.header.toList
  header_ended : ∀ last ∈ commit.header.toList.getLast?, last ≠ '\r'
  body_begun : ∀ first ∈ commit.body.toList.head?, isLineBreak first = false

/-- What may stand between the header and the body of a message. -/
structure Separator where
  returns : Nat
  breaks : String
  breaks_only : ∀ character ∈ breaks.toList, isLineBreak character

def Separator.text (separator : Separator) : String :=
  String.ofList (List.replicate separator.returns '\r') ++ "\n" ++ separator.breaks

def joined (commit : Commit) (separator : Separator) : String :=
  commit.header ++ separator.text ++ commit.body

theorem toList_joined (commit : Commit) (separator : Separator) :
    (commit.joined separator).toList =
      (commit.header.toList ++ List.replicate separator.returns '\r') ++
        '\n' :: (separator.breaks.toList ++ commit.body.toList) := by
  simp [joined, Separator.text]

theorem ofMessage_joined {commit : Commit} (clean : commit.IsClean) (separator : Separator) :
    ofMessage (commit.joined separator) = commit := by
  rcases clean with ⟨oneLine, ended, begun⟩
  have returnsOneLine : '\n' ∉ commit.header.toList ++ List.replicate separator.returns '\r' := by
    simp [oneLine]
  have header : Text.dropEndWhile (· == '\r')
      (commit.header.toList ++ List.replicate separator.returns '\r') = commit.header.toList := by
    apply Text.dropEndWhile_append_of_stops
    · simp
    · simpa using ended
  have body : (separator.breaks.toList ++ commit.body.toList).dropWhile isLineBreak =
      commit.body.toList :=
    Text.dropWhile_append_of_stops separator.breaks_only begun
  rw [ofMessage, toList_joined, splitMessage_lineFeed returnsOneLine, header, body]
  simp

theorem ofMessage_of_oneLine {message : String} (oneLine : '\n' ∉ message.toList) :
    ofMessage message = ⟨message, ""⟩ := by
  simp [ofMessage, splitMessage_of_oneLine oneLine]

/-- The separator that stands between a first line and what follows its line feed. -/
def separatorBetween (line rest : List Char) : Separator where
  returns := (line.rtakeWhile (· == '\r')).length
  breaks := String.ofList (rest.takeWhile isLineBreak)
  breaks_only := by
    intro character inBreaks
    rw [String.toList_ofList] at inBreaks
    exact List.mem_takeWhile_imp inBreaks

theorem replicate_length_rtakeWhile (line : List Char) :
    List.replicate (line.rtakeWhile (· == '\r')).length '\r' = line.rtakeWhile (· == '\r') := by
  refine (List.eq_replicate_iff.mpr ⟨rfl, ?_⟩).symm
  intro character inReturns
  simpa using List.mem_rtakeWhile_imp inReturns

/-- What a message of several lines is split into is clean, and the message joins it again. -/
theorem exists_joined_ofMessage {message : String} (ended : '\n' ∈ message.toList) :
    (ofMessage message).IsClean ∧ ∃ separator, (ofMessage message).joined separator = message := by
  rcases List.eq_append_cons_of_mem ended with ⟨line, rest, messageEq, oneLine⟩
  have split : ofMessage message =
      ⟨String.ofList (Text.dropEndWhile (· == '\r') line),
        String.ofList (rest.dropWhile isLineBreak)⟩ := by
    rw [ofMessage, messageEq, splitMessage_lineFeed oneLine]
  rw [split]
  refine ⟨⟨?_, ?_, ?_⟩, separatorBetween line rest, ?_⟩
  · rw [String.toList_ofList]
    exact fun inHeader => oneLine ((List.rdropWhile_prefix _ line).subset inHeader)
  · intro last isLast
    rw [String.toList_ofList] at isLast
    simpa using Text.stops_of_dropEndWhile isLast
  · intro first isFirst
    rw [String.toList_ofList] at isFirst
    exact Text.stops_of_dropWhile isFirst
  · rw [← String.toList_inj, toList_joined, messageEq]
    simp only [separatorBetween, String.toList_ofList, replicate_length_rtakeWhile,
      Text.dropEndWhile_eq_rdropWhile, List.rdropWhile_append_rtakeWhile,
      List.takeWhile_append_dropWhile]

/-- A message of several lines is split at the one place where both parts come out clean, and a
message of one line is all header. A clean commit comes back from every message that joins it, so
in a list of commits the message says the same as the pair. -/
theorem messages_split_where_joined :
    (∀ message : String, '\n' ∈ message.toList → ∀ commit : Commit,
      ofMessage message = commit ↔
        commit.IsClean ∧ ∃ separator, commit.joined separator = message) ∧
    (∀ message : String, '\n' ∉ message.toList → ofMessage message = ⟨message, ""⟩) ∧
    (∀ commit : Commit, commit.IsClean → ∀ separator : Separator,
      ofMessage (commit.joined separator) = commit ∧
      ∀ text other before after,
        Json.parse? text = some (.array (before ++ .string (commit.joined separator) :: after)) →
        Json.parse? other = some (.array (before ++ commit.toJson :: after)) →
          parseHistory text = parseHistory other) := by
  refine ⟨?_, fun _ => ofMessage_of_oneLine, ?_⟩
  · intro message ended commit
    constructor
    · rintro rfl
      exact exists_joined_ofMessage ended
    · rintro ⟨clean, separator, rfl⟩
      exact ofMessage_joined clean separator
  · intro commit clean separator
    have splits := ofMessage_joined clean separator
    refine ⟨splits, ?_⟩
    intro text other before after isText isOther
    apply parseHistory_congr isText isOther
    simp [ofJson?, toJson, Json.member, splits]

/-- The separator takes the line breaks in front of the body and leaves those behind it. -/
theorem messages_split_where_joined_returns :
    let commit : Commit := ⟨"fix(a): b", "c\r\n"⟩
    let separator : Separator := ⟨2, "\r\n\n", by simp [isLineBreak]⟩
    let text := (Json.array ([.string "d"] ++ .string (commit.joined separator) :: [])).toLine
    let other := (Json.array ([.string "d"] ++ commit.toJson :: [])).toText
    commit.IsClean ∧ '\n' ∈ (commit.joined separator).toList ∧
      ofMessage "fix(a): b\r\r\n\r\n\nc\r\n" = commit ∧
      '\n' ∉ "fix: b\r".toList ∧ ofMessage "fix: b\r" = ⟨"fix: b\r", ""⟩ ∧
      Json.parse? text =
        some (.array ([.string "d"] ++ .string (commit.joined separator) :: [])) ∧
      Json.parse? other = some (.array ([.string "d"] ++ commit.toJson :: [])) ∧
      parseHistory text = parseHistory other := by
  intro commit separator text other
  have clean : commit.IsClean :=
    ⟨by decide, by simp [commit], by simp [commit, isLineBreak]⟩
  have ended : '\n' ∈ (commit.joined separator).toList := by
    decide
  have oneLine : '\n' ∉ "fix: b\r".toList := by
    decide
  have isText : Json.parse? text =
      some (.array ([.string "d"] ++ .string (commit.joined separator) :: [])) := by
    apply Json.parse?_eq_some_iff.mpr
    refine ⟨Json.read?_toLine _, Json.Within.array ?_⟩
    simp [Json.Within.string]
  have isOther : Json.parse? other = some (.array ([.string "d"] ++ commit.toJson :: [])) := by
    apply Json.parse?_eq_some_iff.mpr
    refine ⟨Json.read?_toText _, Json.Within.array ?_⟩
    simp [Json.Within.string, commit.within_toJson 125]
  have splits := (messages_split_where_joined.1 _ ended commit).mpr ⟨clean, separator, rfl⟩
  exact ⟨clean, ended, splits, oneLine, messages_split_where_joined.2.1 _ oneLine, isText, isOther,
    (messages_split_where_joined.2.2 commit clean separator).2 _ _ _ _ isText isOther⟩

end ReleaseAdvisor.Commit
