/-!
# Control sequences

A message that quotes a text shows it without what a terminal would obey: control characters
other than white space, and the sequences that an escape character opens. There are four kinds
of sequences. After an opening bracket come parameters up to a letter or a similar mark. After a
closing bracket comes a title, which the bell ends. After `P` comes a device command: a header
and then a string. After some other marks comes a string at once. All others end at the first
character from `0` on. A new escape character or a cancelling one ends every sequence.

Of the characters beyond ASCII none is shown within a sequence, and none opens or moves one on.
A terminal reads bytes, though, and to it the byte `9C` ends a string. So a character with that
byte in its encoding ends a string as well. White space among the controls breaks a sequence
off, except in titles, device commands and strings, where it belongs to the text.
-/

namespace ReleaseAdvisor.Text

/-- Where in a control sequence a text is; `plain` is outside of all. -/
inductive SequencePhase where
  | plain
  | escape
  | intermediate
  | parameters
  | title
  | deviceStart
  | deviceParameters
  | deviceIntermediate
  | string
  deriving DecidableEq, Repr

namespace SequencePhase

/-- Whether white space belongs to the text of the sequence. -/
def holdsText : SequencePhase → Bool
  | .plain | .escape | .intermediate | .parameters => false
  | .title | .deviceStart | .deviceParameters | .deviceIntermediate | .string => true

def afterEscape (character : Char) : SequencePhase :=
  match character with
  | '[' => .parameters
  | ']' => .title
  | 'P' => .deviceStart
  | 'X' | '^' | '_' => .string
  | _ => if character < '0' then .intermediate else .plain

/-- The phase after a printable ASCII character. The header of a device command ends at a
letter, at a mark such as `<` that does not come first, or at a digit after an intermediate. -/
def afterPrintable (phase : SequencePhase) (character : Char) : SequencePhase :=
  match phase with
  | .plain => .plain
  | .escape => afterEscape character
  | .intermediate => if character < '0' then .intermediate else .plain
  | .parameters => if character < '@' then .parameters else .plain
  | .title => .title
  | .deviceStart =>
      if character < '0' then .deviceIntermediate
      else if character < '@' then .deviceParameters
      else .string
  | .deviceParameters =>
      if character < '0' then .deviceIntermediate
      else if character < '<' then .deviceParameters
      else .string
  | .deviceIntermediate => if character < '0' then .deviceIntermediate else .string
  | .string => .string

def afterWide (phase : SequencePhase) (character : Char) : SequencePhase :=
  if phase = .string ∧ 0x9c ∈ String.utf8EncodeChar character then .plain else phase

def isWhiteControl (character : Char) : Bool :=
  character ∈ ['\t', '\n', '\x0c', '\r']

def stepControl (phase : SequencePhase) (character : Char) : SequencePhase × List Char :=
  if phase = .title ∧ character = '\x07' then (.plain, [])
  else if !phase.holdsText && isWhiteControl character then (.plain, [character])
  else (phase, [])

/-- What a character does: the phase after it, and what is shown of it. -/
def step (phase : SequencePhase) (character : Char) : SequencePhase × List Char :=
  if character = '\x1b' then (.escape, [])
  else if character = '\x18' ∨ character = '\x1a' then (.plain, [])
  else if character < ' ' ∨ character = '\x7f' then stepControl phase character
  else if phase = .plain then (.plain, [character])
  else if '\x7f' < character then (afterWide phase character, [])
  else (afterPrintable phase character, [])

def shown (phase : SequencePhase) : List Char → List Char
  | [] => []
  | character :: rest =>
      let (next, visible) := phase.step character
      visible ++ next.shown rest

end SequencePhase

def withoutControls (text : String) : String :=
  String.ofList (SequencePhase.plain.shown text.toList)

end ReleaseAdvisor.Text
