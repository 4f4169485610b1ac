import Mathlib.Tactic.SplitIfs
import ReleaseAdvisor.Json.Writer

/-!
# The spelling of tokens

What the lexer makes of the pieces that a writer puts together. `Lexer.tokensFrom?` reads a text
from a state on; a piece is then followed through its states, whatever text comes behind it.

Only a number does not end by itself: it takes every character that continues it. So a text spells
its tokens if it is read as them in front of each text that may stand behind a value, and such a
text starts with a comma, a closing bracket or a line feed.
-/

namespace ReleaseAdvisor.Json

namespace Lexer

/-- The tokens of a text that is read from a state on. -/
def tokensFrom? : State → List Char → Option (List Token)
  | state, [] => finish? state
  | state, character :: rest =>
      (step state character).bind fun (next, completed) =>
        (tokensFrom? next rest).map (completed ++ ·)

theorem foldlM_advance (text : List Char) (state : State) (completed : List Token) :
    (do
      let (last, done) ← text.foldlM advance (state, completed)
      let tokens ← finish? last
      pure (done.reverse ++ tokens)) =
      (tokensFrom? state text).map (completed.reverse ++ ·) := by
  induction text generalizing state completed with
  | nil =>
      rw [List.foldlM_nil, tokensFrom?]
      change (finish? state).bind _ = _
      cases finish? state with
      | none => rfl
      | some last => rfl
  | cons character rest ih =>
      rw [List.foldlM_cons, tokensFrom?, advance]
      cases step state character with
      | none => rfl
      | some result =>
          refine Eq.trans (ih _ _) ?_
          rw [Option.bind_some, Option.map_map]
          simp [Function.comp_def]

theorem tokens?_eq_tokensFrom? (text : List Char) : tokens? text = tokensFrom? .between text := by
  refine Eq.trans (foldlM_advance text .between []) ?_
  simp

variable {state next : State} {character : Char}

theorem tokensFrom?_of_step {completed : List Token}
    (taken : step state character = some (next, completed)) (rest : List Char) :
    tokensFrom? state (character :: rest) = (tokensFrom? next rest).map (completed ++ ·) := by
  rw [tokensFrom?, taken, Option.bind_some]

theorem tokensFrom?_of_silent_step (taken : step state character = some (next, []))
    (rest : List Char) : tokensFrom? state (character :: rest) = tokensFrom? next rest := by
  rw [tokensFrom?_of_step taken]
  simp

/-- The word of a literal, once its first letter has been read. -/
theorem tokensFrom?_word {missing : List Char} (nonempty : missing ≠ []) (token : Token)
    (rest : List Char) :
    tokensFrom? (.word missing token) (missing ++ rest) =
      (tokensFrom? .between rest).map (token :: ·) := by
  induction missing with
  | nil => contradiction
  | cons letter more ih =>
      cases more with
      | nil =>
          have last : step (.word [letter] token) letter = some (.between, [token]) := by
            simp [step]
          exact tokensFrom?_of_step last rest
      | cons second others =>
          have next : step (.word (letter :: second :: others) token) letter =
              some (.word (second :: others) token, []) := by
            simp [step]
          rw [List.cons_append, tokensFrom?_of_silent_step next]
          exact ih (List.cons_ne_nil second others)

end Lexer

/-- The part of a string literal that a written character is read as. -/
def StringPart.written (character : Char) : StringPart :=
  if character < ' ' ∧ character ∉ ['\x08', '\x0c', '\n', '\r', '\t'] then
    .unit character.toNat
  else .char character

theorem hexDigit?_hexDigit {value : Nat} (inRange : value < 16) :
    Lexer.hexDigit? (hexDigit value) = some value := by
  revert value
  decide

namespace Lexer

theorem tokensFrom?_backslash (parts : List StringPart) (rest : List Char) :
    tokensFrom? (.string parts .plain) ('\\' :: rest) = tokensFrom? (.string parts .escape) rest :=
  tokensFrom?_of_silent_step rfl rest

theorem tokensFrom?_shortEscape {letter meant : Char} (notUnit : letter ≠ 'u')
    (short : shortEscape? letter = some meant) (parts : List StringPart) (rest : List Char) :
    tokensFrom? (.string parts .plain) ('\\' :: letter :: rest) =
      tokensFrom? (.string (.char meant :: parts) .plain) rest := by
  have taken : step (.string parts .escape) letter =
      some (.string (.char meant :: parts) .plain, []) := by
    simp [step, stepString, notUnit, short]
  rw [tokensFrom?_backslash, tokensFrom?_of_silent_step taken]

/-- A `\u` escape whose first two digits are zero. -/
theorem tokensFrom?_unitEscape (high low : Nat) (highInRange : high < 16)
    (lowInRange : low < 16) (parts : List StringPart) (rest : List Char) :
    tokensFrom? (.string parts .plain)
        ('\\' :: 'u' :: '0' :: '0' :: hexDigit high :: hexDigit low :: rest) =
      tokensFrom? (.string (.unit (high * 16 + low) :: parts) .plain) rest := by
  have start : step (.string parts .escape) 'u' = some (.string parts (.unit 3 0), []) := rfl
  have zero : step (.string parts (.unit 3 0)) '0' = some (.string parts (.unit 2 0), []) := rfl
  have second : step (.string parts (.unit 2 0)) '0' = some (.string parts (.unit 1 0), []) := rfl
  have third : step (.string parts (.unit 1 0)) (hexDigit high) =
      some (.string parts (.unit 0 high), []) := by
    simp [step, stepString, hexDigit?_hexDigit highInRange]
  have last : step (.string parts (.unit 0 high)) (hexDigit low) =
      some (.string (.unit (high * 16 + low) :: parts) .plain, []) := by
    simp [step, stepString, hexDigit?_hexDigit lowInRange]
  rw [tokensFrom?_backslash, tokensFrom?_of_silent_step start, tokensFrom?_of_silent_step zero,
    tokensFrom?_of_silent_step second, tokensFrom?_of_silent_step third,
    tokensFrom?_of_silent_step last]

/-- A written character is read as one part, whatever it is escaped to. -/
theorem tokensFrom?_escape (parts : List StringPart) (character : Char) (rest : List Char) :
    tokensFrom? (.string parts .plain) (escape character ++ rest) =
      tokensFrom? (.string (.written character :: parts) .plain) rest := by
  unfold escape
  split
  · exact tokensFrom?_shortEscape (by decide) rfl parts rest
  · exact tokensFrom?_shortEscape (by decide) rfl parts rest
  · exact tokensFrom?_shortEscape (by decide) rfl parts rest
  · exact tokensFrom?_shortEscape (by decide) rfl parts rest
  · exact tokensFrom?_shortEscape (by decide) rfl parts rest
  · exact tokensFrom?_shortEscape (by decide) rfl parts rest
  · exact tokensFrom?_shortEscape (by decide) rfl parts rest
  · rename_i notQuote notBackslash _ _ _ _ _
    split
    · rename_i isControl
      have inRange : character.toNat < 32 := isControl
      have written : StringPart.written character = .unit character.toNat := by
        simp_all [StringPart.written]
      have whole : character.toNat / 16 * 16 + character.toNat % 16 = character.toNat := by
        omega
      have unit := tokensFrom?_unitEscape (character.toNat / 16) (character.toNat % 16)
        (by omega) (by omega) parts rest
      rw [whole, ← written] at unit
      exact unit
    · rename_i notControl
      have written : StringPart.written character = .char character := by
        simp [StringPart.written, notControl]
      have taken : step (.string parts .plain) character =
          some (.string (.char character :: parts) .plain, []) := by
        simp_all [step, stepString]
      rw [written]
      exact tokensFrom?_of_silent_step taken rest

theorem tokensFrom?_quote (text : String) (rest : List Char) :
    tokensFrom? .between (quote text ++ rest) =
      (tokensFrom? .between rest).map (.string (text.toList.map .written) :: ·) := by
  have content : ∀ (characters : List Char) (parts : List StringPart),
      tokensFrom? (.string parts .plain) (characters.flatMap escape ++ '"' :: rest) =
        (tokensFrom? .between rest).map
          (.string (parts.reverse ++ characters.map .written) :: ·) := by
    intro characters
    induction characters with
    | nil =>
        intro parts
        have closing : step (.string parts .plain) '"' =
            some (.between, [.string parts.reverse]) := rfl
        rw [List.map_nil, List.append_nil]
        exact tokensFrom?_of_step closing rest
    | cons character more ih =>
        intro parts
        rw [List.flatMap_cons, List.append_assoc, tokensFrom?_escape, ih]
        simp
  have opening : step .between '"' = some (.string [] .plain, []) := rfl
  rw [quote, List.append_assoc, List.cons_append, tokensFrom?_of_silent_step opening]
  exact content text.toList []

theorem digit?_digitChar : ∀ digit : Fin 10, digit? digit.val.digitChar = some digit := by
  decide

/-- The digits of a positive number, if `reached` says which state the digits read so far lead
to. -/
theorem tokensFrom?_digits {before : State} (reached : Nat → State)
    (first : ∀ digit : Fin 10, digit.val ≠ 0 →
      step before digit.val.digitChar = some (reached digit, []))
    (further : ∀ value, ∀ digit : Fin 10,
      step (reached value) digit.val.digitChar = some (reached (value * 10 + digit), []))
    {value : Nat} (positive : value ≠ 0) (rest : List Char) :
    tokensFrom? before (Nat.toDigits 10 value ++ rest) = tokensFrom? (reached value) rest := by
  -- The last digit is split off, so the induction is on the number without it.
  induction value using Nat.strongRecOn generalizing rest with
  | _ value ih =>
      rw [Nat.toDigits_eq_if (by decide)]
      split
      · rename_i isDigit
        exact tokensFrom?_of_silent_step (first ⟨value, isDigit⟩ positive) rest
      · rename_i notDigit
        have taken := further (value / 10) ⟨value % 10, by omega⟩
        have split : value / 10 * 10 + value % 10 = value := by
          omega
        simp only [split] at taken
        rw [List.append_assoc, ih (value / 10) (by omega) (by omega)]
        exact tokensFrom?_of_silent_step taken rest

/-- Where the spelling of a number ends. -/
def NumberPhase.last (number : Number) : NumberPhase :=
  if number.exponent ≠ 0 then .exponent
  else if number.fraction ≠ [] then .fraction
  else if number.whole = 0 then .zero else .whole

/-- The draft that holds all of a number. -/
def NumberDraft.complete (number : Number) : NumberDraft :=
  ⟨.last number, number.negative, number.whole, number.fraction.reverse, number.exponent < 0,
    number.exponent.natAbs⟩

theorem NumberDraft.finish?_complete (number : Number) :
    (complete number).finish? = some number := by
  have exponent : (if number.exponent < 0 then -(number.exponent.natAbs : Int)
      else number.exponent.natAbs) = number.exponent := by
    split <;> omega
  simp only [finish?, complete, decide_eq_true_eq, List.reverse_reverse, exponent,
    NumberPhase.last]
  split_ifs <;> rfl

theorem tokensFrom?_whole (negative : Bool) (whole : Nat) (rest : List Char) :
    tokensFrom? .between
        ((if negative then ['-'] else []) ++ Nat.toDigits 10 whole ++ rest) =
      tokensFrom? (.number (.complete ⟨negative, whole, [], 0⟩)) rest := by
  have fromSign : ∀ before : State,
      (∀ digit : Fin 10, step before digit.val.digitChar =
        some (.number (.complete ⟨negative, digit, [], 0⟩), [])) →
      tokensFrom? before (Nat.toDigits 10 whole ++ rest) =
        tokensFrom? (.number (.complete ⟨negative, whole, [], 0⟩)) rest := by
    intro before first
    by_cases isZero : whole = 0
    · subst whole
      exact tokensFrom?_of_silent_step (first 0) rest
    · have further : ∀ value, ∀ digit : Fin 10,
          step (.number (.start .whole negative value)) digit.val.digitChar =
            some (.number (.start .whole negative (value * 10 + digit)), []) := by
        intro value digit
        simp [step, NumberDraft.extend?, NumberDraft.start, digit?_digitChar]
      have complete : ∀ value, value ≠ 0 →
          NumberDraft.complete ⟨negative, value, [], 0⟩ = .start .whole negative value := by
        intro value positive
        simp [NumberDraft.complete, NumberPhase.last, NumberDraft.start, positive]
      rw [complete whole isZero]
      apply tokensFrom?_digits (fun value => .number (.start .whole negative value)) _ further
        isZero
      intro digit positive
      rw [first digit, complete digit positive]
  cases negative with
  | false => exact fromSign .between (by decide)
  | true =>
      have sign : step .between '-' = some (.number (.start .sign true 0), []) := rfl
      rw [if_pos rfl, List.append_assoc, List.singleton_append, tokensFrom?_of_silent_step sign]
      exact fromSign (.number (.start .sign true 0)) (by decide)

theorem tokensFrom?_fraction (negative : Bool) (whole : Nat) (fraction : List (Fin 10))
    (rest : List Char) :
    tokensFrom? (.number (.complete ⟨negative, whole, [], 0⟩))
        ((if fraction.isEmpty then []
          else '.' :: fraction.map fun digit => digit.val.digitChar) ++ rest) =
      tokensFrom? (.number (.complete ⟨negative, whole, fraction, 0⟩)) rest := by
  have digits : ∀ (more before : List (Fin 10)),
      tokensFrom? (.number ⟨.fraction, negative, whole, before, false, 0⟩)
          (more.map (fun digit => digit.val.digitChar) ++ rest) =
        tokensFrom? (.number ⟨.fraction, negative, whole, more.reverse ++ before, false, 0⟩)
          rest := by
    intro more
    induction more with
    | nil =>
        intro before
        rfl
    | cons digit others ih =>
        intro before
        have taken : step (.number ⟨.fraction, negative, whole, before, false, 0⟩)
            digit.val.digitChar =
              some (.number ⟨.fraction, negative, whole, digit :: before, false, 0⟩, []) := by
          simp [step, NumberDraft.extend?, digit?_digitChar]
        rw [List.map_cons, List.cons_append, tokensFrom?_of_silent_step taken, ih]
        simp
  cases fraction with
  | nil => rfl
  | cons first more =>
      have point : step (.number (.complete ⟨negative, whole, [], 0⟩)) '.' =
          some (.number ⟨.point, negative, whole, [], false, 0⟩, []) := by
        by_cases isZero : whole = 0 <;>
          simp [step, NumberDraft.complete, NumberPhase.last, NumberDraft.extend?, isZero, digit?]
      have opening : step (.number ⟨.point, negative, whole, [], false, 0⟩) first.val.digitChar =
          some (.number ⟨.fraction, negative, whole, [first], false, 0⟩, []) := by
        simp [step, NumberDraft.extend?, digit?_digitChar]
      have complete : NumberDraft.complete ⟨negative, whole, first :: more, 0⟩ =
          ⟨.fraction, negative, whole, more.reverse ++ [first], false, 0⟩ := by
        simp [NumberDraft.complete, NumberPhase.last]
      rw [complete, ← digits, List.isEmpty_cons, if_neg Bool.false_ne_true, List.map_cons,
        List.cons_append, tokensFrom?_of_silent_step point, List.cons_append,
        tokensFrom?_of_silent_step opening]

theorem tokensFrom?_exponent (number : Number) (rest : List Char) :
    tokensFrom? (.number (.complete { number with exponent := 0 }))
        ((if number.exponent = 0 then []
          else 'e' :: (if number.exponent < 0 then ['-'] else []) ++
            Nat.toDigits 10 number.exponent.natAbs) ++ rest) =
      tokensFrom? (.number (.complete number)) rest := by
  rcases number with ⟨negative, whole, fraction, exponent⟩
  by_cases isZero : exponent = 0
  · subst exponent
    rfl
  · have mark : step (.number (.complete ⟨negative, whole, fraction, 0⟩)) 'e' =
        some (.number ⟨.mark, negative, whole, fraction.reverse, false, 0⟩, []) := by
      simp only [step, NumberDraft.complete, NumberPhase.last, ne_eq, not_true_eq_false, if_false]
      split_ifs <;> simp [NumberDraft.extend?, digit?]
    have sign : step (.number ⟨.mark, negative, whole, fraction.reverse, false, 0⟩) '-' =
        some (.number ⟨.exponentSign, negative, whole, fraction.reverse, true, 0⟩, []) := rfl
    have complete : NumberDraft.complete ⟨negative, whole, fraction, exponent⟩ =
        ⟨.exponent, negative, whole, fraction.reverse, exponent < 0, exponent.natAbs⟩ := by
      simp [NumberDraft.complete, NumberPhase.last, isZero]
    have positive : exponent.natAbs ≠ 0 := by
      simpa using isZero
    have digits : ∀ (phase : NumberPhase) (below : Bool),
        phase = .mark ∨ phase = .exponentSign →
        tokensFrom? (.number ⟨phase, negative, whole, fraction.reverse, below, 0⟩)
            (Nat.toDigits 10 exponent.natAbs ++ rest) =
          tokensFrom? (.number ⟨.exponent, negative, whole, fraction.reverse, below,
            exponent.natAbs⟩) rest := by
      intro phase below opens
      apply tokensFrom?_digits (fun value =>
        .number ⟨.exponent, negative, whole, fraction.reverse, below, value⟩) _ _ positive
      · intro digit _
        rcases opens with rfl | rfl <;> simp [step, NumberDraft.extend?, digit?_digitChar]
      · intro value digit
        simp [step, NumberDraft.extend?, digit?_digitChar]
    rw [complete, if_neg isZero, List.cons_append, List.cons_append,
      tokensFrom?_of_silent_step mark]
    by_cases below : exponent < 0
    · rw [if_pos below, List.append_assoc, List.singleton_append, tokensFrom?_of_silent_step sign]
      simpa [below] using digits .exponentSign true (Or.inr rfl)
    · rw [if_neg below, List.nil_append]
      simpa [below] using digits .mark false (Or.inl rfl)

theorem tokensFrom?_written (number : Number) (rest : List Char) :
    tokensFrom? .between (number.written ++ rest) =
      tokensFrom? (.number (.complete number)) rest := by
  rw [Number.written]
  simp only [List.append_assoc]
  rw [← List.append_assoc, tokensFrom?_whole, tokensFrom?_fraction]
  exact tokensFrom?_exponent number rest

/-- The characters that a writer puts behind a value; none of them continues a number. -/
def closers : List Char :=
  [',', ']', '}', '\n']

/-- A text that may stand behind a value. -/
def Follows (rest : List Char) : Prop :=
  ∀ first ∈ rest.head?, first ∈ closers

theorem follows_nil : Follows [] := by
  simp [Follows]

theorem follows_cons {first : Char} (isCloser : first ∈ closers) (rest : List Char) :
    Follows (first :: rest) := by
  simpa [Follows] using isCloser

theorem extend?_closer (draft : NumberDraft) {character : Char} (isCloser : character ∈ closers) :
    draft.extend? character = none := by
  rcases draft with ⟨phase, _, _, _, _, _⟩
  simp only [closers, List.mem_cons, List.not_mem_nil, or_false] at isCloser
  rcases isCloser with rfl | rfl | rfl | rfl <;> cases phase <;> rfl

theorem tokensFrom?_number {draft : NumberDraft} {number : Number}
    (finished : draft.finish? = some number) {rest : List Char} (follows : Follows rest) :
    tokensFrom? (.number draft) rest = (tokensFrom? .between rest).map (.number number :: ·) := by
  cases rest with
  | nil => simp [tokensFrom?, finish?, finished]
  | cons first more =>
      have stops := extend?_closer draft (follows first rfl)
      simp only [tokensFrom?, step, stops, finished]
      cases start first with
      | none => rfl
      | some result =>
          simp only [Option.bind_eq_bind, Option.bind_some, Option.pure_def, Option.map_map]
          rfl

/-- A text that is read as some tokens wherever it stands in front of a text that may follow. -/
def Spells (text : List Char) (tokens : List Token) : Prop :=
  ∀ rest, Follows rest →
    tokensFrom? .between (text ++ rest) = (tokensFrom? .between rest).map (tokens ++ ·)

namespace Spells

variable {text more : List Char} {tokens moreTokens : List Token}

theorem nil : Spells [] [] := by
  intro rest _
  simp

theorem mark {character : Char} {token : Token}
    (started : step .between character = some (.between, [token]))
    (spelled : Spells more moreTokens) : Spells (character :: more) (token :: moreTokens) := by
  intro rest follows
  rw [List.cons_append, tokensFrom?_of_step started, spelled rest follows, Option.map_map]
  rfl

theorem blank {character : Char} (silent : step .between character = some (.between, []))
    (spelled : Spells text tokens) : Spells (character :: text) tokens := by
  intro rest follows
  rw [List.cons_append, tokensFrom?_of_silent_step silent]
  exact spelled rest follows

theorem word {first : Char} {letters : List Char} {token : Token} (nonempty : letters ≠ [])
    (started : step .between first = some (.word letters token, [])) :
    Spells (first :: letters) [token] := by
  intro rest _
  rw [List.cons_append, tokensFrom?_of_silent_step started, tokensFrom?_word nonempty]
  rfl

theorem quote (content : String) (spelled : Spells more moreTokens) :
    Spells (Json.quote content ++ more)
      (.string (content.toList.map .written) :: moreTokens) := by
  intro rest follows
  rw [List.append_assoc, tokensFrom?_quote, spelled rest follows, Option.map_map]
  rfl

theorem string (content : String) :
    Spells (Json.quote content) [.string (content.toList.map .written)] := by
  have spelled := quote content nil
  rwa [List.append_nil] at spelled

theorem number (value : Number) : Spells value.written [.number value] := by
  intro rest follows
  rw [tokensFrom?_written, tokensFrom?_number (NumberDraft.finish?_complete value) follows]
  rfl

theorem spaces {gap : List Char} (allSpaces : ∀ character ∈ gap, character ∈ [' ', '\n'])
    (spelled : Spells text tokens) : Spells (gap ++ text) tokens := by
  induction gap with
  | nil => exact spelled
  | cons first others ih =>
      have silent : step .between first = some (.between, []) := by
        have isSpace := allSpaces first List.mem_cons_self
        simp only [List.mem_cons, List.not_mem_nil, or_false] at isSpace
        rcases isSpace with rfl | rfl <;> rfl
      apply blank silent
      apply ih
      intro character characterMem
      exact allSpaces character (List.mem_cons_of_mem first characterMem)

/-- Two spelled texts in a row, if the second may stand behind a value. -/
theorem append (spelled : Spells text tokens) {first : Char} (isCloser : first ∈ closers)
    (later : Spells (first :: more) moreTokens) :
    Spells (text ++ first :: more) (tokens ++ moreTokens) := by
  intro rest follows
  rw [List.append_assoc, List.cons_append, spelled _ (follows_cons isCloser _),
    ← List.cons_append, later rest follows, Option.map_map]
  simp [Function.comp_def]

end Spells

theorem tokens?_of_spells {text : List Char} {tokens : List Token} (spelled : Spells text tokens) :
    tokens? text = some tokens := by
  have read := spelled [] follows_nil
  simpa [tokens?_eq_tokensFrom?, tokensFrom?, finish?] using read

end Lexer

end ReleaseAdvisor.Json
