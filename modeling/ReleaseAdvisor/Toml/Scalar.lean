import ReleaseAdvisor.Binary64
import ReleaseAdvisor.Toml.Table

/-!
# Numbers, dates and booleans of TOML

These values are written without quotes, as one run of letters, digits and `_ + - . :`; only a
date and a time may be separated by a space. `Toml.scalar?` says what such a run means.

Integers fit 64 bits. A float that is too large for binary floating point is refused unless it is
negative. Dates exist in the calendar; a time has its seconds, of which there may be sixty.
-/

namespace ReleaseAdvisor.Toml

def isScalarCharacter (character : Char) : Bool :=
  character.isAlphanum || character ∈ ['_', '+', '-', '.', ':']

def digitValue (character : Char) : Nat :=
  if character.isDigit then character.toNat - 48
  else if 'a' ≤ character ∧ character ≤ 'f' then character.toNat - 87
  else if 'A' ≤ character ∧ character ≤ 'F' then character.toNat - 55
  else 36

def isDigitIn (base : Nat) (character : Char) : Bool :=
  digitValue character < base

/-- The number that some digits write in a base. -/
def ofDigits (base : Nat) (digits : List Char) : Nat :=
  digits.foldl (fun value digit => value * base + digitValue digit) 0

/-- The digits of a run in which single underscores may stand between digits. -/
def underscored? (base : Nat) : List Char → Option (List Char)
  | [] => none
  | [digit] => if isDigitIn base digit then some [digit] else none
  | digit :: '_' :: rest =>
      if isDigitIn base digit then (underscored? base rest).map (digit :: ·) else none
  | digit :: rest =>
      if isDigitIn base digit then (underscored? base rest).map (digit :: ·) else none

def splitSign : List Char → Bool × List Char
  | '-' :: rest => (true, rest)
  | '+' :: rest => (false, rest)
  | text => (false, text)

/-- The digits of a decimal whole number, which starts with zero only if it is zero. -/
def wholeDigits? (text : List Char) : Option (List Char) :=
  match text with
  | '0' :: _ :: _ => none
  | _ => underscored? 10 text

def integer? (text : List Char) : Option Int :=
  match text with
  | '0' :: 'x' :: digits => inBase 16 digits
  | '0' :: 'o' :: digits => inBase 8 digits
  | '0' :: 'b' :: digits => inBase 2 digits
  | _ => do
      let (negative, digits) := splitSign text
      let magnitude := ofDigits 10 (← wholeDigits? digits)
      let value : Int := if negative then -magnitude else magnitude
      if -Nat.pow 2 63 ≤ value ∧ value < Nat.pow 2 63 then some value else none
where
  inBase (base : Nat) (digits : List Char) : Option Int := do
    let value := ofDigits base (← underscored? base digits)
    if value < Nat.pow 2 63 then some value else none

/-- Whether `digits · 10 ^ power` rounds to infinity. The powers that a comparison needs are
bounded by the number of digits. -/
def roundsToInfinity (digits : List Char) (power : Int) : Bool :=
  let significand := ofDigits 10 digits
  let size := (Nat.toDigits 10 significand).length + power
  if significand == 0 || size ≤ 0 then false
  else if size > 310 then true
  else if power < 0 then Binary64.overflow * Nat.pow 10 power.natAbs ≤ significand
  else Binary64.overflow ≤ significand * Nat.pow 10 power.toNat

/-- Whether a run writes a decimal float: a whole number with a fraction, a power of ten or
both. -/
def isDecimalFloat (text : List Char) : Bool :=
  let isMark := fun character : Char => character == 'e' || character == 'E'
  let (negative, unsigned) := splitSign text
  let (mantissa, scale) := unsigned.span (!isMark ·)
  let (whole, fraction) := mantissa.span (· != '.')
  let fractionDigits? :=
    match fraction with
    | [] => some []
    | _ :: digits => underscored? 10 digits
  let power? : Option Int :=
    match scale with
    | [] => some 0
    | _ :: signed =>
        let (down, digits) := splitSign signed
        (underscored? 10 digits).map fun digits =>
          if down then -(ofDigits 10 digits : Int) else ofDigits 10 digits
  match wholeDigits? whole, fractionDigits?, power? with
  | some wholePart, some fractionPart, some power =>
      !(fraction.isEmpty && scale.isEmpty) &&
        (negative || !roundsToInfinity (wholePart ++ fractionPart) (power - fractionPart.length))
  | _, _, _ => false

def isSpecialFloat (text : List Char) : Bool :=
  let (_, unsigned) := splitSign text
  unsigned = ['i', 'n', 'f'] || unsigned = ['n', 'a', 'n']

def fixed? (count low high : Nat) (text : List Char) : Option (Nat × List Char) :=
  let digits := text.take count
  let value := ofDigits 10 digits
  if digits.length = count ∧ digits.all (isDigitIn 10) ∧ low ≤ value ∧ value ≤ high then
    some (value, text.drop count)
  else none

def exactly? (expected : Char) : List Char → Option (List Char)
  | character :: rest => if character = expected then some rest else none
  | [] => none

def daysIn (year month : Nat) : Nat :=
  if month = 2 then
    if year % 4 = 0 ∧ (year % 100 ≠ 0 ∨ year % 400 = 0) then 29 else 28
  else if month ∈ [4, 6, 9, 11] then 30
  else 31

def date? (text : List Char) : Option (List Char) := do
  let (year, rest) ← fixed? 4 0 9999 text
  let (month, rest) ← fixed? 2 1 12 (← exactly? '-' rest)
  let (day, rest) ← fixed? 2 1 31 (← exactly? '-' rest)
  if day ≤ daysIn year month then some rest else none

/-- Reads a time of day, with its seconds and perhaps a fraction of them. -/
def time? (text : List Char) : Option (List Char) := do
  let (_, rest) ← fixed? 2 0 23 text
  let (_, rest) ← fixed? 2 0 59 (← exactly? ':' rest)
  let (_, rest) ← fixed? 2 0 60 (← exactly? ':' rest)
  match rest with
  | '.' :: digit :: more =>
      if digit.isDigit then some (more.dropWhile Char.isDigit) else some rest
  | _ => some rest

def isOffset : List Char → Bool
  | ['Z'] | ['z'] => true
  | sign :: clock =>
      (sign == '+' || sign == '-') &&
        (do
          let (_, rest) ← fixed? 2 0 23 clock
          let (_, rest) ← fixed? 2 0 59 (← exactly? ':' rest)
          pure rest) == some []
  | [] => false

def isZonedTime (text : List Char) : Bool :=
  match time? text with
  | some [] => true
  | some offset => isOffset offset
  | none => false

def isDate (text : List Char) : Bool :=
  date? text == some []

def isDateOrTime (text : List Char) : Bool :=
  isDate text || time? text == some [] ||
    match date? text with
    | some (separator :: time) => (separator == 'T' || separator == 't') && isZonedTime time
    | _ => false

def scalar? (text : List Char) : Option Toml :=
  if text = ['t', 'r', 'u', 'e'] then some (.boolean true)
  else if text = ['f', 'a', 'l', 's', 'e'] then some (.boolean false)
  else if isDateOrTime text then some .date
  else
    match integer? text with
    | some value => some (.integer value)
    | none => if isDecimalFloat text || isSpecialFloat text then some .float else none

/-- Reads a value without quotes from the start of a text. A date is joined by the time that
follows it after one space. -/
def scalarFrom? (text : List Char) : Option (Toml × List Char) :=
  let (run, rest) := text.span isScalarCharacter
  match isDate run, rest with
  | true, ' ' :: digit :: more =>
      if digit.isDigit then
        let (time, rest) := (digit :: more).span isScalarCharacter
        if isZonedTime time then some (.date, rest) else none
      else some (.date, rest)
  | _, _ => (scalar? run).map fun value => (value, rest)

end ReleaseAdvisor.Toml
