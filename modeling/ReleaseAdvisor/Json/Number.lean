import ReleaseAdvisor.Binary64

/-!
# JSON numbers

A number is kept as it is written: sign, whole part, digits after the point and power of ten.
Nothing in the library computes with one; a reader only asks whether it is finite.
-/

namespace ReleaseAdvisor.Json

structure Number where
  negative : Bool
  whole : Nat
  fraction : List (Fin 10)
  exponent : Int
  deriving DecidableEq, Repr

namespace Number

def ofNat (value : Nat) : Number :=
  ⟨false, value, [], 0⟩

/-- The leading digits of a whole number that fit 64 bits, and how many digits are left out. -/
def leadingDigits (value : Nat) : Nat × Nat :=
  if value < Nat.pow 2 64 then (value, 0)
  else
    let (leading, omitted) := leadingDigits (value / 10)
    (leading, omitted + 1)
  termination_by value
  decreasing_by
    have positive : 0 < Nat.pow 2 64 := by decide
    omega

/-- Appends digits after the point to a significand for as long as it fits 64 bits; the result is
the significand and how many digits were appended. -/
def appendFraction (significand : Nat) : List (Fin 10) → Nat × Nat
  | [] => (significand, 0)
  | digit :: rest =>
      if significand * 10 + digit < Nat.pow 2 64 then
        let (extended, count) := appendFraction (significand * 10 + digit) rest
        (extended, count + 1)
      else (significand, 0)

/-- The number as a 64-bit significand and a power of ten, digits beyond 64 bits cut off. -/
def scaled (number : Number) : Nat × Int :=
  let (leading, omitted) := leadingDigits number.whole
  let (significand, appended) := appendFraction leading number.fraction
  (significand, number.exponent + omitted - appended)

/-- Whether the number fits binary floating point. A power of ten beyond 308 never does, unless
the significand is zero; otherwise significand and power are rounded and multiplied. -/
def isFinite (number : Number) : Bool :=
  let (significand, power) := number.scaled
  significand == 0 || power < 0 ||
    (power ≤ 308 &&
      Binary64.round significand * Binary64.round (Nat.pow 10 power.toNat) < Binary64.overflow)

end Number

end ReleaseAdvisor.Json
