/-!
# The range of binary floating point

Both document formats read their numbers as 64-bit binary floating point and refuse those too
large for it. Only that refusal can be seen, so this file holds what decides it: rounding to 53
significant bits and the least magnitude that rounds to infinity.
-/

namespace ReleaseAdvisor.Binary64

/-- The nearest number with at most 53 significant bits; a half goes to the even neighbour. -/
def round (value : Nat) : Nat :=
  let unit := Nat.pow 2 (value.log2 + 1 - 53)
  let quotient := value / unit
  let remainder := value % unit
  if unit < 2 * remainder || (2 * remainder == unit && quotient % 2 == 1) then
    (quotient + 1) * unit
  else
    quotient * unit

/-- The least magnitude that rounds to infinity: half a unit above the largest finite number. -/
def overflow : Nat :=
  Nat.pow 2 1024 - Nat.pow 2 970

end ReleaseAdvisor.Binary64
