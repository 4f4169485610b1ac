/-!
# Release levels

The four possible outcomes of a release decision, ordered by severity. A module's decision is the
most severe level among its commits, and `none` is the level of a module without any.
-/

namespace ReleaseAdvisor

/-- How much of a version a release changes; `none` stands for no release. -/
inductive Level where
  | none
  | patch
  | minor
  | major
  deriving DecidableEq, Repr

namespace Level

def rank : Level → Nat
  | .none => 0
  | .patch => 1
  | .minor => 2
  | .major => 3

instance : LE Level where
  le lower upper := lower.rank ≤ upper.rank

instance : DecidableRel (α := Level) (· ≤ ·) :=
  fun lower upper => inferInstanceAs (Decidable (lower.rank ≤ upper.rank))

instance : Max Level where
  max left right := if left ≤ right then right else left

def all : List Level :=
  [.none, .patch, .minor, .major]

def name : Level → String
  | .none => "none"
  | .patch => "patch"
  | .minor => "minor"
  | .major => "major"

def ofName? (name : String) : Option Level :=
  all.find? (·.name == name)

def isRelease (level : Level) : Bool :=
  level != .none

/-- The most severe of some levels, `none` if there are none. -/
def highest (levels : List Level) : Level :=
  levels.foldl max .none

def sorted (levels : List Level) : List Level :=
  all.flatMap fun level => levels.filter (· == level)

end Level

end ReleaseAdvisor
