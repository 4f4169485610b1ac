import ReleaseAdvisor.Files.System
import ReleaseAdvisor.Rule.Record

/-!
# Why a module has no configuration

Each way in which a module directory fails to resolve, with the values its message shows. Where a
document is refused, the message goes on with what the reader of the document says about it.
-/

namespace ReleaseAdvisor

/-- The part of a legacy document that was refused: all of it, or the analyzer's options. -/
inductive LegacyPart where
  | document
  | options
  deriving DecidableEq, Repr

inductive UnresolvedField where
  | tagPrefix
  | commitScope
  | both
  deriving DecidableEq, Repr

/-- Why a module directory does not resolve. -/
inductive ConfigError where
  | noConfiguration (directory : Path)
  | missingFields (path : Path) (fields : List String)
  | unresolved (field : UnresolvedField) (tagPrefix commitScope : String)
  | invalidDescriptor (path : Path)
  | invalidLegacy (path : Path) (part : LegacyPart)
  | badRules (path : Path) (error : RecordError)
  | unreadable (path : Path) (error : FileError)
  deriving DecidableEq, Repr

/-- What the readers of documents say about those that they refuse, in one line or in several. -/
structure Refusals where
  descriptor : Path → String
  legacy : Path → LegacyPart → String

def UnresolvedField.name : UnresolvedField → String
  | .tagPrefix => "tag_prefix"
  | .commitScope => "commit_scope"
  | .both => "tag_prefix and commit_scope"

namespace ConfigError

def message (refusals : Refusals) : ConfigError → String
  | .noConfiguration directory => "no module configuration found in " ++ directory.text
  | .missingFields path fields =>
      path.text ++ " is missing required field(s): " ++ ", ".intercalate fields
  | .unresolved field tagPrefix commitScope =>
      "could not determine " ++ field.name ++ " from module config (found: tag_prefix=\"" ++
        tagPrefix ++ "\", commit_scope=\"" ++ commitScope ++ "\")"
  | .invalidDescriptor path =>
      "invalid module descriptor " ++ path.text ++ ": " ++ refusals.descriptor path
  | .invalidLegacy path .document =>
      "invalid legacy config " ++ path.text ++ ": " ++ refusals.legacy path .document
  | .invalidLegacy path .options =>
      "invalid legacy config " ++ path.text ++ ": commit-analyzer options: " ++
        refusals.legacy path .options
  | .badRules path error => "release rules in " ++ path.text ++ ": " ++ error.message
  | .unreadable path error => "failed to read " ++ path.text ++ ": " ++ error.message

/-- The wording of the error behind an error, if there is one. -/
def cause? : ConfigError → Option String
  | .badRules _ error => some error.message
  | .unreadable _ error => some error.message
  | _ => none

end ConfigError

end ReleaseAdvisor
