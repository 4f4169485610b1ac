import ReleaseAdvisor.CommandLine.Invocation

/-!
# Help

The page that explains a command: what it does, how it is called, and lists of the names that may
stand in the call. The meanings in a list start in one column, two spaces after the longest name.
-/

namespace ReleaseAdvisor.CommandLine

structure HelpList where
  title : String
  entries : List (String × String)
  deriving DecidableEq, Repr

structure HelpPage where
  purpose : String
  call : String
  lists : List HelpList
  deriving DecidableEq, Repr

namespace HelpList

def width (list : HelpList) : Nat :=
  (list.entries.map (·.1.length)).foldl max 0

def entryLine (width : Nat) (entry : String × String) : String :=
  "  " ++ entry.1 ++ String.ofList (List.replicate (width - entry.1.length) ' ') ++ "  " ++
    entry.2 ++ "\n"

def text (list : HelpList) : String :=
  list.title ++ ":\n" ++ String.join (list.entries.map (entryLine list.width))

end HelpList

def HelpPage.text (page : HelpPage) : String :=
  page.purpose ++ "\n\nUsage: " ++ page.call ++ "\n" ++
    String.join (page.lists.map fun list => "\n" ++ list.text)

namespace HelpTopic

def helpEntry : String × String :=
  ("-h, --help", "Print help")

def settingsEntry : String × String :=
  ("-s, --settings <SETTINGS>", "Custom settings file path")

def purpose : HelpTopic → String
  | .program => "Decide per-module release levels from scoped conventional commits"
  | .config => "Print a module's resolved identity as JSON"
  | .analyze => "Compute the release decision for one or more modules"
  | .modules => "List module directories under a root"
  | .help => "Print this message or the help of the given subcommand(s)"
  | .identity => "Extract tag prefix and commit scope from a module's release config"

def page (topic : HelpTopic) : HelpPage :=
  match topic with
  | .program => ⟨topic.purpose, "scope-release [OPTIONS] <COMMAND>",
      [⟨"Commands", [("config", purpose .config), ("analyze", purpose .analyze),
          ("modules", purpose .modules), ("help", purpose .help)]⟩,
        ⟨"Options", [settingsEntry, helpEntry, ("-V, --version", "Print version")]⟩]⟩
  | .config => ⟨topic.purpose, "scope-release config [OPTIONS] <MODULE_DIR>",
      [⟨"Arguments", [("<MODULE_DIR>", "Module directory")]⟩,
        ⟨"Options", [settingsEntry, helpEntry]⟩]⟩
  | .analyze => ⟨topic.purpose,
      "scope-release analyze [OPTIONS] --commits <COMMITS> [MODULE_DIRS]...",
      [⟨"Arguments", [("[MODULE_DIRS]...", "Module directories to analyze")]⟩,
        ⟨"Options",
          [("    --root <ROOT>", "Analyze every module found directly under this directory"),
            settingsEntry,
            ("-c, --commits <COMMITS>", "JSON commit list, or `-` for stdin"),
            ("    --json", "Print reports as JSON"), helpEntry]⟩]⟩
  | .modules => ⟨topic.purpose, "scope-release modules [OPTIONS] <ROOT>",
      [⟨"Arguments", [("<ROOT>", "Directory containing module directories")]⟩,
        ⟨"Options", [settingsEntry, helpEntry]⟩]⟩
  | .help => ⟨topic.purpose, "scope-release help [COMMAND]...",
      [⟨"Arguments", [("[COMMAND]...", "Print help for the subcommand(s)")]⟩]⟩
  | .identity => ⟨topic.purpose, "get-module-config <MODULE_DIR>",
      [⟨"Arguments",
          [("<MODULE_DIR>", "Module directory containing module.toml or .releaserc.json")]⟩,
        ⟨"Options", [helpEntry]⟩]⟩

end HelpTopic

end ReleaseAdvisor.CommandLine
