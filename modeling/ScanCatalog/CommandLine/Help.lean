import ScanCatalog.CommandLine.Level
import ScanCatalog.Text.Lines

/-!
# Help

What the program writes about its own arguments.

## Main definitions

* `Level.usage`: the line that sums up the arguments of a level;
* `Level.help`: the help with a level;
* `UsageFault.report`: what is written after wrong arguments.
-/

namespace ScanCatalog

namespace Level

/-- The commands to choose from. -/
def choices : Text :=
  "\x7b" ++ Text.join "," (CommandName.all.map CommandName.text) ++ "\x7d"

/-- The arguments of a level, in short. -/
def summary : Level → Text
  | .program => "[-h] [-v] " ++ choices ++ " ..."
  | .command .initDb => "[-h]"
  | .command .add | .command .edit => "[-h] file"
  | .command .search => "[-h] [--idx IDX] [--limit LIMIT] [query]"

/-- The line that sums up the arguments of a level. -/
def usage (level : Level) : Text := "usage: " ++ level.title ++ " " ++ level.summary

/-- The lines about the arguments of a level. -/
def explanation : Level → List Text
  | .program =>
    ["", "Store and search SPEC scan records across MongoDB and the motors database", "",
      "positional arguments:",
      Text.ofString "  " ++ choices,
      "    init-db             create motors database tables",
      "    add                 add records from a JSON file ('-' for stdin)",
      "    edit                edit records from a JSON file ('-' for stdin)",
      "    search              search records with a JSON filter",
      "",
      "options:",
      "  -h, --help            show this help message and exit",
      "  -v, --verbose         -v for info, -vv for debug (SQL statements)"]
  | .command .initDb =>
    ["", "options:", "  -h, --help  show this help message and exit"]
  | .command .add | .command .edit =>
    ["", "positional arguments:", "  file", "", "options:",
      "  -h, --help  show this help message and exit"]
  | .command .search =>
    ["", "positional arguments:", "  query", "", "options:",
      "  -h, --help     show this help message and exit",
      "  --idx IDX      documents to skip",
      "  --limit LIMIT  max documents (0 = no limit)"]

/-- The help with a level. -/
def help (level : Level) : Text := Text.lines (level.usage :: level.explanation)

end Level

/-- What is written after wrong arguments. -/
def UsageFault.report (fault : UsageFault) (level : Level) : Text :=
  Text.lines [level.usage, level.title ++ ": error: " ++ fault.message]

end ScanCatalog
