/-! # Help texts

What the program prints about itself.
-/

namespace CodeGraph.CommandLine

/-- The lines of the help text. -/
def usageLines : List String := [
  "tdm project loader",
  "",
  "Usage: tdmc <command> [options]",
  "",
  "Commands:",
  "  stub <file.json>     Print the stub of a project or one construct",
  "  check <file.json>    Load a project and print its construct counts",
  "  help                 Show this help message",
  "  version              Show version information",
  "",
  "Stub options:",
  "  --short             Identities only",
  "  --long              Full bodies (default)",
  "  --mark-cycles       Mark recursive references instead of failing",
  "  --max-depth=<n>     Nesting limit (default: 256)",
  "  --type <n>          Stub the n-th entry of the types table (1-based)",
  "  --package <n>       Stub the n-th package (1-based)",
  "",
  "Check options:",
  "  --json              Print the counts as JSON",
  "",
  "Environment:",
  "  RUST_LOG            Log filter, e.g. tdm_constructs=debug",
  "  TDM_LOG_TREE        Render logs as an indented span tree",
  "",
  "Examples:",
  "  tdmc stub project.json",
  "  tdmc stub project.json --package 2",
  "  tdmc stub project.json --type 14 --short",
  "  tdmc check project.json --json"]

/-- The help text. -/
def usage : String := String.join (usageLines.map (· ++ "\n"))

/-- The help line of the stub command. -/
def stubUsage : String :=
  "Usage: tdmc stub <file.json> [--short | --long] [--mark-cycles] [--max-depth=N] " ++
    "[--type N | --package N]"

/-- The help line of the check command. -/
def checkUsage : String := "Usage: tdmc check <file.json> [--json]"

/-- The version line. -/
def version : String := "tdmc 0.1.0-alpha.1\n"

end CodeGraph.CommandLine
