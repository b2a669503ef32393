namespace Formulary.CommandLine

/-- The commands, which are also the topics of help. -/
inductive Topic where
  | program
  | gen
  | sim
  | eval
  | help
deriving DecidableEq

namespace Topic

def ofName : String → Option Topic
  | "gen" => some gen
  | "sim" => some sim
  | "eval" => some eval
  | "help" => some help
  | _ => none

def lines (texts : List String) : String :=
  String.join (texts.map fun text => text ++ "\n")

def usage : Topic → String
  | program => "Usage: smtsim [OPTIONS] <COMMAND>"
  | gen => "Usage: smtsim gen [OPTIONS] <FORMULA>"
  | sim => "Usage: smtsim sim [OPTIONS] <FORMULA>"
  | eval => "Usage: smtsim eval [OPTIONS] --patterns <PATTERNS> <FORMULA>"
  | help => "Usage: smtsim help [COMMAND]..."

def about : Topic → String
  | program => "smtsim - native batch simulation of SMT formulas"
  | gen => "Generate the evaluator source for a formula"
  | sim => "Generate, compile and run the evaluator over a pattern set"
  | eval => "Evaluate pattern rows with the reference evaluator only"
  | help => "Print this message or the help of the given subcommand(s)"

def details : Topic → List String
  | program =>
    ["Commands:",
      "  gen   Generate the evaluator source for a formula",
      "  sim   Generate, compile and run the evaluator over a pattern set",
      "  eval  Evaluate pattern rows with the reference evaluator only",
      "  help  Print this message or the help of the given subcommand(s)",
      "",
      "Options:",
      "  -v, --verbose  Enable debug logging",
      "  -h, --help     Print help",
      "  -V, --version  Print version"]
  | gen =>
    ["Arguments:",
      "  <FORMULA>  Formula graph (JSON)",
      "",
      "Options:",
      "  -o, --output <OUTPUT>  Destination of the generated source (stdout if omitted)",
      "  -v, --verbose          Enable debug logging",
      "  -h, --help             Print help"]
  | sim =>
    ["Arguments:",
      "  <FORMULA>  Formula graph (JSON)",
      "",
      "Options:",
      "      --patterns <PATTERNS>    Pattern rows (JSON array of symbol -> value maps)",
      "  -v, --verbose                Enable debug logging",
      "      --random <RANDOM>        Generate this many random rows instead of reading patterns",
      "      --seed <SEED>            Random seed for reproducibility",
      "      --edge-cases             Append edge-case rows to the random ones",
      "      --work-dir <WORK_DIR>    Directory for the source, binary, pattern and result files",
      "      --compiler <COMPILER>    Rust compiler executable",
      "      --opt-level <OPT_LEVEL>  Optimization level passed to the compiler [default: 3]",
      "      --verify                 Cross-check every row against the reference evaluator",
      "  -h, --help                   Print help"]
  | eval =>
    ["Arguments:",
      "  <FORMULA>  Formula graph (JSON)",
      "",
      "Options:",
      "      --patterns <PATTERNS>  Pattern rows (JSON array of symbol -> value maps)",
      "  -v, --verbose              Enable debug logging",
      "  -h, --help                 Print help"]
  | help =>
    ["Arguments:",
      "  [COMMAND]...  Print help for the subcommand(s)"]

def text (topic : Topic) : String :=
  lines ([topic.about, "", topic.usage, ""] ++ topic.details)

end Topic

def versionText : String := "smtsim 0.1.0\n"

end Formulary.CommandLine
