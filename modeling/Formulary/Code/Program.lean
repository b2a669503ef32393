import Formulary.Code.Lowering
import Formulary.Code.Prelude

namespace Formulary

namespace Code

/-- A program and the columns that its pattern files must have. -/
structure Program where
  columns : Columns
  source : String

namespace Function

def header (function : Function) : List String :=
  "// Generated by smtsim. Do not edit." ::
    function.columns.list.mapIdx fun index column =>
      "// column " ++ toString index ++ ": " ++ column.name ++ " (" ++ column.type.name ++ ")"

def definition (function : Function) : List String :=
  let parameters := function.columns.list.map fun column =>
    column.identifier ++ ": " ++ column.type.name
  ["", "fn formula(" ++ String.intercalate ", " parameters ++ ") -> " ++
      function.result.type.name ++ " \x7b"] ++
    function.statements.map (fun statement => "    " ++ statement.text) ++
    ["    " ++ function.result.expression.text, "\x7d"]

def driver (function : Function) : List String :=
  let names := function.columns.list.mapIdx fun index _ => "a" ++ toString index
  ["", "fn run(input: &str, output: &str) -> Result<(), String> \x7b",
    "    let text = std::fs::read_to_string(input)",
    "        .map_err(|e| format!(\"cannot open \x7b\x7d: \x7b\x7d\", input, e))?;",
    "    let file = std::fs::File::create(output)",
    "        .map_err(|e| format!(\"cannot open \x7b\x7d: \x7b\x7d\", output, e))?;",
    "    let mut out = BufWriter::new(file);",
    "    let mut tokens = text.split_whitespace();",
    "    let rows: usize = tokens",
    "        .next()",
    "        .ok_or_else(|| \"missing row count\".to_string())?",
    "        .parse()",
    "        .map_err(|e| format!(\"invalid row count: \x7b\x7d\", e))?;",
    "    for row in 0..rows \x7b"] ++
    function.columns.list.mapIdx (fun index column =>
      "        let a" ++ toString index ++ ": " ++ column.type.name ++
        " = next_cell(&mut tokens, row, " ++ toString index ++ ")?;") ++
    ["        writeln!(out, \"\x7b\x7d\", formula(" ++ String.intercalate ", " names ++
        ").render()).map_err(|e| e.to_string())?;",
      "    \x7d",
      "    out.flush().map_err(|e| e.to_string())",
      "\x7d",
      "",
      "fn main() \x7b",
      "    let args: Vec<String> = std::env::args().collect();",
      "    if args.len() != 3 \x7b",
      "        eprintln!(\"usage: \x7b\x7d <patterns> <results>\", args[0]);",
      "        std::process::exit(2);",
      "    \x7d",
      "    if let Err(e) = run(&args[1], &args[2]) \x7b",
      "        eprintln!(\"\x7b\x7d\", e);",
      "        std::process::exit(1);",
      "    \x7d",
      "\x7d"]

def text (function : Function) : String :=
  unlines function.header ++ prelude ++ unlines function.definition ++ unlines function.driver

end Function

end Code

def Formula.program (formula : Formula) : Except Error Code.Program :=
  formula.lower.map fun function => ⟨function.columns, function.text⟩

end Formulary
