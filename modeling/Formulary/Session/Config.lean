import Formulary.Path

namespace Formulary

structure SessionConfig where
  /-- Without a directory of its own a session works in a scratch directory. -/
  workDirectory : Option Path
  sourceName : Path
  programName : Path
  compiler : Path
  optimization : Nat
  extraArguments : List String
  patternName : Path
  resultName : Path
deriving DecidableEq

namespace SessionConfig

def default : SessionConfig where
  workDirectory := none
  sourceName := ⟨"formula.rs"⟩
  programName := ⟨"formula_eval"⟩
  compiler := ⟨"rustc"⟩
  optimization := 3
  extraArguments := []
  patternName := ⟨"sim_pattern"⟩
  resultName := ⟨"sim_result"⟩

def sourcePath (config : SessionConfig) (directory : Path) : Path :=
  directory.join config.sourceName

def programPath (config : SessionConfig) (directory : Path) : Path :=
  directory.join config.programName

def patternPath (config : SessionConfig) (directory : Path) : Path :=
  directory.join config.patternName

def resultPath (config : SessionConfig) (directory : Path) : Path :=
  directory.join config.resultName

/-- The arguments of a compilation. Integers wrap at every level of optimization. -/
def compileArguments (config : SessionConfig) (source program : Path) : List String :=
  ["--edition", "2021", "-C", "opt-level=" ++ toString config.optimization,
    "-C", "overflow-checks=off", "-C", "debug-assertions=off", "--crate-type", "bin",
    "-o", program.text] ++ config.extraArguments ++ [source.text]

end SessionConfig

end Formulary
