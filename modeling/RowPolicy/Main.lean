import RowPolicy.CommandLine

/-!
# The program `sqlrw`

Reads what the command needs and hands over the outcome.
-/

open RowPolicy.CommandLine

/-- The configuration at a path. -/
def readConfig (path : String) : IO ConfigFile := do
  try
    return .file path (← IO.FS.readFile path)
  catch
    | .noFileOrDirectory _ _ _ => return .missing path
    | e => return .unreadable path (toString e)

/-- The configuration that the arguments name, or that lies in the working directory. -/
def findConfig (named : Option String) : IO ConfigFile := do
  match named with
  | some path => readConfig path
  | none =>
    match ← readConfig ((← IO.currentDir).toString ++ "/" ++ defaultConfig) with
    | .missing _ => return .absent
    | config => return config

/-- The command. -/
def main (args : List String) : IO UInt32 := do
  let outcome ← match Arguments.parse? args with
    | none => pure Outcome.misuse
    | some a => do
      let stdin ← if a.sql == "-" then (← IO.getStdin).readToEnd else pure ""
      pure (Outcome.of (run a stdin (← findConfig a.config)))
  IO.print outcome.stdout
  IO.eprint outcome.stderr
  return outcome.exitCode
