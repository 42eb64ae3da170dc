import RowPolicy.CommandLine.Arguments
import RowPolicy.CommandLine.Table
import RowPolicy.Config.Codec

/-!
# The command

The command applies the policies of a configuration to one text and shows the result as text, as
JSON, or as a table with a row a statement. All that it reads is given to it: the text on standard
input, and the configuration where there is one.
-/

namespace RowPolicy.CommandLine

open Sql

/-! ## Errors -/

/-- Why the command fails. -/
inductive CommandError where
  | invalidArguments (message : String)
  | policies (error : PolicyError)
  deriving DecidableEq, Repr

/-- An error in words. -/
def CommandError.message : CommandError → String
  | invalidArguments message => "invalid arguments: " ++ message
  | policies error => "[" ++ error.code.text ++ "] " ++ error.message

/-- What policies yield, or the failure of the command. -/
def ofPolicies {α : Type} : Except PolicyError α → Except CommandError α
  | .ok a => .ok a
  | .error e => .error (.policies e)

/-! ## Reports -/

/-- What came of a text; it is the text itself where no policy was applied. -/
structure Report where
  sql : String
  enforced : Bool
  kinds : List StatementKind
  deriving DecidableEq, Repr

namespace Report

/-- The report on a text. -/
def of (sql : String) : Option Enforced → Report
  | some r => ⟨r.sql, true, r.kinds⟩
  | none => ⟨sql, false, []⟩

/-- A report as JSON. -/
def toJson (r : Report) : Json :=
  .object [("sql", .text r.sql), ("rewritten", .boolean r.enforced),
    ("kinds", .array (r.kinds.map fun k => .text k.name))]

/-- The rows of the table of some statements. -/
def rows (ss : List Statement) : List (List String) :=
  ss.zipIdx.map fun (s, n) => [toString (n + 1), s.kind.name, s.render]

/-- A report as a table of the statements in its text. -/
def table (r : Report) (d : Dialect) : Except PolicyError String :=
  if r.enforced then
    match parseStatements d r.sql with
    | .ok ss => .ok (boxed ["#", "kind", "sql"] (rows ss) ++
        "(" ++ toString r.kinds.length ++ " statements)\n")
    | .error fault => .error (.malformed r.sql fault.message)
  else .ok (r.sql ++ "\n(not rewritten)\n")

/-- A report in a format. -/
def print (r : Report) (d : Dialect) : Format → Except PolicyError String
  | .text => .ok (r.sql ++ "\n")
  | .json => .ok (r.toJson.pretty ++ "\n")
  | .table => r.table d

end Report

/-! ## What the command reads -/

/-- The configuration that there is for the command. -/
inductive ConfigFile where
  | absent
  /-- a file that was asked for is not there -/
  | missing (path : String)
  | unreadable (path reason : String)
  | file (path content : String)
  deriving DecidableEq, Repr

/-- The configuration of a file; there is one without any policy where there is no file. -/
def ConfigFile.load : ConfigFile → Except CommandError Config
  | absent => .ok {}
  | missing path => .error (.invalidArguments ("config file does not exist: " ++ path))
  | unreadable path reason => .error (.policies (.configuration (path ++ ": " ++ reason)))
  | file path content =>
    match Config.parse content with
    | .ok c => .ok c
    | .error fault => .error (.policies (.configuration (path ++ ": " ++ fault.message)))

/-- The text to work on: that of the arguments, or of standard input where a dash stands for it. -/
def textOf (a : Arguments) (stdin : String) : Except CommandError String :=
  if a.sql != "-" then .ok a.sql
  else if Text.isBlankText stdin then .error (.invalidArguments "stdin SQL input is empty")
  else .ok stdin

/-- The key and the value that an argument gives. -/
def keyValue (raw : String) : Except CommandError (String × Value) :=
  match raw.toList.dropWhile (· != '=') with
  | [] => .error (.invalidArguments ("expected KEY=VALUE, got `" ++ raw ++ "`"))
  | _ :: value =>
    let key := Text.trim (String.ofList (raw.toList.takeWhile (· != '=')))
    if key == "" then .error (.invalidArguments ("empty key in `" ++ raw ++ "`"))
    else .ok (key, .parseLoose (String.ofList value))

/-- The context that the arguments describe. -/
def contextOf (a : Arguments) (r : Registry) : Except CommandError Context := do
  let values ← a.values.mapM keyValue
  return { Context.ofRegistry r with
    statementId := a.statementId
    values := values.reverse
    page := a.size.map (Page.of (a.page.getD 1)) }

/-! ## The command -/

/-- What the command writes to standard output. -/
def run (a : Arguments) (stdin : String) (config : ConfigFile) : Except CommandError String := do
  let sql ← textOf a stdin
  let config ← config.load
  let (enforcer, registry) ← ofPolicies (config.build (m := Except PolicyError))
  let context ← contextOf a registry
  let report := Report.of sql (← ofPolicies (enforcer.parse sql context))
  ofPolicies (report.print enforcer.dialect (a.format.getD .text))

/-- The end of a run: the exit code and what goes to the two outputs. -/
structure Outcome where
  exitCode : UInt32
  stdout : String
  stderr : String
  deriving DecidableEq, Repr

/-- The outcome of arguments that are no use of the command. -/
def Outcome.misuse : Outcome :=
  ⟨2, "", Arguments.usage⟩

/-- The outcome of a run. -/
def Outcome.of : Except CommandError String → Outcome
  | .ok out => ⟨0, out, ""⟩
  | .error e => ⟨1, "", "error: " ++ e.message ++ "\n"⟩

/-- The file that holds the configuration where none is named. -/
def defaultConfig : String :=
  "sqlrw.json"

end RowPolicy.CommandLine
