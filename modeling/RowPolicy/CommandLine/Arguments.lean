import RowPolicy.Number.Decimal

/-!
# Arguments of the command

The command is `sqlrw sql rewrite` with options and one SQL text. An option takes the argument after
it, or what follows an equals sign; one that begins with a dash is not taken, a lone dash apart.
Behind `--` every argument is text. Only `--value` may be repeated, and `--config` once before each
word of the command, where the last one counts.
-/

namespace RowPolicy.CommandLine

/-- How the resulting text is shown. -/
inductive Format where
  | text
  | json
  | table
  deriving DecidableEq, Repr

/-- The format of a name. -/
def Format.ofName? : String → Option Format
  | "text" => some text
  | "json" => some json
  | "table" => some table
  | _ => none

/-- What the command is asked to do. -/
structure Arguments where
  config : Option String := none
  format : Option Format := none
  statementId : Option String := none
  /-- the values of the context as given, in order -/
  values : List String := []
  page : Option UInt64 := none
  size : Option UInt64 := none
  sql : String
  deriving DecidableEq, Repr

namespace Arguments

/-! ## Options -/

/-- A number of 64 bits without sign. -/
def word? (s : String) : Option UInt64 :=
  let ds := match s.toList with
    | '+' :: cs => cs
    | cs => cs
  if ds.isEmpty || !ds.all Char.isDigit then none
  else
    let n := Double.digitsValue ds
    if n < UInt64.size then some (.ofNat n) else none

/-- The arguments with an option set, unless it is unknown, set already, or given no value it can
have. -/
def set? (a : Arguments) (option value : String) : Option Arguments :=
  match option with
  | "config" =>
    if a.config.isNone && value != "" then some { a with config := some value } else none
  | "format" =>
    if a.format.isNone then
      (Format.ofName? value).map fun f => { a with format := some f }
    else none
  | "statement-id" =>
    if a.statementId.isNone then some { a with statementId := some value } else none
  | "value" => some { a with values := a.values ++ [value] }
  | "page" => if a.page.isNone then (word? value).map fun n => { a with page := some n } else none
  | "size" => if a.size.isNone then (word? value).map fun n => { a with size := some n } else none
  | _ => none

/-- The name of the option that an argument is, with the value behind an equals sign. -/
def optionOf? (arg : String) : Option (String × Option String) :=
  match arg.toList with
  | '-' :: '-' :: c :: cs =>
    let name := (c :: cs).takeWhile (· != '=')
    match (c :: cs).dropWhile (· != '=') with
    | [] => some (String.ofList name, none)
    | _ :: value => some (String.ofList name, some (String.ofList value))
  | _ => none

/-- Whether an argument may be a value or a text of its own. -/
def isPlain (arg : String) : Bool :=
  arg == "-" || !"-".toList.isPrefixOf arg.toList

/-- The options and texts among the arguments, added to `a`; the texts come in reverse. -/
def scan (a : Arguments) (texts : List String) : List String → Option (Arguments × List String)
  | [] => some (a, texts)
  | "--" :: rest => some (a, rest.reverse ++ texts)
  | arg :: rest =>
    match optionOf? arg, rest with
    | some (name, some value), rest => do scan (← a.set? name value) texts rest
    | some (name, none), value :: rest =>
      if isPlain value then do scan (← a.set? name value) texts rest else none
    | some (_, none), [] => none
    | none, rest => if isPlain arg then scan a (arg :: texts) rest else none

/-! ## The words of the command -/

/-- A word of the command with a configuration that may stand before it, and what follows. -/
def word (expected : String) (config : Option String) (here : Bool) :
    List String → Option (Option String × List String)
  | [] => none
  | arg :: rest =>
    if arg == expected then some (config, rest)
    else
      match optionOf? arg, rest with
      | some ("config", some value), rest =>
        if here || value == "" then none else word expected (some value) true rest
      | some ("config", none), value :: rest =>
        if here || value == "" || !isPlain value then none
        else word expected (some value) true rest
      | _, _ => none

/-- The arguments of the command line, unless they are no use of the command. A page number needs a
size. -/
def parse? (args : List String) : Option Arguments := do
  let (config, args) ← word "sql" none false args
  let (config, args) ← word "rewrite" config false args
  let (a, texts) ← scan { sql := "" } [] args
  match texts with
  | [sql] =>
    if a.page.isSome && a.size.isNone then none
    else some { a with sql, config := a.config.or config }
  | _ => none

/-- How the command is used. -/
def usage : String :=
  "Usage: sqlrw [--config <CONFIG>] sql rewrite [--format <text|json|table>] " ++
    "[--statement-id <ID>] [--value <KEY=VALUE>]... [--page <PAGE>] [--size <SIZE>] <SQL>\n"

end Arguments

end RowPolicy.CommandLine
