import RowPolicy.Sql.Grammar.Command
import RowPolicy.Sql.Lexer

/-!
# Reading SQL

The rules of the grammar tied together, and what they make of a whole text: the statements in it,
or the one expression that it is. The rules that call themselves take their depth as an argument,
so a text that nests deeper than `maxDepth` is refused.
-/

namespace RowPolicy.Sql

namespace Reader

/-- A statement. -/
def statement (r : Rules) : Reader Statement := do
  let d := (← read).dialect
  let k ← keywordAt 0
  if ["SELECT", "WITH", "VALUES", "FROM"].contains k || (← peekSymbol "(") then
    return .select (← r.query)
  else
    match k with
    | "INSERT" => advance; insertionStatement r "INSERT"
    | "REPLACE" =>
      match d with
      | .sqlite => insertionStatement r "INSERT"
      | .mysql | .generic => advance; insertionStatement r "REPLACE"
      | _ => expected "an SQL statement"
    | "UPDATE" => advance; return .update (← update r)
    | "DELETE" => advance; return .delete (← deletion r)
    | "" => expected "an SQL statement"
    | k =>
      let head ← identText
      return .other (← command r k head)

/-- The rules of the grammar, nesting no deeper than a bound. -/
def rules : (depth : Nat) → Rules
  | 0 => ⟨fun _ => throw .tooDeep, throw .tooDeep, throw .tooDeep, throw .tooDeep, throw .tooDeep⟩
  | n + 1 =>
    let r := rules n
    ⟨exprAbove r, operand r, query r, statement r, columnDefinition r⟩

/-- The depth to which a text may nest. -/
def maxDepth : Nat :=
  50

/-- Statements with semicolons between them. -/
def statements : Reader (List Statement) := do
  let (acc, _) ← loop (fun ((acc, open') : List Statement × Bool) => do
    if ← symbol? ";" then return some (acc, false)
    else if ← atEnd then return none
    else if open' then
      if ← peekKeyword "END" then return none else expected "end of statement"
    else return some ((← (rules maxDepth).statement) :: acc, true)) ([], false)
  return acc.reverse

/-- The value of a reader on a text. -/
def run {α : Type} (p : Reader α) (d : Dialect) (sql : String) : Except Fault α := do
  let lexemes ← Lexeme.scan d sql
  return (← p ⟨d, false, false⟩ lexemes).1

end Reader

/-- The statements of a text. -/
def parseStatements (d : Dialect) (sql : String) : Except Fault (List Statement) :=
  Reader.run Reader.statements d sql

/-- The expression that a text is. -/
def parseExpr (d : Dialect) (sql : String) : Except Fault Expr :=
  Reader.run (do
    let e ← (Reader.rules Reader.maxDepth).expr 0
    if ← Reader.atEnd then return e else Reader.expected "the end of the expression") d sql

end RowPolicy.Sql
