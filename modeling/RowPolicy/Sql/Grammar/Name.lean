import RowPolicy.Sql.Grammar.Basic

/-!
# Names and aliases

Identifiers, dotted names, lists of columns, and the aliases of relations and projection items. An
alias without `AS` is any word but the ones that can continue the clause it stands in.
-/

namespace RowPolicy.Sql

/-! ## Words that are no alias -/

/-- Words that end a relation or a projection item. -/
def reservedEverywhere : List String :=
  ["WITH", "EXPLAIN", "ANALYZE", "SELECT", "WHERE", "GROUP", "SORT", "HAVING", "ORDER", "TOP",
    "LATERAL", "VIEW", "LIMIT", "OFFSET", "FETCH", "UNION", "EXCEPT", "INTERSECT", "MINUS",
    "CLUSTER", "DISTRIBUTE", "RETURNING"]

/-- Words that are no alias of a relation. -/
def reservedForRelation (d : Dialect) : List String :=
  reservedEverywhere ++
    ["PIVOT", "UNPIVOT", "ON", "JOIN", "INNER", "CROSS", "FULL", "LEFT", "RIGHT", "NATURAL",
      "USING", "GLOBAL", "ANTI", "SEMI", "ASOF", "MATCH_CONDITION", "OUTER", "SET", "QUALIFY",
      "WINDOW", "END", "FOR", "PARTITION", "PREWHERE", "SETTINGS", "FORMAT", "START", "CONNECT",
      "MATCH_RECOGNIZE", "SAMPLE", "TABLESAMPLE", "FROM", "OPEN"] ++
    (if d == .mysql then ["USE", "IGNORE", "FORCE", "STRAIGHT_JOIN"] else [])

/-- Words that are no alias of a projection item. -/
def reservedForColumn (d : Dialect) : List String :=
  reservedEverywhere ++ ["EXCLUDE", "FROM", "INTO", "END"] ++
    (if d == .mssql then ["IF", "ELSE"] else [])

namespace Reader

/-! ## Names -/

/-- An identifier: a word of any kind, or a string that stands for one. -/
def ident : Reader Ident := do
  match ← peek with
  | some (.word v q _) => advance; return ⟨v, q⟩
  | some (.string .plain s) => advance; return ⟨s, some '\''⟩
  | some (.string .double s) => advance; return ⟨s, some '"'⟩
  | _ => expected "identifier"

/-- A dotted name. Where the dialect lets a part be left out, it is empty. -/
def name : Reader Name := do
  let first ← ident
  let rest ← loop (fun (acc : List Ident) => do
    if ← symbol? "." then
      if ← pure acc.isEmpty <&&> feature (·.doubleDotNames) <&&> symbol? "." then
        return some ((← ident) :: Ident.plain "" :: acc)
      else return some ((← ident) :: acc)
    else return none) []
  return first :: rest.reverse

/-- Columns between parentheses; nothing at all reads as none when `optional` allows it, and empty
parentheses when `empty` does. -/
def columnList (optional empty : Bool) : Reader (List Ident) := do
  if ← symbol? "(" then
    if ← pure empty <&&> symbol? ")" then return []
    else
      let cols ← commaList ident
      symbol ")"
      return cols
  else if optional then return []
  else expected "a list of columns in parentheses"

/-- An identifier in printed form. -/
def identText : Reader String :=
  return (← ident).render

/-- A dotted name in printed form. -/
def nameText : Reader String :=
  return (← name).render

/-- Dotted names between parentheses, in printed form. -/
def nameList : Reader String :=
  parensText nameText

/-- Columns between parentheses, in printed form. -/
def identList : Reader String :=
  parensText identText

/-- A blank and the columns between parentheses, if there are any. -/
def columnsText? : Reader String :=
  textBefore? "(" (return " " ++ (← identList))

/-- The dotted name of an operator, which may be any token, in printed form. -/
def operatorName : Reader String := do
  let part : Reader String := do
    match ← peek with
    | some t => advance; return t.spelling
    | none => expected "an operator"
  let first ← part
  return first ++ (← concatText do
    if ← symbol? "." then return some ("." ++ (← part)) else return none)

/-- The condition that a new object is not there yet. -/
def unlessThere? : Reader String :=
  words? ["IF", "NOT", "EXISTS"]

/-- The condition that an object is there. -/
def ifThere? : Reader String :=
  words? ["IF", "EXISTS"]

/-- What happens to objects that depend on a changed one. -/
def dependents? : Reader String :=
  wordOf? ["CASCADE", "RESTRICT"]

/-! ## Strings that are part of a clause -/

/-- The content of a string; a word that is no keyword stands for one. -/
def literalString : Reader String := do
  match ← peek with
  | some (.word v _ k) =>
    if isKeyword k then expected "literal string"
    else
      advance
      return v
  | some (.string kind s) =>
    match kind with
    | .plain | .double | .unicode => advance; return s
    | .escaped =>
      if ← inDialect [.postgresql, .generic] then
        advance
        return s
      else expected "literal string"
    | _ => expected "literal string"
  | _ => expected "literal string"

/-- A string between quotes, its content as it is. -/
def bareString : Reader String :=
  return "'" ++ (← literalString) ++ "'"

/-- A string between quotes, written as a constant is. -/
def quotedString : Reader String :=
  return quoted '\'' (← literalString)

/-! ## Aliases -/

/-- An alias that `accept` admits where no `AS` stands before it. A string is an alias too. -/
def alias? (accept : String → Bool) : Reader (Option Ident) := do
  let explicit ← keyword? "AS"
  match ← peek with
  | some (.word v q k) =>
    if explicit || accept k then advance; return some ⟨v, q⟩ else return none
  | some (.string .plain s) => advance; return some ⟨s, some '\''⟩
  | some (.string .double s) => advance; return some ⟨s, some '"'⟩
  | _ => if explicit then expected "an identifier after AS" else return none

/-- The alias of a projection item. -/
def itemAlias? : Reader (Option Ident) := do
  let d := (← read).dialect
  alias? fun k => !(reservedForColumn d).contains k

/-- An alias that is none of the words `reserved`. -/
def aliasExcept? (reserved : List String) : Reader (Option Ident) :=
  alias? fun k => !reserved.contains k

/-- A column with an optional type, which `dataType` reads. -/
def typedColumn (dataType : Reader String) : Reader String := do
  let c ← identText
  return c ++ ((← attempt dataType).map (" " ++ ·)).getD ""

/-- The alias of a relation with the columns it names, whose types `dataType` reads. -/
def typedAlias? (dataType : Reader String) : Reader (Option Alias) := do
  let d := (← read).dialect
  let explicit ← peekKeyword "AS"
  match ← alias? fun k => !(reservedForRelation d).contains k with
  | none => return none
  | some name =>
    let columns ← textBefore? "(" (return " " ++ (← parensText (typedColumn dataType)))
    return some ⟨explicit, name, columns⟩

end Reader

end RowPolicy.Sql
