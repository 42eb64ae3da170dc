import RowPolicy.Sql.Grammar.DataType

/-!
# Patterns of rows

The pattern behind `PATTERN` of a clause that matches rows: symbols in a row, alternatives, groups,
and repetitions. No policy looks into a pattern, so it is read into its printed form.
-/

namespace RowPolicy.Sql

namespace Reader

/-- How often a part of a pattern may repeat, between braces, behind the opening one. -/
def patternRange : Reader String := do
  let count : Reader String := return toString (← numberBelow UInt32.size)
  let range ←
    if ← symbol? "," then do pure ("," ++ (← count))
    else do
      let least ← count
      if ← symbol? "," then
        if ← peekSymbol "\x7d" then pure (least ++ ",") else do pure (least ++ "," ++ (← count))
      else pure least
  symbol "\x7d"
  return "\x7b" ++ range ++ "\x7d"

/-- How often a part of a pattern may repeat, if that is said. -/
def patternRepetition? : Reader (Option String) := do
  match ← peek with
  | some (.symbol "*") => advance; return some "*"
  | some (.symbol "+") => advance; return some "+"
  | some (.placeholder "?") => advance; return some "?"
  | some (.symbol "\x7b") => advance; return some (← patternRange)
  | _ => return none

/-- A part of a pattern that is no row of parts; `inner` reads a pattern between parentheses. -/
def patternAtom (inner : Reader String) : Reader String := do
  match ← peek with
  | some (.symbol "^") => advance; return "^"
  | some (.placeholder "$") => advance; return "$"
  | some (.symbol "\x7b") =>
    advance
    symbol "-"
    let n ← identText
    symbol "-"
    symbol "\x7d"
    return "\x7b- " ++ n ++ " -\x7d"
  | some (.word "PERMUTE" none _) => advance; return "PERMUTE" ++ (← parensText identText)
  | some (.symbol "(") => return "( " ++ (← parens inner) ++ " )"
  | _ => identText

/-- Parts of a pattern in a row, each with its repetitions. -/
def patternRow (inner : Reader String) : Reader String := do
  let repeated : Reader String :=
    return (← patternAtom inner) ++ (← concatText patternRepetition?)
  let first ← repeated
  let rest ← concatText do
    if (← peekSymbol ")") || (← peekSymbol "|") then return none
    else return some (" " ++ (← repeated))
  return first ++ rest

/-- A pattern of rows, nested no deeper than `bound`. -/
def rowPatternWithin : (bound : Nat) → Reader String
  | 0 => throw .tooDeep
  | n + 1 => do
    let row ← patternRow (rowPatternWithin n)
    if ← symbol? "|" then return row ++ " | " ++ (← rowPatternWithin n) else return row

/-- A pattern of rows. Each level of it takes a lexeme. -/
def rowPattern : Reader String := do
  rowPatternWithin ((← get).length + 1)

end Reader

end RowPolicy.Sql
