import RowPolicy.Sql.Grammar.Query

/-!
# Scripts

Lists of statements inside another statement, and the statements that choose among them or repeat
them. A semicolon ends every statement of a list. The words that open and close a block are printed
in their own letter case.
-/

namespace RowPolicy.Sql

/-- Statements in printed form, perhaps between two words. -/
structure Block where
  statements : List String
  /-- the words around the statements, as they are written -/
  frame : Option (String × String)

/-- The statements of a block, a semicolon behind each. -/
def Block.listed (b : Block) : String :=
  if b.statements.isEmpty then "" else "; ".intercalate b.statements ++ ";"

/-- A block as text. -/
def Block.render (b : Block) : String :=
  match b.frame with
  | some (first, last) => first ++ " " ++ b.listed ++ " " ++ last
  | none => b.listed

/-- A block behind a blank. One without statements is left out, with the words around it. -/
def Block.clause (b : Block) : String :=
  if b.statements.isEmpty then "" else " " ++ b.render

namespace Reader

/-! ## Blocks -/

/-- The keyword `k` as it is written. -/
def wordAsWritten (k : String) : Reader String := do
  if ← peekKeyword k then identText else expected k

/-- Statements with a semicolon behind each, up to one of the words `ends`. -/
def statementList (r : Rules) (ends : List String) : Reader (List String) := do
  let statements ← loop (fun acc => do
    if (← atEnd) || ends.contains (← keywordAt 0) then return none
    else
      let s ← statementText r
      symbol ";"
      return some (s :: acc)) []
  return statements.reverse

/-- What `statements` reads between `BEGIN` and `END`. -/
def beginEnd (statements : Reader (List String)) : Reader Block := do
  let first ← wordAsWritten "BEGIN"
  let statements ← statements
  let last ← wordAsWritten "END"
  return ⟨statements, some (first, last)⟩

/-- Statements up to one of the words `ends`, perhaps between `BEGIN` and `END`. -/
def statementBlock (r : Rules) (ends : List String) : Reader Block := do
  if ← peekKeyword "BEGIN" then beginEnd (statementList r ends)
  else return ⟨← statementList r ends, none⟩

/-! ## Choices -/

/-- A condition with the statements that follow where it holds, behind the word `head`. -/
def conditional (r : Rules) (head : String) (ends : List String) : Reader String := do
  let condition ← exprText r
  keyword "THEN"
  return head ++ " " ++ condition ++ " THEN" ++ (← statementBlock r ends).clause

/-- Conditions with their statements, one behind each word `k`. -/
def conditionals (r : Rules) (k : String) (ends : List String) : Reader String :=
  concatText do
    if ← peekKeyword k then
      let head ← identText
      return some (" " ++ (← conditional r head ends))
    else return none

/-- The statements that follow where no condition holds. -/
def otherwise? (r : Rules) : Reader String := do
  if ← peekKeyword "ELSE" then
    let head ← identText
    return " " ++ head ++ (← statementBlock r ["END"]).clause
  else return ""

/-- `CASE`. -/
def caseScript (r : Rules) : Reader String := do
  let subject ← if ← peekKeyword "WHEN" then pure "" else do pure (" " ++ (← exprText r))
  unless ← peekKeyword "WHEN" do expected "WHEN"
  let cases ← conditionals r "WHEN" ["WHEN", "ELSE", "END"]
  let other ← otherwise? r
  keyword "END"
  return "CASE" ++ subject ++ cases ++ other ++ " END" ++ (← words? ["CASE"])

/-- `IF`, whose word is written as `head`. -/
def ifScript (r : Rules) (head : String) : Reader String := do
  let first ← conditional r head ["ELSE", "ELSEIF", "END"]
  let others ← conditionals r "ELSEIF" ["ELSEIF", "ELSE", "END"]
  let other ← otherwise? r
  keyword "END"
  return first ++ others ++ other ++ " END " ++ (← wordAsWritten "IF")

/-- `WHILE`, whose word is written as `head`. -/
def whileScript (r : Rules) (head : String) : Reader String := do
  let condition ← exprText r
  return head ++ " " ++ condition ++ (← statementBlock r ["END"]).clause

/-- `RAISE` of an error. -/
def raise (r : Rules) : Reader String := do
  if ← keywords? ["USING", "MESSAGE"] then
    symbol "="
    return "RAISE USING MESSAGE = " ++ (← exprText r)
  else return "RAISE" ++ ((← attempt (exprText r)).map (" " ++ ·)).getD ""

/-! ## Choices without a word at the end -/

/-- Statements up to `END`; the semicolons between them are optional. -/
def looseStatements (r : Rules) : Reader (List String) := do
  let statements ← loop (fun acc => do
    if (← atEnd) || (← peekKeyword "END") then return none
    else
      let s ← statementText r
      loop (fun () => do if ← symbol? ";" then return some () else return none) ()
      return some (s :: acc)) []
  return statements.reverse

/-- One statement, or several between `BEGIN` and `END`. -/
def bodyOfChoice (r : Rules) : Reader Block := do
  if ← peekKeyword "BEGIN" then beginEnd (looseStatements r)
  else return ⟨[← statementText r], none⟩

/-- `IF` without `THEN`, whose word is written as `head`. Semicolons before `ELSE` are passed over;
where no `ELSE` follows, the last of them still ends the statement. -/
def plainIf (r : Rules) (head : String) : Reader String := do
  let condition ← exprText r
  let first := head ++ " " ++ condition ++ (← bodyOfChoice r).clause
  let semicolons := (← get).takeWhile fun l => l.token == .symbol ";"
  if (← keywordAt semicolons.length) == "ELSE" then
    modify (List.drop semicolons.length)
    let word ← identText
    return first ++ " " ++ word ++ (← bodyOfChoice r).clause
  else
    modify (List.drop (semicolons.length - 1))
    return first

end Reader

end RowPolicy.Sql
