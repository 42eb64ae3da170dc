import RowPolicy.Sql.Grammar.Name

/-!
# Options of a definition

What stands between the parentheses behind `WITH`, `OPTIONS` and their like: names with values, and
in two dialects how the rows of a table are laid out.
-/

namespace RowPolicy.Sql

namespace Reader

/-- The name of an option with its value. -/
def keyValue (r : Rules) : Reader String := do
  let key ← identText
  symbol "="
  return key ++ " = " ++ (← exprText r)

/-- How the rows of a table are clustered. -/
def clusteredOption : Reader String := do
  if ← keywords? ["CLUSTERED", "COLUMNSTORE", "INDEX", "ORDER"] then
    return "CLUSTERED COLUMNSTORE INDEX ORDER " ++ (← identList)
  else if ← keywords? ["CLUSTERED", "COLUMNSTORE", "INDEX"] then
    return "CLUSTERED COLUMNSTORE INDEX"
  else
    keywords ["CLUSTERED", "INDEX"]
    return "CLUSTERED INDEX " ++
      (← parensText do return (← identText) ++ (← wordOf? ["ASC", "DESC"]))

/-- How the rows of a table are partitioned. -/
def partitionOption (r : Rules) : Reader String := do
  keyword "PARTITION"
  symbol "("
  let column ← identText
  keyword "RANGE"
  let side ← wordOf? ["LEFT", "RIGHT"]
  keywords ["FOR", "VALUES"]
  let values ← parensText (exprText r)
  symbol ")"
  return "PARTITION (" ++ column ++ " RANGE" ++ side ++ " FOR VALUES " ++ values ++ ")"

/-- An option. -/
def definitionOption (r : Rules) : Reader String := do
  let layout ← inDialect [.mssql, .generic]
  match layout, ← keywordAt 0 with
  | true, "HEAP" => identText
  | true, "PARTITION" => partitionOption r
  | true, "CLUSTERED" => clusteredOption
  | _, _ => keyValue r

/-- Options between parentheses behind some words, perhaps none, if the words come next. -/
def options? (r : Rules) (ws : List String) : Reader (Option String) := do
  if ← keywords? ws then return some (← parensTextUntil (definitionOption r)) else return none

/-- One or more options between parentheses behind some words, glued to the last of them, if the
words come next. -/
def properties? (r : Rules) (ws : List String) : Reader String := do
  if ← keywords? ws then return " " ++ " ".intercalate ws ++ (← parensText (definitionOption r))
  else return ""

/-- Options between parentheses behind a word, if the word comes next. Where there are none between
the parentheses, the word is passed over as well. -/
def optionsBehind? (r : Rules) (word : String) : Reader String := do
  match ← options? r [word] with
  | none | some "()" => return ""
  | some options => return " " ++ word ++ " " ++ options

/-- Options between parentheses behind `OPTIONS`, if that word comes next; glued to it. -/
def optionsClause? (r : Rules) : Reader (Option String) := do
  return (← options? r ["OPTIONS"]).map ("OPTIONS" ++ ·)

end Reader

end RowPolicy.Sql
