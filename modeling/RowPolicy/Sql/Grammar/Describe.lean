import RowPolicy.Sql.Grammar.Query

/-!
# Descriptions

Statements that describe a plan, a table or what a server holds, in printed form.
-/

namespace RowPolicy.Sql

namespace Reader

/-! ## Plans -/

/-- An option of a description. -/
def explainOption (r : Rules) : Reader String := do
  let n ← identText
  if ← peekSymbol "," <||> peekSymbol ")" then return n else return n ++ " " ++ (← exprText r)

/-- The form of a description. -/
def explainFormat? : Reader String := do
  if ← keyword? "FORMAT" then
    let sign := if ← symbol? "=" then "=" else " "
    return " FORMAT" ++ sign ++ (← keywordOf ["TEXT", "GRAPHVIZ", "JSON"])
  else return ""

/-- `EXPLAIN` and its synonyms, by the `word` that is read. A statement is described if one can be
read, a table otherwise, which then loses all other words. -/
def explain (r : Rules) (word : String) : Reader String := do
  let options ←
    if ← pure (word == "EXPLAIN") <&&> feature (·.explainOptions) <&&> peekSymbol "(" then do
      pure (" " ++ (← parensText (explainOption r)))
    else
      match ← phraseOf? [["QUERY", "PLAN"], ["ESTIMATE"]] with
      | "" => do
        let analyze ← words? ["ANALYZE"]
        let verbose ← words? ["VERBOSE"]
        pure (analyze ++ verbose ++ (← explainFormat?))
      | s => pure s
  let k ← keywordAt 0
  match ← attempt (statementText r) with
  | some s =>
    if ["EXPLAIN", "DESCRIBE", "DESC"].contains k then expected "a statement to describe"
    else return word ++ options ++ " " ++ s
  | none =>
    let form ← wordOf? ["EXTENDED", "FORMATTED"]
    return word ++ form ++ " " ++ (← nameText)

/-! ## What a server holds -/

/-- A filter of a list of objects. -/
def showFilter? (r : Rules) : Reader String := do
  if ← keyword? "LIKE" then return " LIKE " ++ (← quotedString)
  else if ← keyword? "ILIKE" then
    return " ILIKE " ++ String.ofList (quoteContent '\'' false (← literalString).toList)
  else if ← keyword? "WHERE" then return " WHERE " ++ (← exprText r)
  else return ((← attempt quotedString).map (" " ++ ·)).getD ""

/-- Where the listed objects are. Of two names the second is the outer one. -/
def showPlace? : Reader String := do
  match ← keywordOf? ["FROM", "IN"] with
  | none => return ""
  | some k =>
    match ← keywordOf? ["ACCOUNT", "DATABASE", "SCHEMA", "TABLE", "VIEW"] with
    | some kind =>
      let k0 ← keywordAt 0
      let ends := k0 == "LIMIT" || (k0 == "STARTS" && (← keywordAt 1) == "WITH")
      if ends && (kind == "DATABASE" || kind == "SCHEMA") then return " " ++ k ++ " " ++ kind
      else
        let n := ((← attempt nameText).map (" " ++ ·)).getD ""
        return " " ++ k ++ " " ++ kind ++ n
    | none =>
      let n ← nameText
      match ← keywordOf? ["FROM", "IN"] with
      | some _ => return " " ++ k ++ " " ++ (← identText) ++ "." ++ n
      | none => return " " ++ k ++ " " ++ n

/-- Where the listed objects are, and which of them are listed. -/
def showOptions (r : Rules) : Reader String := do
  let place ← showPlace?
  let filter ← showFilter? r
  let start ← textBehind? ["STARTS", "WITH"] constantText
  let limit ←
    if ← keyword? "LIMIT" then do
      pure (((← limitExpr r).map fun e => " LIMIT " ++ e.render).getD "")
    else pure ""
  let after ← textBehind? ["FROM"] constantText
  return place ++ start ++ limit ++ after ++ filter

/-- `SHOW`. Words that the kind of object has no use for are passed over. -/
def showObjects (r : Rules) : Reader String := do
  let terse ← words? ["TERSE"]
  let extended ← words? ["EXTENDED"]
  let full ← words? ["FULL"]
  let session ← words? ["SESSION"]
  let global ← words? ["GLOBAL"]
  let external ← words? ["EXTERNAL"]
  let server ← inDialect [.mysql, .generic]
  if (← keywordOf? ["COLUMNS", "FIELDS"]).isSome then
    return "SHOW" ++ extended ++ full ++ " COLUMNS" ++ (← showOptions r)
  else if ← keyword? "TABLES" then
    let history ← if external.isEmpty then words? ["HISTORY"] else pure ""
    return "SHOW" ++ terse ++ extended ++ full ++ external ++ " TABLES" ++ history ++
      (← showOptions r)
  else if ← keywords? ["MATERIALIZED", "VIEWS"] then
    return "SHOW" ++ terse ++ " MATERIALIZED VIEWS" ++ (← showOptions r)
  else if ← keyword? "VIEWS" then return "SHOW" ++ terse ++ " VIEWS" ++ (← showOptions r)
  else if ← keyword? "FUNCTIONS" then return "SHOW FUNCTIONS" ++ (← showFilter? r)
  else if !(extended ++ full).isEmpty then expected "COLUMNS, TABLES or VIEWS"
  else if ← keyword? "CREATE" then
    let what ← keywordOf ["TABLE", "TRIGGER", "FUNCTION", "PROCEDURE", "EVENT", "VIEW"]
    return "SHOW CREATE " ++ what ++ " " ++ (← nameText)
  else if ← keyword? "COLLATION" then return "SHOW COLLATION" ++ (← showFilter? r)
  else if ← keyword? "VARIABLES" <&&> pure server then
    return "SHOW" ++ session ++ global ++ " VARIABLES" ++ (← showFilter? r)
  else if ← keyword? "STATUS" <&&> pure server then
    return "SHOW" ++ session ++ global ++ " STATUS" ++ (← showFilter? r)
  else
    match ← keywordOf? ["DATABASES", "SCHEMAS"] with
    | some k =>
      let history ← words? ["HISTORY"]
      return "SHOW" ++ terse ++ " " ++ k ++ history ++ (← showOptions r)
    | none =>
      match ← phraseOf? [["CHARACTER", "SET"], ["CHARSET"]] with
      | "" => return " ".intercalate ("SHOW" :: (← remainingWords))
      | s => return "SHOW" ++ s ++ (← showFilter? r)

end Reader

end RowPolicy.Sql
