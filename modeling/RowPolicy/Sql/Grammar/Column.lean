import RowPolicy.Sql.Grammar.Constraint

/-!
# Column definitions

A column with its type and options, in printed form. Some words of options are taken in every
dialect but mean something only in a few; elsewhere they vanish from the definition.
-/

namespace RowPolicy.Sql

namespace Reader

/-! ## Sequences -/

/-- A bound of a sequence, or that it has none. -/
def sequenceBound? (k : String) : Reader String := do
  if ← keyword? k then return " " ++ k ++ " " ++ (← signedNumberText) else words? ["NO", k]

/-- A number of a sequence behind a word and an optional second one. -/
def sequenceNumber? (k filler : String) : Reader String := do
  if ← keyword? k then
    let word ← words? [filler]
    return " " ++ k ++ word ++ " " ++ (← signedNumberText)
  else return ""

/-- The steps and bounds of a sequence. -/
def sequenceOptions : Reader String := do
  let step ← sequenceNumber? "INCREMENT" "BY"
  let least ← sequenceBound? "MINVALUE"
  let greatest ← sequenceBound? "MAXVALUE"
  let start ← sequenceNumber? "START" "WITH"
  let cache ← textBehind? ["CACHE"] signedNumberText
  let cycle ← phraseOf? [["NO", "CYCLE"], ["CYCLE"]]
  return step ++ least ++ greatest ++ start ++ cache ++ cycle

/-! ## Options -/

/-- A reader in the definition of a column. -/
def inColumn {α : Type} (p : Reader α) : Reader α :=
  withReader (fun s => { s with inColumn := true }) p

/-- A reader outside the definition of a column. -/
def outsideColumn {α : Type} (p : Reader α) : Reader α :=
  withReader (fun s => { s with inColumn := false }) p

/-- The expression of an option. Between parentheses it ends with them. -/
def optionExpr (r : Rules) : Reader String := do
  if ← peekSymbol "(" then return (← outsideColumn r.operand).render else exprText r

/-- How a computed value is kept. -/
def storage? : Reader String :=
  wordOf? ["STORED", "VIRTUAL"]

/-- The numbers of an identity behind its words; nothing where there are none. -/
def identityNumbers? : Reader String := do
  let options ← textBefore? "(" (parens sequenceOptions)
  return optionalWord (!options.isEmpty) (" (" ++ options ++ " )")

/-- A computed value or an identity, behind `GENERATED`. -/
def generated? (r : Rules) : Reader (Option String) := do
  if ← keywords? ["ALWAYS", "AS", "IDENTITY"] then
    return some ("GENERATED ALWAYS AS IDENTITY" ++ (← identityNumbers?))
  else if ← keywords? ["BY", "DEFAULT", "AS", "IDENTITY"] then
    return some ("GENERATED BY DEFAULT AS IDENTITY" ++ (← identityNumbers?))
  else if ← keywords? ["ALWAYS", "AS"] then
    if ← peekSymbol "(" then
      let e ← parens (outsideColumn (exprText r))
      let kept ←
        if ← inDialect [.postgresql] then do
          keyword "STORED"
          pure " STORED"
        else storage?
      return some ("GENERATED ALWAYS AS (" ++ e ++ ")" ++ kept)
    else return none
  else return none

/-- The start and the step of an identity between parentheses. -/
def identitySteps? : Reader String := textBefore? "(" do
  symbol "("
  let start ← signedNumberText
  symbol ","
  let step ← signedNumberText
  symbol ")"
  return "(" ++ start ++ ", " ++ step ++ ")"

/-- The content of a comment. -/
def commentContent : Reader String := do
  match ← peek with
  | some (.string .plain s) | some (.dollar _ s) => advance; return s
  | _ => expected "a string"

/-- A comment between quotes. -/
def commentString : Reader String :=
  return quoted '\'' (← commentContent)

/-- An option that begins with words of its own in every dialect, if one is next. -/
def commonOption? (r : Rules) : Reader (Option String) := do
  if ← keywords? ["CHARACTER", "SET"] then return some ("CHARACTER SET " ++ (← nameText))
  else if ← keyword? "COLLATE" then return some ("COLLATE " ++ (← nameText))
  else if ← keywords? ["NOT", "NULL"] then return some "NOT NULL"
  else if ← keyword? "COMMENT" then return some ("COMMENT " ++ (← commentString))
  else if ← keyword? "NULL" then return some "NULL"
  else if ← keyword? "DEFAULT" then return some ("DEFAULT " ++ (← optionExpr r))
  else if ← inDialect [.generic] <&&> keyword? "MATERIALIZED" then
    return some ("MATERIALIZED " ++ (← optionExpr r))
  else if ← inDialect [.generic] <&&> keyword? "ALIAS" then
    return some ("ALIAS " ++ (← optionExpr r))
  else if ← inDialect [.generic] <&&> keyword? "EPHEMERAL" then
    if ← peekSymbol "," <||> peekSymbol ")" then return some "EPHEMERAL"
    else return some ("EPHEMERAL " ++ (← optionExpr r))
  else if ← keywords? ["PRIMARY", "KEY"] then return some ("PRIMARY KEY" ++ (← timing?))
  else if ← keyword? "UNIQUE" then return some ("UNIQUE" ++ (← timing?))
  else if ← keyword? "REFERENCES" then return some (← reference " ")
  else if ← keyword? "CHECK" then
    return some ("CHECK (" ++ (← parens (outsideColumn (exprText r))) ++ ")")
  else return none

/-- An option that only some dialects know, if one is next. A word that another dialect would know
is passed over. -/
def specialOption? (r : Rules) : Reader (Option String) := do
  if ← keyword? "AUTO_INCREMENT" <&&> inDialect [.mysql, .generic] then
    return some "AUTO_INCREMENT"
  else if ← keyword? "AUTOINCREMENT" <&&> inDialect [.sqlite, .generic] then
    return some "AUTOINCREMENT"
  else if ← keyword? "ASC" <&&> inDialect [.sqlite, .generic] then return some "ASC"
  else if ← keyword? "DESC" <&&> inDialect [.sqlite, .generic] then return some "DESC"
  else if ← keywords? ["ON", "UPDATE"] <&&> inDialect [.mysql, .generic] then
    return some ("ON UPDATE " ++ (← optionExpr r))
  else if ← keyword? "GENERATED" then generated? r
  else if ← inDialect [.generic] <&&> peekKeyword "OPTIONS" then optionsClause? r
  else if ← keyword? "AS" <&&> inDialect [.mysql, .sqlite, .generic] then
    let e ← parens (exprText r)
    return some ("AS (" ++ e ++ ")" ++ (← storage?))
  else if ← keyword? "SRID" <&&> inDialect [.mysql, .generic] then
    return some ("SRID " ++ (← optionExpr r))
  else if ← keyword? "IDENTITY" <&&> inDialect [.mssql, .generic] then
    return some ("IDENTITY" ++ (← identitySteps?))
  else if ← inDialect [.sqlite, .generic] <&&> keywords? ["ON", "CONFLICT"] then
    return some ("ON CONFLICT " ++ (← keywordOf ["ROLLBACK", "ABORT", "FAIL", "IGNORE", "REPLACE"]))
  else if ← keyword? "INVISIBLE" then return some "INVISIBLE"
  else return none

/-- An option of a column, if one is next. -/
def columnOption? (r : Rules) : Reader (Option String) := inColumn do
  match ← commonOption? r with
  | some o => return some o
  | none => specialOption? r

/-- The options of a column, each behind a blank. -/
def columnOptions (r : Rules) : Reader String :=
  concatText do return (← columnOption? r).map (" " ++ ·)

/-- An option of a column behind a blank, with its name, if one is next. -/
def namedOption? (r : Rules) : Reader (Option String) := do
  if ← keyword? "CONSTRAINT" then
    let n ← identText
    match ← columnOption? r with
    | some o => return some (" CONSTRAINT " ++ n ++ " " ++ o)
    | none => expected "constraint details after CONSTRAINT"
  else return (← columnOption? r).map (" " ++ ·)

/-! ## Columns -/

/-- Whether the type of a column is left out, as one dialect allows. -/
def typeLeftOut : Reader Bool := do
  if ← inDialect [.sqlite] then
    let word := (← peek).any Token.isWord
    return !word || ["CONSTRAINT", "PRIMARY", "NOT", "UNIQUE", "CHECK", "DEFAULT", "COLLATE",
      "REFERENCES", "GENERATED", "AS"].contains (← keywordAt 0)
  else return false

/-- A column whose type `type` reads behind a blank. -/
def columnOf (r : Rules) (type : Reader String) : Reader String := do
  let n ← identText
  let t ← if ← typeLeftOut then pure "" else type
  return n ++ t ++ (← concatText (namedOption? r))

/-- A column with its type and options. -/
def columnDefinition (r : Rules) : Reader String :=
  columnOf r (return " " ++ (← dataType r))

/-- A column with an optional type and options. -/
def looseColumn (r : Rules) : Reader String :=
  columnOf r (return ((← attempt (dataType r)).map (" " ++ ·)).getD "")

/-- A column of a view. -/
def viewColumn (r : Rules) : Reader String := do
  let n ← identText
  let options ← loop (fun acc => return (← columnOption? r).map (· :: acc)) []
  return n ++ optionalWord (!options.isEmpty) (" " ++ commaSeparated options.reverse)

/-- The columns of a view behind a blank, if there are any. -/
def viewColumns? (r : Rules) : Reader String := textBefore? "(" do
  match ← parensTextUntil (viewColumn r) with
  | "()" => return ""
  | columns => return " " ++ columns

end Reader

end RowPolicy.Sql
