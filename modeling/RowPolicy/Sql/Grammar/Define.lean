import RowPolicy.Sql.Grammar.Operator
import RowPolicy.Sql.Grammar.Routine
import RowPolicy.Sql.Grammar.Table
import RowPolicy.Sql.Grammar.TypeDefinition

/-!
# New objects

`CREATE` of tables, views, indexes and all other objects, in printed form. Words before the kind of
an object that this kind has no use for are passed over.
-/

namespace RowPolicy.Sql

namespace Reader

/-! ## Words before the kind -/

/-- What may stand between `CREATE` and the kind of the object; each part has a blank behind it. -/
structure CreationWords where
  replace : String
  alter : String
  reach : String
  transient : String
  temporary : String
  /-- how a view is evaluated, and in whose name -/
  view : String

/-- The words with the blank that sets them apart, if they come next. -/
def leadingWords? (ws : List String) : Reader String := do
  return optionalWord (← keywords? ws) (" ".intercalate ws ++ " ")

/-- How a view is evaluated, and in whose name. -/
def viewTraits? : Reader String := do
  let algorithm ←
    if ← keyword? "ALGORITHM" then do
      symbol "="
      pure ("ALGORITHM = " ++ (← keywordOf ["UNDEFINED", "MERGE", "TEMPTABLE"]) ++ " ")
    else pure ""
  let definer ←
    if ← keyword? "DEFINER" then do
      symbol "="
      pure ("DEFINER = " ++ (← granteeName) ++ " ")
    else pure ""
  let security ←
    if ← keywords? ["SQL", "SECURITY"] then do
      pure ("SQL SECURITY " ++ (← keywordOf ["DEFINER", "INVOKER"]) ++ " ")
    else pure ""
  return algorithm ++ definer ++ security

/-- What stands between `CREATE` and the kind of the object. -/
def creationWords : Reader CreationWords := do
  let replace ← leadingWords? ["OR", "REPLACE"]
  let alter ← leadingWords? ["OR", "ALTER"]
  let near ← leadingWords? ["LOCAL"]
  let far ← leadingWords? ["GLOBAL"]
  let transient ← leadingWords? ["TRANSIENT"]
  let temporary := optionalWord (← keywordOf? ["TEMP", "TEMPORARY"]).isSome "TEMPORARY "
  let view ← viewTraits?
  return { replace, alter, reach := if far.isEmpty then near else far, transient, temporary, view }

/-! ## Views and indexes -/

/-- A new view; `SECURE` and `MATERIALIZED` may stand before the kind. -/
def newView (r : Rules) (ws : CreationWords) : Reader String := do
  let secure ← leadingWords? ["SECURE"]
  let materialized ← leadingWords? ["MATERIALIZED"]
  keyword "VIEW"
  let early ← unlessThere?
  let n ← nameText
  let late ← if early.isEmpty then unlessThere? else pure ""
  let columns ← viewColumns? r
  let general ← optionsBehind? r "WITH"
  let cluster ←
    if ← keyword? "CLUSTER" then do
      keyword "BY"
      textBefore? "(" (return " CLUSTER BY " ++ (← identList))
    else pure ""
  let special ← if ← inDialect [.generic] then options? r ["OPTIONS"] else pure none
  let target ← if ← inDialect [.generic] then textBehind? ["TO"] nameText else pure ""
  let comment ←
    if ← inDialect [.generic] <&&> keyword? "COMMENT" then do
      symbol "="
      pure (" COMMENT = " ++ (← commentString))
    else pure ""
  keyword "AS"
  let q ← queryText r
  let loose ←
    if ← inDialect [.generic] then words? ["WITH", "NO", "SCHEMA", "BINDING"] else pure ""
  let (options, lateOptions) :=
    match special with
    | none | some "()" => (general, "")
    | some o => ("", " OPTIONS" ++ o)
  return ws.alter ++ ws.replace ++ ws.view ++ secure ++ materialized ++ ws.temporary ++ "VIEW" ++
    early ++ " " ++ n ++ late ++ target ++ columns ++ options ++ comment ++ cluster ++
    lateOptions ++ " AS " ++ q ++ loose

/-- A new index, behind `INDEX`. -/
def newIndex (r : Rules) (unique : String) : Reader String := do
  let concurrently ← words? ["CONCURRENTLY"]
  let guarded ← unlessThere?
  let (n, early) ←
    if ← pure guarded.isEmpty <&&> keyword? "ON" then pure ("", none)
    else do
      let n ← nameText
      let method ← indexMethod?
      keyword "ON"
      pure (" " ++ n, method)
  let table ← nameText
  let late ← indexMethod?
  let columns ← indexColumns r
  let included ← textBehind? ["INCLUDE"] identList
  let nulls ← nullsDistinct?
  let parameters ←
    if ← inDialect [.postgresql, .generic] then textBehind? ["WITH"] (parensText (exprText r))
    else pure ""
  let condition ← textBehind? ["WHERE"] (exprText r)
  let options ← indexOptions " "
  let modes ← concatText (return (← changeMode?).map (" " ++ ·))
  return unique ++ "INDEX" ++ concurrently ++ guarded ++ n ++ " ON " ++ table ++
    ((late.or early).map fun m => " USING " ++ m ++ " ").getD "" ++ columns ++ included ++ nulls ++
    parameters ++ condition ++ options ++ modes

/-- A new table that a module keeps, behind `VIRTUAL`. -/
def newVirtualTable : Reader String := do
  keyword "TABLE"
  let guarded ← unlessThere?
  let n ← nameText
  keyword "USING"
  let module ← identText
  return "VIRTUAL TABLE" ++ guarded ++ " " ++ n ++ " USING " ++ module ++ (← columnsText?)

/-! ## Containers -/

/-- A new schema, behind `SCHEMA`. -/
def newSchema (r : Rules) : Reader String := do
  let guarded ← unlessThere?
  let n ← if ← peekKeyword "AUTHORIZATION" then pure "" else do pure (" " ++ (← nameText))
  let owner ← textBehind? ["AUTHORIZATION"] identText
  let collation ← textBehind? ["DEFAULT", "COLLATE"] (exprText r)
  let options ← textBehind? ["WITH"] (parensTextUntil (definitionOption r))
  let late := ((← optionsClause? r).map (" " ++ ·)).getD ""
  let clone ← textBehind? ["CLONE"] nameText
  return "SCHEMA" ++ guarded ++ n ++ owner ++ collation ++ options ++ late ++ clone

/-- A new database, behind `DATABASE`. -/
def newDatabase : Reader String := do
  let guarded ← unlessThere?
  let n ← nameText
  let (location, managed) ← loop (fun ((location, managed) : String × String) => do
    if ← keyword? "LOCATION" then return some (" LOCATION " ++ (← bareString), managed)
    else if ← keyword? "MANAGEDLOCATION" then
      return some (location, " MANAGEDLOCATION " ++ (← bareString))
    else return none) ("", "")
  let clone ← textBehind? ["CLONE"] nameText
  return "DATABASE" ++ guarded ++ " " ++ n ++ location ++ managed ++ clone

/-- A new extension, behind `EXTENSION`. -/
def newExtension : Reader String := do
  let guarded ← unlessThere?
  let n ← identText
  let options ←
    if ← keyword? "WITH" then do
      let schema ← textBehind? ["SCHEMA"] identText
      let version ← textBehind? ["VERSION"] identText
      let all := schema ++ version ++ (← words? ["CASCADE"])
      pure (optionalWord (!all.isEmpty) (" WITH" ++ all))
    else pure ""
  return "EXTENSION" ++ guarded ++ " " ++ n ++ options

/-- A new connection to other data, behind `CONNECTOR`. -/
def newConnector (r : Rules) : Reader String := do
  let guarded ← unlessThere?
  let n ← identText
  let kind ← textBehind? ["TYPE"] bareString
  let address ← textBehind? ["URL"] bareString
  let comment ←
    if ← keyword? "COMMENT" then do
      let _ ← symbol? "="
      pure (" COMMENT = '" ++ (← commentContent) ++ "'")
    else pure ""
  return "CONNECTOR" ++ guarded ++ " " ++ n ++ kind ++ address ++ comment ++
    (← properties? r ["WITH", "DCPROPERTIES"])

/-- Options of two words each, between parentheses. -/
def wordPairs : Reader String :=
  parensText do
    let key ← identText
    return key ++ " " ++ (← identText)

/-- A new server of foreign data, behind `SERVER`. -/
def newServer : Reader String := do
  let guarded ← unlessThere?
  let n ← nameText
  let kind ← textBehind? ["TYPE"] identText
  let version ← textBehind? ["VERSION"] identText
  keywords ["FOREIGN", "DATA", "WRAPPER"]
  let wrapper ← nameText
  let options ← textBehind? ["OPTIONS"] wordPairs
  return "SERVER" ++ guarded ++ " " ++ n ++ kind ++ version ++ " FOREIGN DATA WRAPPER " ++
    wrapper ++ options

/-- A new secret, behind `SECRET`. -/
def newSecret : Reader String := do
  let guarded ← unlessThere?
  let n ←
    if ← peekSymbol "(" <||> peekKeyword "IN" then pure ""
    else do pure (((← attempt identText).map (" " ++ ·)).getD "")
  let place ← textBehind? ["IN"] identText
  symbol "("
  keyword "TYPE"
  let kind ← identText
  let options ← loop (fun s => do
    if ← symbol? "," then
      let key ← identText
      return some (s ++ ", " ++ key ++ " " ++ (← identText))
    else return none) ""
  symbol ")"
  return "SECRET" ++ guarded ++ n ++ place ++ " ( TYPE " ++ kind ++ options ++ " )"

/-! ## Sequences and domains -/

/-- A new sequence, behind `SEQUENCE`. -/
def newSequence (r : Rules) : Reader String := do
  let guarded ← unlessThere?
  let n ← nameText
  let type ← textBehind? ["AS"] (dataType r)
  let options ← sequenceOptions
  let owner ← textBehind? ["OWNED", "BY"] do
    if ← keyword? "NONE" then return "NONE" else nameText
  return "SEQUENCE" ++ guarded ++ " " ++ n ++ type ++ options ++ owner

/-- A new domain, behind `DOMAIN`. -/
def newDomain (r : Rules) : Reader String := do
  let n ← nameText
  keyword "AS"
  let t ← dataType r
  let collation ← textBehind? ["COLLATE"] identText
  let default ← textBehind? ["DEFAULT"] (exprText r)
  let constraints ← concatText (return (← tableConstraint? r).map (" " ++ ·))
  return "DOMAIN " ++ n ++ " AS " ++ t ++ collation ++ default ++ constraints

/-! ## Policies of rows -/

/-- Who a policy concerns, and the conditions on rows that are read and written. -/
def policyScope (r : Rules) : Reader String := do
  let condition : Reader String := return "(" ++ (← parens (exprText r)) ++ ")"
  let whom ← textBehind? ["TO"] (commaText owner)
  let reads ← textBehind? ["USING"] condition
  return whom ++ reads ++ (← textBehind? ["WITH", "CHECK"] condition)

/-- A new policy of rows, behind `POLICY`. -/
def newPolicy (r : Rules) : Reader String := do
  let n ← identText
  keyword "ON"
  let table ← nameText
  let kind ← textBehind? ["AS"] (keywordOf ["PERMISSIVE", "RESTRICTIVE"])
  let change ← textBehind? ["FOR"] (keywordOf ["ALL", "SELECT", "INSERT", "UPDATE", "DELETE"])
  return "POLICY " ++ n ++ " ON " ++ table ++ kind ++ change ++ (← policyScope r)

/-! ## All kinds -/

/-- A new object of a kind that none of the words before it changes. -/
def newPlainObject (r : Rules) (ws : CreationWords) (k : String) : Reader String := do
  advance
  match k with
  | "EXTENSION" => newExtension
  | "INDEX" => newIndex r ""
  | "UNIQUE" =>
    keyword "INDEX"
    newIndex r "UNIQUE "
  | "VIRTUAL" => newVirtualTable
  | "SCHEMA" => newSchema r
  | "DATABASE" => newDatabase
  | "ROLE" => newRole
  | "SEQUENCE" => return ws.temporary ++ (← newSequence r)
  | "TYPE" => newType r
  | "PROCEDURE" => return ws.alter ++ "PROCEDURE " ++ (← newProcedure r)
  | "CONNECTOR" => newConnector r
  | "SERVER" => newServer
  | "OPERATOR" => newOperatorObject r
  | _ => expected "an object type after CREATE"

/-- Whether a view comes next. -/
def viewNext : Reader Bool := do
  let k ← keywordAt 0
  let k1 ← keywordAt 1
  return k == "VIEW" || k == "MATERIALIZED" ||
    (k == "SECURE" && (k1 == "VIEW" || (k1 == "MATERIALIZED" && (← keywordAt 2) == "VIEW")))

/-- A new object, behind the words before its kind. -/
def newObject (r : Rules) (ws : CreationWords) : Reader String := do
  if ← keyword? "TABLE" then
    newTable r (ws.replace ++ ws.reach ++ ws.temporary ++ ws.transient)
  else if ← viewNext then newView r ws
  else if ← keyword? "POLICY" then newPolicy r
  else if ← keyword? "EXTERNAL" then
    keyword "TABLE"
    externalTable r (ws.replace ++ "EXTERNAL ")
  else if ← keyword? "FUNCTION" then
    let alter := optionalWord (← inDialect [.mssql]) ws.alter
    return alter ++ ws.replace ++ ws.temporary ++ "FUNCTION " ++ (← newFunction r)
  else if ← keyword? "DOMAIN" then newDomain r
  else if ← keyword? "TRIGGER" then
    return ws.temporary ++ ws.alter ++ ws.replace ++ "TRIGGER " ++ (← newTrigger r)
  else if ← keywords? ["CONSTRAINT", "TRIGGER"] then
    return ws.temporary ++ ws.alter ++ ws.replace ++ "CONSTRAINT TRIGGER " ++ (← newTrigger r)
  else if ← keyword? "MACRO" then
    return ws.replace ++ ws.temporary ++ "MACRO " ++ (← newMacro r)
  else if ← keyword? "SECRET" then return ws.replace ++ ws.temporary ++ (← newSecret)
  else if ← keyword? "USER" then return ws.replace ++ (← newUser)
  else if !ws.replace.isEmpty then expected "an object type after CREATE OR REPLACE"
  else newPlainObject r ws (← keywordAt 0)

/-- `CREATE`. -/
def create (r : Rules) : Reader String := do
  if ← inDialect [.mssql] <&&> keyword? "TRIGGER" then
    return "CREATE TRIGGER " ++ (← newTableTrigger r)
  else if ← inDialect [.mssql] <&&> keywords? ["OR", "ALTER", "TRIGGER"] then
    return "CREATE OR ALTER TRIGGER " ++ (← newTableTrigger r)
  else return "CREATE " ++ (← newObject r (← creationWords))

end Reader

end RowPolicy.Sql
