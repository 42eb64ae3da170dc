import RowPolicy.Sql.Grammar.Role
import RowPolicy.Sql.Grammar.Table
import RowPolicy.Sql.Grammar.Define

/-!
# Changed objects

`ALTER` of tables, views, indexes and other objects, in printed form. Each reader starts behind the
word for the kind of object.
-/

namespace RowPolicy.Sql

namespace Reader

/-! ## Columns of a table -/

/-- Where a column stands among the others. -/
def columnPlace? : Reader String := do
  if ← inDialect [.mysql, .generic] then
    if ← keyword? "FIRST" then return " FIRST" else textBehind? ["AFTER"] identText
  else return ""

/-- The new definition of a column. -/
def columnChange (r : Rules) : Reader String := do
  let n ← identText
  let t ← dataType r
  let options ← columnOptions r
  return n ++ " " ++ t ++ options ++ (← columnPlace?)

/-- The new type of a column, with the values it turns the old ones into. -/
def columnType (r : Rules) : Reader String := do
  let t ← dataType r
  let values ←
    if ← inDialect [.postgresql] then textBehind? ["USING"] (exprText r) else pure ""
  return "TYPE " ++ t ++ values

/-- That a column gets its values from a sequence. -/
def addedIdentity : Reader String := do
  let whose ← phraseOf? [["ALWAYS"], ["BY", "DEFAULT"]]
  keywords ["AS", "IDENTITY"]
  let options ← textBefore? "(" (return " (" ++ (← parens sequenceOptions) ++ " )")
  return "ADD GENERATED" ++ whose ++ " AS IDENTITY" ++ options

/-- A change of one column, behind `ALTER`. -/
def alterColumn (r : Rules) : Reader String := do
  let _ ← keyword? "COLUMN"
  let c ← identText
  let change ←
    if ← keywords? ["SET", "NOT", "NULL"] then pure "SET NOT NULL"
    else if ← keywords? ["DROP", "NOT", "NULL"] then pure "DROP NOT NULL"
    else if ← keywords? ["SET", "DEFAULT"] then do pure ("SET DEFAULT " ++ (← exprText r))
    else if ← keywords? ["DROP", "DEFAULT"] then pure "DROP DEFAULT"
    else if ← keywords? ["SET", "DATA", "TYPE"] then do pure ("SET DATA " ++ (← columnType r))
    else if ← keyword? "TYPE" then columnType r
    else if ← keywords? ["ADD", "GENERATED"] then addedIdentity
    else expected "a change of a column"
  return "ALTER COLUMN " ++ c ++ " " ++ change

/-! ## Parts of a table -/

/-- Expressions between parentheses. -/
def exprList (r : Rules) : Reader String :=
  parensText (exprText r)

/-- A projection of a table by name, with the part of the table that it is changed in. -/
def projectionPart (words : String) : Reader String := do
  let guarded ← ifThere?
  let n ← identText
  return words ++ " PROJECTION" ++ guarded ++ " " ++ n ++
    (← textBehind? ["IN", "PARTITION"] identText)

/-- A new projection of a table, behind `PROJECTION`. -/
def addProjection (r : Rules) : Reader String := do
  let guarded ← unlessThere?
  let n ← identText
  symbol "("
  let items ← if ← keyword? "SELECT" then projection r else expected "SELECT"
  let groups ← groupBy? r
  let order ← orderBy? r
  symbol ")"
  return "ADD PROJECTION" ++ guarded ++ " " ++ n ++ " (SELECT " ++
    renderPieces (itemPieces items ++ groups ++ order) ++ ")"

/-- A part of a table by its key. -/
def tablePart (r : Rules) : Reader String := do
  let k ← keywordOf ["PART", "PARTITION"]
  return k ++ " " ++ (← exprText r)

/-- What is added to a table, behind `ADD`. -/
def addition (r : Rules) : Reader String := do
  match ← tableConstraint? r with
  | some c => return "ADD " ++ c ++ (← words? ["NOT", "VALID"])
  | none =>
    if ← inDialect [.generic] <&&> keyword? "PROJECTION" then addProjection r
    else
      let guarded ← unlessThere?
      let parts ← concatText do
        if ← keyword? "PARTITION" then return some (" PARTITION " ++ (← exprList r))
        else return none
      if !parts.isEmpty then return "ADD" ++ guarded ++ parts
      else
        let column ← words? ["COLUMN"]
        let guarded ←
          if ← inDialect [.postgresql, .generic] then do
            let late ← unlessThere?
            pure (if late.isEmpty then guarded else late)
          else pure ""
        let c ← columnDefinition r
        return "ADD" ++ column ++ guarded ++ " " ++ c ++ (← columnPlace?)

/-- What is dropped from a table, behind `DROP`. -/
def removal (r : Rules) : Reader String := do
  if ← keywords? ["IF", "EXISTS", "PARTITION"] then
    return "DROP IF EXISTS PARTITION " ++ (← exprList r)
  else if ← keyword? "PARTITION" then return "DROP PARTITION " ++ (← exprList r)
  else if ← keyword? "CONSTRAINT" then
    let guarded ← ifThere?
    let n ← identText
    return "DROP CONSTRAINT" ++ guarded ++ " " ++ n ++ (← dependents?)
  else if ← keywords? ["PRIMARY", "KEY"] then return "DROP PRIMARY KEY" ++ (← dependents?)
  else if ← keywords? ["FOREIGN", "KEY"] then
    let n ← identText
    return "DROP FOREIGN KEY " ++ n ++ (← dependents?)
  else if ← keyword? "INDEX" then return "DROP INDEX " ++ (← identText)
  else if ← keyword? "PROJECTION" <&&> inDialect [.generic] then
    let guarded ← ifThere?
    return "DROP PROJECTION" ++ guarded ++ " " ++ (← identText)
  else if ← keywords? ["CLUSTERING", "KEY"] then return "DROP CLUSTERING KEY"
  else
    let column ← words? ["COLUMN"]
    let guarded ← ifThere?
    let n ← identText
    return "DROP" ++ column ++ guarded ++ " " ++ n ++ (← dependents?)

/-- What gets another name, behind `RENAME`. -/
def nameChange : Reader String := do
  if ← inDialect [.postgresql] <&&> keyword? "CONSTRAINT" then
    let old ← identText
    keyword "TO"
    return "RENAME CONSTRAINT " ++ old ++ " TO " ++ (← identText)
  else
    match ← keywordOf? ["TO", "AS"] with
    | some k => return "RENAME " ++ k ++ " " ++ (← nameText)
    | none =>
      let _ ← keyword? "COLUMN"
      let old ← identText
      keyword "TO"
      return "RENAME COLUMN " ++ old ++ " TO " ++ (← identText)

/-- What is switched on or off. -/
def switch : Reader String := do
  let choices ←
    match ← keywordOf ["DISABLE", "ENABLE"] with
    | "DISABLE" => pure ("DISABLE", [["RULE"], ["TRIGGER"]])
    | k => pure (k, [["ALWAYS", "RULE"], ["ALWAYS", "TRIGGER"], ["REPLICA", "RULE"],
        ["REPLICA", "TRIGGER"], ["RULE"], ["TRIGGER"]])
  if ← keywords? ["ROW", "LEVEL", "SECURITY"] then return choices.1 ++ " ROW LEVEL SECURITY"
  else
    match ← phraseOf? choices.2 with
    | "" => expected "ROW LEVEL SECURITY, RULE, or TRIGGER"
    | what => return choices.1 ++ what ++ " " ++ (← identText)

/-- Which columns tell a changed row to other servers, behind `REPLICA IDENTITY`. -/
def replicaIdentity : Reader String := do
  match ← keywordOf? ["NONE", "FULL", "DEFAULT"] with
  | some k => return "REPLICA IDENTITY " ++ k
  | none =>
    keywords ["USING", "INDEX"]
    return "REPLICA IDENTITY USING INDEX " ++ (← identText)

/-- A change of a part of a table that a column store keeps, if one is next. -/
def partChange? (r : Rules) : Reader (Option String) := do
  if ← inDialect [.generic] then
    match ← keywordOf? ["ATTACH", "DETACH", "FREEZE", "UNFREEZE"] with
    | none => return none
    | some k =>
      let part ← tablePart r
      if k == "ATTACH" || k == "DETACH" then return some (k ++ " " ++ part)
      else
        let as ←
          if ← keyword? "WITH" then do
            keyword "NAME"
            pure (" WITH NAME " ++ (← identText))
          else pure ""
        return some (k ++ " " ++ part ++ as)
  else return none

/-- A change of the settings of a table. -/
def settingChange (r : Rules) : Reader String := do
  if ← keywords? ["SET", "TBLPROPERTIES"] then
    return "SET TBLPROPERTIES" ++ (← parensText (definitionOption r))
  else
    match ← options? r ["SET"] with
    | none | some "()" => expected "a change of a table"
    | some o => return "SET " ++ o

/-- A change of a table that none of the common first words begins. -/
def rareChange (r : Rules) : Reader String := do
  if ← keywords? ["CLEAR", "PROJECTION"] <&&> inDialect [.generic] then projectionPart "CLEAR"
  else if ← keywords? ["MATERIALIZE", "PROJECTION"] <&&> inDialect [.generic] then
    projectionPart "MATERIALIZE"
  else if ← keyword? "PARTITION" then
    let old ← exprList r
    keywords ["RENAME", "TO", "PARTITION"]
    return "PARTITION " ++ old ++ " RENAME TO PARTITION " ++ (← exprList r)
  else if ← keyword? "SWAP" then
    keyword "WITH"
    return "SWAP WITH " ++ (← nameText)
  else if ← inDialect [.postgresql, .generic] <&&> keywords? ["OWNER", "TO"] then
    return "OWNER TO " ++ (← owner)
  else
    match ← partChange? r with
    | some s => return s
    | none =>
      if ← keywords? ["CLUSTER", "BY"] then return "CLUSTER BY " ++ (← exprList r)
      else if ← keywords? ["SUSPEND", "RECLUSTER"] then return "SUSPEND RECLUSTER"
      else if ← keywords? ["RESUME", "RECLUSTER"] then return "RESUME RECLUSTER"
      else
        match ← changeMode? with
        | some s => return s
        | none =>
          if ← keyword? "AUTO_INCREMENT" then
            let sign := optionalWord (← symbol? "=") "= "
            return "AUTO_INCREMENT " ++ sign ++ (← numberText)
          else if ← keywords? ["REPLICA", "IDENTITY"] then replicaIdentity
          else if ← keywords? ["VALIDATE", "CONSTRAINT"] then
            return "VALIDATE CONSTRAINT " ++ (← identText)
          else settingChange r

/-- A change of a table. -/
def tableChange (r : Rules) : Reader String := do
  match ← keywordAt 0 with
  | "ADD" => advance; addition r
  | "RENAME" => advance; nameChange
  | "DISABLE" | "ENABLE" => switch
  | "DROP" => advance; removal r
  | "CHANGE" =>
    advance
    let _ ← keyword? "COLUMN"
    let old ← identText
    return "CHANGE COLUMN " ++ old ++ " " ++ (← columnChange r)
  | "MODIFY" =>
    advance
    let _ ← keyword? "COLUMN"
    return "MODIFY COLUMN " ++ (← columnChange r)
  | "ALTER" => advance; alterColumn r
  | _ => rareChange r

/-- `ALTER` of a table. -/
def alterTable (r : Rules) : Reader String := do
  let guarded ← ifThere?
  let only ← words? ["ONLY"]
  let n ← nameText
  let cluster ← onCluster?
  let changes ← commaText (tableChange r)
  let place ← do
    let first ← textBehind? ["LOCATION"] identText
    if first.isEmpty then textBehind? ["SET", "LOCATION"] identText else pure first
  return "TABLE" ++ guarded ++ only ++ " " ++ n ++ cluster ++ " " ++ changes ++ place

/-! ## Other objects -/

/-- `ALTER` of a view. -/
def alterView (r : Rules) : Reader String := do
  let n ← nameText
  let columns ← columnsText?
  let options ← optionsBehind? r "WITH"
  keyword "AS"
  return "VIEW " ++ n ++ columns ++ options ++ " AS " ++ (← queryText r)

/-- `ALTER` of a type. -/
def alterType : Reader String := do
  let n ← nameText
  let change ←
    if ← keywords? ["RENAME", "TO"] then do pure ("RENAME TO " ++ (← identText))
    else if ← keywords? ["ADD", "VALUE"] then do
      let guarded ← unlessThere?
      let value ← identText
      let place ← do
        match ← keywordOf? ["BEFORE", "AFTER"] with
        | some k => pure (" " ++ k ++ " " ++ (← identText))
        | none => pure ""
      pure ("ADD VALUE" ++ guarded ++ " " ++ value ++ place)
    else do
      keywords ["RENAME", "VALUE"]
      let old ← identText
      keyword "TO"
      pure ("RENAME VALUE " ++ old ++ " TO " ++ (← identText))
  return "TYPE " ++ n ++ " " ++ change

/-- `ALTER` of a schema. -/
def alterSchema (r : Rules) : Reader String := do
  let guarded ← ifThere?
  let n ← nameText
  let change ←
    if ← keywords? ["SET", "OPTIONS"] then do
      pure ("SET OPTIONS " ++ (← parensTextUntil (definitionOption r)))
    else if ← keywords? ["SET", "DEFAULT", "COLLATE"] then do
      pure ("SET DEFAULT COLLATE " ++ (← exprText r))
    else if ← keywords? ["ADD", "REPLICA"] then do
      let replica ← identText
      pure ("ADD REPLICA " ++ replica ++
        (← textBehind? ["OPTIONS"] (parensTextUntil (definitionOption r))))
    else if ← keywords? ["DROP", "REPLICA"] then do pure ("DROP REPLICA " ++ (← identText))
    else if ← keywords? ["RENAME", "TO"] then do pure ("RENAME TO " ++ (← nameText))
    else do
      keywords ["OWNER", "TO"]
      pure ("OWNER TO " ++ (← owner))
  return "SCHEMA" ++ guarded ++ " " ++ n ++ " " ++ change

/-- The value that a setting of a role gets. -/
def roleSetting (r : Rules) : Reader String := do
  let n ← nameText
  if ← keywords? ["FROM", "CURRENT"] then return "SET " ++ n ++ " FROM CURRENT"
  else
    unless ← symbol? "=" <||> keyword? "TO" do expected "TO or = or FROM CURRENT"
    if ← keyword? "DEFAULT" then return "SET " ++ n ++ " TO DEFAULT"
    else return "SET " ++ n ++ " TO " ++ (← exprText r)

/-- A change of a role: its name, its settings or its traits. -/
def roleChange (r : Rules) : Reader String := do
  let place ←
    if ← keywords? ["IN", "DATABASE"] then do
      pure (((← attempt nameText).map fun n => "IN DATABASE " ++ n ++ " ").getD "")
    else pure ""
  if ← keyword? "RENAME" then
    keyword "TO"
    return "RENAME TO " ++ (← identText)
  else if ← keyword? "SET" then return place ++ (← roleSetting r)
  else if ← keyword? "RESET" then
    if ← keyword? "ALL" then return place ++ "RESET ALL"
    else return place ++ "RESET " ++ (← nameText)
  else
    let _ ← keyword? "WITH"
    match ← concatText (attempt roleOption) with
    | "" => expected "an option"
    | options => return "WITH" ++ options

/-- A change of the members or the name of a role. -/
def memberChange : Reader String := do
  if ← keywords? ["ADD", "MEMBER"] then return "ADD MEMBER " ++ (← identText)
  else if ← keywords? ["DROP", "MEMBER"] then return "DROP MEMBER " ++ (← identText)
  else
    keywords ["WITH", "NAME"]
    symbol "="
    return "RENAME TO " ++ (← identText)

/-- `ALTER` of a role. -/
def alterRole (r : Rules) : Reader String := do
  match (← read).dialect with
  | .postgresql =>
    let n ← identText
    return "ROLE " ++ n ++ " " ++ (← roleChange r)
  | .mssql =>
    let n ← identText
    return "ROLE " ++ n ++ " " ++ (← memberChange)
  | _ => expected "an object type after ALTER"

/-- `ALTER` of a policy of rows. -/
def alterPolicy (r : Rules) : Reader String := do
  let n ← identText
  keyword "ON"
  let table ← nameText
  let change ←
    if ← keyword? "RENAME" then do
      keyword "TO"
      pure (" RENAME TO " ++ (← identText))
    else policyScope r
  return "POLICY " ++ n ++ " ON " ++ table ++ change

/-- `ALTER` of a connection to other data. -/
def alterConnector (r : Rules) : Reader String := do
  let n ← identText
  keyword "SET"
  let properties ← properties? r ["DCPROPERTIES"]
  let address ← textBehind? ["URL"] bareString
  let owner ←
    if ← keyword? "OWNER" then do
      let k ← keywordOf ["USER", "ROLE"]
      pure (" SET OWNER " ++ k ++ " " ++ (← identText))
    else pure ""
  let set (s : String) : String := if s.isEmpty then "" else " SET" ++ s
  return "CONNECTOR " ++ n ++ set properties ++ set address ++ owner

/-- `ALTER`. -/
def alter (r : Rules) : Reader String := do
  let change ←
    match ← keywordOf ["VIEW", "TYPE", "TABLE", "INDEX", "ROLE", "POLICY", "CONNECTOR", "ICEBERG",
      "SCHEMA", "USER", "OPERATOR"] with
    | "VIEW" => alterView r
    | "TYPE" => alterType
    | "TABLE" => alterTable r
    | "INDEX" => do
      let n ← nameText
      keywords ["RENAME", "TO"]
      pure ("INDEX " ++ n ++ " RENAME TO " ++ (← nameText))
    | "ROLE" => alterRole r
    | "POLICY" => alterPolicy r
    | "CONNECTOR" => alterConnector r
    | "SCHEMA" => alterSchema r
    | "USER" => alterUser
    | "OPERATOR" => alterOperator r
    | _ => do
      keyword "TABLE"
      pure ("ICEBERG " ++ (← alterTable r))
  return "ALTER " ++ change

end Reader

end RowPolicy.Sql
