import RowPolicy.Sql.Grammar.DataType
import RowPolicy.Sql.Grammar.Role

/-!
# Rights

Rights that are given, taken or denied, in printed form: what may be done, to which objects, and by
whom.
-/

namespace RowPolicy.Sql

namespace Reader

/-! ## Actions -/

/-- Actions of one or more words that name nothing else. -/
def plainActions : List (List String) :=
  [["IMPORTED", "PRIVILEGES"], ["ADD", "SEARCH", "OPTIMIZATION"], ["ATTACH", "LISTING"],
    ["ATTACH", "POLICY"], ["BIND", "SERVICE", "ENDPOINT"], ["EVOLVE", "SCHEMA"],
    ["IMPORT", "SHARE"], ["MANAGE", "VERSIONS"], ["MANAGE", "RELEASES"],
    ["OVERRIDE", "SHARE", "RESTRICTIONS"], ["PURCHASE", "DATA", "EXCHANGE", "LISTING"],
    ["RESOLVE", "ALL"], ["READ", "SESSION"], ["APPLYBUDGET"], ["AUDIT"], ["CONNECT"], ["DELETE"],
    ["FAILOVER"], ["OPERATE"], ["READ"], ["REPLICATE"], ["TEMPORARY"], ["TRIGGER"], ["TRUNCATE"],
    ["USAGE"], ["OWNERSHIP"], ["DROP"]]

/-- Objects that a right to create may name. -/
def creatableKinds : List (List String) :=
  [["APPLICATION", "PACKAGE"], ["COMPUTE", "POOL"], ["DATA", "EXCHANGE", "LISTING"],
    ["EXTERNAL", "VOLUME"], ["FAILOVER", "GROUP"], ["NETWORK", "POLICY"],
    ["ORGANIZATION", "LISTING"], ["REPLICATION", "GROUP"], ["ACCOUNT"], ["APPLICATION"],
    ["DATABASE"], ["INTEGRATION"], ["ROLE"], ["SCHEMA"], ["SHARE"], ["USER"], ["WAREHOUSE"]]

/-- Objects that a right to execute may name. -/
def executableKinds : List (List String) :=
  [["ALERT"], ["DATA", "METRIC", "FUNCTION"], ["MANAGED", "ALERT"], ["MANAGED", "TASK"], ["TASK"]]

/-- An action. -/
def action : Reader String := do
  match ← phraseOf? plainActions with
  | "" =>
    if ← keywords? ["DATABASE", "ROLE"] then return "DATABASE ROLE " ++ (← nameText)
    else
      match ← keywordOf ["CREATE", "EXEC", "EXECUTE", "INSERT", "REFERENCES", "ROLE", "SELECT",
        "UPDATE"] with
      | "CREATE" => return "CREATE" ++ (← phraseOf? creatableKinds)
      | "EXEC" => return "EXEC" ++ (← phraseOf? executableKinds)
      | "EXECUTE" => return "EXECUTE" ++ (← phraseOf? executableKinds)
      | "ROLE" => return "ROLE " ++ (← nameText)
      | k => return k ++ (← columnsText?)
  | s => return (s.drop 1).toString

/-- All actions, or some. -/
def actions : Reader String := do
  if ← keyword? "ALL" then return "ALL" ++ (← words? ["PRIVILEGES"]) else commaText action

/-! ## Objects -/

/-- Objects that are meant all at once, those of a schema or a database. -/
def wholeKinds : List (List String) :=
  let inSchema (ws : List String) := ws ++ ["IN", "SCHEMA"]
  [inSchema ["ALL", "TABLES"], inSchema ["ALL", "EXTERNAL", "TABLES"], inSchema ["ALL", "VIEWS"],
    inSchema ["ALL", "MATERIALIZED", "VIEWS"], inSchema ["ALL", "FUNCTIONS"],
    ["FUTURE", "SCHEMAS", "IN", "DATABASE"], inSchema ["FUTURE", "TABLES"],
    inSchema ["FUTURE", "EXTERNAL", "TABLES"], inSchema ["FUTURE", "VIEWS"],
    inSchema ["FUTURE", "MATERIALIZED", "VIEWS"], inSchema ["ALL", "SEQUENCES"],
    inSchema ["FUTURE", "SEQUENCES"], ["RESOURCE", "MONITOR"], ["COMPUTE", "POOL"],
    ["FAILOVER", "GROUP"], ["REPLICATION", "GROUP"], ["EXTERNAL", "VOLUME"]]

/-- A part of a name, which may stand for all. -/
def wildcardPart : Reader String := do
  if ← symbol? "*" then return "*" else identText

/-- A dotted name whose parts may stand for all. -/
def wildcardName : Reader String := do
  let first ← wildcardPart
  let skips ← feature (·.doubleDotNames)
  return first ++ (← loop (fun s => do
    if ← symbol? "." then
      if ← pure (skips && s.isEmpty) <&&> symbol? "." then return some (".." ++ (← wildcardPart))
      else return some (s ++ "." ++ (← wildcardPart))
    else return none) "")

/-- The objects that rights concern. -/
def rightObjects (r : Rules) : Reader String := do
  match ← phraseOf? wholeKinds with
  | "" =>
    let kind ← keywordOf? ["SEQUENCE", "DATABASE", "SCHEMA", "TABLE", "VIEW", "WAREHOUSE",
      "INTEGRATION", "USER", "CONNECTION", "PROCEDURE", "FUNCTION"]
    let names ← commaList wildcardName
    match kind with
    | none | some "TABLE" => return commaSeparated names
    | some k =>
      if k == "PROCEDURE" || k == "FUNCTION" then
        let types ← textBefore? "(" (parensTextUntil (dataType r))
        return k ++ " " ++ names.headD "" ++ (if types == "()" then "" else types)
      else return k ++ " " ++ commaSeparated names
  | s => return (s.drop 1).toString ++ " " ++ (← commaText nameText)

/-- Rights, and the objects they concern. -/
def rights (r : Rules) : Reader (String × Option String) := do
  let what ← actions
  return (what, ← behind? "ON" (rightObjects r))

/-- Rights with the objects they concern, in printed form. -/
def rightsText (r : Rules) : Reader String := do
  let (what, objects) ← rights r
  return what ++ (objects.map (" ON " ++ ·)).getD ""

/-! ## Grantees -/

/-- The kinds of those who are given rights. -/
def granteeKinds : List (List String) :=
  [["ROLE"], ["USER"], ["SHARE"], ["GROUP"], ["PUBLIC"], ["DATABASE", "ROLE"],
    ["APPLICATION", "ROLE"], ["APPLICATION"]]

/-- Those who are given rights, or lose them. A kind holds for the names behind it too; where
everyone is meant there is no name, and in one dialect the word for it is one. -/
def grantees : Reader String := do
  let named ← inDialect [.mssql]
  let kinds := if named then granteeKinds.filter (· != ["PUBLIC"]) else granteeKinds
  let (all, _, _) ← loop (fun ((acc, kind, open') : List String × String × Bool) => do
    if !open' then return none
    else
      let kind ← do
        match ← phraseOf? kinds with
        | "" => pure kind
        | s => pure ((s.drop 1).toString ++ " ")
      let grantee ←
        if kind == "PUBLIC " then pure kind
        else do
          let n ← granteeName
          let part ← if ← symbol? ":" then do pure (":" ++ (← identText)) else pure ""
          pure (kind ++ n ++ part)
      return some (grantee :: acc, kind, ← symbol? ",")) ([], "", true)
  return commaSeparated all.reverse

/-- Who gives the rights, or takes them. -/
def grantedBy? : Reader String :=
  textBehind? ["GRANTED", "BY"] identText

/-! ## Statements -/

/-- `GRANT`. -/
def grant (r : Rules) : Reader String := do
  let what ← rightsText r
  keyword "TO"
  let whom ← grantees
  let option ← words? ["WITH", "GRANT", "OPTION"]
  let current ← phraseOf? [["COPY", "CURRENT", "GRANTS"], ["REVOKE", "CURRENT", "GRANTS"]]
  let grantor ← textBehind? ["AS"] identText
  return "GRANT " ++ what ++ " TO " ++ whom ++ option ++ current ++ grantor ++ (← grantedBy?)

/-- `REVOKE`. -/
def revoke (r : Rules) : Reader String := do
  let what ← rightsText r
  keyword "FROM"
  let whom ← grantees
  let grantor ← grantedBy?
  return "REVOKE " ++ what ++ " FROM " ++ whom ++ grantor ++ (← dependents?)

/-- `DENY`. -/
def deny (r : Rules) : Reader String := do
  match ← rights r with
  | (what, some objects) =>
    keyword "TO"
    let whom ← grantees
    let how ← dependents?
    return "DENY " ++ what ++ " ON " ++ objects ++ " TO " ++ whom ++ how ++
      (← textBehind? ["AS"] identText)
  | (_, none) => expected "an object"

end Reader

end RowPolicy.Sql
