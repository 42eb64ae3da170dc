import RowPolicy.Sql.Grammar.Table
import RowPolicy.Sql.Grammar.Session

/-!
# Upkeep

Statements that keep a server and its tables in order, in printed form. Each reader starts behind
the first word of its statement.
-/

namespace RowPolicy.Sql

namespace Reader

/-! ## Tables -/

/-- `TRUNCATE`. -/
def truncate (r : Rules) : Reader String := do
  let table ← words? ["TABLE"]
  let guarded ← ifThere?
  let names ← commaText do
    let only := optionalWord (← keyword? "ONLY") "ONLY "
    return only ++ (← nameText)
  let partitions ← textBehind? ["PARTITION"] (parensText (exprText r))
  let rest ←
    if ← inDialect [.postgresql, .generic] then do
      let identity ← phraseOf? [["RESTART", "IDENTITY"], ["CONTINUE", "IDENTITY"]]
      pure (identity ++ (← dependents?))
    else pure ""
  return "TRUNCATE" ++ table ++ guarded ++ " " ++ names ++ rest ++ partitions ++ (← onCluster?)

/-- What `ANALYZE` takes from a table: the parts in which it is printed. -/
structure AnalysisScope where
  partitions : String := ""
  compute : String := ""
  noScan : String := ""
  metadata : String := ""
  /-- the columns behind `FOR COLUMNS`, with those words -/
  columns : String := ""

/-- What `ANALYZE` takes from a table. -/
def analysisScope (r : Rules) : Reader AnalysisScope :=
  loop (fun scope => do
    match ← keywordOf? ["PARTITION", "FOR", "CACHE", "NOSCAN", "COMPUTE"] with
    | some "PARTITION" =>
      return some { scope with partitions := " PARTITION " ++ (← parensText (exprText r)) }
    | some "FOR" =>
      keyword "COLUMNS"
      let columns := ((← attempt (commaText identText)).map (" " ++ ·)).getD ""
      return some { scope with columns := " FOR COLUMNS" ++ columns }
    | some "CACHE" =>
      keyword "METADATA"
      return some { scope with metadata := " CACHE METADATA" }
    | some "NOSCAN" => return some { scope with noScan := " NOSCAN" }
    | some _ =>
      keyword "STATISTICS"
      return some { scope with compute := " COMPUTE STATISTICS" }
    | none => return none) {}

/-- `ANALYZE`. -/
def analyze (r : Rules) : Reader String := do
  let table ← words? ["TABLE"]
  let n ← nameText
  let scope ← analysisScope r
  return "ANALYZE" ++ table ++ " " ++ n ++ scope.partitions ++ scope.compute ++ scope.noScan ++
    scope.metadata ++ scope.columns

/-- `MSCK`, which looks for files of a table. -/
def checkFiles : Reader String := do
  let repair ← words? ["REPAIR"]
  keyword "TABLE"
  let n ← nameText
  let change ← attempt do
    let k ← wordOf? ["ADD", "DROP", "SYNC"]
    keyword "PARTITIONS"
    return if k.isEmpty then "" else k ++ " PARTITIONS"
  return "MSCK" ++ repair ++ " TABLE " ++ n ++ change.getD ""

/-- `OPTIMIZE` of a table. -/
def optimize (r : Rules) : Reader String := do
  keyword "TABLE"
  let n ← nameText
  let cluster ← onCluster?
  let part ← do
    let byId ← textBehind? ["PARTITION", "ID"] identText
    if byId.isEmpty then textBehind? ["PARTITION"] (exprText r) else pure byId
  let final ← words? ["FINAL"]
  let unique ←
    if ← keyword? "DEDUPLICATE" then do
      pure (" DEDUPLICATE" ++ (← textBehind? ["BY"] (exprText r)))
    else pure ""
  return "OPTIMIZE TABLE " ++ n ++ cluster ++ part ++ final ++ unique

/-- `VACUUM`. -/
def vacuum : Reader String := do
  let full ← words? ["FULL"]
  let sort ← words? ["SORT", "ONLY"]
  let delete ← words? ["DELETE", "ONLY"]
  let index ← words? ["REINDEX"]
  let cluster ← words? ["RECLUSTER"]
  let table ← do
    match ← attempt nameText with
    | none => pure ""
    | some n =>
      let threshold ← textBehind? ["TO"] do
        let v ← constantText
        keyword "PERCENT"
        return v ++ " PERCENT"
      pure (" " ++ n ++ threshold ++ (← words? ["BOOST"]))
  return "VACUUM" ++ full ++ sort ++ delete ++ index ++ cluster ++ table

/-- `RENAME` of tables. -/
def renameTables : Reader String := do
  keyword "TABLE"
  return "RENAME TABLE " ++ (← commaText do
    let old ← nameText
    keyword "TO"
    return old ++ " TO " ++ (← nameText))

/-- A table to lock, with how it is locked. -/
def tableLock : Reader String := do
  let n ← identText
  let a ← aliasExcept? ["READ", "WRITE", "LOW_PRIORITY"]
  let mode ← do
    if ← keyword? "READ" then pure (" READ" ++ (← words? ["LOCAL"]))
    else
      match ← phraseOf? [["WRITE"], ["LOW_PRIORITY", "WRITE"]] with
      | "" => expected "a lock type"
      | s => pure s
  return n ++ (a.map fun i => " AS " ++ i.render).getD "" ++ mode

/-! ## Servers -/

/-- `KILL`. -/
def kill : Reader String := do
  let what ← wordOf? ["CONNECTION", "QUERY", "MUTATION"]
  let n ← wholeNumber
  if what == " MUTATION" && !(← inDialect [.generic]) then expected "CONNECTION or QUERY"
  return "KILL" ++ what ++ " " ++ n

/-- What a server has stored and can forget, tables apart. -/
def storedKinds : List (List String) :=
  [["BINARY", "LOGS"], ["ENGINE", "LOGS"], ["ERROR", "LOGS"], ["GENERAL", "LOGS"], ["HOSTS"],
    ["PRIVILEGES"], ["OPTIMIZER_COSTS"], ["RELAY", "LOGS"], ["SLOW", "LOGS"], ["STATUS"],
    ["USER_RESOURCES"], ["LOGS"]]

/-- The tables that are flushed, with what they are flushed for, behind `TABLES`. Words that have no
meaning here are passed over, and so is the first token that is no word. -/
def flushedTables : Reader String := do
  let (names, lock, files, _) ←
    loop (fun ((names, lock, files, done) : String × String × String × Bool) => do
      if done then return none
      else
        match ← peek with
        | some (.word _ _ "WITH") =>
          advance
          return some (names, ← spacedLock, files, false)
        | some (.word _ _ "FOR") =>
          advance
          let word ← words? ["EXPORT"]
          return some (names, lock, optionalWord (!word.isEmpty) " FOR EXPORT", false)
        | some (.word _ _ k) =>
          if isKeyword k then
            advance
            return some (names, lock, files, false)
          else return some (" " ++ (← commaText nameText), lock, files, false)
        | some _ => advance; return some (names, lock, files, true)
        | none => return none) ("", "", "", false)
  return names ++ lock ++ files
where
  /-- A lock that lets others read. -/
  spacedLock : Reader String := do
    let word ← words? ["READ", "LOCK"]
    return optionalWord (!word.isEmpty) " WITH READ LOCK"

/-- `FLUSH` of what a server has stored. -/
def flush : Reader String := do
  unless ← inDialect [.mysql, .generic] do expected "an SQL statement"
  let place ← wordOf? ["NO_WRITE_TO_BINLOG", "LOCAL"]
  match ← phraseOf? storedKinds with
  | "" =>
    keyword "TABLES"
    return "FLUSH" ++ place ++ " TABLES" ++ (← flushedTables)
  | " RELAY LOGS" =>
    return "FLUSH" ++ place ++ " RELAY LOGS" ++ (← textBehind? ["FOR", "CHANNEL"] nameText)
  | kind => return "FLUSH" ++ place ++ kind

/-- `DISCARD` of what a session has stored. -/
def discard : Reader String := do
  match ← keywordOf ["ALL", "PLANS", "SEQUENCES", "TEMP", "TEMPORARY"] with
  | "TEMPORARY" => return "DISCARD TEMP"
  | k => return "DISCARD " ++ k

/-- `RESET` of a setting. -/
def reset : Reader String := do
  if ← keyword? "ALL" then return "RESET ALL" else return "RESET " ++ (← nameText)

/-- `ATTACH` of a database file. -/
def attachDatabase (r : Rules) : Reader String := do
  let word ← words? ["DATABASE"]
  let file ← exprText r
  keyword "AS"
  return "ATTACH" ++ word ++ " " ++ file ++ " AS " ++ (← identText)

/-- `DETACH` of a database file. -/
def detachDatabase : Reader String := do
  let word ← words? ["DATABASE"]
  let guarded ← ifThere?
  return "DETACH" ++ word ++ guarded ++ " " ++ (← identText)

/-- `COMMENT` on an object. -/
def comment : Reader String := do
  let guarded ← ifThere?
  keyword "ON"
  let what ← keywordOf ["TABLE", "COLUMN", "EXTENSION", "SCHEMA", "DATABASE", "USER", "ROLE"]
  let n ← nameText
  keyword "IS"
  let text ← if ← keyword? "NULL" then pure "NULL" else bareString
  return "COMMENT" ++ guarded ++ " ON " ++ what ++ " " ++ n ++ " IS " ++ text

end Reader

end RowPolicy.Sql
