import RowPolicy.Sql.Grammar.Column

/-!
# New tables

The definition of a table in printed form: its columns and constraints, how and where its rows are
stored, and the query that fills it. What is read in one order is printed in another, so each part
is a text of its own until the end.
-/

namespace RowPolicy.Sql

namespace Reader

/-! ## Columns -/

/-- The columns and constraints of a table between parentheses, constraints last; empty where there
are none. -/
def tableColumns (r : Rules) : Reader String := textBefore? "(" do
  let part : Reader (Bool × String) := do
    match ← tableConstraint? r with
    | some s => return (true, s)
    | none =>
      if (← peek).any Token.isWord then return (false, ← columnDefinition r)
      else expected "column name or constraint definition"
  let parts ← parens (commaListUntil ")" part)
  let (constraints, columns) := parts.partition Prod.fst
  let all := (columns ++ constraints).map Prod.snd
  return optionalWord (!all.isEmpty) (" (" ++ commaSeparated all ++ ")")

/-- The cluster of servers that a change concerns. -/
def onCluster? : Reader String :=
  textBehind? ["ON", "CLUSTER"] identText

/-- How a change of a table is carried out, or which others it lets in meanwhile. -/
def changeMode? : Reader (Option String) := do
  let mode (k : String) (modes : List String) : Reader (Option String) := do
    advance
    let sign := optionalWord (← symbol? "=") "= "
    return some (k ++ " " ++ sign ++ (← keywordOf modes))
  match ← keywordAt 0 with
  | "LOCK" => mode "LOCK" ["DEFAULT", "EXCLUSIVE", "NONE", "SHARED"]
  | "ALGORITHM" => mode "ALGORITHM" ["DEFAULT", "INSTANT", "INPLACE", "COPY"]
  | _ => return none

/-! ## Storage -/

/-- The columns by which the rows are kept in separate files. -/
def partitionedBy? (r : Rules) : Reader String :=
  textBehind? ["PARTITIONED", "BY"] (parensText (looseColumn r))

/-- The columns by which the rows are kept in buckets. -/
def clusteredBy? (r : Rules) : Reader String := do
  if ← inDialect [.generic] <&&> keywords? ["CLUSTERED", "BY"] then
    let columns ← identList
    let order ← textBehind? ["SORTED", "BY"] do
      return "(" ++ renderPieces (← parens (orderList r)) ++ ")"
    keyword "INTO"
    let n ← numberText
    keyword "BUCKETS"
    return " CLUSTERED BY " ++ columns ++ order ++ " INTO " ++ n ++ " BUCKETS"
  else return ""

/-- A mark between the parts of a row, if one is next. Words that begin one and do not complete it
are passed over. -/
def rowMark? : Reader (Option String) := do
  let mark (words behind : List String) : Reader (Option String) := do
    if ← keywords? behind then
      return some (" " ++ " ".intercalate (words ++ behind) ++ " " ++ (← identText))
    else return none
  match ← keywordOf? ["FIELDS", "COLLECTION", "MAP", "LINES", "NULL"] with
  | some "FIELDS" =>
    match ← mark ["FIELDS"] ["TERMINATED", "BY"] with
    | some s => return some (s ++ (← textBehind? ["ESCAPED", "BY"] identText))
    | none => return none
  | some "COLLECTION" => mark ["COLLECTION"] ["ITEMS", "TERMINATED", "BY"]
  | some "MAP" => mark ["MAP"] ["KEYS", "TERMINATED", "BY"]
  | some "LINES" => mark ["LINES"] ["TERMINATED", "BY"]
  | some _ => mark ["NULL"] ["DEFINED", "AS"]
  | none => return none

/-- The layout of a row in a file, behind `ROW`. -/
def rowFormat : Reader String := do
  keyword "FORMAT"
  match ← keywordOf? ["SERDE", "DELIMITED"] with
  | some "SERDE" => return " ROW FORMAT SERDE " ++ (← bareString)
  | _ => return " ROW FORMAT DELIMITED" ++ (← concatText rowMark?)

/-- Where and how the rows of a table are kept in files. -/
structure FileLayout where
  rows : String := ""
  /-- the readers and writers of the files -/
  classes : String := ""
  /-- the kind of the files -/
  files : String := ""
  properties : String := ""
  location : String := ""

/-- How the rows of a table are kept in files. -/
def fileLayout (r : Rules) : Reader FileLayout :=
  loop (fun layout => do
    match ← keywordAt 0 with
    | "ROW" =>
      advance
      return some { layout with rows := ← rowFormat }
    | "STORED" =>
      advance
      keyword "AS"
      if ← keyword? "INPUTFORMAT" then
        let input ← exprText r
        keyword "OUTPUTFORMAT"
        let output ← exprText r
        let classes := " STORED AS INPUTFORMAT " ++ input ++ " OUTPUTFORMAT " ++ output
        return some { layout with classes, files := "" }
      else
        let kind ← keywordOf ["AVRO", "JSONFILE", "ORC", "PARQUET", "RCFILE", "SEQUENCEFILE",
          "TEXTFILE"]
        return some { layout with classes := "", files := " STORED AS " ++ kind }
    | "LOCATION" =>
      advance
      return some { layout with location := " LOCATION " ++ (← bareString) }
    | "WITH" =>
      if ← keywords? ["WITH", "SERDEPROPERTIES"] then
        let options ← parensText (definitionOption r)
        return some { layout with properties := " WITH SERDEPROPERTIES " ++ options }
      else return none
    | _ => return none) {}

/-! ## Options -/

/-- The options of a table that are a name and a value. -/
def valuedOptions : List (List String) :=
  [["DEFAULT", "CHARSET"], ["CHARSET"], ["DEFAULT", "CHARACTER", "SET"], ["CHARACTER", "SET"],
    ["DEFAULT", "COLLATE"], ["COLLATE"], ["DATA", "DIRECTORY"], ["INDEX", "DIRECTORY"],
    ["KEY_BLOCK_SIZE"], ["ROW_FORMAT"], ["PACK_KEYS"], ["STATS_AUTO_RECALC"],
    ["STATS_PERSISTENT"], ["STATS_SAMPLE_PAGES"], ["DELAY_KEY_WRITE"], ["COMPRESSION"],
    ["ENCRYPTION"], ["MAX_ROWS"], ["MIN_ROWS"], ["AUTOEXTEND_SIZE"], ["AVG_ROW_LENGTH"],
    ["CHECKSUM"], ["CONNECTION"], ["ENGINE_ATTRIBUTE"], ["PASSWORD"],
    ["SECONDARY_ENGINE_ATTRIBUTE"], ["INSERT_METHOD"], ["AUTO_INCREMENT"]]

/-- The name of a storage, which loses its quotes, or of a place, which may be a string. -/
def bareName (stringToo : Bool) : Reader String := do
  match ← peek with
  | some (.word v _ _) => advance; return v
  | some (.string .plain s) =>
    if stringToo then advance; return s else expected "a word"
  | _ => expected "a word"

/-- An option of a table without parentheses around it, if one is next. -/
def tableOption? : Reader (Option String) := do
  let assigned {α : Type} (p : Reader α) : Reader α := do
    let _ ← symbol? "="
    p
  if ← keywords? ["START", "TRANSACTION"] then return some "START TRANSACTION"
  else if ← keyword? "COMMENT" then
    let sign := optionalWord (← symbol? "=") "= "
    match ← peek with
    | some (.string .plain s) => advance; return some ("COMMENT " ++ sign ++ "'" ++ s ++ "'")
    | _ => expected "a string"
  else if ← keyword? "ENGINE" then
    let n ← assigned (bareName false)
    return some ("ENGINE = " ++ n ++ (← textBefore? "(" identList))
  else if ← keyword? "TABLESPACE" then
    let n ← assigned (bareName true)
    let storage ←
      if ← keyword? "STORAGE" then do
        pure (" STORAGE " ++ (← assigned (keywordOf ["DISK", "MEMORY"])))
      else pure ""
    return some ("TABLESPACE " ++ n ++ storage)
  else if ← keyword? "UNION" then
    let tables ← assigned (parensTextUntil identText)
    return some ("UNION = " ++ (if tables == "()" then "" else tables))
  else
    match ← phraseOf? valuedOptions with
    | "" => return none
    | words =>
      let value ← assigned do
        match ← attempt constantText with
        | some v => pure v
        | none => identText
      return some ((words.drop 1).toString ++ " = " ++ value)

/-- The options of a table without parentheses around them, each behind a blank. Commas between them
are passed over. -/
def plainOptions : Reader String :=
  concatText do
    match ← tableOption? with
    | some o =>
      let _ ← symbol? ","
      return some (" " ++ o)
    | none => return none

/-- How a table is kept: the parts in which it is printed. -/
structure TableOptions where
  inherits : String
  /-- options behind `WITH` or `TBLPROPERTIES`, or without parentheses -/
  options : String
  partitionBy : String
  clusterBy : String
  /-- options behind `OPTIONS` -/
  late : String

/-- How a table is kept. Of several lists of options the last counts. -/
def tableOptions (r : Rules) : Reader TableOptions := do
  let inherits ← textBehind? ["INHERITS"] nameList
  let general ← optionsBehind? r "WITH"
  let properties ← optionsBehind? r "TBLPROPERTIES"
  let chosen := if properties.isEmpty then general else properties
  let partitionBy ←
    if ← inDialect [.postgresql, .generic] then textBehind? ["PARTITION", "BY"] (exprText r)
    else pure ""
  let clusterBy ←
    if ← inDialect [.generic] then textBehind? ["CLUSTER", "BY"] (commaText (exprText r))
    else pure ""
  let late ← if ← inDialect [.generic] then optionsClause? r else pure none
  let options ←
    if late.isSome then pure ""
    else if chosen.isEmpty then plainOptions
    else pure chosen
  return ⟨inherits, options, partitionBy, clusterBy, (late.map (" " ++ ·)).getD ""⟩

/-! ## Tables -/

/-- The expressions by which the rows of a table are ordered. -/
def tableOrder? (r : Rules) : Reader String := do
  let list : Reader String := do
    if ← peekSymbol "(" then parensTextUntil (exprText r) else exprText r
  textBehind? ["ORDER", "BY"] list

/-- What becomes of the rows of a table at the end of a transaction. -/
def onCommit? : Reader String := do
  if ← keywords? ["ON", "COMMIT"] then
    match ← phraseOf? [["DELETE", "ROWS"], ["PRESERVE", "ROWS"], ["DROP"]] with
    | "" => expected "DELETE ROWS, PRESERVE ROWS or DROP"
    | s => return " ON COMMIT" ++ s
  else return ""

/-- The query that fills a table. -/
def fillingQuery? (r : Rules) : Reader (Option String) := do
  if ← keyword? "AS" then return some (" AS " ++ (← queryText r))
  else if ← inDialect [.mysql] <&&> peekKeyword "SELECT" then
    return some (" AS " ++ (← queryText r))
  else return none

/-- A new table, behind `TABLE`. -/
def newTable (r : Rules) (head : String) : Reader String := do
  let guarded ← unlessThere?
  let n ← nameText
  let cluster ← onCluster?
  let like ←
    if (← keywordOf? ["LIKE", "ILIKE"]).isSome then some <$> nameText else pure none
  let clone ← if ← keyword? "CLONE" then attempt nameText else pure none
  let columns ← tableColumns r
  let bare ← words? ["WITHOUT", "ROWID"]
  let partitioned ← partitionedBy? r
  let clustered ← clusteredBy? r
  let layout ← fileLayout r
  let o ← tableOptions r
  let key ←
    if ← inDialect [.generic] then textBehind? ["PRIMARY", "KEY"] (exprText r) else pure ""
  let order ← tableOrder? r
  let commit ← onCommit?
  let strict ← words? ["STRICT"]
  let source ← fillingQuery? r
  let shape :=
    if columns.isEmpty && source.isNone && like.isNone && clone.isNone then " ()" else columns
  return head ++ "TABLE" ++ guarded ++ " " ++ n ++ cluster ++ shape ++ bare ++
    (like.map (" LIKE " ++ ·)).getD "" ++ (clone.map (" CLONE " ++ ·)).getD "" ++
    partitioned ++ clustered ++ layout.rows ++ layout.classes ++ layout.files ++
    layout.properties ++ layout.location ++ o.options ++ key ++ order ++ o.inherits ++
    o.partitionBy ++ o.clusterBy ++ o.late ++ commit ++ strict ++ source.getD ""

/-- A new table over files that are there already, behind `TABLE`. -/
def externalTable (r : Rules) (head : String) : Reader String := do
  let guarded ← unlessThere?
  let n ← nameText
  let columns ← tableColumns r
  let partitioned ← partitionedBy? r
  let layout ← fileLayout r
  let properties ← optionsBehind? r "TBLPROPERTIES"
  return head ++ "TABLE" ++ guarded ++ " " ++ n ++ (if columns.isEmpty then " ()" else columns) ++
    partitioned ++ layout.rows ++ layout.classes ++ layout.properties ++ layout.files ++
    layout.location ++ properties

end Reader

end RowPolicy.Sql
