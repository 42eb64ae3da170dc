import RowPolicy.Sql.Grammar.Query

/-!
# Transfers

Statements that copy rows between tables and files, or keep them at hand, in printed form. The
options of a copy come in an older spelling too, without parentheses around them.
-/

namespace RowPolicy.Sql

namespace Reader

/-! ## Options -/

/-- A string of one character between quotes, as it is. -/
def characterString : Reader String := do
  let s ← literalString
  if s.utf8ByteSize == 1 then return "'" ++ s ++ "'" else expected "a single character"

/-- A switch that is on unless it is said to be off. -/
def switchOption (k : String) : Reader String := do
  match ← keywordOf? ["TRUE", "FALSE"] with
  | some "FALSE" => return k ++ " FALSE"
  | _ => return k

/-- An option of a copy between parentheses. -/
def copyOption : Reader String := do
  let k ← keywordOf ["FORMAT", "FREEZE", "DELIMITER", "NULL", "HEADER", "QUOTE", "ESCAPE",
    "FORCE_QUOTE", "FORCE_NOT_NULL", "FORCE_NULL", "ENCODING"]
  match k with
  | "FORMAT" => return "FORMAT " ++ (← identText)
  | "FREEZE" | "HEADER" => switchOption k
  | "DELIMITER" | "QUOTE" | "ESCAPE" => return k ++ " " ++ (← characterString)
  | "NULL" | "ENCODING" => return k ++ " " ++ (← quotedString)
  | _ => return k ++ " " ++ (← identList)

/-- An option of a copy of separated values. -/
def csvOption : Reader String := do
  match ← keywordOf ["HEADER", "QUOTE", "ESCAPE", "FORCE"] with
  | "HEADER" => return " HEADER"
  | "FORCE" =>
    if ← keywords? ["NOT", "NULL"] then return " FORCE NOT NULL " ++ (← commaText identText)
    else
      keyword "QUOTE"
      return " FORCE QUOTE " ++ (← commaText identText)
  | k =>
    let _ ← keyword? "AS"
    return " " ++ k ++ " " ++ (← characterString)

/-- Options of a copy that are one word. -/
def plainCopyOptions : List String :=
  ["ACCEPTANYDATE", "ADDQUOTES", "ALLOWOVERWRITE", "BINARY", "BLANKSASNULL", "BZIP2", "CLEANPATH",
    "EMPTYASNULL", "ESCAPE", "GZIP", "HEADER", "PARQUET", "REMOVEQUOTES", "TRUNCATECOLUMNS",
    "ZSTD"]

/-- Options of a copy that are a word and perhaps a string. -/
def textCopyOptions : List String :=
  ["ACCEPTINVCHARS", "DATEFORMAT", "JSON", "TIMEFORMAT"]

/-- The role under which files are reached. -/
def accessRole : Reader String := do
  if ← keyword? "DEFAULT" then return "DEFAULT" else bareString

/-- Whether a measure is taken, where that is said. -/
def measured? : Reader String := do
  match ← keywordOf? ["TRUE", "FALSE", "ON", "OFF"] with
  | some "TRUE" | some "ON" => return " TRUE"
  | some _ => return " FALSE"
  | none => return ""

/-- The greatest size of a file, with its unit. -/
def fileSize : Reader String := do
  let _ ← keyword? "AS"
  let n ← numberText
  return n ++ (← wordOf? ["MB", "GB"])

/-- An option of a copy without parentheses. -/
def bareCopyOption : Reader String := do
  if ← keyword? "FORMAT" then
    let _ ← keyword? "AS"
  let k ← keywordOf (plainCopyOptions ++ textCopyOptions ++
    ["COMPUPDATE", "CREDENTIALS", "CSV", "DELIMITER", "ENCRYPTED", "EXTENSION", "FIXEDWIDTH",
      "IAM_ROLE", "IGNOREHEADER", "MANIFEST", "MAXFILESIZE", "NULL", "PARALLEL", "PARTITION",
      "REGION", "ROWGROUPSIZE", "STATUPDATE"])
  if plainCopyOptions.contains k then return " " ++ k
  else if textCopyOptions.contains k then
    let _ ← keyword? "AS"
    match ← peek with
    | some (.string .plain _) => return " " ++ k ++ " " ++ (← quotedString)
    | _ => return " " ++ k
  else
    match k with
    | "COMPUPDATE" =>
      let preset ← words? ["PRESET"]
      return " COMPUPDATE" ++ preset ++ (← measured?)
    | "STATUPDATE" | "PARALLEL" => return " " ++ k ++ (← measured?)
    | "CSV" => return " CSV" ++ (← concatText (attempt csvOption))
    | "ENCRYPTED" => return " ENCRYPTED" ++ (← words? ["AUTO"])
    | "MANIFEST" => return " MANIFEST" ++ (← words? ["VERBOSE"])
    | "IAM_ROLE" => return " IAM_ROLE " ++ (← accessRole)
    | "MAXFILESIZE" | "ROWGROUPSIZE" => return " " ++ k ++ " " ++ (← fileSize)
    | "IGNOREHEADER" =>
      let _ ← keyword? "AS"
      return " IGNOREHEADER " ++ (← numberText)
    | "PARTITION" =>
      keyword "BY"
      let columns ← identList
      return " PARTITION BY " ++ columns ++ (← words? ["INCLUDE"])
    | "CREDENTIALS" | "EXTENSION" | "FIXEDWIDTH" => return " " ++ k ++ " " ++ (← quotedString)
    | _ =>
      let _ ← keyword? "AS"
      if k == "DELIMITER" then return " DELIMITER " ++ (← characterString)
      else return " " ++ k ++ " " ++ (← quotedString)

/-- Options of a copy without parentheses, each behind a blank. -/
def bareCopyOptions : Reader String :=
  concatText (attempt bareCopyOption)

/-! ## Copies -/

/-- What is copied, and whether it is a query. -/
def copySource (r : Rules) : Reader (String × Bool) := do
  if ← symbol? "(" then
    let q ← queryText r
    symbol ")"
    return ("(" ++ q ++ ")", true)
  else
    let n ← nameText
    return (n ++ (← columnsText?), false)

/-- Where rows are copied to or from. -/
def copyTarget : Reader String := do
  match ← keywordOf? ["STDIN", "STDOUT", "PROGRAM"] with
  | some "PROGRAM" => return "PROGRAM " ++ (← quotedString)
  | some k => return k
  | none => quotedString

/-- `COPY`. Rows that come from the text itself stand behind a semicolon, and are not printed. -/
def copyRows (r : Rules) : Reader String := do
  let (source, isQuery) ← copySource r
  let direction ← keywordOf ["FROM", "TO"]
  if isQuery && direction == "FROM" then expected "a table to copy into"
  let target ← copyTarget
  let _ ← keyword? "WITH"
  let options ← textBefore? "(" (return " " ++ (← parensText copyOption))
  let bare ← bareCopyOptions
  if target == "STDIN" then
    symbol ";"
    set ([] : List Lexeme)
  return "COPY " ++ source ++ " " ++ direction ++ " " ++ target ++ options ++ bare

/-- `UNLOAD` of the rows of a query into files. -/
def unload (r : Rules) : Reader String := do
  symbol "("
  let query ← do
    match ← peek with
    | some (.string .plain _) => bareString
    | _ => queryText r
  symbol ")"
  keyword "TO"
  let place ← identText
  let access ← textBehind? ["IAM_ROLE"] accessRole
  let options ← optionsBehind? r "WITH"
  return "UNLOAD(" ++ query ++ ") TO " ++ place ++ access ++ options ++ (← bareCopyOptions)

/-- `EXPORT` of the rows of a query into files. -/
def exportRows (r : Rules) : Reader String := do
  keyword "DATA"
  let connection ← textBehind? ["WITH", "CONNECTION"] nameText
  keyword "OPTIONS"
  let options ← parensText (definitionOption r)
  keyword "AS"
  return "EXPORT DATA" ++ connection ++ " OPTIONS" ++ options ++ " AS " ++ (← queryText r)

/-! ## Rows at hand -/

/-- `CACHE` of a table. Everything up to the end of the text belongs to it. -/
def cacheTable (r : Rules) : Reader String := do
  let flag ← if ← peekKeyword "TABLE" then pure "" else do pure (" " ++ (← nameText))
  keyword "TABLE"
  let n ← nameText
  let options ← do
    match ← options? r ["OPTIONS"] with
    | none | some "()" => pure ""
    | some o => pure (" OPTIONS" ++ o)
  let query ←
    if ← atEnd then pure ""
    else if ← keyword? "AS" then do pure (" AS " ++ (← queryText r))
    else if (← peek).any Token.isWord then do pure (" " ++ (← queryText r))
    else expected "a query"
  return "CACHE" ++ flag ++ " TABLE " ++ n ++ options ++ query

/-- `UNCACHE` of a table. -/
def uncacheTable : Reader String := do
  keyword "TABLE"
  let guarded ← ifThere?
  return "UNCACHE TABLE" ++ guarded ++ " " ++ (← nameText)

end Reader

end RowPolicy.Sql
