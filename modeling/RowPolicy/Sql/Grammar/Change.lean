import RowPolicy.Sql.Grammar.Select

/-!
# Changes of data

`INSERT` and its relative `REPLACE`, `UPDATE`, `DELETE` and `MERGE`. Each reader starts behind the
first word of its statement.
-/

namespace RowPolicy.Sql

/-- An assignment as pieces. -/
def Assignment.pieces : Assignment → List Piece
  | ⟨target, value⟩ => [.text (target.render ++ " = "), .expr value]

namespace Reader

/-! ## Assignments -/

/-- An assignment. -/
def assignment (r : Rules) : Reader Assignment := do
  let target ←
    if ← peekSymbol "(" then do pure (AssignmentTarget.tuple (← parens (commaList name)))
    else do pure (.column (← name))
  symbol "="
  return ⟨target, ← r.expr 0⟩

/-- Assignments with commas between them. -/
def assignments (r : Rules) : Reader (List Assignment) :=
  commaList (assignment r)

/-- Assignments as pieces. -/
def assignmentPieces (r : Rules) : Reader (List Piece) :=
  return commaPieces ((← assignments r).map Assignment.pieces)

/-! ## Insertions -/

/-- What is done with a row that is there already, before the target of an insertion. -/
def conflictWord? : Reader (Option String) := do
  if ← keywords? ["OR", "REPLACE"] then return some "OR REPLACE"
  else if ← keywords? ["OR", "ROLLBACK"] then return some "OR ROLLBACK"
  else if ← keywords? ["OR", "ABORT"] then return some "OR ABORT"
  else if ← keywords? ["OR", "FAIL"] then return some "OR FAIL"
  else if ← keywords? ["OR", "IGNORE"] then return some "OR IGNORE"
  else if ← keyword? "REPLACE" then return some "OR REPLACE"
  else return none

/-- The words before the target of an insertion. -/
structure InsertionWords where
  conflict : Option String
  priority : String
  ignore : String
  overwrite : String
  into : String
  isLocal : String

/-- The words before the target of an insertion, behind the first. -/
def insertionWords : Reader InsertionWords := do
  let conflict ← conflictWord?
  let modified ← inDialect [.mysql, .generic]
  let priority ←
    if modified then wordOf? ["LOW_PRIORITY", "DELAYED", "HIGH_PRIORITY"] else pure ""
  let ignore ← if modified then words? ["IGNORE"] else pure ""
  let overwrite ← words? ["OVERWRITE"]
  let into ← words? ["INTO"]
  let isLocal ← words? ["LOCAL"]
  return { conflict, priority, ignore, overwrite, into, isLocal }

/-- The words before the table of an insertion, whose first is `verb`, as they are printed. A word
for conflicts replaces the others. -/
def InsertionWords.render (ws : InsertionWords) (verb table : String) : String :=
  match ws.conflict with
  | some word => "INSERT " ++ word ++ " INTO"
  | none => verb ++ ws.priority ++ ws.ignore ++ ws.overwrite ++ ws.into ++ table

/-- What is done with a row that is there already, behind the rows of an insertion. -/
def onConflict? (r : Rules) : Reader (List Piece) := do
  if ← keyword? "ON" then
    if ← keyword? "CONFLICT" then
      let target ← do
        if ← keywords? ["ON", "CONSTRAINT"] then do pure (" ON CONSTRAINT " ++ (← nameText))
        else textBefore? "(" identList
      keyword "DO"
      if ← keyword? "NOTHING" then return [.text (" ON CONFLICT" ++ target ++ " DO NOTHING")]
      else
        keywords ["UPDATE", "SET"]
        let changes ← assignmentPieces r
        return .text (" ON CONFLICT" ++ target ++ " DO UPDATE SET ") :: changes ++
          (← wordExpr? r "WHERE")
    else
      keywords ["DUPLICATE", "KEY", "UPDATE"]
      return .text " ON DUPLICATE KEY UPDATE " :: (← assignmentPieces r)
  else return []

/-- The alias of the row to insert, in printed form. -/
def rowAlias? : Reader String := do
  if ← inDialect [.mysql, .generic] <&&> keyword? "AS" then
    let n ← nameText
    return " AS " ++ n ++ (← columnsText?)
  else return ""

/-- The rest of an insertion behind the words before its target. -/
def insertionInto (r : Rules) (verb : String) (ws : InsertionWords) : Reader Insertion := do
  let d := (← read).dialect
  let head := ws.render verb (← words? ["TABLE"])
  let table ← name
  let naming ←
    if ← pure d.features.insertAlias <&&> keyword? "AS" then do pure (" AS " ++ (← identText))
    else pure ""
  let (columns, partition, source, changes) ←
    if ← keywords? ["DEFAULT", "VALUES"] then pure ([], [], none, [])
    else do
      let isQuery := (← peekSymbol "(") && (← keywordAt 1) == "SELECT"
      let (columns, partition) ←
        if isQuery then pure ([], [])
        else do
          let columns ← columnList true (d == .mysql)
          let partition ←
            if ← keyword? "PARTITION" then do
              let es ← parens (commaList (r.expr 0))
              pure (.text "PARTITION (" :: exprPieces es ++ [.text ") "])
            else pure []
          pure (columns, partition)
      if ← pure d.features.insertSet <&&> keyword? "SET" then
        pure (columns, partition, none, ← assignments r)
      else pure (columns, partition, some (← r.query), [])
  let rowAlias ← rowAlias?
  let onConflict ← onConflict? r
  let returning ← returning? r
  return {
    head, table, naming, columns, partition, source
    assignments := changes
    rowAlias, onConflict, returning }

/-- An insertion, whose first word is printed as `verb`. -/
def insertion (r : Rules) (verb : String) : Reader Insertion := do
  insertionInto r verb (← insertionWords)

/-- The format of files. -/
def fileFormat : Reader String :=
  keywordOf ["AVRO", "JSONFILE", "ORC", "PARQUET", "RCFILE", "SEQUENCEFILE", "TEXTFILE"]

/-- An insertion behind its first word, which is printed as `verb`. One that writes files into a
directory is kept in its printed form. -/
def insertionStatement (r : Rules) (verb : String) : Reader Statement := do
  let ws ← insertionWords
  if ← keyword? "DIRECTORY" then
    let path ← bareString
    let format ← textBehind? ["STORED", "AS"] fileFormat
    let rows ← queryText r
    return .other ("INSERT" ++ ws.overwrite ++ ws.isLocal ++ " DIRECTORY " ++ path ++ format ++
      " " ++ rows)
  else return .insert (← insertionInto r verb ws)

/-! ## Updates and deletions -/

/-- An update. -/
def update (r : Rules) : Reader Update := do
  let head := match ← conflictWord? with
    | some word => "UPDATE " ++ word
    | none => "UPDATE"
  let table ← joinTree r
  let sources : Reader (Option (List JoinTree)) := behind? "FROM" (commaList (joinTree r))
  let early ← sources
  keyword "SET"
  let changes ← assignments r
  let late ← if early.isSome then pure none else sources
  let selection ← behind? "WHERE" (r.expr 0)
  let returning ← returning? r
  let limit ← behind? "LIMIT" (r.expr 0)
  return {
    head, table
    sourcesFirst := early.isSome
    sources := (early.or late).getD []
    assignments := changes
    selection, returning, limit }

/-- The number of rows to stop at; none when all are wanted. -/
def limitExpr (r : Rules) : Reader (Option Expr) := do
  if ← keyword? "ALL" then return none else return some (← r.expr 0)

/-- A deletion. -/
def deletion (r : Rules) : Reader Deletion := do
  let f := (← read).dialect.features
  let (tables, fromKeyword) ←
    if ← keyword? "FROM" then pure ([], true)
    else if f.deleteTables then do
      let tables ← commaList name
      keyword "FROM"
      pure (tables, true)
    else if f.deleteWithoutFrom then pure ([], false)
    else expected "FROM"
  let sources ← commaList (joinTree r)
  let usingSources ← behind? "USING" (commaList (joinTree r))
  let selection ← behind? "WHERE" (r.expr 0)
  let returning ← returning? r
  let orderBy ←
    if ← keywords? ["ORDER", "BY"] then do pure (.text " ORDER BY " :: (← orderList r))
    else pure []
  let limit ← if ← keyword? "LIMIT" then limitExpr r else pure none
  return { tables, fromKeyword, sources, usingSources, selection, returning, orderBy, limit }

/-! ## Merges -/

/-- What a merge does with the rows of one case; `absent` holds for rows the table lacks. -/
def mergeAction (r : Rules) (absent : Bool) : Reader (List Piece) := do
  let d := (← read).dialect
  match ← keywordOf ["UPDATE", "INSERT", "DELETE"] with
  | "INSERT" =>
    if absent then
      let columns ← columnList true (d == .mysql)
      let columns := clause " (" (columns.map Ident.render) ++ optionalWord (!columns.isEmpty) ")"
      if ← pure (d == .generic) <&&> keyword? "ROW" then
        return [.text ("INSERT" ++ columns ++ " ROW")]
      else
        keyword "VALUES"
        let (word, rows) ← valueRows r (d == .mysql)
        let row := if word then "ROW(" else "("
        return .text ("INSERT" ++ columns ++ " VALUES ") ::
          commaPieces (rows.map fun es => .text row :: exprPieces es ++ [.text ")"])
    else expected "an action on a matched row"
  | k =>
    if absent then expected "an insertion"
    else if k == "DELETE" then return [.text "DELETE"]
    else
      keyword "SET"
      return .text "UPDATE SET " :: (← assignmentPieces r)

/-- One case of a merge, behind `WHEN`. -/
def mergeCase (r : Rules) : Reader (List Piece) := do
  let not ← keyword? "NOT"
  keyword "MATCHED"
  let (case, absent) ←
    if not then do
      if ← keywords? ["BY", "SOURCE"] then pure ("NOT MATCHED BY SOURCE", false)
      else if ← keywords? ["BY", "TARGET"] then pure ("NOT MATCHED BY TARGET", true)
      else pure ("NOT MATCHED", true)
    else pure ("MATCHED", false)
  let condition ← wordExpr? r "AND"
  keyword "THEN"
  let action ← mergeAction r absent
  return .text ("WHEN " ++ case) :: condition ++ .text " THEN " :: action

/-- A merge. -/
def merge (r : Rules) : Reader (List Piece) := do
  let into := optionalWord (← keyword? "INTO") " INTO"
  let target ← relation r
  keyword "USING"
  let source ← relation r
  keyword "ON"
  let on ← r.expr 0
  let cases ← loop (fun acc => do
    if ← keyword? "WHEN" then return some (acc ++ [← mergeCase r]) else return none) []
  let output ←
    if ← keyword? "OUTPUT" then do
      let items ← projection r
      let into ← if ← keyword? "INTO" then intoTable else pure ""
      pure (.text " OUTPUT " :: itemPieces items ++ [.text into])
    else if ← keyword? "RETURNING" then do
      pure (.text " RETURNING " :: itemPieces (← projection r))
    else pure []
  return .text ("MERGE" ++ into ++ " ") :: .relation target :: .text " USING " ::
    .relation source :: .text " ON " :: .expr on :: .text " " :: blankPieces cases ++ output

end Reader

end RowPolicy.Sql
