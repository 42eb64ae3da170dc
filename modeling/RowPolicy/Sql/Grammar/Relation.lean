import RowPolicy.Sql.Grammar.Expr
import RowPolicy.Sql.Grammar.Pattern

/-!
# Relations and joins

What stands in a `FROM`: tables, calls, subqueries, nested joins, and the clauses that turn one
relation into another. A parenthesis opens a subquery if one can be read there, and a nested join
otherwise.
-/

namespace RowPolicy.Sql

namespace Reader

/-- The alias of a relation. -/
def relationAlias? (r : Rules) : Reader (Option Alias) :=
  typedAlias? (dataType r)

/-- An expression with an optional name behind `AS`. -/
def namedExpr (r : Rules) : Reader (List Piece) := do
  let e ← r.expr 0
  return [.expr e, .text (← nameBehindAs?)]
where
  /-- A name behind `AS`, if that word comes next. -/
  nameBehindAs? : Reader String := do
    if ← keyword? "AS" then return " AS " ++ (← identText) else return ""

/-- The settings behind their word. -/
def settings? (r : Rules) : Reader (List Piece) := do
  if ← feature (·.columnStore) then
    listBehind? ["SETTINGS"] do
      let k ← identText
      symbol "="
      return [.text (k ++ " = "), .expr (← r.expr 0)]
  else return []

/-! ## Clauses of a table -/

/-- The arguments of a table after the opening parenthesis. -/
def tableArguments (r : Rules) : Reader (List Piece) := do
  if ← symbol? ")" then return [.text "()"]
  let step (acc : List (List Piece) × Bool) : Reader (Option (List (List Piece) × Bool)) := do
    if acc.2 then return none
    else if (← feature (·.columnStore)) && (← peekKeyword "SETTINGS") then
      let s ← settings? r
      return some (s.drop 1 :: acc.1, true)
    else
      let a ← argument r
      let more ← symbol? ","
      return some (a :: acc.1, !more)
  let isSettings ← peekKeyword "SETTINGS"
  let (args, _) ← loop step ([], false)
  symbol ")"
  let args := args.reverse
  match ← pure (isSettings, args) with
  | (true, [s]) => return .text "(SETTINGS " :: s ++ [.text ")"]
  | _ => return .text "(" :: commaPieces args ++ [.text ")"]

/-- The size of a sample: a number, or a word that stands for one. -/
def sampleSize (r : Rules) : Reader (List Piece) := do
  let size ← match ← attempt (r.expr 0) with
    | some e => pure (Piece.expr e)
    | none =>
      match ← peek with
      | some (.word v _ _) => do
        advance
        pure (.text v)
      | _ => expected "a number or byte length"
  return [size, .text (← wordOf? ["ROWS", "PERCENT"])]

/-- The bucket that is a sample, behind its word. -/
def sampleBucket (r : Rules) : Reader (List Piece) := do
  let bucket ← numberText
  keywords ["OUT", "OF"]
  let total ← numberText
  return .text (" (BUCKET " ++ bucket ++ " OUT OF " ++ total) :: (← wordExpr? r "ON") ++
    [.text ")"]

/-- A sample of a table, behind its word. A bucket is printed behind the seed. -/
def sampleOf (r : Rules) (word : String) : Reader (List Piece) := do
  let method ← wordOf? ["BERNOULLI", "ROW", "SYSTEM", "BLOCK"]
  let isOpen ← symbol? "("
  let (size, bucket) ←
    if ← pure isOpen <&&> keyword? "BUCKET" then do pure ([], ← sampleBucket r)
    else do
      let size ← sampleSize r
      if isOpen then pure (.text " (" :: size ++ [.text ")"], []) else pure (.text " " :: size, [])
  if isOpen then symbol ")"
  let seed ← match ← keywordOf? ["REPEATABLE", "SEED"] with
    | some k => do pure (" " ++ k ++ " (" ++ (← parens numberText) ++ ")")
    | none => pure ""
  let offset ← wordExpr? r "OFFSET"
  return .text (" " ++ word ++ method) :: size ++ .text seed :: bucket ++ offset

/-- A sample of a table, if its word comes next. -/
def sample? (r : Rules) : Reader (List Piece) := do
  match ← keywordOf? ["TABLESAMPLE", "SAMPLE"] with
  | some word => sampleOf r word
  | none => return []

/-- The index hints behind a table. -/
def indexHints : Reader String := do
  let one : Reader String := do
    let verb ← keywordOf ["USE", "IGNORE", "FORCE"]
    let what ← keywordOf ["INDEX", "KEY"]
    let purpose ←
      if ← keyword? "FOR" then
        if ← keyword? "JOIN" then pure " FOR JOIN"
        else if ← keywords? ["ORDER", "BY"] then pure " FOR ORDER BY"
        else do
          keywords ["GROUP", "BY"]
          pure " FOR GROUP BY"
      else pure ""
    symbol "("
    let names ← commaListUntil ")" ident
    symbol ")"
    return " " ++ verb ++ " " ++ what ++ purpose ++ " (" ++
      commaSeparated (names.map Ident.render) ++ ")"
  let first ← one
  loop (fun s => do
    match ← attempt one with
    | some t => return some (s ++ t)
    | none => return none) first

/-- A call with its name, one of those that a clause turns rows into columns by. -/
def pivotCall (r : Rules) : Reader (List Piece) := do
  match ← peek with
  | some (.word v _ _) =>
    advance
    let e ← call r [Ident.plain v]
    let d := (← read).dialect
    let a ← alias? fun k => k != "FOR" && !(reservedForColumn d).contains k
    return [.expr e, .text ((a.map fun i => " AS " ++ i.render).getD "")]
  | _ => expected "a function identifier"

/-- The values that become columns, between parentheses. -/
def pivotValues (r : Rules) : Reader (List Piece) := do
  symbol "("
  let values ←
    if ← keyword? "ANY" then do
      pure (.text "ANY" :: (← listBehind? ["ORDER", "BY"] (orderItem r)))
    else if ← queryNext then do pure [.query (← r.query)]
    else do pure (commaPieces (← commaList (namedExpr r)))
  symbol ")"
  return .text " IN (" :: values ++ [.text ")"]

/-- The columns whose values become columns. -/
def pivotColumns (r : Rules) : Reader (List Piece) := do
  let least ← strength .between
  if ← symbol? "(" then
    let es ← commaList (r.expr least)
    symbol ")"
    match es with
    | [e] => return [.expr e]
    | es => return .text "(" :: exprPieces es ++ [.text ")"]
  else return [.expr (← r.expr least)]

/-- A clause that turns rows into columns, after its word. -/
def pivotClause (r : Rules) : Reader (List Piece) := do
  symbol "("
  let aggregates ← commaList (pivotCall r)
  keyword "FOR"
  let columns ← pivotColumns r
  keyword "IN"
  let values ← pivotValues r
  let other ←
    if ← keywords? ["DEFAULT", "ON", "NULL"] then do
      pure [.text " DEFAULT ON NULL (", .expr (← parens (r.expr 0)), .text ")"]
    else pure []
  symbol ")"
  return .text " PIVOT(" :: commaPieces aggregates ++ .text " FOR " :: columns ++ values ++ other ++
    [.text ")"]

/-- A clause that turns columns into rows, after its word. -/
def unpivotClause (r : Rules) : Reader (List Piece) := do
  let nulls ← match ← keywordOf? ["INCLUDE", "EXCLUDE"] with
    | some k => do
      keyword "NULLS"
      pure (" " ++ k ++ " NULLS ")
    | none => pure ""
  symbol "("
  let value ← r.expr 0
  keyword "FOR"
  let n ← identText
  keyword "IN"
  let columns ← parens (commaList (namedExpr r))
  symbol ")"
  return .text (" UNPIVOT" ++ nulls ++ "(") :: .expr value :: .text (" FOR " ++ n ++ " IN (") ::
    commaPieces columns ++ [.text "))"]

/-- A value that a match of rows yields, with its name. -/
def matchMeasure (r : Rules) : Reader (List Piece) := do
  let e ← r.expr 0
  let _ ← keyword? "AS"
  return [.expr e, .text (" AS " ++ (← identText))]

/-- Which rows a match of rows yields. -/
def matchedRows? : Reader String := do
  if ← keywords? ["ONE", "ROW", "PER", "MATCH"] then return " ONE ROW PER MATCH"
  else if ← keywords? ["ALL", "ROWS", "PER", "MATCH"] then
    return " ALL ROWS PER MATCH" ++ (← phraseOf?
      [["SHOW", "EMPTY", "MATCHES"], ["OMIT", "EMPTY", "MATCHES"], ["WITH", "UNMATCHED", "ROWS"]])
  else return ""

/-- Where the search goes on behind a match of rows. -/
def matchSkip? : Reader String := do
  if ← keywords? ["AFTER", "MATCH", "SKIP"] then
    if ← keywords? ["PAST", "LAST", "ROW"] then return " AFTER MATCH SKIP PAST LAST ROW"
    else if ← keywords? ["TO", "NEXT", "ROW"] then return " AFTER MATCH SKIP  TO NEXT ROW"
    else
      keyword "TO"
      let which ← keywordOf ["FIRST", "LAST"]
      return " AFTER MATCH SKIP TO " ++ which ++ " " ++ (← identText)
  else return ""

/-- A clause that matches patterns of rows, after its word. -/
def matchClause (r : Rules) : Reader (List Piece) := do
  symbol "("
  let partition ← listBehind? ["PARTITION", "BY"] do return [.expr (← r.expr 0)]
  let order ← listBehind? ["ORDER", "BY"] (orderItem r)
  let measures ← listBehind? ["MEASURES"] (matchMeasure r)
  let rows ← matchedRows?
  let skip ← matchSkip?
  keyword "PATTERN"
  let pattern ← parens rowPattern
  keyword "DEFINE"
  let symbols ← commaList do
    let n ← identText
    keyword "AS"
    return [Piece.text (n ++ " AS "), .expr (← r.expr 0)]
  symbol ")"
  let clauses := partition ++ order ++ measures ++
    [.text (rows ++ skip ++ " PATTERN (" ++ pattern ++ ") DEFINE ")]
  return .text " MATCH_RECOGNIZE(" :: withoutBlank clauses ++ commaPieces symbols ++ [.text ")"]
where
  /-- The pieces without the blank they begin with. -/
  withoutBlank : List Piece → List Piece
    | .text s :: ps => .text (String.ofList (s.toList.drop 1)) :: ps
    | ps => ps

/-- The relation with the clauses behind it that turn it into another. -/
def transformed (r : Rules) (rel : Relation) : Reader Relation :=
  loop (fun rel => do
    match ← keywordOf? ["PIVOT", "UNPIVOT"] with
    | some "PIVOT" =>
      let clause ← pivotClause r
      return some (.transformed .pivot rel clause (← relationAlias? r))
    | some _ =>
      let clause ← unpivotClause r
      return some (.transformed .unpivot rel clause (← relationAlias? r))
    | none => return none) rel

/-! ## Relations -/

/-- What a column of a `JSON_TABLE` holds where a value is missing or wrong, each in printed
form. -/
def jsonFallbacks : Reader String := do
  let (empty, error) ← loop (fun ((empty, error) : String × String) => do
    match ← keywordOf? ["NULL", "ERROR", "DEFAULT"] with
    | none => return none
    | some k =>
      let value ← if k == "DEFAULT" then (" " ++ ·) <$> constantText else pure ""
      let how := " " ++ k ++ value
      keyword "ON"
      if ← keyword? "EMPTY" then return some (how ++ " ON EMPTY", error)
      else
        keyword "ERROR"
        return some (empty, how ++ " ON ERROR")) ("", "")
  return empty ++ error

/-- A column of a `JSON_TABLE`, in printed form, nested no deeper than `bound`. -/
def jsonColumn (r : Rules) : (bound : Nat) → Reader String
  | 0 => throw .tooDeep
  | n + 1 => do
    if ← keyword? "NESTED" then
      let _ ← keyword? "PATH"
      let path ← constantText
      keyword "COLUMNS"
      return "NESTED PATH " ++ path ++ " COLUMNS " ++ (← parensText (jsonColumn r n))
    else
      let c ← identText
      if ← keyword? "FOR" then
        keyword "ORDINALITY"
        return c ++ " FOR ORDINALITY"
      else
        let t ← dataType r
        let exists' ← words? ["EXISTS"]
        keyword "PATH"
        let path ← constantText
        return c ++ " " ++ t ++ exists' ++ " PATH " ++ path ++ (← jsonFallbacks)

/-- The relation that a JSON value is, behind `JSON_TABLE`. -/
def jsonTable (r : Rules) : Reader (List Piece) := do
  symbol "("
  let e ← r.expr 0
  symbol ","
  let path ← constantText
  keyword "COLUMNS"
  let columns ← parensText (jsonColumn r ((← get).length + 1))
  symbol ")"
  return [.text "JSON_TABLE(", .expr e, .text (", " ++ path ++ " COLUMNS" ++ columns ++ ")")]

/-- The relation that a JSON value is, behind `OPENJSON`. -/
def openJson (r : Rules) : Reader (List Piece) := do
  symbol "("
  let e ← r.expr 0
  let path ← if ← symbol? "," then do pure (", " ++ (← constantText)) else pure ""
  symbol ")"
  let columns ← textBehind? ["WITH"] <| parensText do
    let c ← identText
    let t ← dataType r
    let path ← match ← peek with
      | some (.string .plain s) => do
        advance
        pure (" " ++ quoted '\'' s)
      | _ => pure ""
    let asJson ← if ← keyword? "AS" then do keyword "JSON"; pure " AS JSON" else pure ""
    return c ++ " " ++ t ++ path ++ asJson
  return [.text "OPENJSON(", .expr e, .text (path ++ ")" ++ columns)]

/-- A value that an XML path is evaluated on. -/
def xmlArgument (r : Rules) : Reader (List Piece) := do
  let by' ← keyword? "BY"
  let byValue := optionalWord (← pure by' <&&> keyword? "VALUE") "BY VALUE "
  return .text byValue :: (← namedExpr r)

/-- A column of an `XMLTABLE`. -/
def xmlColumn (r : Rules) : Reader (List Piece) := do
  let c ← identText
  if ← keyword? "FOR" then
    keyword "ORDINALITY"
    return [.text (c ++ " FOR ORDINALITY")]
  else
    let t ← dataType r
    let path ← wordExpr? r "PATH"
    let default ← wordExpr? r "DEFAULT"
    let notNull ← words? ["NOT", "NULL"]
    if notNull == "" then
      let _ ← keyword? "NULL"
    return .text (c ++ " " ++ t) :: path ++ default ++ [.text notNull]

/-- The relation that an XML value is, behind `XMLTABLE`. -/
def xmlTable (r : Rules) : Reader (List Piece) := do
  symbol "("
  let namespaces ←
    if ← keyword? "XMLNAMESPACES" then do
      let ns ← parens <| commaList do
        let uri ← r.expr 0
        keyword "AS"
        return [Piece.expr uri, .text (" AS " ++ (← identText))]
      symbol ","
      pure (.text "XMLNAMESPACES(" :: commaPieces ns ++ [.text "), "])
    else pure []
  let row ← r.expr 0
  let passing ← listBehind? ["PASSING"] (xmlArgument r)
  keyword "COLUMNS"
  let columns ← commaList (xmlColumn r)
  symbol ")"
  return .text "XMLTABLE(" :: namespaces ++ .expr row :: passing ++ .text " COLUMNS " ::
    commaPieces columns ++ [.text ")"]

/-- The relation of the members of arrays, behind `UNNEST`. -/
def unnest (r : Rules) : Reader Relation := do
  let d := (← read).dialect
  let es ← parens (commaList (r.expr 0))
  let ordinality ← words? ["WITH", "ORDINALITY"]
  let a ← relationAlias? r
  let isOffset ← keyword? "WITH" <&&> keyword? "OFFSET"
  let offset ←
    if isOffset then do
      let n ← aliasExcept? (reservedForColumn d)
      pure (" WITH OFFSET" ++ (n.map fun i => " " ++ i.render).getD "")
    else pure ""
  return .other .unnest (.text "UNNEST(" :: exprPieces es ++ [.text (")" ++ ordinality)]) a offset

/-- A subquery after its opening parenthesis, with its alias. -/
def derived (r : Rules) (isLateral : Bool) : Reader Relation := do
  let q ← r.query
  symbol ")"
  return .derived isLateral q (← relationAlias? r)

/-- The rows of a `VALUES`, and whether any has the word `ROW`. -/
def valueRows (r : Rules) (empty : Bool) : Reader (Bool × List (List Expr)) := do
  let rows ← commaList do
    let word ← keyword? "ROW"
    symbol "("
    if ← pure empty <&&> symbol? ")" then return (word, [])
    else
      let es ← commaList (r.expr 0)
      symbol ")"
      return (word, es)
  return (rows.any Prod.fst, rows.map Prod.snd)

/-- The version of a table that is meant. -/
def tableVersion? (r : Rules) : Reader (List Piece) := do
  if ← feature (·.tableVersions) then
    if ← keywords? ["FOR", "SYSTEM_TIME", "AS", "OF"] then
      return [.text " FOR SYSTEM_TIME AS OF ", .expr (← r.expr 0)]
    else if (← peekKeyword "AT") || (← peekKeyword "BEFORE") then
      return [.text " ", .expr (← call r (← name))]
    else return []
  else return []

/-- A table by its name, with its clauses. -/
def table (r : Rules) : Reader Relation := do
  let f := (← read).dialect.features
  let n ← name
  let partition ←
    if ← inDialect [.mysql, .generic] <&&> keyword? "PARTITION" then do
      pure ("PARTITION " ++ (← identList))
    else pure ""
  let version ← tableVersion? r
  let args ← if ← symbol? "(" then do pure (some (← tableArguments r)) else pure none
  let ordinality ← words? ["WITH", "ORDINALITY"]
  let a ← relationAlias? r
  let indexes ← if f.indexHints then attempt indexHints else pure none
  let hints ←
    if (← peekKeyword "WITH") && (← peekAt 1) == some (.symbol "(") then do
      advance
      let es ← parens (commaList (r.expr 0))
      pure (.text " WITH (" :: exprPieces es ++ [.text ")"])
    else pure []
  let sample ← sample? r
  let rel ← transformed r
    (.table n partition args ordinality a (.text (indexes.getD "") :: hints ++ version ++ sample))
  if ← pure f.matchRecognize <&&> keyword? "MATCH_RECOGNIZE" then
    let clause ← matchClause r
    return .transformed .other rel clause (← relationAlias? r)
  else return rel

/-- The relation with the alias behind its parentheses, which it must not have twice. -/
def withOuterAlias (rel : Relation) (outer : Option Alias) : Reader Relation := do
  if outer.isNone then return rel
  else
    match rel with
    | .table n partition args ordinality none after =>
      return .table n partition args ordinality outer after
    | .derived isLateral q none => return .derived isLateral q outer
    | .nested tree none => return .nested tree outer
    | .transformed kind source clause none => return .transformed kind source clause outer
    | .other kind ps none suffix => return .other kind ps outer suffix
    | _ => expected "no second alias"

/-- A relation between parentheses, behind the opening one; `inner` reads joins there. Only a nested
join keeps the parentheses. -/
def enclosed (r : Rules) (inner : Reader JoinTree) : Reader Relation := do
  match ← attempt (derived r false) with
  | some rel => transformed r rel
  | none =>
    let tree ← inner
    let isNested := match tree with
      | ⟨.nested _ _, _⟩ => true
      | ⟨_, joins⟩ => !joins.isEmpty
    if isNested then
      symbol ")"
      return .nested tree (← relationAlias? r)
    else if ← feature (·.parenthesisedRelation) then
      symbol ")"
      withOuterAlias tree.relation (← relationAlias? r)
    else expected "joined table"

/-- A relation behind `LATERAL`. -/
def lateral (r : Rules) : Reader Relation := do
  if ← symbol? "(" then derived r true
  else
    let n ← nameText
    symbol "("
    let args ← commaListUntil ")" (argument r)
    symbol ")"
    let pieces := .text ("LATERAL " ++ n ++ "(") :: commaPieces args ++ [.text ")"]
    return .other .tableFunction pieces (← relationAlias? r) ""

/-- A relation; `inner` reads joins between parentheses. -/
def relationWith (r : Rules) (inner : Reader JoinTree) : Reader Relation := do
  let d := (← read).dialect
  let k ← keywordAt 0
  let isCall := (← peekAt 1) == some (.symbol "(")
  let named (kind : RelationKind) (p : Reader (List Piece)) : Reader Relation := do
    advance
    let pieces ← p
    return .other kind pieces (← relationAlias? r) ""
  if ← keyword? "LATERAL" then lateral r
  else if k == "TABLE" then
    named .tableFunction do return [.text "TABLE(", .expr (← parens (r.expr 0)), .text ")"]
  else if ← symbol? "(" then enclosed r inner
  else if d.features.valuesRelation && k == "VALUES" && isCall then
    advance
    let (word, rows) ← valueRows r false
    return .derived false (.ofBody (.values "VALUES" word rows)) (← relationAlias? r)
  else if (d == .postgresql || d == .generic) && k == "UNNEST" then
    advance
    unnest r
  else if k == "JSON_TABLE" && isCall then named .other (jsonTable r)
  else if k == "OPENJSON" && isCall then named .other (openJson r)
  else if k == "XMLTABLE" && isCall then named .other (xmlTable r)
  else table r

/-! ## Joins -/

/-- The constraint of a join: its condition, and its list of columns in printed form. -/
def joinConstraint (r : Rules) : Reader (Option Expr × String) := do
  if ← keyword? "ON" then return (some (← r.expr 0), "")
  else if ← keyword? "USING" then return (none, " USING" ++ (← nameList))
  else return (none, "")

/-- The kind of a join, with the words that name it, or nothing where no join follows. -/
def joinKind? : Reader (Option JoinKind) := do
  match ← keywordAt 0 with
  | "JOIN" => advance; return some .join
  | "INNER" => keywords ["INNER", "JOIN"]; return some .inner
  | "LEFT" =>
    advance
    match ← keywordOf ["OUTER", "SEMI", "ANTI", "JOIN"] with
    | "OUTER" => keyword "JOIN"; return some .leftOuter
    | "SEMI" => keyword "JOIN"; return some .leftSemi
    | "ANTI" => keyword "JOIN"; return some .leftAnti
    | _ => return some .left
  | "RIGHT" =>
    advance
    match ← keywordOf ["OUTER", "SEMI", "ANTI", "JOIN"] with
    | "OUTER" => keyword "JOIN"; return some .rightOuter
    | "SEMI" => keyword "JOIN"; return some .rightSemi
    | "ANTI" => keyword "JOIN"; return some .rightAnti
    | _ => return some .right
  | "ANTI" => keywords ["ANTI", "JOIN"]; return some .anti
  | "SEMI" => keywords ["SEMI", "JOIN"]; return some .semi
  | "FULL" =>
    advance
    let _ ← keyword? "OUTER"
    keyword "JOIN"
    return some .full
  | "STRAIGHT_JOIN" => advance; return some .straight
  | _ => return none

/-- The next join, or nothing; `relation` reads what is joined. -/
def join? (r : Rules) (relation : Reader Relation) : Reader (Option Join) := do
  let isGlobal ← keyword? "GLOBAL"
  let plain (kind : JoinKind) (rel : Relation) : Join :=
    ⟨isGlobal, false, kind, rel, none, none, ""⟩
  if ← keyword? "CROSS" then
    if ← keyword? "APPLY" then return some (plain .crossApply (← relation))
    else
      keyword "JOIN"
      let rel ← relation
      if ← feature (·.crossJoinConstraint) then
        let (on, columns) ← joinConstraint r
        return some ⟨isGlobal, false, .cross, rel, none, on, columns⟩
      else return some (plain .cross rel)
  else if ← keyword? "OUTER" then
    keyword "APPLY"
    return some (plain .outerApply (← relation))
  else if ← keyword? "ASOF" then
    keyword "JOIN"
    let rel ← relation
    keyword "MATCH_CONDITION"
    let matching ← parens (r.expr 0)
    let (on, columns) ← joinConstraint r
    return some ⟨isGlobal, false, .asOf, rel, some matching, on, columns⟩
  else
    let isNatural ← keyword? "NATURAL"
    match ← joinKind? with
    | none => if isNatural then expected "a join type after NATURAL" else return none
    | some kind =>
      let rel ← relation
      if isNatural then return some ⟨isGlobal, true, kind, rel, none, none, ""⟩
      else
        let (on, columns) ← joinConstraint r
        return some ⟨isGlobal, false, kind, rel, none, on, columns⟩

/-- A relation with its joins, nested between parentheses no deeper than `bound`. -/
def joinTreeWithin (r : Rules) : (bound : Nat) → Reader JoinTree
  | 0 => throw .tooDeep
  | n + 1 => do
    let relation := relationWith r (joinTreeWithin r n)
    let first ← relation
    let joins ← loop (fun acc => do
      match ← join? r relation with
      | some j => return some (j :: acc)
      | none => return none) []
    return ⟨first, joins.reverse⟩

/-- A relation with its joins. The lexemes that are left bound the parentheses around it. -/
def joinTree (r : Rules) : Reader JoinTree := do
  joinTreeWithin r ((← get).length + 1)

/-- A relation without joins. -/
def relation (r : Rules) : Reader Relation :=
  relationWith r (joinTree r)

end Reader

end RowPolicy.Sql
