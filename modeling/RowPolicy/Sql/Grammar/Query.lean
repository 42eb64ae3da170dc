import RowPolicy.Sql.Grammar.Change

/-!
# Queries

A query names other queries, combines select blocks by set operations, and then orders, cuts, locks
and formats the rows. `INTERSECT` binds tighter than the other set operations.
-/

namespace RowPolicy.Sql

namespace Reader

/-! ## Named queries -/

/-- Whether the rows of a named query are kept, in printed form. -/
def materialization? : Reader String := do
  if ← inDialect [.postgresql] then
    if ← keyword? "MATERIALIZED" then return "MATERIALIZED "
    else if ← keywords? ["NOT", "MATERIALIZED"] then return "NOT MATERIALIZED "
    else return ""
  else return ""

/-- A named query of a `WITH`. -/
def cte (r : Rules) : Reader Cte := do
  let n ← ident
  let columns ←
    if ← peekKeyword "AS" then pure ""
    else textBefore? "(" (return " " ++ (← parensText (typedColumn (dataType r))))
  keyword "AS"
  let materialized ← materialization?
  let q ← parens r.query
  let origin ← textBehind? ["FROM"] identText
  return ⟨n, columns, materialized, q, origin⟩

/-! ## Bodies -/

/-- Which rows of both sides a set operation keeps, and how it matches their columns. -/
def setQuantifier : Reader String := do
  if ← keywords? ["DISTINCT", "BY", "NAME"] then return " DISTINCT BY NAME"
  else if ← keywords? ["BY", "NAME"] then return " BY NAME"
  else if ← keyword? "ALL" then
    if ← keywords? ["BY", "NAME"] then return " ALL BY NAME" else return " ALL"
  else if ← keyword? "DISTINCT" then return " DISTINCT"
  else return ""

/-- A table as a body. Three tokens are taken, also where the name is the first alone. -/
def tableBody : Reader Body := do
  let part (n : Nat) : Reader String := do
    match ← peekAt n with
    | some (.word v _ _) => return v
    | _ => expected "a table name"
  if (← peekAt 1) == some (.symbol ".") then
    let schema ← part 0
    let table ← part 2
    modify (List.drop 3)
    return .table (some schema) table
  else
    let table ← part 0
    modify (List.drop 3)
    return .table none table

/-- A body that is no set operation. -/
def bodyTerm (r : Rules) : Reader Body := do
  let d := (← read).dialect
  let rows (keyword : String) : Reader Body := do
    let (word, rows) ← valueRows r (d == .mysql)
    return .values keyword word rows
  let k ← keywordAt 0
  if k == "SELECT" || (k == "FROM" && d.features.fromFirst) then return .select (← select r)
  else if ← peekSymbol "(" then return .query (← parens r.query)
  else if ← keyword? "VALUES" then rows "VALUES"
  else if ← keyword? "VALUE" then rows "VALUE"
  else if ← keyword? "TABLE" then tableBody
  else expected "SELECT, VALUES, or a subquery in the query body"

/-- Bodies of one level with the set operations `words` between them, from left to right. -/
def setOperations (words : List String) (term : Reader Body) : Reader Body := do
  let first ← term
  loop (fun left => do
    match ← keywordOf? words with
    | some word =>
      let quantifier ← setQuantifier
      return some (.setOperation left (word ++ quantifier) (← term))
    | none => return none) first

/-- The body of a query. -/
def body (r : Rules) : Reader Body :=
  setOperations ["UNION", "EXCEPT", "MINUS"] (setOperations ["INTERSECT"] (bodyTerm r))

/-! ## Order and cut -/

/-- The columns to fill in between ordered rows. -/
def interpolation? (r : Rules) : Reader (List Piece) := do
  if ← feature (·.columnStore) <&&> keyword? "INTERPOLATE" then
    if ← symbol? "(" then
      let items ← commaListUntil ")" do
        let c ← ident
        return Piece.text c.render :: (← wordExpr? r "AS")
      symbol ")"
      return .text " INTERPOLATE (" :: commaPieces items ++ [.text ")"]
    else return [.text " INTERPOLATE"]
  else return []

/-- The clause that orders the rows. -/
def orderBy? (r : Rules) : Reader (List Piece) := do
  if ← keywords? ["ORDER", "BY"] then
    let items ← orderList r
    return .text " ORDER BY " :: items ++ (← interpolation? r)
  else return []

/-- How many rows to skip, behind `OFFSET`. -/
def offset (r : Rules) : Reader (Expr × OffsetUnit) := do
  let e ← r.expr 0
  if ← keyword? "ROW" then return (e, .row)
  else if ← keyword? "ROWS" then return (e, .rows)
  else return (e, .none)

/-- The clause that cuts the rows. A limit that admits all of them is no clause. -/
def limit? (r : Rules) : Reader (Option LimitClause) := do
  let f := (← read).dialect.features
  let early ← behind? "OFFSET" (offset r)
  if ← keyword? "LIMIT" then
    match early, ← limitExpr r with
    | none, some e =>
      if ← pure f.limitComma <&&> symbol? "," then return some (.offsetComma e (← r.expr 0))
      else
        let groups ← groups? f
        let late ← behind? "OFFSET" (offset r)
        return some (form (some e) late groups)
    | _, e =>
      let groups ← groups? f
      let late ← if early.isSome then pure early else behind? "OFFSET" (offset r)
      if e.isSome || late.isSome || !groups.isEmpty then return some (form e late groups)
      else return none
  else return early.map fun o => form none (some o) []
where
  /-- The columns by which the limit counts. -/
  groups? (f : Dialect.Features) : Reader (List Piece) := do
    if f.columnStore then listBehind? ["BY"] do return [.expr (← r.expr 0)] else return []
  /-- A limit and an offset as a clause. -/
  form (limit : Option Expr) (offset : Option (Expr × OffsetUnit)) (groups : List Piece) :
      LimitClause :=
    .limitOffset limit (offset.map Prod.fst) ((offset.map Prod.snd).getD .none) groups

/-- The clause that fetches the first rows, behind `FETCH`. -/
def fetch : Reader Fetch := do
  let _ ← keywordOf? ["FIRST", "NEXT"]
  let (quantity, percent) ←
    if (← keywordOf? ["ROW", "ROWS"]).isSome then pure (none, false)
    else do
      let n ← constant
      let percent ← keyword? "PERCENT"
      let _ ← keywordOf? ["ROW", "ROWS"]
      pure (some (Expr.literal n), percent)
  if ← keyword? "ONLY" then return ⟨quantity, percent, false⟩
  else return ⟨quantity, percent, ← keywords? ["WITH", "TIES"]⟩

/-! ## Locks and formats -/

/-- The options of a format: those of `words` that are there, and the name of the root element.
Commas alone are passed over. -/
def formatOptions (words : List (List String)) : Reader (List String × String) :=
  loop (fun (seen, root) => do
    if ← symbol? "," then
      if ← keyword? "ROOT" then return some (seen, ", ROOT(" ++ (← parens bareString) ++ ")")
      else
        match ← phraseOf? words with
        | "" => return some (seen, root)
        | w => return some (w :: seen, root)
    else return none) ([], "")

/-- The format of the rows, behind `FOR`. -/
def formatClause? : Reader (Option String) := do
  let option (seen : List String) (w : String) : String :=
    optionalWord (seen.contains (" " ++ w)) (", " ++ w)
  if ← keyword? "XML" then
    let mode ← keywordOf ["RAW", "AUTO", "EXPLICIT", "PATH"]
    let element ←
      if mode == "RAW" || mode == "PATH" then
        textBefore? "(" (return "(" ++ (← parens bareString) ++ ")")
      else pure ""
    let (seen, root) ← formatOptions [["ELEMENTS"], ["BINARY", "BASE64"], ["TYPE"]]
    return some (" FOR XML " ++ mode ++ element ++ option seen "BINARY BASE64" ++
      option seen "TYPE" ++ root ++ option seen "ELEMENTS")
  else if ← keyword? "JSON" then
    let mode ← keywordOf ["AUTO", "PATH"]
    let (seen, root) ← formatOptions [["INCLUDE_NULL_VALUES"], ["WITHOUT_ARRAY_WRAPPER"]]
    return some (" FOR JSON " ++ mode ++ root ++ option seen "INCLUDE_NULL_VALUES" ++
      option seen "WITHOUT_ARRAY_WRAPPER")
  else if ← keyword? "BROWSE" then return some " FOR BROWSE"
  else return none

/-- A lock on the rows, behind `FOR`. -/
def lock : Reader String := do
  let mode ← keywordOf ["UPDATE", "SHARE"]
  let table ← textBehind? ["OF"] nameText
  return " FOR " ++ mode ++ table ++ (← phraseOf? [["NOWAIT"], ["SKIP", "LOCKED"]])

/-- The locks and the format of a query. A format ends them. -/
def locks : Reader String := do
  let (text, _) ← loop (fun ((acc, done) : String × Bool) => do
    if ← pure (!done) <&&> keyword? "FOR" then
      match ← formatClause? with
      | some s => return some (acc ++ s, true)
      | none => return some (acc ++ (← lock), false)
    else return none) ("", false)
  return text

/-- The name of the output format. -/
def outputFormat? : Reader String := do
  if ← feature (·.columnStore) <&&> keyword? "FORMAT" then
    if ← keyword? "NULL" then return " FORMAT NULL" else return " FORMAT " ++ (← identText)
  else return ""

/-! ## Chained operators -/

/-- An expression with an alias and a direction, as an aggregation lists them. -/
def aggregateItem (r : Rules) : Reader (List Piece) := do
  let e ← r.expr 0
  let a ← aliasExcept? ["ASC", "DESC", "GROUP"]
  return [.expr e,
    .text ((a.map fun i => " AS " ++ i.render).getD "" ++ (← wordOf? ["ASC", "DESC"]))]

/-- A name behind an optional `AS`, if one comes next. -/
def optionalName? : Reader String := do
  if ← keyword? "AS" then return " AS " ++ (← identText)
  else return ((← attempt identText).map (" AS " ++ ·)).getD ""

/-- Every word up to the end of the text, an equals sign or a semicolon; what stands between the
words is passed over. -/
def remainingWords : Reader (List String) :=
  loop (fun ws => do
    match ← peek with
    | none | some (.symbol "=") | some (.symbol ";") => return none
    | some (.word v q _) => advance; return some (ws ++ [Ident.render ⟨v, q⟩])
    | some _ => advance; return some ws) []

/-- Queries between parentheses. -/
def enclosedQueries (r : Rules) : Reader (List Piece) :=
  return commaPieces (← commaList do
    return [.text "(", .query (← parens r.query), .text ")"])

/-- A join of a chain as pieces. -/
def joinPieces : Join → List Piece
  | ⟨isGlobal, isNatural, kind, relation, matching, on, columns⟩ =>
    let condition (word close : String) : Option Expr → List Piece
      | none => []
      | some e => [.text word, .expr e, .text close]
    .text (" " ++ optionalWord isGlobal "GLOBAL " ++ optionalWord isNatural "NATURAL " ++
      kind.render ++ " ") :: .relation relation :: condition " MATCH_CONDITION (" ")" matching ++
      condition " ON " "" on ++ [.text columns]

/-- An operator of a chain, behind the arrow. -/
def chained (r : Rules) : Reader (List Piece) := do
  let word ← keywordAt 0
  let items (p : Reader (List Piece)) : Reader (List Piece) :=
    return .text (word ++ " ") :: commaPieces (← commaList p)
  let join : Reader (List Piece) := do
    match ← join? r (relation r) with
    | some j =>
      if (← join? r (relation r)).isSome then expected "a single join" else return joinPieces j
    | none => expected "a join"
  let other : Reader (List Piece) := do
    advance
    match word with
    | "SELECT" | "EXTEND" => items (return itemPieces [← selectItem r])
    | "SET" => items (return (← assignment r).pieces)
    | "DROP" => return [.text ("DROP " ++ commaSeparated (← remainingWords))]
    | "AS" => return [.text ("AS " ++ (← identText))]
    | "WHERE" => return [.text "WHERE ", .expr (← r.expr 0)]
    | "LIMIT" =>
      let n ← r.expr 0
      return .text "LIMIT " :: .expr n :: (← wordExpr? r "OFFSET")
    | "AGGREGATE" =>
      let all ← if ← peekKeyword "GROUP" then pure [] else do
        pure (.text " " :: commaPieces (← commaList (aggregateItem r)))
      return .text "AGGREGATE" :: all ++ (← listBehind? ["GROUP", "BY"] (aggregateItem r))
    | "ORDER" =>
      keyword "BY"
      return .text "ORDER BY " :: (← orderList r)
    | "RENAME" => items do
      let old ← identText
      let _ ← keyword? "AS"
      return [.text (old ++ " AS " ++ (← identText))]
    | "CALL" =>
      let e ← call r (← name)
      return [.text "CALL ", .expr e, .text (← optionalName?)]
    | "UNION" =>
      let quantifier ← setQuantifier
      return .text ("UNION" ++ quantifier ++ " ") :: (← enclosedQueries r)
    | "INTERSECT" | "EXCEPT" =>
      let quantifier ← setQuantifier
      unless quantifier == " DISTINCT" || quantifier == " DISTINCT BY NAME" do expected "DISTINCT"
      return .text (word ++ quantifier ++ " ") :: (← enclosedQueries r)
    | "PIVOT" =>
      symbol "("
      let aggregates ← commaList (pivotCall r)
      keyword "FOR"
      let first ← identText
      let column ← concatText do
        if ← symbol? "." then return some ("." ++ (← identText)) else return none
      keyword "IN"
      let values ← pivotValues r
      symbol ")"
      return .text "PIVOT(" :: commaPieces aggregates ++ .text (" FOR " ++ first ++ column) ::
        values ++ [.text (")" ++ (← optionalName?))]
    | "UNPIVOT" =>
      symbol "("
      let value ← identText
      keyword "FOR"
      let n ← identText
      keyword "IN"
      let columns ← identList
      symbol ")"
      return [.text ("UNPIVOT(" ++ value ++ " FOR " ++ n ++ " IN " ++ columns ++ ")" ++
        (← optionalName?))]
    | _ => expected "an operator of a chain"
  if word == "TABLESAMPLE" then
    advance
    return .text " |>" :: (← sampleOf r word)
  else if ["JOIN", "INNER", "LEFT", "RIGHT", "FULL", "CROSS"].contains word then
    return .text " |>" :: (← join)
  else return .text " |> " :: (← other)

/-- The chained operators of a query. -/
def chain (r : Rules) : Reader (List Piece) := do
  if ← feature (·.pipes) then
    loop (fun ps => do
      if ← symbol? "|>" then return some (ps ++ (← chained r)) else return none) []
  else return []

/-! ## The query -/

/-- A query. -/
def query (r : Rules) : Reader Query := do
  let (recursive, ctes) ←
    if ← keyword? "WITH" then do
      let recursive ← keyword? "RECURSIVE"
      pure (recursive, ← commaList (cte r))
    else pure (false, [])
  let change (body : Body) : Query := { Query.ofBody body with recursive, ctes }
  if ← keyword? "INSERT" then return change (.insert (← insertion r "INSERT"))
  else if ← keyword? "UPDATE" then return change (.update (← update r))
  else if ← keyword? "DELETE" then return change (.delete (← deletion r))
  else if ← keyword? "MERGE" then return change (.merge (← merge r))
  else
    let body ← body r
    let orderBy ← orderBy? r
    let limit ← limit? r
    let settings ← settings? r
    let fetch ← behind? "FETCH" fetch
    let locks ← locks
    let format ← outputFormat?
    let chain ← chain r
    return {
      recursive, ctes, body, orderBy, limit, settings, fetch
      tail := locks ++ format
      chain }

end Reader

end RowPolicy.Sql
