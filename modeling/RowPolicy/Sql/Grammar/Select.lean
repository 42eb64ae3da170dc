import RowPolicy.Sql.Grammar.Relation

/-!
# Select blocks

A select block names what it yields, the relations it reads, and the clauses that filter, group and
number their rows. In the generic dialect the relations may come first, and then the projection may
be left out.
-/

namespace RowPolicy.Sql

namespace Reader

/-! ## Projection -/

/-- The columns that a star leaves out, in printed form. -/
def exclusion? : Reader String := do
  if ← keyword? "EXCLUDE" then
    if ← peekSymbol "(" then return " EXCLUDE " ++ (← identList)
    else return " EXCLUDE " ++ (← identText)
  else return ""

/-- A column and its new name, in printed form. -/
def renamedColumn : Reader String := do
  let old ← identText
  keyword "AS"
  return old ++ " AS " ++ (← identText)

/-- The edits behind a star. -/
def wildcardEdits (r : Rules) : Reader (List Piece) := do
  let f := (← read).dialect.features
  let pattern ←
    if ← pure f.wildcardEdits <&&> keyword? "ILIKE" then
      match ← peek with
      | some (.string .plain s) => do
        advance
        pure (" ILIKE " ++ quoted '\'' s)
      | _ => expected "a pattern after ILIKE"
    else pure ""
  let excluded ← if f.wildcardExclude && pattern == "" then exclusion? else pure ""
  let excepted ←
    if ← pure f.wildcardExcept <&&> keyword? "EXCEPT" then do
      let cols ← if ← peekSymbol "(" then columnList false false else do pure [← ident]
      pure (" EXCEPT (" ++ commaSeparated (cols.map Ident.render) ++ ")")
    else pure ""
  let replaced ←
    if ← pure f.wildcardEdits <&&> keyword? "REPLACE" then do
      let items ← parens <| commaList do
        let e ← r.expr 0
        let word := if ← keyword? "AS" then " AS " else " "
        return [Piece.expr e, .text (word ++ (← identText))]
      pure (.text " REPLACE (" :: commaPieces items ++ [.text ")"])
    else pure []
  let renamed ←
    if ← pure f.wildcardEdits <&&> keyword? "RENAME" then
      if ← peekSymbol "(" then do
        let items ← parens (commaList renamedColumn)
        pure (" RENAME (" ++ commaSeparated items ++ ")")
      else do pure (" RENAME " ++ (← renamedColumn))
    else pure ""
  return .text (pattern ++ excluded ++ excepted) :: replaced ++ [.text renamed]

/-- An item of a projection. -/
def selectItem (r : Rules) : Reader SelectItem := do
  match ← starOrExpr r with
  | .inl star => return .wildcard (.text star :: (← wildcardEdits r))
  | .inr e =>
    match e, (← feature (·.equalsAlias)) with
    | .binary (.column [a]) .eq e, true => return .aliased e a
    | e, _ =>
      if isFrom e then expected "an expression"
      else
        match ← itemAlias? with
        | some a => return .aliased e a
        | none => return .expr e
where
  /-- Whether an expression is the bare word that must introduce the relations. -/
  isFrom : Expr → Bool
    | .column [⟨v, none⟩] => Text.sameName v "FROM"
    | _ => false

/-- Whether a list whose last comma is behind the reader ends here. -/
def endsList : Reader Bool := do
  let d := (← read).dialect
  match ← peek with
  | none => return true
  | some (.word _ _ k) => return (reservedForColumn d).contains k
  | some (.symbol s) => return [")", ";", "]", "\x7d"].contains s
  | some _ => return false

/-- The items of a projection. -/
def projection (r : Rules) : Reader (List SelectItem) := do
  let f := (← read).dialect.features
  if f.emptyProjection && (← peekKeyword "FROM") then return []
  else
    let first ← selectItem r
    let rest ← loop (fun acc => do
      if ← symbol? "," then
        if ← pure f.projectionTrailingComma <&&> endsList then return none
        else return some ((← selectItem r) :: acc)
      else return none) []
    return first :: rest.reverse

/-- Items of a projection as pieces. -/
def itemPieces (items : List SelectItem) : List Piece :=
  commaPieces (items.map one)
where
  /-- One item. -/
  one : SelectItem → List Piece
    | .expr e => [.expr e]
    | .aliased e name => [.expr e, .text (" AS " ++ name.render)]
    | .wildcard ps => ps

/-- The items behind a `RETURNING`, with the word. -/
def returning? (r : Rules) : Reader (List Piece) := do
  if ← keyword? "RETURNING" then
    return .text " RETURNING " :: itemPieces (← commaList (selectItem r))
  else return []

/-! ## The head of a block -/

/-- Whether equal rows are dropped. -/
def distinct? (r : Rules) : Reader (List Piece) := do
  let all ← keyword? "ALL"
  if ← keyword? "DISTINCT" then
    if all then expected "one of ALL and DISTINCT"
    else if ← keyword? "ON" then
      symbol "("
      let es ← commaListUntil ")" (r.expr 0)
      symbol ")"
      return .text " DISTINCT ON (" :: exprPieces es ++ [.text ")"]
    else return [.text " DISTINCT"]
  else return []

/-- The number of rows to keep. -/
def top? (r : Rules) : Reader (List Piece) := do
  if ← keyword? "TOP" then
    let quantity ←
      if ← peekSymbol "(" then do
        pure [.text " TOP (", .expr (← parens (r.expr 0)), .text ")"]
      else do pure [.text (" TOP " ++ (← wholeNumber))]
    let percent := optionalWord (← keyword? "PERCENT") " PERCENT"
    let ties := optionalWord (← keywords? ["WITH", "TIES"]) " WITH TIES"
    return quantity ++ [.text (percent ++ ties)]
  else return []

/-- The table that the rows go to, behind `INTO`. -/
def intoTable : Reader String := do
  let temporary := optionalWord (← keywordOf? ["TEMP", "TEMPORARY"]).isSome " TEMPORARY"
  let unlogged := optionalWord (← keyword? "UNLOGGED") " UNLOGGED"
  let table := optionalWord (← keyword? "TABLE") " TABLE"
  return " INTO" ++ temporary ++ unlogged ++ table ++ " " ++ (← nameText)

/-! ## Clauses of a block -/

/-- The views that unfold a column of the relations. -/
def lateralViews (r : Rules) : Reader (List Piece) :=
  loop (fun acc => do
    if ← keywords? ["LATERAL", "VIEW"] then
      let outer := optionalWord (← keyword? "OUTER") " OUTER"
      let e ← r.expr 0
      let n ← name
      let columns ←
        commaList (aliasExcept? ["WHERE", "GROUP", "CLUSTER", "HAVING", "LATERAL"])
      let columns := columns.filterMap (·.map Ident.render)
      return some (acc ++ [.text (" LATERAL VIEW" ++ outer ++ " "), .expr e,
        .text (" " ++ n.render ++ clause " AS " columns)])
    else return none) []

/-- Expressions between parentheses, or one without where `single` allows it. -/
def tuple (r : Rules) (single : Bool) : Reader (List Expr) := do
  if single && !(← peekSymbol "(") then return [← r.expr 0]
  else
    symbol "("
    let es ← commaListUntil ")" (r.expr 0)
    symbol ")"
    return es

/-- A tuple as pieces; `single` leaves out the parentheses around one expression. -/
def tuplePieces (single : Bool) (es : List Expr) : List Piece :=
  match single, es with
  | true, [e] => [.expr e]
  | _, es => .text "(" :: exprPieces es ++ [.text ")"]

/-- Sets of expressions to group by, after their word. -/
def groupingSets (r : Rules) (word : String) (single : Bool) : Reader (List Piece) := do
  let sets ← parens (commaList (tuple r (single || word != "GROUPING SETS")))
  let sets := sets.map (tuplePieces (word != "GROUPING SETS"))
  return .text (word ++ " (") :: commaPieces sets ++ [.text ")"]

/-- A member of a `GROUP BY`. -/
def groupItem (r : Rules) : Reader (List Piece) := do
  let structured ← feature (·.groupByExpr)
  if ← pure structured <&&> keywords? ["GROUPING", "SETS"] then groupingSets r "GROUPING SETS" false
  else if ← pure structured <&&> keyword? "CUBE" then groupingSets r "CUBE" true
  else if ← pure structured <&&> keyword? "ROLLUP" then groupingSets r "ROLLUP" true
  else if structured && (← peekSymbol "(") && (← peekAt 1) == some (.symbol ")") then
    modify (List.drop 2)
    return [.text "()"]
  else return [.expr (← r.expr 0)]

/-- The clause that groups the rows. -/
def groupBy? (r : Rules) : Reader (List Piece) := do
  if ← keywords? ["GROUP", "BY"] then
    let items ←
      if ← keyword? "ALL" then pure [.text "ALL"]
      else do pure (commaPieces (← commaList (groupItem r)))
    let totals ←
      if ← feature (·.groupByWith) then
        loop (fun s => do
          if ← keyword? "WITH" then
            let k ← keywordOf ["ROLLUP", "CUBE", "TOTALS"]
            return some (s ++ " WITH " ++ k)
          else return none) ""
      else pure ""
    let sets ←
      if ← keywords? ["GROUPING", "SETS"] then do
        pure (.text " " :: (← groupingSets r "GROUPING SETS" true))
      else pure []
    return .text " GROUP BY " :: items ++ .text totals :: sets
  else return []

/-- The named windows. -/
def windows (r : Rules) : Reader (List Piece) := do
  let items ← commaList do
    let n ← ident
    keyword "AS"
    let head := n.render ++ " AS "
    if ← symbol? "(" then return Piece.text (head ++ "(") :: (← windowSpec r) ++ [.text ")"]
    else if ← feature (·.windowAlias) then return [.text (head ++ (← identText))]
    else expected "("
  return .text " WINDOW " :: commaPieces items

/-- The named windows and the filter on them, in either order, and whether the windows come
first. -/
def windowsAndQualify (r : Rules) : Reader (List Piece × List Piece × Bool) := do
  if ← keyword? "WINDOW" then
    let ws ← windows r
    return (ws, ← wordExpr? r "QUALIFY", true)
  else
    match ← wordExpr? r "QUALIFY" with
    | [] => return ([], [], false)
    | q =>
      if ← keyword? "WINDOW" then return (← windows r, q, false) else return ([], q, false)

/-- The conditions that link the rows of a hierarchy. The start is printed first wherever it is
written. -/
def connectBy? (r : Rules) : Reader (List Piece) := do
  let links : Reader (List Piece) :=
    withReader (fun s => { s with connecting := true }) do
      return exprPieces (← commaList (r.expr 0))
  let form (start : Expr) (ls : List Piece) : List Piece :=
    .text " START WITH " :: .expr start :: .text " CONNECT BY " :: ls
  if ← feature (·.connectBy) then
    if ← peekKeyword "CONNECT" then
      keywords ["CONNECT", "BY"]
      let ls ← links
      keywords ["START", "WITH"]
      return form (← r.expr 0) ls
    else if ← peekKeyword "START" then
      keywords ["START", "WITH"]
      let start ← r.expr 0
      keywords ["CONNECT", "BY"]
      return form start (← links)
    else return []
  else return []

/-! ## The block -/

/-- A block of relations without a projection. -/
def fromOnly (sources : List JoinTree) : Select where
  form := .fromOnly
  distinct := []
  top := []
  projection := []
  into := ""
  sources := sources
  beforeWhere := []
  selection := none
  grouping := []
  windows := []
  qualify := []
  windowsFirst := false
  connect := []

/-- A select block from its projection on; `sources` are the relations that came before it. -/
def selectFrom (r : Rules) (sources : Option (List JoinTree)) : Reader Select := do
  keyword "SELECT"
  let distinct ← distinct? r
  let top ← top? r
  let items ← projection r
  let excluded ← if ← feature (·.wildcardExclude) then exclusion? else pure ""
  let into ← if ← keyword? "INTO" then intoTable else pure ""
  let (form, sources) ← match sources with
    | some ts => pure (SelectForm.fromFirst, ts)
    | none => do
      let ts ← behind? "FROM" (commaList (joinTree r))
      pure (.standard, ts.getD [])
  let views ← lateralViews r
  let early ← if ← feature (·.columnStore) then wordExpr? r "PREWHERE" else pure []
  let selection ← behind? "WHERE" (r.expr 0)
  let group ← groupBy? r
  let cluster ← listBehind? ["CLUSTER", "BY"] do return [.expr (← r.expr 0)]
  let distribute ← listBehind? ["DISTRIBUTE", "BY"] do return [.expr (← r.expr 0)]
  let sort ← listBehind? ["SORT", "BY"] (orderItem r)
  let having ← wordExpr? r "HAVING"
  let (ws, qualify, windowsFirst) ← windowsAndQualify r
  let connect ← connectBy? r
  return {
    form, distinct, top
    projection := items
    into := excluded ++ into
    sources
    beforeWhere := views ++ early
    selection
    grouping := group ++ cluster ++ distribute ++ sort ++ having
    windows := ws
    qualify, windowsFirst, connect }

/-- A select block. -/
def select (r : Rules) : Reader Select := do
  if ← feature (·.fromFirst) <&&> keyword? "FROM" then
    let sources ← commaList (joinTree r)
    if ← peekKeyword "SELECT" then selectFrom r (some sources) else return fromOnly sources
  else selectFrom r none

end Reader

end RowPolicy.Sql
