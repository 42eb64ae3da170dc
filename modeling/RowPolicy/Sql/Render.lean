import RowPolicy.Sql.Tree
import RowPolicy.Sql.Quoted

/-!
# A tree as text

Every tree has one printed form: a single line, keywords in capitals, one blank between words, a
comma and a blank between the members of a list. The pieces of a phrase carry their own blanks, so
a phrase is printed by joining them.
-/

namespace RowPolicy.Sql

/-- Texts with a comma and a blank between them. -/
def commaSeparated (ss : List String) : String :=
  ", ".intercalate ss

/-- A name in the quotes it was written in. -/
def Ident.render (i : Ident) : String :=
  match i.quote with
  | none => i.value
  | some '[' => "[" ++ i.value ++ "]"
  | some q => quoted q i.value

/-- A dotted name. -/
def Name.render (n : Name) : String :=
  ".".intercalate (n.map Ident.render)

theorem Name.render_singleton (i : Ident) : Name.render [i] = i.render := by
  simp [Name.render]

theorem Name.render_cons_cons (i j : Ident) (is : List Ident) :
    Name.render (i :: j :: is) = i.render ++ "." ++ Name.render (j :: is) := by
  simp [Name.render]

/-- A constant. -/
def Literal.render : Literal → String
  | .null => "NULL"
  | .boolean true => "true"
  | .boolean false => "false"
  | .number digits => digits
  | .text content => quoted '\'' content
  | .spelled s => s

/-- An operator. -/
def BinaryOp.render : BinaryOp → String
  | .or => "OR"
  | .xor => "XOR"
  | .and => "AND"
  | .eq => "="
  | .plus => "+"
  | .other s => s

/-- The name a relation is given, after a blank. -/
def Alias.render (a : Alias) : String :=
  (if a.explicit then " AS " else " ") ++ a.name.render ++ a.columns

/-- An optional alias. -/
def renderAlias : Option Alias → String
  | none => ""
  | some a => a.render

/-- The keywords of a join. -/
def JoinKind.render : JoinKind → String
  | .join => "JOIN"
  | .inner => "INNER JOIN"
  | .left => "LEFT JOIN"
  | .leftOuter => "LEFT OUTER JOIN"
  | .right => "RIGHT JOIN"
  | .rightOuter => "RIGHT OUTER JOIN"
  | .full => "FULL JOIN"
  | .cross => "CROSS JOIN"
  | .semi => "SEMI JOIN"
  | .leftSemi => "LEFT SEMI JOIN"
  | .rightSemi => "RIGHT SEMI JOIN"
  | .anti => "ANTI JOIN"
  | .leftAnti => "LEFT ANTI JOIN"
  | .rightAnti => "RIGHT ANTI JOIN"
  | .asOf => "ASOF JOIN"
  | .straight => "STRAIGHT_JOIN"
  | .crossApply => "CROSS APPLY"
  | .outerApply => "OUTER APPLY"

/-- The word after the number of an `OFFSET`. -/
def OffsetUnit.render : OffsetUnit → String
  | .none => ""
  | .row => " ROW"
  | .rows => " ROWS"

/-- What an assignment writes. -/
def AssignmentTarget.render : AssignmentTarget → String
  | .column n => n.render
  | .tuple ns => "(" ++ commaSeparated (ns.map Name.render) ++ ")"

/-- Words before a list that is left out when it is empty. -/
def clause (words : String) (items : List String) : String :=
  if items.isEmpty then "" else words ++ commaSeparated items

/-! ## Trees -/

mutual

/-- An expression. -/
def Expr.render : Expr → String
  | .column path => Name.render path
  | .literal l => l.render
  | .binary l op r => l.render ++ " " ++ op.render ++ " " ++ r.render
  | .isNull e => e.render ++ " IS NULL"
  | .nested e => "(" ++ e.render ++ ")"
  | .call name rest => Name.render name ++ renderPieces rest
  | .phrase ps => renderPieces ps

/-- One piece of a phrase. -/
def Piece.render : Piece → String
  | .text s => s
  | .expr e => e.render
  | .query q => q.render
  | .relation r => r.render
  | .swapped first second => renderPieces first ++ renderPieces second

/-- A phrase. -/
def renderPieces : List Piece → String
  | [] => ""
  | p :: ps => p.render ++ renderPieces ps

/-- A query. -/
def Query.render : Query → String
  | ⟨recursive, ctes, body, orderBy, limit, settings, fetch, tail, chain⟩ =>
    clause (if recursive then "WITH RECURSIVE " else "WITH ") (renderCtes ctes) ++
      (if ctes.isEmpty then "" else " ") ++ body.render ++ renderPieces orderBy ++
      renderLimit limit ++ renderPieces settings ++ renderFetch fetch ++ tail ++
      renderPieces chain

/-- A named query. -/
def Cte.render : Cte → String
  | ⟨name, columns, materialized, query, origin⟩ =>
    name.render ++ columns ++ " AS " ++ materialized ++ "(" ++ query.render ++ ")" ++ origin

/-- The named queries of a `WITH`, one text each. -/
def renderCtes : List Cte → List String
  | [] => []
  | c :: cs => c.render :: renderCtes cs

/-- An optional expression after some words. -/
def renderOptional (words : String) : Option Expr → String
  | none => ""
  | some e => words ++ e.render

/-- The clause that cuts the rows of a query. -/
def LimitClause.render : LimitClause → String
  | .limitOffset limit offset unit groups =>
    renderOptional " LIMIT " limit ++ renderOptional " OFFSET " offset ++ unit.render ++
      renderPieces groups
  | .offsetComma offset limit => " LIMIT " ++ offset.render ++ ", " ++ limit.render

/-- An optional clause that cuts the rows of a query. -/
def renderLimit : Option LimitClause → String
  | none => ""
  | some l => l.render

/-- A `FETCH` clause. -/
def Fetch.render : Fetch → String
  | ⟨quantity, percent, withTies⟩ =>
    " FETCH FIRST" ++ renderOptional " " quantity ++
      (if percent && quantity.isSome then " PERCENT" else "") ++ " ROWS " ++
      (if withTies then "WITH TIES" else "ONLY")

/-- An optional `FETCH` clause. -/
def renderFetch : Option Fetch → String
  | none => ""
  | some f => f.render

/-- The body of a query. -/
def Body.render : Body → String
  | .select s => s.render
  | .query q => "(" ++ q.render ++ ")"
  | .setOperation l op r => l.render ++ " " ++ op ++ " " ++ r.render
  | .values keyword explicitRow rows =>
    keyword ++ " " ++ commaSeparated (renderRows (if explicitRow then "ROW" else "") rows)
  | .insert i => i.render
  | .update u => u.render
  | .delete d => d.render
  | .merge ps => renderPieces ps
  | .table schema name => "TABLE " ++ (schema.map (· ++ ".")).getD "" ++ name

/-- Expressions, one text each. -/
def renderExprs : List Expr → List String
  | [] => []
  | e :: es => e.render :: renderExprs es

/-- Rows between parentheses, after the word `row`. -/
def renderRows (row : String) : List (List Expr) → List String
  | [] => []
  | r :: rs => (row ++ "(" ++ commaSeparated (renderExprs r) ++ ")") :: renderRows row rs

/-- An item of a projection. -/
def SelectItem.render : SelectItem → String
  | .expr e => e.render
  | .aliased e name => e.render ++ " AS " ++ name.render
  | .wildcard ps => renderPieces ps

/-- The items of a projection, one text each. -/
def renderItems : List SelectItem → List String
  | [] => []
  | i :: is => i.render :: renderItems is

/-- A select block. -/
def Select.render : Select → String
  | ⟨form, distinct, top, projection, into, sources, beforeWhere, selection, grouping,
      windows, qualify, windowsFirst, connect⟩ =>
    let relations := renderTrees sources
    let items := renderItems projection
    (match form with
      | .standard => "SELECT"
      | .fromFirst => "FROM " ++ commaSeparated relations ++ " SELECT"
      | .fromOnly => "FROM " ++ commaSeparated relations) ++
      renderPieces distinct ++ renderPieces top ++ clause " " items ++ into ++
      (if form = .standard then clause " FROM " relations else "") ++
      renderPieces beforeWhere ++ renderOptional " WHERE " selection ++ renderPieces grouping ++
      (if windowsFirst then renderPieces windows ++ renderPieces qualify
        else renderPieces qualify ++ renderPieces windows) ++
      renderPieces connect

/-- A relation with its joins. -/
def JoinTree.render : JoinTree → String
  | ⟨relation, joins⟩ => relation.render ++ renderJoins joins

/-- Relations with their joins, one text each. -/
def renderTrees : List JoinTree → List String
  | [] => []
  | t :: ts => t.render :: renderTrees ts

/-- A join, after a blank. -/
def Join.render : Join → String
  | ⟨isGlobal, isNatural, kind, relation, matching, on, columns⟩ =>
    " " ++ (if isGlobal then "GLOBAL " else "") ++ (if isNatural then "NATURAL " else "") ++
      kind.render ++ " " ++ relation.render ++ renderOptional " MATCH_CONDITION (" matching ++
      (if matching.isSome then ")" else "") ++ renderOptional " ON " on ++ columns

/-- The joins after a relation. -/
def renderJoins : List Join → String
  | [] => ""
  | j :: js => j.render ++ renderJoins js

/-- A relation. -/
def Relation.render : Relation → String
  | .table name partition arguments ordinality naming after =>
    Name.render name ++ partition ++ renderArguments arguments ++ ordinality ++
      renderAlias naming ++ renderPieces after
  | .derived isLateral query naming =>
    (if isLateral then "LATERAL (" else "(") ++ query.render ++ ")" ++ renderAlias naming
  | .nested tree naming => "(" ++ tree.render ++ ")" ++ renderAlias naming
  | .transformed _ source ps naming => source.render ++ renderPieces ps ++ renderAlias naming
  | .other _ ps naming suffix => renderPieces ps ++ renderAlias naming ++ suffix

/-- The arguments of a table. -/
def renderArguments : Option (List Piece) → String
  | none => ""
  | some ps => renderPieces ps

/-- An optional query. -/
def renderSource : Option Query → String
  | none => ""
  | some q => q.render

/-- An insertion. -/
def Insertion.render : Insertion → String
  | ⟨head, table, naming, columns, partition, source, assignments, rowAlias, onConflict,
      returning⟩ =>
    head ++ " " ++ Name.render table ++ naming ++ " " ++
      (if columns.isEmpty then ""
        else "(" ++ commaSeparated (columns.map Ident.render) ++ ") ") ++
      renderPieces partition ++
      (if source.isSome then renderSource source
        else if !assignments.isEmpty then "SET " ++ commaSeparated (renderAssignments assignments)
        else if columns.isEmpty then "DEFAULT VALUES" else "") ++
      rowAlias ++ renderPieces onConflict ++ renderPieces returning

/-- An assignment. -/
def Assignment.render : Assignment → String
  | ⟨target, value⟩ => target.render ++ " = " ++ value.render

/-- Assignments, one text each. -/
def renderAssignments : List Assignment → List String
  | [] => []
  | a :: as => a.render :: renderAssignments as

/-- An update. -/
def Update.render : Update → String
  | ⟨head, table, sourcesFirst, sources, assignments, selection, returning, limit⟩ =>
    let from' := clause " FROM " (renderTrees sources)
    head ++ " " ++ table.render ++ (if sourcesFirst then from' else "") ++
      clause " SET " (renderAssignments assignments) ++ (if sourcesFirst then "" else from') ++
      renderOptional " WHERE " selection ++ renderPieces returning ++
      renderOptional " LIMIT " limit

/-- A deletion. -/
def Deletion.render : Deletion → String
  | ⟨tables, fromKeyword, sources, usingSources, selection, returning, orderBy, limit⟩ =>
    "DELETE" ++ clause " " (tables.map Name.render) ++ (if fromKeyword then " FROM " else " ") ++
      commaSeparated (renderTrees sources) ++ renderUsing usingSources ++
      renderOptional " WHERE " selection ++ renderPieces returning ++ renderPieces orderBy ++
      renderOptional " LIMIT " limit

/-- The relations of a `USING`. -/
def renderUsing : Option (List JoinTree) → String
  | none => ""
  | some ts => " USING " ++ commaSeparated (renderTrees ts)

end

/-- A statement. -/
def Statement.render : Statement → String
  | .insert i => i.render
  | .update u => u.render
  | .delete d => d.render
  | .select q => q.render
  | .other s => s

end RowPolicy.Sql
