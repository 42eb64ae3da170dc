/-!
# The tree of a statement

A statement is kept by what a policy can read or change. Column references, constants, logical
operators, relations and their joins, the clauses of queries and of the three kinds of data change
have fields of their own. Everything else is a *phrase*: its words in printed form, with the
expressions and queries that stand between them kept as trees, so that no expression and no query
of a statement is out of reach.

The pieces of a phrase stand in printed order; `Piece.swapped` holds the few that are visited in
another order than they are printed.
-/

namespace RowPolicy.Sql

/-! ## Names, constants, operators -/

/-- A name with the quote it was written in. -/
structure Ident where
  value : String
  quote : Option Char
  deriving DecidableEq, Repr

/-- A name without quotes. -/
def Ident.plain (value : String) : Ident :=
  ⟨value, none⟩

/-- A dotted name. -/
abbrev Name := List Ident

/-- The last part of a dotted name, without its quotes. -/
def Name.last? (n : Name) : Option String :=
  n.getLast?.map Ident.value

/-- A constant. -/
inductive Literal where
  | null
  | boolean (b : Bool)
  /-- a number by its digits as written -/
  | number (digits : String)
  /-- a string constant by its content -/
  | text (content : String)
  /-- any other constant in its printed form -/
  | spelled (text : String)
  deriving DecidableEq, Repr

/-- An operator between two expressions; those that a policy tells apart or writes have a name. -/
inductive BinaryOp where
  | or
  | xor
  | and
  | eq
  | plus
  | other (spelling : String)
  deriving DecidableEq, Repr

/-- The name a relation is given; `columns` is the list of column names in printed form. -/
structure Alias where
  explicit : Bool
  name : Ident
  columns : String
  deriving DecidableEq, Repr

/-- The ways of joining a relation to those before it. -/
inductive JoinKind where
  | join
  | inner
  | left
  | leftOuter
  | right
  | rightOuter
  | full
  | cross
  | semi
  | leftSemi
  | rightSemi
  | anti
  | leftAnti
  | rightAnti
  | asOf
  | straight
  | crossApply
  | outerApply
  deriving DecidableEq, Repr

/-- Where a select block names its relations: after the projection, before it, or with no
projection at all. -/
inductive SelectForm where
  | standard
  | fromFirst
  | fromOnly
  deriving DecidableEq, Repr

/-- The word after the number of an `OFFSET`. -/
inductive OffsetUnit where
  | none
  | row
  | rows
  deriving DecidableEq, Repr

/-- A relation that is neither a table, nor a query, nor a nested join. -/
inductive RelationKind where
  | tableFunction
  | unnest
  | pivot
  | unpivot
  | other
  deriving DecidableEq, Repr

/-- What an assignment writes: a column, or several at once. -/
inductive AssignmentTarget where
  | column (name : Name)
  | tuple (names : List Name)
  deriving DecidableEq, Repr

/-! ## The tree -/

mutual

/-- An expression. -/
inductive Expr where
  /-- a column by its name, the qualifiers first -/
  | column (path : List Ident)
  | literal (l : Literal)
  | binary (left : Expr) (op : BinaryOp) (right : Expr)
  | isNull (e : Expr)
  /-- an expression between parentheses -/
  | nested (e : Expr)
  /-- a call: the name, then everything after it -/
  | call (name : Name) (rest : List Piece)
  | phrase (pieces : List Piece)

/-- A part of a phrase. -/
inductive Piece where
  | text (s : String)
  | expr (e : Expr)
  | query (q : Query)
  | relation (r : Relation)
  /-- two stretches of a phrase, printed in this order and visited in the other -/
  | swapped (first second : List Piece)

/-- A query: a body with the clauses that order and cut its rows. -/
structure Query where
  recursive : Bool
  ctes : List Cte
  body : Body
  /-- the `ORDER BY` clause, no piece when there is none -/
  orderBy : List Piece
  limit : Option LimitClause
  /-- the settings of the engine, no piece when there are none -/
  settings : List Piece
  fetch : Option Fetch
  /-- locks and output format, in printed form -/
  tail : String
  /-- the chained operators, no piece when there are none -/
  chain : List Piece

/-- A named query of a `WITH`. -/
structure Cte where
  name : Ident
  columns : String
  materialized : String
  query : Query
  origin : String

/-- The clause that cuts the rows of a query. -/
inductive LimitClause where
  | limitOffset (limit : Option Expr) (offset : Option Expr) (unit : OffsetUnit)
      (groups : List Piece)
  /-- `LIMIT offset, limit` -/
  | offsetComma (offset limit : Expr)

/-- `FETCH FIRST .. ROWS ONLY`. -/
structure Fetch where
  quantity : Option Expr
  percent : Bool
  withTies : Bool

/-- What a query consists of. -/
inductive Body where
  | select (s : Select)
  | query (q : Query)
  | setOperation (left : Body) (op : String) (right : Body)
  | values (keyword : String) (explicitRow : Bool) (rows : List (List Expr))
  | insert (i : Insertion)
  | update (u : Update)
  | delete (d : Deletion)
  | merge (pieces : List Piece)
  | table (schema : Option String) (name : String)

/-- A select block. -/
structure Select where
  form : SelectForm
  distinct : List Piece
  top : List Piece
  projection : List SelectItem
  into : String
  sources : List JoinTree
  /-- the clauses between the relations and `WHERE` -/
  beforeWhere : List Piece
  selection : Option Expr
  /-- `GROUP BY` to `HAVING` -/
  grouping : List Piece
  windows : List Piece
  qualify : List Piece
  windowsFirst : Bool
  connect : List Piece

/-- An item of a projection. -/
inductive SelectItem where
  | expr (e : Expr)
  | aliased (e : Expr) (name : Ident)
  | wildcard (pieces : List Piece)

/-- A relation with the relations joined to it, in textual order. -/
structure JoinTree where
  relation : Relation
  joins : List Join

/-- A join with its constraint: `ON`, the printed `USING` list, `NATURAL`, or none. -/
structure Join where
  isGlobal : Bool
  isNatural : Bool
  kind : JoinKind
  relation : Relation
  matching : Option Expr
  on : Option Expr
  columns : String

/-- What stands in a `FROM`. -/
inductive Relation where
  /-- a table by its name; `partition` and `ordinality` are in printed form -/
  | table (name : Name) (partition : String) (arguments : Option (List Piece))
      (ordinality : String) (naming : Option Alias) (after : List Piece)
  | derived (isLateral : Bool) (query : Query) (naming : Option Alias)
  | nested (tree : JoinTree) (naming : Option Alias)
  /-- a relation with a clause that turns it into another -/
  | transformed (kind : RelationKind) (source : Relation) (clause : List Piece)
      (naming : Option Alias)
  /-- any other relation; `suffix` is what stands behind its name in printed form -/
  | other (kind : RelationKind) (pieces : List Piece) (naming : Option Alias) (suffix : String)

/-- An `INSERT`. One with neither source nor assignments inserts default values. -/
structure Insertion where
  /-- the words before the target -/
  head : String
  table : Name
  /-- the alias of the table, in printed form -/
  naming : String
  columns : List Ident
  partition : List Piece
  source : Option Query
  assignments : List Assignment
  /-- the alias of the row to insert, in printed form -/
  rowAlias : String
  onConflict : List Piece
  returning : List Piece

/-- An `UPDATE`. -/
structure Update where
  head : String
  table : JoinTree
  sourcesFirst : Bool
  sources : List JoinTree
  assignments : List Assignment
  selection : Option Expr
  returning : List Piece
  limit : Option Expr

/-- A `DELETE`. -/
structure Deletion where
  tables : List Name
  fromKeyword : Bool
  sources : List JoinTree
  usingSources : Option (List JoinTree)
  selection : Option Expr
  returning : List Piece
  orderBy : List Piece
  limit : Option Expr

/-- One assignment of a `SET` list. -/
structure Assignment where
  target : AssignmentTarget
  value : Expr

end

/-- A query of a body alone. -/
def Query.ofBody (body : Body) : Query where
  recursive := false
  ctes := []
  body := body
  orderBy := []
  limit := none
  settings := []
  fetch := none
  tail := ""
  chain := []

/-- A statement. One that holds no rows to filter is kept in its printed form. -/
inductive Statement where
  | insert (i : Insertion)
  | update (u : Update)
  | delete (d : Deletion)
  | select (q : Query)
  | other (text : String)

/-- The kinds of statement that policies tell apart. -/
inductive StatementKind where
  | insert
  | update
  | delete
  | select
  | other
  deriving DecidableEq, Repr

namespace StatementKind

/-- The name of a kind in reports. -/
def name : StatementKind → String
  | .insert => "insert"
  | .update => "update"
  | .delete => "delete"
  | .select => "select"
  | .other => "other"

end StatementKind

/-- The kind of a statement. -/
def Statement.kind : Statement → StatementKind
  | .insert _ => .insert
  | .update _ => .update
  | .delete _ => .delete
  | .select _ => .select
  | .other _ => .other

end RowPolicy.Sql
