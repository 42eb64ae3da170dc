import RowPolicy.Sql.Scope

/-!
# The select blocks of a statement

`mapBlocks` hands the select blocks of a tree to an effectful function, with the names of the
queries that can be meant there, and puts the answer in its place. A block is handed over after the
blocks inside of it, and what the function answers is not looked into, so each block is handed over
once and no block that an answer brings in ever is. The settings and the chained operators of a
query are not looked into either.
-/

namespace RowPolicy.Sql

variable {m : Type → Type} [Monad m]

/-- The names of named queries. -/
def cteNames (cs : List Cte) : List String :=
  cs.map (·.name.value)

mutual

/-- The blocks of an expression. -/
def Expr.mapBlocks (f : Scope → Select → m Select) (s : Scope) : Expr → m Expr
  | .column path => return .column path
  | .literal l => return .literal l
  | .binary l op r => return .binary (← l.mapBlocks f s) op (← r.mapBlocks f s)
  | .isNull e => return .isNull (← e.mapBlocks f s)
  | .nested e => return .nested (← e.mapBlocks f s)
  | .call name rest => return .call name (← mapBlocksPieces f s rest)
  | .phrase ps => return .phrase (← mapBlocksPieces f s ps)

/-- The blocks of a piece. -/
def Piece.mapBlocks (f : Scope → Select → m Select) (s : Scope) : Piece → m Piece
  | .text t => return .text t
  | .expr e => return .expr (← e.mapBlocks f s)
  | .query q => return .query (← q.mapBlocks f s)
  | .relation r => return .relation (← r.mapBlocks f s)
  | .swapped first second => do
    let second ← mapBlocksPieces f s second
    return .swapped (← mapBlocksPieces f s first) second

/-- The blocks of a phrase. -/
def mapBlocksPieces (f : Scope → Select → m Select) (s : Scope) : List Piece → m (List Piece)
  | [] => return []
  | p :: ps => return (← p.mapBlocks f s) :: (← mapBlocksPieces f s ps)

/-- The blocks of an optional expression. -/
def mapBlocksOption (f : Scope → Select → m Select) (s : Scope) : Option Expr → m (Option Expr)
  | none => return none
  | some e => return some (← e.mapBlocks f s)

/-- The blocks of expressions. -/
def mapBlocksExprs (f : Scope → Select → m Select) (s : Scope) : List Expr → m (List Expr)
  | [] => return []
  | e :: es => return (← e.mapBlocks f s) :: (← mapBlocksExprs f s es)

/-- The blocks of rows. -/
def mapBlocksRows (f : Scope → Select → m Select) (s : Scope) :
    List (List Expr) → m (List (List Expr))
  | [] => return []
  | r :: rs => return (← mapBlocksExprs f s r) :: (← mapBlocksRows f s rs)

/-- The blocks of a query. Its named queries can be meant everywhere in it, their own bodies
included. -/
def Query.mapBlocks (f : Scope → Select → m Select) (s : Scope) : Query → m Query
  | ⟨recursive, ctes, body, orderBy, limit, settings, fetch, tail, chain⟩ => do
    let s := s.declare (cteNames ctes)
    let ctes ← mapBlocksCtes f s ctes
    let body ← body.mapBlocks f s
    let orderBy ← mapBlocksPieces f s orderBy
    let limit ← mapBlocksLimit f s limit
    let fetch ← mapBlocksFetch f s fetch
    return ⟨recursive, ctes, body, orderBy, limit, settings, fetch, tail, chain⟩

/-- The blocks of named queries. -/
def mapBlocksCtes (f : Scope → Select → m Select) (s : Scope) : List Cte → m (List Cte)
  | [] => return []
  | ⟨name, columns, materialized, query, origin⟩ :: cs => do
    let query ← query.mapBlocks f s
    return ⟨name, columns, materialized, query, origin⟩ :: (← mapBlocksCtes f s cs)

/-- The blocks of the clause that cuts the rows. -/
def mapBlocksLimit (f : Scope → Select → m Select) (s : Scope) :
    Option LimitClause → m (Option LimitClause)
  | none => return none
  | some (.limitOffset limit offset unit groups) => do
    let limit ← mapBlocksOption f s limit
    let offset ← mapBlocksOption f s offset
    return some (.limitOffset limit offset unit (← mapBlocksPieces f s groups))
  | some (.offsetComma offset limit) => do
    let offset ← offset.mapBlocks f s
    return some (.offsetComma offset (← limit.mapBlocks f s))

/-- The blocks of the clause that fetches the first rows. -/
def mapBlocksFetch (f : Scope → Select → m Select) (s : Scope) : Option Fetch → m (Option Fetch)
  | none => return none
  | some ⟨quantity, percent, withTies⟩ =>
    return some ⟨← mapBlocksOption f s quantity, percent, withTies⟩

/-- The blocks of a body. -/
def Body.mapBlocks (f : Scope → Select → m Select) (s : Scope) : Body → m Body
  | .select b => return .select (← b.mapBlocks f s)
  | .query q => return .query (← q.mapBlocks f s)
  | .setOperation l op r => return .setOperation (← l.mapBlocks f s) op (← r.mapBlocks f s)
  | .values keyword explicitRow rows =>
    return .values keyword explicitRow (← mapBlocksRows f s rows)
  | .insert i => return .insert (← i.mapBlocks f s)
  | .update u => return .update (← u.mapBlocks f s)
  | .delete d => return .delete (← d.mapBlocks f s)
  | .merge ps => return .merge (← mapBlocksPieces f s ps)
  | .table schema name => return .table schema name

/-- A select block: the blocks inside of it, then itself. -/
def Select.mapBlocks (f : Scope → Select → m Select) (s : Scope) : Select → m Select
  | ⟨form, distinct, top, projection, into, sources, beforeWhere, selection, grouping, windows,
      qualify, windowsFirst, connect⟩ => do
    let distinct ← mapBlocksPieces f s distinct
    let top ← mapBlocksPieces f s top
    let projection ← mapBlocksItems f s projection
    let sources ← mapBlocksTrees f s sources
    let beforeWhere ← mapBlocksPieces f s beforeWhere
    let selection ← mapBlocksOption f s selection
    let grouping ← mapBlocksPieces f s grouping
    let windows ← mapBlocksPieces f s windows
    let qualify ← mapBlocksPieces f s qualify
    let connect ← mapBlocksPieces f s connect
    f s ⟨form, distinct, top, projection, into, sources, beforeWhere, selection, grouping, windows,
      qualify, windowsFirst, connect⟩

/-- The blocks of the items of a projection. -/
def mapBlocksItems (f : Scope → Select → m Select) (s : Scope) :
    List SelectItem → m (List SelectItem)
  | [] => return []
  | .expr e :: is => return .expr (← e.mapBlocks f s) :: (← mapBlocksItems f s is)
  | .aliased e name :: is =>
    return .aliased (← e.mapBlocks f s) name :: (← mapBlocksItems f s is)
  | .wildcard ps :: is => return .wildcard (← mapBlocksPieces f s ps) :: (← mapBlocksItems f s is)

/-- The blocks of a tree of joins. -/
def JoinTree.mapBlocks (f : Scope → Select → m Select) (s : Scope) : JoinTree → m JoinTree
  | ⟨relation, joins⟩ => return ⟨← relation.mapBlocks f s, ← mapBlocksJoins f s joins⟩

/-- The blocks of trees of joins. -/
def mapBlocksTrees (f : Scope → Select → m Select) (s : Scope) :
    List JoinTree → m (List JoinTree)
  | [] => return []
  | t :: ts => return (← t.mapBlocks f s) :: (← mapBlocksTrees f s ts)

/-- The blocks of joins. -/
def mapBlocksJoins (f : Scope → Select → m Select) (s : Scope) : List Join → m (List Join)
  | [] => return []
  | ⟨isGlobal, isNatural, kind, relation, matching, on, columns⟩ :: js => do
    let relation ← relation.mapBlocks f s
    let matching ← mapBlocksOption f s matching
    let on ← mapBlocksOption f s on
    return ⟨isGlobal, isNatural, kind, relation, matching, on, columns⟩ ::
      (← mapBlocksJoins f s js)

/-- The blocks of a relation. -/
def Relation.mapBlocks (f : Scope → Select → m Select) (s : Scope) : Relation → m Relation
  | .table name partition arguments ordinality naming after => do
    let arguments ← mapBlocksArguments f s arguments
    return .table name partition arguments ordinality naming (← mapBlocksPieces f s after)
  | .derived isLateral query naming => return .derived isLateral (← query.mapBlocks f s) naming
  | .nested tree naming => return .nested (← tree.mapBlocks f s) naming
  | .transformed kind source ps naming =>
    return .transformed kind (← source.mapBlocks f s) (← mapBlocksPieces f s ps) naming
  | .other kind ps naming suffix => return .other kind (← mapBlocksPieces f s ps) naming suffix

/-- The blocks of the arguments of a table. -/
def mapBlocksArguments (f : Scope → Select → m Select) (s : Scope) :
    Option (List Piece) → m (Option (List Piece))
  | none => return none
  | some ps => return some (← mapBlocksPieces f s ps)

/-- The blocks of an optional query. -/
def mapBlocksSource (f : Scope → Select → m Select) (s : Scope) : Option Query → m (Option Query)
  | none => return none
  | some q => return some (← q.mapBlocks f s)

/-- The blocks of an insertion. -/
def Insertion.mapBlocks (f : Scope → Select → m Select) (s : Scope) : Insertion → m Insertion
  | ⟨head, table, naming, columns, partition, source, assignments, rowAlias, onConflict,
      returning⟩ => do
    let source ← mapBlocksSource f s source
    let assignments ← mapBlocksAssignments f s assignments
    let partition ← mapBlocksPieces f s partition
    let onConflict ← mapBlocksPieces f s onConflict
    let returning ← mapBlocksPieces f s returning
    return ⟨head, table, naming, columns, partition, source, assignments, rowAlias, onConflict,
      returning⟩

/-- The blocks of assignments. -/
def mapBlocksAssignments (f : Scope → Select → m Select) (s : Scope) :
    List Assignment → m (List Assignment)
  | [] => return []
  | ⟨target, value⟩ :: as =>
    return ⟨target, ← value.mapBlocks f s⟩ :: (← mapBlocksAssignments f s as)

/-- The blocks of an update. -/
def Update.mapBlocks (f : Scope → Select → m Select) (s : Scope) : Update → m Update
  | ⟨head, table, sourcesFirst, sources, assignments, selection, returning, limit⟩ => do
    let table ← table.mapBlocks f s
    let assignments ← mapBlocksAssignments f s assignments
    let sources ← mapBlocksTrees f s sources
    let selection ← mapBlocksOption f s selection
    let returning ← mapBlocksPieces f s returning
    let limit ← mapBlocksOption f s limit
    return ⟨head, table, sourcesFirst, sources, assignments, selection, returning, limit⟩

/-- The blocks of a deletion. -/
def Deletion.mapBlocks (f : Scope → Select → m Select) (s : Scope) : Deletion → m Deletion
  | ⟨tables, fromKeyword, sources, usingSources, selection, returning, orderBy, limit⟩ => do
    let sources ← mapBlocksTrees f s sources
    let usingSources ← mapBlocksUsing f s usingSources
    let selection ← mapBlocksOption f s selection
    let returning ← mapBlocksPieces f s returning
    let orderBy ← mapBlocksPieces f s orderBy
    let limit ← mapBlocksOption f s limit
    return ⟨tables, fromKeyword, sources, usingSources, selection, returning, orderBy, limit⟩

/-- The blocks of the relations of a `USING`. -/
def mapBlocksUsing (f : Scope → Select → m Select) (s : Scope) :
    Option (List JoinTree) → m (Option (List JoinTree))
  | none => return none
  | some ts => return some (← mapBlocksTrees f s ts)

end

end RowPolicy.Sql
