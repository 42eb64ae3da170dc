import RowPolicy.Proofs.Blocks.NamedQueries

/-!
# Where a statement uses tables

A statement uses tables in its select blocks, in its insertions, updates and deletions, in queries
that are a table by its name, and in relations that stand in a phrase, such as those of a `MERGE`.
`Statement.uses` lists all of these sites with their places, the sites inside of one before it.
-/

namespace RowPolicy.Sql

/-- A part of a statement that uses tables. -/
inductive Site where
  | select (b : Select)
  | insert (i : Insertion)
  | update (u : Update)
  | delete (d : Deletion)
  /-- a query that is a table -/
  | table (schema : Option String) (name : String)
  /-- a relation in a phrase -/
  | relation (r : Relation)

/-- A site at its place. -/
structure Use where
  place : Place
  site : Site

/-- A use in the settings or the chained operators of a query. -/
def Use.setAside (u : Use) : Use :=
  ⟨u.place.toSide, u.site⟩

mutual

/-- The uses in an expression. -/
def Expr.uses (p : Place) : Expr → List Use
  | .column _ => []
  | .literal _ => []
  | .binary l _ r => l.uses p ++ r.uses p
  | .isNull e => e.uses p
  | .nested e => e.uses p
  | .call _ rest => usesPieces p rest
  | .phrase ps => usesPieces p ps

/-- The uses in a piece. -/
def Piece.uses (p : Place) : Piece → List Use
  | .text _ => []
  | .expr e => e.uses p
  | .query q => q.uses p
  | .relation r => r.uses p ++ [⟨p, .relation r⟩]
  | .swapped first second => usesPieces p second ++ usesPieces p first

/-- The uses in a phrase. -/
def usesPieces (p : Place) : List Piece → List Use
  | [] => []
  | r :: ps => r.uses p ++ usesPieces p ps

/-- The uses in an optional expression. -/
def usesOption (p : Place) : Option Expr → List Use
  | none => []
  | some e => e.uses p

/-- The uses in expressions. -/
def usesExprs (p : Place) : List Expr → List Use
  | [] => []
  | e :: es => e.uses p ++ usesExprs p es

/-- The uses in rows. -/
def usesRows (p : Place) : List (List Expr) → List Use
  | [] => []
  | r :: rs => usesExprs p r ++ usesRows p rs

/-- The uses in a query. -/
def Query.uses (p : Place) : Query → List Use
  | ⟨recursive, ctes, body, orderBy, limit, settings, fetch, _, chain⟩ =>
    let inner := p.enter ⟨recursive, cteNames ctes, none⟩
    usesCtes p recursive (cteNames ctes) 0 ctes ++ (body.uses inner ++ (usesPieces inner orderBy ++
      (usesLimit inner limit ++ (usesFetch inner fetch ++
        (usesPieces inner settings ++ usesPieces inner chain).map Use.setAside))))

/-- The uses in named queries, the first of them at position `k` of a `WITH`. -/
def usesCtes (p : Place) (recursive : Bool) (names : List String) (k : Nat) : List Cte → List Use
  | [] => []
  | ⟨_, _, _, query, _⟩ :: cs =>
    query.uses (p.enter ⟨recursive, names, some k⟩) ++ usesCtes p recursive names (k + 1) cs

/-- The uses in the clause that cuts the rows. -/
def usesLimit (p : Place) : Option LimitClause → List Use
  | none => []
  | some (.limitOffset limit offset _ groups) =>
    usesOption p limit ++ (usesOption p offset ++ usesPieces p groups)
  | some (.offsetComma offset limit) => offset.uses p ++ limit.uses p

/-- The uses in the clause that fetches the first rows. -/
def usesFetch (p : Place) : Option Fetch → List Use
  | none => []
  | some ⟨quantity, _, _⟩ => usesOption p quantity

/-- The uses in a body. -/
def Body.uses (p : Place) : Body → List Use
  | .select b => b.uses p ++ [⟨p, .select b⟩]
  | .query q => q.uses p
  | .setOperation l _ r => l.uses p ++ r.uses p
  | .values _ _ rows => usesRows p rows
  | .insert i => i.uses p ++ [⟨p, .insert i⟩]
  | .update u => u.uses p ++ [⟨p, .update u⟩]
  | .delete d => d.uses p ++ [⟨p, .delete d⟩]
  | .merge ps => usesPieces p ps
  | .table schema name => [⟨p, .table schema name⟩]

/-- The uses inside of a select block. -/
def Select.uses (p : Place) : Select → List Use
  | ⟨_, distinct, top, projection, _, sources, beforeWhere, selection, grouping, windows, qualify,
      _, connect⟩ =>
    usesPieces p distinct ++ (usesPieces p top ++ (usesItems p projection ++
      (usesTrees p sources ++ (usesPieces p beforeWhere ++ (usesOption p selection ++
        (usesPieces p grouping ++ (usesPieces p windows ++ (usesPieces p qualify ++
          usesPieces p connect))))))))

/-- The uses in the items of a projection. -/
def usesItems (p : Place) : List SelectItem → List Use
  | [] => []
  | .expr e :: is => e.uses p ++ usesItems p is
  | .aliased e _ :: is => e.uses p ++ usesItems p is
  | .wildcard ps :: is => usesPieces p ps ++ usesItems p is

/-- The uses inside of a tree of joins. -/
def JoinTree.uses (p : Place) : JoinTree → List Use
  | ⟨relation, joins⟩ => relation.uses p ++ usesJoins p joins

/-- The uses inside of trees of joins. -/
def usesTrees (p : Place) : List JoinTree → List Use
  | [] => []
  | t :: ts => t.uses p ++ usesTrees p ts

/-- The uses inside of joins. -/
def usesJoins (p : Place) : List Join → List Use
  | [] => []
  | ⟨_, _, _, relation, matching, on, _⟩ :: js =>
    relation.uses p ++ (usesOption p matching ++ (usesOption p on ++ usesJoins p js))

/-- The uses inside of a relation. -/
def Relation.uses (p : Place) : Relation → List Use
  | .table _ _ arguments _ _ after => usesArguments p arguments ++ usesPieces p after
  | .derived _ query _ => query.uses p
  | .nested tree _ => tree.uses p
  | .transformed _ source ps _ => source.uses p ++ usesPieces p ps
  | .other _ ps _ _ => usesPieces p ps

/-- The uses in the arguments of a table. -/
def usesArguments (p : Place) : Option (List Piece) → List Use
  | none => []
  | some ps => usesPieces p ps

/-- The uses in an optional query. -/
def usesSource (p : Place) : Option Query → List Use
  | none => []
  | some q => q.uses p

/-- The uses inside of an insertion. -/
def Insertion.uses (p : Place) : Insertion → List Use
  | ⟨_, _, _, _, partition, source, assignments, _, onConflict, returning⟩ =>
    usesSource p source ++ (usesAssignments p assignments ++ (usesPieces p partition ++
      (usesPieces p onConflict ++ usesPieces p returning)))

/-- The uses in assignments. -/
def usesAssignments (p : Place) : List Assignment → List Use
  | [] => []
  | ⟨_, value⟩ :: as => value.uses p ++ usesAssignments p as

/-- The uses inside of an update. -/
def Update.uses (p : Place) : Update → List Use
  | ⟨_, table, _, sources, assignments, selection, returning, limit⟩ =>
    table.uses p ++ (usesAssignments p assignments ++ (usesTrees p sources ++
      (usesOption p selection ++ (usesPieces p returning ++ usesOption p limit))))

/-- The uses inside of a deletion. -/
def Deletion.uses (p : Place) : Deletion → List Use
  | ⟨_, _, sources, usingSources, selection, returning, orderBy, limit⟩ =>
    usesTrees p sources ++ (usesUsing p usingSources ++ (usesOption p selection ++
      (usesPieces p returning ++ (usesPieces p orderBy ++ usesOption p limit))))

/-- The uses inside of the relations of a `USING`. -/
def usesUsing (p : Place) : Option (List JoinTree) → List Use
  | none => []
  | some ts => usesTrees p ts

end

theorem usesExprs_append (p : Place) (es es' : List Expr) :
    usesExprs p (es ++ es') = usesExprs p es ++ usesExprs p es' := by
  induction es with
  | nil => rfl
  | cons e es ih => simp only [List.cons_append, usesExprs, ih, List.append_assoc]

theorem usesItems_append (p : Place) (is is' : List SelectItem) :
    usesItems p (is ++ is') = usesItems p is ++ usesItems p is' := by
  induction is with
  | nil => rfl
  | cons i is ih => cases i <;> simp only [List.cons_append, usesItems, ih, List.append_assoc]

theorem usesAssignments_append (p : Place) (as as' : List Assignment) :
    usesAssignments p (as ++ as') = usesAssignments p as ++ usesAssignments p as' := by
  induction as with
  | nil => rfl
  | cons a as ih =>
    cases a
    simp only [List.cons_append, usesAssignments, ih, List.append_assoc]

/-- The uses of tables in a statement. -/
def Statement.uses : Statement → List Use
  | .insert i => i.uses .outermost ++ [⟨.outermost, .insert i⟩]
  | .update u => u.uses .outermost ++ [⟨.outermost, .update u⟩]
  | .delete d => d.uses .outermost ++ [⟨.outermost, .delete d⟩]
  | .select q => q.uses .outermost
  | .other _ => []

/-! ## Names of the tables -/

mutual

/-- The tables that a tree of joins names, in order, with their aliases. -/
def JoinTree.named : JoinTree → List (Name × Option Alias)
  | ⟨relation, joins⟩ => relation.named ++ joinsNamed joins

/-- The tables that joins name. -/
def joinsNamed : List Join → List (Name × Option Alias)
  | [] => []
  | ⟨_, _, _, relation, _, _, _⟩ :: js => relation.named ++ joinsNamed js

/-- The tables that a relation names. -/
def Relation.named : Relation → List (Name × Option Alias)
  | .table name _ _ _ naming _ => [(name, naming)]
  | .derived _ _ _ => []
  | .nested tree _ => tree.named
  | .transformed _ source _ _ => source.named
  | .other _ _ _ _ => []

end

/-- The tables that the trees of a `FROM` name. -/
def treesNamed (ts : List JoinTree) : List (Name × Option Alias) :=
  ts.flatMap (·.named)

/-- The tables that a site names. -/
def Site.named : Site → List (Name × Option Alias)
  | .select b => treesNamed b.sources
  | .insert i => [(i.table, none)]
  | .update u => treesNamed (u.table :: u.sources)
  | .delete d => treesNamed (d.sources ++ d.usingSources.getD [])
  | .table schema name => [((schema.toList ++ [name]).map .plain, none)]
  | .relation r => r.named

end RowPolicy.Sql
