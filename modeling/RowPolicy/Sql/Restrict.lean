import RowPolicy.Error
import RowPolicy.Sql.Scope

/-!
# Restricting the tables of a block

A block is restricted by asking for a predicate for each table it reads, in textual order. The
predicate of a table goes to the nearest `ON` around the table: that of the join that brings it in,
or of a join around the nested one that it heads or is brought in by without an `ON`. With none
around it, the predicate goes to `WHERE`. A table that an outer join without `ON` brings in has no
such place; a strict caller then gets an error, and any other loses the predicate.

Relations that are no tables are passed over, or are an error where the caller is strict.
-/

namespace RowPolicy.Sql

variable {m : Type → Type} [Monad m] [MonadExceptOf PolicyError m]

/-- How the tables of a block are restricted: the named queries that are no tables, whether
relations without a predicate are an error, whether columns are qualified by the names of tables,
and the predicate for a table, given the one it will stand behind. -/
structure Restriction (m : Type → Type) where
  scope : Scope
  strict : Bool
  qualify : Bool
  predicate : Target → Option Expr → m (Option Expr)

/-- An error where the caller is strict. -/
def unsupported (strict : Bool) (construct fragment : String) : m Unit :=
  if strict then throw (.unsupported construct fragment) else pure ()

/-- Whether a join without `ON` yields only rows that have a part on either side, so that a
condition on one side may stand outside the join. -/
def JoinKind.isInner : JoinKind → Bool
  | .join | .inner | .cross | .straight | .crossApply => true
  | _ => false

/-- The name of a kind of relation in messages. -/
def RelationKind.label : RelationKind → String
  | .tableFunction => "table function"
  | .unnest => "UNNEST"
  | .pivot => "PIVOT"
  | .unpivot => "UNPIVOT"
  | .other => "table factor"

/-- The base table that a name denotes, if it denotes one. -/
def Scope.baseTable? (s : Scope) (name : Name) : Option String := do
  let table ← Name.last? name
  if name.length = 1 && s.isCte table then none else some table

/-- The predicate for a table. -/
def Restriction.ofTable (w : Restriction m) (existing : Option Expr) (name : Name)
    (naming : Option Alias) (fragment : String) : m (List Expr) :=
  match w.scope.baseTable? name with
  | none => return []
  | some table =>
    return (← w.predicate ⟨table, qualifierOf naming table w.qualify, fragment⟩ existing).toList

mutual

/-- A tree of joins with its tables restricted, and the predicates that go outside of it. -/
def JoinTree.restrict (w : Restriction m) (existing : Option Expr) :
    JoinTree → m (JoinTree × List Expr)
  | ⟨relation, joins⟩ => do
    let (relation, ps) ← relation.restrict w existing
    let (joins, qs) ← restrictJoins w existing joins
    return (⟨relation, joins⟩, ps ++ qs)

/-- Joins with their tables restricted, and the predicates that go outside of them. -/
def restrictJoins (w : Restriction m) (existing : Option Expr) :
    List Join → m (List Join × List Expr)
  | [] => return ([], [])
  | j :: js => do
    let (j, ps) ← j.restrict w existing
    let (js, qs) ← restrictJoins w existing js
    return (j :: js, ps ++ qs)

/-- A join with its tables restricted, and the predicates that go outside of it. -/
def Join.restrict (w : Restriction m) (existing : Option Expr) : Join → m (Join × List Expr)
  | ⟨isGlobal, isNatural, kind, relation, matching, some on, columns⟩ => do
    let (relation, ps) ← relation.restrict w (some on)
    let on := Expr.conjoinAll (some on) ps
    return (⟨isGlobal, isNatural, kind, relation, matching, on, columns⟩, [])
  | ⟨isGlobal, isNatural, kind, relation, matching, none, columns⟩ => do
    let (relation, ps) ← relation.restrict w (if kind.isInner then existing else none)
    let join := ⟨isGlobal, isNatural, kind, relation, matching, none, columns⟩
    if kind.isInner then return (join, ps)
    else
      unless ps.isEmpty do unsupported w.strict "outer join without ON" relation.render
      return (join, [])

/-- A relation with its tables restricted, and the predicates that go outside of it. -/
def Relation.restrict (w : Restriction m) (existing : Option Expr) :
    Relation → m (Relation × List Expr)
  | .nested tree naming => do
    let (tree, ps) ← tree.restrict w existing
    return (.nested tree naming, ps)
  | .table name partition arguments ordinality naming after => do
    let r := Relation.table name partition arguments ordinality naming after
    if arguments.isSome then
      unsupported w.strict "table-valued function" r.render
      return (r, [])
    else return (r, ← w.ofTable existing name naming r.render)
  | .derived isLateral query naming => return (.derived isLateral query naming, [])
  | .transformed kind source clause naming => do
    let r := Relation.transformed kind source clause naming
    unsupported w.strict kind.label r.render
    return (r, [])
  | .other kind pieces naming suffix => do
    let r := Relation.other kind pieces naming suffix
    unsupported w.strict kind.label r.render
    return (r, [])

end

/-- Trees of joins with their tables restricted, and the predicates that go outside of them. -/
def restrictTrees (w : Restriction m) (existing : Option Expr) :
    List JoinTree → m (List JoinTree × List Expr)
  | [] => return ([], [])
  | t :: ts => do
    let (t, ps) ← t.restrict w existing
    let (ts, qs) ← restrictTrees w existing ts
    return (t :: ts, ps ++ qs)

/-! ## Blocks -/

/-- A select block with its tables restricted. -/
def Select.restrict (strict : Bool) (scope : Scope)
    (predicate : Target → Option Expr → m (Option Expr)) (s : Select) : m Select := do
  let w : Restriction m := ⟨scope, strict, 1 < treesSize s.sources, predicate⟩
  let (sources, ps) ← restrictTrees w s.selection s.sources
  return { s with sources, selection := Expr.conjoinAll s.selection ps }

/-- An update with its tables restricted. -/
def Update.restrict (strict : Bool) (predicate : Target → Option Expr → m (Option Expr))
    (u : Update) : m Update := do
  let several := 1 < u.table.size + treesSize u.sources
  let w : Restriction m := ⟨.empty, strict, several, predicate⟩
  let (table, ps) ← u.table.restrict w u.selection
  let (sources, qs) ← restrictTrees w u.selection u.sources
  return { u with table, sources, selection := Expr.conjoinAll u.selection (ps ++ qs) }

/-- A deletion with its tables restricted. -/
def Deletion.restrict (strict : Bool) (predicate : Target → Option Expr → m (Option Expr))
    (d : Deletion) : m Deletion := do
  let several := 1 < treesSize d.sources + treesSize (d.usingSources.getD [])
  let w : Restriction m := ⟨.empty, strict, several, predicate⟩
  let (sources, ps) ← restrictTrees w d.selection d.sources
  let (usingTrees, qs) ← restrictTrees w d.selection (d.usingSources.getD [])
  return { d with
    sources
    usingSources := d.usingSources.map fun _ => usingTrees
    selection := Expr.conjoinAll d.selection (ps ++ qs) }

end RowPolicy.Sql
