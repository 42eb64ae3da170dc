import RowPolicy.Sql.Predicate
import RowPolicy.Sql.Render

/-!
# Scopes and targets

A scope holds the names that denote named queries at some place of a statement. A target is a table
that a block reads or writes, as a policy sees it: its name, the qualifier of its columns, and its
text for messages.
-/

namespace RowPolicy.Sql

/-! ## Scopes -/

/-- The names that denote named queries, in lower case. -/
structure Scope where
  ctes : List String
  deriving DecidableEq, Repr

namespace Scope

/-- The scope of a whole statement. -/
def empty : Scope :=
  ⟨[]⟩

/-- A scope with more names in it. -/
def declare (s : Scope) (names : List String) : Scope :=
  ⟨s.ctes ++ names.map Text.fold⟩

/-- Whether a name denotes a named query. -/
def isCte (s : Scope) (name : String) : Bool :=
  s.ctes.any (Text.sameName · name)

end Scope

/-! ## Targets -/

/-- A table that a block reads or writes. -/
structure Target where
  table : String
  qualifier : Option String
  fragment : String
  deriving DecidableEq, Repr

/-- A column of a target. -/
def Target.column (t : Target) (column : String) : Expr :=
  .ofColumn t.qualifier column

/-- What the columns of a table are qualified by: its alias, or its name where `qualify` holds. -/
def qualifierOf (naming : Option Alias) (table : String) (qualify : Bool) : Option String :=
  match naming with
  | some a => some a.name.value
  | none => if qualify then some table else none

mutual

/-- The number of relations in a tree of joins. -/
def JoinTree.size : JoinTree → Nat
  | ⟨relation, joins⟩ => relation.size + joinsSize joins

/-- The number of relations that are joined. -/
def joinsSize : List Join → Nat
  | [] => 0
  | ⟨_, _, _, relation, _, _, _⟩ :: js => relation.size + joinsSize js

/-- The number of relations in a relation: those of a nested join, or itself. -/
def Relation.size : Relation → Nat
  | .nested tree _ => tree.size
  | .table _ _ _ _ _ _ => 1
  | .derived _ _ _ => 1
  | .transformed _ _ _ _ => 1
  | .other _ _ _ _ => 1

end

/-- The number of relations in several trees. -/
def treesSize : List JoinTree → Nat
  | [] => 0
  | t :: ts => t.size + treesSize ts

/-- The table of an insertion. -/
def Insertion.target? (i : Insertion) : Option Target := do
  return ⟨← Name.last? i.table, none, Name.render i.table⟩

/-- The table of an update, unless another relation is updated. -/
def Update.target? (u : Update) : Option Target :=
  match u.table.relation with
  | .table name _ _ _ naming _ => do
    let table ← Name.last? name
    let several := 1 < u.table.size + treesSize u.sources
    return ⟨table, qualifierOf naming table several, u.table.relation.render⟩
  | _ => none

/-- The table of a deletion that names one table and no other relation. -/
def Deletion.target? (d : Deletion) : Option Target :=
  match d.tables, d.sources, d.usingSources with
  | [], [⟨relation@(.table name _ none _ naming _), []⟩], none => do
    return ⟨← Name.last? name, naming.map (·.name.value), relation.render⟩
  | _, _, _ => none

end RowPolicy.Sql
