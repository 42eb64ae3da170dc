import RowPolicy.Policy

/-!
# Optimistic locks

An update of a table with a version column raises the version, unless it writes the version itself.
Where the caller says which version it has read, only rows of that version are updated.
-/

namespace RowPolicy

open Sql

/-- How versions are checked. -/
structure OptimisticLock where
  contextKey : String := "version"
  strict : Bool := false
  requireMetadata : Bool := false
  deriving DecidableEq, Repr

namespace OptimisticLock

variable {m : Type → Type} [Monad m] [MonadExceptOf PolicyError m]

/-- Whether an assignment writes a column, alone or with others. -/
def writes (column : String) (a : Assignment) : Bool :=
  match a.target with
  | .column n => Name.endsIn n column
  | .tuple ns => ns.any (Name.endsIn · column)

/-- The assignment that raises the version of a target. The written column is qualified only where
`qualified` holds. -/
def increment (t : Target) (column : String) (qualified : Bool) : Assignment where
  target := .column ((if qualified then t.qualifier.toList.map Ident.plain else []) ++
    [.plain column])
  value := .binary (t.column column) .plus (.literal (.number "1"))

/-- An update that raises and checks the version. The written column is qualified in an update of
joined tables, where several may have one of its name. -/
def update (p : OptimisticLock) (c : Context) (u : Update) : m Update := do
  match u.target? with
  | none =>
    unsupported p.strict "UPDATE target" u.table.render
    return u
  | some t =>
    let known ← Policy.resolve c t p.requireMetadata
    match known.bind (·.versionColumn) with
    | none => return u
    | some column =>
      let raised :=
        if u.assignments.any (writes column) then u.assignments
        else u.assignments ++ [increment t column !u.table.joins.isEmpty]
      let expected := (c.value? p.contextKey).map (t.column column).hasValue
      return { u with
        assignments := raised
        selection := Expr.conjoinAll u.selection expected.toList }

/-- Optimistic locks as a policy. -/
def policy (p : OptimisticLock) : Policy m where
  name := "optimistic_lock"
  strict := p.strict
  appliesTo kind := kind == .update
  update := p.update

end OptimisticLock

end RowPolicy
