import RowPolicy.Policy

/-!
# Audit columns

Insertions that do not write an audit column get it, with a value that the caller supplies or an
expression that the engine evaluates.
-/

namespace RowPolicy

open Sql

/-- Where the value of an audit column comes from. -/
inductive AuditSource where
  /-- the value under a key of the context -/
  | context (key : String)
  | expression (e : Expr)

/-- An audit column, and the tables that have it; none named means all. -/
structure AuditColumn where
  column : String
  source : AuditSource
  tables : List String := []
  strict : Bool := false

namespace AuditColumn

variable {m : Type → Type} [Monad m] [MonadExceptOf PolicyError m]

/-- Whether a table has the column. -/
def covers (p : AuditColumn) (table : String) : Bool :=
  p.tables.isEmpty || p.tables.any (Text.sameName · table)

/-- An insertion with the audit column. -/
def insert (p : AuditColumn) (c : Context) (i : Insertion) : m Insertion := do
  match i.target? with
  | none => return i
  | some t =>
    if p.covers t.table then
      let value ← match p.source with
        | .context key => Expr.ofValue <$> Policy.demand c key t.fragment
        | .expression e => pure e
      Policy.insertColumn p.strict i p.column value
    else return i

/-- An audit column as a policy. -/
def policy (p : AuditColumn) : Policy m where
  name := "audit_column:" ++ p.column
  strict := p.strict
  appliesTo kind := kind == .insert
  insert := p.insert

end AuditColumn

end RowPolicy
