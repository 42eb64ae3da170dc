import RowPolicy.Policy

/-!
# Tenants

Rows belong to tenants, and a caller sees those of its own: each table gets the predicate that its
tenant column has the caller's tenant, and insertions get the column with that tenant. The column is
the one that the metadata of a table names, or else the default. Tables that are shared between
tenants are left alone.
-/

namespace RowPolicy

open Sql

/-- How tenants are kept apart. -/
structure Tenant where
  contextKey : String := "tenant_id"
  defaultColumn : Option String := none
  strict : Bool := false
  requireMetadata : Bool := false
  deriving DecidableEq, Repr

namespace Tenant

variable {m : Type → Type} [Monad m] [MonadExceptOf PolicyError m]

/-- The tenant column of a table, unless it has none or is shared. -/
def column? (p : Tenant) (c : Context) (t : Target) : m (Option String) := do
  match ← Policy.resolve c t p.requireMetadata with
  | none => return p.defaultColumn
  | some known =>
    return if known.ignoreTenant then none else known.tenantColumn.or p.defaultColumn

/-- The predicate for a table. -/
def predicate (p : Tenant) (c : Context) (t : Target) : m (Option Expr) := do
  match ← p.column? c t with
  | none => return none
  | some column =>
    return some ((t.column column).hasValue (← Policy.demand c p.contextKey t.fragment))

/-- An insertion with the tenant column. -/
def insert (p : Tenant) (c : Context) (i : Insertion) : m Insertion := do
  match i.target? with
  | none => return i
  | some t =>
    match ← p.column? c t with
    | none => return i
    | some column =>
      let tenant ← Policy.demand c p.contextKey t.fragment
      Policy.insertColumn p.strict i column (.ofValue tenant)

/-- The separation of tenants as a policy. -/
def policy (p : Tenant) : Policy m where
  name := "tenant"
  strict := p.strict
  insert := p.insert
  select c scope b := b.restrict p.strict scope fun t _ => p.predicate c t
  update c u := u.restrict p.strict fun t _ => p.predicate c t
  delete c d := d.restrict p.strict fun t _ => p.predicate c t

end Tenant

end RowPolicy
