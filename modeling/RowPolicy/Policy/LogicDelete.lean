import RowPolicy.Policy

/-!
# Logic deletion

Rows that are marked as deleted are hidden: each table with a marking column gets the predicate that
the column has its value on rows that are not deleted. A predicate that mentions the column already
is taken to decide the matter, and gets no other.

With `soft`, a deletion from one such table becomes an update that marks the rows.
-/

namespace RowPolicy

open Sql

/-- How logic deletion is applied. -/
structure LogicDelete where
  strict : Bool := false
  requireMetadata : Bool := false
  soft : Bool := false
  deriving DecidableEq, Repr

namespace LogicDelete

variable {m : Type → Type} [Monad m] [MonadExceptOf PolicyError m]

/-- The predicate for a table. -/
def predicate (p : LogicDelete) (c : Context) (t : Target) (existing : Option Expr) :
    m (Option Expr) := do
  let known ← Policy.resolve c t p.requireMetadata
  match known.bind (·.logicDelete) with
  | none => return none
  | some mark =>
    if existing.any (·.mentions mark.column t.qualifier) then return none
    else return some ((t.column mark.column).hasValue mark.notDeletedValue)

/-- The update that marks the rows of a deletion, where one can be written. -/
def marking? (p : LogicDelete) (c : Context) (d : Deletion) : m (Option Update) := do
  match d.target?, d.sources with
  | some t, table :: _ =>
    let known ← Policy.resolve c t p.requireMetadata
    match known.bind (·.logicDelete) with
    | none => return none
    | some mark =>
      if !d.orderBy.isEmpty then
        unsupported p.strict "DELETE .. ORDER BY" d.render
        return none
      else
        return some {
          head := "UPDATE"
          table
          sourcesFirst := false
          sources := []
          assignments := [.ofColumn mark.column (.ofValue mark.deletedValue)]
          selection := d.selection
          returning := d.returning
          limit := d.limit }
  | _, _ =>
    unsupported p.strict "multi-table DELETE" d.render
    return none

/-- Logic deletion as a policy. -/
def policy (p : LogicDelete) : Policy m where
  name := "logic_delete"
  strict := p.strict
  appliesTo kind := kind == .select || kind == .update || kind == .delete
  select c scope b := b.restrict p.strict scope (p.predicate c)
  update c u := u.restrict p.strict (p.predicate c)
  delete c d := d.restrict p.strict (p.predicate c)
  statement c s :=
    match s with
    | .delete d => do
      if p.soft then
        match ← p.marking? c d with
        | some u => return .update u
        | none => return s
      else return s
    | s => return s

end LogicDelete

end RowPolicy
