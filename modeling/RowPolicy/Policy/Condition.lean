import RowPolicy.Policy

/-!
# Fixed conditions

Statements that read or change one table get conditions on its properties. How a property is found
from the name it is given is up to a function; by default accessors name their property.
-/

namespace RowPolicy

open Sql

/-- Conditions on the properties of one table. -/
structure Condition where
  table : String
  /-- properties and the values they must have -/
  conditions : List (String × Value) := []
  property : String → String := Property.name
  strict : Bool := false

namespace Condition

variable {m : Type → Type} [Monad m] [MonadExceptOf PolicyError m]

/-- The predicate for a table. -/
def predicate (p : Condition) (c : Context) (t : Target) : m (Option Expr) := do
  if Text.sameName t.table p.table then
    let known ← Policy.resolve c t false
    let one (pair : String × Value) : Expr :=
      let property := p.property pair.1
      let column := (known.map (·.columnOf property)).getD property
      (t.column column).hasValue pair.2
    return Expr.conjoinAll none (p.conditions.map one)
  else return none

/-- Fixed conditions as a policy. -/
def policy (p : Condition) : Policy m where
  name := "condition:" ++ p.table
  strict := p.strict
  appliesTo kind := kind != .insert && kind != .other
  select c scope b := b.restrict p.strict scope fun t _ => p.predicate c t
  update c u := u.restrict p.strict fun t _ => p.predicate c t
  delete c d := d.restrict p.strict fun t _ => p.predicate c t

end Condition

end RowPolicy
