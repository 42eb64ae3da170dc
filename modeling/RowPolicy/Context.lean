import RowPolicy.Metadata
import RowPolicy.Page

/-!
# Contexts and guards

What a caller says about one text: who calls, which values and which page apply, and what is
known of the tables. A guard decides by it whether policies are applied at all.
-/

namespace RowPolicy

/-- What policies may ask for while they change one text. -/
structure Context where
  metadata : String → Option TableMetadata
  statementId : Option String := none
  /-- values by their keys, the last one first -/
  values : List (String × Value) := []
  page : Option Page := none

namespace Context

/-- The context in which no table is known. -/
def empty : Context where
  metadata _ := none

/-- The context that knows the tables of a registry. -/
def ofRegistry (r : Registry) : Context where
  metadata := r.resolve

/-- The context with a value under a key. -/
def withValue (c : Context) (key : String) (v : Value) : Context :=
  { c with values := (key, v) :: c.values }

/-- The value under a key. -/
def value? (c : Context) (key : String) : Option Value :=
  c.values.lookup key

end Context

/-- Whether policies are applied. -/
abbrev Guard := Context → Bool

namespace Guard

/-- The guard that always allows them. -/
def allowAll : Guard :=
  fun _ => true

/-- The guard that refuses the statements with these identifiers. -/
def ignoring (ids : List String) : Guard := fun c =>
  match c.statementId with
  | some i => !ids.contains i
  | none => true

end Guard

end RowPolicy
