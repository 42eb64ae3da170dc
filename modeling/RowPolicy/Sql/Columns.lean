import RowPolicy.Sql.Predicate

/-!
# Columns of an insertion

An insertion gets another column by naming it and giving it a value in every row, in the projection
that yields the rows, or among the assignments. Where the columns are not named their places are
unknown, and other sources of rows offer no place for the value.
-/

namespace RowPolicy.Sql

/-- What comes of giving a column to an insertion. -/
inductive ColumnOutcome where
  | appended
  | alreadyPresent
  | noColumnList
  | unsupported (construct : String)
  deriving DecidableEq, Repr

/-- Whether an assignment writes a column alone. -/
def Assignment.writes (a : Assignment) (column : String) : Bool :=
  match a.target with
  | .column n => Name.endsIn n column
  | .tuple _ => false

/-- Whether an insertion names a column. -/
def Insertion.hasColumn (i : Insertion) (column : String) : Bool :=
  i.columns.any (fun c => Text.sameName c.value column) || i.assignments.any (·.writes column)

/-- The assignment of a value to a column. -/
def Assignment.ofColumn (column : String) (value : Expr) : Assignment :=
  ⟨.column [.plain column], value⟩

/-- A body whose rows have one more value, or the construct that has no place for it. -/
def Body.withValue (value : Expr) : Body → Except String Body
  | .values keyword explicitRow rows =>
    .ok (.values keyword explicitRow (rows.map (· ++ [value])))
  | .select s => .ok (.select { s with projection := s.projection ++ [.expr value] })
  | .setOperation _ _ _ => .error "INSERT from a set operation"
  | _ => .error "INSERT source"

/-- An insertion with another column, if it can have one, and what came of it. -/
def Insertion.appendColumn (i : Insertion) (column : String) (value : Expr) :
    ColumnOutcome × Insertion :=
  if i.hasColumn column then (.alreadyPresent, i)
  else if !i.assignments.isEmpty then
    (.appended, { i with assignments := i.assignments ++ [.ofColumn column value] })
  else if i.columns.isEmpty then (.noColumnList, i)
  else
    match i.source with
    | none => (.unsupported "INSERT without a VALUES or SELECT source", i)
    | some q =>
      match q.body.withValue value with
      | .error construct => (.unsupported construct, i)
      | .ok body =>
        (.appended, { i with
          columns := i.columns ++ [.plain column]
          source := some { q with body } })

/-- The rows of an insertion that have another width than its columns: their places and widths. -/
def Insertion.misfits (i : Insertion) : List (Nat × Nat) :=
  if i.columns.isEmpty then []
  else
    match i.source with
    | some { body := .values _ _ rows, .. } =>
      (rows.zipIdx.filter fun (row, _) => row.length != i.columns.length).map
        fun (row, n) => (n, row.length)
    | _ => []

end RowPolicy.Sql
