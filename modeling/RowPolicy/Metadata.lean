import RowPolicy.Property
import RowPolicy.Text.Fold
import RowPolicy.Value

/-!
# Metadata of tables

What policies know of a table, and the registry in which they look it up. A registry holds at most
one entry for each name; schema, quotes and letter case of a name do not count.
-/

namespace RowPolicy

/-! ## Tables -/

/-- The column that marks a row as deleted, and its values on either kind of row. -/
structure LogicDeleteColumn where
  column : String
  deletedValue : Value := .integer 1
  notDeletedValue : Value := .integer 0
  deriving DecidableEq

/-- What is known of one table. -/
structure TableMetadata where
  table : String
  /-- the columns of the properties that are not named like their column -/
  columns : List (String × String) := []
  logicDelete : Option LogicDeleteColumn := none
  tenantColumn : Option String := none
  ignoreTenant : Bool := false
  versionColumn : Option String := none
  deriving DecidableEq

namespace TableMetadata

/-- The metadata with the column of a property, in place of the one it had. -/
def withColumn (t : TableMetadata) (property column : String) : TableMetadata :=
  { t with columns := t.columns.filter (·.1 != property) ++ [(property, column)] }

/-- The column of a property. -/
def columnOf (t : TableMetadata) (property : String) : String :=
  (t.columns.lookup property).getD property

/-- The column of a property that is named directly or by an accessor. -/
def columnFor (t : TableMetadata) (reference : String) : String :=
  t.columnOf (Property.name reference)

end TableMetadata

/-! ## Names of tables -/

/-- The quotes around a name. -/
def isNameQuote (c : Char) : Bool :=
  c == '"' || c == '`' || c == '[' || c == ']'

/-- What two names of one table share: the last part, without quotes, in lower case. -/
def tableKey (name : String) : String :=
  let last := (name.toList.reverse.takeWhile (· != '.')).reverse
  let bare := ((last.dropWhile isNameQuote).reverse.dropWhile isNameQuote).reverse
  Text.fold (String.ofList bare)

/-! ## The registry -/

/-- The tables that are known, no two under one name. -/
structure Registry where
  entries : List TableMetadata
  nodup : (entries.map fun t => tableKey t.table).Nodup

namespace Registry

/-- The registry that knows no table. -/
def empty : Registry :=
  ⟨[], List.nodup_nil⟩

/-- The entry under a name. -/
def resolve (r : Registry) (table : String) : Option TableMetadata :=
  r.entries.find? fun t => tableKey t.table == tableKey table

/-- The entries under other names. -/
def others (r : Registry) (table : String) : List TableMetadata :=
  r.entries.filter fun t => tableKey t.table != tableKey table

theorem others_nodup (r : Registry) (table : String) :
    ((r.others table).map fun t => tableKey t.table).Nodup :=
  r.nodup.sublist (List.filter_sublist.map _)

theorem key_notMem_others (r : Registry) (table : String) :
    tableKey table ∉ (r.others table).map fun t => tableKey t.table := by
  simp [others]

/-- The registry with an entry in place of the one under its name. -/
def register (r : Registry) (t : TableMetadata) : Registry where
  entries := r.others t.table ++ [t]
  nodup := by
    rw [List.map_append, List.nodup_append]
    refine ⟨r.others_nodup t.table, by simp, fun a ha b hb hab => ?_⟩
    have hb : b = tableKey t.table := by simpa using hb
    exact r.key_notMem_others t.table (hb ▸ hab ▸ ha)

/-- The registry without the entry under a name. -/
def unregister (r : Registry) (table : String) : Registry :=
  ⟨r.others table, r.others_nodup table⟩

/-- The number of tables. -/
def size (r : Registry) : Nat :=
  r.entries.length

/-- The names of the tables as they were given, in ascending order. -/
def tableNames (r : Registry) : List String :=
  (r.entries.map (·.table)).mergeSort fun a b => decide (a ≤ b)

/-- The registry of several tables, the later ones in place of earlier ones of their name. -/
def ofList (ts : List TableMetadata) : Registry :=
  ts.foldl register empty

end Registry

end RowPolicy
