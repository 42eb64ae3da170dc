import RowPolicy.Proofs.Insertions.Widths
import RowPolicy.Proofs.Versions.Bumps

/-!
# The columns that an insertion names

An insertion names columns in its list and in its assignments, alone or several at once. One that is
given a column names it once more and has a value for it in every row (`Insertion.Gains`), or stays
as it is. The columns of an assignment that writes several are not looked at, so an insertion that
names a column there only is given it once more: `Insertion.appendColumns_named` says what any
calls leave, and `Insertion.not_named_once_tuple` is an insertion that names its tenant twice.
-/

namespace RowPolicy.Sql

/-! ## Named columns -/

/-- The column that an assignment writes alone. -/
def Assignment.column? (a : Assignment) : Option Name :=
  match a.target with
  | .column n => some n
  | .tuple _ => none

theorem Assignment.mem_columns_of_column? {a : Assignment} {n : Name} (h : a.column? = some n) :
    n ∈ a.columns := by
  unfold column? at h
  unfold columns
  cases htarget : a.target with
  | column n' =>
    rw [htarget] at h
    exact List.mem_singleton.mpr (Option.some.inj h).symm
  | tuple ns => rw [htarget] at h; cases h

namespace Insertion

/-- The columns that an insertion names: those of its list, and those that it assigns. -/
def named (i : Insertion) : List Name :=
  i.columns.map ([·]) ++ i.assignments.flatMap Assignment.columns

/-- The columns that an insertion names alone: in its list, or in an assignment of one column. -/
def namedAlone (i : Insertion) : List Name :=
  i.columns.map ([·]) ++ i.assignments.filterMap Assignment.column?

/-- How often an insertion names a column. -/
def nameCount (i : Insertion) (column : String) : Nat :=
  i.named.countP (·.endsIn column)

/-- Whether an insertion names a column in assignments of several columns only. -/
def NamesInTuples (i : Insertion) (column : String) : Prop :=
  0 < i.nameCount column ∧ ∀ n ∈ i.namedAlone, n.endsIn column = false

/-- Whether an insertion has a place for another column: it is made of assignments, or it has a list
of columns and takes its rows from values or from a select block. -/
def TakesColumns (i : Insertion) : Prop :=
  i.assignments ≠ [] ∨
    (i.columns ≠ [] ∧ ∃ q, i.source = some q ∧
      ((∃ keyword explicitRow rows, q.body = .values keyword explicitRow rows) ∨
        ∃ s, q.body = .select s))

/-- An insertion, and the same insertion with one more column and a value for it. -/
inductive Gains (column : String) (value : Expr) (i : Insertion) : Insertion → Prop
  | assignment (h : i.assignments ≠ []) :
    Gains column value i { i with assignments := i.assignments ++ [.ofColumn column value] }
  | rows {q : Query} {keyword : String} {explicitRow : Bool} {rows : List (List Expr)}
      (hassignments : i.assignments = []) (hcolumns : i.columns ≠ [])
      (hsource : i.source = some q) (hbody : q.body = .values keyword explicitRow rows) :
    Gains column value i { i with
      columns := i.columns ++ [.plain column]
      source := some { q with body := .values keyword explicitRow (rows.map (· ++ [value])) } }
  | projection {q : Query} {s : Select} (hassignments : i.assignments = [])
      (hcolumns : i.columns ≠ []) (hsource : i.source = some q) (hbody : q.body = .select s) :
    Gains column value i { i with
      columns := i.columns ++ [.plain column]
      source := some { q with
        body := .select { s with projection := s.projection ++ [.expr value] } } }

theorem endsIn_plain (column x : String) :
    Name.endsIn [.plain column] x = Text.sameName column x := rfl

theorem countP_plain (column x : String) :
    [[Ident.plain column]].countP (Name.endsIn · x) = (Text.sameName column x).toNat := by
  rw [List.countP_singleton, endsIn_plain]
  cases Text.sameName column x <;> rfl

theorem hasColumn_eq (i : Insertion) (column : String) :
    i.hasColumn column = i.namedAlone.any (·.endsIn column) := by
  have hassignment : ∀ a : Assignment,
      a.writes column = a.column?.any (·.endsIn column) := fun a => by
    unfold Assignment.writes Assignment.column?
    cases a.target <;> rfl
  simp only [hasColumn, namedAlone, List.any_append, List.any_map, List.any_filterMap, hassignment]
  rfl

/-- A column that is named alone is named. -/
theorem nameCount_pos_of_hasColumn {i : Insertion} {column : String}
    (h : i.hasColumn column = true) : 0 < i.nameCount column := by
  rw [hasColumn_eq] at h
  obtain ⟨n, hn, hends⟩ := List.any_eq_true.mp h
  refine List.countP_pos_iff.mpr ⟨n, ?_, hends⟩
  rcases List.mem_append.mp hn with hn | hn
  · exact List.mem_append_left _ hn
  · obtain ⟨a, ha, hcolumn⟩ := List.mem_filterMap.mp hn
    exact List.mem_append_right _
      (List.mem_flatMap.mpr ⟨a, ha, a.mem_columns_of_column? hcolumn⟩)

/-- A column that is not seen is not named, or in assignments of several columns only. -/
theorem hasColumn_eq_false_iff {i : Insertion} {column : String} :
    i.hasColumn column = false ↔ i.nameCount column = 0 ∨ i.NamesInTuples column := by
  have halone : i.hasColumn column = false ↔ ∀ n ∈ i.namedAlone, n.endsIn column = false := by
    rw [hasColumn_eq, List.any_eq_false]
    simp
  constructor
  · intro h
    rcases Nat.eq_zero_or_pos (i.nameCount column) with hzero | hpos
    · exact .inl hzero
    · exact .inr ⟨hpos, halone.mp h⟩
  · rintro (hzero | ⟨-, h⟩)
    · rw [← Bool.not_eq_true]
      intro h
      have := nameCount_pos_of_hasColumn h
      omega
    · exact halone.mpr h

/-! ## One call -/

section Call

variable {i i' : Insertion} {column : String} {value : Expr}

theorem Gains.takesColumns (h : i.Gains column value i') : i.TakesColumns := by
  cases h with
  | assignment h => exact .inl h
  | rows _ hcolumns hsource hbody => exact .inr ⟨hcolumns, _, hsource, .inl ⟨_, _, _, hbody⟩⟩
  | projection _ hcolumns hsource hbody => exact .inr ⟨hcolumns, _, hsource, .inr ⟨_, hbody⟩⟩

/-- Everything that can come of giving a column to an insertion. -/
theorem appendColumn_spec (i : Insertion) (column : String) (value : Expr) :
    (i.appendColumn column value = (.alreadyPresent, i) ∧ i.hasColumn column = true) ∨
    (∃ i', i.appendColumn column value = (.appended, i') ∧ i.hasColumn column = false ∧
      i.Gains column value i') ∨
    ∃ outcome, i.appendColumn column value = (outcome, i) ∧ outcome ≠ .appended ∧
      i.hasColumn column = false ∧ ¬i.TakesColumns := by
  unfold appendColumn
  cases hhas : i.hasColumn column with
  | true => exact .inl ⟨rfl, rfl⟩
  | false =>
    refine .inr ?_
    by_cases hassignments : i.assignments = []
    · by_cases hcolumns : i.columns = []
      · refine .inr ⟨.noColumnList, by simp [hassignments, hcolumns], by simp, rfl, ?_⟩
        simp [TakesColumns, hassignments, hcolumns]
      have hnone : i.assignments.isEmpty = true := by simp [hassignments]
      have hsome : i.columns.isEmpty = false := by simp [hcolumns]
      cases hsource : i.source with
      | none =>
        refine .inr ⟨_, by simp [hnone, hsome]; rfl, by simp, rfl, ?_⟩
        simp [TakesColumns, hassignments, hsource]
      | some q =>
        cases hbody : q.body with
        | values keyword explicitRow rows =>
          exact .inl ⟨_, by simp [hnone, hsome, hbody, Body.withValue], rfl,
            .rows hassignments hcolumns hsource hbody⟩
        | select s =>
          exact .inl ⟨_, by simp [hnone, hsome, hbody, Body.withValue], rfl,
            .projection hassignments hcolumns hsource hbody⟩
        | _ =>
          refine .inr ⟨_, by simp [hnone, hsome, hbody, Body.withValue]; rfl, by simp, rfl, ?_⟩
          simp [TakesColumns, hassignments, hsource, hbody]
    · refine .inl ⟨_, ?_, rfl, .assignment hassignments⟩
      simp [hassignments]

theorem appended_iff (i : Insertion) (column : String) (value : Expr) :
    (i.appendColumn column value).1 = .appended ↔ i.hasColumn column = false ∧ i.TakesColumns := by
  rcases i.appendColumn_spec column value with ⟨h, hhas⟩ | ⟨i', h, hhas, hgains⟩ |
    ⟨outcome, h, happended, -, htakes⟩
  · simp [h, hhas]
  · simp [h, hhas, hgains.takesColumns]
  · simp [h, happended, htakes]

theorem gains_of_appended (h : (i.appendColumn column value).1 = .appended) :
    i.Gains column value (i.appendColumn column value).2 := by
  rcases i.appendColumn_spec column value with ⟨heq, -⟩ | ⟨i', heq, -, hgains⟩ |
    ⟨outcome, heq, happended, -⟩
  · rw [heq] at h
    cases h
  · rwa [heq]
  · rw [heq] at h
    exact absurd h happended

theorem appendColumn_of_not_appended (h : (i.appendColumn column value).1 ≠ .appended) :
    (i.appendColumn column value).2 = i := by
  rcases i.appendColumn_spec column value with ⟨heq, -⟩ | ⟨i', heq, -⟩ | ⟨outcome, heq, -⟩
  · rw [heq]
  · rw [heq] at h
    exact absurd rfl h
  · rw [heq]

theorem appendColumn_of_hasColumn (h : i.hasColumn column = true) :
    i.appendColumn column value = (.alreadyPresent, i) := by
  rw [appendColumn, if_pos h]

theorem Gains.nameCount (h : i.Gains column value i') (x : String) :
    i'.nameCount x = i.nameCount x + (Text.sameName column x).toNat := by
  rw [← countP_plain]
  cases h with
  | assignment =>
    simp only [Insertion.nameCount, named, List.flatMap_append, List.countP_append,
      Nat.add_assoc]
    rfl
  | _ =>
    simp only [Insertion.nameCount, named, List.map_append, List.map_cons, List.map_nil,
      List.countP_append]
    omega

theorem Gains.hasColumn (h : i.Gains column value i') (x : String) :
    i'.hasColumn x = (i.hasColumn x || Text.sameName column x) := by
  simp only [hasColumn_eq]
  cases h with
  | assignment =>
    simp [namedAlone, Assignment.column?, Assignment.ofColumn, endsIn_plain, Bool.or_assoc]
  | _ => simp [namedAlone, endsIn_plain, Bool.or_comm, Bool.or_left_comm]

theorem valueRows_of_values {q : Query} {keyword : String} {explicitRow : Bool}
    {rows : List (List Expr)} (hsource : i.source = some q)
    (hbody : q.body = .values keyword explicitRow rows) : i.valueRows = rows := by
  unfold valueRows
  rw [hsource]
  cases q
  cases hbody
  rfl

theorem valueRows_of_select {q : Query} {s : Select} (hsource : i.source = some q)
    (hbody : q.body = .select s) : i.valueRows = [] := by
  unfold valueRows
  rw [hsource]
  cases q
  cases hbody
  rfl

/-- What a row of values has too many or too few stays so. -/
theorem Gains.excess (h : i.Gains column value i') :
    i'.valueRows.map (fun row => (row.length : Int) - i'.columns.length) =
      i.valueRows.map fun row => (row.length : Int) - i.columns.length := by
  cases h with
  | assignment => rfl
  | rows _ _ hsource hbody =>
    rw [valueRows_of_values hsource hbody, valueRows_of_values rfl rfl, List.map_map]
    refine List.map_congr_left fun row _ => ?_
    simp only [Function.comp_apply, List.length_append, List.length_singleton, Int.natCast_add]
    omega
  | projection _ _ hsource hbody =>
    rw [valueRows_of_select hsource hbody, valueRows_of_select rfl rfl]
    rfl

end Call

/-! ## Several calls -/

theorem hasColumn_congr (i : Insertion) {column x : String} (h : Text.sameName column x = true) :
    i.hasColumn column = i.hasColumn x := by
  have hname : ∀ n : Name, n.endsIn column = n.endsIn x := fun n => by
    unfold Name.endsIn
    split
    · rw [Text.sameName, Text.sameName_iff.mp h, Text.sameName]
    · rfl
  rw [hasColumn_eq, hasColumn_eq]
  exact congrArg i.namedAlone.any (funext hname)

/-- Whether a call gave the column `x`. -/
def gave (x : String) (call : (String × Expr) × ColumnOutcome) : Bool :=
  Text.sameName call.1.1 x && call.2 == .appended

/-- One call names the column `x` once more if it gave it, and then it was not named alone. -/
theorem appendColumn_step (i : Insertion) (call : String × Expr) (x : String) :
    let called := i.appendColumn call.1 call.2
    called.2.nameCount x = i.nameCount x + (gave x (call, called.1)).toNat ∧
      called.2.hasColumn x = (i.hasColumn x || gave x (call, called.1)) ∧
      (gave x (call, called.1) = true → i.hasColumn x = false) := by
  rcases i.appendColumn_spec call.1 call.2 with ⟨h, -⟩ | ⟨i', h, hhas, hgains⟩ | ⟨o, h, ho, -⟩
  · simp [h, gave]
  · rw [h]
    refine ⟨?_, ?_, fun hgave => ?_⟩
    · rw [hgains.nameCount]
      simp [gave]
    · rw [hgains.hasColumn]
      simp [gave]
    · rw [← i.hasColumn_congr (by simpa [gave] using hgave)]
      exact hhas
  · simp [h, gave, ho]

/-- What comes of giving columns to an insertion one after another, and the insertion at the end. -/
def appendColumns (i : Insertion) : List (String × Expr) → List ColumnOutcome × Insertion
  | [] => ([], i)
  | (column, value) :: calls =>
    let called := i.appendColumn column value
    let rest := called.2.appendColumns calls
    (called.1 :: rest.1, rest.2)

/-- How many of several calls gave the column `x`. -/
def gaveCount (x : String) (calls : List (String × Expr)) (outcomes : List ColumnOutcome) : Nat :=
  (calls.zip outcomes).countP (gave x)

/-- However often a column is called for, it is given at most once, and not if it was named
alone. -/
theorem appendColumns_run (i : Insertion) (calls : List (String × Expr)) (x : String) :
    let run := i.appendColumns calls
    run.2.nameCount x = i.nameCount x + gaveCount x calls run.1 ∧
      gaveCount x calls run.1 ≤ (!i.hasColumn x).toNat := by
  induction calls generalizing i with
  | nil => simp [appendColumns, gaveCount]
  | cons call calls ih =>
    obtain ⟨hcount, hhas, hbefore⟩ := i.appendColumn_step call x
    obtain ⟨hcounts, hone⟩ := ih (i.appendColumn call.1 call.2).2
    simp only [appendColumns, gaveCount, List.zip_cons_cons, List.countP_cons]
      at hcounts hone ⊢
    rw [hhas] at hone
    rw [hcounts, hcount]
    cases hgave : gave x (call, (i.appendColumn call.1 call.2).1) with
    | false => simpa [hgave] using hone
    | true =>
      rw [hgave, Bool.or_true, Bool.not_true, Bool.toNat_false] at hone
      simp only [hbefore hgave, Bool.toNat_true, if_true, Bool.not_false]
      omega

theorem NamesInTuples.takesColumns {i : Insertion} {column : String}
    (h : i.NamesInTuples column) : i.TakesColumns := by
  refine .inl fun hassignments => ?_
  obtain ⟨n, hn, hends⟩ := List.countP_pos_iff.mp h.1
  have halone : n ∈ i.namedAlone := by
    rw [named, hassignments, List.flatMap_nil] at hn
    rwa [namedAlone, hassignments, List.filterMap_nil]
  rw [h.2 n halone] at hends
  cases hends

/-- **A column is named once more and gets a value in every row, or nothing is changed.** An
insertion is given a column if it has a place for one and does not name it alone. Then it keeps all
it has, each row of values has what it had too many or too few, and the column, in any letter case,
is not given again; otherwise the insertion stays as it is. Of any calls at most one gives a column,
and then the column is named once, unless assignments of several columns name it too. Exactly those
are overlooked: an insertion that names a column there only has it and is given it. -/
theorem appendColumns_named (i : Insertion) :
    (∀ column value, let called := i.appendColumn column value
      (called.1 = .appended ↔
        (i.nameCount column = 0 ∨ i.NamesInTuples column) ∧ i.TakesColumns) ∧
      ((called.1 = .appended ↔ i.nameCount column = 0 ∧ i.TakesColumns) ↔
        ¬i.NamesInTuples column) ∧
      (called.1 = .appended → i.Gains column value called.2 ∧
        called.2.valueRows.map (fun row => (row.length : Int) - called.2.columns.length) =
          i.valueRows.map (fun row => (row.length : Int) - i.columns.length) ∧
        ∀ column' value', Text.sameName column column' = true →
          called.2.appendColumn column' value' = (.alreadyPresent, called.2)) ∧
      (called.1 ≠ .appended → called.2 = i)) ∧
    ∀ calls x, let run := i.appendColumns calls
      gaveCount x calls run.1 ≤ 1 ∧
        run.2.nameCount x = i.nameCount x + gaveCount x calls run.1 ∧
        (gaveCount x calls run.1 = 1 → (run.2.nameCount x = 1 ↔ ¬i.NamesInTuples x)) := by
  have hnot : ∀ {x}, i.nameCount x = 0 → ¬i.NamesInTuples x := fun hzero h =>
    Nat.ne_of_gt h.1 hzero
  refine ⟨fun column value => ?_, fun calls x => ?_⟩
  · have happended := i.appended_iff column value
    rw [hasColumn_eq_false_iff] at happended
    refine ⟨happended, ?_, fun h => ⟨gains_of_appended h, (gains_of_appended h).excess,
      fun column' value' hsame => appendColumn_of_hasColumn ?_⟩, appendColumn_of_not_appended⟩
    · rw [happended]
      by_cases htuples : i.NamesInTuples column
      · have hpos := Nat.ne_of_gt htuples.1
        simp [htuples, htuples.takesColumns, hpos]
      · simp [htuples]
    · rw [(gains_of_appended h).hasColumn, hsame, Bool.or_true]
  · obtain ⟨hcount, hone⟩ := i.appendColumns_run calls x
    refine ⟨Nat.le_trans hone (Bool.toNat_le _), hcount, fun hgave => ?_⟩
    have hhas : i.hasColumn x = false := by
      cases hhas : i.hasColumn x with
      | false => rfl
      | true =>
        rw [hhas, hgave] at hone
        cases hone
    rw [hcount, hgave]
    rcases hasColumn_eq_false_iff.mp hhas with hzero | htuples
    · simp [hzero, hnot hzero]
    · have hpos := htuples.1
      simp only [htuples, not_true_eq_false, iff_false]
      omega

/-! ## An order with its tenant -/

/-- `INSERT INTO orders SET (tenant_id, id) = (1, 2)` -/
def orderOfTenant : Insertion where
  head := "INSERT INTO"
  table := [.plain "orders"]
  naming := ""
  columns := []
  partition := []
  source := none
  assignments := [⟨.tuple [[.plain "tenant_id"], [.plain "id"]],
    .phrase [.text "(", .expr (.literal (.number "1")), .text ", ",
      .expr (.literal (.number "2")), .text ")"]⟩]
  rowAlias := ""
  onConflict := []
  returning := []

/-- An order that is inserted with its tenant gets another one, and names the column twice. -/
theorem not_named_once_tuple :
    let called := orderOfTenant.appendColumn "tenant_id" (.literal (.number "9"))
    orderOfTenant.render = "INSERT INTO orders SET (tenant_id, id) = (1, 2)" ∧
      orderOfTenant.nameCount "tenant_id" = 1 ∧
      called.1 = .appended ∧
      called.2.nameCount "tenant_id" = 2 ∧
      called.2.render = "INSERT INTO orders SET (tenant_id, id) = (1, 2), tenant_id = 9" := by
  decide +kernel

end Insertion

end RowPolicy.Sql
