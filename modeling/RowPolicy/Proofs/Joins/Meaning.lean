import RowPolicy.Sql.Restrict

/-!
# What a `FROM` and a `WHERE` mean

A block reads a bag of combinations of rows, one row for each relation of its `FROM`. Conditions are
evaluated in three-valued logic and keep a combination where they are true. An outer join keeps the
rows of its preserved sides that have no match, with nulls for the relations of the other side. Of
semi, anti, as-of and apply joins nothing but the matches is here: the statements leave them out.

The contents of tables, the rows of derived tables, and the truth of everything but `AND`, `OR`,
`XOR` and parentheses are a `Meaning`, about which nothing is assumed. Bags are lists, so equal
lists are equal bags.
-/

namespace RowPolicy.Sql

/-! ## Truth -/

/-- The truth values of SQL. -/
inductive Truth where
  | no
  | unknown
  | yes
  deriving DecidableEq, Repr

namespace Truth

/-- The value of a conjunction. -/
def and : Truth → Truth → Truth
  | no, _ => no
  | _, no => no
  | yes, yes => yes
  | _, _ => unknown

/-- The value of a disjunction. -/
def or : Truth → Truth → Truth
  | yes, _ => yes
  | _, yes => yes
  | no, no => no
  | _, _ => unknown

/-- The value of an exclusive disjunction. -/
def xor : Truth → Truth → Truth
  | unknown, _ => unknown
  | _, unknown => unknown
  | yes, yes => no
  | no, no => no
  | _, _ => yes

/-- A conjunction is true only where both sides are. -/
theorem and_eq_yes {a b : Truth} : a.and b = yes ↔ a = yes ∧ b = yes := by
  cases a <;> cases b <;> decide

end Truth

/-! ## Combinations of rows -/

/-- A relation of a `FROM` by its name, with its row in a combination: no row stands for nulls. -/
structure Binding (Row : Type) where
  name : Option String
  row : Option Row
  deriving DecidableEq, Repr

/-- A combination of rows, in the order of the relations. -/
abbrev Combination (Row : Type) := List (Binding Row)

namespace Combination

variable {Row : Type}

/-- The row of the relation of a name: none where there is no such relation, `some none` for
nulls. -/
def row? (u : Combination Row) (name : String) : Option (Option Row) :=
  (u.find? (·.name = some name)).map (·.row)

/-- Nulls for relations of these names. -/
def nulls (names : List (Option String)) : Combination Row :=
  names.map (⟨·, none⟩)

/-- The names of the relations. -/
def names (u : Combination Row) : List (Option String) :=
  u.map (·.name)

end Combination

/-- What a block reads: the rows of tables, the rows of all other relations where the rows before
them are given, the truth of conditions that are not put together by logical operators, and the
truth of a `USING` or `NATURAL` between the two sides of a join. -/
structure Meaning (Row : Type) where
  stored : Relation → List Row
  computed : Relation → Combination Row → List Row
  truth : Expr → Combination Row → Truth
  shared : Bool → String → Combination Row → Combination Row → Truth

namespace Meaning

variable {Row : Type} (M : Meaning Row)

/-- The truth of a condition. -/
def eval (u : Combination Row) : Expr → Truth
  | .nested e => eval u e
  | .binary l .and r => (eval u l).and (eval u r)
  | .binary l .or r => (eval u l).or (eval u r)
  | .binary l .xor r => (eval u l).xor (eval u r)
  | e => M.truth e u

/-- Whether a condition is true. -/
def holds (e : Expr) (u : Combination Row) : Bool :=
  M.eval u e == .yes

/-- Whether a condition that may be missing lets a combination pass. -/
def admits (e : Option Expr) (u : Combination Row) : Bool :=
  e.all (M.holds · u)

/-- Whether a combination of the left side of a join matches one of the right side. -/
def matched (j : Join) (l r : Combination Row) : Bool :=
  match j.on with
  | some e => M.holds e (l ++ r)
  | none => (!j.isNatural && j.columns == "") || M.shared j.isNatural j.columns l r == .yes

end Meaning

/-! ## Names of relations -/

/-- The name by which the columns of a relation are called. -/
def Relation.name? : Relation → Option String
  | .table name _ _ _ naming _ => (naming.map (·.name.value)).or (Name.last? name)
  | .derived _ _ naming => naming.map (·.name.value)
  | .nested _ naming => naming.map (·.name.value)
  | .transformed _ _ _ naming => naming.map (·.name.value)
  | .other _ _ naming _ => naming.map (·.name.value)

mutual

/-- The names of the relations in a tree of joins, in order. -/
def JoinTree.names : JoinTree → List (Option String)
  | ⟨relation, joins⟩ => relation.names ++ joinsNames joins

/-- The names of the relations that are joined, in order. -/
def joinsNames : List Join → List (Option String)
  | [] => []
  | ⟨_, _, _, relation, _, _, _⟩ :: js => relation.names ++ joinsNames js

/-- The names of the relations in a relation: those of a nested join, or its own. -/
def Relation.names : Relation → List (Option String)
  | .nested tree _ => tree.names
  | r => [r.name?]

end

/-- The names of the relations of a `FROM`, in order. -/
def treesNames (ts : List JoinTree) : List (Option String) :=
  ts.flatMap (·.names)

/-! ## Induction over joins -/

/-- Whether a relation is no nested join. -/
def Relation.isLeaf : Relation → Bool
  | .nested _ _ => false
  | _ => true

/-- Induction over trees of joins, all relations but nested joins alike. -/
theorem JoinTree.induction {P : JoinTree → Prop} {Q : List Join → Prop} {R : Relation → Prop}
    (tree : ∀ relation joins, R relation → Q joins → P ⟨relation, joins⟩)
    (nil : Q [])
    (cons : ∀ j js, R j.relation → Q js → Q (j :: js))
    (nested : ∀ t naming, P t → R (.nested t naming))
    (leaf : ∀ r, r.isLeaf → R r) : (∀ t, P t) ∧ (∀ js, Q js) ∧ ∀ r, R r :=
  ⟨onTree, onJoins, onRelation⟩
where
  onTree : (t : JoinTree) → P t
    | ⟨relation, joins⟩ => tree relation joins (onRelation relation) (onJoins joins)
  onJoins : (js : List Join) → Q js
    | [] => nil
    | ⟨isGlobal, isNatural, kind, relation, matching, on, columns⟩ :: js =>
      cons ⟨isGlobal, isNatural, kind, relation, matching, on, columns⟩ js (onRelation relation)
        (onJoins js)
  onRelation : (r : Relation) → R r
    | .nested t naming => nested t naming (onTree t)
    | .table .. => leaf _ rfl
    | .derived .. => leaf _ rfl
    | .transformed .. => leaf _ rfl
    | .other .. => leaf _ rfl

theorem joinsNames_cons (j : Join) (js : List Join) :
    joinsNames (j :: js) = j.relation.names ++ joinsNames js := by
  cases j
  rw [joinsNames]

theorem Relation.names_leaf {r : Relation} (h : r.isLeaf) : r.names = [r.name?] := by
  cases r with
  | nested => simp [Relation.isLeaf] at h
  | _ => rw [Relation.names]; exact fun _ _ h => by cases h

/-! ## Rows -/

/-- Whether a join keeps the combinations of its left side that have no match. -/
def JoinKind.keepsLeft : JoinKind → Bool
  | .left | .leftOuter | .full => true
  | _ => false

/-- Whether a join keeps the combinations of its right side that have no match. -/
def JoinKind.keepsRight : JoinKind → Bool
  | .right | .rightOuter | .full => true
  | _ => false

namespace Meaning

variable {Row : Type} (M : Meaning Row)

/-- The combinations that one of the left side has with those of the right side. -/
def joinOne (j : Join) (l : Combination Row) (right : List (Combination Row)) :
    List (Combination Row) :=
  match right.filter (M.matched j l) with
  | [] => if j.kind.keepsLeft then [l ++ .nulls j.relation.names] else []
  | rs => rs.map (l ++ ·)

/-- The combinations of the right side of a join that match none of the left side, `names` being
the relations there. -/
def joinRest (j : Join) (names : List (Option String)) (left right : List (Combination Row)) :
    List (Combination Row) :=
  if j.kind.keepsRight then
    (right.filter fun r => !left.any (M.matched j · r)).map (.nulls names ++ ·)
  else []

/-- The combinations of a join, where `right` answers those of the right side for one of the left
side, and `rest` are those of the right side alone. -/
def joined (j : Join) (names : List (Option String)) (left : List (Combination Row))
    (right : Combination Row → List (Combination Row)) (rest : List (Combination Row)) :
    List (Combination Row) :=
  left.flatMap (fun l => M.joinOne j l (right l)) ++ M.joinRest j names left rest

/-- The rows of a relation that is no nested join. -/
def leafRows (before : Combination Row) : Relation → List Row
  | r@(.table _ _ none _ _ _) => M.stored r
  | r@(.derived false _ _) => M.computed r []
  | r => M.computed r before

mutual

/-- The combinations of a tree of joins behind the relations `before`. -/
def treeRows (before : Combination Row) : JoinTree → List (Combination Row)
  | ⟨relation, joins⟩ => joinsRows before relation.names (relationRows before relation) joins

/-- The combinations `left` of relations `names` with those of the joins behind them. A relation
that is called for each combination of the left side sees it; one whose own combinations are kept
does not. -/
def joinsRows (before : Combination Row) (names : List (Option String))
    (left : List (Combination Row)) : List Join → List (Combination Row)
  | [] => left
  | ⟨isGlobal, isNatural, kind, relation, matching, on, columns⟩ :: js =>
    let j := ⟨isGlobal, isNatural, kind, relation, matching, on, columns⟩
    let right (l : Combination Row) : List (Combination Row) :=
      relationRows (if kind.keepsRight then before else before ++ l) relation
    joinsRows before (names ++ relation.names) (M.joined j names left right (right [])) js

/-- The combinations of a relation: those of a nested join, or one for each row. -/
def relationRows (before : Combination Row) : Relation → List (Combination Row)
  | .nested tree _ => treeRows before tree
  | r => (M.leafRows before r).map fun row => [⟨r.name?, some row⟩]

end

theorem joinsRows_cons (before : Combination Row) (names : List (Option String))
    (left : List (Combination Row)) (j : Join) (js : List Join) :
    M.joinsRows before names left (j :: js) =
      M.joinsRows before (names ++ j.relation.names)
        (M.joined j names left
          (fun l => M.relationRows (if j.kind.keepsRight then before else before ++ l) j.relation)
          (M.relationRows (if j.kind.keepsRight then before else before ++ []) j.relation)) js := by
  cases j
  rw [joinsRows]

theorem relationRows_leaf {r : Relation} (h : r.isLeaf) (before : Combination Row) :
    M.relationRows before r = (M.leafRows before r).map fun row => [⟨r.name?, some row⟩] := by
  cases r with
  | nested => simp [Relation.isLeaf] at h
  | _ => rw [relationRows]; exact fun _ _ h => by cases h

/-- The combinations of a `FROM`. -/
def treesRows (before : Combination Row) : List JoinTree → List (Combination Row)
  | [] => [[]]
  | t :: ts =>
    (M.treeRows before t).flatMap fun l => (treesRows (before ++ l) ts).map (l ++ ·)

/-- The combinations that the `FROM` and `WHERE` of a block yield. -/
def blockRows (s : Select) : List (Combination Row) :=
  (M.treesRows [] s.sources).filter (M.admits s.selection)

end Meaning

/-! ## Tables of columns -/

/-- A row by its columns, those without a value left out. -/
abbrev Columns := List (String × String)

/-- The value of a column in a combination of rows, if it has one. -/
def Combination.value? (u : Combination Columns) (relation column : String) : Option String := do
  let row ← u.row? relation
  (← row).lookup column

/-- The truth of an equation between values that may be missing. -/
def Truth.ofEquation : Option String → Option String → Truth
  | some x, some y => if x = y then yes else no
  | _, _ => unknown

/-- The meaning over given tables, with equations between columns and with numbers as the only
conditions. -/
def Meaning.ofTables (tables : String → List Columns) : Meaning Columns where
  stored
    | .table name _ _ _ _ _ => ((Name.last? name).map tables).getD []
    | _ => []
  computed _ _ := []
  truth
    | .binary (.column [q, x]) .eq (.column [r, y]), u =>
      .ofEquation (u.value? q.value x.value) (u.value? r.value y.value)
    | .binary (.column [q, x]) .eq (.literal (.number n)), u =>
      .ofEquation (u.value? q.value x.value) (some n)
    | _, _ => .unknown
  shared _ _ _ _ := .unknown

end RowPolicy.Sql
