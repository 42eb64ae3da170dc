import RowPolicy.Proofs.References.Seats

/-!
# Columns of one relation

A reference is to a relation's own column if it is bare or behind the name that the relation has in
its block. A search that asks for a qualifier finds references to own columns only; without one it
finds those behind any name. `Expr.mentions_eq_any` lists what is searched.
-/

namespace RowPolicy.Sql

/-! ## References to own columns -/

/-- Whether a name is the column `v` of a relation: bare, or behind the name that the relation has
in its block. -/
def Relation.owns (r : Relation) (v : String) (n : Name) : Bool :=
  match r.exposed? with
  | some x => isReference n v (some x.value)
  | none => false

/-- Without a qualifier only the last part of a reference counts. -/
theorem isReference_none (n : Name) (v : String) : isReference n v none = n.endsIn v := by
  unfold Name.endsIn Name.last? isReference
  rw [← List.head?_reverse]
  generalize n.reverse = back
  rcases back with _ | ⟨last, _ | ⟨owner, front⟩⟩ <;> simp

theorem endsIn_of_isReference {n : Name} {v q : String} (h : isReference n v (some q) = true) :
    n.endsIn v = true := by
  rw [← isReference_none]
  unfold isReference at h ⊢
  generalize n.reverse = back at h ⊢
  rcases back with _ | ⟨last, _ | ⟨owner, front⟩⟩
  · cases h
  · exact h
  · simp only [Bool.and_eq_true] at h ⊢
    exact ⟨h.1, trivial⟩

/-- A relation's own column is called by the name of the column. -/
theorem Relation.endsIn_of_owns {r : Relation} {v : String} {n : Name} (h : r.owns v n = true) :
    n.endsIn v = true := by
  unfold owns at h
  split at h
  · exact endsIn_of_isReference h
  · cases h

/-- A table is qualified by its name, or by nothing where tables are not qualified. -/
theorem Relation.qualifier_of_target? {r : Relation} {scope : Scope} {qualify : Bool} {t : Target}
    (h : r.target? scope qualify = some t) :
    r.isLeaf = true ∧ ((t.qualifier = none ∧ qualify = false) ∨
      ∃ x, r.exposed? = some x ∧ t.qualifier = some x.value) := by
  cases r with
  | table name partition arguments ordinality naming after =>
    cases arguments with
    | some ps => cases h
    | none =>
      obtain ⟨table, hbase, rfl⟩ := Option.map_eq_some_iff.mp h
      refine ⟨rfl, ?_⟩
      cases naming with
      | some a => exact .inr ⟨a.name, rfl, rfl⟩
      | none =>
        cases qualify with
        | false => exact .inl ⟨rfl, rfl⟩
        | true =>
          obtain ⟨x, hlast, rfl⟩ := Option.map_eq_some_iff.mp (Scope.last?_of_baseTable? hbase)
          exact .inr ⟨x, hlast, rfl⟩
  | _ => cases h

/-- What a search for a column of a table finds: its own column, and where the table has no
qualifier, a column of that name of any other relation. -/
theorem Relation.isReference_eq {r : Relation} {scope : Scope} {qualify : Bool} {t : Target}
    (h : r.target? scope qualify = some t) (v : String) (n : Name) :
    isReference n v t.qualifier = (r.owns v n || t.qualifier.isNone && n.endsIn v) := by
  obtain ⟨-, ⟨hq, -⟩ | ⟨x, hx, hq⟩⟩ := r.qualifier_of_target? h
  · rw [hq, isReference_none, Option.isNone_none, Bool.true_and]
    cases howns : r.owns v n with
    | false => rw [Bool.false_or]
    | true => rw [r.endsIn_of_owns howns, Bool.or_self]
  · rw [hq, Option.isNone_some, Bool.false_and, Bool.or_false, owns, hx]

/-! ## References in expressions -/

mutual

/-- The references to columns in an expression, outside the queries in it. -/
def Expr.references : Expr → List Name
  | .column path => [path]
  | .literal _ => []
  | .binary l _ r => l.references ++ r.references
  | .isNull e => e.references
  | .nested e => e.references
  | .call _ rest => piecesReferences rest
  | .phrase ps => piecesReferences ps

/-- The references to columns in a piece of an expression. -/
def Piece.references : Piece → List Name
  | .text _ => []
  | .expr e => e.references
  | .query _ => []
  | .relation _ => []
  | .swapped first second => piecesReferences first ++ piecesReferences second

/-- The references to columns in a phrase. -/
def piecesReferences : List Piece → List Name
  | [] => []
  | p :: ps => p.references ++ piecesReferences ps

end

section Mentions

variable (column : String) (qualifier : Option String)

mutual

/-- A search for a column looks at the references outside of queries. -/
theorem Expr.mentions_eq_any : (e : Expr) →
    e.mentions column qualifier = e.references.any (isReference · column qualifier)
  | .column _ => by simp [Expr.mentions, Expr.references]
  | .literal _ => rfl
  | .binary l _ r => by
    simp only [Expr.mentions, Expr.references, List.any_append, l.mentions_eq_any,
      r.mentions_eq_any]
  | .isNull e => e.mentions_eq_any
  | .nested e => e.mentions_eq_any
  | .call _ rest => piecesMention_eq_any rest
  | .phrase ps => piecesMention_eq_any ps

theorem Piece.mentions_eq_any : (p : Piece) →
    p.mentions column qualifier = p.references.any (isReference · column qualifier)
  | .text _ => rfl
  | .expr e => e.mentions_eq_any
  | .query _ => rfl
  | .relation _ => rfl
  | .swapped first second => by
    simp only [Piece.mentions, Piece.references, List.any_append, piecesMention_eq_any first,
      piecesMention_eq_any second]

theorem piecesMention_eq_any : (ps : List Piece) →
    piecesMention column qualifier ps = (piecesReferences ps).any (isReference · column qualifier)
  | [] => rfl
  | p :: ps => by
    simp only [piecesMention, piecesReferences, List.any_append, p.mentions_eq_any,
      piecesMention_eq_any ps]

end

end Mentions

end RowPolicy.Sql
