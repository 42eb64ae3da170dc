import RowPolicy.Enforcer
import RowPolicy.Proofs.Outcomes
import RowPolicy.Proofs.Properties.Accessors
import RowPolicy.Proofs.Properties.Conditions

/-!
# Which mappings of properties are honoured

The metadata of a table maps properties to columns. A reference is sent to the property that it
names before the mapping is looked up, so a property has the column that it is mapped to if its name
is its own: `TableMetadata.columnFor_mapped`. The mapping of a property with the name of an accessor,
or with one capital in front, is never looked up under that name, and the column is that of another
property (`TableMetadata.not_mapped_isDeleted`).
-/

namespace RowPolicy

open Sql

namespace TableMetadata

variable {t : TableMetadata} {property : String}

theorem columnOf_of_lookup {column : String} (h : t.columns.lookup property = some column) :
    t.columnOf property = column := by
  rw [columnOf, h, Option.getD_some]

/-- A mapping is found in the metadata that it was added to. -/
theorem lookup_withColumn (t : TableMetadata) (property column : String) :
    (t.withColumn property column).columns.lookup property = some column := by
  have hnone : (t.columns.filter (·.1 != property)).lookup property = none := by
    rw [List.lookup_eq_none_iff]
    intro x hx
    have hx := (List.mem_filter.mp hx).2
    rwa [bne_comm] at hx
  rw [withColumn, List.lookup_append, hnone, Option.none_or]
  simp

/-- A mapping is of no account to other properties. -/
theorem columnOf_withColumn {other : String} (h : other ≠ property) (column : String) :
    (t.withColumn property column).columnOf other = t.columnOf other := by
  have hlookup : (t.columns.filter (·.1 != property)).lookup other = t.columns.lookup other := by
    induction t.columns with
    | nil => rfl
    | cons x xs ih =>
      by_cases hx : x.1 = property
      · have hne : (other == x.1) = false := by simpa [hx] using h
        rw [List.filter_cons_of_neg (by simpa using hx), ih, List.lookup_cons, hne]
      · rw [List.filter_cons_of_pos (by simpa using hx), List.lookup_cons, List.lookup_cons, ih]
  have hlast : [(property, column)].lookup other = none := by
    rw [List.lookup_cons, beq_eq_false_iff_ne.mpr h]
    rfl
  rw [columnOf, withColumn, List.lookup_append, hlookup, hlast, Option.or_none, columnOf]

/-- **Which mappings are honoured.** A property has the column that it is mapped to, in all
metadata, if and only if its name is that of no accessor and begins with no capital, unless with two
of them; otherwise its mapping is of no account to its column. If the name begins with a small letter
and its second is no capital, then all accessors of the property have the column that it is mapped
to, whatever else is mapped. A condition on a property under the default names tests the column of
the property, for every table that is asked for under the name that the condition is for: a block is
amended without fail, unless the condition is strict, and carries the test unless its home is an
outer join without `ON`. -/
theorem columnFor_mapped (property : String) :
    ((∀ (t : TableMetadata) (column : String), t.columns.lookup property = some column →
        t.columnFor property = column) ↔
      ¬Property.IsAccessor property.toList ∧ ¬Property.Capitalized property.toList) ∧
    (Property.IsAccessor property.toList ∨ Property.Capitalized property.toList →
      ∀ (t : TableMetadata) (column : String),
        (t.withColumn property column).columnFor property = t.columnFor property) ∧
    (∀ (c : Char) (rest : List Char), property = String.ofList (c :: rest) → c.isLower = true →
      (∀ d ∈ rest.head?, d.isUpper = false) →
      ∀ (t : TableMetadata) (column : String), t.columns.lookup property = some column →
        ∀ word ∈ Property.accessorWords,
          t.columnFor (String.ofList (word ++ c.toUpper :: rest)) = column) ∧
    ∀ (p : Condition) (c : Context) (v : Value), p.property = Property.name →
      (property, v) ∈ p.conditions → ∀ (strict : Bool) (b : RowBlock),
        let as := p.answers c b
        (∀ b', b.restrict strict (fun t _ => p.predicate c t) =
            (.ok b' : Except PolicyError RowBlock) ↔
          b' = b.amended as ∧ (strict = true → ¬Refused b.steps ∧ lostOf as = [])) ∧
        ∀ l ∈ b.leaves, Text.sameName l.target.table p.table = true →
          ∀ known, c.metadata l.target.table = some known → (∀ n, l.home ≠ .lost n) →
            (b.amended as).Carries (l.amended (additions as))
              ((l.target.column (known.columnFor property)).hasValue v) := by
  have hown := Property.name_eq_self_iff property
  refine ⟨⟨fun h => ?_, fun h t column hcolumn => ?_⟩, fun h t column => ?_, ?_, ?_⟩
  · -- The metadata with two mappings tells the property from the one that it is taken for.
    rw [← hown]
    by_contra hne
    let t : TableMetadata :=
      (({ table := "" } : TableMetadata).withColumn (Property.name property) "").withColumn
        property "a"
    have hmapped : t.columnFor property = "a" := h t "a" (lookup_withColumn _ _ _)
    rw [columnFor, columnOf_withColumn hne, columnOf_of_lookup (lookup_withColumn _ _ _)]
      at hmapped
    exact absurd hmapped (by decide)
  · rw [columnFor, hown.mpr h, columnOf_of_lookup hcolumn]
  · have hne : Property.name property ≠ property := fun heq => by
      obtain ⟨haccessor, hcapital⟩ := hown.mp heq
      exact h.elim haccessor hcapital
    rw [columnFor, columnOf_withColumn hne, columnFor]
  · rintro c rest rfl hc hrest t column hcolumn word hword
    rw [columnFor, Property.name_accessor hword hc hrest, columnOf_of_lookup hcolumn]
  · intro p c v hp hv strict b as
    refine ⟨fun b' => Condition.restrict_eq_ok_iff, fun l hl htable known hknown hkept => ?_⟩
    have htest : p.test c l.target (property, v) =
        (l.target.column (known.columnFor property)).hasValue v := by
      rw [Condition.test, Condition.column, hknown, hp]
      rfl
    rw [← htest]
    exact Condition.carries_test hl htable hkept hv

end TableMetadata

/-! ## Users that are deleted -/

/-- Users, whose mark has the name of an accessor. -/
def TableMetadata.markedUsers : TableMetadata :=
  { table := "users", columns := [("isDeleted", "is_deleted")] }

/-- The mark of users is mapped, but a condition on it tests another column. -/
theorem TableMetadata.not_mapped_isDeleted :
    TableMetadata.markedUsers.columns.lookup "isDeleted" = some "is_deleted" ∧
      TableMetadata.markedUsers.columnFor "isDeleted" = "deleted" ∧
      Enforcer.enforce ⟨.generic,
          [Condition.policy { table := "users", conditions := [("isDeleted", .boolean false)] }],
          .allowAll⟩ "SELECT * FROM users" (.ofRegistry (.ofList [.markedUsers])) =
        (.ok "SELECT * FROM users WHERE deleted = false" : Except PolicyError String) := by
  exact ⟨by decide, by decide, eq_ok_of_toOption (by decide +kernel)⟩

end RowPolicy
