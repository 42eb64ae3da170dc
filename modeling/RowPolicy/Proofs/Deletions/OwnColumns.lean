import RowPolicy.Proofs.Deletions.Idempotence
import RowPolicy.Proofs.Joins.Carried
import RowPolicy.Proofs.References.Owners

/-!
# Conditions that lift the filter of logic deletion

A table with a marking column gets no filter where the condition that the filter would stand behind
refers to that column. `LogicDelete.restrict_filters` says which references these are, in every
block: those to the table's own column, and in a block with no other relation, where the table has
no alias, also those to a column of that name that is behind any other name. Such a name is one of
a block further out, so the rows that are marked as deleted are seen through a condition on the rows
of another table.
-/

namespace RowPolicy

open Sql

namespace Sql

/-- The conditions that the predicate for a table in a block is asked with, if there are any. -/
def RowBlock.standing (b : RowBlock) (l : Leaf) : Option Expr :=
  standingIn l.around b.selection

/-- Whether a condition refers to a column of a relation outside the queries in it. -/
def Expr.RefersTo (e : Expr) (r : Relation) (column : String) : Prop :=
  ∃ n ∈ e.references, r.owns column n = true

/-- Whether a condition refers to a column of one name behind the name of another relation. -/
def Expr.RefersBeyond (e : Expr) (r : Relation) (column : String) : Prop :=
  ∃ n ∈ e.references, n.endsIn column = true ∧ r.owns column n = false

/-- What a search for a column of a table finds in a condition. -/
theorem Expr.mentions_iff {r : Relation} {scope : Scope} {qualify : Bool} {t : Target}
    (h : r.target? scope qualify = some t) (e : Expr) (column : String) :
    e.mentions column t.qualifier = true ↔
      e.RefersTo r column ∨ t.qualifier = none ∧ e.RefersBeyond r column := by
  simp only [mentions_eq_any, List.any_eq_true, r.isReference_eq h, Bool.or_eq_true,
    Bool.and_eq_true, Option.isNone_iff_eq_none]
  constructor
  · rintro ⟨n, hn, howns | ⟨hq, hends⟩⟩
    · exact .inl ⟨n, hn, howns⟩
    · cases howns : r.owns column n with
      | true => exact .inl ⟨n, hn, howns⟩
      | false => exact .inr ⟨hq, n, hn, hends, howns⟩
  · rintro (⟨n, hn, howns⟩ | ⟨hq, n, hn, hends, -⟩)
    · exact ⟨n, hn, .inl howns⟩
    · exact ⟨n, hn, .inr ⟨hq, hends⟩⟩

end Sql

namespace LogicDelete

variable (p : LogicDelete) {c : Context}

/-- The filter for a table. -/
def filter (t : Target) (mark : LogicDeleteColumn) : Expr :=
  (t.column mark.column).hasValue mark.notDeletedValue

/-- The answer for a table with a marking column. -/
theorem predicate_of_mark {t : Target} {known : TableMetadata} {mark : LogicDeleteColumn}
    (hknown : c.metadata t.table = some known) (hmark : known.logicDelete = some mark)
    (existing : Option Expr) :
    p.predicate c t existing = (.ok
      (if existing.any (·.mentions mark.column t.qualifier) then none else some (filter t mark)) :
        Except PolicyError (Option Expr)) := by
  have hresolve : Policy.resolve c t p.requireMetadata =
      (.ok (some known) : Except PolicyError _) :=
    Policy.resolve_eq_ok_iff.mpr ⟨hknown, fun h => by cases h⟩
  rw [p.predicate_eq hresolve, Option.bind_some, hmark, Option.bind_some]
  rfl

/-- **Which conditions lift the filter.** In a block that is restricted, every table with a marking
column that is asked for gets its filter, or none: it gets none if and only if the condition that
the filter would stand behind refers to the table's own column, or the table has no qualifier and
the condition refers to a column of that name of some other relation. A filter that is given is
among the conditions at its home, unless that is an outer join without `ON`. -/
theorem restrict_filters {strict : Bool} {b b' : RowBlock}
    (h : b.restrict strict (p.predicate c) = (.ok b' : Except PolicyError RowBlock)) :
    ∃ as : List Answer, b' = b.amended as ∧ as.map Prod.fst = b.leaves ∧
      ∀ x ∈ b.seats, ∀ l, x.leaf? b.scope b.qualify = some l →
        ∀ known mark, c.metadata l.target.table = some known → known.logicDelete = some mark →
          ∀ answer, (l, answer) ∈ as →
            (answer = none ↔ ∃ e, b.standing l = some e ∧
              (e.RefersTo x.relation mark.column ∨
                l.target.qualifier = none ∧ e.RefersBeyond x.relation mark.column)) ∧
            (answer ≠ none → answer = some (filter l.target mark) ∧
              ((∀ n, l.home ≠ .lost n) →
                b'.Carries (l.amended (additions as)) (filter l.target mark))) := by
  obtain ⟨ps, hps, rfl, -⟩ := RowBlock.restrict_eq_ok_iff.mp h
  refine ⟨b.leaves.zip ps, rfl, List.map_fst_zip (Nat.le_of_eq hps.length_eq), ?_⟩
  intro x _ l hleaf known mark hknown hmark answer hmem
  obtain ⟨t, ht, rfl⟩ := Option.map_eq_some_iff.mp hleaf
  have hasked : b.asks (p.predicate c) ⟨t, x.joins⟩ = (.ok answer : Except PolicyError _) :=
    (List.forall₂_iff_zip.mp hps).2 hmem
  rw [RowBlock.asks, p.predicate_of_mark hknown hmark, Except.ok.injEq] at hasked
  have hlifted : (b.standing ⟨t, x.joins⟩).any (·.mentions mark.column t.qualifier) = true ↔
      ∃ e, b.standing ⟨t, x.joins⟩ = some e ∧ (e.RefersTo x.relation mark.column ∨
        t.qualifier = none ∧ e.RefersBeyond x.relation mark.column) := by
    rw [Option.any_eq_true]
    exact exists_congr fun e => and_congr_right fun _ => Expr.mentions_iff ht e mark.column
  rw [← hlifted]
  constructor
  · rw [← hasked]
    split
    · rename_i hany
      exact iff_of_true rfl hany
    · rename_i hany
      exact iff_of_false (Option.some_ne_none _) hany
  · intro hne
    have hanswer : answer = some (filter t mark) := by
      rw [← hasked] at hne ⊢
      split at hne
      · exact absurd rfl hne
      · rename_i hany
        exact if_neg hany
    refine ⟨hanswer, fun hkept => ?_⟩
    subst hanswer
    exact RowBlock.carries_of_home (Expr.simple_hasValue _ _) (List.of_mem_zip hmem).1 hmem hkept

end LogicDelete

/-! ## The orders of a user -/

/-- The orders, under a name or without one. -/
def Sql.Relation.orders (naming : Option Alias) : Relation :=
  .table [.plain "orders"] "" none "" naming []

/-- `SELECT * FROM orders WHERE u.deleted = 0`, as it can stand in a block that reads users `u`. -/
def Sql.RowBlock.ordersOfUser (naming : Option Alias) : RowBlock :=
  .select .empty { Select.allOf "orders" with
    sources := [⟨.orders naming, []⟩]
    selection := some (.hasValue (.ofColumn (some "u") "deleted") (.integer 0)) }

theorem Sql.RowBlock.references_ordersOfUser {naming : Option Alias} {e : Expr}
    (he : (RowBlock.ordersOfUser naming).selection = some e) :
    e.references = [[.plain "u", .plain "deleted"]] := by
  obtain rfl := Option.some.inj he
  rfl

/-- Orders with an alias get the filter behind the condition on the user. -/
theorem LogicDelete.restrict_filters_ordersOfUser :
    let b := RowBlock.ordersOfUser (some ⟨true, .plain "o", ""⟩)
    ∃ b' e, b.restrict false (LogicDelete.predicate {} .ofMarked) =
        (.ok b' : Except PolicyError RowBlock) ∧
      b'.selection = some e ∧
      .hasValue (.ofColumn (some "o") "deleted") (.integer 0) ∈ e.conjuncts := by
  intro b
  obtain ⟨b', hrestrict⟩ : ∃ b', b.restrict false (LogicDelete.predicate {} .ofMarked) =
      (.ok b' : Except PolicyError RowBlock) := ⟨_, by with_unfolding_all rfl⟩
  obtain ⟨as, rfl, hleaves, hfilter⟩ := LogicDelete.restrict_filters {} hrestrict
  let r := Relation.orders (some ⟨true, .plain "o", ""⟩)
  let l : Leaf := ⟨⟨"orders", some "o", r.render⟩, []⟩
  have hknown : Context.ofMarked.metadata "orders" =
      some { table := "orders", logicDelete := some { column := "deleted" } } := by decide +kernel
  have hl : b.leaves = [l] := rfl
  rw [hl] at hleaves
  obtain ⟨⟨_, answer⟩, rfl, rfl⟩ := List.map_eq_singleton_iff.mp hleaves
  obtain ⟨hnone, hsome⟩ := hfilter ⟨r, []⟩ (.head _) l rfl _ _ hknown rfl answer (.head _)
  have hne : answer ≠ none := by
    intro hanswer
    obtain ⟨e, he, ⟨n, hn, howns⟩ | ⟨hq, -⟩⟩ := hnone.mp hanswer
    · rw [RowBlock.references_ordersOfUser he, List.mem_singleton] at hn
      subst hn
      exact absurd howns (by decide)
    · cases hq
  obtain ⟨-, hcarries⟩ := hsome hne
  obtain ⟨e, he, hmem⟩ := hcarries fun n hn => by cases hn
  exact ⟨_, e, hrestrict, he, hmem⟩

/-- Orders without a name of their own get none: the condition on the user lifts it, though it
refers to no column of the orders. -/
theorem LogicDelete.not_filtered_ordersOfUser :
    (RowBlock.ordersOfUser none).restrict false (LogicDelete.predicate {} .ofMarked) =
        (.ok (.ordersOfUser none) : Except PolicyError RowBlock) ∧
      (∀ e, (RowBlock.ordersOfUser none).selection = some e →
        ¬e.RefersTo (.orders none) "deleted") ∧
      Enforcer.enforce ⟨.generic, [LogicDelete.policy {}], .allowAll⟩
          "SELECT * FROM users u WHERE EXISTS (SELECT 1 FROM orders WHERE u.deleted = 0)"
          .ofMarked =
        (.ok "SELECT * FROM users u WHERE EXISTS (SELECT 1 FROM orders WHERE u.deleted = 0)" :
          Except PolicyError String) := by
  refine ⟨by with_unfolding_all rfl, ?_, eq_ok_of_toOption (by decide +kernel)⟩
  rintro e he ⟨n, hn, howns⟩
  rw [RowBlock.references_ordersOfUser he, List.mem_singleton] at hn
  subst hn
  exact absurd howns (by decide)

end RowPolicy
