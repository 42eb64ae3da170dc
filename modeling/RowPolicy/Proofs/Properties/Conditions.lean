import RowPolicy.Policy.Condition
import RowPolicy.Proofs.Failures.Lenience
import RowPolicy.Proofs.Joins.Carried
import RowPolicy.Proofs.Joins.Settled

/-!
# What fixed conditions add to a block

Fixed conditions answer for a table without fail: with the conjunction of their tests, or with
nothing for another table (`Condition.predicate_eq`). So a block is amended by these answers
(`Condition.restrict_eq_ok_iff`), and carries each test of each table that the conditions are for
(`Condition.carries_test`).
-/

namespace RowPolicy

open Sql

/-! ## Conjunctions of simple conditions -/

theorem Sql.Expr.conjuncts_withAll {e : Expr} (he : e.parenthesized = e) {ps : List Expr}
    (hps : ∀ p ∈ ps, p.Simple) :
    (e.withAll ps).parenthesized = e.withAll ps ∧ (e.withAll ps).conjuncts = e.conjuncts ++ ps := by
  induction ps generalizing e with
  | nil => exact ⟨he, (List.append_nil _).symm⟩
  | cons p ps ih =>
    obtain ⟨hp, hps⟩ := List.forall_mem_cons.mp hps
    obtain ⟨hself, hconjuncts⟩ := ih (e := .conjoin (some e) p) rfl hps
    refine ⟨hself, hconjuncts.trans ?_⟩
    rw [conjoin, Expr.conjuncts.eq_1, he, hp.parenthesized, hp.conjuncts, List.append_assoc]
    rfl

/-- Simple conditions make up a conjunction that consists of them. -/
theorem Sql.Expr.conjuncts_conjoinAll {ps : List Expr} (hps : ∀ p ∈ ps, p.Simple) {q : Expr}
    (h : Expr.conjoinAll none ps = some q) : q.parenthesized = q ∧ q.conjuncts = ps := by
  cases ps with
  | nil => cases h
  | cons p ps =>
    obtain ⟨hp, hps⟩ := List.forall_mem_cons.mp hps
    have hq : q = p.withAll ps := by
      have hfirst : Expr.conjoinAll none (p :: ps) = some (p.parenthesized.withAll ps) :=
        Expr.conjoinAll_some _ _
      rw [h, hp.parenthesized] at hfirst
      exact Option.some.inj hfirst
    obtain ⟨hself, hconjuncts⟩ := Expr.conjuncts_withAll hp.parenthesized hps
    rw [hq, hconjuncts, hp.conjuncts]
    exact ⟨hself, rfl⟩

namespace Condition

variable (p : Condition) (c : Context)

/-! ## Answers -/

/-- The column that a condition on a table tests: that of its property. -/
def column (table name : String) : String :=
  ((c.metadata table).map (·.columnOf (p.property name))).getD (p.property name)

/-- The test of a condition. -/
def test (t : Target) (condition : String × Value) : Expr :=
  (t.column (p.column c t.table condition.1)).hasValue condition.2

/-- What is answered for a table. -/
def answer (t : Target) : Option Expr :=
  if Text.sameName t.table p.table then Expr.conjoinAll none (p.conditions.map (p.test c t))
  else none

theorem predicate_eq (t : Target) :
    p.predicate c t = (.ok (p.answer c t) : Except PolicyError (Option Expr)) := by
  rw [predicate, Policy.resolve_of_lenient, answer]
  split <;> rfl

/-- The answer for a table that the conditions are for consists of their tests. -/
theorem exists_answer {t : Target} (ht : Text.sameName t.table p.table = true)
    (hp : p.conditions ≠ []) :
    ∃ q, p.answer c t = some q ∧ q.parenthesized = q ∧
      q.conjuncts = p.conditions.map (p.test c t) := by
  obtain ⟨q, hq⟩ : ∃ q, Expr.conjoinAll none (p.conditions.map (p.test c t)) = some q := by
    cases hconditions : p.conditions with
    | nil => exact absurd hconditions hp
    | cons x xs => exact ⟨_, Expr.conjoinAll_some _ _⟩
  have hsimple : ∀ e ∈ p.conditions.map (p.test c t), e.Simple :=
    List.forall_mem_map.mpr fun _ _ => Expr.simple_hasValue _ _
  rw [answer, if_pos ht]
  exact ⟨q, hq, Expr.conjuncts_conjoinAll hsimple hq⟩

/-! ## Blocks -/

/-- The answers for the tables of a block. -/
def answers (b : RowBlock) : List Answer :=
  b.leaves.map fun l => (l, p.answer c l.target)

variable {p c}

/-- A block is amended by the answers, without fail unless the conditions are strict. -/
theorem restrict_eq_ok_iff {strict : Bool} {b b' : RowBlock} :
    b.restrict strict (fun t _ => p.predicate c t) = (.ok b' : Except PolicyError RowBlock) ↔
      b' = b.amended (p.answers c b) ∧
        (strict = true → ¬Refused b.steps ∧ lostOf (p.answers c b) = []) := by
  have hasked : ∀ ps, List.Forall₂ (fun l q => b.asks (fun t _ => p.predicate c t) l =
      (.ok q : Except PolicyError _)) b.leaves ps ↔ ps = b.leaves.map (p.answer c ·.target) := by
    intro ps
    simp only [RowBlock.asks, p.predicate_eq, Except.ok.injEq]
    rw [← List.forall₂_map_left_iff (f := fun l : Leaf => p.answer c l.target),
      List.forall₂_eq_eq_eq, eq_comm]
  have hanswers : b.leaves.zip (b.leaves.map (p.answer c ·.target)) = p.answers c b := by
    rw [answers, List.zip_map_right, List.zip_eq_zipWith, List.zipWith_self, List.map_map]
    rfl
  rw [RowBlock.restrict_eq_ok_iff]
  simp only [hasked, exists_eq_left, hanswers]

/-- A block carries each test of a table that the conditions are for, unless its home is an outer
join without `ON`. -/
theorem carries_test {b : RowBlock} {l : Leaf} (hl : l ∈ b.leaves)
    (ht : Text.sameName l.target.table p.table = true) (hkept : ∀ n, l.home ≠ .lost n)
    {x : String × Value} (hx : x ∈ p.conditions) :
    (b.amended (p.answers c b)).Carries (l.amended (additions (p.answers c b)))
      (p.test c l.target x) := by
  obtain ⟨q, hq, hself, hconjuncts⟩ := p.exists_answer c ht (List.ne_nil_of_mem hx)
  have hmem : (l, some q) ∈ p.answers c b := List.mem_map.mpr ⟨l, hl, by rw [hq]⟩
  refine RowBlock.carries_conjunct hself ?_ hl hmem hkept
  rw [hconjuncts]
  exact List.mem_map_of_mem hx

end Condition

end RowPolicy
