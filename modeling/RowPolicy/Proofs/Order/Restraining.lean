import RowPolicy.Proofs.Blocks.Restraints
import RowPolicy.Proofs.Erasure.Statements

/-!
# Policies that restrain

Logic deletion, the separation of tenants and fixed conditions restrain statements: each asks a
predicate for each table, which looks at no more than the name and the qualifier of the table and at
the columns that are mentioned in the condition. A run of such a policy on a statement with rows is
the run of its `Restraint`, and then its hook for whole statements (`Policy.Restrains.run_eq`).
-/

namespace RowPolicy

open Sql

/-! ## Predicates -/

/-- What is known of a table does not rest on how it is written. -/
theorem Policy.resolve_of_table {c : Context} {t t' : Target} {required : Bool}
    {known : Option TableMetadata} (htable : t.table = t'.table)
    (h : Policy.resolve c t required = (.ok known : Except PolicyError _)) :
    Policy.resolve c t' required = (.ok known : Except PolicyError _) := by
  rw [Policy.resolve_eq_ok_iff] at h ⊢
  rwa [← htable]

theorem Sql.Target.column_of_qualifier {t t' : Target} (h : t.qualifier = t'.qualifier)
    (column : String) : t.column column = t'.column column := by
  rw [Target.column, Target.column, h]

theorem LogicDelete.shallow (p : LogicDelete) (c : Context) :
    Shallow (p.predicate c : Target → Option Expr → Except PolicyError (Option Expr)) := by
  intro t t' e e' r htable hqualifier hmentioned h
  obtain ⟨known, hknown⟩ := p.exists_resolve h
  have hmentions : ∀ column, e.any (·.mentions column t.qualifier) =
      e'.any (·.mentions column t'.qualifier) := by
    intro column
    have hany : ∀ x : Option Expr, x.any (·.mentions column t.qualifier) =
        (x.map Expr.mentioned).any fun g => g column t.qualifier := by
      intro x
      cases x <;> rfl
    rw [← hqualifier, hany, hany, hmentioned]
  rw [p.predicate_eq hknown] at h
  rw [p.predicate_eq (Policy.resolve_of_table htable hknown), ← h]
  simp only [hmentions, Target.column_of_qualifier hqualifier]

theorem Tenant.shallow (p : Tenant) (c : Context) :
    Shallow (fun t _ => p.predicate c t :
      Target → Option Expr → Except PolicyError (Option Expr)) := by
  intro t t' e e' r htable hqualifier _ h
  obtain ⟨column, hcolumn, h⟩ := bind_eq_ok_iff.mp h
  obtain ⟨known, hknown, hcolumn⟩ := bind_eq_ok_iff.mp hcolumn
  refine bind_eq_ok_iff.mpr ⟨column,
    bind_eq_ok_iff.mpr ⟨known, Policy.resolve_of_table htable hknown, hcolumn⟩, ?_⟩
  cases column with
  | none => exact h
  | some column =>
    obtain ⟨v, hv, h⟩ := bind_eq_ok_iff.mp h
    rw [Policy.demand_eq_ok_iff] at hv
    refine bind_eq_ok_iff.mpr ⟨v, Policy.demand_eq_ok_iff.mpr hv, ?_⟩
    rwa [← Target.column_of_qualifier hqualifier]

theorem Condition.shallow (p : Condition) (c : Context) :
    Shallow (fun t _ => p.predicate c t :
      Target → Option Expr → Except PolicyError (Option Expr)) := by
  intro t t' e e' r htable hqualifier _ h
  change p.predicate c t = _ at h
  change p.predicate c t' = _
  unfold Condition.predicate at h ⊢
  rw [← htable]
  split at h
  · rename_i hsame
    obtain ⟨known, hknown, h⟩ := bind_eq_ok_iff.mp h
    rw [if_pos hsame]
    refine bind_eq_ok_iff.mpr ⟨known, Policy.resolve_of_table htable hknown, ?_⟩
    simpa only [Target.column_of_qualifier hqualifier] using h
  · rename_i hother
    rwa [if_neg hother]

/-! ## Restraints -/

/-- The restraint of logic deletion. -/
def LogicDelete.restraint (p : LogicDelete) (c : Context) : Restraint :=
  .ofPredicate p.strict (p.predicate c) (p.shallow c) fun _ _ _ h => p.blockless_of_predicate h

/-- The restraint of the separation of tenants. -/
def Tenant.restraint (p : Tenant) (c : Context) : Restraint :=
  .ofPredicate p.strict (fun t _ => p.predicate c t) (p.shallow c)
    fun _ _ _ h => p.blockless_of_predicate h

/-- The restraint of fixed conditions. -/
def Condition.restraint (p : Condition) (c : Context) : Restraint :=
  .ofPredicate p.strict (fun t _ => p.predicate c t) (p.shallow c)
    fun _ _ _ h => p.blockless_of_predicate h

/-- Whether a policy restrains the statements that it runs on, but for insertions, and does nothing
else before its hook for whole statements. -/
structure Policy.Restrains (p : Policy (Except PolicyError)) (c : Context) (w : Restraint) :
    Prop where
  select : p.select c = w.block
  update : ∀ u, Statement.update <$> p.update c u = w.outer (.update u)
  delete : ∀ d, Statement.delete <$> p.delete c d = w.outer (.delete d)
  query : ∀ q, p.query c q = .ok q
  outer : ∀ s, s.block? = none → w.outer s = .ok s

theorem Policy.Restrains.run_eq {p : Policy (Except PolicyError)} {c : Context} {w : Restraint}
    (H : p.Restrains c w) {s : Statement} (hs : s.kind ≠ .insert) :
    p.run c s = w.run s >>= p.statement c := by
  cases s with
  | insert i => exact absurd rfl hs
  | update u =>
    simp only [run, Restraint.run, Statement.mapBlocks, bind_assoc, pure_bind, H.select,
      ← H.update, bind_map_left]
  | delete d =>
    simp only [run, Restraint.run, Statement.mapBlocks, bind_assoc, pure_bind, H.select,
      ← H.delete, bind_map_left]
  | select q =>
    have houter : ∀ q, w.outer (.select q) = pure (.select q) := fun q => H.outer _ rfl
    have hquery : ∀ q, p.query c q = pure q := H.query
    simp only [run, Restraint.run, Statement.mapBlocks, bind_assoc, pure_bind, H.select, houter,
      hquery]
  | other text =>
    have houter : w.outer (.other text) = pure (.other text) := H.outer _ rfl
    simp only [run, Restraint.run, Statement.mapBlocks, pure_bind, houter]

section OfPredicate

variable {strict : Bool} {predicate : Target → Option Expr → Except PolicyError (Option Expr)}
  {hshallow : Shallow predicate}
  {hblockless : ∀ t e p, predicate t e = .ok p → ∀ q ∈ p, q.Blockless}

theorem Policy.Restrains.of_predicate {p : Policy (Except PolicyError)} {c : Context}
    (hselect : ∀ s b, p.select c s b = b.restrict strict s predicate)
    (hupdate : ∀ u, p.update c u = u.restrict strict predicate)
    (hdelete : ∀ d, p.delete c d = d.restrict strict predicate)
    (hquery : ∀ q, p.query c q = .ok q) :
    p.Restrains c (.ofPredicate strict predicate hshallow hblockless) where
  select := funext fun s => funext (hselect s)
  update u := by
    rw [hupdate]
    simp only [Restraint.ofPredicate, Statement.restrict, Statement.block?, RowBlock.restrict,
      Functor.map_map, Statement.withBlock]
  delete d := by
    rw [hdelete]
    simp only [Restraint.ofPredicate, Statement.restrict, Statement.block?, RowBlock.restrict,
      Functor.map_map, Statement.withBlock]
  query := hquery
  outer s hs := by
    simp only [Restraint.ofPredicate, Statement.restrict, hs]
    rfl

end OfPredicate

theorem LogicDelete.restrains (p : LogicDelete) (c : Context) :
    (p.policy : Policy (Except PolicyError)).Restrains c (p.restraint c) :=
  .of_predicate (fun _ _ => rfl) (fun _ => rfl) (fun _ => rfl) fun _ => rfl

theorem Tenant.restrains (p : Tenant) (c : Context) :
    (p.policy : Policy (Except PolicyError)).Restrains c (p.restraint c) :=
  .of_predicate (fun _ _ => rfl) (fun _ => rfl) (fun _ => rfl) fun _ => rfl

theorem Condition.restrains (p : Condition) (c : Context) :
    (p.policy : Policy (Except PolicyError)).Restrains c (p.restraint c) :=
  .of_predicate (fun _ _ => rfl) (fun _ => rfl) (fun _ => rfl) fun _ => rfl

end RowPolicy
