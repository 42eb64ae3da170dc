import RowPolicy.Proofs.Joins.Carried
import RowPolicy.Proofs.Tables.Uses

/-!
# Uses that hooks reach

A use of tables is reached if a hook is given it with the right names of named queries: a select
block that is not aside, or an insertion, update or deletion that is the whole statement, where no
`WITH` declares a name ahead. The tables of a block depend on no more of a scope than the names in
it (`RowBlock.steps_select_congr`), so where a use is reached the hook is told the tables that SQL
means.
-/

namespace RowPolicy.Sql

/-! ## Names in sight -/

/-- The names that are visible at a place. -/
def Place.visibleScope (p : Place) : Scope :=
  p.frames.foldl (fun s f => s.declare f.visible) .empty

theorem Place.isCte_visibleScope (p : Place) (name : String) :
    p.visibleScope.isCte name = true ↔ p.Visible name := by
  rw [visibleScope, isCte_foldl_declare, show Scope.empty.isCte name = false from rfl, Bool.false_or,
    List.any_eq_true]
  exact exists_congr fun f => and_congr_right fun _ => List.any_eq_true

/-- Where no name is ahead, a policy is given the visible names. -/
theorem Place.isCte_scope_eq {p : Place} (h : ∀ name, p.Ahead name → p.Visible name)
    (name : String) : p.scope.isCte name = p.visibleScope.isCte name := by
  rw [Bool.eq_iff_iff, isCte_scope_iff, isCte_visibleScope]
  exact or_iff_left_of_imp (h name)

section Scopes

variable {s s' : Scope} (qualify : Bool)

theorem Relation.target?_congr {r : Relation}
    (h : ∀ x ∈ r.named, s.baseTable? x.1 = s'.baseTable? x.1) :
    r.target? s qualify = r.target? s' qualify := by
  unfold Relation.target?
  split
  · rw [h _ (List.mem_singleton_self _)]
  · rfl

theorem steps_congr :
    (∀ t : JoinTree, (∀ x ∈ t.named, s.baseTable? x.1 = s'.baseTable? x.1) →
      ∀ n around, t.steps s qualify n around = t.steps s' qualify n around) ∧
    (∀ js, (∀ x ∈ joinsNamed js, s.baseTable? x.1 = s'.baseTable? x.1) →
      ∀ n around, joinsSteps s qualify n around js = joinsSteps s' qualify n around js) ∧
    ∀ r : Relation, (∀ x ∈ r.named, s.baseTable? x.1 = s'.baseTable? x.1) →
      ∀ n around, r.steps s qualify n around = r.steps s' qualify n around := by
  refine JoinTree.induction ?tree ?nil ?cons ?nested ?leaf
  case tree =>
    intro relation joins ihr ihjs h n around
    obtain ⟨hr, hjs⟩ := List.forall_mem_append.mp h
    rw [JoinTree.steps, JoinTree.steps, ihr hr, ihjs hjs]
  case nil => exact fun _ n around => rfl
  case cons =>
    intro j js ihr ihjs h n around
    cases j
    obtain ⟨hr, hjs⟩ := List.forall_mem_append.mp h
    rw [joinsSteps_cons, joinsSteps_cons, Join.steps, Join.steps, ihr hr, ihjs hjs]
  case nested =>
    intro t naming ih h n around
    rw [Relation.steps, Relation.steps, ih h]
  case leaf =>
    intro r hr h n around
    rw [Relation.steps_leaf s qualify hr, Relation.steps_leaf s' qualify hr, Relation.leafSteps,
      Relation.leafSteps, Relation.target?_congr qualify h]

theorem treesSteps_congr {ts : List JoinTree}
    (h : ∀ x ∈ treesNamed ts, s.baseTable? x.1 = s'.baseTable? x.1) (n : Nat) :
    treesSteps s qualify n ts = treesSteps s' qualify n ts := by
  induction ts generalizing n with
  | nil => rfl
  | cons t ts ih =>
    obtain ⟨ht, hts⟩ := List.forall_mem_append.mp h
    rw [treesSteps, treesSteps, (steps_congr qualify).1 t ht, ih hts]

/-- The steps of a select block depend on its scope by the tables that it names alone. -/
theorem RowBlock.steps_select_of_named {b : Select}
    (h : ∀ x ∈ treesNamed b.sources, s.baseTable? x.1 = s'.baseTable? x.1) :
    (RowBlock.select s b).steps = (RowBlock.select s' b).steps :=
  treesSteps_congr _ h 0

theorem baseTable?_congr (h : ∀ name, s.isCte name = s'.isCte name) (name : Name) :
    s.baseTable? name = s'.baseTable? name := by
  rw [Scope.baseTable?, Scope.baseTable?]
  refine Option.bind_congr fun table _ => ?_
  rw [h]

/-- The steps of a select block depend on the names of its scope alone. -/
theorem RowBlock.steps_select_congr (h : ∀ name, s.isCte name = s'.isCte name) (b : Select) :
    (RowBlock.select s b).steps = (RowBlock.select s' b).steps :=
  steps_select_of_named fun x _ => baseTable?_congr h x.1

end Scopes

/-! ## Reached uses -/

/-- Whether a hook is given a use of tables, and the names that are visible there. -/
def Use.Reached (u : Use) : Prop :=
  u.place.aside = false ∧ (∀ name, u.place.Ahead name → u.place.Visible name) ∧
    match u.site with
    | .select _ => True
    | .insert _ => u.place.frames = []
    | .update _ => u.place.frames = []
    | .delete _ => u.place.frames = []
    | .table _ _ => False
    | .relation _ => False

end RowPolicy.Sql
