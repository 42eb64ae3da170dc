import RowPolicy.Proofs.Joins.Answers

/-!
# What a restricted block carries

A restricted block has the tables that the block had, with the same homes, and each predicate that
was answered for a table is one of the conditions that must hold at the home of the table:
`RowBlock.carries_amended`.
-/

namespace RowPolicy.Sql

/-! ## Conjunctions -/

/-- The conditions that a conjunction consists of. -/
def Expr.conjuncts : Expr → List Expr
  | .binary l .and r => l.conjuncts ++ r.conjuncts
  | e => [e]

/-- Whether an expression is neither a conjunction nor a disjunction. -/
structure Expr.Simple (e : Expr) : Prop where
  parenthesized : e.parenthesized = e
  conjuncts : e.conjuncts = [e]

theorem Expr.simple_hasValue (column : Expr) (v : Value) : (Expr.hasValue column v).Simple := by
  unfold hasValue
  split <;> exact ⟨rfl, rfl⟩

/-- What a condition consists of is among what it is joined to, if it is no disjunction. -/
theorem Expr.conjuncts_subset_conjoin (e : Option Expr) {q : Expr} (hq : q.parenthesized = q) :
    q.conjuncts ⊆ (Expr.conjoin e q).conjuncts := by
  cases e with
  | none => rw [conjoin, hq]; exact List.Subset.refl _
  | some e =>
    rw [conjoin, hq, Expr.conjuncts.eq_1]
    exact List.subset_append_right _ _

/-- What a conjunction consists of stays. -/
theorem Expr.conjuncts_subset_withAll (l r : Expr) (ps : List Expr) :
    (Expr.binary l .and r).conjuncts ⊆ ((Expr.binary l .and r).withAll ps).conjuncts := by
  induction ps generalizing l r with
  | nil => exact List.Subset.refl _
  | cons p ps ih =>
    refine List.Subset.trans ?_ (ih (.binary l .and r) p.parenthesized)
    rw [Expr.conjuncts.eq_1 (.binary l .and r)]
    exact List.subset_append_left _ _

theorem Expr.conjuncts_subset_of_mem_withAll (e : Expr) {qs : List Expr} {q : Expr}
    (hq : q.parenthesized = q) (hmem : q ∈ qs) : q.conjuncts ⊆ (e.withAll qs).conjuncts := by
  induction qs generalizing e with
  | nil => exact absurd hmem List.not_mem_nil
  | cons r rs ih =>
    rcases List.mem_cons.mp hmem with rfl | hmem
    · exact List.Subset.trans (conjuncts_subset_conjoin (some e) hq)
        (conjuncts_subset_withAll _ _ rs)
    · exact ih (.conjoin (some e) r) hmem

theorem Expr.exists_conjoinAll_of_mem (e : Option Expr) {qs : List Expr} {q : Expr}
    (hq : q.parenthesized = q) (hmem : q ∈ qs) :
    ∃ x, Expr.conjoinAll e qs = some x ∧ q.conjuncts ⊆ x.conjuncts := by
  cases e with
  | some e => exact ⟨_, conjoinAll_some e qs, conjuncts_subset_of_mem_withAll e hq hmem⟩
  | none =>
    cases qs with
    | nil => exact absurd hmem List.not_mem_nil
    | cons r rs =>
      refine ⟨_, conjoinAll_some r.parenthesized rs, ?_⟩
      rcases List.mem_cons.mp hmem with rfl | hmem
      · rw [hq]
        cases rs with
        | nil => exact List.Subset.refl _
        | cons s ss =>
          refine List.Subset.trans ?_ (conjuncts_subset_withAll _ _ ss)
          rw [Expr.conjuncts.eq_1, hq]
          exact List.subset_append_left _ _
      · exact conjuncts_subset_of_mem_withAll _ hq hmem

/-! ## Steps of an amended block -/

/-- A join with predicates behind its `ON`. -/
def Around.amended (g : Nat → List Expr) (x : Around) : Around :=
  { x with on := x.on.map (·.withAll (g x.join)) }

/-- A table with predicates behind the `ON` of the joins around it. -/
def Leaf.amended (g : Nat → List Expr) (l : Leaf) : Leaf :=
  ⟨l.target, l.around.map (·.amended g)⟩

/-- A step in an amended block. -/
def Step.amended (g : Nat → List Expr) : Step → Step
  | .ask l => .ask (l.amended g)
  | .refuse construct fragment => .refuse construct fragment
  | .close n r => .close n (r.amended g n)

theorem Around.stops_amended (g : Nat → List Expr) (x : Around) :
    (x.amended g).stops = x.stops := by
  obtain ⟨n, kind, on⟩ := x
  cases on <;> rfl

/-- Predicates go where they would have gone. -/
theorem Leaf.home_amended (g : Nat → List Expr) (l : Leaf) : (l.amended g).home = l.home := by
  have hstops : (fun x => (Around.amended g x).stops) = (·.stops) :=
    funext (Around.stops_amended g)
  rw [home, home, homeIn, homeIn, amended, List.find?_map, Function.comp_def, hstops]
  cases l.around.find? (·.stops) with
  | none => rfl
  | some x =>
    obtain ⟨n, kind, on⟩ := x
    cases on <;> rfl

theorem Join.closing_amended (g : Nat → List Expr) (n : Nat) (j : Join) :
    (j.amended g n).closing n = (j.closing n).map (Step.amended g) := by
  obtain ⟨isGlobal, isNatural, kind, relation, matching, on, columns⟩ := j
  cases on <;> cases hinner : kind.isInner <;> simp [closing, amended, hinner, Step.amended]

theorem steps_amended (s : Scope) (qualify : Bool) (g : Nat → List Expr) :
    (∀ t : JoinTree, ∀ n around,
      (t.amended g n).steps s qualify n (around.map (·.amended g)) =
        (t.steps s qualify n around).map (Step.amended g)) ∧
    (∀ js, ∀ n around,
      joinsSteps s qualify n (around.map (·.amended g)) (joinsAmended g n js) =
        (joinsSteps s qualify n around js).map (Step.amended g)) ∧
    ∀ r : Relation, ∀ n around,
      (r.amended g n).steps s qualify n (around.map (·.amended g)) =
        (r.steps s qualify n around).map (Step.amended g) := by
  refine JoinTree.induction ?tree ?nil ?cons ?nested ?leaf
  case tree =>
    intro relation joins ihr ihjs n around
    rw [JoinTree.amended, JoinTree.steps, JoinTree.steps, List.map_append, ihr,
      (size_amended g).2.2, ihjs]
  case nil => exact fun n around => rfl
  case cons =>
    intro j js ihr ihjs n around
    have hr : (j.relation.amended g n).steps s qualify n
        (⟨n, j.kind, j.on.map (·.withAll (g n))⟩ :: around.map (·.amended g)) = _ :=
      ihr n (⟨n, j.kind, j.on⟩ :: around)
    have hsize : (j.amended g n).relation.size = j.relation.size := (size_amended g).2.2 _ n
    rw [joinsAmended_cons, joinsSteps_cons, joinsSteps_cons, List.map_append, hsize, ihjs,
      Join.steps, Join.steps, List.map_append, ← Join.closing_amended, ← hr]
    rfl
  case nested =>
    intro t naming ih n around
    rw [Relation.amended, Relation.steps, Relation.steps, ih]
  case leaf =>
    intro r hr n around
    rw [Relation.amended_leaf hr, Relation.steps_leaf s qualify hr,
      Relation.steps_leaf s qualify hr, Relation.leafSteps, Relation.leafSteps]
    split
    · rfl
    · rw [List.map_map]
      rfl

theorem treesSteps_amended (s : Scope) (qualify : Bool) (g : Nat → List Expr)
    (ts : List JoinTree) (n : Nat) :
    treesSteps s qualify n (treesAmended g n ts) =
      (treesSteps s qualify n ts).map (Step.amended g) := by
  induction ts generalizing n with
  | nil => rfl
  | cons t ts ih =>
    rw [treesAmended, treesSteps, treesSteps, List.map_append, (size_amended g).1, ih,
      ← (steps_amended s qualify g).1]
    rfl

theorem treesSize_amended (g : Nat → List Expr) (ts : List JoinTree) (n : Nat) :
    treesSize (treesAmended g n ts) = treesSize ts := by
  induction ts generalizing n with
  | nil => rfl
  | cons t ts ih => rw [treesAmended, treesSize, treesSize, (size_amended g).1, ih]

theorem leavesOf_amended (g : Nat → List Expr) (steps : List Step) :
    leavesOf (steps.map (Step.amended g)) = (leavesOf steps).map (·.amended g) := by
  rw [leavesOf, leavesOf, List.filterMap_map, List.map_filterMap]
  refine List.filterMap_congr fun step _ => ?_
  cases step <;> rfl

theorem refused_amended (g : Nat → List Expr) (steps : List Step) :
    Refused (steps.map (Step.amended g)) ↔ Refused steps := by
  refine exists₂_congr fun construct fragment => ?_
  rw [List.mem_map]
  constructor
  · rintro ⟨step, hstep, h⟩
    cases step with
    | refuse => cases h; exact hstep
    | ask => cases h
    | close => cases h
  · exact fun h => ⟨_, h, rfl⟩

namespace RowBlock

theorem steps_amended (as : List Answer) (b : RowBlock) :
    (b.amended as).steps = b.steps.map (Step.amended (additions as)) := by
  have hscope : (b.amended as).scope = b.scope := by cases b <;> rfl
  rw [steps, steps, qualify, qualify, hscope, trees_amended, treesSize_amended,
    treesSteps_amended]

/-- The tables of an amended block are those of the block. -/
theorem leaves_amended (as : List Answer) (b : RowBlock) :
    (b.amended as).leaves = b.leaves.map (·.amended (additions as)) := by
  rw [leaves, steps_amended, leavesOf_amended]
  rfl

/-- Whether a predicate for a table is among the conditions at the home of the table. -/
def Carries (b : RowBlock) (l : Leaf) (p : Expr) : Prop :=
  match l.home with
  | .on i => ∃ e, (i, e) ∈ b.ons ∧ p ∈ e.conjuncts
  | .lost _ => False
  | .selection => ∃ e, b.selection = some e ∧ p ∈ e.conjuncts

/-- What an answered predicate consists of is carried, unless its home is an outer join without
`ON`. -/
theorem carries_conjunct {b : RowBlock} {as : List Answer} {l : Leaf} {q p : Expr}
    (hq : q.parenthesized = q) (hp : p ∈ q.conjuncts) (hl : l ∈ b.leaves)
    (hmem : (l, some q) ∈ as) (hkept : ∀ n, l.home ≠ .lost n) :
    (b.amended as).Carries (l.amended (additions as)) p := by
  have hat : q ∈ answersAt l.home as :=
    List.mem_filterMap.mpr ⟨(l, some q), hmem, if_pos rfl⟩
  unfold Carries
  rw [Leaf.home_amended]
  cases hhome : l.home with
  | on i =>
    obtain ⟨e, he, -⟩ := exists_on hl hhome
    rw [hhome] at hat
    refine ⟨e.withAll (additions as i), ?_, e.conjuncts_subset_of_mem_withAll hq hat hp⟩
    rw [ons, trees_amended, treesOns_amended]
    exact List.mem_map_of_mem he
  | lost n => exact hkept n hhome
  | selection =>
    rw [hhome] at hat
    have hselection : (b.amended as).selection =
        Expr.conjoinAll b.selection (answersAt .selection as) := by cases b <;> rfl
    obtain ⟨x, hx, hsubset⟩ := Expr.exists_conjoinAll_of_mem b.selection hq hat
    exact ⟨x, hselection.trans hx, hsubset hp⟩

/-- An answered predicate is carried, unless its home is an outer join without `ON`. -/
theorem carries_of_home {b : RowBlock} {as : List Answer} {l : Leaf} {p : Expr} (hp : p.Simple)
    (hl : l ∈ b.leaves) (hmem : (l, some p) ∈ as) (hkept : ∀ n, l.home ≠ .lost n) :
    (b.amended as).Carries (l.amended (additions as)) p :=
  carries_conjunct hp.parenthesized (by simp [hp.conjuncts]) hl hmem hkept

/-- An answered predicate is carried, unless it is lost. -/
theorem carries_amended {b : RowBlock} {as : List Answer} {l : Leaf} {p : Expr} (hp : p.Simple)
    (hl : l ∈ b.leaves) (hmem : (l, some p) ∈ as) (hlost : lostOf as = []) :
    (b.amended as).Carries (l.amended (additions as)) p := by
  refine carries_of_home hp hl hmem fun n hhome => ?_
  cases lostOf_eq_nil.mp hlost _ hmem n hhome

end RowBlock

end RowPolicy.Sql
