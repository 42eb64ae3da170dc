import RowPolicy.Proofs.Joins.Runs

/-!
# Every predicate in one place

Restricting a block asks for each of its tables once, in textual order, and puts each answer in one
place: `RowBlock.restrict_places`. Where the caller is strict no predicate is lost, and otherwise
those are lost that reach an outer join without `ON`.
-/

namespace RowPolicy.Sql

/-! ## Conditions of joins -/

mutual

/-- The conditions of the joins of a tree behind `n` relations, by the numbers of the joins. -/
def JoinTree.ons (n : Nat) : JoinTree → List (Nat × Expr)
  | ⟨relation, joins⟩ => relation.ons n ++ joinsOns (n + relation.size) joins

/-- The conditions of joins and of the joins in what they join. -/
def joinsOns (n : Nat) : List Join → List (Nat × Expr)
  | [] => []
  | ⟨_, _, _, relation, _, on, _⟩ :: js =>
    on.toList.map (n, ·) ++ relation.ons n ++ joinsOns (n + relation.size) js

/-- The conditions of the joins in a relation. -/
def Relation.ons (n : Nat) : Relation → List (Nat × Expr)
  | .nested tree _ => tree.ons n
  | _ => []

end

/-- The conditions of the joins in the trees of a `FROM`. -/
def treesOns (n : Nat) : List JoinTree → List (Nat × Expr)
  | [] => []
  | t :: ts => t.ons n ++ treesOns (n + t.size) ts

theorem joinsOns_cons (n : Nat) (j : Join) (js : List Join) :
    joinsOns n (j :: js) =
      j.on.toList.map (n, ·) ++ j.relation.ons n ++ joinsOns (n + j.relation.size) js := by
  cases j
  rw [joinsOns]

theorem Relation.ons_leaf {r : Relation} (h : r.isLeaf) (n : Nat) : r.ons n = [] := by
  cases r with
  | nested => simp [Relation.isLeaf] at h
  | _ => rw [Relation.ons]; exact fun _ _ h => by cases h

theorem size_amended (g : Nat → List Expr) :
    (∀ t : JoinTree, ∀ n, (t.amended g n).size = t.size) ∧
    (∀ js, ∀ n, joinsSize (joinsAmended g n js) = joinsSize js) ∧
    ∀ r : Relation, ∀ n, (r.amended g n).size = r.size := by
  refine JoinTree.induction ?tree ?nil ?cons ?nested ?leaf
  case tree =>
    intro relation joins ihr ihjs n
    rw [JoinTree.amended, JoinTree.size, JoinTree.size, ihr, ihjs]
  case nil => exact fun n => rfl
  case cons =>
    intro j js ihr ihjs n
    rw [joinsAmended_cons, joinsSize_cons, joinsSize_cons, Join.amended, ihr, ihjs]
  case nested =>
    intro t naming ih n
    rw [Relation.amended, Relation.size, Relation.size, ih]
  case leaf =>
    intro r hr n
    rw [Relation.amended_leaf hr]

/-- Amending a tree puts predicates behind the conditions of its joins. -/
theorem ons_amended (g : Nat → List Expr) :
    (∀ t : JoinTree, ∀ n, (t.amended g n).ons n =
      (t.ons n).map fun x => (x.1, x.2.withAll (g x.1))) ∧
    (∀ js, ∀ n, joinsOns n (joinsAmended g n js) =
      (joinsOns n js).map fun x => (x.1, x.2.withAll (g x.1))) ∧
    ∀ r : Relation, ∀ n, (r.amended g n).ons n =
      (r.ons n).map fun x => (x.1, x.2.withAll (g x.1)) := by
  refine JoinTree.induction ?tree ?nil ?cons ?nested ?leaf
  case tree =>
    intro relation joins ihr ihjs n
    rw [JoinTree.amended, JoinTree.ons, JoinTree.ons, List.map_append, ihr,
      (size_amended g).2.2, ihjs]
  case nil => exact fun n => rfl
  case cons =>
    intro j js ihr ihjs n
    rw [joinsAmended_cons, joinsOns_cons, joinsOns_cons, Join.amended, List.map_append,
      List.map_append, ihr, (size_amended g).2.2, ihjs]
    cases j.on <;> rfl
  case nested =>
    intro t naming ih n
    rw [Relation.amended, Relation.ons, Relation.ons, ih]
  case leaf =>
    intro r hr n
    rw [Relation.amended_leaf hr, Relation.ons_leaf hr]
    rfl

theorem treesOns_amended (g : Nat → List Expr) (ts : List JoinTree) (n : Nat) :
    treesOns n (treesAmended g n ts) =
      (treesOns n ts).map fun x => (x.1, x.2.withAll (g x.1)) := by
  induction ts generalizing n with
  | nil => rfl
  | cons t ts ih =>
    rw [treesAmended, treesOns, treesOns, List.map_append, (ons_amended g).1,
      (size_amended g).1, ih]

/-- Whether these are different numbers of joins, from `n` up to but not including `k`. -/
structure Numbered (n k : Nat) (ons : List (Nat × Expr)) : Prop where
  bounds : ∀ x ∈ ons, n ≤ x.1 ∧ x.1 < k
  nodup : (ons.map Prod.fst).Nodup

theorem Numbered.nil (n k : Nat) : Numbered n k [] :=
  ⟨by simp, by simp⟩

theorem Numbered.mono {n k n' k' : Nat} {ons : List (Nat × Expr)} (h : Numbered n k ons)
    (hn : n' ≤ n) (hk : k ≤ k') : Numbered n' k' ons :=
  ⟨fun x hx => by have := h.bounds x hx; omega, h.nodup⟩

theorem Numbered.append {n k l : Nat} {ons ons' : List (Nat × Expr)} (h : Numbered n k ons)
    (h' : Numbered k l ons') (hn : n ≤ k) (hk : k ≤ l) : Numbered n l (ons ++ ons') where
  bounds x hx := by
    rcases List.mem_append.mp hx with hx | hx
    · have := h.bounds x hx
      omega
    · have := h'.bounds x hx
      omega
  nodup := by
    rw [List.map_append, List.nodup_append]
    refine ⟨h.nodup, h'.nodup, fun i hi j hj => ?_⟩
    obtain ⟨x, hx, rfl⟩ := List.mem_map.mp hi
    obtain ⟨y, hy, rfl⟩ := List.mem_map.mp hj
    have := h.bounds x hx
    have := h'.bounds y hy
    omega

theorem ons_numbered :
    (∀ t : JoinTree, ∀ n, Numbered (n + 1) (n + t.size) (t.ons n)) ∧
    (∀ js, ∀ n, Numbered n (n + joinsSize js) (joinsOns n js)) ∧
    ∀ r : Relation, ∀ n, Numbered (n + 1) (n + r.size) (r.ons n) := by
  refine JoinTree.induction ?tree ?nil ?cons ?nested ?leaf
  case tree =>
    intro relation joins ihr ihjs n
    have hpos := size_pos.2.2 relation
    rw [JoinTree.ons, JoinTree.size, ← Nat.add_assoc]
    exact (ihr n).append (ihjs _) (by omega) (by omega)
  case nil => exact fun n => .nil n _
  case cons =>
    intro j js ihr ihjs n
    have hpos := size_pos.2.2 j.relation
    have hone : Numbered n (n + 1) (j.on.toList.map (n, ·)) := by
      cases j.on with
      | none => exact .nil n _
      | some e => exact ⟨by simp, by simp⟩
    rw [joinsOns_cons, joinsSize_cons, ← Nat.add_assoc]
    exact (hone.append (ihr n) (by omega) (by omega)).append (ihjs _) (by omega) (by omega)
  case nested =>
    intro t naming ih n
    rw [Relation.ons, Relation.size]
    exact ih n
  case leaf =>
    intro r hr n
    rw [Relation.ons_leaf hr]
    exact .nil _ _

theorem treesOns_numbered (ts : List JoinTree) (n : Nat) :
    Numbered n (n + treesSize ts) (treesOns n ts) := by
  induction ts generalizing n with
  | nil => exact .nil n _
  | cons t ts ih =>
    rw [treesOns, treesSize, ← Nat.add_assoc]
    exact ((ons_numbered.1 t n).mono (Nat.le_succ n) (Nat.le_refl _)).append (ih _) (by omega)
      (by omega)

/-- The join that stops the predicate of a table is around the tree of the table, or its condition
is one of the tree. -/
theorem mem_ons_of_stops (s : Scope) (qualify : Bool) {l : Leaf} {x : Around} {e : Expr}
    (hl : l.around.find? (·.stops) = some x) (he : x.on = some e) :
    (∀ t : JoinTree, ∀ n around, .ask l ∈ t.steps s qualify n around →
      around.find? (·.stops) = some x ∨ (x.join, e) ∈ t.ons n) ∧
    (∀ js, ∀ n around, .ask l ∈ joinsSteps s qualify n around js →
      around.find? (·.stops) = some x ∨ (x.join, e) ∈ joinsOns n js) ∧
    ∀ r : Relation, ∀ n around, .ask l ∈ r.steps s qualify n around →
      around.find? (·.stops) = some x ∨ (x.join, e) ∈ r.ons n := by
  refine JoinTree.induction ?tree ?nil ?cons ?nested ?leaf
  case tree =>
    intro relation joins ihr ihjs n around hmem
    rw [JoinTree.steps, List.mem_append] at hmem
    rw [JoinTree.ons, List.mem_append]
    rcases hmem with hmem | hmem
    · exact (ihr n around hmem).imp_right .inl
    · exact (ihjs _ around hmem).imp_right .inr
  case nil => exact fun n around hmem => absurd hmem List.not_mem_nil
  case cons =>
    intro j js ihr ihjs n around hmem
    rw [joinsSteps_cons, List.mem_append, Join.steps, List.mem_append] at hmem
    rw [joinsOns_cons, List.mem_append, List.mem_append]
    rcases hmem with (hmem | hmem) | hmem
    · rcases ihr n _ hmem with hx | hx
      -- Of the joins around the relation, the first is this one.
      · rw [List.find?_cons] at hx
        split at hx
        · cases hx
          exact .inr (.inl (.inl (by simp [show j.on = some e from he])))
        · exact .inl hx
      · exact .inr (.inl (.inr hx))
    · rw [Join.closing] at hmem
      split at hmem <;> simp at hmem
    · exact (ihjs _ around hmem).imp_right .inr
  case nested =>
    intro t naming ih n around hmem
    rw [Relation.steps] at hmem
    rw [Relation.ons]
    exact ih n around hmem
  case leaf =>
    intro r hr n around hmem
    rw [Relation.steps_leaf s qualify hr, Relation.leafSteps] at hmem
    split at hmem
    · simp at hmem
    · obtain ⟨t, -, ht⟩ := List.mem_map.mp hmem
      cases ht
      exact .inl hl

theorem mem_treesOns_of_stops (s : Scope) (qualify : Bool) {l : Leaf} {x : Around} {e : Expr}
    (hl : l.around.find? (·.stops) = some x) (he : x.on = some e) {ts : List JoinTree} {n : Nat}
    (hmem : .ask l ∈ treesSteps s qualify n ts) : (x.join, e) ∈ treesOns n ts := by
  induction ts generalizing n with
  | nil => exact absurd hmem List.not_mem_nil
  | cons t ts ih =>
    rw [treesSteps, List.mem_append] at hmem
    rw [treesOns, List.mem_append]
    rcases hmem with hmem | hmem
    · exact .inl (((mem_ons_of_stops s qualify hl he).1 t n [] hmem).resolve_left (by simp))
    · exact .inr (ih hmem)

/-! ## Every predicate in one place -/

/-- The answers that are predicates. -/
def givenOf (as : List Answer) : List Expr :=
  as.filterMap Prod.snd

/-- One more predicate behind one of several conditions. -/
theorem perm_flatMap_insert {keys : List Nat} (hn : keys.Nodup) {k : Nat} (hk : k ∈ keys)
    (e : Expr) (g : Nat → List Expr) :
    (keys.flatMap fun i => if i = k then e :: g i else g i).Perm (e :: keys.flatMap g) := by
  induction keys with
  | nil => exact absurd hk List.not_mem_nil
  | cons i keys ih =>
    obtain ⟨hi, hn⟩ := List.nodup_cons.mp hn
    simp only [List.flatMap_cons]
    by_cases hik : i = k
    · subst hik
      have hrest : (keys.flatMap fun j => if j = i then e :: g j else g j) = keys.flatMap g :=
        List.flatMap_congr fun j hj => if_neg fun hji : j = i => hi (hji ▸ hj)
      rw [if_pos rfl, hrest, List.cons_append]
    · rw [if_neg hik]
      have hk := (List.mem_cons.mp hk).resolve_left (Ne.symm hik)
      exact ((ih hn hk).append_left (g i)).trans List.perm_middle

/-- Every predicate is behind one `ON`, or behind the condition of the block, or lost. -/
theorem givenOf_perm {keys : List Nat} (hn : keys.Nodup) {as : List Answer}
    (h : ∀ x ∈ as, ∀ i, x.1.home = .on i → i ∈ keys) :
    (givenOf as).Perm (keys.flatMap (additions as) ++ answersAt .selection as ++ lostOf as) := by
  -- One more predicate is in the part that its home says, and leaves the two others as they are.
  induction as with
  | nil => simp [givenOf, additions, answersAt, lostOf]
  | cons x as ih =>
    have ih := ih fun y hy => h y (List.mem_cons_of_mem _ hy)
    have hx := h x List.mem_cons_self
    obtain ⟨l, p⟩ := x
    have hat : ∀ home, answersAt home ((l, p) :: as) =
        (if l.home = home then p.toList else []) ++ answersAt home as := fun home => by
      rw [← answersAt_singleton, ← answersAt_append, List.singleton_append]
    cases p with
    | none =>
      have hlost : lostOf ((l, none) :: as) = lostOf as := by
        unfold lostOf
        rw [List.filterMap_cons]
        cases l.home <;> rfl
      have hadd : additions ((l, none) :: as) = additions as := by
        funext k
        simp [additions, hat]
      simpa [givenOf, hadd, hat, hlost] using ih
    | some e =>
      have hgiven : givenOf ((l, some e) :: as) = e :: givenOf as := rfl
      rw [hgiven]
      refine (ih.cons e).trans ?_
      cases hhome : l.home with
      | on k =>
        have hadd : additions ((l, some e) :: as) = fun i =>
            if i = k then e :: additions as i else additions as i := by
          funext i
          by_cases hik : i = k <;> simp [additions, hat, hhome, hik, eq_comm (a := k)]
        have hlost : lostOf ((l, some e) :: as) = lostOf as := by simp [lostOf, hhome]
        have hsel : answersAt .selection ((l, some e) :: as) = answersAt .selection as := by
          simp [hat, hhome]
        rw [hadd, hlost, hsel, List.append_assoc, List.append_assoc, ← List.cons_append]
        exact (perm_flatMap_insert hn (hx k hhome) e (additions as)).symm.append_right _
      | lost c =>
        have hadd : additions ((l, some e) :: as) = additions as := by
          funext i
          simp [additions, hat, hhome]
        have hlost : lostOf ((l, some e) :: as) = e :: lostOf as := by simp [lostOf, hhome]
        rw [hadd, hat, hhome, hlost]
        exact List.perm_middle.symm
      | selection =>
        have hadd : additions ((l, some e) :: as) = additions as := by
          funext i
          simp [additions, hat, hhome]
        have hlost : lostOf ((l, some e) :: as) = lostOf as := by simp [lostOf, hhome]
        rw [hadd, hat, hhome, hlost, List.append_assoc]
        simpa using List.perm_middle.symm

/-- The tables of a tree that are asked for. -/
theorem leavesOf_steps (s : Scope) (qualify : Bool) :
    (∀ t : JoinTree, ∀ n around,
      (leavesOf (t.steps s qualify n around)).map Leaf.target = t.targets s qualify) ∧
    (∀ js, ∀ n around,
      (leavesOf (joinsSteps s qualify n around js)).map Leaf.target = joinsTargets s qualify js) ∧
    ∀ r : Relation, ∀ n around,
      (leavesOf (r.steps s qualify n around)).map Leaf.target = r.targets s qualify := by
  refine JoinTree.induction ?tree ?nil ?cons ?nested ?leaf
  case tree =>
    intro relation joins ihr ihjs n around
    rw [JoinTree.steps, JoinTree.targets, leavesOf_append, List.map_append, ihr, ihjs]
  case nil => exact fun n around => rfl
  case cons =>
    intro j js ihr ihjs n around
    have hclosing : leavesOf (j.closing n) = [] := by
      rw [Join.closing]
      split <;> rfl
    rw [joinsSteps_cons, joinsTargets_cons, Join.steps, leavesOf_append, leavesOf_append, hclosing,
      List.append_nil, List.map_append, ihr, ihjs]
  case nested =>
    intro t naming ih n around
    rw [Relation.steps, Relation.targets]
    exact ih n around
  case leaf =>
    intro r hr n around
    rw [Relation.steps_leaf s qualify hr, Relation.targets_leaf s qualify hr, Relation.leafSteps]
    split
    · rename_i h
      cases r with
      | table name partition arguments ordinality naming after =>
        cases arguments with
        | none => simp [Relation.refused?] at h
        | some => rfl
      | _ => rfl
    · cases r.target? s qualify <;> rfl

theorem leavesOf_treesSteps (s : Scope) (qualify : Bool) (ts : List JoinTree) (n : Nat) :
    (leavesOf (treesSteps s qualify n ts)).map Leaf.target = treesTargets s qualify ts := by
  induction ts generalizing n with
  | nil => rfl
  | cons t ts ih =>
    rw [treesSteps, leavesOf_append, List.map_append, (leavesOf_steps s qualify).1, ih]
    rfl

theorem mem_leavesOf {steps : List Step} {l : Leaf} : l ∈ leavesOf steps ↔ .ask l ∈ steps := by
  simp only [leavesOf, List.mem_filterMap]
  constructor
  · rintro ⟨step, hstep, hl⟩
    cases step <;> simp_all [Step.leaf?]
  · exact fun h => ⟨_, h, rfl⟩

namespace RowBlock

/-- The tables of a block, in textual order. -/
def leaves (b : RowBlock) : List Leaf :=
  leavesOf b.steps

/-- The conditions of the joins of a block. -/
def ons (b : RowBlock) : List (Nat × Expr) :=
  treesOns 0 b.trees

theorem trees_amended (as : List Answer) (b : RowBlock) :
    (b.amended as).trees = treesAmended (additions as) 0 b.trees := by
  cases b with
  | select scope s => rfl
  | update u => simp [amended, trees, treesAmended]
  | deletion d =>
    rw [trees, treesAmended_append]
    cases hd : d.usingSources <;> simp [amended, trees, hd, treesAmended]

/-- The place of a predicate is the condition of a join of the block that it was said to stand
behind. -/
theorem exists_on {b : RowBlock} {l : Leaf} (hl : l ∈ b.leaves) {i : Nat} (hi : l.home = .on i) :
    ∃ e, (i, e) ∈ b.ons ∧ standingIn l.around b.selection = some e := by
  unfold Leaf.home homeIn at hi
  split at hi
  · rename_i kind e hfind
    cases hi
    refine ⟨e, mem_treesOns_of_stops b.scope b.qualify hfind rfl (mem_leavesOf.mp hl), ?_⟩
    rw [standingIn, hfind]
  · cases hi
  · cases hi

section Running

variable {m : Type → Type} [Monad m] [LawfulMonad m] [MonadExceptOf PolicyError m] {σ : Type}
  (R : Running m σ) {strict : Bool} {predicate : Target → Option Expr → m (Option Expr)}
  {b : RowBlock} {st st' : σ}

/-- Restricting a block succeeds where all tables are answered and, if the caller is strict, no
relation is refused and no predicate lost. -/
theorem run_restrict_ok {b' : RowBlock} :
    R.run (b.restrict strict predicate) st = (.ok b', st') ↔
      ∃ ps, R.run (b.leaves.mapM (b.asks predicate)) st = (.ok ps, st') ∧
        b' = b.amended (b.leaves.zip ps) ∧
        (strict = true → ¬Refused b.steps ∧ lostOf (b.leaves.zip ps) = []) := by
  have hclosed : Closed .selection b.steps := treesSteps_closed b.scope b.qualify b.trees 0
  rw [restrict_eq_walk, R.run_bind_ok]
  constructor
  · rintro ⟨as, u, has, h⟩
    rw [R.run_pure, Prod.mk.injEq, Except.ok.injEq] at h
    obtain ⟨rfl, rfl⟩ := h
    obtain ⟨ps, hps, rfl, hstrict⟩ := walk_run_ok R hclosed has
    refine ⟨ps, hps, rfl, fun hs => ⟨(hstrict hs).1, lostOf_eq_nil.mpr fun x hx c hc => ?_⟩⟩
    exact (hstrict hs).2 x hx c hc fun hseen => absurd hseen List.not_mem_nil
  · rintro ⟨ps, hps, rfl, hstrict⟩
    exact ⟨_, st', run_walk_ok R hps hstrict, R.run_pure _ _⟩

/-- Where restricting a block fails, it does at a question, or behind some of them if the caller is
strict. -/
theorem run_restrict_error {e : PolicyError}
    (h : R.run (b.restrict strict predicate) st = (.error e, st')) :
    ∃ k, R.run ((b.leaves.take k).mapM (b.asks predicate)) st = (.error e, st') ∨
      strict = true ∧ ∃ ps, R.run ((b.leaves.take k).mapM (b.asks predicate)) st = (.ok ps, st') ∧
        ∃ construct fragment, e = .unsupported construct fragment := by
  rw [restrict_eq_walk] at h
  rcases R.run_bind_error.mp h with h | ⟨as, u, -, h⟩
  · exact walk_run_error R h
  · simp [R.run_pure] at h

end Running

/-- **Every predicate of a block is in one place.** Restricting a block asks for its tables once
each, in textual order, and succeeds where all are answered and, if the caller is strict, no
relation is refused and no predicate lost. Then each predicate is behind one condition: that of its
home. If restricting fails, then at a question, or, for a strict caller, behind some of them. -/
theorem restrict_places {σ : Type} (strict : Bool)
    (predicate : Target → Option Expr → ExceptT PolicyError (StateM σ) (Option Expr)) (b : RowBlock)
    (st : σ) :
    (∀ b' st', (b.restrict strict predicate).run st = (.ok b', st') ↔
      ∃ ps, (b.leaves.mapM (b.asks predicate)).run st = (.ok ps, st') ∧
        b' = b.amended (b.leaves.zip ps) ∧
        (strict = true → ¬Refused b.steps ∧ lostOf (b.leaves.zip ps) = [])) ∧
    (∀ e st', (b.restrict strict predicate).run st = (.error e, st') →
      ∃ k, ((b.leaves.take k).mapM (b.asks predicate)).run st = (.error e, st') ∨
        strict = true ∧
          ∃ ps, ((b.leaves.take k).mapM (b.asks predicate)).run st = (.ok ps, st') ∧
            ∃ construct fragment, e = .unsupported construct fragment) ∧
    b.leaves.map Leaf.target = treesTargets b.scope b.qualify b.trees ∧
    (b.ons.map Prod.fst).Nodup ∧
    (∀ l ∈ b.leaves, ∀ i, l.home = .on i →
      ∃ e, (i, e) ∈ b.ons ∧ standingIn l.around b.selection = some e) ∧
    ∀ ps, let as := b.leaves.zip ps
      (b.amended as).ons = b.ons.map (fun x => (x.1, x.2.withAll (additions as x.1))) ∧
      (b.amended as).selection = Expr.conjoinAll b.selection (answersAt .selection as) ∧
      (givenOf as).Perm ((b.ons.map Prod.fst).flatMap (additions as) ++
        answersAt .selection as ++ lostOf as) := by
  have hnodup : (b.ons.map Prod.fst).Nodup := (treesOns_numbered b.trees 0).nodup
  refine ⟨fun b' st' => run_restrict_ok (.stateful σ),
    fun e st' h => run_restrict_error (.stateful σ) h,
    leavesOf_treesSteps b.scope b.qualify b.trees 0, hnodup, fun l hl i hi => exists_on hl hi,
    fun ps => ⟨?_, ?_, ?_⟩⟩
  · rw [ons, trees_amended, treesOns_amended]
    rfl
  · cases b <;> rfl
  · refine givenOf_perm hnodup fun x hx i hi => ?_
    obtain ⟨e, he, -⟩ := exists_on (List.of_mem_zip hx).1 hi
    exact List.mem_map_of_mem he

end RowBlock

end RowPolicy.Sql
