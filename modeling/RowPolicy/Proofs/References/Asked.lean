import RowPolicy.Proofs.Joins.Runs
import RowPolicy.Proofs.Tables.Tenants
import RowPolicy.Proofs.Versions.Bumps

/-!
# The targets that predicates are asked for

Restricting a block works out the target of each table on its way through the joins. For an update,
and for a deletion from one table, there is a target also without restricting them: versions are
checked and rows are marked as deleted by it. `RowBlock.asked` are the targets that a block asks
for, in order, with any predicate, whether it answers or fails. The target of an update is the first
of them and that of a deletion the only one (`RowBlock.asked_targets`), so the predicates of
different policies for one table are qualified alike.
-/

namespace RowPolicy.Sql

variable {σ : Type}

/-! ## Noting -/

/-- The predicate for a table, by a caller with a state. -/
abbrev Asking (σ : Type) :=
  Target → Option Expr → ExceptT PolicyError (StateM σ) (Option Expr)

/-- A caller that notes the targets it is asked for, also where it fails. -/
def Asking.noting (predicate : Asking σ) : Asking (List Target × σ) := fun t existing =>
  ExceptT.mk fun (noted, st) =>
    let (answer, st') := (predicate t existing).run st
    (answer, noted ++ [t], st')

/-- The targets that restricting a block asks for, in order. -/
def RowBlock.asked (strict : Bool) (predicate : Asking σ) (st : σ) (b : RowBlock) : List Target :=
  ((b.restrict strict predicate.noting).run ([], st)).2.1

/-- The targets of the tables that steps ask for. -/
def targetsOf (steps : List Step) : List Target :=
  (leavesOf steps).map Leaf.target

theorem targetsOf_ask (l : Leaf) (steps : List Step) :
    targetsOf (.ask l :: steps) = l.target :: targetsOf steps :=
  rfl

theorem targetsOf_refuse (construct fragment : String) (steps : List Step) :
    targetsOf (.refuse construct fragment :: steps) = targetsOf steps :=
  rfl

theorem targetsOf_close (n : Nat) (r : Relation) (steps : List Step) :
    targetsOf (.close n r :: steps) = targetsOf steps :=
  rfl

theorem run_noting (predicate : Asking σ) (t : Target) (existing : Option Expr)
    (noted : List Target) (st : σ) :
    ∃ answer st', (Running.stateful (List Target × σ)).run (predicate.noting t existing)
      (noted, st) = (answer, noted ++ [t], st') :=
  ⟨_, _, rfl⟩

/-- A walk asks for the targets of its steps from the first on, and for the first of them if the
first step is to ask for it. -/
theorem exists_asked_walk (strict : Bool) (predicate : Asking σ) (b : RowBlock)
    (steps : List Step) (seen : List Answer) (noted : List Target) (st : σ) :
    ∃ ts, ts <+: targetsOf steps ∧ (∀ l rest, steps = .ask l :: rest → ts ≠ []) ∧
      ((Running.stateful (List Target × σ)).run
        (walk strict (b.asks predicate.noting) seen steps) (noted, st)).2.1 = noted ++ ts := by
  induction steps generalizing seen noted st with
  | nil => exact ⟨[], List.nil_prefix, by simp, by simp [walk, Running.run_pure]⟩
  | cons step steps ih =>
    cases step with
    | ask l =>
      obtain ⟨answer, st', hanswer⟩ :=
        run_noting predicate l.target (standingIn l.around b.selection) noted st
      rw [targetsOf_ask, walk, Running.run_bind, RowBlock.asks, hanswer]
      -- The target is noted before the answer shows whether the walk goes on.
      cases answer with
      | error e => exact ⟨[l.target], List.prefix_append [l.target] _, by simp, rfl⟩
      | ok p =>
        obtain ⟨ts, hts, -, hrun⟩ := ih (seen ++ [(l, p)]) (noted ++ [l.target]) st'
        exact ⟨l.target :: ts, List.cons_prefix_cons.mpr ⟨rfl, hts⟩, by simp,
          hrun.trans (List.append_assoc noted [l.target] ts)⟩
    | refuse construct fragment =>
      obtain ⟨ts, hts, -, hrun⟩ := ih seen noted st
      rw [targetsOf_refuse, walk, Running.run_bind, Running.run_unsupported]
      cases strict with
      | true => exact ⟨[], List.nil_prefix, by simp, (List.append_nil noted).symm⟩
      | false => exact ⟨ts, hts, by simp, hrun⟩
    | close n r =>
      obtain ⟨ts, hts, -, hrun⟩ := ih seen noted st
      rw [targetsOf_close, walk, Running.run_bind, Running.run_refuseLoss]
      by_cases hlost : strict = true ∧ answersAt (.lost n) seen ≠ []
      · rw [if_pos hlost]
        exact ⟨[], List.nil_prefix, by simp, (List.append_nil noted).symm⟩
      · rw [if_neg hlost]
        exact ⟨ts, hts, by simp, hrun⟩

/-- A block whose first step is to ask for a table asks for it first, and then for no others than
those of its further steps. -/
theorem RowBlock.exists_asked (strict : Bool) (predicate : Asking σ) (st : σ) {b : RowBlock}
    {l : Leaf} {rest : List Step} (h : b.steps = .ask l :: rest) :
    ∃ ts, ts <+: targetsOf rest ∧ b.asked strict predicate st = l.target :: ts := by
  obtain ⟨ts, hts, hne, hrun⟩ := exists_asked_walk strict predicate b b.steps [] [] st
  -- What is done with the answers leaves the notes as they are.
  have hasked : b.asked strict predicate st = ts := by
    change ((Running.stateful (List Target × σ)).run (b.restrict strict predicate.noting)
      ([], st)).2.1 = ts
    rw [b.restrict_eq_walk, Running.run_bind]
    rw [List.nil_append] at hrun
    split <;> rename_i heq <;> rw [heq] at hrun
    · rwa [Running.run_pure]
    · exact hrun
  rw [h, targetsOf_ask] at hts
  cases ts with
  | nil => exact absurd rfl (hne l rest h)
  | cons t ts =>
    obtain ⟨rfl, htail⟩ := List.cons_prefix_cons.mp hts
    exact ⟨ts, htail, hasked⟩

/-! ## Targets -/

theorem baseTable?_empty (name : Name) : Scope.empty.baseTable? name = Name.last? name := by
  unfold Scope.baseTable?
  cases Name.last? name <;> simp [Scope.isCte, Scope.empty]

section Steps

variable {name : Name} {partition ordinality table : String} {naming : Option Alias}
  {after : List Piece}

/-- The first step for trees of which the first begins with a table is to ask for it. -/
theorem treesSteps_of_table (hname : Name.last? name = some table) (qualify : Bool)
    (joins : List Join) (ts : List JoinTree) :
    treesSteps .empty qualify 0
        (⟨.table name partition none ordinality naming after, joins⟩ :: ts) =
      .ask ⟨⟨table, qualifierOf naming table qualify,
        (Relation.table name partition none ordinality naming after).render⟩, []⟩ ::
          (joinsSteps .empty qualify 1 [] joins ++
            treesSteps .empty qualify (1 + joinsSize joins) ts) := by
  simp only [treesSteps, JoinTree.steps, JoinTree.size, Relation.steps, Relation.size,
    Relation.leafSteps, Relation.refused?, Relation.target?, baseTable?_empty, hname,
    Option.map_some, Option.toList_some, List.map_cons, List.map_nil, List.cons_append,
    List.nil_append, Nat.zero_add]

/-- The first step of an update of a table is to ask for its target. -/
theorem Update.exists_steps {u : Update}
    (hrelation : u.table.relation = .table name partition none ordinality naming after)
    (hname : Name.last? name = some table) :
    ∃ t rest, u.target? = some t ∧ (RowBlock.update u).steps = .ask ⟨t, []⟩ :: rest := by
  obtain ⟨head, ⟨relation, joins⟩, sourcesFirst, sources, assignments, selection, returning,
    limit⟩ := u
  obtain rfl : relation = _ := hrelation
  refine ⟨_, _, ?_, treesSteps_of_table hname _ joins sources⟩
  simp only [target?, hname]
  rfl

/-- The only step of a deletion with a target is to ask for it. -/
theorem Deletion.steps_of_target? {d : Deletion} {t : Target} (h : d.target? = some t) :
    (RowBlock.deletion d).steps = [.ask ⟨t, []⟩] := by
  unfold target? at h
  split at h
  · rename_i name partition ordinality naming after _ hsources husing
    obtain ⟨table, hname, ht⟩ := Option.bind_eq_some_iff.mp h
    cases ht
    have htrees : (RowBlock.deletion d).trees =
        [⟨.table name partition none ordinality naming after, []⟩] := by
      rw [RowBlock.trees, hsources, husing]
      rfl
    have hqualify : (RowBlock.deletion d).qualify = false := by
      rw [RowBlock.qualify, htrees]
      rfl
    have hqualifier : qualifierOf naming table false = naming.map (·.name.value) := by
      cases naming <;> rfl
    rw [RowBlock.steps, htrees, hqualify, ← hqualifier]
    exact treesSteps_of_table hname false [] []
  · cases h

end Steps

/-- **A target is the same to all policies.** The target of an update of a table without arguments
is the first that restricting the update asks for, and the target of a deletion from one table is
the only one, with the same table, qualifier and text: whatever is joined and nested in the
statement, and whether the predicates answer or fail. -/
theorem RowBlock.asked_targets (strict : Bool) (predicate : Asking σ) (st : σ) :
    (∀ (u : Update) (name : Name) (partition ordinality table : String) (naming : Option Alias)
      (after : List Piece),
      u.table.relation = .table name partition none ordinality naming after →
      Name.last? name = some table →
      ∃ t rest, u.target? = some t ∧ (update u).asked strict predicate st = t :: rest) ∧
    ∀ (d : Deletion) (t : Target), d.target? = some t →
      (deletion d).asked strict predicate st = [t] := by
  refine ⟨fun u _ _ _ _ _ _ hrelation hname => ?_, fun d t ht => ?_⟩
  · obtain ⟨t, rest, ht, hsteps⟩ := Update.exists_steps hrelation hname
    obtain ⟨ts, -, hasked⟩ := exists_asked strict predicate st hsteps
    exact ⟨t, ts, ht, hasked⟩
  · obtain ⟨ts, hts, hasked⟩ := exists_asked strict predicate st (Deletion.steps_of_target? ht)
    obtain rfl : ts = [] := List.prefix_nil.mp hts
    exact hasked

/-- An account that is updated is asked for in front of its ledger, and orders that are deleted are
asked for alone, by a caller that counts what it is asked for and fails. -/
theorem RowBlock.asked_targets_account :
    let predicate : Asking Nat := fun t _ => do
      modify (· + 1)
      throw (.unsupported "table" t.fragment)
    let u : Update := .accountAndLedger []
    u.table.relation =
        .table [.plain "account"] "" none "" (some ⟨true, .plain "a", ""⟩) [] ∧
      Name.last? [.plain "account"] = some "account" ∧
      Deletion.ofOrders.target? = some ⟨"orders", none, "orders"⟩ ∧
      (∃ rest, (update u).asked true predicate 0 = ⟨"account", some "a", "account AS a"⟩ :: rest) ∧
      (deletion .ofOrders).asked true predicate 0 = [⟨"orders", none, "orders"⟩] := by
  intro predicate u
  have hdeletion : Deletion.ofOrders.target? = some ⟨"orders", none, "orders"⟩ := by decide
  obtain ⟨hupdates, hdeletions⟩ := asked_targets true predicate 0
  refine ⟨rfl, by decide, hdeletion, ?_, hdeletions .ofOrders _ hdeletion⟩
  obtain ⟨t, rest, ht, hasked⟩ := hupdates u _ _ _ "account" _ _ rfl (by decide)
  have htarget : u.target? = some ⟨"account", some "a", "account AS a"⟩ := by decide
  cases ht.symm.trans htarget
  exact ⟨rest, hasked⟩

end RowPolicy.Sql
