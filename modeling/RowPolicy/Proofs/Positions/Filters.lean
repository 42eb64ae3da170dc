import RowPolicy.Proofs.Order.Restraining
import RowPolicy.Proofs.Positions.Columns
import RowPolicy.Proofs.Positions.Scopes

/-!
# Filtering where a query stands

Logic deletion, the separation of tenants and fixed conditions filter the rows of queries. A query
in a statement that they are meant for is filtered as it is on its own, wherever it stands, as long
as it uses no name that is declared around it: as a derived table, in an expression, as a body of a
`WITH` or as the source of an insertion (`Filter.filtersAlike_of_apply`). Statements that they are
not meant for are left as they are, so logic deletion and fixed conditions do not filter the source
of an insertion (`Filter.not_filtersAlike_archiveOrders`).
-/

namespace RowPolicy

open Sql

namespace Sql

/-! ## Blocks that are reached -/

/-- The block at a place, unless it is aside. -/
def reached? (x : Place × Select) : Option Select :=
  if x.1.aside then none else some x.2

/-- The blocks of a list that are not aside. -/
def reachedBlocks (os : List Occurrence) : List Select :=
  os.filterMap fun o => reached? o.placed

theorem reachedBlocks_eq (os : List Occurrence) :
    reachedBlocks os = (os.map Occurrence.placed).filterMap reached? := by
  rw [List.filterMap_map]
  rfl

/-- The blocks at a place that is not aside are those of the query on its own. -/
theorem reachedBlocks_occurrences {p : Place} (hp : p.aside = false) (i : Item) :
    reachedBlocks (i.occurrences p) = reachedBlocks (i.occurrences .outermost) := by
  rw [i.occurrences_eq_map_under, reachedBlocks, reachedBlocks, List.filterMap_map]
  refine List.filterMap_congr fun o _ => ?_
  have haside : (o.under p).placed.1.aside = o.placed.1.aside := by
    change (p.aside || o.place.aside) = o.place.aside
    rw [hp, Bool.false_or]
  rw [Function.comp_apply, reached?, reached?, haside]
  rfl

theorem reached?_placedWithColumn (value : Expr) (x : Place × Select) :
    reached? (placedWithColumn value x) = (reached? x).map (Select.withColumn value) := by
  obtain ⟨⟨frames, aside⟩, b⟩ := x
  cases aside <;> rfl

/-- A traversal leaves one thing of each block. -/
theorem Rewritten.filterMap_eq {f : Scope → Select → Except PolicyError Select}
    {xs ys zs : List (Place × Select)} (hy : List.Forall₂ (Rewritten f) xs ys)
    (hz : List.Forall₂ (Rewritten f) xs zs) : ys.filterMap reached? = zs.filterMap reached? := by
  induction hy generalizing zs with
  | nil =>
    cases hz
    rfl
  | cons hxy _ ih =>
    cases hz with
    | cons hxz hz =>
      have hreached : ∀ {x y z : Place × Select}, Rewritten f x y → Rewritten f x z →
          reached? y = reached? z := by
        rintro x ⟨_, b⟩ ⟨_, b'⟩ ⟨rfl, hb⟩ ⟨rfl, hb'⟩
        cases haside : x.1.aside with
        | true => rw [reached?, reached?, if_pos haside, if_pos haside]
        | false =>
          obtain rfl : b = b' := Except.ok.inj ((hb haside).symm.trans (hb' haside))
          rfl
      rw [List.filterMap_cons, List.filterMap_cons, ih hz, hreached hxy hxz]

namespace Restraint

/-- Whether the predicates that a restraint answers use no tables. -/
def Plain (w : Restraint) : Prop :=
  ∀ b as, w.Admits b as → ∀ l e, (l, some e) ∈ as → ∀ p, e.uses p = []

theorem plain_of_answered {w : Restraint} {strict : Bool}
    {predicate : Target → Option Expr → Except PolicyError (Option Expr)}
    (hw : ∀ b as, w.Admits b as → b.Answered strict predicate as)
    (h : ∀ t e p, predicate t e = .ok p → ∀ q ∈ p, ∀ place, q.uses place = []) : w.Plain := by
  intro b as has l e hmem
  obtain ⟨ps, hps, rfl, -⟩ := hw b as has
  exact h _ _ _ ((List.forall₂_iff_zip.mp hps).2 hmem) e rfl

variable {w : Restraint} (hw : w.Plain)
include hw

theorem Plain.uses_of_block (s : Scope) (b b' : Select) (h : w.block s b = .ok b') (p : Place) :
    b'.uses p = b.uses p := by
  obtain ⟨as, has, rfl⟩ := w.block_eq_ok_iff.mp h
  exact RowBlock.inside_amended (fun l e hmem => hw _ _ has l e hmem p) (.select s b)

/-- The blocks of a statement that is restrained as a block itself stay as they are. -/
theorem Plain.placed_of_outer {s s' : Statement} (h : w.outer s = .ok s') :
    s'.occurrences.map Occurrence.placed = s.occurrences.map Occurrence.placed := by
  obtain ⟨as, -, has, rfl⟩ := exists_of_outer h
  rw [← Statement.blocksOf_uses, ← Statement.blocksOf_uses]
  have hinside : ∀ b ∈ s.block?, (b.amended as).inside .outermost = b.inside .outermost :=
    fun b hb => RowBlock.inside_amended (fun l e hmem => hw _ _ (has b hb) l e hmem _) b
  cases s with
  | update u =>
    have hu := hinside (.update u) rfl
    simp only [Statement.amended, Statement.block?, Statement.withBlock, RowBlock.amended,
      RowBlock.inside, Statement.uses, blocksOfUses_append] at hu ⊢
    rw [hu]
    rfl
  | delete d =>
    have hd := hinside (.deletion d) rfl
    simp only [Statement.amended, Statement.block?, Statement.withBlock, RowBlock.amended,
      RowBlock.inside, Statement.uses, blocksOfUses_append] at hd ⊢
    rw [hd]
    rfl
  | _ => rfl

/-- **A query in a restrained statement is restrained as it is on its own**: its blocks stand in the
statement that is left where they stood, and are those of the query that is left of it alone. -/
theorem Plain.exists_found {s s₁ : Statement} (hs : s.mapBlocks w.block = .ok s₁) {q : Query}
    {p : Place} (hp : p.aside = false) (hq : q.Avoids p) {pre post : List Occurrence}
    (hsplit : s.occurrences = pre ++ q.outline.occurrences p ++ post) :
    ∃ q', q.mapBlocks w.block .empty = .ok q' ∧ ∃ pre' found post',
      s₁.occurrences.map Occurrence.placed = pre' ++ found ++ post' ∧
      pre'.length = pre.length ∧ post'.length = post.length ∧
      found.filterMap reached? = reachedBlocks (q'.outline.occurrences .outermost) := by
  -- There are answers for the blocks of the statement, so there are for those of the query.
  obtain ⟨marks, hmarks⟩ := (s.lockstep (lockstep_verdict w.governed)).exists_marks s₁ hs
  rw [hsplit, eventsOf_append, eventsOf_append] at hmarks
  obtain ⟨marks₁, _, hmarks₁, -, -⟩ := exists_append_of_forall₂ hmarks
  obtain ⟨_, own, -, hown, -⟩ := exists_append_of_forall₂ hmarks₁
  have hverdict := q.lockstep (lockstep_verdict w.governed) hp
  rw [events_singleton] at hverdict
  obtain ⟨q', -, hq', -⟩ := hverdict.exists_of_admits own hown
  refine ⟨q', (w.mapBlocks_scope_eq_ok_iff hq).mp hq', ?_⟩
  have hrewritten := Statement.rewritten hw.uses_of_block hs
  rw [hsplit, List.map_append, List.map_append] at hrewritten
  obtain ⟨_, post', hrewritten₁, hpost, hleft⟩ := exists_append_of_forall₂ hrewritten
  obtain ⟨pre', found, hpre, hfound, rfl⟩ := exists_append_of_forall₂ hrewritten₁
  refine ⟨pre', found, post', hleft, by simpa using hpre.length_eq.symm,
    by simpa using hpost.length_eq.symm, ?_⟩
  rw [← reachedBlocks_occurrences hp, reachedBlocks_eq]
  exact Rewritten.filterMap_eq hfound (Query.rewritten hw.uses_of_block hq')

end Restraint

end Sql

/-! ## Filters -/

/-- A policy that filters the rows of queries. -/
inductive Filter where
  | logicDelete (p : LogicDelete)
  | tenant (p : Tenant)
  | condition (p : Condition)

namespace Filter

/-- The policy itself. -/
def policy : Filter → Policy (Except PolicyError)
  | logicDelete p => p.policy
  | tenant p => p.policy
  | condition p => p.policy

/-- How the policy restrains statements. -/
def restraint (c : Context) : Filter → Restraint
  | logicDelete p => p.restraint c
  | tenant p => p.restraint c
  | condition p => p.restraint c

theorem restrains (f : Filter) (c : Context) : f.policy.Restrains c (f.restraint c) := by
  cases f with
  | logicDelete p => exact p.restrains c
  | tenant p => exact p.restrains c
  | condition p => exact p.restrains c

theorem plain (f : Filter) (c : Context) : (f.restraint c).Plain := by
  cases f with
  | logicDelete p =>
    refine Restraint.plain_of_answered (fun _ _ => id) fun t e r h q hq place => ?_
    obtain ⟨mark, rfl⟩ := p.exists_of_predicate h q hq
    exact Expr.uses_hasValue place t _ _
  | tenant p =>
    refine Restraint.plain_of_answered (fun _ _ => id) fun t e r h q hq place => ?_
    obtain ⟨column, v, -, -, rfl⟩ := Tenant.exists_of_predicate h q hq
    exact Expr.uses_hasValue place t column v
  | condition p =>
    refine Restraint.plain_of_answered (fun _ _ => id) fun t e r h q hq place => ?_
    obtain ⟨qs, rfl, hqs⟩ := Condition.exists_of_predicate h
    have huses : ∀ q ∈ qs, q.uses place = [] := by
      intro q hq
      obtain ⟨column, v, rfl⟩ := hqs q hq
      exact Expr.uses_hasValue place t column v
    have hconjoined := usesOption_conjoinAll place none huses
    rwa [show Expr.conjoinAll none qs = some q from hq] at hconjoined

/-- The value that the policy gives to a column of an insertion. -/
def inserted? (c : Context) : Filter → Option Value
  | tenant p => c.value? p.contextKey
  | _ => none

/-- Whether the blocks `found` of a query in a statement are the query's `own` ones; in an insertion
one of them may have another value in each row. -/
def Yields (f : Filter) (c : Context) (s : Statement) (own found : List Select) : Prop :=
  found = own ∨ s.kind = .insert ∧ ∃ v ∈ f.inserted? c,
    OnceBy (Select.withColumn (.ofValue v)) own found

/-- Whether each query that stands in a statement, and avoids the names around it, is filtered in
what is left of the statement as it is on its own. -/
def FiltersAlike (f : Filter) (c : Context) (s s' : Statement) : Prop :=
  ∀ (q : Query) (p : Place) (pre post : List Occurrence), q.StandsAt p s → q.Avoids p →
    s.occurrences = pre ++ q.outline.occurrences p ++ post →
    ∃ q' pre' found post', f.policy.apply c (.select q) = .ok (.select q') ∧
      s'.occurrences = pre' ++ found ++ post' ∧ pre'.length = pre.length ∧
      post'.length = post.length ∧
      f.Yields c s (reachedBlocks (q'.outline.occurrences .outermost)) (reachedBlocks found)

variable {f : Filter} {c : Context}

/-- The hook for whole statements leaves them as they are, or marks the rows of one table. -/
theorem exists_of_statement {s s' : Statement} (h : f.policy.statement c s = .ok s') :
    s' = s ∨ ∃ (x : TableDeletion) (mark : LogicDeleteColumn),
      s = .delete x.deletion ∧ s' = .update (x.update mark.column mark.deletedValue) := by
  cases f with
  | logicDelete p =>
    cases s with
    | delete d =>
      exact (p.statement_delete_eq_ok h).imp_right fun ⟨x, mark, hd, hs'⟩ =>
        ⟨x, mark, congrArg Statement.delete hd, hs'⟩
    | _ =>
      cases h
      exact .inl rfl
  | tenant p =>
    cases h
    exact .inl rfl
  | condition p =>
    cases h
    exact .inl rfl

/-- The hook for whole statements leaves the blocks as they are. -/
theorem placed_of_statement {s s' : Statement} (h : f.policy.statement c s = .ok s') :
    s'.occurrences.map Occurrence.placed = s.occurrences.map Occurrence.placed := by
  rcases exists_of_statement h with rfl | ⟨x, mark, rfl, rfl⟩
  · rfl
  · have houtline : (Statement.update (x.update mark.column mark.deletedValue)).outline =
        (Statement.delete x.deletion).outline := by
      simp [Statement.outline, Update.outline, Deletion.outline, TableDeletion.update,
        TableDeletion.deletion, outlineTrees, outlineUsing, outlineAssignments,
        Assignment.ofColumn, Expr.ofValue, Expr.outline, outlinePieces, JoinTree.outline]
    rw [Statement.occurrences, houtline]
    rfl

/-- The hook for insertions leaves them as they are, or with another column. -/
theorem exists_appendColumn {i i' : Insertion} (h : f.policy.insert c i = .ok i') :
    i' = i ∨ ∃ v ∈ f.inserted? c, ∃ column, i' = (i.appendColumn column (.ofValue v)).2 := by
  cases f with
  | logicDelete p =>
    cases h
    exact .inl rfl
  | condition p =>
    cases h
    exact .inl rfl
  | tenant p =>
    rcases Tenant.exists_of_insert h with rfl | ⟨column, v, hv, rfl⟩
    · exact .inl rfl
    · exact .inr ⟨v, hv, column, rfl⟩

/-- A statement is traversed, and what is done behind the traversal changes at most one block. -/
theorem exists_mapBlocks {s s' : Statement} (h : f.policy.run c s = .ok s') :
    ∃ s₁, s.mapBlocks (f.restraint c).block = .ok s₁ ∧
      (s'.occurrences.map Occurrence.placed = s₁.occurrences.map Occurrence.placed ∨
        s.kind = .insert ∧ ∃ v ∈ f.inserted? c, OnceBy (placedWithColumn (.ofValue v))
          (s₁.occurrences.map Occurrence.placed) (s'.occurrences.map Occurrence.placed)) := by
  by_cases hs : s.kind = .insert
  · cases s with
    | insert i =>
      obtain ⟨i₁, i₂, hi₁, hi₂, -, hs'⟩ := (Policy.run_insert_eq_ok_iff _).mp h
      rw [(f.restrains c).select] at hi₁
      refine ⟨.insert i₁, map_eq_ok_iff.mpr ⟨i₁, hi₁, rfl⟩, ?_⟩
      rw [placed_of_statement hs']
      rcases exists_appendColumn hi₂ with rfl | ⟨v, hv, column, rfl⟩
      · exact .inl rfl
      · obtain ⟨_, honce, -, heq⟩ := i₁.widened_appendColumn column (.ofValue v)
        rw [← heq rfl] at honce
        exact .inr ⟨rfl, v, hv, honce⟩
    | _ => cases hs
  · rw [(f.restrains c).run_eq hs] at h
    obtain ⟨s₂, hs₂, hs'⟩ := bind_eq_ok_iff.mp h
    obtain ⟨s₁, hs₁, hs₂⟩ := bind_eq_ok_iff.mp hs₂
    refine ⟨s₁, hs₁, .inl ?_⟩
    rw [placed_of_statement hs', (f.plain c).placed_of_outer hs₂]

theorem apply_select_eq_ok {q q' : Query}
    (h : q.mapBlocks (f.restraint c).block .empty = .ok q') :
    f.policy.apply c (.select q) = .ok (.select q') := by
  have happlies : f.policy.appliesTo (Statement.select q).kind = true := by cases f <;> rfl
  have hstatement : f.policy.statement c (.select q') = .ok (.select q') := by cases f <;> rfl
  rw [Policy.apply, if_pos happlies, Policy.run_select_eq_ok_iff, (f.restrains c).select]
  exact ⟨q', q', h, (f.restrains c).query q', hstatement⟩

/-- **A query is filtered the same wherever it stands** in a statement that the policy is meant for:
in what is left of the statement, its blocks stand where they stood and are those of what is left of
the query on its own, but for the value of the tenant column in the rows of an insertion. Other
statements are left as they are. -/
theorem filtersAlike_of_apply (f : Filter) (c : Context) (s s' : Statement)
    (h : f.policy.apply c s = .ok s') :
    (f.policy.appliesTo s.kind = true → f.FiltersAlike c s s') ∧
      (f.policy.appliesTo s.kind = false → s' = s) := by
  unfold Policy.apply at h
  split at h
  · rename_i happlies
    refine ⟨fun _ q p pre post hstands havoids hsplit => ?_, fun hother => ?_⟩
    · obtain ⟨s₁, hs₁, hplaced⟩ := exists_mapBlocks h
      obtain ⟨q', hq', pre₁, own, post₁, hleft, hpre, hpost, hown⟩ :=
        (f.plain c).exists_found hs₁ hstands.exists_split.1 havoids hsplit
      have hfound : ∃ pre' found post',
          s'.occurrences.map Occurrence.placed = pre' ++ found ++ post' ∧
          pre'.length = pre.length ∧ post'.length = post.length ∧
          f.Yields c s (own.filterMap reached?) (found.filterMap reached?) := by
        rcases hplaced with hsame | ⟨hkind, v, hv, honce⟩
        · exact ⟨pre₁, own, post₁, hsame.trans hleft, hpre, hpost, .inl rfl⟩
        · rw [hleft] at honce
          obtain ⟨_, post', hs', hlength, hlength', honce, -⟩ := honce.exists_append
          obtain ⟨pre', found, rfl, hlength₁, -, -, honce⟩ := honce.exists_append
          exact ⟨pre', found, post', hs', hlength₁.trans hpre, hlength'.trans hpost,
            .inr ⟨hkind, v, hv, honce.filterMap (reached?_placedWithColumn _)⟩⟩
      obtain ⟨_, _, _, hs', hpre', hpost', hyields⟩ := hfound
      obtain ⟨front, post', hs'', hfront, rfl⟩ := List.map_eq_append_iff.mp hs'
      obtain ⟨pre', found, rfl, rfl, rfl⟩ := List.map_eq_append_iff.mp hfront
      rw [List.length_map] at hpre' hpost'
      rw [hown, ← reachedBlocks_eq] at hyields
      exact ⟨q', pre', found, post', apply_select_eq_ok hq', hs'', hpre', hpost', hyields⟩
    · rw [happlies] at hother
      cases hother
  · rename_i hother
    cases h
    exact ⟨fun happlies => absurd happlies hother, fun _ => rfl⟩

end Filter

/-! ## An archive of orders -/

/-- `SELECT id FROM ..` -/
def Sql.Select.idsOf (table : String) : Select :=
  { Select.allOf table with projection := [.expr (.column [.plain "id"])] }

/-- `INSERT INTO archive (..)` with the rows of a query. -/
def Sql.Insertion.archive (columns : List String) (q : Query) : Insertion where
  head := "INSERT INTO"
  table := [.plain "archive"]
  naming := ""
  columns := columns.map .plain
  partition := []
  source := some q
  assignments := []
  rowAlias := ""
  onConflict := []
  returning := []

/-- `WITH recent AS (..) ..` -/
def Sql.Query.withRecent (recent b : Select) : Query :=
  { Query.ofBody (.select b) with
    ctes := [⟨.plain "recent", "", "", .ofBody (.select recent), ""⟩] }

/-- `SELECT id FROM orders WHERE tenant_id = 7` -/
def Sql.Select.ownOrderIds : Select :=
  { Select.ordersOfSeven with projection := [.expr (.column [.plain "id"])] }

/-- In a body of a `WITH` in an insertion, the orders are filtered as they are on their own. -/
theorem Filter.filtersAlike_archiveRecent :
    let f : Filter := .tenant { defaultColumn := some "tenant_id" }
    let q : Query := .ofBody (.select (.idsOf "orders"))
    let p : Place := Place.outermost.enter ⟨false, ["recent"], some 0⟩
    let s : Statement :=
      .insert (.archive ["id"] (.withRecent (.idsOf "orders") (.idsOf "recent")))
    let s' : Statement := .insert (.archive ["id", "tenant_id"]
      (.withRecent .ownOrderIds ((Select.idsOf "recent").withColumn (.ofValue (.integer 7)))))
    f.policy.apply .ofOrders s = .ok s' ∧ f.policy.appliesTo s.kind = true ∧ q.StandsAt p s ∧
      q.Avoids p ∧ f.FiltersAlike .ofOrders s s' := by
  intro f q p s s'
  have happly : f.policy.apply .ofOrders s = .ok s' := by with_unfolding_all rfl
  have hsource : (Query.withRecent (.idsOf "orders") (.idsOf "recent")).StandsAt .outermost s :=
    Query.standsAt_insert rfl
  refine ⟨happly, rfl, hsource.cte (k := 0) rfl, ?_,
    (f.filtersAlike_of_apply .ofOrders s s' happly).1 rfl⟩
  intro o ho _ x hx i hi hcte
  have hoccurrences : q.outline.occurrences .outermost =
      [⟨⟨[⟨false, [], none⟩], false⟩, .idsOf "orders", []⟩] := rfl
  rw [hoccurrences] at ho
  obtain rfl := List.mem_singleton.mp ho
  have hnamed : treesNamed (Select.idsOf "orders").sources = [([.plain "orders"], none)] := rfl
  rw [hnamed] at hx
  obtain rfl := List.mem_singleton.mp hx
  obtain rfl : .plain "orders" = i := List.singleton_inj.mp hi
  exact absurd hcte (by decide +kernel)

/-- Logic deletion is not meant for insertions: the rows of the source keep the deleted orders,
which are not among those of the query on its own. -/
theorem Filter.not_filtersAlike_archiveOrders :
    let f : Filter := .logicDelete {}
    let q : Query := .ofBody (.select (.idsOf "orders"))
    let s : Statement := .insert (.archive ["id"] q)
    f.policy.apply .ofMarked s = .ok s ∧ q.StandsAt .outermost s ∧ q.Avoids .outermost ∧
      ¬f.FiltersAlike .ofMarked s s := by
  intro f q s
  have havoids : q.Avoids .outermost := fun _ _ _ _ _ _ _ h => absurd h Bool.false_ne_true
  have hstands : q.StandsAt .outermost s := Query.standsAt_insert rfl
  refine ⟨rfl, hstands, havoids, fun h => ?_⟩
  obtain ⟨q', pre', found, post', hq', hfound, hpre, hpost, hyields⟩ :=
    h q .outermost [] [] hstands havoids rfl
  obtain rfl := List.length_eq_zero_iff.mp hpre
  obtain rfl := List.length_eq_zero_iff.mp hpost
  have hown : f.policy.apply .ofMarked (.select q) = .ok (.select (.ofBody (.select
      { Select.idsOf "orders" with
        selection := some (.hasValue (.ofColumn none "deleted") (.integer 0)) }))) := by
    with_unfolding_all rfl
  cases hown.symm.trans hq'
  rw [List.nil_append, List.append_nil] at hfound
  rw [← hfound] at hyields
  rcases hyields with hsame | ⟨-, v, hv, -⟩
  · cases List.singleton_inj.mp hsame
  · cases hv

end RowPolicy
