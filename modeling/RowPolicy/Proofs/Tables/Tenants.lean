import RowPolicy.Enforcer
import RowPolicy.Policy.Tenant
import RowPolicy.Proofs.Outcomes
import RowPolicy.Proofs.Tables.Reached
import RowPolicy.Proofs.Tables.Restricted

/-!
# Tenants are kept apart wherever a hook is given a table

A strict separation of tenants that succeeds leaves each use of tables that is reached constrained:
a block, an update or a deletion carries the predicate of each of its tables with a tenant column,
and an insertion writes the column (`Tenant.process_constrains`). What is not reached is passed over
in silence: such is the deletion in `Tenant.not_constrains_deleteBehindWith`.
-/

namespace RowPolicy

open Sql

namespace Tenant

variable (p : Tenant) (c : Context)

/-! ## Constrained uses -/

/-- Whether a target has a column that tells its tenants apart. -/
def Separates (t : Target) (column : String) : Prop :=
  p.column? c t = (.ok (some column) : Except PolicyError (Option String))

/-- Whether each table with a tenant column has its predicate among the conditions of a block, at
the place for predicates of the table, and all relations are tables, queries or joins of such. -/
def Guards (b : RowBlock) : Prop :=
  ¬Refused b.steps ∧ ∀ l ∈ b.leaves, ∀ column, p.Separates c l.target column →
    ∃ v, c.value? p.contextKey = some v ∧
      b.Carries l ((l.target.column column).hasValue v)

/-- Whether tenants are kept apart at a use of tables. Relations and queries that are a table by its
name have no place for a predicate. -/
def Constrains (u : Use) : Prop :=
  match u.site with
  | .select b => p.Guards c (.select u.place.visibleScope b)
  | .update x => p.Guards c (.update x)
  | .delete d => p.Guards c (.deletion d)
  | .insert i => ∀ t, i.target? = some t → ∀ column, p.Separates c t column →
      i.hasColumn column = true
  | .table schema name => ∀ table, u.place.visibleScope.baseTable?
      ((schema.toList ++ [name]).map .plain) = some table →
      ∀ fragment column, ¬p.Separates c ⟨table, none, fragment⟩ column
  | .relation r => ∀ t ∈ r.targets u.place.visibleScope false, ∀ column, ¬p.Separates c t column

variable {p c}

/-! ## Blocks -/

/-- An answer for a table with a tenant column is its predicate. -/
theorem predicate_of_separates {t : Target} {column : String} (h : p.Separates c t column)
    {q : Option Expr} (hq : p.predicate c t = (.ok q : Except PolicyError (Option Expr))) :
    ∃ v, c.value? p.contextKey = some v ∧ q = some ((t.column column).hasValue v) := by
  rw [Separates] at h
  rw [predicate, h, ok_bind] at hq
  obtain ⟨v, hv, hq⟩ := bind_eq_ok_iff.mp hq
  cases hq
  exact ⟨v, Policy.demand_eq_ok_iff.mp hv, rfl⟩

/-- The predicate of a table holds no query. -/
theorem uses_of_predicate {t : Target} {e : Expr}
    (h : p.predicate c t = (.ok (some e) : Except PolicyError (Option Expr))) (place : Place) :
    e.uses place = [] := by
  obtain ⟨column, hcolumn, -⟩ := bind_eq_ok_iff.mp h
  cases column with
  | none =>
    rw [predicate, hcolumn] at h
    cases h
  | some column =>
    obtain ⟨v, -, ⟨⟩⟩ := predicate_of_separates hcolumn h
    exact Expr.uses_hasValue place t column v

/-- The answers with which a block is restricted without an error. -/
theorem exists_answers_of_restrict {b b' : RowBlock} {strict : Bool}
    (h : b.restrict strict (fun t _ => p.predicate c t) = (.ok b' : Except PolicyError RowBlock)) :
    ∃ ps, Running.plain.run (b.leaves.mapM (b.asks fun t _ => p.predicate c t)) () =
        (.ok ps, ()) ∧ b' = b.amended (b.leaves.zip ps) ∧
      (strict = true → ¬Refused b.steps ∧ lostOf (b.leaves.zip ps) = []) :=
  (RowBlock.run_restrict_ok .plain).mp (congrArg (·, ()) h)

/-- A block that is restricted without an error is guarded. -/
theorem guards_of_restrict {b b' : RowBlock}
    (h : b.restrict true (fun t _ => p.predicate c t) = (.ok b' : Except PolicyError RowBlock)) :
    p.Guards c b' := by
  obtain ⟨ps, hps, rfl, hstrict⟩ := exists_answers_of_restrict h
  obtain ⟨hrefused, hlost⟩ := hstrict rfl
  refine ⟨?_, fun l' hl' column hcolumn => ?_⟩
  · rwa [RowBlock.steps_amended, refused_amended]
  · rw [RowBlock.leaves_amended] at hl'
    obtain ⟨l, hl, rfl⟩ := List.mem_map.mp hl'
    obtain ⟨q, _, _, hmem, hq⟩ := Running.plain.exists_answer hps hl
    obtain ⟨v, hv, rfl⟩ := predicate_of_separates hcolumn (congrArg Prod.fst hq)
    exact ⟨v, hv, RowBlock.carries_amended (Expr.simple_hasValue _ v) hl hmem hlost⟩

/-- What is restricted names the tables that it named, with the uses inside that it had. -/
theorem keeps_of_restrict {b b' : RowBlock} {strict : Bool}
    (h : b.restrict strict (fun t _ => p.predicate c t) = (.ok b' : Except PolicyError RowBlock))
    (place : Place) : b'.site.named = b.site.named ∧ b'.inside place = b.inside place := by
  obtain ⟨ps, hps, rfl, -⟩ := exists_answers_of_restrict h
  refine ⟨b.named_amended _, RowBlock.inside_amended (fun l e hmem => ?_) b⟩
  obtain ⟨_, _, he⟩ := Running.plain.answers_of_mem_zip hps hmem
  exact uses_of_predicate (congrArg Prod.fst he) place

/-- Only the names in a scope matter to whether a select block is guarded. -/
theorem guards_select_congr {s s' : Scope} (h : ∀ name, s.isCte name = s'.isCte name) (b : Select) :
    p.Guards c (.select s b) ↔ p.Guards c (.select s' b) := by
  unfold Guards RowBlock.leaves
  rw [RowBlock.steps_select_congr h]
  rfl

/-! ## Insertions -/

/-- A use that is the same use of the same tables, and constrained where it was. -/
def Same (p : Tenant) (c : Context) (u u' : Use) : Prop :=
  u'.place = u.place ∧ u'.site.named = u.site.named ∧ (p.Constrains c u → p.Constrains c u')

theorem paired_same (us : List Use) : Paired (p.Same c) us us :=
  List.forall₂_same.mpr fun _ _ => ⟨rfl, rfl, id⟩

/-- Another value in each row changes no use of tables but for the projection of a block. -/
theorem same_withValue {value : Expr} (place : Place) (hvalue : value.uses place = [])
    {b b' : Body} (h : b.withValue value = .ok b') :
    Paired (p.Same c) (b.uses place) (b'.uses place) := by
  cases b with
  | values keyword explicitRow rows =>
    cases h
    have hrow : ∀ es : List Expr, usesExprs place (es ++ [value]) = usesExprs place es := by
      intro es
      simp [usesExprs_append, usesExprs, hvalue]
    have hrows : usesRows place (rows.map (· ++ [value])) = usesRows place rows := by
      induction rows with
      | nil => rfl
      | cons r rows ih => simp only [List.map_cons, usesRows, hrow, ih]
    rw [Body.uses, Body.uses, hrows]
    exact paired_same _
  | select s =>
    cases h
    obtain ⟨form, distinct, top, projection, into, sources, beforeWhere, selection, grouping,
      windows, qualify, windowsFirst, connect⟩ := s
    have hitems : usesItems place (projection ++ [.expr value]) = usesItems place projection := by
      simp [usesItems_append, usesItems, hvalue]
    simp only [Body.uses, Select.uses, hitems]
    exact (paired_same _).snoc ⟨rfl, rfl, id⟩
  | _ => cases h

/-- What comes of giving a column to an insertion: it has it, it gets it among its assignments or
behind its columns, or it stays as it is. -/
theorem appendColumn_cases (i : Insertion) (column : String) (value : Expr) :
    (i.hasColumn column = true ∧ i.appendColumn column value = (.alreadyPresent, i)) ∨
    i.appendColumn column value =
      (.appended, { i with assignments := i.assignments ++ [.ofColumn column value] }) ∨
    (∃ q body, i.source = some q ∧ q.body.withValue value = .ok body ∧
      i.appendColumn column value = (.appended, { i with
        columns := i.columns ++ [.plain column]
        source := some { q with body } })) ∨
    ∃ outcome, outcome ≠ .appended ∧ outcome ≠ .alreadyPresent ∧
      i.appendColumn column value = (outcome, i) := by
  unfold Insertion.appendColumn
  split
  · exact .inl ⟨‹_›, rfl⟩
  split
  · exact .inr (.inl rfl)
  split
  · exact .inr (.inr (.inr ⟨_, by simp, by simp, rfl⟩))
  cases hsource : i.source with
  | none => exact .inr (.inr (.inr ⟨_, by simp, by simp, rfl⟩))
  | some q =>
    cases hbody : q.body.withValue value with
    | error construct =>
      exact .inr (.inr (.inr ⟨.unsupported construct, by simp, by simp, by simp [hbody]⟩))
    | ok body => exact .inr (.inr (.inl ⟨q, body, rfl, hbody, by simp [hbody]⟩))

/-- Another column of an insertion changes no use of tables but for the projection of a block. -/
theorem same_appendColumn {value : Expr} {place : Place} (hvalue : ∀ p, value.uses p = [])
    (i : Insertion) (column : String) :
    Paired (p.Same c) (i.uses place) ((i.appendColumn column value).2.uses place) := by
  rcases appendColumn_cases i column value with ⟨-, h⟩ | h | ⟨q, body, hq, hbody, h⟩ |
    ⟨_, -, -, h⟩ <;> rw [h]
  · exact paired_same _
  · cases i
    simp only [Insertion.uses, usesAssignments_append, usesAssignments, Assignment.ofColumn,
      hvalue, List.append_nil]
    exact paired_same _
  -- The value stands in each row of the source, which is one level further in.
  · cases i
    obtain ⟨recursive, ctes, b, orderBy, limit, settings, fetch, tail, chain⟩ := q
    cases hq
    have hsame := same_withValue (p := p) (c := c)
      (place.enter ⟨recursive, cteNames ctes, none⟩) (hvalue _) hbody
    simp only [Insertion.uses, usesSource, Query.uses]
    exact Paired.append ((paired_same _).append (hsame.append (paired_same _))) (paired_same _)
  · exact paired_same _

/-- An insertion that is given a column without an error has it. -/
theorem hasColumn_of_insertColumn {i i' : Insertion} {column : String} {value : Expr}
    (h : Policy.insertColumn true i column value = (.ok i' : Except PolicyError Insertion)) :
    i' = (i.appendColumn column value).2 ∧ i'.hasColumn column = true ∧ i'.table = i.table := by
  rw [Policy.insertColumn] at h
  rcases appendColumn_cases i column value with ⟨hcolumn, h'⟩ | h' | ⟨q, body, -, -, h'⟩ |
    ⟨outcome, happended, hpresent, h'⟩ <;> rw [h'] at h ⊢
  · cases h
    exact ⟨rfl, hcolumn, rfl⟩
  · cases h
    refine ⟨rfl, ?_, rfl⟩
    simp [Insertion.hasColumn, Assignment.writes, Assignment.ofColumn, Name.endsIn, Name.last?,
      Ident.plain, Text.sameName_self]
  · cases h
    refine ⟨rfl, ?_, rfl⟩
    simp [Insertion.hasColumn, Ident.plain, Text.sameName_self]
  · cases outcome with
    | appended => exact absurd rfl happended
    | alreadyPresent => exact absurd rfl hpresent
    | noColumnList => cases h
    | unsupported construct => cases h

/-- An insertion behind the hook for it: it writes the tenant column, if its table has one. -/
theorem constrains_of_insert {i i' : Insertion} (hp : p.strict = true)
    (h : p.insert c i = (.ok i' : Except PolicyError Insertion)) (place : Place) :
    p.Constrains c ⟨place, .insert i'⟩ ∧ i'.table = i.table ∧
      Paired (p.Same c) (i.uses place) (i'.uses place) := by
  rw [Tenant.insert] at h
  cases ht : i.target? with
  | none =>
    simp only [ht] at h
    cases h
    exact ⟨fun t ht' => by simp [ht] at ht', rfl, paired_same _⟩
  | some t =>
    simp only [ht] at h
    obtain ⟨column, hcolumn, h⟩ := bind_eq_ok_iff.mp h
    cases column with
    | none =>
      cases h
      refine ⟨fun t' ht' column hseparates => ?_, rfl, paired_same _⟩
      obtain rfl : t = t' := by simpa [ht] using ht'
      simp [Separates, hcolumn] at hseparates
    | some column =>
      obtain ⟨v, -, h⟩ := bind_eq_ok_iff.mp h
      rw [hp] at h
      obtain ⟨heq, hhas, htable⟩ := hasColumn_of_insertColumn h
      refine ⟨fun t' ht' column' hseparates => ?_, htable, ?_⟩
      · have htarget : i'.target? = i.target? := by
          rw [Insertion.target?, Insertion.target?, htable]
        obtain rfl : t = t' := by simpa [htarget, ht] using ht'
        obtain rfl : column = column' := by simpa [Separates, hcolumn] using hseparates
        exact hhas
      · rw [heq]
        exact same_appendColumn (fun _ => rfl) i column

/-! ## Statements -/

/-- A use behind a strict separation of tenants: the same use of the same tables, constrained if it
is reached. -/
def Kept (p : Tenant) (c : Context) (u u' : Use) : Prop :=
  u'.place = u.place ∧ u'.site.named = u.site.named ∧ (u.Reached → p.Constrains c u')

theorem Kept.trans_same {us us₁ us' : List Use} (h : Paired (p.Kept c) us us₁)
    (h' : Paired (p.Same c) us₁ us') : Paired (p.Kept c) us us' := by
  induction h generalizing us' with
  | nil => cases h'; exact .nil
  | cons hu _ ih =>
    cases h' with
    | cons hu' hrest =>
      refine .cons ⟨hu'.1.trans hu.1, hu'.2.1.trans hu.2.1, fun hr => hu'.2.2 (hu.2.2 hr)⟩ ?_
      exact ih hrest

/-- The hook for select blocks keeps the uses of tables. -/
theorem rewrites_kept (hp : p.strict = true) :
    Rewrites ((p.policy : Policy (Except PolicyError)).select c) (p.Kept c) where
  aside u hu := ⟨rfl, rfl, fun hr => by simp [Use.Reached, hu] at hr⟩
  select place b b₁ b' hinner hselect := by
    have hrestrict : (RowBlock.select place.scope b₁).restrict true (fun t _ => p.predicate c t) =
        (.ok (.select place.scope b') : Except PolicyError RowBlock) := by
      rw [RowBlock.restrict, ← hp]
      exact congrArg (RowBlock.select place.scope <$> ·) hselect
    obtain ⟨hnamed, hinside⟩ := keeps_of_restrict hrestrict place
    -- Where a block is reached, the hook is given the names that are visible there.
    refine ⟨⟨rfl, hnamed.trans (b.named_mapInner _ _ b₁ hinner), fun hr => ?_⟩, hinside⟩
    exact (guards_select_congr (Place.isCte_scope_eq hr.2.1) b').mp (guards_of_restrict hrestrict)
  insert place i i' hplace h :=
    ⟨rfl, congrArg (fun t => [(t, none)]) (i.table_mapBlocks _ _ i' h),
      fun hr => absurd hr.2.2 hplace⟩
  update place u u' hplace h :=
    ⟨rfl, u.named_mapBlocks _ _ u' h, fun hr => absurd hr.2.2 hplace⟩
  delete place d d' hplace h :=
    ⟨rfl, d.named_mapBlocks _ _ d' h, fun hr => absurd hr.2.2 hplace⟩
  table place schema name := ⟨rfl, rfl, fun hr => absurd hr.2.2 id⟩
  relation place r r' h :=
    ⟨rfl, r.named_mapBlocks _ _ r' h, fun hr => absurd hr.2.2 id⟩

/-- A statement that is an update or a deletion, behind the hook for it. -/
theorem kept_of_restrict (b b₁ b' : RowBlock) {place : Place}
    (hinside : Paired (p.Kept c) (b.inside place) (b₁.inside place))
    (hnamed : b₁.site.named = b.site.named)
    (h : b₁.restrict true (fun t _ => p.predicate c t) = (.ok b' : Except PolicyError RowBlock))
    (hguards : p.Guards c b' → p.Constrains c ⟨place, b'.site⟩) :
    Paired (p.Kept c) (b.inside place ++ [⟨place, b.site⟩])
      (b'.inside place ++ [⟨place, b'.site⟩]) := by
  obtain ⟨hnamed', hinside'⟩ := keeps_of_restrict h place
  rw [hinside']
  exact hinside.snoc ⟨rfl, hnamed'.trans hnamed, fun _ => hguards (guards_of_restrict h)⟩

theorem after_checkWidths (q : Policy (Except PolicyError)) (before after : Insertion) :
    After (fun i => i = after) (q.checkWidths before after) := by
  rw [Policy.checkWidths]
  split
  · intro i h
    cases h
  · exact .pure rfl

/-- **A strict separation of tenants that succeeds constrains every use of tables that is reached.**
The statement that is left has the uses of the statement, at the same places and with the same
tables. -/
theorem process_constrains (p : Tenant) (hp : p.strict = true) (c : Context) (d : Dialect)
    (g : Guard) (s s' : Statement)
    (h : Enforcer.process ⟨d, [p.policy], g⟩ c s = (.ok s' : Except PolicyError Statement)) :
    s'.kind = s.kind ∧ List.Forall₂ (fun u u' => u'.place = u.place ∧
      u'.site.named = u.site.named ∧ (u.Reached → p.Constrains c u')) s.uses s'.uses := by
  have H := rewrites_kept (c := c) hp
  have hrun : After (fun s' => s'.kind = s.kind ∧ Paired (p.Kept c) s.uses s'.uses)
      ((p.policy : Policy (Except PolicyError)).run c s) := by
    -- The blocks inside are rewritten before the statement itself is.
    cases s with
    | insert i =>
      simp only [Policy.run, pure_bind]
      refine (i.rewrites H .outermost).answer.bind fun i₁ h1 => ?_
      refine After.bind (fun i₂ h => constrains_of_insert hp h .outermost) fun i₂ h2 => ?_
      refine (after_checkWidths _ i₁ i₂).bind fun i₃ h3 => .pure ⟨rfl, ?_⟩
      subst h3
      have htable := h2.2.1.trans (i.table_mapBlocks _ _ i₁ h1.1)
      exact (Kept.trans_same h1.2 h2.2.2).snoc
        ⟨rfl, congrArg (fun t => [(t, none)]) htable, fun _ => h2.1⟩
    | update u =>
      simp only [Policy.run, pure_bind]
      refine (u.rewrites H .outermost).answer.bind fun u₁ h1 => ?_
      refine (After.any _).answer.bind fun u₂ h2 => .pure ⟨rfl, ?_⟩
      have hrestrict : (RowBlock.update u₁).restrict true (fun t _ => p.predicate c t) =
          (.ok (.update u₂) : Except PolicyError RowBlock) := by
        rw [RowBlock.restrict, ← hp]
        exact congrArg (RowBlock.update <$> ·) h2.1
      exact kept_of_restrict (.update u) (.update u₁) (.update u₂) h1.2
        (u.named_mapBlocks _ _ u₁ h1.1) hrestrict id
    | delete d =>
      simp only [Policy.run, pure_bind]
      refine (d.rewrites H .outermost).answer.bind fun d₁ h1 => ?_
      refine (After.any _).answer.bind fun d₂ h2 => .pure ⟨rfl, ?_⟩
      have hrestrict : (RowBlock.deletion d₁).restrict true (fun t _ => p.predicate c t) =
          (.ok (.deletion d₂) : Except PolicyError RowBlock) := by
        rw [RowBlock.restrict, ← hp]
        exact congrArg (RowBlock.deletion <$> ·) h2.1
      exact kept_of_restrict (.deletion d) (.deletion d₁) (.deletion d₂) h1.2
        (d.named_mapBlocks _ _ d₁ h1.1) hrestrict id
    | select q =>
      simp only [Policy.run, pure_bind]
      refine (q.rewrites H .outermost).bind fun q₁ h1 => ?_
      exact After.pure ⟨rfl, h1⟩
    | other text => exact .pure ⟨rfl, .nil⟩
  refine hrun s' ?_
  have happlies : (p.policy : Policy (Except PolicyError)).appliesTo s.kind = true := rfl
  simpa [Enforcer.process, Policy.apply, happlies] using h

end Tenant

/-! ## Orders of tenants -/

/-- Tenant 7, who knows that orders belong to tenants. -/
def Context.ofOrders : Context :=
  (Context.ofRegistry (.ofList [{ table := "orders", tenantColumn := some "tenant_id" }])).withValue
    "tenant_id" (.integer 7)

/-- `SELECT * FROM orders WHERE tenant_id = 7` -/
def Sql.Select.ordersOfSeven : Select :=
  { Select.allOf "orders" with
    selection := some (Expr.hasValue (Target.column ⟨"orders", none, "orders"⟩ "tenant_id")
      (.integer 7)) }

/-- The orders in a query are found and constrained. -/
theorem Tenant.process_constrains_allOrders :
    Enforcer.process ⟨.generic, [Tenant.policy { strict := true }], .allowAll⟩ .ofOrders
        (.select (.ofBody (.select (.allOf "orders")))) =
          (.ok (.select (.ofBody (.select .ordersOfSeven))) : Except PolicyError Statement) ∧
      List.Forall₂ (fun u u' => u'.place = u.place ∧ u'.site.named = u.site.named ∧
          (u.Reached → Tenant.Constrains { strict := true } .ofOrders u'))
        (Statement.select (.ofBody (.select (.allOf "orders")))).uses
        (Statement.select (.ofBody (.select .ordersOfSeven))).uses := by
  have hrun : Enforcer.process ⟨.generic, [Tenant.policy { strict := true }], .allowAll⟩ .ofOrders
      (.select (.ofBody (.select (.allOf "orders")))) =
        (.ok (.select (.ofBody (.select .ordersOfSeven))) : Except PolicyError Statement) := by
    with_unfolding_all rfl
  exact ⟨hrun, (Tenant.process_constrains { strict := true } rfl _ _ _ _ _ hrun).2⟩

/-- `DELETE FROM orders` -/
def Sql.Deletion.ofOrders : Deletion where
  tables := []
  fromKeyword := true
  sources := [⟨.table [.plain "orders"] "" none "" none [], []⟩]
  usingSources := none
  selection := none
  returning := []
  orderBy := []
  limit := none

/-- `WITH c AS (SELECT 1) DELETE FROM orders` -/
def Sql.Query.deleteBehindWith : Query :=
  { Query.ofBody (.delete .ofOrders) with
    ctes := [⟨.plain "c", "", "", .ofBody (.select { Select.allOf "c" with
      projection := [.expr (.literal (.number "1"))], sources := [] }), ""⟩] }

/-- A deletion behind a `WITH` is left as it is: the orders of all tenants are deleted, and the
strict policy does not fail. -/
theorem Tenant.not_constrains_deleteBehindWith :
    Enforcer.process ⟨.generic, [Tenant.policy { strict := true }], .allowAll⟩ .ofOrders
        (.select .deleteBehindWith) =
          (.ok (.select .deleteBehindWith) : Except PolicyError Statement) ∧
      ∃ u ∈ (Statement.select .deleteBehindWith).uses, u.site = .delete .ofOrders ∧
        ¬Tenant.Constrains { strict := true } .ofOrders u := by
  refine ⟨rfl, ⟨_, .delete .ofOrders⟩, List.mem_of_getLast? rfl, rfl, fun h => ?_⟩
  have hleaves : (RowBlock.deletion .ofOrders).leaves = [⟨⟨"orders", none, "orders"⟩, []⟩] := rfl
  obtain ⟨v, -, e, he, -⟩ :=
    h.2 ⟨⟨"orders", none, "orders"⟩, []⟩ (by simp [hleaves]) "tenant_id" rfl
  cases he

end RowPolicy
