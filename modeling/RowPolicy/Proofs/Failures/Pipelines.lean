import RowPolicy.Proofs.Failures.Lenience

/-!
# Policies that are lenient, one after another

There are six policies to be had: three filters, audit columns, optimistic locks and pagination. If
none of them is strict or needs metadata, they fail only for want of a value: of a tenant, where a
table with a tenant column is reached, or of the value of an audit column that the table of an
insertion has. What is reached is a matter of the statement as the policies before have left it
(`BuiltIn.process_fails_iff`). These leave no table out, and only the expression of an audit column
can bring another one.
-/

namespace RowPolicy

open Sql

/-! ## Policies that leave blocks alone -/

section Pure

variable {p : Policy (Except PolicyError)} {c : Context}
  (hselect : p.select c = fun _ b => pure b) (hstatement : p.statement c = pure)
include hselect hstatement

theorem Policy.run_insert_of_pure (i : Insertion) : p.run c (.insert i) =
    Statement.insert <$> (p.insert c i >>= p.checkWidths i) := by
  have hblocks : i.mapBlocks (p.select c) .empty = pure i := hselect ▸ i.mapBlocks_pure _
  simp only [run, hblocks, hstatement, pure_bind, bind_pure, bind_pure_comp, map_bind]

theorem Policy.run_update_of_pure (u : Update) :
    p.run c (.update u) = Statement.update <$> p.update c u := by
  have hblocks : u.mapBlocks (p.select c) .empty = pure u := hselect ▸ u.mapBlocks_pure _
  simp only [run, hblocks, hstatement, pure_bind, bind_pure, bind_pure_comp]

theorem Policy.run_select_of_pure (q : Query) :
    p.run c (.select q) = Statement.select <$> p.query c q := by
  have hblocks : q.mapBlocks (p.select c) .empty = pure q := hselect ▸ q.mapBlocks_pure _
  simp only [run, hblocks, hstatement, pure_bind, bind_pure, bind_pure_comp]

end Pure

/-! ## Audit columns -/

namespace AuditColumn

variable (p : AuditColumn) (c : Context)

/-- The value of the column. -/
def value (fragment : String) : Except PolicyError Expr :=
  match p.source with
  | .context key => Expr.ofValue <$> Policy.demand c key fragment
  | .expression e => .ok e

variable {p c}

theorem value_eq_error_iff {fragment : String} {e : PolicyError} :
    p.value c fragment = .error e ↔
      ∃ key, p.source = .context key ∧ c.value? key = none ∧ e = .missingValue key fragment := by
  unfold value
  cases p.source with
  | context key => simp [map_eq_error_iff, Policy.demand_eq_error_iff]
  | expression e => simp

/-- A value brings no queries, unless the expression does. -/
theorem outline_of_value (hp : ∀ e, p.source = .expression e → e.outline = []) {fragment : String}
    {e : Expr} (h : p.value c fragment = .ok e) : e.outline = [] := by
  unfold value at h
  split at h
  · obtain ⟨v, -, rfl⟩ := map_eq_ok_iff.mp h
    rfl
  · rename_i hsource
    cases h
    exact hp _ hsource

theorem insert_eq (i : Insertion) : p.insert c i =
    match i.target? with
    | none => Except.ok i
    | some t =>
      if p.covers t.table then
        p.value c t.fragment >>= Policy.insertColumn p.strict i p.column
      else Except.ok i := by
  unfold insert value
  cases p.source <;> rfl

/-- An insertion stays as it is, or gets the column with its value. -/
theorem exists_of_insert {i i' : Insertion}
    (h : p.insert c i = (.ok i' : Except PolicyError Insertion)) :
    i' = i ∨ ∃ fragment value, p.value c fragment = .ok value ∧
      i' = (i.appendColumn p.column value).2 := by
  rw [insert_eq] at h
  split at h
  · cases h
    exact .inl rfl
  split at h
  · obtain ⟨value, hvalue, h⟩ := bind_eq_ok_iff.mp h
    exact .inr ⟨_, value, hvalue, Policy.eq_appendColumn_of_insertColumn h⟩
  · cases h
    exact .inl rfl

theorem apply_insert (i : Insertion) :
    (p.policy : Policy (Except PolicyError)).apply c (.insert i) =
      Statement.insert <$> p.insert c i := by
  rw [Policy.apply, if_pos (by rfl), Policy.run_insert_of_pure rfl rfl]
  refine congrArg (Statement.insert <$> ·) (Eq.trans ?_ (bind_pure (p.insert c i)))
  refine bind_congr_of_ok fun i' hi' => ?_
  rcases exists_of_insert hi' with rfl | ⟨_, value, -, rfl⟩
  · exact (Policy.checkWidths_eq_ok_iff _).mpr ⟨rfl, id⟩
  · exact Policy.checkWidths_appendColumn _ i p.column value

/-- A lenient audit column fails where its value is not in the context. -/
theorem insert_eq_error_iff (hp : p.strict = false) {i : Insertion} {e : PolicyError} :
    p.insert c i = Except.error e ↔ ∃ t key, i.target? = some t ∧ p.covers t.table = true ∧
      p.source = .context key ∧ c.value? key = none ∧ e = .missingValue key t.fragment := by
  have hcolumn : ∀ value, Policy.insertColumn p.strict i p.column value ≠
      (.error e : Except PolicyError Insertion) := by
    intro value h
    rw [hp, Policy.insertColumn_of_lenient] at h
    cases h
  rw [insert_eq]
  cases i.target? with
  | none => simp
  | some t =>
    by_cases hcovers : p.covers t.table = true
    · simp [hcovers, bind_eq_error_iff, value_eq_error_iff, hcolumn]
    · simp [hcovers]

end AuditColumn

/-! ## Optimistic locks -/

/-- An update with other assignments and another condition, which use the same tables. -/
theorem Sql.Update.retains_amended (u : Update) {same : Prop} {assignments : List Assignment}
    {selection : Option Expr}
    (hassignments : usesAssignments .outermost assignments =
      usesAssignments .outermost u.assignments)
    (hselection : usesOption .outermost selection = usesOption .outermost u.selection) :
    (Statement.update u).Retains same (.update { u with assignments, selection }) := by
  refine .of_placed ?_ rfl rfl
  rw [← Statement.blocksOf_uses, ← Statement.blocksOf_uses]
  cases u
  simp only [Statement.uses, Update.uses, blocksOfUses_append, hassignments, hselection]
  rfl

namespace OptimisticLock

variable {p : OptimisticLock} {c : Context}

theorem apply_update (u : Update) :
    (p.policy : Policy (Except PolicyError)).apply c (.update u) =
      Statement.update <$> p.update c u := by
  rw [Policy.apply, if_pos (by rfl), Policy.run_update_of_pure rfl rfl]
  rfl

theorem update_ne_error (hstrict : p.strict = false) (hp : p.requireMetadata = false) (u : Update)
    (e : PolicyError) : p.update c u ≠ (.error e : Except PolicyError Update) := by
  intro h
  unfold update at h
  rw [hstrict, hp] at h
  split at h
  · cases h
  · simp only [Policy.resolve_of_lenient, bind, Except.bind] at h
    split at h <;> cases h

/-- An update keeps its tables, and gets nothing that has any. -/
theorem retains_of_update {u u' : Update} (h : p.update c u = (.ok u' : Except PolicyError Update))
    {same : Prop} : (Statement.update u).Retains same (.update u') := by
  rcases exists_of_update h with rfl | ⟨t, column, rfl⟩
  · exact .refl _
  have hexpected : ∀ q ∈ ((c.value? p.contextKey).map (t.column column).hasValue).toList,
      q.uses .outermost = [] := by
    intro q hq
    obtain ⟨v, -, rfl⟩ := Option.map_eq_some_iff.mp (Option.mem_toList.mp hq)
    exact Expr.uses_hasValue .outermost t column v
  refine u.retains_amended ?_ (usesOption_conjoinAll _ _ hexpected)
  split
  · rfl
  · simp [usesAssignments_append, usesAssignments, increment, Expr.uses, Target.column,
      Expr.ofColumn]

end OptimisticLock

/-! ## Pagination -/

namespace Pagination

variable {p : Pagination} {c : Context}

theorem apply_select (q : Query) :
    (p.policy : Policy (Except PolicyError)).apply c (.select q) =
      Statement.select <$> p.query c q := by
  rw [Policy.apply, if_pos (by rfl), Policy.run_select_of_pure rfl rfl]
  rfl

theorem query_ne_error (hp : p.strict = false) (q : Query) (e : PolicyError) :
    p.query c q ≠ (.error e : Except PolicyError Query) := by
  intro h
  unfold query apply at h
  rw [hp] at h
  repeat' split at h
  all_goals cases h

theorem retains_of_query {q q' : Query} (h : p.query c q = (.ok q' : Except PolicyError Query))
    {same : Prop} : (Statement.select q).Retains same (.select q') := by
  have houtline : q'.outline = q.outline := by
    unfold query at h
    split at h
    · cases h
      rfl
    split at h
    · cases h
      rfl
    rename_i page _ hcut
    simp only [Bool.or_eq_true, not_or, Bool.not_eq_true, Option.isSome_eq_false_iff,
      Option.isNone_iff_eq_none] at hcut
    obtain ⟨recursive, ctes, body, orderBy, limit, settings, fetch, tail, chain⟩ := q
    obtain ⟨rfl, rfl⟩ := hcut
    unfold apply at h
    split at h
    · cases h
      by_cases hoffset : page.offset = 0 <;>
        simp [hoffset, Query.outline, outlineLimit, outlineOption, outlinePieces, count,
          Expr.outline]
    split at h
    · obtain ⟨_, -, h⟩ := bind_eq_ok_iff.mp h
      cases h
      rfl
    · cases h
      simp [Query.outline, outlineLimit, outlineFetch, outlineOption, outlinePieces, count,
        Expr.outline]
  refine .of_placed ?_ rfl rfl
  rw [Statement.occurrences, Statement.occurrences, Statement.outline, Statement.outline, houtline]

end Pagination

/-! ## The six policies -/

/-- One of the policies to be had. -/
inductive BuiltIn where
  | filter (f : Filter)
  | auditColumn (p : AuditColumn)
  | optimisticLock (p : OptimisticLock)
  | pagination (p : Pagination)

namespace BuiltIn

/-- The policy itself. -/
def policy : BuiltIn → Policy (Except PolicyError)
  | filter f => f.policy
  | auditColumn p => p.policy
  | optimisticLock p => p.policy
  | pagination p => p.policy

/-- Whether a policy is not strict and needs no metadata. -/
def Lenient : BuiltIn → Prop
  | filter f => f.Lenient
  | auditColumn p => p.strict = false
  | optimisticLock p => p.strict = false ∧ p.requireMetadata = false
  | pagination p => p.strict = false

/-- Whether a policy needs the value under a key: a tenant for the tables with a tenant column that
it reaches, or the value of an audit column of the table of an insertion. -/
def Needs (b : BuiltIn) (c : Context) (s : Statement) (key : String) : Prop :=
  match b with
  | filter (.tenant p) =>
    p.contextKey = key ∧ ∃ table, s.Reaches table ∧ (p.columnOf? c table).isSome = true
  | auditColumn p =>
    p.source = .context key ∧ ∃ table, s.insertTable? = some table ∧ p.covers table = true
  | _ => False

/-- Whether a policy needs the value under a key, and the context has none. -/
def Lacks (b : BuiltIn) (c : Context) (s : Statement) (key : String) : Prop :=
  b.Needs c s key ∧ c.value? key = none

/-- Whether a policy brings no queries into a statement. -/
def Queryless : BuiltIn → Prop
  | auditColumn p => ∀ e, p.source = .expression e → e.outline = []
  | _ => True

variable {b : BuiltIn} {c : Context} {s s' : Statement} {key : String}

/-! ### One of them -/

/-- **A lenient policy fails only for want of a value.** -/
theorem lacks_of_error (hb : b.Lenient) {e : PolicyError} (h : b.policy.apply c s = .error e) :
    ∃ key fragment, e = .missingValue key fragment ∧ b.Lacks c s key := by
  cases b with
  | filter f =>
    obtain ⟨⟨key, hkey, fragment, rfl⟩, table, hreaches, hserves⟩ :=
      Filter.exists_reaches_of_apply hb h
    cases f with
    | tenant p =>
      cases hkey
      obtain ⟨hcolumn, hvalue⟩ := Classical.not_imp.mp hserves
      exact ⟨_, fragment, rfl, ⟨rfl, table, hreaches, hcolumn⟩,
        Option.not_isSome_iff_eq_none.mp hvalue⟩
    | _ => cases hkey
  | auditColumn p =>
    cases s with
    | insert i =>
      change p.policy.apply c (.insert i) = _ at h
      rw [AuditColumn.apply_insert, map_eq_error_iff, AuditColumn.insert_eq_error_iff hb] at h
      obtain ⟨t, key, ht, hcovers, hsource, hvalue, rfl⟩ := h
      refine ⟨key, _, rfl, ⟨hsource, t.table, ?_, hcovers⟩, hvalue⟩
      rw [Statement.insertTable?, ht, Option.map_some]
    | _ => cases h
  | optimisticLock p =>
    cases s with
    | update u =>
      change p.policy.apply c (.update u) = _ at h
      rw [OptimisticLock.apply_update, map_eq_error_iff] at h
      exact absurd h (OptimisticLock.update_ne_error hb.1 hb.2 u e)
    | _ => cases h
  | pagination p =>
    cases s with
    | select q =>
      change p.policy.apply c (.select q) = _ at h
      rw [Pagination.apply_select, map_eq_error_iff] at h
      exact absurd h (Pagination.query_ne_error hb q e)
    | _ => cases h

theorem exists_error_of_lacks (hb : b.Lenient) (h : b.Lacks c s key) :
    ∃ e, b.policy.apply c s = .error e := by
  obtain ⟨hneeds, hvalue⟩ := h
  cases b with
  | filter f =>
    cases f with
    | tenant p =>
      obtain ⟨rfl, table, hreaches, hcolumn⟩ := hneeds
      change ∃ e, p.policy.apply c s = _
      rw [Policy.apply, if_pos (by rfl)]
      cases hrun : (p.policy : Policy (Except PolicyError)).run c s with
      | error e => exact ⟨e, rfl⟩
      | ok s' =>
        have hserves := (Filter.exists_run_iff (f := .tenant p) hb s).mp ⟨s', hrun⟩ table hreaches
        have hsome := hserves hcolumn
        rw [hvalue] at hsome
        cases hsome
    | _ => cases hneeds
  | auditColumn p =>
    obtain ⟨hsource, table, htable, hcovers⟩ := hneeds
    cases s with
    | insert i =>
      obtain ⟨t, ht, rfl⟩ := Option.map_eq_some_iff.mp htable
      refine ⟨.missingValue key t.fragment, ?_⟩
      change p.policy.apply c (.insert i) = _
      rw [AuditColumn.apply_insert, map_eq_error_iff, AuditColumn.insert_eq_error_iff hb]
      exact ⟨t, key, ht, hcovers, hsource, hvalue, rfl⟩
    | _ => cases htable
  | _ => cases hneeds

/-- What a policy leaves of a statement: its hook for the kind of the statement says so, or the
statement stays as it is. -/
inductive Leaves (c : Context) : BuiltIn → Statement → Statement → Prop
  | filter {f : Filter} {s s' : Statement} (h : f.policy.apply c s = .ok s') :
    Leaves c (filter f) s s'
  | auditColumn {p : AuditColumn} {i i' : Insertion}
      (h : p.insert c i = (.ok i' : Except PolicyError Insertion)) :
    Leaves c (auditColumn p) (.insert i) (.insert i')
  | optimisticLock {p : OptimisticLock} {u u' : Update}
      (h : p.update c u = (.ok u' : Except PolicyError Update)) :
    Leaves c (optimisticLock p) (.update u) (.update u')
  | pagination {p : Pagination} {q q' : Query}
      (h : p.query c q = (.ok q' : Except PolicyError Query)) :
    Leaves c (pagination p) (.select q) (.select q')
  | same {b : BuiltIn} (s : Statement) : Leaves c b s s

theorem leaves_of_apply (h : b.policy.apply c s = .ok s') : b.Leaves c s s' := by
  cases b with
  | filter f => exact .filter h
  | auditColumn p =>
    cases s with
    | insert i =>
      change p.policy.apply c (.insert i) = _ at h
      rw [AuditColumn.apply_insert] at h
      obtain ⟨i', hi', rfl⟩ := map_eq_ok_iff.mp h
      exact .auditColumn hi'
    | _ =>
      cases h
      exact .same _
  | optimisticLock p =>
    cases s with
    | update u =>
      change p.policy.apply c (.update u) = _ at h
      rw [OptimisticLock.apply_update] at h
      obtain ⟨u', hu', rfl⟩ := map_eq_ok_iff.mp h
      exact .optimisticLock hu'
    | _ =>
      cases h
      exact .same _
  | pagination p =>
    cases s with
    | select q =>
      change p.policy.apply c (.select q) = _ at h
      rw [Pagination.apply_select] at h
      obtain ⟨q', hq', rfl⟩ := map_eq_ok_iff.mp h
      exact .pagination hq'
    | _ =>
      cases h
      exact .same _

/-- What a policy leaves of a statement reaches the same tables, unless it brings queries. -/
theorem retains_of_apply (h : b.policy.apply c s = .ok s') : s.Retains b.Queryless s' := by
  cases leaves_of_apply h with
  | filter hs' =>
    unfold Policy.apply at hs'
    split at hs'
    · exact Filter.retains_of_run hs'
    · cases hs'
      exact .refl _
  | @auditColumn p i _ hi' =>
    rcases AuditColumn.exists_of_insert hi' with rfl | ⟨fragment, value, hvalue, rfl⟩
    · exact .refl _
    · exact (i.retains_appendColumn p.column value).mono fun hqueryless =>
        AuditColumn.outline_of_value hqueryless hvalue
  | optimisticLock hu' => exact OptimisticLock.retains_of_update hu'
  | pagination hq' => exact Pagination.retains_of_query hq'
  | same s => exact .refl _

/-- A policy needs no less of a statement that reaches more. -/
theorem Lacks.of_reaches (hreaches : ∀ table, s.Reaches table → s'.Reaches table)
    (hinserted : s'.insertTable? = s.insertTable?) (h : b.Lacks c s key) : b.Lacks c s' key := by
  obtain ⟨hneeds, hvalue⟩ := h
  refine ⟨?_, hvalue⟩
  cases b with
  | filter f =>
    cases f with
    | tenant p =>
      obtain ⟨hkey, table, htable, hcolumn⟩ := hneeds
      exact ⟨hkey, table, hreaches table htable, hcolumn⟩
    | _ => cases hneeds
  | auditColumn p =>
    obtain ⟨hsource, table, htable, hcovers⟩ := hneeds
    exact ⟨hsource, table, hinserted.trans htable, hcovers⟩
  | _ => cases hneeds

/-! ### One after another -/

/-- The enforcer of some of these policies. -/
def enforcer (dialect : Dialect) (guard : Guard) (bs : List BuiltIn) :
    Enforcer (Except PolicyError) where
  dialect
  policies := bs.map policy
  guard

/-- Whether some policies, one after another, come to one that lacks the value under a key. -/
def ComesToLack (dialect : Dialect) (guard : Guard) (bs : List BuiltIn) (c : Context)
    (s : Statement) (key : String) : Prop :=
  ∃ before b behind s₁, bs = before ++ b :: behind ∧
    (enforcer dialect guard before).process c s = .ok s₁ ∧ b.Lacks c s₁ key

variable {dialect : Dialect} {guard : Guard} {bs : List BuiltIn}

theorem process_cons (b : BuiltIn) (bs : List BuiltIn) (s : Statement) :
    (enforcer dialect guard (b :: bs)).process c s =
      b.policy.apply c s >>= (enforcer dialect guard bs).process c := by
  simp only [Enforcer.process, enforcer, List.map_cons, List.foldlM_cons]
  rfl

theorem comesToLack_cons_iff : ComesToLack dialect guard (b :: bs) c s key ↔
    b.Lacks c s key ∨
      ∃ s₁, b.policy.apply c s = .ok s₁ ∧ ComesToLack dialect guard bs c s₁ key := by
  constructor
  · rintro ⟨before, b', behind, s₂, hsplit, hprocess, hlacks⟩
    cases before with
    | nil =>
      cases hsplit
      cases hprocess
      exact .inl hlacks
    | cons b₀ before =>
      cases hsplit
      rw [process_cons] at hprocess
      obtain ⟨s₁, hs₁, hs₂⟩ := bind_eq_ok_iff.mp hprocess
      exact .inr ⟨s₁, hs₁, before, b', behind, s₂, rfl, hs₂, hlacks⟩
  · rintro (hlacks | ⟨s₁, hs₁, before, b', behind, s₂, rfl, hs₂, hlacks⟩)
    · exact ⟨[], b, bs, s, rfl, rfl, hlacks⟩
    · refine ⟨b :: before, b', behind, s₂, rfl, ?_, hlacks⟩
      rw [process_cons]
      exact bind_eq_ok_iff.mpr ⟨s₁, hs₁, hs₂⟩

/-- What some policies leave of a statement reaches the same tables, unless one brings queries. -/
theorem retains_of_process (h : (enforcer dialect guard bs).process c s = .ok s') :
    s.Retains (∀ b ∈ bs, b.Queryless) s' := by
  induction bs generalizing s with
  | nil =>
    cases h
    exact .refl _
  | cons b bs ih =>
    rw [process_cons] at h
    obtain ⟨s₁, hs₁, hs'⟩ := bind_eq_ok_iff.mp h
    exact ((retains_of_apply hs₁).mono fun hbs => hbs b List.mem_cons_self).trans
      ((ih hs').mono fun hbs b hb => hbs b (List.mem_cons_of_mem _ hb))

/-- Lenient policies come to one that lacks a value, or to an end. -/
theorem comesToLack_of_error (hbs : ∀ b ∈ bs, b.Lenient) {e : PolicyError}
    (h : (enforcer dialect guard bs).process c s = .error e) :
    ∃ key fragment, e = .missingValue key fragment ∧ ComesToLack dialect guard bs c s key := by
  induction bs generalizing s with
  | nil => cases h
  | cons b bs ih =>
    obtain ⟨hb, hbs⟩ := List.forall_mem_cons.mp hbs
    rw [process_cons] at h
    rcases bind_eq_error_iff.mp h with h | ⟨s₁, hs₁, h⟩
    · obtain ⟨key, fragment, he, hlacks⟩ := lacks_of_error hb h
      exact ⟨key, fragment, he, comesToLack_cons_iff.mpr (.inl hlacks)⟩
    · obtain ⟨key, fragment, he, hlacks⟩ := ih hbs h
      exact ⟨key, fragment, he, comesToLack_cons_iff.mpr (.inr ⟨s₁, hs₁, hlacks⟩)⟩

theorem ComesToLack.exists_error (hbs : ∀ b ∈ bs, b.Lenient)
    (h : ComesToLack dialect guard bs c s key) :
    ∃ e, (enforcer dialect guard bs).process c s = .error e := by
  induction bs generalizing s with
  | nil =>
    obtain ⟨before, b, behind, _, hsplit, -⟩ := h
    exact absurd hsplit (by simp)
  | cons b bs ih =>
    obtain ⟨hb, hbs⟩ := List.forall_mem_cons.mp hbs
    simp only [process_cons, bind_eq_error_iff]
    rcases comesToLack_cons_iff.mp h with hlacks | ⟨s₁, hs₁, h⟩
    · obtain ⟨e, he⟩ := exists_error_of_lacks hb hlacks
      exact ⟨e, .inl he⟩
    · obtain ⟨e, he⟩ := ih hbs h
      exact ⟨e, .inr ⟨s₁, hs₁, he⟩⟩

/-- A policy that lacks a value at the outset lacks it when its turn comes. -/
theorem exists_comesToLack_of_lacks (hbs : ∀ b ∈ bs, b.Lenient) (hb : b ∈ bs)
    (h : b.Lacks c s key) : ∃ key, ComesToLack dialect guard bs c s key := by
  obtain ⟨before, behind, rfl⟩ := List.append_of_mem hb
  cases hbefore : (enforcer dialect guard before).process c s with
  | error e =>
    obtain ⟨key', -, -, before', b', behind', s₁, rfl, hs₁, hlacks⟩ :=
      comesToLack_of_error (fun b hb => hbs b (List.mem_append_left _ hb)) hbefore
    exact ⟨key', before', b', behind' ++ b :: behind, s₁, by simp, hs₁, hlacks⟩
  | ok s₁ =>
    have hretains := retains_of_process hbefore
    exact ⟨key, before, b, behind, s₁, rfl, hbefore,
      h.of_reaches (fun _ => hretains.reaches) hretains.inserted⟩

/-- If no policy brings queries, one that lacks a value lacks it at the outset. -/
theorem ComesToLack.exists_lacks (hqueryless : ∀ b ∈ bs, b.Queryless)
    (h : ComesToLack dialect guard bs c s key) : ∃ b ∈ bs, b.Lacks c s key := by
  obtain ⟨before, b, behind, s₁, rfl, hs₁, hlacks⟩ := h
  have hretains := retains_of_process hs₁
  refine ⟨b, by simp, hlacks.of_reaches (fun table => hretains.of_reaches ?_)
    hretains.inserted.symm⟩
  exact fun b hb => hqueryless b (List.mem_append_left _ hb)

/-- **Lenient policies fail if and only if one of them lacks a value when its turn comes**, and the
error names the key of the value. They do if one lacks a value at the outset; if none of them brings
queries, then only if one does. -/
theorem process_fails_iff (hbs : ∀ b ∈ bs, b.Lenient) (c : Context) (s : Statement) :
    ((∃ e, (enforcer dialect guard bs).process c s = .error e) ↔
      ∃ key, ComesToLack dialect guard bs c s key) ∧
    (∀ e, (enforcer dialect guard bs).process c s = .error e →
      ∃ key fragment, e = .missingValue key fragment ∧ ComesToLack dialect guard bs c s key) ∧
    (∀ b ∈ bs, ∀ key, b.Lacks c s key →
      ∃ e, (enforcer dialect guard bs).process c s = .error e) ∧
    ((∀ b ∈ bs, b.Queryless) → ∀ key, ComesToLack dialect guard bs c s key →
      ∃ b ∈ bs, b.Lacks c s key) := by
  refine ⟨⟨?_, fun ⟨key, h⟩ => h.exists_error hbs⟩, fun e => comesToLack_of_error hbs, ?_,
    fun hqueryless key => ComesToLack.exists_lacks hqueryless⟩
  · rintro ⟨e, he⟩
    obtain ⟨key, -, -, h⟩ := comesToLack_of_error hbs he
    exact ⟨key, h⟩
  · intro b hb key hlacks
    obtain ⟨key', h⟩ := exists_comesToLack_of_lacks hbs hb hlacks
    exact h.exists_error hbs

/-- Of an insertion with the orders of nobody, the separation of tenants leaves nothing. -/
theorem process_fails_archiveOrders :
    let bs : List BuiltIn := [filter (.logicDelete {}),
      auditColumn { column := "created_by", source := .context "user" },
      filter (.tenant { defaultColumn := some "tenant_id" })]
    let c : Context := Context.empty.withValue "user" (.text "alice")
    let s : Statement := .insert (.archive ["id"] (.ofBody (.select (.idsOf "orders"))))
    let e : PolicyError := .missingValue "tenant_id" "orders"
    (∀ b ∈ bs, b.Lenient) ∧ (enforcer .generic Guard.allowAll bs).process c s = .error e ∧
      ComesToLack .generic Guard.allowAll bs c s "tenant_id" := by
  intro bs c s e
  have hbs : ∀ b ∈ bs, b.Lenient := by simp [bs, Lenient, Filter.Lenient]
  have he : (enforcer .generic Guard.allowAll bs).process c s = .error e := by
    with_unfolding_all rfl
  obtain ⟨key, fragment, heq, hlack⟩ := (process_fails_iff hbs c s).2.1 e he
  obtain ⟨rfl, -⟩ := PolicyError.missingValue.inj heq
  exact ⟨hbs, he, hlack⟩

end BuiltIn

end RowPolicy
