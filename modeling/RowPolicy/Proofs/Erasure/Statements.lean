import RowPolicy.Policy.AuditColumn
import RowPolicy.Policy.Condition
import RowPolicy.Policy.OptimisticLock
import RowPolicy.Policy.Tenant
import RowPolicy.Proofs.Blocks.Identity
import RowPolicy.Proofs.Deletions.Idempotence
import RowPolicy.Proofs.Erasure.Cuts

/-!
# Policies only add

What policies put into a statement can be taken out again, and what is left is the statement as it
was: `Enforcer.exists_eraseAll`. One policy leaves `Marks`. Erasing them takes, at the right ends
only,

* conjuncts from `WHERE` and `ON` conditions, with the parentheses that the old condition has got,
* the last assignment of an update,
* the last column of an insertion with the last value of each row, or of the projection that yields
  the rows, or its last assignment,

at every depth: the blocks are traversed in the order in which the policy has traversed them, each
with a mark of its own. Nothing is ever put back, so a statement that comes out right has lost
nothing to the policies.
-/

namespace RowPolicy

open Sql

/-! ## Erasing -/

namespace Sql

/-- A body whose rows have lost their last value, where its rows can be given one. -/
def Body.dropValue? : Body → Option Body
  | .values keyword explicitRow rows =>
    some (.values keyword explicitRow (rows.map List.dropLast))
  | .select b => some (.select { b with projection := b.projection.dropLast })
  | _ => none

/-- An insertion without its last column and the values in it; without values there is no column to
drop. -/
def Insertion.dropColumn (i : Insertion) : Insertion :=
  if i.assignments.isEmpty then
    match i.source with
    | none => i
    | some q =>
      match q.body.dropValue? with
      | none => i
      | some body =>
        { i with columns := i.columns.dropLast, source := some { q with body := body } }
  else { i with assignments := i.assignments.dropLast }

/-- An update without its last assignment. -/
def Update.dropAssignment (u : Update) : Update :=
  { u with assignments := u.assignments.dropLast }

/-- A block without what its mark says; the marks of the blocks behind it are left. -/
def eraseBlock (_ : Scope) (b : Select) : StateM (List BlockMark) Select :=
  modifyGet fun
    | [] => (b, [])
    | m :: ms => (b.erase m, ms)

/-- What one policy has put into a statement: behind the conditions of its blocks, one after another
as they are traversed, behind those of the update or deletion that it is, and as a last column or
assignment. -/
structure Marks where
  blocks : List BlockMark := []
  outermost : BlockMark := ⟨fun _ => {}, some {}⟩
  appended : Bool := false

/-- A statement without what one policy has put into it. -/
def Statement.erase (m : Marks) : Statement → Statement
  | .insert i =>
    let i := if m.appended then i.dropColumn else i
    .insert ((i.mapBlocks eraseBlock .empty).run m.blocks).1
  | .update u =>
    let u := (if m.appended then u.dropAssignment else u).erase m.outermost
    .update ((u.mapBlocks eraseBlock .empty).run m.blocks).1
  | .delete d => .delete (((d.erase m.outermost).mapBlocks eraseBlock .empty).run m.blocks).1
  | .select q => .select ((q.mapBlocks eraseBlock .empty).run m.blocks).1
  | .other text => .other text

/-- A statement without what several policies have put into it, the last one first. -/
def Statement.eraseAll (ms : List Marks) (s : Statement) : Statement :=
  ms.foldr (fun m s => s.erase m) s

end Sql

/-! ## Insertions -/

theorem Sql.Body.dropValue?_withValue {value : Expr} {b b' : Body}
    (h : b.withValue value = .ok b') : b'.dropValue? = some b := by
  cases b with
  | values keyword explicitRow rows =>
    cases h
    simp [dropValue?, Function.comp_def]
  | select s =>
    cases h
    cases s
    simp [dropValue?]
  | _ => cases h

/-- An insertion with another column comes from dropping it; any other is as it was. -/
theorem Sql.Insertion.appendColumn_drop (i : Insertion) (column : String) (value : Expr) :
    (i.appendColumn column value).2.dropColumn = i ∨ (i.appendColumn column value).2 = i := by
  unfold appendColumn
  split
  · exact .inr rfl
  split
  · refine .inl ?_
    cases i
    simp [dropColumn]
  rename_i hassignments
  split
  · exact .inr rfl
  cases hsource : i.source with
  | none => exact .inr rfl
  | some q =>
    cases hbody : q.body.withValue value with
    | error construct => exact .inr (by simp [hbody])
    | ok body =>
      have hdrop := Body.dropValue?_withValue hbody
      refine .inl ?_
      cases i
      cases q
      simp_all [dropColumn]

theorem Policy.eq_appendColumn_of_insertColumn {strict : Bool} {i i' : Insertion}
    {column : String} {value : Expr}
    (h : Policy.insertColumn strict i column value = (.ok i' : Except PolicyError Insertion)) :
    i' = (i.appendColumn column value).2 := by
  unfold Policy.insertColumn at h
  cases houtcome : i.appendColumn column value with
  | mk outcome i₁ =>
    rw [houtcome] at h
    cases outcome with
    | appended => cases h; rfl
    | alreadyPresent => cases h; rfl
    | noColumnList =>
      obtain ⟨_, -, h⟩ := bind_eq_ok_iff.mp h
      cases h
      rfl
    | unsupported construct =>
      obtain ⟨_, -, h⟩ := bind_eq_ok_iff.mp h
      cases h
      rfl

theorem Policy.insertColumn_drop {strict : Bool} {i i' : Insertion} {column : String}
    {value : Expr}
    (h : Policy.insertColumn strict i column value = (.ok i' : Except PolicyError Insertion)) :
    i'.dropColumn = i ∨ i' = i := by
  rw [Policy.eq_appendColumn_of_insertColumn h]
  exact i.appendColumn_drop column value

/-! ## What each policy adds -/

/-- Whether the hooks of a policy, run in a context, only add. -/
structure Policy.Adds (p : Policy (Except PolicyError)) (c : Context) : Prop where
  select : ∀ {s : Scope} {b b' : Select}, p.select c s b = .ok b' →
    ∃ as, BlocklessAnswers as ∧ RowBlock.select s b' = (RowBlock.select s b).amended as
  insert : ∀ {i i' : Insertion}, p.insert c i = .ok i' → i'.dropColumn = i ∨ i' = i
  update : ∀ {u u' : Update}, p.update c u = .ok u' →
    ∃ as, RowBlock.update u' = (RowBlock.update u).amended as ∨
      RowBlock.update u'.dropAssignment = (RowBlock.update u).amended as
  delete : ∀ {d d' : Deletion}, p.delete c d = .ok d' →
    ∃ as, RowBlock.deletion d' = (RowBlock.deletion d).amended as
  query : ∀ q, p.query c q = .ok q
  statement : ∀ s, p.statement c s = .ok s

/-- Restricting a block adds predicates. -/
theorem exists_amended_of_restrict {b b' : RowBlock} {strict : Bool}
    {predicate : Target → Option Expr → Except PolicyError (Option Expr)}
    (hpredicate : ∀ t e p, predicate t e = .ok p → ∀ q ∈ p, q.Blockless)
    (h : b.restrict strict predicate = .ok b') : ∃ as, BlocklessAnswers as ∧ b' = b.amended as := by
  obtain ⟨ps, hps, rfl, -⟩ := RowBlock.restrict_eq_ok_iff.mp h
  exact ⟨_, fun x hx => hpredicate _ _ _ ((List.forall₂_iff_zip.mp hps).2 hx), rfl⟩

theorem exists_eq_amended (b : RowBlock) : ∃ as, b = b.amended as :=
  ⟨[], (b.amended_eq_self (by simp)).symm⟩

/-- A hook that is not there adds nothing. -/
theorem exists_amended_self (b : RowBlock) : ∃ as, BlocklessAnswers as ∧ b = b.amended as :=
  ⟨[], fun _ hx => absurd hx List.not_mem_nil, (b.amended_eq_self (by simp)).symm⟩

section Restricting

variable {p : Policy (Except PolicyError)} {c : Context} {strict : Bool}
  (predicate : Target → Option Expr → Except PolicyError (Option Expr))

/-- A policy that restricts the blocks adds predicates, and what its hook for insertions adds. -/
theorem Policy.Adds.of_restricts
    (hpredicate : ∀ t e p, predicate t e = .ok p → ∀ q ∈ p, q.Blockless)
    (hselect : ∀ s b, p.select c s b = b.restrict strict s predicate)
    (hupdate : ∀ u, p.update c u = u.restrict strict predicate)
    (hdelete : ∀ d, p.delete c d = d.restrict strict predicate)
    (hinsert : ∀ {i i' : Insertion}, p.insert c i = .ok i' → i'.dropColumn = i ∨ i' = i)
    (hquery : ∀ q, p.query c q = .ok q) (hstatement : ∀ s, p.statement c s = .ok s) :
    p.Adds c where
  select {s b b'} h := by
    rw [hselect] at h
    exact exists_amended_of_restrict hpredicate (b := .select s b)
      (map_eq_ok_iff.mpr ⟨b', h, rfl⟩)
  update {u u'} h := by
    rw [hupdate] at h
    obtain ⟨as, -, has⟩ := exists_amended_of_restrict hpredicate (b := .update u)
      (map_eq_ok_iff.mpr ⟨u', h, rfl⟩)
    exact ⟨as, .inl has⟩
  delete {d d'} h := by
    rw [hdelete] at h
    obtain ⟨as, -, has⟩ := exists_amended_of_restrict hpredicate (b := .deletion d)
      (map_eq_ok_iff.mpr ⟨d', h, rfl⟩)
    exact ⟨as, has⟩
  insert := hinsert
  query := hquery
  statement := hstatement

end Restricting

/-- Logic deletion without soft deletion adds predicates. -/
theorem LogicDelete.adds {p : LogicDelete} (hsoft : p.soft = false) (c : Context) :
    (p.policy : Policy (Except PolicyError)).Adds c := by
  refine .of_restricts (p.predicate c) (fun t e q h => p.blockless_of_predicate h)
    (fun _ _ => rfl) (fun _ => rfl) (fun _ => rfl) (fun h => ?_) (fun _ => rfl) fun s => ?_
  · cases h
    exact .inr rfl
  · cases s <;> simp [policy, hsoft] <;> rfl

/-- A predicate says that the tenant column of the table has the tenant of the context. -/
theorem Tenant.exists_of_predicate {p : Tenant} {c : Context} {t : Target} {r : Option Expr}
    (h : p.predicate c t = (.ok r : Except PolicyError (Option Expr))) :
    ∀ q ∈ r, ∃ column v, p.column? c t = (.ok (some column) : Except PolicyError _) ∧
      c.value? p.contextKey = some v ∧ q = (t.column column).hasValue v := by
  obtain ⟨column, hcolumn, h⟩ := bind_eq_ok_iff.mp h
  cases column with
  | none =>
    cases h
    exact fun q hq => by cases hq
  | some column =>
    obtain ⟨v, hv, h⟩ := bind_eq_ok_iff.mp h
    cases h
    intro q hq
    cases hq
    exact ⟨column, v, hcolumn, Policy.demand_eq_ok_iff.mp hv, rfl⟩

theorem Tenant.blockless_of_predicate (p : Tenant) {c : Context} {t : Target} {r : Option Expr}
    (h : p.predicate c t = (.ok r : Except PolicyError (Option Expr))) : ∀ q ∈ r, q.Blockless := by
  intro q hq
  obtain ⟨column, v, -, -, rfl⟩ := exists_of_predicate h q hq
  exact Expr.blockless_hasValue t column v

/-- An insertion stays as it is, or gets the tenant column with the tenant of the context. -/
theorem Tenant.exists_of_insert {p : Tenant} {c : Context} {i i' : Insertion}
    (h : p.insert c i = (.ok i' : Except PolicyError Insertion)) :
    i' = i ∨ ∃ column v, c.value? p.contextKey = some v ∧
      i' = (i.appendColumn column (.ofValue v)).2 := by
  unfold Tenant.insert at h
  split at h
  · cases h
    exact .inl rfl
  obtain ⟨column, -, h⟩ := bind_eq_ok_iff.mp h
  cases column with
  | none =>
    cases h
    exact .inl rfl
  | some column =>
    obtain ⟨v, hv, h⟩ := bind_eq_ok_iff.mp h
    exact .inr ⟨column, v, Policy.demand_eq_ok_iff.mp hv, Policy.eq_appendColumn_of_insertColumn h⟩

/-- The separation of tenants adds predicates, and a column to an insertion. -/
theorem Tenant.adds (p : Tenant) (c : Context) :
    (p.policy : Policy (Except PolicyError)).Adds c := by
  refine .of_restricts (fun t _ => p.predicate c t)
    (fun t e q h => p.blockless_of_predicate h) (fun _ _ => rfl) (fun _ => rfl) (fun _ => rfl)
    (fun {i i'} h => ?_) (fun _ => rfl) fun _ => rfl
  rcases Tenant.exists_of_insert h with rfl | ⟨column, v, -, rfl⟩
  · exact .inr rfl
  · exact i.appendColumn_drop column (.ofValue v)

/-- A predicate says that columns of the table have their values. -/
theorem Condition.exists_of_predicate {p : Condition} {c : Context} {t : Target} {r : Option Expr}
    (h : p.predicate c t = (.ok r : Except PolicyError (Option Expr))) :
    ∃ qs, r = Expr.conjoinAll none qs ∧
      ∀ q ∈ qs, ∃ column v, q = (t.column column).hasValue v := by
  unfold Condition.predicate at h
  split at h
  · obtain ⟨known, -, h⟩ := bind_eq_ok_iff.mp h
    cases h
    refine ⟨_, rfl, ?_⟩
    rw [List.forall_mem_map]
    exact fun pair _ => ⟨_, pair.2, rfl⟩
  · cases h
    exact ⟨[], rfl, fun q hq => by cases hq⟩

theorem Condition.blockless_of_predicate (p : Condition) {c : Context} {t : Target}
    {r : Option Expr} (h : p.predicate c t = (.ok r : Except PolicyError (Option Expr))) :
    ∀ q ∈ r, q.Blockless := by
  obtain ⟨qs, rfl, hqs⟩ := exists_of_predicate h
  refine Expr.blockless_conjoinAll fun q hq => ?_
  obtain ⟨column, v, rfl⟩ := hqs q hq
  exact Expr.blockless_hasValue t column v

/-- Fixed conditions are added as predicates. -/
theorem Condition.adds (p : Condition) (c : Context) :
    (p.policy : Policy (Except PolicyError)).Adds c := by
  refine .of_restricts (fun t _ => p.predicate c t)
    (fun t e q h => p.blockless_of_predicate h) (fun _ _ => rfl) (fun _ => rfl) (fun _ => rfl)
    (fun h => ?_) (fun _ => rfl) fun _ => rfl
  cases h
  exact .inr rfl

/-- An audit column is added to an insertion. -/
theorem AuditColumn.adds (p : AuditColumn) (c : Context) :
    (p.policy : Policy (Except PolicyError)).Adds c where
  select {s b b'} h := by
    cases h
    exact exists_amended_self _
  insert {i i'} h := by
    change p.insert c i = _ at h
    unfold AuditColumn.insert at h
    split at h
    · cases h
      exact .inr rfl
    split at h
    · cases hsource : p.source <;> rw [hsource] at h
      all_goals
        obtain ⟨value, -, h⟩ := bind_eq_ok_iff.mp h
        exact Policy.insertColumn_drop h
    · cases h
      exact .inr rfl
  update {u u'} h := by
    cases h
    exact (exists_eq_amended (.update u)).imp fun _ => .inl
  delete {d d'} h := by
    cases h
    exact exists_eq_amended (.deletion d)
  query _ := rfl
  statement _ := rfl

/-- A predicate behind the condition of an update, as an answer for its table. -/
theorem Sql.RowBlock.amended_selection (u : Update) (t : Target) (p : Option Expr) :
    (RowBlock.update u).amended [(⟨t, []⟩, p)] =
      .update { u with selection := Expr.conjoinAll u.selection p.toList } := by
  have hhome : (Leaf.mk t []).home = .selection := rfl
  have hon : additions [(⟨t, []⟩, p)] = fun _ => [] := by
    funext j
    rw [additions, answersAt_singleton, hhome, if_neg (by simp)]
  have hselection : answersAt .selection [(⟨t, []⟩, p)] = p.toList := by
    rw [answersAt_singleton, hhome, if_pos rfl]
  cases u
  simp only [RowBlock.amended, hon, hselection, treesAmended_nil, amended_nil.1]

/-- An update stays as it is, or has its version raised, if it is not written, and checked. -/
theorem OptimisticLock.exists_of_update {p : OptimisticLock} {c : Context} {u u' : Update}
    (h : p.update c u = (.ok u' : Except PolicyError Update)) :
    u' = u ∨ ∃ t column, u' = { u with
      assignments :=
        if u.assignments.any (writes column) then u.assignments
        else u.assignments ++ [increment t column !u.table.joins.isEmpty]
      selection := Expr.conjoinAll u.selection
        ((c.value? p.contextKey).map (t.column column).hasValue).toList } := by
  unfold OptimisticLock.update at h
  split at h
  · obtain ⟨_, -, h⟩ := bind_eq_ok_iff.mp h
    cases h
    exact .inl rfl
  rename_i t _
  obtain ⟨known, -, h⟩ := bind_eq_ok_iff.mp h
  split at h
  · cases h
    exact .inl rfl
  rename_i column _
  cases h
  exact .inr ⟨t, column, rfl⟩

/-- An optimistic lock adds an assignment, if the version is not written, and a predicate. -/
theorem OptimisticLock.adds (p : OptimisticLock) (c : Context) :
    (p.policy : Policy (Except PolicyError)).Adds c where
  select {s b b'} h := by
    cases h
    exact exists_amended_self _
  insert h := by
    cases h
    exact .inr rfl
  update {u u'} h := by
    rcases OptimisticLock.exists_of_update h with rfl | ⟨t, column, rfl⟩
    · exact (exists_eq_amended (.update u')).imp fun _ => .inl
    refine ⟨[(⟨t, []⟩, (c.value? p.contextKey).map (t.column column).hasValue)], ?_⟩
    rw [RowBlock.amended_selection]
    split
    · exact .inl rfl
    · refine .inr ?_
      simp only [Update.dropAssignment, List.dropLast_concat]
  delete {d d'} h := by
    cases h
    exact exists_eq_amended (.deletion d)
  query _ := rfl
  statement _ := rfl

/-! ## Erasing what one policy has added -/

/-- Whether there are marks that lead a traversal to an answer, and are used up by it. -/
def LeadsTo {α : Type} (x : StateM (List BlockMark) α) (a : α) : Prop :=
  ∃ marks, ∀ rest, x.run (marks ++ rest) = (a, rest)

theorem LeadsTo.exists_marks {α : Type} {x : StateM (List BlockMark) α} {a : α}
    (h : LeadsTo x a) : ∃ marks, (x.run marks).1 = a := by
  obtain ⟨marks, hmarks⟩ := h
  have hrun := hmarks []
  rw [List.append_nil] at hrun
  exact ⟨marks, congrArg Prod.fst hrun⟩

section Erasing

variable {p : Policy (Except PolicyError)} {c : Context} (H : p.Adds c)
include H

/-- Erasing the blocks of what the policy has traversed leads back to where it has started. -/
theorem Policy.Adds.retraces : Retraces (p.select c) (fun _ b => (pure b : Id Select)) eraseBlock
    Eq (fun x y => LeadsTo y x.run) where
  declare _ hs := hs ▸ rfl
  pure a := ⟨[], fun rest => rfl⟩
  bind {α β x y k k'} := by
    rintro ⟨marks, hx⟩ hk
    obtain ⟨marks', hk⟩ := hk x.run
    refine ⟨marks ++ marks', fun rest => ?_⟩
    rw [List.append_assoc, StateT.run_bind, hx]
    exact hk rest
  call {s s₂ b b₁ b'} hs _ := by
    subst hs
    rintro ⟨marks, hmarks⟩ hb'
    have hself : (b.mapInner (fun _ b => (pure b : Id Select)) s).run = b := by
      rw [Select.mapInner_pure]
      rfl
    rw [hself] at hmarks
    rw [Select.mapBlocks_pure]
    obtain ⟨as, hblockless, has⟩ := H.select hb'
    obtain ⟨m, hm⟩ := (RowBlock.select s b).exists_erase_amended as
    -- Behind the marks of the blocks inside stands the mark of the block itself.
    refine ⟨marks ++ [m], fun rest => ?_⟩
    have hinner := RowBlock.mapInner_amended eraseBlock hblockless (.select s b₁)
    rw [← has] at hinner
    have hrun := congrArg (fun x => x.run (marks ++ m :: rest)) hinner
    simp only [RowBlock.mapInner, StateT.run_map, hmarks] at hrun
    cases hx : (b'.mapInner eraseBlock s).run (marks ++ m :: rest) with
    | mk x behind =>
      rw [hx] at hrun
      obtain ⟨hxb, hbehind⟩ := Prod.mk.inj hrun
      change RowBlock.select s x = (RowBlock.select s b).amended as at hxb
      change behind = m :: rest at hbehind
      rw [← hxb] at hm
      have herase : x.erase m = b := (RowBlock.select.inj hm).2
      rw [List.append_assoc, List.singleton_append, Select.mapBlocks_eq, StateT.run_bind, hx,
        hbehind]
      exact congrArg (·, rest) herase

/-- What the policy leaves of a statement is of its kind, and what has been added can be erased. -/
theorem Policy.Adds.exists_erase {s s' : Statement} (h : p.run c s = .ok s') :
    s'.kind = s.kind ∧ ∃ m, s'.erase m = s := by
  -- The outermost part has been changed last, and is erased first.
  cases s with
  | select q =>
    obtain ⟨q₁, q₂, hq₁, hq₂, hs'⟩ := p.run_select_eq_ok_iff.mp h
    rw [H.query] at hq₂
    rw [H.statement] at hs'
    cases hq₂
    cases hs'
    obtain ⟨blocks, hblocks⟩ := (q.retraced H.retraces rfl q₁ hq₁).exists_marks
    rw [Query.mapBlocks_pure] at hblocks
    exact ⟨rfl, { blocks }, congrArg Statement.select hblocks⟩
  | update u =>
    obtain ⟨u₁, u₂, hu₁, hu₂, hs'⟩ := p.run_update_eq_ok_iff.mp h
    rw [H.statement] at hs'
    cases hs'
    obtain ⟨blocks, hblocks⟩ := (u.retraced H.retraces rfl u₁ hu₁).exists_marks
    rw [Update.mapBlocks_pure] at hblocks
    obtain ⟨as, has⟩ := H.update hu₂
    obtain ⟨outermost, hm⟩ := (RowBlock.update u₁).exists_erase_amended as
    have houtermost : ∃ appended : Bool,
        (if appended then u₂.dropAssignment else u₂).erase outermost = u₁ := by
      rcases has with has | has <;> rw [← has] at hm
      · exact ⟨false, RowBlock.update.inj hm⟩
      · exact ⟨true, RowBlock.update.inj hm⟩
    obtain ⟨appended, hu⟩ := houtermost
    refine ⟨rfl, ⟨blocks, outermost, appended⟩, ?_⟩
    simp only [Statement.erase, hu]
    exact congrArg Statement.update hblocks
  | delete d =>
    obtain ⟨d₁, d₂, hd₁, hd₂, hs'⟩ := p.run_delete_eq_ok_iff.mp h
    rw [H.statement] at hs'
    cases hs'
    obtain ⟨blocks, hblocks⟩ := (d.retraced H.retraces rfl d₁ hd₁).exists_marks
    rw [Deletion.mapBlocks_pure] at hblocks
    obtain ⟨as, has⟩ := H.delete hd₂
    obtain ⟨outermost, hm⟩ := (RowBlock.deletion d₁).exists_erase_amended as
    rw [← has] at hm
    have hd : d₂.erase outermost = d₁ := RowBlock.deletion.inj hm
    refine ⟨rfl, { blocks, outermost }, ?_⟩
    simp only [Statement.erase, hd]
    exact congrArg Statement.delete hblocks
  | insert i =>
    obtain ⟨i₁, i₂, hi₁, hi₂, -, hs'⟩ := p.run_insert_eq_ok_iff.mp h
    rw [H.statement] at hs'
    cases hs'
    obtain ⟨blocks, hblocks⟩ := (i.retraced H.retraces rfl i₁ hi₁).exists_marks
    rw [Insertion.mapBlocks_pure] at hblocks
    have hcolumn : ∃ appended : Bool, (if appended then i₂.dropColumn else i₂) = i₁ := by
      rcases H.insert hi₂ with hi | hi
      · exact ⟨true, hi⟩
      · exact ⟨false, hi⟩
    obtain ⟨appended, hi⟩ := hcolumn
    refine ⟨rfl, { blocks, appended }, ?_⟩
    simp only [Statement.erase, hi]
    exact congrArg Statement.insert hblocks
  | other text =>
    rw [p.run_other_eq, H.statement] at h
    cases h
    exact ⟨rfl, {}, rfl⟩

end Erasing

/-! ## Erasing what several policies have added -/

/-- The policies that only add: all but pagination, and soft deletion. -/
inductive Additive : Policy (Except PolicyError) → Prop
  | logicDelete (p : LogicDelete) (hsoft : p.soft = false) : Additive p.policy
  | tenant (p : Tenant) : Additive p.policy
  | condition (p : Condition) : Additive p.policy
  | optimisticLock (p : OptimisticLock) : Additive p.policy
  | auditColumn (p : AuditColumn) : Additive p.policy

theorem Additive.adds {p : Policy (Except PolicyError)} (h : Additive p) (c : Context) :
    p.Adds c := by
  cases h with
  | logicDelete p hsoft => exact p.adds hsoft c
  | tenant p => exact p.adds c
  | condition p => exact p.adds c
  | optimisticLock p => exact p.adds c
  | auditColumn p => exact p.adds c

theorem Sql.Statement.eraseAll_append (ms ms' : List Marks) (s : Statement) :
    s.eraseAll (ms ++ ms') = (s.eraseAll ms').eraseAll ms :=
  List.foldr_append

/-- One policy: what it has added can be erased, and nothing is where it is not for the kind. -/
theorem Additive.exists_erase_apply {p : Policy (Except PolicyError)} (hp : Additive p)
    {c : Context} {s s' : Statement} (h : p.apply c s = .ok s') :
    s'.kind = s.kind ∧ ∃ ms, s'.eraseAll ms = s := by
  unfold Policy.apply at h
  split at h
  · obtain ⟨hkind, m, hm⟩ := (hp.adds c).exists_erase h
    exact ⟨hkind, [m], hm⟩
  · cases h
    exact ⟨rfl, [], rfl⟩

theorem Additive.exists_erase_foldlM {ps : List (Policy (Except PolicyError))}
    (hps : ∀ p ∈ ps, Additive p) {c : Context} {s s' : Statement}
    (h : ps.foldlM (fun s p => p.apply c s) s = .ok s') :
    s'.kind = s.kind ∧ ∃ ms, s'.eraseAll ms = s := by
  -- The marks of the first policy are the last to be erased.
  induction ps generalizing s with
  | nil =>
    cases h
    exact ⟨rfl, [], rfl⟩
  | cons p ps ih =>
    rw [List.foldlM_cons] at h
    obtain ⟨s₁, hs₁, h⟩ := bind_eq_ok_iff.mp h
    obtain ⟨hkind₁, ms₁, hms₁⟩ := (hps p List.mem_cons_self).exists_erase_apply hs₁
    obtain ⟨hkind, ms, hms⟩ := ih (fun q hq => hps q (List.mem_cons_of_mem _ hq)) h
    refine ⟨hkind.trans hkind₁, ms₁ ++ ms, ?_⟩
    rw [Statement.eraseAll_append, hms, hms₁]

/-- What an enforcer whose policies only add leaves of a statement is of its kind, and erasing what
has been added gives back the statement. -/
theorem Enforcer.exists_eraseAll {e : Enforcer (Except PolicyError)}
    (hadditive : ∀ p ∈ e.policies, Additive p) {c : Context} {s s' : Statement}
    (h : e.process c s = .ok s') : s'.kind = s.kind ∧ ∃ ms, s'.eraseAll ms = s :=
  Additive.exists_erase_foldlM hadditive h

/-! ## An update of orders -/

/-- `UPDATE orders o SET paid = 1 WHERE o.id = 1 OR o.id IN (SELECT * FROM orders)` -/
def Sql.Update.payOrders : Update :=
  { TableDeletion.orderOne.update "paid" (.integer 1) with
    selection := some (.binary (.hasValue (.ofColumn (some "o") "id") (.integer 1)) .or
      (Select.allOf "orders").isAmong) }

/-- `UPDATE orders o SET paid = 1, version = o.version + 1 WHERE (o.id = 1 OR o.id IN (SELECT * FROM
orders WHERE deleted = 0 AND tenant_id = 9)) AND o.deleted = 0 AND o.tenant_id = 9` -/
def Sql.Update.payOwnOrders : Update :=
  { TableDeletion.orderOne.update "paid" (.integer 1) with
    assignments := [.ofColumn "paid" (.ofValue (.integer 1)),
      OptimisticLock.increment ⟨"orders", some "o", "orders o"⟩ "version" false]
    selection := Expr.conjoinAll
      (some (.binary (.hasValue (.ofColumn (some "o") "id") (.integer 1)) .or
        { Select.allOf "orders" with
          selection := Expr.conjoinAll none [.hasValue (.ofColumn none "deleted") (.integer 0),
            .hasValue (.ofColumn none "tenant_id") (.integer 9)] }.isAmong))
      [.hasValue (.ofColumn (some "o") "deleted") (.integer 0),
        .hasValue (.ofColumn (some "o") "tenant_id") (.integer 9)] }

/-- Three policies have added to the update and to the block in it, and are erased again. -/
theorem Enforcer.exists_eraseAll_payOrders :
    let e : Enforcer (Except PolicyError) :=
      ⟨.generic, [LogicDelete.policy {}, Tenant.policy {}, OptimisticLock.policy {}], .allowAll⟩
    e.process .ofConfig (.update .payOrders) = .ok (.update .payOwnOrders) ∧
      (Statement.update .payOwnOrders).kind = .update ∧
      ∃ ms, (Statement.update .payOwnOrders).eraseAll ms = .update .payOrders := by
  intro e
  have hprocess : e.process .ofConfig (.update .payOrders) = .ok (.update .payOwnOrders) := by
    with_unfolding_all rfl
  have hadditive : ∀ p ∈ e.policies, Additive p := by
    intro p hp
    simp only [e, List.mem_cons, List.not_mem_nil, or_false] at hp
    rcases hp with rfl | rfl | rfl
    · exact .logicDelete _ rfl
    · exact .tenant _
    · exact .optimisticLock _
  exact ⟨hprocess, Enforcer.exists_eraseAll hadditive hprocess⟩

end RowPolicy
