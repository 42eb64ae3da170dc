import RowPolicy.Proofs.Failures.Reaching
import RowPolicy.Proofs.Insertions.Widths

/-!
# Policies that are lenient

A policy that is not strict and needs no metadata passes over what it cannot act on. The separation
of tenants still fails where it reaches a table with a tenant column and the context has no tenant
(`Filter.exists_run_iff`), with an error that names the key of the tenant (`Filter.wants_of_run`).
Logic deletion and fixed conditions never fail.
-/

namespace RowPolicy

open Sql

namespace Sql

/-! ## Traversals that fail -/

theorem exists_forall₂_iff {α β : Type} {R : α → β → Prop} {xs : List α} :
    (∃ ys, List.Forall₂ R xs ys) ↔ ∀ x ∈ xs, ∃ y, R x y := by
  induction xs with
  | nil => simp
  | cons x xs ih =>
    rw [List.forall_mem_cons, ← ih]
    constructor
    · rintro ⟨_, h⟩
      obtain ⟨y, ys, hxy, hys, rfl⟩ := List.forall₂_cons_left_iff.mp h
      exact ⟨⟨y, hxy⟩, ys, hys⟩
    · rintro ⟨⟨y, hxy⟩, ys, hys⟩
      exact ⟨y :: ys, .cons hxy hys⟩

theorem exists_error_of_mapM {α β : Type} {ask : α → Except PolicyError β} {xs : List α}
    {e : PolicyError} (h : xs.mapM ask = .error e) : ∃ x ∈ xs, ask x = .error e := by
  induction xs with
  | nil => cases h
  | cons x xs ih =>
    have hrun : Running.plain.run ((x :: xs).mapM ask) () = (.error e, ()) := congrArg (·, ()) h
    rcases Running.plain.run_mapM_cons_error.mp hrun with hx | ⟨a, _, -, hxs⟩
    · exact ⟨x, List.mem_cons_self, congrArg Prod.fst hx⟩
    · obtain ⟨y, hy, hask⟩ := ih (congrArg Prod.fst hxs)
      exact ⟨y, List.mem_cons_of_mem _ hy, hask⟩

/-- The errors of a traversal are those of its calls. -/
theorem lockstep_errors {f : Scope → Select → Except PolicyError Select} {E : PolicyError → Prop}
    (hf : ∀ s b e, f s b = .error e → E e) :
    Lockstep f f fun P _ x _ => After P x ∧ ∀ e, x = .error e → E e where
  pure h := ⟨.pure h, fun e he => by cases he⟩
  bind {α β P Q es es' x y k k'} h hk := by
    refine ⟨h.1.bind fun a ha => (hk a ha).1, fun e he => ?_⟩
    cases hx : x with
    | error e' =>
      rw [hx] at he
      cases he
      exact h.2 e hx
    | ok a =>
      rw [hx] at he
      exact (hk a (h.1 a hx)).2 e he
  call {s b b'} _ := ⟨fun r _ => keeps_select s b r, hf s b'⟩

/-- A block that is restricted leniently fails at a question. -/
theorem RowBlock.exists_error_of_restrict
    {predicate : Target → Option Expr → Except PolicyError (Option Expr)} {b : RowBlock}
    {e : PolicyError} (h : b.restrict false predicate = .error e) :
    ∃ t x, predicate t x = .error e := by
  have hrun : Running.plain.run (b.restrict false predicate) () = (.error e, ()) :=
    congrArg (·, ()) h
  obtain ⟨k, hk | ⟨hstrict, -⟩⟩ := run_restrict_error Running.plain hrun
  · obtain ⟨l, -, hl⟩ := exists_error_of_mapM (congrArg Prod.fst hk)
    exact ⟨l.target, _, hl⟩
  · cases hstrict

namespace Restraint

variable (w : Restraint) (s : Statement)

/-- A traversal goes well if and only if there are answers for each block that is not aside. -/
theorem exists_mapBlocks_iff : (∃ s', s.mapBlocks w.block = .ok s') ↔
    ∀ o ∈ s.occurrences, o.place.aside = false →
      ∃ as, w.Admits (.select o.place.scope o.block) as := by
  have hverdict := s.lockstep (lockstep_verdict w.governed)
  have hevents : (∃ s', s.mapBlocks w.block = .ok s') ↔
      ∀ e ∈ eventsOf s.occurrences, ∃ as, Event.Admits w.verdicts as e := by
    rw [← exists_forall₂_iff]
    constructor
    · rintro ⟨s', hs'⟩
      exact hverdict.exists_marks s' hs'
    · rintro ⟨marks, hmarks⟩
      exact ⟨_, hverdict.eq_ok_iff.mpr ⟨marks, hmarks, rfl⟩⟩
  have hshell : ∀ o : Occurrence, (∃ as, Event.Admits w.verdicts as o.event) ↔
      ∃ as, w.Admits (.select o.place.scope o.block) as := by
    intro o
    have hsight := RowBlock.sight_shell (.select o.place.scope o.block)
    rw [RowBlock.shell_select] at hsight
    constructor
    · rintro ⟨as, has⟩
      obtain ⟨as', has', -⟩ := w.alike hsight has
      exact ⟨as', has'⟩
    · rintro ⟨as, has⟩
      obtain ⟨as', has', -⟩ := w.alike hsight.symm has
      exact ⟨as', has'⟩
  rw [hevents]
  simp only [eventsOf, List.forall_mem_map, List.mem_filter, Bool.not_eq_true', hshell, and_imp]

theorem exists_outer_iff :
    (∃ s', w.outer s = .ok s') ↔ ∀ b ∈ s.block?, ∃ as, w.Admits b as := by
  simp only [w.outer_eq_ok_iff]
  constructor
  · rintro ⟨_, as, has, -⟩ b hb
    exact ⟨as, has b hb⟩
  · intro h
    cases hs : s.block? with
    | none => exact ⟨_, [], by simp, rfl⟩
    | some b =>
      obtain ⟨as, has⟩ := h b hs
      exact ⟨_, as, by simpa using has, rfl⟩

theorem exists_run_iff : (∃ s', w.run s = .ok s') ↔
    (∀ o ∈ s.occurrences, o.place.aside = false →
      ∃ as, w.Admits (.select o.place.scope o.block) as) ∧ ∀ b ∈ s.block?, ∃ as, w.Admits b as := by
  rw [← exists_mapBlocks_iff]
  simp only [run, bind_eq_ok_iff]
  constructor
  · rintro ⟨s', s₁, hs₁, hs'⟩
    refine ⟨⟨s₁, hs₁⟩, fun b hb => ?_⟩
    obtain ⟨as, has, -⟩ := w.outer_eq_ok_iff.mp hs'
    obtain ⟨as', has', -⟩ := w.alike_outer (keeps_of_mapBlocks hs₁).symm has
    exact ⟨as', has' b hb⟩
  · rintro ⟨⟨s₁, hs₁⟩, hown⟩
    obtain ⟨s₂, hs₂⟩ := (w.exists_outer_iff s).mpr hown
    obtain ⟨as, has, -⟩ := w.outer_eq_ok_iff.mp hs₂
    obtain ⟨as', has', -⟩ := w.alike_outer (keeps_of_mapBlocks hs₁) has
    exact ⟨_, s₁, hs₁, w.outer_eq_ok_iff.mpr ⟨as', has', rfl⟩⟩

end Restraint

/-! ## Lenient restraints -/

section Lenient

variable {predicate : Target → Option Expr → Except PolicyError (Option Expr)}

/-- A block is answered for leniently if all of its tables are. -/
theorem RowBlock.exists_answered_iff {Good : String → Prop}
    (hgood : ∀ t e, (∃ r, predicate t e = .ok r) ↔ Good t.table) (b : RowBlock) :
    (∃ as, b.Answered false predicate as) ↔ ∀ table ∈ b.tables, Good table := by
  have hleaves : (∃ ps, List.Forall₂ (fun l p => b.asks predicate l = .ok p) b.leaves ps) ↔
      ∀ table ∈ b.tables, Good table := by
    rw [exists_forall₂_iff, tables, List.forall_mem_map]
    exact forall₂_congr fun l _ => hgood l.target _
  rw [← hleaves]
  constructor
  · rintro ⟨_, ps, hps, -⟩
    exact ⟨ps, hps⟩
  · rintro ⟨ps, hps⟩
    exact ⟨_, ps, hps, rfl, fun h => by cases h⟩

/-- Whether a restraint asks a predicate for tables, and passes over what has no place for one. -/
structure Restraint.Lenient (w : Restraint)
    (predicate : Target → Option Expr → Except PolicyError (Option Expr)) : Prop where
  admits : ∀ {b : RowBlock} {as : List Answer}, w.Admits b as ↔ b.Answered false predicate as
  error_of_block : ∀ {s : Scope} {b : Select} {e : PolicyError}, w.block s b = .error e →
    ∃ t x, predicate t x = .error e
  error_of_outer : ∀ {s : Statement} {e : PolicyError}, w.outer s = .error e →
    ∃ t x, predicate t x = .error e

theorem Restraint.lenient_ofPredicate {strict : Bool} (hstrict : strict = false)
    (hshallow : Shallow predicate)
    (hblockless : ∀ t e p, predicate t e = .ok p → ∀ q ∈ p, q.Blockless) :
    (ofPredicate strict predicate hshallow hblockless).Lenient predicate := by
  subst hstrict
  refine ⟨.rfl, fun {s b e} h => ?_, fun {s e} h => ?_⟩
  · exact RowBlock.exists_error_of_restrict (b := .select s b) (map_eq_error_iff.mpr h)
  · change s.restrict false predicate = _ at h
    unfold Statement.restrict at h
    split at h
    · cases h
    · exact RowBlock.exists_error_of_restrict (map_eq_error_iff.mp h)

namespace Restraint.Lenient

variable {w : Restraint} (hw : w.Lenient predicate)
include hw

/-- A run or a traversal fails at a question. -/
theorem error_of_mapBlocks {s : Statement} {e : PolicyError}
    (h : s.mapBlocks w.block = .error e) : ∃ t x, predicate t x = .error e :=
  (s.lockstep (lockstep_errors fun _ _ _ => hw.error_of_block)).2 e h

theorem error_of_run {s : Statement} {e : PolicyError} (h : w.run s = .error e) :
    ∃ t x, predicate t x = .error e := by
  rcases bind_eq_error_iff.mp h with h | ⟨s₁, -, h⟩
  · exact hw.error_of_mapBlocks h
  · exact hw.error_of_outer h

variable {Good : String → Prop} (hgood : ∀ t e, (∃ r, predicate t e = .ok r) ↔ Good t.table)
include hgood

/-- A traversal goes well if the tables of all blocks are answered for. -/
theorem exists_mapBlocks_iff (s : Statement) : (∃ s', s.mapBlocks w.block = .ok s') ↔
    ∀ o ∈ s.occurrences, o.place.aside = false →
      ∀ table ∈ (RowBlock.select o.place.scope o.block).tables, Good table := by
  rw [w.exists_mapBlocks_iff]
  simp only [hw.admits, RowBlock.exists_answered_iff hgood]

/-- A run goes well if all tables that are reached are answered for. -/
theorem exists_run_iff {s : Statement} (hs : s.insertTable? = none) :
    (∃ s', w.run s = .ok s') ↔ ∀ table, s.Reaches table → Good table := by
  rw [w.exists_run_iff]
  simp only [hw.admits, RowBlock.exists_answered_iff hgood, Statement.Reaches, hs, reduceCtorEq,
    or_false]
  constructor
  · rintro ⟨hinside, hown⟩ table (⟨o, ho, haside, htable⟩ | ⟨b, hb, htable⟩)
    · exact hinside o ho haside table htable
    · exact hown b hb table htable
  · exact fun h => ⟨fun o ho haside table htable => h table (.inl ⟨o, ho, haside, htable⟩),
      fun b hb table htable => h table (.inr ⟨b, hb, htable⟩)⟩

end Restraint.Lenient

end Lenient

/-! ## Insertions -/

/-- Another column and its values keep the rows in line with the columns. -/
theorem Insertion.fits_appendColumn {i : Insertion} (hi : i.Fits) (column : String)
    (value : Expr) : (i.appendColumn column value).2.Fits := by
  obtain ⟨head, table, naming, columns, partition, source, assignments, rowAlias, onConflict,
    returning⟩ := i
  unfold appendColumn
  split
  · exact hi
  split
  · exact hi
  split
  · exact hi
  rename_i hcolumns
  have hrows := hi (by simpa using hcolumns)
  cases source with
  | none => exact hi
  | some q =>
    obtain ⟨recursive, ctes, body, orderBy, limit, settings, fetch, tail, chain⟩ := q
    cases body with
    | values keyword explicitRow rows =>
      have hwider : ∀ row ∈ rows.map (· ++ [value]),
          row.length = (columns ++ [Ident.plain column]).length := by
        rw [List.forall_mem_map]
        intro row hrow
        rw [List.length_append, List.length_append]
        exact congrArg (· + 1) (hrows row hrow)
      exact fun _ => hwider
    | select b => exact fun _ row hrow => by cases hrow
    | _ => exact hi

end Sql

/-! ## Lenient policies -/

namespace Policy

variable {c : Context}

theorem insertColumn_of_lenient (i : Insertion) (column : String) (value : Expr) :
    insertColumn false i column value =
      (.ok (i.appendColumn column value).2 : Except PolicyError Insertion) := by
  unfold insertColumn
  cases houtcome : i.appendColumn column value with
  | mk outcome i' => cases outcome <;> rfl

theorem checkWidths_appendColumn (p : Policy (Except PolicyError)) (i : Insertion)
    (column : String) (value : Expr) :
    p.checkWidths i (i.appendColumn column value).2 = .ok (i.appendColumn column value).2 := by
  rw [checkWidths_eq_ok_iff, Insertion.misfits_eq_nil_iff, Insertion.misfits_eq_nil_iff]
  exact ⟨rfl, fun hi => Insertion.fits_appendColumn hi column value⟩

theorem resolve_of_lenient (t : Target) :
    resolve c t false = (.ok (c.metadata t.table) : Except PolicyError _) :=
  resolve_eq_ok_iff.mpr ⟨rfl, fun _ => rfl⟩

theorem exists_demand_iff (key fragment : String) :
    (∃ v, demand c key fragment = (.ok v : Except PolicyError Value)) ↔ (c.value? key).isSome := by
  simp only [demand_eq_ok_iff, Option.isSome_iff_exists]

theorem demand_eq_error_iff {key fragment : String} {e : PolicyError} :
    demand c key fragment = (.error e : Except PolicyError Value) ↔
      c.value? key = none ∧ e = .missingValue key fragment := by
  unfold demand
  cases c.value? key with
  | none => simp [throw, throwThe, MonadExceptOf.throw, eq_comm]
  | some v => simp [pure, Except.pure]

end Policy

/-! ### Tenants -/

namespace Tenant

variable (p : Tenant) (c : Context)

/-- The column that tells the tenants of a table apart. -/
def columnOf? (table : String) : Option String :=
  match c.metadata table with
  | none => p.defaultColumn
  | some known => if known.ignoreTenant then none else known.tenantColumn.or p.defaultColumn

/-- Whether a table has no tenant column, or the context has a tenant. -/
def Serves (table : String) : Prop :=
  (p.columnOf? c table).isSome → (c.value? p.contextKey).isSome

/-- What is done for a target: nothing where it has no tenant column, and else something with the
column and the tenant. -/
def forTenant {α : Type} (t : Target) (nothing : α) (something : String → Value → α) :
    Except PolicyError α :=
  match p.columnOf? c t.table with
  | none => .ok nothing
  | some column => something column <$> Policy.demand c p.contextKey t.fragment

variable {p c}

section ForTenant

variable {α : Type} {t : Target} {nothing : α} {something : String → Value → α}

theorem exists_forTenant_iff :
    (∃ r, p.forTenant c t nothing something = .ok r) ↔ p.Serves c t.table := by
  unfold forTenant Serves
  cases p.columnOf? c t.table with
  | none => simp
  | some column =>
    rw [← Policy.exists_demand_iff p.contextKey t.fragment]
    simp [map_eq_ok_iff]

theorem error_of_forTenant {e : PolicyError}
    (h : p.forTenant c t nothing something = .error e) :
    e = .missingValue p.contextKey t.fragment := by
  unfold forTenant at h
  split at h
  · cases h
  · exact (Policy.demand_eq_error_iff.mp (map_eq_error_iff.mp h)).2

end ForTenant

theorem column?_of_lenient (hp : p.requireMetadata = false) (t : Target) :
    p.column? c t = (.ok (p.columnOf? c t.table) : Except PolicyError (Option String)) := by
  rw [column?, hp, Policy.resolve_of_lenient, columnOf?]
  cases c.metadata t.table <;> rfl

theorem predicate_of_lenient (hp : p.requireMetadata = false) (t : Target) :
    p.predicate c t = p.forTenant c t none fun column v => some ((t.column column).hasValue v) := by
  rw [predicate, column?_of_lenient hp, forTenant]
  cases p.columnOf? c t.table <;> rfl

theorem insert_of_lenient (hp : p.requireMetadata = false) (hstrict : p.strict = false)
    (i : Insertion) : p.insert c i =
      match i.target? with
      | none => Except.ok i
      | some t => p.forTenant c t i fun column v => (i.appendColumn column (.ofValue v)).2 := by
  unfold insert
  cases i.target? with
  | none => rfl
  | some t =>
    simp only [column?_of_lenient hp, hstrict, Policy.insertColumn_of_lenient, forTenant]
    cases p.columnOf? c t.table <;> rfl

end Tenant

/-! ### Soft deletion -/

/-- A deletion that has no update for it stays. -/
theorem LogicDelete.exists_marking (p : LogicDelete) (hstrict : p.strict = false)
    (hp : p.requireMetadata = false) (c : Context) (d : Deletion) :
    ∃ u?, p.marking? c d = (.ok u? : Except PolicyError (Option Update)) := by
  unfold marking?
  rw [hstrict, hp]
  split
  · simp only [Policy.resolve_of_lenient, bind, Except.bind]
    split
    · exact ⟨none, rfl⟩
    · split
      · exact ⟨none, rfl⟩
      · exact ⟨_, rfl⟩
  · exact ⟨none, rfl⟩

/-! ## Filters -/

namespace Filter

/-- Whether a filter is not strict and needs no metadata. -/
def Lenient : Filter → Prop
  | logicDelete p => p.strict = false ∧ p.requireMetadata = false
  | tenant p => p.strict = false ∧ p.requireMetadata = false
  | condition p => p.strict = false

/-- The predicate for a table. -/
def predicate (c : Context) : Filter → Target → Option Expr → Except PolicyError (Option Expr)
  | logicDelete p => p.predicate c
  | tenant p => fun t _ => p.predicate c t
  | condition p => fun t _ => p.predicate c t

/-- The key of the value that a filter cannot do without. -/
def key? : Filter → Option String
  | tenant p => some p.contextKey
  | _ => none

/-- Whether an error is the want of that value. -/
def Wants (f : Filter) (e : PolicyError) : Prop :=
  ∃ key ∈ f.key?, ∃ fragment, e = .missingValue key fragment

/-- Whether a filter has what it needs for a table. -/
def Serves (f : Filter) (c : Context) (table : String) : Prop :=
  match f with
  | tenant p => p.Serves c table
  | _ => True

variable {f : Filter} (hf : f.Lenient) (c : Context)
include hf

theorem lenient_restraint : (f.restraint c).Lenient (f.predicate c) := by
  cases f with
  | logicDelete p =>
    exact Restraint.lenient_ofPredicate hf.1 (p.shallow c) fun _ _ _ => p.blockless_of_predicate
  | tenant p =>
    exact Restraint.lenient_ofPredicate hf.1 (p.shallow c) fun _ _ _ => p.blockless_of_predicate
  | condition p =>
    exact Restraint.lenient_ofPredicate hf (p.shallow c) fun _ _ _ => p.blockless_of_predicate

theorem exists_predicate_iff (t : Target) (x : Option Expr) :
    (∃ r, f.predicate c t x = .ok r) ↔ f.Serves c t.table := by
  cases f with
  | logicDelete p =>
    have hresolve : Policy.resolve c t p.requireMetadata =
        (.ok (c.metadata t.table) : Except PolicyError _) := by
      rw [hf.2, Policy.resolve_of_lenient]
    exact iff_of_true ⟨_, p.predicate_eq hresolve x⟩ trivial
  | tenant p =>
    change (∃ r, p.predicate c t = _) ↔ _
    rw [Tenant.predicate_of_lenient hf.2]
    exact Tenant.exists_forTenant_iff
  | condition p =>
    refine iff_of_true ?_ trivial
    change ∃ r, p.predicate c t = _
    unfold Condition.predicate
    split
    · rw [Policy.resolve_of_lenient]
      exact ⟨_, rfl⟩
    · exact ⟨_, rfl⟩

variable {c}

theorem wants_of_predicate {t : Target} {x : Option Expr} {e : PolicyError}
    (h : f.predicate c t x = .error e) : f.Wants e := by
  have hnone : ¬f.Serves c t.table := fun hserves => by
    obtain ⟨r, hr⟩ := (exists_predicate_iff hf c t x).mpr hserves
    rw [hr] at h
    cases h
  cases f with
  | tenant p =>
    change p.predicate c t = _ at h
    rw [Tenant.predicate_of_lenient hf.2] at h
    exact ⟨_, rfl, _, Tenant.error_of_forTenant h⟩
  | _ => exact absurd trivial hnone

/-- The hook for insertions goes well if the table of the insertion is served. -/
theorem exists_insert_iff (i : Insertion) : (∃ i', f.policy.insert c i = .ok i') ↔
    ∀ table, (Statement.insert i).insertTable? = some table → f.Serves c table := by
  cases f with
  | tenant p =>
    change (∃ i', p.insert c i = Except.ok i') ↔ _
    rw [Tenant.insert_of_lenient hf.2 hf.1, Statement.insertTable?]
    cases i.target? with
    | none => simp
    | some t => simpa [Serves] using Tenant.exists_forTenant_iff
  | _ => exact iff_of_true ⟨i, rfl⟩ fun _ _ => trivial

theorem wants_of_insert {i : Insertion} {e : PolicyError} (h : f.policy.insert c i = .error e) :
    f.Wants e := by
  cases f with
  | tenant p =>
    change p.insert c i = _ at h
    rw [Tenant.insert_of_lenient hf.2 hf.1] at h
    split at h
    · cases h
    · exact ⟨_, rfl, _, Tenant.error_of_forTenant h⟩
  | _ => cases h

omit hf in
/-- The widths of an insertion are as they should be behind the hook for insertions. -/
theorem run_insert_eq (i : Insertion) : f.policy.run c (.insert i) = (do
    let i₁ ← i.mapBlocks (f.restraint c).block .empty
    let i₂ ← f.policy.insert c i₁
    f.policy.statement c (.insert i₂)) := by
  simp only [Policy.run, (f.restrains c).select, pure_bind]
  refine bind_congr fun i₁ => bind_congr_of_ok fun i₂ hi₂ => ?_
  have hwidths : f.policy.checkWidths i₁ i₂ = pure i₂ := by
    rcases exists_appendColumn hi₂ with rfl | ⟨v, -, column, rfl⟩
    · exact f.policy.checkWidths_eq_ok_iff.mpr ⟨rfl, id⟩
    · exact f.policy.checkWidths_appendColumn i₁ column _
  rw [hwidths, pure_bind]

/-- The hook for whole statements always goes well. -/
theorem exists_statement (c : Context) (s : Statement) :
    ∃ s', f.policy.statement c s = .ok s' := by
  cases f with
  | logicDelete p =>
    cases s with
    | delete d =>
      obtain ⟨u?, hu⟩ := p.exists_marking hf.1 hf.2 c d
      change ∃ s', (if p.soft then _ else _ : Except PolicyError Statement) = .ok s'
      split
      · cases u? with
        | none => exact ⟨_, bind_eq_ok_iff.mpr ⟨none, hu, rfl⟩⟩
        | some u => exact ⟨_, bind_eq_ok_iff.mpr ⟨some u, hu, rfl⟩⟩
      · exact ⟨_, rfl⟩
    | _ => exact ⟨_, rfl⟩
  | _ => exact ⟨s, rfl⟩

theorem exists_run_insert_iff (i : Insertion) : (∃ s', f.policy.run c (.insert i) = .ok s') ↔
    ∀ table, (Statement.insert i).Reaches table → f.Serves c table := by
  have hblocks := (lenient_restraint hf c).exists_mapBlocks_iff (exists_predicate_iff hf c)
    (.insert i)
  have htarget : ∀ {i₁}, i.mapBlocks (f.restraint c).block .empty = .ok i₁ →
      (Statement.insert i₁).insertTable? = (Statement.insert i).insertTable? := by
    intro i₁ hi₁
    have hretains : (Statement.insert i).Retains True (.insert i₁) :=
      (f.plain c).retains_mapBlocks (map_eq_ok_iff.mpr ⟨i₁, hi₁, rfl⟩)
    exact hretains.inserted
  simp only [run_insert_eq, bind_eq_ok_iff]
  constructor
  · rintro ⟨_, i₁, hi₁, i₂, hi₂, -⟩ table (⟨o, ho, haside, htable⟩ | ⟨b, hb, -⟩ | htable)
    · exact hblocks.mp ⟨_, map_eq_ok_iff.mpr ⟨i₁, hi₁, rfl⟩⟩ o ho haside table htable
    · cases hb
    · exact (exists_insert_iff hf i₁).mp ⟨i₂, hi₂⟩ table ((htarget hi₁).trans htable)
  · intro h
    obtain ⟨_, hs₁⟩ := hblocks.mpr fun o ho haside table htable =>
      h table (.inl ⟨o, ho, haside, htable⟩)
    obtain ⟨i₁, hi₁, rfl⟩ := map_eq_ok_iff.mp hs₁
    obtain ⟨i₂, hi₂⟩ := (exists_insert_iff hf i₁).mpr fun table htable =>
      h table (.inr (.inr ((htarget hi₁).symm.trans htable)))
    obtain ⟨s', hs'⟩ := exists_statement hf c (.insert i₂)
    exact ⟨s', i₁, hi₁, i₂, hi₂, hs'⟩

/-- **A lenient filter goes well if and only if it has what it needs** for all tables that it
reaches. -/
theorem exists_run_iff (s : Statement) : (∃ s', f.policy.run c s = .ok s') ↔
    ∀ table, s.Reaches table → f.Serves c table := by
  by_cases hs : s.kind = .insert
  · cases s with
    | insert i => exact exists_run_insert_iff hf i
    | _ => cases hs
  · have hnone : s.insertTable? = none := by
      cases s with
      | insert i => exact absurd rfl hs
      | _ => rfl
    rw [← (lenient_restraint hf c).exists_run_iff (exists_predicate_iff hf c) hnone,
      (f.restrains c).run_eq hs]
    simp only [bind_eq_ok_iff]
    constructor
    · rintro ⟨s', s₁, hs₁, -⟩
      exact ⟨s₁, hs₁⟩
    · rintro ⟨s₁, hs₁⟩
      obtain ⟨s', hs'⟩ := exists_statement hf c s₁
      exact ⟨s', s₁, hs₁, hs'⟩

/-- A lenient filter fails only for want of a value. -/
theorem wants_of_run {s : Statement} {e : PolicyError} (h : f.policy.run c s = .error e) :
    f.Wants e := by
  have hlenient := lenient_restraint hf c
  have hstatement : ∀ s, f.policy.statement c s ≠ .error e := by
    intro s hs
    obtain ⟨s', hs'⟩ := exists_statement hf c s
    rw [hs'] at hs
    cases hs
  by_cases hs : s.kind = .insert
  · cases s with
    | insert i =>
      rw [run_insert_eq] at h
      rcases bind_eq_error_iff.mp h with h | ⟨i₁, -, h⟩
      · have hs : (Statement.insert i).mapBlocks (f.restraint c).block = .error e :=
          map_eq_error_iff.mpr h
        obtain ⟨t, x, ht⟩ := hlenient.error_of_mapBlocks hs
        exact wants_of_predicate hf ht
      rcases bind_eq_error_iff.mp h with h | ⟨i₂, -, h⟩
      · exact wants_of_insert hf h
      · exact absurd h (hstatement _)
    | _ => cases hs
  · rw [(f.restrains c).run_eq hs] at h
    rcases bind_eq_error_iff.mp h with h | ⟨s₁, -, h⟩
    · obtain ⟨t, x, ht⟩ := hlenient.error_of_run h
      exact wants_of_predicate hf ht
    · exact absurd h (hstatement s₁)

/-- A lenient filter that fails reaches a table that it does not have what it needs for. -/
theorem exists_reaches_of_apply {s : Statement} {e : PolicyError}
    (h : f.policy.apply c s = .error e) :
    f.Wants e ∧ ∃ table, s.Reaches table ∧ ¬f.Serves c table := by
  unfold Policy.apply at h
  split at h
  · refine ⟨wants_of_run hf h, ?_⟩
    by_contra hserved
    push Not at hserved
    obtain ⟨s', hs'⟩ := (exists_run_iff hf s).mpr hserved
    rw [hs'] at h
    cases h
  · cases h

end Filter

end RowPolicy
