import RowPolicy.Config
import RowPolicy.Sql.Blocks

/-!
# Soft deletion

A soft deletion is the update that marks the rows, written by hand: an enforcer that is built with
soft deletion leaves of either the same, or fails alike (`Config.process_deletion`). The policy
handles the two by different hooks, and turns the deletion into the update behind its own hook. The
two agree hook by hook, so every policy after it is given the same update.
-/

namespace RowPolicy

open Sql

/-! ## Deletions from one table -/

/-- The parts of a deletion of rows of one base table, with nothing joined, used or put in order. -/
structure TableDeletion where
  name : Name
  partition : String
  ordinality : String
  naming : Option Alias
  after : List Piece
  fromKeyword : Bool
  selection : Option Expr
  returning : List Piece
  limit : Option Expr

namespace TableDeletion

/-- The table as it is written. -/
def relation (d : TableDeletion) : Relation :=
  .table d.name d.partition none d.ordinality d.naming d.after

/-- The deletion itself. -/
def deletion (d : TableDeletion) : Deletion where
  tables := []
  fromKeyword := d.fromKeyword
  sources := [⟨d.relation, []⟩]
  usingSources := none
  selection := d.selection
  returning := d.returning
  orderBy := []
  limit := d.limit

/-- The update of the same rows that sets a column to a value. -/
def update (d : TableDeletion) (column : String) (value : Value) : Update where
  head := "UPDATE"
  table := ⟨d.relation, []⟩
  sourcesFirst := false
  sources := []
  assignments := [.ofColumn column (.ofValue value)]
  selection := d.selection
  returning := d.returning
  limit := d.limit

theorem deletion_injective : Function.Injective deletion := by
  rintro ⟨⟩ ⟨⟩ h
  simp only [deletion, relation, Deletion.mk.injEq, List.cons.injEq, JoinTree.mk.injEq,
    Relation.table.injEq] at h
  grind

/-- The table as policies see it. -/
theorem deletion_target? (d : TableDeletion) :
    d.deletion.target? = (Name.last? d.name).map fun table =>
      ⟨table, d.naming.map (·.name.value), d.relation.render⟩ := by
  rw [Deletion.target?]
  simp only [deletion, relation]
  cases Name.last? d.name <;> rfl

/-- A deletion with a target is one from one table, unless rows are put in order. -/
theorem exists_of_target? {d : Deletion} {t : Target} (ht : d.target? = some t)
    (horder : d.orderBy = []) : ∃ x : TableDeletion, d = x.deletion := by
  unfold Deletion.target? at ht
  split at ht
  · rename_i name partition ordinality naming after htables hsources husing
    obtain ⟨tables, fromKeyword, sources, usingSources, selection, returning, orderBy, limit⟩ := d
    cases htables
    cases hsources
    cases husing
    cases horder
    exact ⟨⟨name, partition, ordinality, naming, after, fromKeyword, selection, returning, limit⟩,
      rfl⟩
  · cases ht

section Hooks

variable {m : Type → Type} [Monad m] [LawfulMonad m]

/-- The blocks of a deletion from one table. -/
def mapBlocks (f : Scope → Select → m Select) (s : Scope) (d : TableDeletion) :
    m TableDeletion := do
  let after ← mapBlocksPieces f s d.after
  let selection ← mapBlocksOption f s d.selection
  let returning ← mapBlocksPieces f s d.returning
  let limit ← mapBlocksOption f s d.limit
  return { d with after, selection, returning, limit }

theorem deletion_mapBlocks (f : Scope → Select → m Select) (s : Scope) (d : TableDeletion) :
    d.deletion.mapBlocks f s = deletion <$> d.mapBlocks f s := by
  simp only [deletion, relation, mapBlocks, Deletion.mapBlocks, mapBlocksTrees, JoinTree.mapBlocks,
    Relation.mapBlocks, mapBlocksArguments, mapBlocksJoins, mapBlocksUsing, mapBlocksPieces,
    bind_assoc, pure_bind, map_bind, map_pure]

theorem update_mapBlocks (f : Scope → Select → m Select) (s : Scope) (column : String)
    (value : Value) (d : TableDeletion) :
    (d.update column value).mapBlocks f s = (update · column value) <$> d.mapBlocks f s := by
  simp only [update, relation, mapBlocks, Update.mapBlocks, mapBlocksTrees, JoinTree.mapBlocks,
    Relation.mapBlocks, mapBlocksArguments, mapBlocksJoins, mapBlocksAssignments,
    Assignment.ofColumn, Expr.ofValue, Expr.mapBlocks, bind_assoc, pure_bind, map_bind, map_pure]

variable [MonadExceptOf PolicyError m]

/-- A deletion from one table with the table restricted. -/
def restrict (strict : Bool) (predicate : Target → Option Expr → m (Option Expr))
    (d : TableDeletion) : m TableDeletion := do
  let w : Restriction m := ⟨.empty, strict, false, predicate⟩
  let ps ← w.ofTable d.selection d.name d.naming d.relation.render
  return { d with selection := Expr.conjoinAll d.selection ps }

theorem deletion_restrict (strict : Bool) (predicate : Target → Option Expr → m (Option Expr))
    (d : TableDeletion) :
    d.deletion.restrict strict predicate = deletion <$> d.restrict strict predicate := by
  simp [deletion, relation, restrict, Deletion.restrict, restrictTrees, JoinTree.restrict,
    Relation.restrict, restrictJoins, treesSize, JoinTree.size, Relation.size, joinsSize]

theorem update_restrict (strict : Bool) (predicate : Target → Option Expr → m (Option Expr))
    (column : String) (value : Value) (d : TableDeletion) :
    (d.update column value).restrict strict predicate =
      (update · column value) <$> d.restrict strict predicate := by
  simp [update, relation, restrict, Update.restrict, restrictTrees, JoinTree.restrict,
    Relation.restrict, restrictJoins, treesSize, JoinTree.size, Relation.size, joinsSize]

end Hooks

end TableDeletion

/-! ## The policy -/

namespace LogicDelete

variable {m : Type → Type} [Monad m] [LawfulMonad m] [MonadExceptOf PolicyError m]

/-- A deletion from a table with a marking column is marked without fail. -/
theorem marking?_deletion (p : LogicDelete) {c : Context} {d : TableDeletion} {table : String}
    {known : TableMetadata} {mark : LogicDeleteColumn} (hname : Name.last? d.name = some table)
    (hknown : c.metadata table = some known) (hmark : known.logicDelete = some mark) :
    (p.marking? c d.deletion : m (Option Update)) =
      pure (some (d.update mark.column mark.deletedValue)) := by
  have ht : d.deletion.target? = some ⟨table, d.naming.map (·.name.value), d.relation.render⟩ := by
    rw [d.deletion_target?, hname]
    rfl
  have hresolve : (Policy.resolve c ⟨table, d.naming.map (·.name.value), d.relation.render⟩
      p.requireMetadata : m (Option TableMetadata)) = pure (some known) := by
    simp only [Policy.resolve, hknown]
  rw [marking?, ht]
  simp only [TableDeletion.deletion, hresolve, pure_bind, Option.bind_some, hmark,
    List.isEmpty_nil, Bool.not_true, Bool.false_eq_true, if_false]
  rfl

/-- The hooks leave of the deletion, in the end, what they leave of the update. -/
theorem apply_deletion (p : LogicDelete) (hsoft : p.soft = true) {c : Context}
    {d : TableDeletion} {table : String} {known : TableMetadata} {mark : LogicDeleteColumn}
    (hname : Name.last? d.name = some table) (hknown : c.metadata table = some known)
    (hmark : known.logicDelete = some mark) :
    (p.policy : Policy m).apply c (.delete d.deletion) =
      p.policy.apply c (.update (d.update mark.column mark.deletedValue)) := by
  -- What is left of the table's deletion by the first two hooks, still names the table.
  have hdelete : ∀ x : TableDeletion, x.name = d.name →
      ((p.policy : Policy m).statement c (.delete x.deletion) =
        pure (.update (x.update mark.column mark.deletedValue))) := by
    intro x hx
    have hmarking := p.marking?_deletion (m := m) (d := x) (hx ▸ hname) hknown hmark
    simp only [policy, hsoft, if_true, hmarking, pure_bind]
  have happlies : ∀ s : Statement, s.kind = .delete ∨ s.kind = .update →
      ((p.policy : Policy m).apply c s = p.policy.run c s) := by
    intro s hs
    rw [Policy.apply, if_pos]
    rcases hs with hs | hs <;> simp [policy, hs]
  rw [happlies _ (.inl rfl), happlies _ (.inr rfl), Policy.run, Policy.run,
    TableDeletion.deletion_mapBlocks, TableDeletion.update_mapBlocks]
  simp only [map_eq_pure_bind, bind_assoc, pure_bind, TableDeletion.mapBlocks]
  refine bind_congr fun after => bind_congr fun selection => bind_congr fun returning =>
    bind_congr fun limit => ?_
  simp only [policy, TableDeletion.deletion_restrict, TableDeletion.update_restrict,
    map_eq_pure_bind, bind_assoc, pure_bind, TableDeletion.restrict]
  exact bind_congr fun ps => hdelete _ rfl

end LogicDelete

/-! ## The enforcer -/

/-- Logic deletion acts before all other policies. -/
theorem Config.policies_of_active {m : Type → Type} [Monad m] [MonadExceptOf PolicyError m]
    {config : Config} {settings : LogicDelete} {e : Enforcer m} {r : Registry}
    (hactive : Section.active? config.logicDelete = some settings)
    (hbuild : config.build = .ok (e, r)) : ∃ later, e.policies = settings.policy :: later := by
  unfold Config.build at hbuild
  cases haudits : (config.auditColumns.filter (·.enabled)).mapM
      (·.auditColumn config.dialect) with
  | error fault =>
    rw [haudits] at hbuild
    cases hbuild
  | ok audits =>
    rw [haudits] at hbuild
    cases hbuild
    simp only [hactive, Option.toList_some, List.map_cons, List.map_nil, List.cons_append,
      List.nil_append, List.append_assoc]
    exact ⟨_, rfl⟩

/-- A deletion from a table with a marking column and the update that marks the same rows, with the
same `WHERE`, `RETURNING` and `LIMIT`, come out the same. -/
theorem Config.process_deletion {m : Type → Type} [Monad m] [LawfulMonad m]
    [MonadExceptOf PolicyError m] {config : Config} {settings : LogicDelete} {e : Enforcer m}
    {r : Registry} (hactive : Section.active? config.logicDelete = some settings)
    (hsoft : settings.soft = true) (hbuild : config.build = .ok (e, r)) {c : Context}
    {d : TableDeletion} {table : String} {known : TableMetadata} {mark : LogicDeleteColumn}
    (hname : Name.last? d.name = some table) (hknown : c.metadata table = some known)
    (hmark : known.logicDelete = some mark) :
    e.process c (.delete d.deletion) =
      e.process c (.update (d.update mark.column mark.deletedValue)) := by
  obtain ⟨later, hpolicies⟩ := Config.policies_of_active hactive hbuild
  simp only [Enforcer.process, hpolicies, List.foldlM_cons]
  rw [settings.apply_deletion hsoft hname hknown hmark]

/-- Orders are marked as deleted, belong to tenants and have versions. -/
def Config.ofOrders : Config where
  tables := [{
    table := "orders"
    logicDelete := some { column := "deleted" }
    tenantColumn := some "tenant_id"
    versionColumn := some "version" }]
  logicDelete := some { settings := { soft := true } }
  tenant := some { settings := {} }
  optimisticLock := some { settings := {} }

/-- `DELETE FROM orders o WHERE o.id = 1` -/
def TableDeletion.orderOne : TableDeletion where
  name := [.plain "orders"]
  partition := ""
  ordinality := ""
  naming := some ⟨false, .plain "o", ""⟩
  after := []
  fromKeyword := true
  selection := some (.hasValue (.ofColumn (some "o") "id") (.integer 1))
  returning := []
  limit := none

/-- What the configuration of the orders describes. -/
def Enforcer.ofOrders : Enforcer (Except PolicyError) where
  policies := [LogicDelete.policy { soft := true }, Tenant.policy {}, OptimisticLock.policy {}]
  guard := .ignoring []

/-- Tenant 9, who knows the tables of the configuration. -/
def Context.ofConfig : Context :=
  (Context.ofRegistry (.ofList Config.ofOrders.tables)).withValue "tenant_id" (.integer 9)

/-- The tenant and the version are asked for in the update that the deletion has become. -/
theorem Config.process_deletion_orderOne :
    Config.ofOrders.build = .ok (Enforcer.ofOrders, .ofList Config.ofOrders.tables) ∧
      Enforcer.ofOrders.process .ofConfig (.delete TableDeletion.orderOne.deletion) =
        Enforcer.ofOrders.process .ofConfig
          (.update (TableDeletion.orderOne.update "deleted" (.integer 1))) ∧
      (Enforcer.ofOrders.process .ofConfig
          (.delete TableDeletion.orderOne.deletion)).toOption.map Statement.render =
        some ("UPDATE orders o SET deleted = 1, version = o.version + 1 WHERE o.id = 1 AND " ++
          "o.deleted = 0 AND o.tenant_id = 9") := by
  have hbuild : Config.ofOrders.build =
      .ok (Enforcer.ofOrders, .ofList Config.ofOrders.tables) := rfl
  have hknown : Context.ofConfig.metadata "orders" = Config.ofOrders.tables.head? := by
    decide +kernel
  have hprocess := Config.process_deletion (d := .orderOne) rfl rfl hbuild rfl hknown rfl
  refine ⟨hbuild, hprocess, ?_⟩
  decide +kernel

end RowPolicy
