import RowPolicy.Policy.AuditColumn
import RowPolicy.Policy.LogicDelete
import RowPolicy.Policy.OptimisticLock
import RowPolicy.Policy.Pagination
import RowPolicy.Policy.Tenant
import RowPolicy.Enforcer

/-!
# Configurations

A configuration names the dialect, the tables and the policies of an enforcer. A policy is there if
its section is, unless the section says that it is not enabled. Policies act in the order of the
fields.
-/

namespace RowPolicy

open Sql

/-- The section of a policy. -/
structure Section (α : Type) where
  enabled : Bool := true
  settings : α
  deriving DecidableEq

/-- The section of an audit column; its value has exactly one source. -/
structure AuditSection where
  enabled : Bool := true
  strict : Bool := false
  column : String
  contextKey : Option String := none
  expr : Option String := none
  tables : List String := []
  deriving DecidableEq

/-- The section of pagination; without a style the dialect decides. -/
structure PaginationSection where
  enabled : Bool := true
  strict : Bool := false
  style : Option PageStyle := none
  deriving DecidableEq

/-- A configuration. -/
structure Config where
  dialect : Dialect := .generic
  /-- identifiers of statements that are left alone -/
  ignoreStatements : List String := []
  tables : List TableMetadata := []
  logicDelete : Option (Section LogicDelete) := none
  tenant : Option (Section Tenant) := none
  optimisticLock : Option (Section OptimisticLock) := none
  auditColumns : List AuditSection := []
  pagination : Option PaginationSection := none
  deriving DecidableEq

/-- The settings of a section that is there and enabled. -/
def Section.active? {α : Type} (s : Option (Section α)) : Option α :=
  s.bind fun s => if s.enabled then some s.settings else none

namespace AuditSection

/-- The audit column that a section describes. -/
def auditColumn (s : AuditSection) (d : Dialect) : Except PolicyError AuditColumn := do
  let source ← match s.contextKey, s.expr with
    | some key, none => pure (AuditSource.context key)
    | none, some text =>
      match parseExpr d text with
      | .ok e => pure (.expression e)
      | .error fault =>
        throw (.configuration ("audit column `" ++ s.column ++ "`: " ++
          (PolicyError.malformed text fault.message).message))
    | _, _ =>
      throw (.configuration ("audit column `" ++ s.column ++
        "` needs exactly one of `context_key` and `expr`"))
  return ⟨s.column, source, s.tables, s.strict⟩

end AuditSection

namespace Config

variable {m : Type → Type} [Monad m] [MonadExceptOf PolicyError m]

/-- The enforcer that a configuration describes, and the tables it knows. -/
def build (c : Config) : Except PolicyError (Enforcer m × Registry) := do
  let audits ← (c.auditColumns.filter (·.enabled)).mapM (·.auditColumn c.dialect)
  let pages := (c.pagination.toList.filter (·.enabled)).map fun s =>
    Pagination.mk (s.style.getD (.ofDialect c.dialect)) s.strict
  let policies : List (Policy m) :=
    (Section.active? c.logicDelete).toList.map (·.policy) ++
    (Section.active? c.tenant).toList.map (·.policy) ++
    (Section.active? c.optimisticLock).toList.map (·.policy) ++
    audits.map (·.policy) ++ pages.map (·.policy)
  return (⟨c.dialect, policies, Guard.ignoring c.ignoreStatements⟩, .ofList c.tables)

end Config

end RowPolicy
