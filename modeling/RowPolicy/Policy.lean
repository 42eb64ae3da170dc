import RowPolicy.Context
import RowPolicy.Sql.Columns
import RowPolicy.Sql.Restrict

/-!
# Policies

A policy changes statements through hooks, one for each kind of change of data, one for the select
blocks, one for the outermost query, and one for the whole statement. Each hook answers what it
leaves of what it is given, and a hook that is not given leaves everything as it is.

Hooks run in a monad that can fail with a `PolicyError`; a policy that needs nothing else runs in
each such monad.
-/

namespace RowPolicy

open Sql

/-- A policy. -/
structure Policy (m : Type → Type) [Monad m] where
  name : String
  /-- a strict policy fails on what it cannot act on, and any other leaves it as it is -/
  strict : Bool := false
  appliesTo : StatementKind → Bool := fun _ => true
  insert : Context → Insertion → m Insertion := fun _ => pure
  update : Context → Update → m Update := fun _ => pure
  delete : Context → Deletion → m Deletion := fun _ => pure
  /-- for each select block, after the blocks inside of it -/
  select : Context → Scope → Select → m Select := fun _ _ => pure
  /-- for the outermost query of a select statement, after its blocks -/
  query : Context → Query → m Query := fun _ => pure
  /-- for each statement at the end; the answer may be of another kind -/
  statement : Context → Statement → m Statement := fun _ => pure

namespace Policy

variable {m : Type → Type} [Monad m] [MonadExceptOf PolicyError m]

/-- The metadata of a target. A target without any is an error where metadata is required. -/
def resolve (c : Context) (t : Target) (required : Bool) : m (Option TableMetadata) :=
  match c.metadata t.table with
  | some known => pure (some known)
  | none => if required then throw (.unknownTable t.table t.fragment) else pure none

theorem resolve_eq_ok_iff {c : Context} {t : Target} {required : Bool}
    {known : Option TableMetadata} :
    resolve c t required = (.ok known : Except PolicyError (Option TableMetadata)) ↔
      c.metadata t.table = known ∧ (known = none → required = false) := by
  unfold resolve
  cases c.metadata t.table with
  | some x =>
    simp only [pure, Except.pure, Except.ok.injEq]
    exact ⟨fun h => ⟨h, fun hnone => by simp [← h] at hnone⟩, And.left⟩
  | none =>
    cases required <;> cases known <;> simp [throw, throwThe, MonadExceptOf.throw, pure, Except.pure]

/-- The value under a key, which the policy cannot do without. -/
def demand (c : Context) (key fragment : String) : m Value :=
  match c.value? key with
  | some v => pure v
  | none => throw (.missingValue key fragment)

theorem demand_eq_ok_iff {c : Context} {key fragment : String} {v : Value} :
    demand c key fragment = (.ok v : Except PolicyError Value) ↔ c.value? key = some v := by
  unfold demand
  cases c.value? key with
  | none => simp [throw, throwThe, MonadExceptOf.throw]
  | some w => simp [pure, Except.pure]

/-- An insertion with a column and its value. One that cannot have the column is left as it is, or
is an error where the policy is strict. -/
def insertColumn (strict : Bool) (i : Insertion) (column : String) (value : Expr) :
    m Insertion := do
  let (outcome, i) := i.appendColumn column value
  match outcome with
  | .appended | .alreadyPresent => return i
  | .noColumnList =>
    unsupported strict "INSERT without a column list" (Name.render i.table)
    return i
  | .unsupported construct =>
    unsupported strict construct (Name.render i.table)
    return i

end Policy

end RowPolicy
