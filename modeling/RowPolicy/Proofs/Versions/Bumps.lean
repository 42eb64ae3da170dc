import RowPolicy.Enforcer
import RowPolicy.Policy.OptimisticLock
import RowPolicy.Proofs.Blocks.Identity
import RowPolicy.Proofs.References.Owners

/-!
# The assignment that raises a version

An update of a table with a version column keeps its assignments. The one that raises the version
comes behind them, unless one of them writes a column of that name, whichever table it belongs to.
So `OptimisticLock.apply_raises` says that the version is written once, by the caller or by the
lock, except where the caller writes columns of that name of other tables only: then the updated
rows keep their version.
-/

namespace RowPolicy.Sql

/-! ## Written columns -/

/-- The columns that an assignment writes. -/
def Assignment.columns (a : Assignment) : List Name :=
  match a.target with
  | .column n => [n]
  | .tuple ns => ns

/-- The columns that an update writes, in order. -/
def Update.columns (u : Update) : List Name :=
  u.assignments.flatMap Assignment.columns

/-- How often an update writes the column `v` of the updated table. -/
def Update.ownCount (u : Update) (v : String) : Nat :=
  u.columns.countP (u.table.relation.owns v)

/-- Whether an update writes columns called `v`, and all of them are of other tables. -/
def Update.WritesElsewhere (u : Update) (v : String) : Prop :=
  u.ownCount v = 0 ∧ ∃ n ∈ u.columns, n.endsIn v = true

instance (u : Update) (v : String) : Decidable (u.WritesElsewhere v) :=
  inferInstanceAs (Decidable (_ ∧ _))

/-- What qualifies the columns of the updated table, if anything does, is its name. -/
theorem Update.exposed_of_target? {u : Update} {t : Target} (h : u.target? = some t) :
    ∃ x, u.table.relation.exposed? = some x ∧ ∀ q, t.qualifier = some q → q = x.value := by
  unfold target? at h
  split at h
  · rename_i name _ _ _ naming _ hrelation
    obtain ⟨table, htable, ht⟩ := Option.bind_eq_some_iff.mp h
    obtain rfl := Option.some.inj ht
    obtain ⟨y, hy, rfl⟩ := Option.map_eq_some_iff.mp htable
    rw [hrelation]
    cases naming with
    | none =>
      refine ⟨y, by simp [Relation.exposed?, hy], fun q hq => ?_⟩
      simp only [qualifierOf] at hq
      split at hq
      · exact (Option.some.inj hq).symm
      · cases hq
    | some a =>
      exact ⟨a.name, by simp [Relation.exposed?], fun q hq => (Option.some.inj hq).symm⟩
  · cases h

end RowPolicy.Sql

namespace RowPolicy.OptimisticLock

open Sql

/-! ## The added assignment -/

theorem writes_eq_any (v : String) (a : Assignment) :
    writes v a = a.columns.any (·.endsIn v) := by
  unfold writes Assignment.columns
  cases a.target <;> simp

/-- The lock sees every column that an update writes, by its last name. -/
theorem any_writes_eq (u : Update) (v : String) :
    u.assignments.any (writes v) = u.columns.any (·.endsIn v) := by
  rw [Update.columns, List.any_flatMap]
  exact congrArg u.assignments.any (funext (writes_eq_any v))

/-- The raised column is one of the updated table. -/
theorem owns_increment {u : Update} {t : Target} (ht : u.target? = some t) (v : String)
    (qualified : Bool) :
    (increment t v qualified).columns.countP (u.table.relation.owns v) = 1 := by
  obtain ⟨x, hx, hq⟩ := u.exposed_of_target? ht
  simp only [increment, Assignment.columns, List.countP_singleton]
  refine if_pos ?_
  unfold Relation.owns
  rw [hx]
  cases hqualifier : t.qualifier with
  | none => cases qualified <;> simp [isReference, Ident.plain, Text.sameName_self]
  | some q =>
    obtain rfl := hq q hqualifier
    cases qualified <;> simp [isReference, Ident.plain, Text.sameName_self]

/-- What is added to the assignments of an update. -/
def added (t : Target) (v : String) (u : Update) : List Assignment :=
  if u.columns.any (·.endsIn v) then [] else [increment t v !u.table.joins.isEmpty]

/-- An update that raises and checks the version `v`. -/
def locked (p : OptimisticLock) (c : Context) (t : Target) (v : String) (u : Update) : Update :=
  { u with
    assignments := u.assignments ++ added t v u
    selection :=
      match c.value? p.contextKey with
      | some expected => some (.conjoin u.selection ((t.column v).hasValue expected))
      | none => u.selection }

/-- The lock adds nothing exactly where the version is written, or columns of its name elsewhere. -/
theorem added_eq (t : Target) (v : String) (u : Update) :
    added t v u =
      if u.ownCount v = 0 ∧ ¬u.WritesElsewhere v then [increment t v !u.table.joins.isEmpty]
      else [] := by
  have hany : (u.columns.any (·.endsIn v) = true) ↔
      ¬(u.ownCount v = 0 ∧ ¬u.WritesElsewhere v) := by
    rw [List.any_eq_true, Update.WritesElsewhere, not_and_or]
    constructor
    · intro hends
      by_cases hzero : u.ownCount v = 0
      · exact .inr (not_not.mpr ⟨hzero, hends⟩)
      · exact .inl hzero
    · rintro (hown | helsewhere)
      · obtain ⟨n, hn, howns⟩ := List.countP_pos_iff.mp (Nat.pos_of_ne_zero hown)
        exact ⟨n, hn, Relation.endsIn_of_owns howns⟩
      · exact (not_not.mp helsewhere).2
  unfold added
  by_cases h : u.columns.any (·.endsIn v) = true
  · rw [if_pos h, if_neg (hany.mp h)]
  · rw [if_neg h, if_pos (not_not.mp (mt hany.mpr h))]

theorem ownCount_locked (p : OptimisticLock) (c : Context) {u : Update} {t : Target}
    (ht : u.target? = some t) (v : String) :
    (p.locked c t v u).ownCount v =
      u.ownCount v + if u.ownCount v = 0 ∧ ¬u.WritesElsewhere v then 1 else 0 := by
  have hcolumns : (p.locked c t v u).columns =
      u.columns ++ (added t v u).flatMap Assignment.columns := by
    simp [Update.columns, locked]
  have htable : (p.locked c t v u).table = u.table := rfl
  rw [Update.ownCount, hcolumns, htable, List.countP_append, added_eq, Update.ownCount]
  split
  · simp [owns_increment ht v]
  · simp

/-! ## The policy -/

section Policy

variable {m : Type → Type} [Monad m] [LawfulMonad m] [MonadExceptOf PolicyError m]
  (p : OptimisticLock) (c : Context) {u : Update} {t : Target} {known : TableMetadata} {v : String}

theorem update_eq_locked (ht : u.target? = some t) (hknown : c.metadata t.table = some known)
    (hv : known.versionColumn = some v) : p.update c u = (pure (p.locked c t v u) : m Update) := by
  have hresolve : Policy.resolve c t p.requireMetadata = (pure (some known) : m _) := by
    unfold Policy.resolve
    rw [hknown]
  unfold update
  simp only [ht, hresolve, pure_bind, Option.bind_some, hv, any_writes_eq]
  congr 1
  unfold locked added
  cases c.value? p.contextKey <;> cases u.columns.any (·.endsIn v) <;> simp [Expr.conjoinAll]

theorem apply_eq_locked (ht : u.target? = some t) (hknown : c.metadata t.table = some known)
    (hv : known.versionColumn = some v) :
    p.policy.apply c (.update u) = (pure (.update (p.locked c t v u)) : m Statement) := by
  have happlies : (p.policy (m := m)).appliesTo (Statement.update u).kind = true := rfl
  have hblocks : u.mapBlocks ((p.policy (m := m)).select c) .empty = pure u :=
    u.mapBlocks_pure _
  have hupdate : (p.policy (m := m)).update c u = pure (p.locked c t v u) :=
    p.update_eq_locked c ht hknown hv
  rw [Policy.apply, if_pos happlies]
  simp only [Policy.run, hblocks, hupdate, pure_bind]
  rfl

/-- **The version is written once, unless the caller writes it for other tables only.** An update of
a table with the version `v` keeps its assignments, and the lock adds `v = v + 1` behind them if the
caller writes no column called `v`. If the caller writes the version at most once, then it is
written exactly once unless the caller writes columns called `v`, all of other tables. Whoever has
read a version has it checked in the `WHERE`. -/
theorem apply_raises (ht : u.target? = some t) (hknown : c.metadata t.table = some known)
    (hv : known.versionColumn = some v) :
    ∃ u', p.policy.apply c (.update u) = (pure (.update u') : m Statement) ∧
      u' = { u with
        assignments := u.assignments ++
          (if u.ownCount v = 0 ∧ ¬u.WritesElsewhere v then
            [increment t v !u.table.joins.isEmpty] else [])
        selection :=
          match c.value? p.contextKey with
          | some expected => some (.conjoin u.selection ((t.column v).hasValue expected))
          | none => u.selection } ∧
      (u.ownCount v ≤ 1 → (u'.ownCount v = 1 ↔ ¬u.WritesElsewhere v)) := by
  refine ⟨p.locked c t v u, p.apply_eq_locked c ht hknown hv, ?_, fun hone => ?_⟩
  · rw [locked, added_eq]
  · rw [p.ownCount_locked c ht]
    by_cases hadds : u.ownCount v = 0 ∧ ¬u.WritesElsewhere v
    · simp [hadds]
    · rw [if_neg hadds]
      have hown : u.WritesElsewhere v → u.ownCount v = 0 := And.left
      by_cases helsewhere : u.WritesElsewhere v
      · simp [hown helsewhere, helsewhere]
      · have hne : u.ownCount v ≠ 0 := fun hzero => hadds ⟨hzero, helsewhere⟩
        simp only [helsewhere, not_false_eq_true, iff_true]
        omega

end Policy

end RowPolicy.OptimisticLock

/-! ## Accounts and their ledger -/

namespace RowPolicy

open Sql

/-- `UPDATE account AS a JOIN ledger AS l ON l.account_id = a.id SET ..` -/
def Sql.Update.accountAndLedger (assignments : List Assignment) : Update where
  head := "UPDATE"
  table :=
    ⟨.table [.plain "account"] "" none "" (some ⟨true, .plain "a", ""⟩) [],
      [⟨false, false, .join,
        .table [.plain "ledger"] "" none "" (some ⟨true, .plain "l", ""⟩) [], none,
        some (.binary (.ofColumn (some "l") "account_id") .eq (.ofColumn (some "a") "id")), ""⟩]⟩
  sourcesFirst := false
  sources := []
  assignments := assignments
  selection := none
  returning := []
  limit := none

/-- Accounts have versions, and the caller has read version 4. -/
def Context.ofAccounts : Context where
  metadata name :=
    if name = "account" then some { table := "account", versionColumn := some "version" } else none
  values := [("version", .integer 4)]

/-- The version of an account is raised where only its balance is written. -/
theorem OptimisticLock.apply_raises_balance :
    let u : Update := .accountAndLedger
      [⟨.column [.plain "a", .plain "balance"], .ofColumn (some "l") "amount"⟩]
    ∃ u', (OptimisticLock.policy {}).apply .ofAccounts (.update u) =
        (.ok (.update u') : Except PolicyError Statement) ∧
      u'.ownCount "version" = 1 := by
  intro u
  have ht : u.target? = some ⟨"account", some "a", "account AS a"⟩ := by decide
  have hknown : Context.ofAccounts.metadata "account" =
      some { table := "account", versionColumn := some "version" } := rfl
  obtain ⟨u', happly, -, hcount⟩ :=
    OptimisticLock.apply_raises (m := Except PolicyError) {} .ofAccounts ht hknown rfl
  exact ⟨u', happly, (hcount (by decide)).mpr (by decide)⟩

/-- The version of an account is not raised where that of the ledger is written. -/
theorem OptimisticLock.not_raised_ledger :
    let u : Update := .accountAndLedger
      [⟨.column [.plain "l", .plain "version"], .literal (.number "5")⟩]
    ∃ t known u', u.target? = some t ∧ Context.ofAccounts.metadata t.table = some known ∧
      known.versionColumn = some "version" ∧ u.ownCount "version" ≤ 1 ∧
      (OptimisticLock.policy {}).apply .ofAccounts (.update u) =
        (.ok (.update u') : Except PolicyError Statement) ∧
      u'.ownCount "version" = 0 := by
  intro u
  have ht : u.target? = some ⟨"account", some "a", "account AS a"⟩ := by decide
  refine ⟨_, { table := "account", versionColumn := some "version" }, _, ht, by decide, rfl,
    by decide, apply_eq_locked {} .ofAccounts ht rfl rfl, ?_⟩
  rw [ownCount_locked _ _ ht]
  decide

end RowPolicy
