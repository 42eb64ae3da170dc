import RowPolicy.Policy.Tenant
import RowPolicy.Proofs.Blocks.Calls
import RowPolicy.Proofs.Joins.Runs
import RowPolicy.Proofs.Tables.Tenants

/-!
# Rows that fit their columns

An insertion fits if each of its rows of values has as many as there are columns named. Policies
with any hooks are run one after another, and of an insertion that fits they leave one that fits, or
fail: no traversal changes a width, and what the hook for insertions answers is looked at. The hook
for whole statements is run behind that look, so it alone can leave an insertion that does not fit
(`Enforcer.fits_or_exists_breaks`), and such a hook goes unnoticed (`Enforcer.not_fits_replaced`).
-/

namespace RowPolicy

open Sql

namespace Sql

/-! ## Widths -/

/-- The rows of values of an insertion; none where they come from elsewhere. -/
def Insertion.valueRows (i : Insertion) : List (List Expr) :=
  match i.source with
  | some { body := .values _ _ rows, .. } => rows
  | _ => []

/-- Whether each row of values has as many as there are columns named, if columns are named. -/
def Insertion.Fits (i : Insertion) : Prop :=
  i.columns ≠ [] → ∀ row ∈ i.valueRows, row.length = i.columns.length

/-- Whether a statement that is an insertion fits. -/
def Statement.Fits : Statement → Prop
  | .insert i => i.Fits
  | _ => True

theorem Insertion.misfits_eq_nil_iff {i : Insertion} : i.misfits = [] ↔ i.Fits := by
  unfold misfits Fits
  cases hcolumns : i.columns.isEmpty with
  | true => simp [List.isEmpty_iff.mp hcolumns]
  | false =>
    have hne : i.columns ≠ [] := fun h => by simp [h] at hcolumns
    have hrows : ∀ rows : List (List Expr),
        ((rows.zipIdx.filter fun x => x.1.length != i.columns.length).map
          fun x => (x.2, x.1.length)) = [] ↔ ∀ row ∈ rows, row.length = i.columns.length := by
      intro rows
      rw [List.map_eq_nil_iff, List.filter_eq_nil_iff]
      constructor
      · intro h row hrow
        obtain ⟨n, hn, rfl⟩ := List.getElem_of_mem hrow
        simpa using h (rows[n], n) (List.mem_zipIdx_iff_getElem?.mpr (by simp [hn]))
      · intro h x hx
        simpa using h x.1 (List.fst_mem_of_mem_zipIdx hx)
    simp only [hne, ne_eq, not_false_eq_true, true_imp_iff, Bool.false_eq_true, if_false,
      valueRows]
    cases hsource : i.source with
    | none => simp
    | some q =>
      obtain ⟨recursive, ctes, body, orderBy, limit, settings, fetch, tail, chain⟩ := q
      cases body with
      | values keyword explicitRow rows => exact hrows rows
      | _ => simp

/-! ## Traversals -/

theorem length_mapBlocksExprs (s : Scope) (es : List Expr) :
    (Id.run (mapBlocksExprs makeHole s es)).length = es.length := by
  induction es with
  | nil => rfl
  | cons e es ih => exact congrArg (· + 1) ih

theorem lengths_mapBlocksRows (s : Scope) (rows : List (List Expr)) :
    (Id.run (mapBlocksRows makeHole s rows)).map List.length = rows.map List.length := by
  induction rows with
  | nil => rfl
  | cons row rows ih => exact congrArg₂ List.cons (length_mapBlocksExprs s row) ih

/-- Holes for the blocks leave the widths as they are. -/
theorem Insertion.fits_mapBlocks_makeHole (s : Scope) (i : Insertion) :
    (Id.run (i.mapBlocks makeHole s)).Fits ↔ i.Fits := by
  have hlengths : (Id.run (i.mapBlocks makeHole s)).valueRows.map List.length =
      i.valueRows.map List.length := by
    obtain ⟨head, table, naming, columns, partition, _ | q, assignments, rowAlias, onConflict,
      returning⟩ := i
    · rfl
    obtain ⟨recursive, ctes, body, orderBy, limit, settings, fetch, tail, chain⟩ := q
    cases body with
    | values keyword explicitRow rows => exact lengths_mapBlocksRows _ rows
    | _ => rfl
  have hcolumns : (Id.run (i.mapBlocks makeHole s)).columns = i.columns := by
    cases i
    rfl
  have hfits : ∀ x : Insertion, x.Fits ↔
      (x.columns ≠ [] → ∀ n ∈ x.valueRows.map List.length, n = x.columns.length) := by
    intro x
    simp [Fits]
  rw [hfits, hfits, hlengths, hcolumns]

/-- What is the same but for blocks fits alike. -/
theorem Insertion.fits_of_keeps {s : Scope} {i i' : Insertion}
    (h : Keeps (Insertion.mapBlocks makeHole s) i i') (hi : i.Fits) : i'.Fits := by
  rw [← fits_mapBlocks_makeHole s, show i'.mapBlocks makeHole s = i.mapBlocks makeHole s from h,
    fits_mapBlocks_makeHole s]
  exact hi

end Sql

/-! ## One policy -/

section Hooks

variable {m : Type → Type} [Monad m] [MonadExceptOf PolicyError m]

/-- A statement behind all hooks of a policy but the one for whole statements. -/
def Policy.runHooks (p : Policy m) (c : Context) : Statement → m Statement
  | .insert i => do
    let i ← i.mapBlocks (p.select c) .empty
    return .insert (← p.checkWidths i (← p.insert c i))
  | .update u => do return .update (← p.update c (← u.mapBlocks (p.select c) .empty))
  | .delete d => do return .delete (← p.delete c (← d.mapBlocks (p.select c) .empty))
  | .select q => do return .select (← p.query c (← q.mapBlocks (p.select c) .empty))
  | .other text => return .other text

variable {σ : Type} (R : Running m σ)

/-- An insertion is let through if it fits, or if it did not fit before. -/
theorem Sql.Running.run_checkWidths_ok {p : Policy m} {before after i : Insertion} {st st' : σ} :
    R.run (p.checkWidths before after) st = (.ok i, st') ↔
      i = after ∧ st' = st ∧ (before.Fits → after.Fits) := by
  rw [← Insertion.misfits_eq_nil_iff, ← Insertion.misfits_eq_nil_iff]
  unfold Policy.checkWidths
  cases hbefore : before.misfits with
  | nil =>
    cases hafter : after.misfits with
    | nil => simp [R.run_pure, eq_comm (a := i), eq_comm (a := st')]
    | cons x xs => simp [R.run_throw]
  | cons x xs => simp [R.run_pure, eq_comm (a := i), eq_comm (a := st')]

variable [LawfulMonad m]

theorem Policy.run_eq_runHooks (p : Policy m) (c : Context) (s : Statement) :
    p.run c s = p.runHooks c s >>= p.statement c := by
  cases s <;> simp only [run, runHooks, bind_assoc, pure_bind]

namespace Sql.Running

/-- An answer has the property that is known of all answers. -/
theorem of_traced {α : Type} {P : α → Prop} {es : List Event} {x : m α}
    {y : StateT (List Event) m α} (h : Traced P es x y) {a : α} {st st' : σ}
    (hx : R.run x st = (.ok a, st')) : P a := by
  obtain ⟨w, rfl, -⟩ := h
  rw [map_eq_pure_bind] at hx
  obtain ⟨a', u, -, ha⟩ := R.run_bind_ok.mp hx
  rw [R.run_pure] at ha
  cases ha
  exact a'.2

/-- The traversal of an insertion keeps the widths of its rows. -/
theorem fits_mapBlocks (f : Scope → Select → m Select) {i i' : Insertion} {st st' : σ}
    (h : R.run (i.mapBlocks f .empty) st = (.ok i', st')) (hi : i.Fits) : i'.Fits := by
  have hp : Place.outermost.aside = false := rfl
  exact Insertion.fits_of_keeps (R.of_traced (i.lockstep (lockstep_logged f) hp) h) hi

end Sql.Running

/-- A hook for insertions that leaves one that does not fit, of one that did, is found out. -/
theorem Policy.run_insert_of_not_fits (p : Policy m) (c : Context) {i i₁ i₂ : Insertion}
    {st st₁ st₂ : σ} (hi : i.Fits)
    (h₁ : R.run (i.mapBlocks (p.select c) .empty) st = (.ok i₁, st₁))
    (h₂ : R.run (p.insert c i₁) st₁ = (.ok i₂, st₂)) (hfits : ¬i₂.Fits) :
    ∃ row width, (row, width) ∈ i₂.misfits ∧ R.run (p.run c (.insert i)) st =
      (.error (.invariant p.name ("VALUES row " ++ toString row ++ " has " ++ toString width ++
        " values for " ++ toString i₂.columns.length ++ " columns")), st₂) := by
  have hbefore : i₁.misfits = [] :=
    Insertion.misfits_eq_nil_iff.mpr (R.fits_mapBlocks (p.select c) h₁ hi)
  cases hafter : i₂.misfits with
  | nil => exact absurd (Insertion.misfits_eq_nil_iff.mp hafter) hfits
  | cons x xs =>
    refine ⟨x.1, x.2, List.mem_cons_self, ?_⟩
    rw [p.run_eq_runHooks]
    simp only [runHooks, checkWidths, R.run_bind, h₁, h₂, hbefore, hafter, R.run_throw]

/-- All hooks of a policy but the one for whole statements leave a statement that fits, or fail. -/
theorem Sql.Running.fits_runHooks (p : Policy m) (c : Context) {s s' : Statement} {st st' : σ}
    (h : R.run (p.runHooks c s) st = (.ok s', st')) (hs : s.Fits) : s'.Fits := by
  cases s with
  | insert i =>
    obtain ⟨i₁, st₁, hi₁, h₁⟩ := R.run_bind_ok.mp h
    obtain ⟨i₂, st₂, -, h₂⟩ := R.run_bind_ok.mp h₁
    obtain ⟨i₃, st₃, hi₃, h₃⟩ := R.run_bind_ok.mp h₂
    obtain ⟨rfl, -, hfits⟩ := R.run_checkWidths_ok.mp hi₃
    rw [R.run_pure] at h₃
    cases h₃
    exact hfits (R.fits_mapBlocks (p.select c) hi₁ hs)
  | update u =>
    obtain ⟨u₁, st₁, -, h₁⟩ := R.run_bind_ok.mp h
    obtain ⟨u₂, st₂, -, h₂⟩ := R.run_bind_ok.mp h₁
    rw [R.run_pure] at h₂
    cases h₂
    trivial
  | delete d =>
    obtain ⟨d₁, st₁, -, h₁⟩ := R.run_bind_ok.mp h
    obtain ⟨d₂, st₂, -, h₂⟩ := R.run_bind_ok.mp h₁
    rw [R.run_pure] at h₂
    cases h₂
    trivial
  | select q =>
    obtain ⟨q₁, st₁, -, h₁⟩ := R.run_bind_ok.mp h
    obtain ⟨q₂, st₂, -, h₂⟩ := R.run_bind_ok.mp h₁
    rw [R.run_pure] at h₂
    cases h₂
    trivial
  | other text =>
    rw [Policy.runHooks, R.run_pure] at h
    cases h
    trivial

/-- Whether a policy is applied to a statement and its other hooks leave one that fits, of which its
hook for whole statements leaves one that does not. -/
structure Policy.Breaks (p : Policy m) (c : Context) (s : Statement) (st : σ) (s' : Statement)
    (st' : σ) : Prop where
  applies : p.appliesTo s.kind = true
  broken : ¬s'.Fits
  steps : ∃ s₁ st₁, R.run (p.runHooks c s) st = (.ok s₁, st₁) ∧ s₁.Fits ∧
    R.run (p.statement c s₁) st₁ = (.ok s', st')

/-- One policy leaves a statement that fits, or its hook for whole statements breaks it. -/
theorem Policy.fits_or_breaks (p : Policy m) (c : Context) {s s' : Statement} {st st' : σ}
    (h : R.run (p.apply c s) st = (.ok s', st')) (hs : s.Fits) :
    s'.Fits ∨ p.Breaks R c s st s' st' := by
  unfold apply at h
  split at h
  · rename_i happlies
    rw [p.run_eq_runHooks] at h
    obtain ⟨s₁, st₁, hs₁, h⟩ := R.run_bind_ok.mp h
    by_cases hs' : s'.Fits
    · exact .inl hs'
    · exact .inr ⟨happlies, hs', s₁, st₁, hs₁, R.fits_runHooks p c hs₁ hs, h⟩
  · rw [R.run_pure] at h
    cases h
    exact .inl hs

/-! ## Several policies -/

/-- **Only a hook for whole statements can leave rows that do not fit their columns.** Of a
statement that fits, policies with any hooks leave one that fits, or they fail, or one of them is
handed a statement that fits and breaks it by that hook; what is left is what the policies behind it
make of the broken statement. -/
theorem Enforcer.fits_or_exists_breaks (e : Enforcer m) (c : Context) {s s' : Statement} {st st' : σ}
    (h : R.run (e.process c s) st = (.ok s', st')) (hs : s.Fits) :
    s'.Fits ∨ ∃ before p behind s₁ st₁ s₂ st₂, e.policies = before ++ p :: behind ∧
      R.run (before.foldlM (fun s q => q.apply c s) s) st = (.ok s₁, st₁) ∧ s₁.Fits ∧
      p.Breaks R c s₁ st₁ s₂ st₂ ∧
      R.run (behind.foldlM (fun s q => q.apply c s) s₂) st₂ = (.ok s', st') := by
  rw [process] at h
  -- The first policy that breaks the statement is looked for from the left.
  generalize e.policies = ps at h ⊢
  induction ps generalizing s st with
  | nil =>
    rw [List.foldlM_nil, R.run_pure] at h
    cases h
    exact .inl hs
  | cons p ps ih =>
    rw [List.foldlM_cons] at h
    obtain ⟨s₁, st₁, hs₁, hrest⟩ := R.run_bind_ok.mp h
    rcases p.fits_or_breaks R c hs₁ hs with hfits | hbreaks
    · refine (ih hfits hrest).imp_right ?_
      rintro ⟨before, q, behind, s₂, st₂, s₃, st₃, rfl, hbefore, hs₂, hq, hbehind⟩
      refine ⟨p :: before, q, behind, s₂, st₂, s₃, st₃, rfl, ?_, hs₂, hq, hbehind⟩
      rw [List.foldlM_cons]
      exact R.run_bind_ok.mpr ⟨s₁, st₁, hs₁, hbefore⟩
    · exact .inr ⟨[], p, ps, s, st, s₁, st₁, rfl, R.run_pure s st, hs, hbreaks, hrest⟩

end Hooks

/-! ## An order is inserted -/

/-- `INSERT INTO orders (..) VALUES (..)` with the number 1 in one row. -/
def Sql.Insertion.orderOne (columns : List String) (values : List Expr) : Insertion where
  head := "INSERT INTO"
  table := [.plain "orders"]
  naming := ""
  columns := columns.map .plain
  partition := []
  source := some (.ofBody (.values "VALUES" false [.literal (.number "1") :: values]))
  assignments := []
  rowAlias := ""
  onConflict := []
  returning := []

/-- The tenant column comes with a value for it, and nothing is broken. -/
theorem Enforcer.fits_orderOne :
    let e : Enforcer (Except PolicyError) := ⟨.generic, [Tenant.policy {}], .allowAll⟩
    let left := Insertion.orderOne ["id", "tenant_id"] [.ofValue (.integer 7)]
    e.process .ofOrders (.insert (.orderOne ["id"] [])) = .ok (.insert left) ∧ left.Fits := by
  intro e left
  have hprocess : e.process .ofOrders (.insert (.orderOne ["id"] [])) = .ok (.insert left) := by
    with_unfolding_all rfl
  have hfits : (Statement.insert (.orderOne ["id"] [])).Fits := by
    intro _ row hrow
    obtain rfl : row = [.literal (.number "1")] := List.mem_singleton.mp hrow
    rfl
  have hrun : Running.plain.run (e.process .ofOrders (.insert (.orderOne ["id"] []))) () =
      (.ok (.insert left), ()) := congrArg (·, ()) hprocess
  refine ⟨hprocess, (e.fits_or_exists_breaks .plain .ofOrders hrun hfits).resolve_right ?_⟩
  rintro ⟨before, p, behind, s₁, _, s₂, _, hpolicies, -, -, hbreaks, -⟩
  -- The only policy has no hook for whole statements.
  obtain rfl : p = Tenant.policy {} := by
    have hp : p ∈ e.policies := hpolicies ▸ List.mem_append_right before List.mem_cons_self
    exact List.mem_singleton.mp hp
  obtain ⟨s, _, -, hs, hstatement⟩ := hbreaks.steps
  cases hstatement
  exact hbreaks.broken hs

/-- A policy that puts one insertion in the place of every statement. -/
def Policy.replacing (i : Insertion) : Policy (Except PolicyError) where
  name := "replace"
  statement _ _ := .ok (.insert i)

/-- One value for two columns gets through where it comes from the hook for whole statements. -/
theorem Enforcer.not_fits_replaced :
    let e : Enforcer (Except PolicyError) :=
      ⟨.generic, [Policy.replacing (.orderOne ["id", "name"] [])], .allowAll⟩
    (Insertion.orderOne ["id"] []).Fits ∧
      e.process .empty (.insert (.orderOne ["id"] [])) =
        .ok (.insert (.orderOne ["id", "name"] [])) ∧
      ¬(Insertion.orderOne ["id", "name"] []).Fits := by
  refine ⟨?_, rfl, fun h => ?_⟩
  · intro _ row hrow
    obtain rfl : row = [.literal (.number "1")] := List.mem_singleton.mp hrow
    rfl
  · exact absurd (h (by simp [Insertion.orderOne]) _ List.mem_cons_self) (by decide)

end RowPolicy
