import RowPolicy.Proofs.Failures.Pipelines
import RowPolicy.Proofs.Properties.Conditions
import RowPolicy.Proofs.Registries.Histories

/-!
# Which tables a configured name is for

Audit columns and fixed conditions are for the tables of a name, and so is an entry of a registry.
The first two compare the name as it is written, letter case aside, and the registry compares keys.
What is audited or tested is known then, but not the other way round: a configured name with a
schema or quotes is for no table that is named without them (`AuditColumn.covers_iff_resolves_iff`,
`AuditColumn.not_covers_publicOrders`).
-/

namespace RowPolicy

open Sql

/-! ## One rule at a time -/

/-- An audit column for one name is for the tables that are named alike, letter case aside. -/
theorem AuditColumn.covers_singleton {p : AuditColumn} {name : String} (hp : p.tables = [name])
    (table : String) : p.covers table = true ↔ Text.fold name = Text.fold table := by
  simp [covers, hp, Text.sameName_iff]

/-- An insertion into a table that an audit column is not for stays as it is; any other is given the
column with its value. -/
theorem AuditColumn.insert_of_target {p : AuditColumn} {c : Context} {i : Insertion} {t : Target}
    (ht : i.target? = some t) : p.insert c i =
      if p.covers t.table then
        p.value c t.fragment >>= Policy.insertColumn p.strict i p.column
      else (.ok i : Except PolicyError Insertion) := by
  rw [AuditColumn.insert_eq, ht]

/-- Fixed conditions answer for the tables that are named alike, letter case aside. -/
theorem Condition.exists_predicate_iff {p : Condition} (hp : p.conditions ≠ []) (c : Context)
    (t : Target) :
    (∃ q, p.predicate c t = (.ok (some q) : Except PolicyError (Option Expr))) ↔
      Text.fold p.table = Text.fold t.table := by
  rw [p.predicate_eq]
  by_cases ht : Text.sameName t.table p.table = true
  · obtain ⟨q, hq, -⟩ := p.exists_answer c ht hp
    exact iff_of_true ⟨q, congrArg Except.ok hq⟩ (Text.sameName_iff.mp ht).symm
  · rw [Condition.answer, if_neg ht]
    refine iff_of_false (by simp) fun h => ht (Text.sameName_iff.mpr h.symm)

/-- A registry with one entry knows the tables whose names have its key. -/
theorem Registry.resolve_ofList_singleton (known : TableMetadata) (table : String) :
    (Registry.ofList [known]).resolve table = some known ↔
      tableKey known.table = tableKey table := by
  have hentries : (Registry.ofList [known]).entries = [known] := rfl
  rw [Registry.resolve_eq_some_iff, hentries, List.mem_singleton]
  exact and_iff_right rfl

/-! ## The rules compared -/

/-- **The tables of a configured name.** An audit column and fixed conditions for a name are for the
tables that are named alike, letter case aside, and all of these are known to a registry with an
entry for the name. Of the tables with a bare name, all that are known are audited and tested if and
only if the configured name is bare itself; otherwise none of them is, and some are known. -/
theorem AuditColumn.covers_iff_resolves_iff (name : String) :
    (∀ column source strict, let p : AuditColumn := ⟨column, source, [name], strict⟩
      (∀ table, p.covers table = true ↔ Text.fold name = Text.fold table) ∧
        ∀ c (i : Insertion) t, i.target? = some t → p.insert c i =
          if p.covers t.table then
            p.value c t.fragment >>= Policy.insertColumn p.strict i p.column
          else (.ok i : Except PolicyError Insertion)) ∧
    (∀ x xs property strict, let p : Condition := ⟨name, x :: xs, property, strict⟩
      ∀ c t, (∃ q, p.predicate c t = (.ok (some q) : Except PolicyError (Option Expr))) ↔
        Text.fold name = Text.fold t.table) ∧
    (∀ known : TableMetadata, known.table = name → ∀ table,
      ((Registry.ofList [known]).resolve table = some known ↔ tableKey name = tableKey table) ∧
        (Text.fold name = Text.fold table →
          (Registry.ofList [known]).resolve table = some known)) ∧
    ((∀ table, Bare table →
        (Text.fold name = Text.fold table ↔ tableKey name = tableKey table)) ↔ Bare name) ∧
    (¬Bare name → (∀ table, Bare table → Text.fold name ≠ Text.fold table) ∧
      ∃ table, Bare table ∧ tableKey name = tableKey table) := by
  have hapart : ¬Bare name → ∀ table, Bare table → Text.fold name ≠ Text.fold table := by
    intro hname table htable heq
    refine hname ((tableKey_eq_fold_iff name).mp ?_)
    rw [tableKey_congr heq, htable.tableKey, heq]
  have hknown : ∃ table, Bare table ∧ tableKey name = tableKey table :=
    ⟨tableKey name, bare_tableKey name, (tableKey_tableKey name).symm⟩
  refine ⟨?_, ?_, ?_, ⟨fun h => ?_, fun h table htable => ?_⟩,
    fun hname => ⟨hapart hname, hknown⟩⟩
  · intro column source strict p
    exact ⟨AuditColumn.covers_singleton rfl, fun c i t => AuditColumn.insert_of_target⟩
  · intro x xs property strict p c t
    exact Condition.exists_predicate_iff (p := p) (List.cons_ne_nil x xs) c t
  · rintro known rfl table
    have hresolve := Registry.resolve_ofList_singleton known table
    exact ⟨hresolve, fun heq => hresolve.mpr (tableKey_congr heq)⟩
  · by_contra hname
    obtain ⟨table, htable, hkey⟩ := hknown
    exact hapart hname table htable ((h table htable).mpr hkey)
  · rw [h.tableKey, htable.tableKey]

/-! ## Orders of a schema -/

/-- A caller who knows the orders of a schema. -/
def Context.ofPublicOrders : Context :=
  (Context.ofRegistry (.ofList [{ table := "public.orders" }])).withValue "user" (.text "alice")

/-- Orders that are configured with their schema are known, but neither an audit column nor a fixed
condition for them is given to any statement. -/
theorem AuditColumn.not_covers_publicOrders :
    let audit : AuditColumn :=
      { column := "created_by", source := .context "user", tables := ["public.orders"] }
    let fixed : Condition := { table := "public.orders", conditions := [("state", .integer 1)] }
    let e : Enforcer (Except PolicyError) := ⟨.generic, [audit.policy, fixed.policy], .allowAll⟩
    Context.ofPublicOrders.metadata "orders" = some { table := "public.orders" } ∧
      audit.covers "orders" = false ∧
      fixed.predicate .ofPublicOrders ⟨"orders", none, "public.orders"⟩ =
        (.ok none : Except PolicyError (Option Expr)) ∧
      e.enforce "INSERT INTO public.orders (id) VALUES (1)" .ofPublicOrders =
        .ok "INSERT INTO public.orders (id) VALUES (1)" ∧
      e.enforce "SELECT * FROM public.orders" .ofPublicOrders =
        .ok "SELECT * FROM public.orders" := by
  intro audit fixed e
  have hfixed : fixed.answer .ofPublicOrders ⟨"orders", none, "public.orders"⟩ = none :=
    if_neg (by decide +kernel)
  exact ⟨by decide +kernel, by decide +kernel,
    by rw [Condition.predicate_eq, hfixed], eq_ok_of_toOption (by decide +kernel),
    eq_ok_of_toOption (by decide +kernel)⟩

end RowPolicy
