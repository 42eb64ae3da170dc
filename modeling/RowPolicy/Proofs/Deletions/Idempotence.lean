import RowPolicy.Proofs.Blocks.Amended
import RowPolicy.Proofs.Blocks.Hooks
import RowPolicy.Proofs.Blocks.Retrace
import RowPolicy.Proofs.Deletions.SoftDeletion
import RowPolicy.Proofs.Joins.Settled

/-!
# Logic deletion twice

A statement that logic deletion has changed is left as it is by a second run:
`LogicDelete.process_process`. The predicates that the first run has put in place mention the
columns that the second run looks for, in every block and at every depth. A deletion that has become
an update goes through another hook the second time, which has the same conditions to look at.
-/

namespace RowPolicy

namespace Sql

/-! ## Mentions in conjunctions -/

section Mentions

variable (column : String) (qualifier : Option String)

theorem Expr.mentions_parenthesized (e : Expr) :
    e.parenthesized.mentions column qualifier = e.mentions column qualifier := by
  cases e with
  | binary l op r => cases op <;> simp [parenthesized, mentions]
  | _ => rfl

/-- A conjunction mentions what the conditions mention that are joined. -/
theorem Expr.any_mentions_conjoinAll (e : Option Expr) (ps : List Expr) :
    (Expr.conjoinAll e ps).any (·.mentions column qualifier) =
      (e.any (·.mentions column qualifier) || ps.any (·.mentions column qualifier)) := by
  induction ps generalizing e with
  | nil => simp [conjoinAll]
  | cons p ps ih =>
    have hconjoin : (Expr.conjoin e p).mentions column qualifier =
        (e.any (·.mentions column qualifier) || p.mentions column qualifier) := by
      cases e <;> simp [conjoin, mentions, mentions_parenthesized]
    have ih := ih (some (.conjoin e p))
    rw [Option.any_some, hconjoin] at ih
    rw [List.any_cons, ← Bool.or_assoc]
    exact ih

end Mentions

theorem Expr.mentions_hasValue (t : Target) (column : String) (v : Value) :
    (Expr.hasValue (t.column column) v).mentions column t.qualifier = true := by
  have hcolumn : (t.column column).mentions column t.qualifier = true := by
    cases hq : t.qualifier <;>
      simp [Target.column, ofColumn, mentions, isReference, hq, Ident.plain, Text.sameName_self]
  unfold hasValue
  split <;> simp [mentions, hcolumn]

end Sql

open Sql

namespace LogicDelete

variable (p : LogicDelete) {c : Context}

/-! ## The predicate -/

/-- What is known of a table decides about its predicate, with the conditions that stand. -/
theorem predicate_eq {t : Target} {known : Option TableMetadata}
    (h : Policy.resolve c t p.requireMetadata = (.ok known : Except PolicyError _))
    (existing : Option Expr) :
    p.predicate c t existing = (.ok ((known.bind (·.logicDelete)).bind fun mark =>
      if existing.any (·.mentions mark.column t.qualifier) then none
      else some ((t.column mark.column).hasValue mark.notDeletedValue)) :
        Except PolicyError (Option Expr)) := by
  simp only [predicate, h, bind, Except.bind]
  cases known.bind (·.logicDelete) with
  | none => rfl
  | some mark =>
    simp only [Option.bind_some]
    split <;> rfl

theorem exists_resolve {t : Target} {e r : Option Expr}
    (h : p.predicate c t e = (.ok r : Except PolicyError _)) :
    ∃ known, Policy.resolve c t p.requireMetadata = (.ok known : Except PolicyError _) := by
  obtain ⟨known, hknown, -⟩ := bind_eq_ok_iff.mp h
  exact ⟨known, hknown⟩

/-- A predicate that stands among the conditions is not asked for again. -/
theorem settles : Settles (p.predicate c) := by
  intro t e r ps h hmem
  obtain ⟨known, hknown⟩ := p.exists_resolve h
  rw [p.predicate_eq hknown] at h ⊢
  cases hmark : known.bind (·.logicDelete) with
  | none => rfl
  | some mark =>
    simp only [hmark, Option.bind_some] at h ⊢
    rw [if_pos]
    rw [Expr.any_mentions_conjoinAll]
    split at h
    · rename_i hmentions
      rw [hmentions, Bool.true_or]
    · cases h
      have hq := Expr.mentions_hasValue t mark.column mark.notDeletedValue
      rw [List.any_eq_true.mpr ⟨_, hmem _ rfl, hq⟩, Bool.or_true]

/-- A predicate says that the marking column of the table has its value for kept rows. -/
theorem exists_of_predicate {t : Target} {e r : Option Expr}
    (h : p.predicate c t e = (.ok r : Except PolicyError _)) :
    ∀ q ∈ r, ∃ mark : LogicDeleteColumn,
      q = (t.column mark.column).hasValue mark.notDeletedValue := by
  obtain ⟨known, hknown⟩ := p.exists_resolve h
  rw [p.predicate_eq hknown, Except.ok.injEq] at h
  subst h
  intro q hq
  obtain ⟨mark, -, hq⟩ := Option.bind_eq_some_iff.mp hq
  split at hq
  · cases hq
  · cases hq
    exact ⟨mark, rfl⟩

theorem blockless_of_predicate {t : Target} {e r : Option Expr}
    (h : p.predicate c t e = (.ok r : Except PolicyError _)) : ∀ q ∈ r, q.Blockless := by
  intro q hq
  obtain ⟨mark, rfl⟩ := p.exists_of_predicate h q hq
  exact Expr.blockless_hasValue t _ _

/-! ## Blocks -/

/-- What is restricted is left as it is by the traversal that has led to it, and by being restricted
again. -/
theorem fixed_of_restrict {f : Scope → Select → Except PolicyError Select} {b b' : RowBlock}
    (hinner : b.mapInner f = .ok b)
    (h : b.restrict p.strict (p.predicate c) = (.ok b' : Except PolicyError RowBlock)) :
    b'.mapInner f = .ok b' ∧
      b'.restrict p.strict (p.predicate c) = (.ok b' : Except PolicyError RowBlock) := by
  refine ⟨?_, RowBlock.restrict_restrict p.settles h⟩
  obtain ⟨ps, hps, rfl, -⟩ := RowBlock.restrict_eq_ok_iff.mp h
  have hblockless : BlocklessAnswers (b.leaves.zip ps) := fun x hx =>
    p.blockless_of_predicate ((List.forall₂_iff_zip.mp hps).2 hx)
  rw [RowBlock.mapInner_amended f hblockless, hinner]
  rfl

/-- `fixed_of_restrict` for the blocks of one sort. -/
theorem fixed_of_restrict_sort {α : Type} {toBlock : α → RowBlock}
    (hinjective : Function.Injective toBlock) {f : Scope → Select → Except PolicyError Select}
    {inner restrict : α → Except PolicyError α}
    (hinner : ∀ a, (toBlock a).mapInner f = toBlock <$> inner a)
    (hrestrict : ∀ a, (toBlock a).restrict p.strict (p.predicate c) = toBlock <$> restrict a)
    {a a' : α} (ha : inner a = .ok a) (ha' : restrict a = .ok a') :
    inner a' = .ok a' ∧ restrict a' = .ok a' := by
  have hblock : (toBlock a).mapInner f = .ok (toBlock a) := by
    rw [hinner]
    exact (map_eq_ok_map_iff hinjective).mpr ha
  have hblock' : (toBlock a).restrict p.strict (p.predicate c) =
      (.ok (toBlock a') : Except PolicyError RowBlock) := by
    rw [hrestrict]
    exact (map_eq_ok_map_iff hinjective).mpr ha'
  obtain ⟨h, h'⟩ := p.fixed_of_restrict hblock hblock'
  rw [hinner] at h
  rw [hrestrict] at h'
  exact ⟨(map_eq_ok_map_iff hinjective).mp h, (map_eq_ok_map_iff hinjective).mp h'⟩

/-- How the policy changes a select block. -/
abbrev block (p : LogicDelete) (c : Context) : Scope → Select → Except PolicyError Select :=
  p.policy.select c

/-- The traversal of the policy leaves what it has answered as it is. -/
theorem retraces : Retraces (p.block c) (p.block c) (p.block c) Eq
    (fun x y => ∀ a, x = .ok a → y = .ok a) where
  declare _ hs := hs ▸ rfl
  pure _ _ := id
  bind hxy hk b hb := by
    obtain ⟨a, ha, hb⟩ := bind_eq_ok_iff.mp hb
    exact bind_eq_ok_iff.mpr ⟨a, hxy a ha, hk a b hb⟩
  call {s s₂ b b₁ b'} hs hb₁ hinner h b'' hb'' := by
    subst hs
    rw [Select.mapBlocks_eq] at hb''
    obtain ⟨b₁', hb₁', hb''⟩ := bind_eq_ok_iff.mp hb''
    obtain rfl : b₁ = b₁' := Except.ok.inj (hb₁.symm.trans hb₁')
    obtain rfl : b' = b'' := Except.ok.inj (h.symm.trans hb'')
    have hselect : Function.Injective (RowBlock.select s) := fun _ _ h => (RowBlock.select.inj h).2
    obtain ⟨hinner', hrestrict⟩ :=
      p.fixed_of_restrict_sort hselect (fun _ => rfl) (fun _ => rfl) (hinner b₁ hb₁) h
    rw [Select.mapBlocks_eq]
    exact bind_eq_ok_iff.mpr ⟨b', hinner', hrestrict⟩

theorem update_fixed {u u₁ u₂ : Update} (h₁ : u.mapBlocks (p.block c) .empty = .ok u₁)
    (h₂ : u₁.restrict p.strict (p.predicate c) = (.ok u₂ : Except PolicyError Update)) :
    u₂.mapBlocks (p.block c) .empty = .ok u₂ ∧
      u₂.restrict p.strict (p.predicate c) = (.ok u₂ : Except PolicyError Update) :=
  p.fixed_of_restrict_sort (fun _ _ => RowBlock.update.inj) (fun _ => rfl) (fun _ => rfl)
    (u.retraced p.retraces rfl u₁ h₁ u₁ h₁) h₂

theorem deletion_fixed {d d₁ d₂ : Deletion} (h₁ : d.mapBlocks (p.block c) .empty = .ok d₁)
    (h₂ : d₁.restrict p.strict (p.predicate c) = (.ok d₂ : Except PolicyError Deletion)) :
    d₂.mapBlocks (p.block c) .empty = .ok d₂ ∧
      d₂.restrict p.strict (p.predicate c) = (.ok d₂ : Except PolicyError Deletion) :=
  p.fixed_of_restrict_sort (fun _ _ => RowBlock.deletion.inj) (fun _ => rfl) (fun _ => rfl)
    (d.retraced p.retraces rfl d₁ h₁ d₁ h₁) h₂

/-! ## Deletions that become updates -/

/-- A deletion becomes the update of the rows of one table. -/
theorem marking?_eq_some {d : Deletion} {u : Update}
    (h : p.marking? c d = (.ok (some u) : Except PolicyError _)) :
    ∃ (x : TableDeletion) (mark : LogicDeleteColumn),
      d = x.deletion ∧ u = x.update mark.column mark.deletedValue := by
  have hnone : ∀ construct, (do
      unsupported p.strict construct d.render
      return none : Except PolicyError (Option Update)) ≠ .ok (some u) := by
    intro construct hfail
    obtain ⟨_, -, hfail⟩ := bind_eq_ok_iff.mp hfail
    cases hfail
  unfold marking? at h
  split at h
  · rename_i t table _ ht hsources
    obtain ⟨known, -, h⟩ := bind_eq_ok_iff.mp h
    split at h
    · cases h
    · rename_i mark _
      split at h
      · exact absurd h (hnone _)
      · rename_i horder
        obtain ⟨x, rfl⟩ := TableDeletion.exists_of_target? ht (by simpa using horder)
        cases hsources
        cases h
        exact ⟨x, mark, rfl, rfl⟩
  · exact absurd h (hnone _)

/-- What is left of a deletion is itself, or the update of the rows of one table. -/
theorem statement_delete_eq_ok {d : Deletion} {s' : Statement}
    (h : (p.policy : Policy (Except PolicyError)).statement c (.delete d) = .ok s') :
    s' = .delete d ∨ ∃ (x : TableDeletion) (mark : LogicDeleteColumn),
      d = x.deletion ∧ s' = .update (x.update mark.column mark.deletedValue) := by
  simp only [policy] at h
  split at h
  · obtain ⟨u?, hu, h⟩ := bind_eq_ok_iff.mp h
    cases u? with
    | none =>
      cases h
      exact .inl rfl
    | some u =>
      cases h
      obtain ⟨x, mark, rfl, rfl⟩ := p.marking?_eq_some hu
      exact .inr ⟨x, mark, rfl, rfl⟩
  · cases h
    exact .inl rfl

/-! ## Statements -/

/-- What the policy leaves of a statement, it leaves as it is. -/
theorem apply_apply {s s' : Statement}
    (h : (p.policy : Policy (Except PolicyError)).apply c s = .ok s') :
    (p.policy : Policy (Except PolicyError)).apply c s' = .ok s' := by
  cases s with
  | select q =>
    obtain ⟨q₁, _, hq₁, ⟨⟩, ⟨⟩⟩ := (Policy.run_select_eq_ok_iff _).mp h
    exact (Policy.run_select_eq_ok_iff _).mpr
      ⟨q₁, q₁, q.retraced p.retraces rfl q₁ hq₁ q₁ hq₁, rfl, rfl⟩
  | update u =>
    obtain ⟨u₁, u₂, hu₁, hu₂, ⟨⟩⟩ := (Policy.run_update_eq_ok_iff _).mp h
    obtain ⟨hinner, hrestrict⟩ := p.update_fixed hu₁ hu₂
    exact (Policy.run_update_eq_ok_iff _).mpr ⟨u₂, u₂, hinner, hrestrict, rfl⟩
  | delete d =>
    obtain ⟨d₁, d₂, hd₁, hd₂, hs'⟩ := (Policy.run_delete_eq_ok_iff _).mp h
    obtain ⟨hinner, hrestrict⟩ := p.deletion_fixed hd₁ hd₂
    rcases p.statement_delete_eq_ok hs' with rfl | ⟨x, mark, rfl, rfl⟩
    · exact (Policy.run_delete_eq_ok_iff _).mpr ⟨d₂, d₂, hinner, hrestrict, hs'⟩
    · -- The hook for updates has the same parts of the deletion to leave as they are.
      have hx : x.mapBlocks (p.block c) .empty = .ok x := by
        rwa [TableDeletion.deletion_mapBlocks, map_eq_ok_map_iff TableDeletion.deletion_injective]
          at hinner
      have hx' : x.restrict p.strict (p.predicate c) =
          (.ok x : Except PolicyError TableDeletion) := by
        rwa [TableDeletion.deletion_restrict, map_eq_ok_map_iff TableDeletion.deletion_injective]
          at hrestrict
      let u := x.update mark.column mark.deletedValue
      refine (Policy.run_update_eq_ok_iff _).mpr ⟨u, u, ?_, ?_, rfl⟩
      · rw [TableDeletion.update_mapBlocks]
        exact map_eq_ok_iff.mpr ⟨x, hx, rfl⟩
      · change u.restrict p.strict (p.predicate c) = _
        rw [TableDeletion.update_restrict]
        exact map_eq_ok_iff.mpr ⟨x, hx', rfl⟩
  | insert i =>
    cases h
    rfl
  | other text =>
    cases h
    rfl

/-- An enforcer with this policy alone leaves what it has left as it is. -/
theorem process_process {dialect : Dialect} {guard : Guard} {s s' : Statement}
    (h : Enforcer.process ⟨dialect, [p.policy], guard⟩ c s =
      (.ok s' : Except PolicyError Statement)) :
    Enforcer.process ⟨dialect, [p.policy], guard⟩ c s' =
      (.ok s' : Except PolicyError Statement) := by
  simp only [Enforcer.process, List.foldlM_cons, List.foldlM_nil, bind_pure] at h ⊢
  exact p.apply_apply h

end LogicDelete

/-! ## Orders with items -/

/-- Rows of orders and of items are marked as deleted. -/
def Context.ofMarked : Context :=
  .ofRegistry (.ofList [{ table := "orders", logicDelete := some { column := "deleted" } },
    { table := "items", logicDelete := some { column := "gone" } }])

/-- The condition that the number of an order is among the rows of a block. -/
def Sql.Select.isAmong (b : Select) : Expr :=
  .phrase [.expr (.ofColumn (some "o") "id"), .text " IN (", .query (.ofBody (.select b)),
    .text ")"]

/-- `DELETE FROM orders o WHERE o.id IN (SELECT * FROM items)` -/
def TableDeletion.ordersOfItems : TableDeletion :=
  { TableDeletion.orderOne with selection := some (Select.allOf "items").isAmong }

/-- `UPDATE orders o SET deleted = 1 WHERE o.id IN (SELECT * FROM items WHERE gone = 0) AND
o.deleted = 0` -/
def Sql.Update.ordersOfItems : Update :=
  { TableDeletion.ordersOfItems.update "deleted" (.integer 1) with
    selection := some (.binary
      { Select.allOf "items" with
        selection := some (.hasValue (.ofColumn none "gone") (.integer 0)) }.isAmong .and
      (.hasValue (.ofColumn (some "o") "deleted") (.integer 0))) }

/-- The deletion becomes an update with a condition in each block, which gets no more of them. -/
theorem LogicDelete.process_process_ordersOfItems :
    let e : Enforcer (Except PolicyError) :=
      ⟨.generic, [LogicDelete.policy { soft := true, strict := true }], .allowAll⟩
    e.process .ofMarked (.delete TableDeletion.ordersOfItems.deletion) =
        .ok (.update .ordersOfItems) ∧
      e.process .ofMarked (.update .ordersOfItems) = .ok (.update .ordersOfItems) := by
  intro e
  have hfirst : e.process .ofMarked (.delete TableDeletion.ordersOfItems.deletion) =
      .ok (.update .ordersOfItems) := by
    with_unfolding_all rfl
  exact ⟨hfirst, LogicDelete.process_process { soft := true, strict := true } hfirst⟩

end RowPolicy
