import RowPolicy.Policy.OptimisticLock
import RowPolicy.Policy.Pagination
import RowPolicy.Proofs.Positions.Filters

/-!
# Tables that policies reach

A policy reaches the tables of the blocks that it is handed, those of an update or a deletion that
is the whole statement, and the table of an insertion. What a policy leaves of a statement reaches
the same tables (`Filter.retains_of_run`), with one exception: another column of an insertion may
bring queries with its value (`Insertion.retains_appendColumn`).
-/

namespace RowPolicy

open Sql

namespace Sql

/-! ## Tables of a block -/

namespace RowBlock

/-- The tables of a block that a predicate is asked for. -/
def tables (b : RowBlock) : List String :=
  b.leaves.map (·.target.table)

/-- Blocks that are seen alike have the same tables. -/
theorem tables_of_sight {b b' : RowBlock} (h : b.sight = b'.sight) : b.tables = b'.tables := by
  have htables : ∀ x : RowBlock, x.tables = (x.leaves.map Leaf.sight).map (·.1) := by
    intro x
    rw [tables, List.map_map]
    rfl
  obtain ⟨-, hsteps⟩ := Prod.mk.inj h
  rw [htables, htables, leaves, leaves, leavesOf_sight, leavesOf_sight, hsteps]

theorem tables_amended (b : RowBlock) (as : List Answer) : (b.amended as).tables = b.tables := by
  rw [tables, leaves_amended, List.map_map]
  rfl

/-- Where a traversal starts from what is left of a block, the block has the same tables. -/
theorem tables_of_mapBlocks {w : Restraint} {s : Scope} {b b' : Select}
    (h : b.mapBlocks w.block s = .ok b') : (select s b').tables = (select s b).tables := by
  rw [Select.mapBlocks_eq] at h
  obtain ⟨b₁, hb₁, hb'⟩ := bind_eq_ok_iff.mp h
  obtain ⟨as, -, rfl⟩ := w.block_eq_ok_iff.mp hb'
  rw [← amended_select, tables_amended]
  exact tables_of_sight (Restraint.sight_of_mapInner hb₁)

end RowBlock

/-! ## Tables of a statement -/

/-- The table of an insertion. -/
def Statement.insertTable? : Statement → Option String
  | .insert i => i.target?.map (·.table)
  | _ => none

/-- Whether policies reach a table of a statement: in a block that is not aside, in the update or
the deletion that the statement is, or as the table of an insertion. -/
def Statement.Reaches (s : Statement) (table : String) : Prop :=
  (∃ o ∈ s.occurrences, o.place.aside = false ∧
      table ∈ (RowBlock.select o.place.scope o.block).tables) ∨
    (∃ b ∈ s.block?, table ∈ b.tables) ∨ s.insertTable? = some table

/-- Whether a block at its place is not aside and has a table. -/
def ReachedIn (table : String) (x : Place × Select) : Prop :=
  x.1.aside = false ∧ table ∈ (RowBlock.select x.1.scope x.2).tables

theorem Statement.reaches_iff {s : Statement} {table : String} :
    s.Reaches table ↔ (∃ x ∈ s.occurrences.map Occurrence.placed, ReachedIn table x) ∨
      (∃ b ∈ s.block?, table ∈ b.tables) ∨ s.insertTable? = some table := by
  simp [Reaches, ReachedIn, Occurrence.placed]

/-- Whether a statement reaches what another one does, and `same` says whether it reaches nothing
else. -/
structure Statement.Retains (same : Prop) (s s' : Statement) : Prop where
  reaches : ∀ {table : String}, s.Reaches table → s'.Reaches table
  of_reaches : same → ∀ {table : String}, s'.Reaches table → s.Reaches table
  inserted : s'.insertTable? = s.insertTable?

namespace Statement.Retains

variable {same : Prop} {s s₁ s' : Statement}

theorem refl (s : Statement) : s.Retains same s :=
  ⟨id, fun _ _ => id, rfl⟩

theorem trans (h : s.Retains same s₁) (h' : s₁.Retains same s') : s.Retains same s' :=
  ⟨h'.reaches ∘ h.reaches, fun he _ => h.of_reaches he ∘ h'.of_reaches he,
    h'.inserted.trans h.inserted⟩

theorem mono {same' : Prop} (h : s.Retains same' s') (himp : same → same') :
    s.Retains same s' :=
  ⟨h.reaches, fun he => h.of_reaches (himp he), h.inserted⟩

/-- A statement with the same tables in its blocks and in itself. -/
theorem of_iff (hblocks : ∀ table, (∃ x ∈ s'.occurrences.map Occurrence.placed, ReachedIn table x) ↔
      ∃ x ∈ s.occurrences.map Occurrence.placed, ReachedIn table x)
    (hown : s'.block?.map RowBlock.tables = s.block?.map RowBlock.tables)
    (hinserted : s'.insertTable? = s.insertTable?) : s.Retains same s' := by
  have hblock : ∀ (x : Statement) (table : String),
      (∃ b ∈ x.block?, table ∈ b.tables) ↔ ∃ ts ∈ x.block?.map RowBlock.tables, table ∈ ts := by
    intro x table
    simp
  have hiff : ∀ table, s'.Reaches table ↔ s.Reaches table := fun table => by
    rw [reaches_iff, reaches_iff, hblocks, hblock, hblock, hown, hinserted]
  exact ⟨(hiff _).mpr, fun _ _ => (hiff _).mp, hinserted⟩

/-- A statement with the same blocks at the same places, and the same tables in itself. -/
theorem of_placed
    (hplaced : s'.occurrences.map Occurrence.placed = s.occurrences.map Occurrence.placed)
    (hown : s'.block?.map RowBlock.tables = s.block?.map RowBlock.tables)
    (hinserted : s'.insertTable? = s.insertTable?) : s.Retains same s' :=
  of_iff (fun table => by rw [hplaced]) hown hinserted

end Statement.Retains

theorem exists_mem_iff_of_forall₂ {α β : Type} {R : α → β → Prop} {P : α → Prop} {Q : β → Prop}
    {xs : List α} {ys : List β} (h : List.Forall₂ R xs ys) (hR : ∀ x y, R x y → (P x ↔ Q y)) :
    (∃ x ∈ xs, P x) ↔ ∃ y ∈ ys, Q y := by
  induction h with
  | nil => simp
  | cons hxy _ ih => simp only [List.mem_cons, exists_eq_or_imp, hR _ _ hxy, ih]

/-! ## Restraints -/

namespace Restraint.Plain

variable {w : Restraint} (hw : w.Plain) {same : Prop} {s s' : Statement}
include hw

theorem retains_mapBlocks (h : s.mapBlocks w.block = .ok s') : s.Retains same s' := by
  refine .of_iff (fun table => ?_) ?_ ?_
  · refine (exists_mem_iff_of_forall₂ (Statement.rewritten hw.uses_of_block h) ?_).symm
    rintro x ⟨place, b'⟩ ⟨rfl, hb'⟩
    exact and_congr_right fun haside => by
      rw [RowBlock.tables_of_mapBlocks (hb' haside)]
  · have hsight := Statement.sight_of_keeps (keeps_of_mapBlocks h)
    cases hs : s.block? with
    | none =>
      rw [hs, Option.map_none, Option.map_eq_none_iff] at hsight
      rw [hsight]
    | some b =>
      rw [hs] at hsight
      obtain ⟨b', hb', heq⟩ := Option.map_eq_some_iff.mp hsight
      rw [hb', Option.map_some, Option.map_some, RowBlock.tables_of_sight heq]
  · cases s with
    | insert i =>
      obtain ⟨i', hi', rfl⟩ := map_eq_ok_iff.mp h
      rw [Statement.insertTable?, Statement.insertTable?, Insertion.target?, Insertion.target?,
        i.table_mapBlocks _ _ i' hi']
    | update u =>
      obtain ⟨u', -, rfl⟩ := map_eq_ok_iff.mp h
      rfl
    | delete d =>
      obtain ⟨d', -, rfl⟩ := map_eq_ok_iff.mp h
      rfl
    | select q =>
      obtain ⟨q', -, rfl⟩ := map_eq_ok_iff.mp h
      rfl
    | other text =>
      cases h
      rfl

theorem retains_outer (h : w.outer s = .ok s') : s.Retains same s' := by
  refine .of_placed (hw.placed_of_outer h) ?_ ?_
  all_goals obtain ⟨as, -, rfl⟩ := w.outer_eq_ok_iff.mp h
  · rw [Statement.block?_amended, Option.map_map]
    exact congrArg (s.block?.map ·) (funext fun b => b.tables_amended as)
  · cases s <;> rfl

end Restraint.Plain

/-! ## Insertions -/

/-- Another column of an insertion keeps the tables of the insertion, and brings those of its
value. -/
theorem Insertion.retains_appendColumn (i : Insertion) (column : String) (value : Expr) :
    (Statement.insert i).Retains (value.outline = [])
      (.insert (i.appendColumn column value).2) := by
  have htable : (i.appendColumn column value).2.table = i.table := by
    rcases Tenant.appendColumn_cases i column value with ⟨-, h⟩ | h | ⟨q, body, -, -, h⟩ |
      ⟨_, -, -, h⟩ <;> rw [h]
  have hinserted : (Statement.insert (i.appendColumn column value).2).insertTable? =
      (Statement.insert i).insertTable? := by
    rw [Statement.insertTable?, Statement.insertTable?, target?, target?, htable]
  obtain ⟨ys, honce, hsub, heq⟩ := i.widened_appendColumn column value
  have hchanged : ∀ table, (∃ x ∈ ys, ReachedIn table x) ↔
      ∃ x ∈ placedBlocks .outermost i.outline, ReachedIn table x := by
    intro table
    rcases honce with rfl | ⟨pre, x, post, hsplit, rfl⟩
    · rfl
    · rw [hsplit]
      have hsame : ReachedIn table (placedWithColumn value x) ↔ ReachedIn table x := .rfl
      simp only [List.mem_append, List.mem_cons, or_and_right, exists_or, exists_eq_left, hsame]
  refine ⟨fun {table} h => ?_, fun he {table} h => ?_, hinserted⟩
  · rw [Statement.reaches_iff, hinserted]
    refine (Statement.reaches_iff.mp h).imp (fun hblocks => ?_) id
    obtain ⟨x, hx, hreached⟩ := (hchanged table).mpr hblocks
    exact ⟨x, hsub.subset hx, hreached⟩
  · rw [Statement.reaches_iff, ← hinserted]
    refine (Statement.reaches_iff.mp h).imp (fun hblocks => (hchanged table).mp ?_) id
    rwa [← heq he]

end Sql

/-! ## Policies -/

namespace Filter

variable {f : Filter} {c : Context} {same : Prop} {s s' : Statement}

theorem retains_of_statement (h : f.policy.statement c s = .ok s') : s.Retains same s' := by
  have hplaced := placed_of_statement h
  rcases exists_of_statement h with rfl | ⟨x, mark, rfl, rfl⟩
  · exact .refl _
  · exact .of_placed hplaced rfl rfl

theorem retains_of_insert {i i' : Insertion} (h : f.policy.insert c i = .ok i') :
    (Statement.insert i).Retains same (.insert i') := by
  rcases exists_appendColumn h with rfl | ⟨v, -, column, rfl⟩
  · exact .refl _
  · exact (i.retains_appendColumn column (.ofValue v)).mono fun _ => rfl

/-- **What a filter leaves of a statement reaches the same tables.** -/
theorem retains_of_run (h : f.policy.run c s = .ok s') : s.Retains same s' := by
  by_cases hs : s.kind = .insert
  · cases s with
    | insert i =>
      obtain ⟨i₁, i₂, hi₁, hi₂, -, hs'⟩ := (Policy.run_insert_eq_ok_iff _).mp h
      rw [(f.restrains c).select] at hi₁
      have hs₁ : (Statement.insert i).mapBlocks (f.restraint c).block = .ok (.insert i₁) :=
        map_eq_ok_iff.mpr ⟨i₁, hi₁, rfl⟩
      exact (((f.plain c).retains_mapBlocks hs₁).trans (retains_of_insert hi₂)).trans
        (retains_of_statement hs')
    | _ => cases hs
  · rw [(f.restrains c).run_eq hs] at h
    obtain ⟨s₂, hs₂, hs'⟩ := bind_eq_ok_iff.mp h
    obtain ⟨s₁, hs₁, hs₂⟩ := bind_eq_ok_iff.mp hs₂
    exact (((f.plain c).retains_mapBlocks hs₁).trans ((f.plain c).retains_outer hs₂)).trans
      (retains_of_statement hs')

end Filter

end RowPolicy
