import RowPolicy.Proofs.Blocks.Lockstep
import RowPolicy.Proofs.Joins.Walk

/-!
# Traversing an amended block

A predicate with no block in it is the same before and behind every traversal. So it does not matter
whether a block is traversed before its tables are restricted or behind:
`RowBlock.mapInner_amended`. A traversal keeps the number of relations of each part of a `FROM`, by
which the joins are known that predicates are put behind.
-/

namespace RowPolicy.Sql

variable {m : Type → Type} [Monad m] [LawfulMonad m] (f : Scope → Select → m Select) (s : Scope)

/-! ## Expressions without blocks -/

/-- Whether there is no block in an expression, so that traversals leave it as it is. -/
structure Expr.Blockless (e : Expr) : Prop where
  mapBlocks : ∀ {m : Type → Type} [Monad m] [LawfulMonad m] (f : Scope → Select → m Select)
    (s : Scope), e.mapBlocks f s = pure e

theorem Expr.blockless_hasValue (t : Target) (column : String) (v : Value) :
    (Expr.hasValue (t.column column) v).Blockless where
  mapBlocks f s := by
    unfold hasValue
    split <;> simp [Target.column, ofColumn, ofValue, Expr.mapBlocks]

theorem Expr.mapBlocks_parenthesized (e : Expr) :
    e.parenthesized.mapBlocks f s = parenthesized <$> e.mapBlocks f s := by
  cases e with
  | binary l op r => cases op <;> simp [parenthesized, Expr.mapBlocks]
  | _ => simp [parenthesized, Expr.mapBlocks]

theorem Expr.Blockless.parenthesized {e : Expr} (h : e.Blockless) : e.parenthesized.Blockless where
  mapBlocks f s := by
    rw [Expr.mapBlocks_parenthesized, h.mapBlocks, map_pure]

theorem Expr.mapBlocks_conjoin {p : Expr} (hp : p.Blockless) (e : Expr) :
    (conjoin (some e) p).mapBlocks f s = (fun e => conjoin (some e) p) <$> e.mapBlocks f s := by
  simp only [conjoin, Expr.mapBlocks, Expr.mapBlocks_parenthesized, hp.mapBlocks, map_eq_pure_bind,
    bind_assoc, pure_bind]

/-- A traversal does not look into the predicates behind a condition. -/
theorem Expr.mapBlocks_withAll {ps : List Expr} (hps : ∀ p ∈ ps, p.Blockless) (e : Expr) :
    (e.withAll ps).mapBlocks f s = (·.withAll ps) <$> e.mapBlocks f s := by
  induction ps generalizing e with
  | nil => simp [withAll]
  | cons p ps ih =>
    have hp := hps p List.mem_cons_self
    have ih := ih (fun q hq => hps q (List.mem_cons_of_mem _ hq)) (.conjoin (some e) p)
    simp only [withAll, List.foldl_cons] at ih ⊢
    rw [ih, mapBlocks_conjoin f s hp, Functor.map_map]

theorem mapBlocksOption_withAll {ps : List Expr} (hps : ∀ p ∈ ps, p.Blockless)
    (e : Option Expr) :
    mapBlocksOption f s (e.map (·.withAll ps)) =
      Option.map (·.withAll ps) <$> mapBlocksOption f s e := by
  cases e with
  | none => simp [mapBlocksOption]
  | some e => simp [mapBlocksOption, Expr.mapBlocks_withAll f s hps]

theorem mapBlocksOption_conjoinAll {ps : List Expr} (hps : ∀ p ∈ ps, p.Blockless)
    (e : Option Expr) :
    mapBlocksOption f s (Expr.conjoinAll e ps) =
      (Expr.conjoinAll · ps) <$> mapBlocksOption f s e := by
  cases e with
  | some e =>
    simp [mapBlocksOption, Expr.conjoinAll_some, Expr.mapBlocks_withAll f s hps]
  | none =>
    cases ps with
    | nil => simp [mapBlocksOption, Expr.conjoinAll]
    | cons p ps =>
      -- the first predicate becomes the condition that the others stand behind
      have hfirst := (hps p List.mem_cons_self).parenthesized
      have hrest := Expr.mapBlocks_withAll f s (fun q hq => hps q (List.mem_cons_of_mem _ hq))
        p.parenthesized
      have hall : Expr.conjoinAll none (p :: ps) = some (p.parenthesized.withAll ps) :=
        Expr.conjoinAll_some p.parenthesized ps
      simp [mapBlocksOption, hall, hrest, hfirst.mapBlocks]

theorem Expr.blockless_conjoinAll {ps : List Expr} (hps : ∀ p ∈ ps, p.Blockless) :
    ∀ e ∈ Expr.conjoinAll none ps, e.Blockless := by
  intro e he
  cases ps with
  | nil => cases he
  | cons p ps =>
    have hall : Expr.conjoinAll none (p :: ps) = some (p.parenthesized.withAll ps) :=
      Expr.conjoinAll_some p.parenthesized ps
    rw [hall] at he
    cases he
    refine ⟨fun f s => ?_⟩
    rw [Expr.mapBlocks_withAll f s fun q hq => hps q (List.mem_cons_of_mem _ hq),
      (hps p List.mem_cons_self).parenthesized.mapBlocks, map_pure]

/-! ## Sizes -/

/-- A traversal of a part of a `FROM` keeps the number of relations. -/
theorem bind_mapBlocks_size {β : Type} :
    (∀ t : JoinTree, ∀ k : Nat → JoinTree → m β,
      (t.mapBlocks f s >>= fun t' => k t'.size t') = t.mapBlocks f s >>= k t.size) ∧
    (∀ js, ∀ k : Nat → List Join → m β,
      (mapBlocksJoins f s js >>= fun js' => k (joinsSize js') js') =
        mapBlocksJoins f s js >>= k (joinsSize js)) ∧
    ∀ r : Relation, ∀ k : Nat → Relation → m β,
      (r.mapBlocks f s >>= fun r' => k r'.size r') = r.mapBlocks f s >>= k r.size := by
  refine JoinTree.induction ?tree ?nil ?cons ?nested ?leaf
  case tree =>
    intro relation joins ihr ihjs k
    simp only [JoinTree.mapBlocks, bind_assoc, pure_bind, JoinTree.size]
    rw [← ihr fun n r' => mapBlocksJoins f s joins >>= fun js' => k (n + joinsSize joins) ⟨r', js'⟩]
    exact bind_congr fun r' => ihjs fun n js' => k (r'.size + n) ⟨r', js'⟩
  case nil =>
    intro k
    simp only [mapBlocksJoins, pure_bind]
  case cons =>
    intro j js ihr ihjs k
    obtain ⟨isGlobal, isNatural, kind, relation, matching, on, columns⟩ := j
    simp only [mapBlocksJoins, bind_assoc, pure_bind, joinsSize]
    rw [← ihr fun n r' => do
      let matching' ← mapBlocksOption f s matching
      let on' ← mapBlocksOption f s on
      let js' ← mapBlocksJoins f s js
      k (n + joinsSize js) (⟨isGlobal, isNatural, kind, r', matching', on', columns⟩ :: js')]
    exact bind_congr fun r' => bind_congr fun matching' => bind_congr fun on' =>
      ihjs fun n js' =>
        k (r'.size + n) (⟨isGlobal, isNatural, kind, r', matching', on', columns⟩ :: js')
  case nested =>
    intro t naming ih k
    simp only [Relation.mapBlocks, bind_assoc, pure_bind, Relation.size]
    exact ih fun n t' => k n (.nested t' naming)
  case leaf =>
    intro r hr k
    cases r with
    | nested => simp [Relation.isLeaf] at hr
    | _ => simp only [Relation.mapBlocks, bind_assoc, pure_bind, Relation.size]

theorem bind_mapBlocksTrees_size {β : Type} (ts : List JoinTree)
    (k : Nat → List JoinTree → m β) :
    (mapBlocksTrees f s ts >>= fun ts' => k (treesSize ts') ts') =
      mapBlocksTrees f s ts >>= k (treesSize ts) := by
  induction ts generalizing k with
  | nil => simp only [mapBlocksTrees, pure_bind]
  | cons t ts ih =>
    simp only [mapBlocksTrees, bind_assoc, pure_bind, treesSize]
    rw [← (bind_mapBlocks_size f s).1 t fun n t' =>
      mapBlocksTrees f s ts >>= fun ts' => k (n + treesSize ts) (t' :: ts')]
    exact bind_congr fun t' => ih fun n ts' => k (t'.size + n) (t' :: ts')

/-! ## Amended trees -/

section Amended

variable {a : Nat → List Expr} (ha : ∀ j, ∀ p ∈ a j, p.Blockless)
include ha

theorem mapBlocks_amended :
    (∀ t : JoinTree, ∀ n, (t.amended a n).mapBlocks f s = (·.amended a n) <$> t.mapBlocks f s) ∧
    (∀ js, ∀ n, mapBlocksJoins f s (joinsAmended a n js) =
      joinsAmended a n <$> mapBlocksJoins f s js) ∧
    ∀ r : Relation, ∀ n,
      (r.amended a n).mapBlocks f s = (·.amended a n) <$> r.mapBlocks f s := by
  -- The joins behind a relation are known by its size, which is that of the traversed relation.
  refine JoinTree.induction ?tree ?nil ?cons ?nested ?leaf
  case tree =>
    intro relation joins ihr ihjs n
    have hsize := (bind_mapBlocks_size f s).2.2 relation fun k r' =>
      mapBlocksJoins f s joins >>= fun js' =>
        pure (JoinTree.mk (r'.amended a n) (joinsAmended a (n + k) js'))
    simp only [JoinTree.amended, JoinTree.mapBlocks, ihr n, ihjs, map_eq_pure_bind, bind_assoc,
      pure_bind]
    exact hsize.symm
  case nil =>
    intro n
    simp only [joinsAmended, mapBlocksJoins, map_pure]
  case cons =>
    intro j js ihr ihjs n
    obtain ⟨isGlobal, isNatural, kind, relation, matching, on, columns⟩ := j
    have hsize := (bind_mapBlocks_size f s).2.2 relation fun k r' => do
      let matching' ← mapBlocksOption f s matching
      let on' ← mapBlocksOption f s on
      let js' ← mapBlocksJoins f s js
      pure (Join.mk isGlobal isNatural kind (r'.amended a n) matching'
        (on'.map (·.withAll (a n))) columns :: joinsAmended a (n + k) js')
    have hr : (relation.amended a n).mapBlocks f s = _ := ihr n
    simp only [joinsAmended, mapBlocksJoins, hr, ihjs, mapBlocksOption_withAll f s (ha n),
      map_eq_pure_bind, bind_assoc, pure_bind]
    exact hsize.symm
  case nested =>
    intro t naming ih n
    simp only [Relation.amended, Relation.mapBlocks, ih n, map_eq_pure_bind, bind_assoc, pure_bind]
  case leaf =>
    intro r hr n
    cases r with
    | nested => simp [Relation.isLeaf] at hr
    | _ => simp only [Relation.amended, Relation.mapBlocks, map_eq_pure_bind, bind_assoc, pure_bind]

theorem mapBlocksTrees_amended (ts : List JoinTree) (n : Nat) :
    mapBlocksTrees f s (treesAmended a n ts) = treesAmended a n <$> mapBlocksTrees f s ts := by
  induction ts generalizing n with
  | nil => simp only [treesAmended, mapBlocksTrees, map_pure]
  | cons t ts ih =>
    have hsize := (bind_mapBlocks_size f s).1 t fun k t' =>
      mapBlocksTrees f s ts >>= fun ts' => pure (t'.amended a n :: treesAmended a (n + k) ts')
    simp only [treesAmended, mapBlocksTrees, (mapBlocks_amended f s ha).1 t n, ih,
      map_eq_pure_bind, bind_assoc, pure_bind]
    exact hsize.symm

theorem mapBlocksUsing_amended (u : Option (List JoinTree)) (n : Nat) :
    mapBlocksUsing f s (u.map (treesAmended a n)) =
      Option.map (treesAmended a n) <$> mapBlocksUsing f s u := by
  cases u with
  | none => simp [mapBlocksUsing]
  | some ts => simp [mapBlocksUsing, mapBlocksTrees_amended f s ha]

end Amended

/-! ## Amended blocks -/

/-- The answers for tables of which none has a block. -/
def BlocklessAnswers (as : List Answer) : Prop :=
  ∀ x ∈ as, ∀ p ∈ x.2, p.Blockless

theorem BlocklessAnswers.answersAt {as : List Answer} (has : BlocklessAnswers as) (h : Home) :
    ∀ p ∈ answersAt h as, p.Blockless := by
  intro p hp
  obtain ⟨x, hx, hxp⟩ := List.mem_filterMap.mp hp
  split at hxp
  · exact has x hx p hxp
  · cases hxp

namespace RowBlock

/-- The blocks inside of a block. -/
def mapInner : RowBlock → m RowBlock
  | select scope b => select scope <$> b.mapInner f scope
  | update u => update <$> u.mapBlocks f .empty
  | deletion d => deletion <$> d.mapBlocks f .empty

/-- The blocks inside of an amended block are those inside of the block. -/
theorem mapInner_amended {as : List Answer} (has : BlocklessAnswers as) (b : RowBlock) :
    (b.amended as).mapInner f = amended as <$> b.mapInner f := by
  have hon : ∀ j, ∀ p ∈ additions as j, p.Blockless := fun j => has.answersAt (.on j)
  have hselection := has.answersAt .selection
  cases b with
  | select scope b =>
    cases b
    simp only [amended, mapInner, Select.mapInner, mapBlocksTrees_amended f scope hon,
      mapBlocksOption_conjoinAll f scope hselection, map_eq_pure_bind, bind_assoc, pure_bind]
  | update u =>
    obtain ⟨head, table, sourcesFirst, sources, assignments, selection, returning, limit⟩ := u
    have hsize := (bind_mapBlocks_size f .empty).1 table fun k table' => do
      let assignments' ← mapBlocksAssignments f .empty assignments
      let sources' ← mapBlocksTrees f .empty sources
      let selection' ← mapBlocksOption f .empty selection
      let returning' ← mapBlocksPieces f .empty returning
      let limit' ← mapBlocksOption f .empty limit
      pure (update ⟨head, table'.amended (additions as) 0, sourcesFirst,
        treesAmended (additions as) k sources', assignments',
        Expr.conjoinAll selection' (answersAt .selection as), returning', limit'⟩)
    simp only [amended, mapInner, Update.mapBlocks, (mapBlocks_amended f .empty hon).1,
      mapBlocksTrees_amended f .empty hon, mapBlocksOption_conjoinAll f .empty hselection,
      map_eq_pure_bind, bind_assoc, pure_bind]
    exact hsize.symm
  | deletion d =>
    obtain ⟨tables, fromKeyword, sources, usingSources, selection, returning, orderBy, limit⟩ := d
    have hsize := bind_mapBlocksTrees_size f .empty sources fun k sources' => do
      let usingSources' ← mapBlocksUsing f .empty usingSources
      let selection' ← mapBlocksOption f .empty selection
      let returning' ← mapBlocksPieces f .empty returning
      let orderBy' ← mapBlocksPieces f .empty orderBy
      let limit' ← mapBlocksOption f .empty limit
      pure (deletion ⟨tables, fromKeyword, treesAmended (additions as) 0 sources',
        usingSources'.map (treesAmended (additions as) k),
        Expr.conjoinAll selection' (answersAt .selection as), returning', orderBy', limit'⟩)
    simp only [amended, mapInner, Deletion.mapBlocks, mapBlocksTrees_amended f .empty hon,
      mapBlocksUsing_amended f .empty hon, mapBlocksOption_conjoinAll f .empty hselection,
      map_eq_pure_bind, bind_assoc, pure_bind]
    exact hsize.symm

end RowBlock

end RowPolicy.Sql
