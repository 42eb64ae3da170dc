import RowPolicy.Proofs.Blocks.Restraints
import RowPolicy.Proofs.Positions.Places
import RowPolicy.Proofs.Tables.Restricted

/-!
# Blocks behind a traversal

The blocks in the outline of a statement are those where it uses tables (`Statement.blocksOf_uses`).
So the blocks that a statement has before and behind a traversal are pairs, at the same places, and
each is behind it what the traversal makes of the block alone (`Statement.rewritten`).
-/

namespace RowPolicy.Sql

/-! ## Uses by blocks -/

/-- The block where tables are used, at its place. -/
def Use.block? : Use → Option (Place × Select)
  | ⟨p, .select b⟩ => some (p, b)
  | _ => none

/-- The blocks where tables are used. -/
def blocksOfUses (us : List Use) : List (Place × Select) :=
  us.filterMap Use.block?

/-- A block at its place. -/
def Occurrence.placed (o : Occurrence) : Place × Select :=
  (o.place, o.block)

/-- The blocks of an outline at their places. -/
def placedBlocks (p : Place) (is : List Item) : List (Place × Select) :=
  (itemsOccurrences p is).map Occurrence.placed

@[simp] theorem blocksOfUses_append (us vs : List Use) :
    blocksOfUses (us ++ vs) = blocksOfUses us ++ blocksOfUses vs :=
  List.filterMap_append

@[simp] theorem placedBlocks_append (p : Place) (is js : List Item) :
    placedBlocks p (is ++ js) = placedBlocks p is ++ placedBlocks p js := by
  rw [placedBlocks, itemsOccurrences_append, List.map_append]
  rfl

theorem placedBlocks_singleton (p : Place) (i : Item) :
    placedBlocks p [i] = (i.occurrences p).map Occurrence.placed := by
  rw [placedBlocks, itemsOccurrences, itemsOccurrences, List.append_nil]

/-- A block in settings or chained operators. -/
def placedAside (x : Place × Select) : Place × Select :=
  (x.1.toSide, x.2)

theorem placedBlocks_toSide (p : Place) (is : List Item) :
    placedBlocks p.toSide is = (placedBlocks p is).map placedAside := by
  rw [placedBlocks, itemsOccurrences_toSide, List.map_map, placedBlocks, List.map_map]
  rfl

theorem blocksOfUses_setAside (us : List Use) :
    blocksOfUses (us.map Use.setAside) = (blocksOfUses us).map placedAside := by
  rw [blocksOfUses, blocksOfUses, List.filterMap_map, List.map_filterMap]
  refine List.filterMap_congr fun u _ => ?_
  obtain ⟨p, _ | _ | _ | _ | _ | _⟩ := u <;> rfl

mutual

theorem Expr.blocksOf_uses (p : Place) : (e : Expr) →
    blocksOfUses (e.uses p) = placedBlocks p e.outline
  | .column _ => rfl
  | .literal _ => rfl
  | .binary l _ r => by
    simp only [Expr.uses, Expr.outline, blocksOfUses_append, placedBlocks_append,
      l.blocksOf_uses p, r.blocksOf_uses p]
  | .isNull e => e.blocksOf_uses p
  | .nested e => e.blocksOf_uses p
  | .call _ rest => blocksOf_usesPieces p rest
  | .phrase ps => blocksOf_usesPieces p ps

theorem Piece.blocksOf_uses (p : Place) : (r : Piece) →
    blocksOfUses (r.uses p) = placedBlocks p r.outline
  | .text _ => rfl
  | .expr e => e.blocksOf_uses p
  | .query q => by
    rw [Piece.uses, Piece.outline, q.blocksOf_uses p, placedBlocks_singleton]
  | .relation r => by
    rw [Piece.uses, Piece.outline, blocksOfUses_append, r.blocksOf_uses p]
    exact List.append_nil _
  | .swapped first second => by
    simp only [Piece.uses, Piece.outline, blocksOfUses_append, placedBlocks_append,
      blocksOf_usesPieces p first, blocksOf_usesPieces p second]

theorem blocksOf_usesPieces (p : Place) : (ps : List Piece) →
    blocksOfUses (usesPieces p ps) = placedBlocks p (outlinePieces ps)
  | [] => rfl
  | r :: ps => by
    simp only [usesPieces, outlinePieces, blocksOfUses_append, placedBlocks_append,
      r.blocksOf_uses p, blocksOf_usesPieces p ps]

theorem blocksOf_usesOption (p : Place) : (e : Option Expr) →
    blocksOfUses (usesOption p e) = placedBlocks p (outlineOption e)
  | none => rfl
  | some e => e.blocksOf_uses p

theorem blocksOf_usesExprs (p : Place) : (es : List Expr) →
    blocksOfUses (usesExprs p es) = placedBlocks p (outlineExprs es)
  | [] => rfl
  | e :: es => by
    simp only [usesExprs, outlineExprs, blocksOfUses_append, placedBlocks_append,
      e.blocksOf_uses p, blocksOf_usesExprs p es]

theorem blocksOf_usesRows (p : Place) : (rs : List (List Expr)) →
    blocksOfUses (usesRows p rs) = placedBlocks p (outlineRows rs)
  | [] => rfl
  | r :: rs => by
    simp only [usesRows, outlineRows, blocksOfUses_append, placedBlocks_append,
      blocksOf_usesExprs p r, blocksOf_usesRows p rs]

theorem Query.blocksOf_uses (p : Place) : (q : Query) →
    blocksOfUses (q.uses p) = (q.outline.occurrences p).map Occurrence.placed
  | ⟨recursive, ctes, body, orderBy, limit, settings, fetch, _, chain⟩ => by
    let inner := p.enter ⟨recursive, cteNames ctes, none⟩
    have hmain : (itemsOccurrences inner (body.outline ++ (outlinePieces orderBy ++
        (outlineLimit limit ++ outlineFetch fetch)))).map Occurrence.placed =
        blocksOfUses (body.uses inner ++ (usesPieces inner orderBy ++
          (usesLimit inner limit ++ usesFetch inner fetch))) := by
      simp only [blocksOfUses_append, body.blocksOf_uses inner, blocksOf_usesPieces inner orderBy,
        blocksOf_usesLimit inner limit, blocksOf_usesFetch inner fetch, ← placedBlocks_append]
      rfl
    have haside : (itemsOccurrences inner.toSide
        (outlinePieces settings ++ outlinePieces chain)).map Occurrence.placed =
        blocksOfUses ((usesPieces inner settings ++ usesPieces inner chain).map Use.setAside) := by
      rw [blocksOfUses_setAside, blocksOfUses_append, blocksOf_usesPieces inner settings,
        blocksOf_usesPieces inner chain, ← placedBlocks_append, ← placedBlocks_toSide]
      rfl
    simp only [Query.uses, Query.outline, Item.occurrences, List.map_append,
      namedNames_outlineCtes, blocksOfUses_append, blocksOf_usesCtes p recursive _ 0 ctes]
      at hmain ⊢
    rw [hmain, haside]
    simp only [List.append_assoc, List.map_append, blocksOfUses_append]
    rfl

theorem blocksOf_usesCtes (p : Place) (recursive : Bool) (names : List String) (k : Nat) :
    (cs : List Cte) → blocksOfUses (usesCtes p recursive names k cs) =
      (namedOccurrences p recursive names k (outlineCtes cs)).map Occurrence.placed
  | [] => rfl
  | ⟨_, _, _, query, _⟩ :: cs => by
    rw [usesCtes, outlineCtes, namedOccurrences, blocksOfUses_append, List.map_append,
      query.blocksOf_uses, blocksOf_usesCtes p recursive names (k + 1) cs,
      ← placedBlocks_singleton]
    rfl

theorem blocksOf_usesLimit (p : Place) : (l : Option LimitClause) →
    blocksOfUses (usesLimit p l) = placedBlocks p (outlineLimit l)
  | none => rfl
  | some (.limitOffset limit offset _ groups) => by
    simp only [usesLimit, outlineLimit, blocksOfUses_append, placedBlocks_append,
      blocksOf_usesOption p limit, blocksOf_usesOption p offset, blocksOf_usesPieces p groups]
  | some (.offsetComma offset limit) => by
    simp only [usesLimit, outlineLimit, blocksOfUses_append, placedBlocks_append,
      offset.blocksOf_uses p, limit.blocksOf_uses p]

theorem blocksOf_usesFetch (p : Place) : (l : Option Fetch) →
    blocksOfUses (usesFetch p l) = placedBlocks p (outlineFetch l)
  | none => rfl
  | some ⟨quantity, _, _⟩ => blocksOf_usesOption p quantity

theorem Body.blocksOf_uses (p : Place) : (b : Body) →
    blocksOfUses (b.uses p) = placedBlocks p b.outline
  | .select b => by
    rw [Body.uses, Body.outline, b.blocksOf_uses p, placedBlocks_singleton]
  | .query q => by
    rw [Body.uses, Body.outline, q.blocksOf_uses p, placedBlocks_singleton]
  | .setOperation l _ r => by
    simp only [Body.uses, Body.outline, blocksOfUses_append, placedBlocks_append,
      l.blocksOf_uses p, r.blocksOf_uses p]
  | .values _ _ rows => blocksOf_usesRows p rows
  | .insert i => by
    rw [Body.uses, Body.outline, blocksOfUses_append, i.blocksOf_uses p]
    exact List.append_nil _
  | .update u => by
    rw [Body.uses, Body.outline, blocksOfUses_append, u.blocksOf_uses p]
    exact List.append_nil _
  | .delete d => by
    rw [Body.uses, Body.outline, blocksOfUses_append, d.blocksOf_uses p]
    exact List.append_nil _
  | .merge ps => blocksOf_usesPieces p ps
  | .table _ _ => rfl

/-- The blocks inside of a block and itself. -/
theorem Select.blocksOf_uses (p : Place) : (b : Select) →
    blocksOfUses (b.uses p ++ [⟨p, .select b⟩]) = (b.outline.occurrences p).map Occurrence.placed
  | ⟨_, distinct, top, projection, _, sources, beforeWhere, selection, grouping, windows, qualify,
      _, connect⟩ => by
    rw [Select.uses, Select.outline, Item.occurrences, List.map_append, blocksOfUses_append]
    refine congrArg (· ++ _) ?_
    simp only [blocksOfUses_append, blocksOf_usesPieces p distinct, blocksOf_usesPieces p top,
      blocksOf_usesItems p projection, blocksOf_usesTrees p sources,
      blocksOf_usesPieces p beforeWhere, blocksOf_usesOption p selection,
      blocksOf_usesPieces p grouping, blocksOf_usesPieces p windows, blocksOf_usesPieces p qualify,
      blocksOf_usesPieces p connect, ← placedBlocks_append]
    rfl

theorem blocksOf_usesItems (p : Place) : (is : List SelectItem) →
    blocksOfUses (usesItems p is) = placedBlocks p (outlineItems is)
  | [] => rfl
  | .expr e :: is => by
    simp only [usesItems, outlineItems, blocksOfUses_append, placedBlocks_append,
      e.blocksOf_uses p, blocksOf_usesItems p is]
  | .aliased e _ :: is => by
    simp only [usesItems, outlineItems, blocksOfUses_append, placedBlocks_append,
      e.blocksOf_uses p, blocksOf_usesItems p is]
  | .wildcard ps :: is => by
    simp only [usesItems, outlineItems, blocksOfUses_append, placedBlocks_append,
      blocksOf_usesPieces p ps, blocksOf_usesItems p is]

theorem JoinTree.blocksOf_uses (p : Place) : (t : JoinTree) →
    blocksOfUses (t.uses p) = placedBlocks p t.outline
  | ⟨relation, joins⟩ => by
    simp only [JoinTree.uses, JoinTree.outline, blocksOfUses_append, placedBlocks_append,
      relation.blocksOf_uses p, blocksOf_usesJoins p joins]

theorem blocksOf_usesTrees (p : Place) : (ts : List JoinTree) →
    blocksOfUses (usesTrees p ts) = placedBlocks p (outlineTrees ts)
  | [] => rfl
  | t :: ts => by
    simp only [usesTrees, outlineTrees, blocksOfUses_append, placedBlocks_append,
      t.blocksOf_uses p, blocksOf_usesTrees p ts]

theorem blocksOf_usesJoins (p : Place) : (js : List Join) →
    blocksOfUses (usesJoins p js) = placedBlocks p (outlineJoins js)
  | [] => rfl
  | ⟨_, _, _, relation, matching, on, _⟩ :: js => by
    simp only [usesJoins, outlineJoins, blocksOfUses_append, placedBlocks_append,
      relation.blocksOf_uses p, blocksOf_usesOption p matching, blocksOf_usesOption p on,
      blocksOf_usesJoins p js]

theorem Relation.blocksOf_uses (p : Place) : (r : Relation) →
    blocksOfUses (r.uses p) = placedBlocks p r.outline
  | .table _ _ arguments _ _ after => by
    simp only [Relation.uses, Relation.outline, blocksOfUses_append, placedBlocks_append,
      blocksOf_usesArguments p arguments, blocksOf_usesPieces p after]
  | .derived _ query _ => by
    rw [Relation.uses, Relation.outline, query.blocksOf_uses p, placedBlocks_singleton]
  | .nested tree _ => tree.blocksOf_uses p
  | .transformed _ source ps _ => by
    simp only [Relation.uses, Relation.outline, blocksOfUses_append, placedBlocks_append,
      source.blocksOf_uses p, blocksOf_usesPieces p ps]
  | .other _ ps _ _ => blocksOf_usesPieces p ps

theorem blocksOf_usesArguments (p : Place) : (ps : Option (List Piece)) →
    blocksOfUses (usesArguments p ps) = placedBlocks p (outlineArguments ps)
  | none => rfl
  | some ps => blocksOf_usesPieces p ps

theorem blocksOf_usesSource (p : Place) : (q : Option Query) →
    blocksOfUses (usesSource p q) = placedBlocks p (outlineSource q)
  | none => rfl
  | some q => by
    rw [usesSource, outlineSource, q.blocksOf_uses p, placedBlocks_singleton]

theorem Insertion.blocksOf_uses (p : Place) : (i : Insertion) →
    blocksOfUses (i.uses p) = placedBlocks p i.outline
  | ⟨_, _, _, _, partition, source, assignments, _, onConflict, returning⟩ => by
    simp only [Insertion.uses, Insertion.outline, blocksOfUses_append, placedBlocks_append,
      blocksOf_usesSource p source, blocksOf_usesAssignments p assignments,
      blocksOf_usesPieces p partition, blocksOf_usesPieces p onConflict,
      blocksOf_usesPieces p returning]

theorem blocksOf_usesAssignments (p : Place) : (as : List Assignment) →
    blocksOfUses (usesAssignments p as) = placedBlocks p (outlineAssignments as)
  | [] => rfl
  | ⟨_, value⟩ :: as => by
    simp only [usesAssignments, outlineAssignments, blocksOfUses_append, placedBlocks_append,
      value.blocksOf_uses p, blocksOf_usesAssignments p as]

theorem Update.blocksOf_uses (p : Place) : (u : Update) →
    blocksOfUses (u.uses p) = placedBlocks p u.outline
  | ⟨_, table, _, sources, assignments, selection, returning, limit⟩ => by
    simp only [Update.uses, Update.outline, blocksOfUses_append, placedBlocks_append,
      table.blocksOf_uses p, blocksOf_usesAssignments p assignments, blocksOf_usesTrees p sources,
      blocksOf_usesOption p selection, blocksOf_usesPieces p returning,
      blocksOf_usesOption p limit]

theorem Deletion.blocksOf_uses (p : Place) : (d : Deletion) →
    blocksOfUses (d.uses p) = placedBlocks p d.outline
  | ⟨_, _, sources, usingSources, selection, returning, orderBy, limit⟩ => by
    simp only [Deletion.uses, Deletion.outline, blocksOfUses_append, placedBlocks_append,
      blocksOf_usesTrees p sources, blocksOf_usesUsing p usingSources,
      blocksOf_usesOption p selection, blocksOf_usesPieces p returning,
      blocksOf_usesPieces p orderBy, blocksOf_usesOption p limit]

theorem blocksOf_usesUsing (p : Place) : (ts : Option (List JoinTree)) →
    blocksOfUses (usesUsing p ts) = placedBlocks p (outlineUsing ts)
  | none => rfl
  | some ts => blocksOf_usesTrees p ts

end

/-- **The blocks where a statement uses tables are those in its outline**, at the same places. -/
theorem Statement.blocksOf_uses (s : Statement) :
    blocksOfUses s.uses = s.occurrences.map Occurrence.placed := by
  cases s with
  | insert i =>
    rw [uses, blocksOfUses_append, i.blocksOf_uses]
    exact List.append_nil _
  | update u =>
    rw [uses, blocksOfUses_append, u.blocksOf_uses]
    exact List.append_nil _
  | delete d =>
    rw [uses, blocksOfUses_append, d.blocksOf_uses]
    exact List.append_nil _
  | select q =>
    rw [uses, q.blocksOf_uses, ← placedBlocks_singleton]
    rfl
  | other text => rfl

/-! ## Rewritten blocks -/

/-- Whether a block is what a traversal makes of another one at the same place, unless it is
aside. -/
def Rewritten (f : Scope → Select → Except PolicyError Select) (x x' : Place × Select) : Prop :=
  x'.1 = x.1 ∧ (x.1.aside = false → x.2.mapBlocks f x.1.scope = .ok x'.2)

section Rewritten

variable {f : Scope → Select → Except PolicyError Select}
  (hf : ∀ s b b', f s b = .ok b' → ∀ p, b'.uses p = b.uses p)
include hf

theorem rewrites_rewritten :
    Rewrites f fun u u' => Option.Rel (Rewritten f) u.block? u'.block? where
  aside u hu := by
    obtain ⟨p, _ | _ | _ | _ | _ | _⟩ := u
    · refine .some ⟨rfl, fun hp => ?_⟩
      rw [show p.aside = true from hu] at hp
      cases hp
    all_goals exact .none
  select p b b₁ b' hinner hb' := by
    refine ⟨.some ⟨rfl, fun _ => ?_⟩, hf _ _ _ hb' p⟩
    rw [Select.mapBlocks_eq]
    exact bind_eq_ok_iff.mpr ⟨b₁, hinner, hb'⟩
  insert _ _ _ _ _ := .none
  update _ _ _ _ _ := .none
  delete _ _ _ _ _ := .none
  table _ _ _ := .none
  relation _ _ _ _ := .none

/-- **Behind a traversal each block is what the traversal makes of the block alone**, where it
was. -/
theorem Statement.rewritten {s s' : Statement} (h : s.mapBlocks f = .ok s') :
    List.Forall₂ (Rewritten f) (s.occurrences.map Occurrence.placed)
      (s'.occurrences.map Occurrence.placed) := by
  have H := rewrites_rewritten hf
  have huses : After (fun s' => Paired (fun u u' => Option.Rel (Rewritten f) u.block? u'.block?)
      s.uses s'.uses) (s.mapBlocks f) := by
    cases s with
    | insert i => exact (i.rewrites H .outermost).map fun i' hi => hi.snoc .none
    | update u => exact (u.rewrites H .outermost).map fun u' hu => hu.snoc .none
    | delete d => exact (d.rewrites H .outermost).map fun d' hd => hd.snoc .none
    | select q => exact (q.rewrites H .outermost).map fun q' hq => hq
    | other text => exact .pure .nil
  rw [← s.blocksOf_uses, ← s'.blocksOf_uses]
  exact List.rel_filterMap (fun _ _ hu => hu) (huses s' h)

theorem Query.rewritten {p : Place} {q q' : Query} (h : q.mapBlocks f p.scope = .ok q') :
    List.Forall₂ (Rewritten f) ((q.outline.occurrences p).map Occurrence.placed)
      ((q'.outline.occurrences p).map Occurrence.placed) := by
  rw [← q.blocksOf_uses, ← q'.blocksOf_uses]
  exact List.rel_filterMap (fun _ _ hu => hu) (q.rewrites (rewrites_rewritten hf) p q' h)

end Rewritten

end RowPolicy.Sql
