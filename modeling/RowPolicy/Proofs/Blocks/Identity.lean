import RowPolicy.Proofs.Blocks.Lockstep

/-!
# Traversals that change nothing

A traversal with a function that answers each block with the block itself answers each part of a
statement with the part itself.
-/

namespace RowPolicy.Sql

section Identity

variable {m : Type → Type} [Monad m] [LawfulMonad m]

mutual

theorem Expr.mapBlocks_pure (s : Scope) : (e : Expr) →
    e.mapBlocks (fun _ b => pure b) s = (pure e : m _)
  | .column _ => by
    rw [Expr.mapBlocks]
  | .literal _ => by
    rw [Expr.mapBlocks]
  | .binary l _ r => by
    simp only [Expr.mapBlocks, l.mapBlocks_pure s, r.mapBlocks_pure s, pure_bind]
  | .isNull e => by
    simp only [Expr.mapBlocks, e.mapBlocks_pure s, pure_bind]
  | .nested e => by
    simp only [Expr.mapBlocks, e.mapBlocks_pure s, pure_bind]
  | .call _ rest => by
    simp only [Expr.mapBlocks, mapBlocksPieces_pure s rest, pure_bind]
  | .phrase ps => by
    simp only [Expr.mapBlocks, mapBlocksPieces_pure s ps, pure_bind]

theorem Piece.mapBlocks_pure (s : Scope) : (r : Piece) →
    r.mapBlocks (fun _ b => pure b) s = (pure r : m _)
  | .text _ => by
    rw [Piece.mapBlocks]
  | .expr e => by
    simp only [Piece.mapBlocks, e.mapBlocks_pure s, pure_bind]
  | .query q => by
    simp only [Piece.mapBlocks, q.mapBlocks_pure s, pure_bind]
  | .relation r => by
    simp only [Piece.mapBlocks, r.mapBlocks_pure s, pure_bind]
  | .swapped first second => by
    simp only [Piece.mapBlocks, mapBlocksPieces_pure s second, mapBlocksPieces_pure s first,
      pure_bind]

theorem mapBlocksPieces_pure (s : Scope) : (ps : List Piece) →
    mapBlocksPieces (fun _ b => pure b) s ps = (pure ps : m _)
  | [] => by
    rw [mapBlocksPieces]
  | r :: ps => by
    simp only [mapBlocksPieces, r.mapBlocks_pure s, mapBlocksPieces_pure s ps, pure_bind]

theorem mapBlocksOption_pure (s : Scope) : (e : Option Expr) →
    mapBlocksOption (fun _ b => pure b) s e = (pure e : m _)
  | none => by
    rw [mapBlocksOption]
  | some e => by
    simp only [mapBlocksOption, e.mapBlocks_pure s, pure_bind]

theorem mapBlocksExprs_pure (s : Scope) : (es : List Expr) →
    mapBlocksExprs (fun _ b => pure b) s es = (pure es : m _)
  | [] => by
    rw [mapBlocksExprs]
  | e :: es => by
    simp only [mapBlocksExprs, e.mapBlocks_pure s, mapBlocksExprs_pure s es, pure_bind]

theorem mapBlocksRows_pure (s : Scope) : (rs : List (List Expr)) →
    mapBlocksRows (fun _ b => pure b) s rs = (pure rs : m _)
  | [] => by
    rw [mapBlocksRows]
  | r :: rs => by
    simp only [mapBlocksRows, mapBlocksExprs_pure s r, mapBlocksRows_pure s rs, pure_bind]

theorem Query.mapBlocks_pure (s : Scope) : (q : Query) →
    q.mapBlocks (fun _ b => pure b) s = (pure q : m _)
  | ⟨_, ctes, body, orderBy, limit, _, fetch, _, _⟩ => by
    simp only [Query.mapBlocks, mapBlocksCtes_pure _ ctes, body.mapBlocks_pure _,
      mapBlocksPieces_pure _ orderBy, mapBlocksLimit_pure _ limit, mapBlocksFetch_pure _ fetch,
      pure_bind]

theorem mapBlocksCtes_pure (s : Scope) : (cs : List Cte) →
    mapBlocksCtes (fun _ b => pure b) s cs = (pure cs : m _)
  | [] => by
    rw [mapBlocksCtes]
  | ⟨_, _, _, query, _⟩ :: cs => by
    simp only [mapBlocksCtes, query.mapBlocks_pure s, mapBlocksCtes_pure s cs, pure_bind]

theorem mapBlocksLimit_pure (s : Scope) : (l : Option LimitClause) →
    mapBlocksLimit (fun _ b => pure b) s l = (pure l : m _)
  | none => by
    rw [mapBlocksLimit]
  | some (.limitOffset limit offset _ groups) => by
    simp only [mapBlocksLimit, mapBlocksOption_pure s limit, mapBlocksOption_pure s offset,
      mapBlocksPieces_pure s groups, pure_bind]
  | some (.offsetComma offset limit) => by
    simp only [mapBlocksLimit, offset.mapBlocks_pure s, limit.mapBlocks_pure s, pure_bind]

theorem mapBlocksFetch_pure (s : Scope) : (l : Option Fetch) →
    mapBlocksFetch (fun _ b => pure b) s l = (pure l : m _)
  | none => by
    rw [mapBlocksFetch]
  | some ⟨quantity, _, _⟩ => by
    simp only [mapBlocksFetch, mapBlocksOption_pure s quantity, pure_bind]

theorem Body.mapBlocks_pure (s : Scope) : (b : Body) →
    b.mapBlocks (fun _ b => pure b) s = (pure b : m _)
  | .select b => by
    simp only [Body.mapBlocks, b.mapBlocks_pure s, pure_bind]
  | .query q => by
    simp only [Body.mapBlocks, q.mapBlocks_pure s, pure_bind]
  | .setOperation l _ r => by
    simp only [Body.mapBlocks, l.mapBlocks_pure s, r.mapBlocks_pure s, pure_bind]
  | .values _ _ rows => by
    simp only [Body.mapBlocks, mapBlocksRows_pure s rows, pure_bind]
  | .insert i => by
    simp only [Body.mapBlocks, i.mapBlocks_pure s, pure_bind]
  | .update u => by
    simp only [Body.mapBlocks, u.mapBlocks_pure s, pure_bind]
  | .delete d => by
    simp only [Body.mapBlocks, d.mapBlocks_pure s, pure_bind]
  | .merge ps => by
    simp only [Body.mapBlocks, mapBlocksPieces_pure s ps, pure_bind]
  | .table _ _ => by
    rw [Body.mapBlocks]

theorem Select.mapBlocks_pure (s : Scope) : (b : Select) →
    b.mapBlocks (fun _ b => pure b) s = (pure b : m _)
  | ⟨_, distinct, top, projection, _, sources, beforeWhere, selection, grouping, windows, qualify,
      _, connect⟩ => by
    simp only [Select.mapBlocks, mapBlocksPieces_pure s distinct, mapBlocksPieces_pure s top,
      mapBlocksItems_pure s projection, mapBlocksTrees_pure s sources,
      mapBlocksPieces_pure s beforeWhere, mapBlocksOption_pure s selection,
      mapBlocksPieces_pure s grouping, mapBlocksPieces_pure s windows,
      mapBlocksPieces_pure s qualify, mapBlocksPieces_pure s connect, pure_bind]

theorem mapBlocksItems_pure (s : Scope) : (is : List SelectItem) →
    mapBlocksItems (fun _ b => pure b) s is = (pure is : m _)
  | [] => by
    rw [mapBlocksItems]
  | .expr e :: is => by
    simp only [mapBlocksItems, e.mapBlocks_pure s, mapBlocksItems_pure s is, pure_bind]
  | .aliased e _ :: is => by
    simp only [mapBlocksItems, e.mapBlocks_pure s, mapBlocksItems_pure s is, pure_bind]
  | .wildcard ps :: is => by
    simp only [mapBlocksItems, mapBlocksPieces_pure s ps, mapBlocksItems_pure s is, pure_bind]

theorem JoinTree.mapBlocks_pure (s : Scope) : (t : JoinTree) →
    t.mapBlocks (fun _ b => pure b) s = (pure t : m _)
  | ⟨relation, joins⟩ => by
    simp only [JoinTree.mapBlocks, relation.mapBlocks_pure s, mapBlocksJoins_pure s joins,
      pure_bind]

theorem mapBlocksTrees_pure (s : Scope) : (ts : List JoinTree) →
    mapBlocksTrees (fun _ b => pure b) s ts = (pure ts : m _)
  | [] => by
    rw [mapBlocksTrees]
  | t :: ts => by
    simp only [mapBlocksTrees, t.mapBlocks_pure s, mapBlocksTrees_pure s ts, pure_bind]

theorem mapBlocksJoins_pure (s : Scope) : (js : List Join) →
    mapBlocksJoins (fun _ b => pure b) s js = (pure js : m _)
  | [] => by
    rw [mapBlocksJoins]
  | ⟨_, _, _, relation, matching, on, _⟩ :: js => by
    simp only [mapBlocksJoins, relation.mapBlocks_pure s, mapBlocksOption_pure s matching,
      mapBlocksOption_pure s on, mapBlocksJoins_pure s js, pure_bind]

theorem Relation.mapBlocks_pure (s : Scope) : (r : Relation) →
    r.mapBlocks (fun _ b => pure b) s = (pure r : m _)
  | .table _ _ arguments _ _ after => by
    simp only [Relation.mapBlocks, mapBlocksArguments_pure s arguments,
      mapBlocksPieces_pure s after, pure_bind]
  | .derived _ query _ => by
    simp only [Relation.mapBlocks, query.mapBlocks_pure s, pure_bind]
  | .nested tree _ => by
    simp only [Relation.mapBlocks, tree.mapBlocks_pure s, pure_bind]
  | .transformed _ source ps _ => by
    simp only [Relation.mapBlocks, source.mapBlocks_pure s, mapBlocksPieces_pure s ps, pure_bind]
  | .other _ ps _ _ => by
    simp only [Relation.mapBlocks, mapBlocksPieces_pure s ps, pure_bind]

theorem mapBlocksArguments_pure (s : Scope) : (ps : Option (List Piece)) →
    mapBlocksArguments (fun _ b => pure b) s ps = (pure ps : m _)
  | none => by
    rw [mapBlocksArguments]
  | some ps => by
    simp only [mapBlocksArguments, mapBlocksPieces_pure s ps, pure_bind]

theorem mapBlocksSource_pure (s : Scope) : (q : Option Query) →
    mapBlocksSource (fun _ b => pure b) s q = (pure q : m _)
  | none => by
    rw [mapBlocksSource]
  | some q => by
    simp only [mapBlocksSource, q.mapBlocks_pure s, pure_bind]

theorem Insertion.mapBlocks_pure (s : Scope) : (i : Insertion) →
    i.mapBlocks (fun _ b => pure b) s = (pure i : m _)
  | ⟨_, _, _, _, partition, source, assignments, _, onConflict, returning⟩ => by
    simp only [Insertion.mapBlocks, mapBlocksSource_pure s source,
      mapBlocksAssignments_pure s assignments, mapBlocksPieces_pure s partition,
      mapBlocksPieces_pure s onConflict, mapBlocksPieces_pure s returning, pure_bind]

theorem mapBlocksAssignments_pure (s : Scope) : (as : List Assignment) →
    mapBlocksAssignments (fun _ b => pure b) s as = (pure as : m _)
  | [] => by
    rw [mapBlocksAssignments]
  | ⟨_, value⟩ :: as => by
    simp only [mapBlocksAssignments, value.mapBlocks_pure s, mapBlocksAssignments_pure s as,
      pure_bind]

theorem Update.mapBlocks_pure (s : Scope) : (u : Update) →
    u.mapBlocks (fun _ b => pure b) s = (pure u : m _)
  | ⟨_, table, _, sources, assignments, selection, returning, limit⟩ => by
    simp only [Update.mapBlocks, table.mapBlocks_pure s, mapBlocksAssignments_pure s assignments,
      mapBlocksTrees_pure s sources, mapBlocksOption_pure s selection,
      mapBlocksPieces_pure s returning, mapBlocksOption_pure s limit, pure_bind]

theorem Deletion.mapBlocks_pure (s : Scope) : (d : Deletion) →
    d.mapBlocks (fun _ b => pure b) s = (pure d : m _)
  | ⟨_, _, sources, usingSources, selection, returning, orderBy, limit⟩ => by
    simp only [Deletion.mapBlocks, mapBlocksTrees_pure s sources,
      mapBlocksUsing_pure s usingSources, mapBlocksOption_pure s selection,
      mapBlocksPieces_pure s returning, mapBlocksPieces_pure s orderBy,
      mapBlocksOption_pure s limit, pure_bind]

theorem mapBlocksUsing_pure (s : Scope) : (ts : Option (List JoinTree)) →
    mapBlocksUsing (fun _ b => pure b) s ts = (pure ts : m _)
  | none => by
    rw [mapBlocksUsing]
  | some ts => by
    simp only [mapBlocksUsing, mapBlocksTrees_pure s ts, pure_bind]

end

theorem Select.mapInner_pure (b : Select) :
    b.mapInner (fun _ b => pure b) s = (pure b : m _) := by
  cases b
  simp only [Select.mapInner, mapBlocksPieces_pure, mapBlocksItems_pure, mapBlocksTrees_pure,
    mapBlocksOption_pure, pure_bind]

end Identity

end RowPolicy.Sql
