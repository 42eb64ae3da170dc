import RowPolicy.Proofs.Blocks.Lockstep
import RowPolicy.Proofs.Tables.Traversal

/-!
# Traversals behind a traversal

What a traversal answers can be traversed again, with another function and in another monad. The
second traversal meets the blocks of the first, in the same order, and finds what the first has made
of them. So it can be compared with a traversal of what the first has started from: `Retraces` asks
of a relation between the two to hold block by block, and the `retraced` theorems say that it holds
for every part of a statement, by induction over the tree. The two start with scopes of their own,
which get the same names as they go.
-/

namespace RowPolicy.Sql

/-- A second traversal with `g` behind one with `f`, a traversal with `w` of what the first has
started from, and a relation between the computations of the two. The scopes of the two are
related by `S`. -/
structure Retraces {m n : Type → Type} [Monad m] [Monad n]
    (f : Scope → Select → Except PolicyError Select) (w : Scope → Select → m Select)
    (g : Scope → Select → n Select) (S : Scope → Scope → Prop)
    (R : {α : Type} → m α → n α → Prop) : Prop where
  declare : ∀ {s s₂ : Scope} (names : List String), S s s₂ →
    S (s.declare names) (s₂.declare names)
  pure : ∀ {α : Type} (a : α), R (pure a) (pure a)
  bind : ∀ {α β : Type} {x : m α} {y : n α} {k : α → m β} {k' : α → n β}, R x y →
    (∀ a, R (k a) (k' a)) → R (x >>= k) (y >>= k')
  call : ∀ {s s₂ : Scope} {b b₁ b' : Select}, S s s₂ → b.mapInner f s = .ok b₁ →
    R (b.mapInner w s₂) (b₁.mapInner g s) → f s b₁ = .ok b' →
    R (b.mapBlocks w s₂) (b'.mapBlocks g s)

section Retraces

variable {m n : Type → Type} [Monad m] [Monad n]
  {f : Scope → Select → Except PolicyError Select} {w : Scope → Select → m Select}
  {g : Scope → Select → n Select} {S : Scope → Scope → Prop}
  {R : {α : Type} → m α → n α → Prop} (H : Retraces f w g S R)
include H

mutual

theorem Expr.retraced {s s₂ : Scope} (hs : S s s₂) : (e : Expr) →
    After (fun e' => R (e.mapBlocks w s₂) (e'.mapBlocks g s)) (e.mapBlocks f s)
  | .column _ => by
    rw [Expr.mapBlocks, Expr.mapBlocks]
    refine .pure ?_
    rw [Expr.mapBlocks]
    exact H.pure _
  | .literal _ => by
    rw [Expr.mapBlocks, Expr.mapBlocks]
    refine .pure ?_
    rw [Expr.mapBlocks]
    exact H.pure _
  | .binary l _ r => by
    rw [Expr.mapBlocks, Expr.mapBlocks]
    refine (l.retraced hs).bind fun l' h1 => ?_
    exact (r.retraced hs).map fun r' h2 => by
      rw [Expr.mapBlocks]
      exact H.bind h1 fun _ => H.bind h2 fun _ => H.pure _
  | .isNull e => by
    rw [Expr.mapBlocks, Expr.mapBlocks]
    exact (e.retraced hs).map fun e' h => by
      rw [Expr.mapBlocks]
      exact H.bind h fun _ => H.pure _
  | .nested e => by
    rw [Expr.mapBlocks, Expr.mapBlocks]
    exact (e.retraced hs).map fun e' h => by
      rw [Expr.mapBlocks]
      exact H.bind h fun _ => H.pure _
  | .call _ rest => by
    rw [Expr.mapBlocks, Expr.mapBlocks]
    exact (retracedPieces hs rest).map fun rest' h => by
      rw [Expr.mapBlocks]
      exact H.bind h fun _ => H.pure _
  | .phrase ps => by
    rw [Expr.mapBlocks, Expr.mapBlocks]
    exact (retracedPieces hs ps).map fun ps' h => by
      rw [Expr.mapBlocks]
      exact H.bind h fun _ => H.pure _

theorem Piece.retraced {s s₂ : Scope} (hs : S s s₂) : (r : Piece) →
    After (fun r' => R (r.mapBlocks w s₂) (r'.mapBlocks g s)) (r.mapBlocks f s)
  | .text _ => by
    rw [Piece.mapBlocks, Piece.mapBlocks]
    refine .pure ?_
    rw [Piece.mapBlocks]
    exact H.pure _
  | .expr e => by
    rw [Piece.mapBlocks, Piece.mapBlocks]
    exact (e.retraced hs).map fun e' h => by
      rw [Piece.mapBlocks]
      exact H.bind h fun _ => H.pure _
  | .query q => by
    rw [Piece.mapBlocks, Piece.mapBlocks]
    exact (q.retraced hs).map fun q' h => by
      rw [Piece.mapBlocks]
      exact H.bind h fun _ => H.pure _
  | .relation r => by
    rw [Piece.mapBlocks, Piece.mapBlocks]
    exact (r.retraced hs).map fun r' h => by
      rw [Piece.mapBlocks]
      exact H.bind h fun _ => H.pure _
  | .swapped first second => by
    rw [Piece.mapBlocks, Piece.mapBlocks]
    refine (retracedPieces hs second).bind fun second' h1 => ?_
    exact (retracedPieces hs first).map fun first' h2 => by
      rw [Piece.mapBlocks]
      exact H.bind h1 fun _ => H.bind h2 fun _ => H.pure _

theorem retracedPieces {s s₂ : Scope} (hs : S s s₂) : (ps : List Piece) →
    After (fun ps' => R (mapBlocksPieces w s₂ ps) (mapBlocksPieces g s ps'))
      (mapBlocksPieces f s ps)
  | [] => by
    rw [mapBlocksPieces, mapBlocksPieces]
    refine .pure ?_
    rw [mapBlocksPieces]
    exact H.pure _
  | r :: ps => by
    rw [mapBlocksPieces, mapBlocksPieces]
    refine (r.retraced hs).bind fun r' h1 => ?_
    exact (retracedPieces hs ps).map fun ps' h2 => by
      rw [mapBlocksPieces]
      exact H.bind h1 fun _ => H.bind h2 fun _ => H.pure _

theorem retracedOption {s s₂ : Scope} (hs : S s s₂) : (e : Option Expr) →
    After (fun e' => R (mapBlocksOption w s₂ e) (mapBlocksOption g s e'))
      (mapBlocksOption f s e)
  | none => by
    rw [mapBlocksOption, mapBlocksOption]
    refine .pure ?_
    rw [mapBlocksOption]
    exact H.pure _
  | some e => by
    rw [mapBlocksOption, mapBlocksOption]
    exact (e.retraced hs).map fun e' h => by
      rw [mapBlocksOption]
      exact H.bind h fun _ => H.pure _

theorem retracedExprs {s s₂ : Scope} (hs : S s s₂) : (es : List Expr) →
    After (fun es' => R (mapBlocksExprs w s₂ es) (mapBlocksExprs g s es'))
      (mapBlocksExprs f s es)
  | [] => by
    rw [mapBlocksExprs, mapBlocksExprs]
    refine .pure ?_
    rw [mapBlocksExprs]
    exact H.pure _
  | e :: es => by
    rw [mapBlocksExprs, mapBlocksExprs]
    refine (e.retraced hs).bind fun e' h1 => ?_
    exact (retracedExprs hs es).map fun es' h2 => by
      rw [mapBlocksExprs]
      exact H.bind h1 fun _ => H.bind h2 fun _ => H.pure _

theorem retracedRows {s s₂ : Scope} (hs : S s s₂) : (rs : List (List Expr)) →
    After (fun rs' => R (mapBlocksRows w s₂ rs) (mapBlocksRows g s rs'))
      (mapBlocksRows f s rs)
  | [] => by
    rw [mapBlocksRows, mapBlocksRows]
    refine .pure ?_
    rw [mapBlocksRows]
    exact H.pure _
  | r :: rs => by
    rw [mapBlocksRows, mapBlocksRows]
    refine (retracedExprs hs r).bind fun r' h1 => ?_
    exact (retracedRows hs rs).map fun rs' h2 => by
      rw [mapBlocksRows]
      exact H.bind h1 fun _ => H.bind h2 fun _ => H.pure _

theorem Query.retraced {s s₂ : Scope} (hs : S s s₂) : (q : Query) →
    After (fun q' => R (q.mapBlocks w s₂) (q'.mapBlocks g s)) (q.mapBlocks f s)
  | ⟨_, ctes, body, orderBy, limit, _, fetch, _, _⟩ => by
    rw [Query.mapBlocks, Query.mapBlocks]
    have hs' := H.declare (cteNames ctes) hs
    refine (retracedCtes hs' ctes).bind fun ctes' h1 => ?_
    refine (body.retraced hs').bind fun body' h2 => ?_
    refine (retracedPieces hs' orderBy).bind fun orderBy' h3 => ?_
    refine (retracedLimit hs' limit).bind fun limit' h4 => ?_
    exact (retracedFetch hs' fetch).map fun fetch' h5 => by
      -- the second traversal sees the names that the first has seen
      rw [Query.mapBlocks, h1.2]
      exact H.bind h1.1 fun _ => H.bind h2 fun _ => H.bind h3 fun _ => H.bind h4 fun _ =>
        H.bind h5 fun _ => H.pure _

theorem retracedCtes {s s₂ : Scope} (hs : S s s₂) : (cs : List Cte) →
    After (fun cs' => R (mapBlocksCtes w s₂ cs) (mapBlocksCtes g s cs') ∧
        cteNames cs' = cteNames cs)
      (mapBlocksCtes f s cs)
  | [] => by
    rw [mapBlocksCtes, mapBlocksCtes]
    refine .pure ⟨?_, rfl⟩
    rw [mapBlocksCtes]
    exact H.pure _
  | ⟨_, _, _, query, _⟩ :: cs => by
    rw [mapBlocksCtes, mapBlocksCtes]
    refine (query.retraced hs).bind fun query' h1 => ?_
    exact (retracedCtes hs cs).map fun cs' h2 => by
      rw [mapBlocksCtes]
      exact ⟨H.bind h1 fun _ => H.bind h2.1 fun _ => H.pure _,
        by simpa [cteNames] using h2.2⟩

theorem retracedLimit {s s₂ : Scope} (hs : S s s₂) : (l : Option LimitClause) →
    After (fun l' => R (mapBlocksLimit w s₂ l) (mapBlocksLimit g s l'))
      (mapBlocksLimit f s l)
  | none => by
    rw [mapBlocksLimit, mapBlocksLimit]
    refine .pure ?_
    rw [mapBlocksLimit]
    exact H.pure _
  | some (.limitOffset limit offset _ groups) => by
    rw [mapBlocksLimit, mapBlocksLimit]
    refine (retracedOption hs limit).bind fun limit' h1 => ?_
    refine (retracedOption hs offset).bind fun offset' h2 => ?_
    exact (retracedPieces hs groups).map fun groups' h3 => by
      rw [mapBlocksLimit]
      exact H.bind h1 fun _ => H.bind h2 fun _ => H.bind h3 fun _ => H.pure _
  | some (.offsetComma offset limit) => by
    rw [mapBlocksLimit, mapBlocksLimit]
    refine (offset.retraced hs).bind fun offset' h1 => ?_
    exact (limit.retraced hs).map fun limit' h2 => by
      rw [mapBlocksLimit]
      exact H.bind h1 fun _ => H.bind h2 fun _ => H.pure _

theorem retracedFetch {s s₂ : Scope} (hs : S s s₂) : (l : Option Fetch) →
    After (fun l' => R (mapBlocksFetch w s₂ l) (mapBlocksFetch g s l'))
      (mapBlocksFetch f s l)
  | none => by
    rw [mapBlocksFetch, mapBlocksFetch]
    refine .pure ?_
    rw [mapBlocksFetch]
    exact H.pure _
  | some ⟨quantity, _, _⟩ => by
    rw [mapBlocksFetch, mapBlocksFetch]
    exact (retracedOption hs quantity).map fun quantity' h => by
      rw [mapBlocksFetch]
      exact H.bind h fun _ => H.pure _

theorem Body.retraced {s s₂ : Scope} (hs : S s s₂) : (b : Body) →
    After (fun b' => R (b.mapBlocks w s₂) (b'.mapBlocks g s)) (b.mapBlocks f s)
  | .select b => by
    rw [Body.mapBlocks, Body.mapBlocks, b.mapBlocks_eq f s]
    refine After.bind ((b.retracedInner hs).answer.bind fun b₁ h b' hb' => H.call hs h.1 h.2 hb')
      fun b' h => .pure ?_
    rw [Body.mapBlocks]
    exact H.bind h fun _ => H.pure _
  | .query q => by
    rw [Body.mapBlocks, Body.mapBlocks]
    exact (q.retraced hs).map fun q' h => by
      rw [Body.mapBlocks]
      exact H.bind h fun _ => H.pure _
  | .setOperation l _ r => by
    rw [Body.mapBlocks, Body.mapBlocks]
    refine (l.retraced hs).bind fun l' h1 => ?_
    exact (r.retraced hs).map fun r' h2 => by
      rw [Body.mapBlocks]
      exact H.bind h1 fun _ => H.bind h2 fun _ => H.pure _
  | .values _ _ rows => by
    rw [Body.mapBlocks, Body.mapBlocks]
    exact (retracedRows hs rows).map fun rows' h => by
      rw [Body.mapBlocks]
      exact H.bind h fun _ => H.pure _
  | .insert i => by
    rw [Body.mapBlocks, Body.mapBlocks]
    exact (i.retraced hs).map fun i' h => by
      rw [Body.mapBlocks]
      exact H.bind h fun _ => H.pure _
  | .update u => by
    rw [Body.mapBlocks, Body.mapBlocks]
    exact (u.retraced hs).map fun u' h => by
      rw [Body.mapBlocks]
      exact H.bind h fun _ => H.pure _
  | .delete d => by
    rw [Body.mapBlocks, Body.mapBlocks]
    exact (d.retraced hs).map fun d' h => by
      rw [Body.mapBlocks]
      exact H.bind h fun _ => H.pure _
  | .merge ps => by
    rw [Body.mapBlocks, Body.mapBlocks]
    exact (retracedPieces hs ps).map fun ps' h => by
      rw [Body.mapBlocks]
      exact H.bind h fun _ => H.pure _
  | .table _ _ => by
    rw [Body.mapBlocks, Body.mapBlocks]
    refine .pure ?_
    rw [Body.mapBlocks]
    exact H.pure _

theorem Select.retracedInner {s s₂ : Scope} (hs : S s s₂) : (b : Select) →
    After (fun b₁ => R (b.mapInner w s₂) (b₁.mapInner g s)) (b.mapInner f s)
  | ⟨_, distinct, top, projection, _, sources, beforeWhere, selection, grouping, windows, qualify,
      _, connect⟩ => by
    rw [Select.mapInner, Select.mapInner]
    refine (retracedPieces hs distinct).bind fun distinct' h1 => ?_
    refine (retracedPieces hs top).bind fun top' h2 => ?_
    refine (retracedItems hs projection).bind fun projection' h3 => ?_
    refine (retracedTrees hs sources).bind fun sources' h4 => ?_
    refine (retracedPieces hs beforeWhere).bind fun beforeWhere' h5 => ?_
    refine (retracedOption hs selection).bind fun selection' h6 => ?_
    refine (retracedPieces hs grouping).bind fun grouping' h7 => ?_
    refine (retracedPieces hs windows).bind fun windows' h8 => ?_
    refine (retracedPieces hs qualify).bind fun qualify' h9 => ?_
    exact (retracedPieces hs connect).map fun connect' h10 => by
      rw [Select.mapInner]
      exact H.bind h1 fun _ => H.bind h2 fun _ => H.bind h3 fun _ => H.bind h4 fun _ =>
        H.bind h5 fun _ => H.bind h6 fun _ => H.bind h7 fun _ => H.bind h8 fun _ =>
        H.bind h9 fun _ => H.bind h10 fun _ => H.pure _

theorem retracedItems {s s₂ : Scope} (hs : S s s₂) : (is : List SelectItem) →
    After (fun is' => R (mapBlocksItems w s₂ is) (mapBlocksItems g s is'))
      (mapBlocksItems f s is)
  | [] => by
    rw [mapBlocksItems, mapBlocksItems]
    refine .pure ?_
    rw [mapBlocksItems]
    exact H.pure _
  | .expr e :: is => by
    rw [mapBlocksItems, mapBlocksItems]
    refine (e.retraced hs).bind fun e' h1 => ?_
    exact (retracedItems hs is).map fun is' h2 => by
      rw [mapBlocksItems]
      exact H.bind h1 fun _ => H.bind h2 fun _ => H.pure _
  | .aliased e _ :: is => by
    rw [mapBlocksItems, mapBlocksItems]
    refine (e.retraced hs).bind fun e' h1 => ?_
    exact (retracedItems hs is).map fun is' h2 => by
      rw [mapBlocksItems]
      exact H.bind h1 fun _ => H.bind h2 fun _ => H.pure _
  | .wildcard ps :: is => by
    rw [mapBlocksItems, mapBlocksItems]
    refine (retracedPieces hs ps).bind fun ps' h1 => ?_
    exact (retracedItems hs is).map fun is' h2 => by
      rw [mapBlocksItems]
      exact H.bind h1 fun _ => H.bind h2 fun _ => H.pure _

theorem JoinTree.retraced {s s₂ : Scope} (hs : S s s₂) : (t : JoinTree) →
    After (fun t' => R (t.mapBlocks w s₂) (t'.mapBlocks g s)) (t.mapBlocks f s)
  | ⟨relation, joins⟩ => by
    rw [JoinTree.mapBlocks, JoinTree.mapBlocks]
    refine (relation.retraced hs).bind fun relation' h1 => ?_
    exact (retracedJoins hs joins).map fun joins' h2 => by
      rw [JoinTree.mapBlocks]
      exact H.bind h1 fun _ => H.bind h2 fun _ => H.pure _

theorem retracedTrees {s s₂ : Scope} (hs : S s s₂) : (ts : List JoinTree) →
    After (fun ts' => R (mapBlocksTrees w s₂ ts) (mapBlocksTrees g s ts'))
      (mapBlocksTrees f s ts)
  | [] => by
    rw [mapBlocksTrees, mapBlocksTrees]
    refine .pure ?_
    rw [mapBlocksTrees]
    exact H.pure _
  | t :: ts => by
    rw [mapBlocksTrees, mapBlocksTrees]
    refine (t.retraced hs).bind fun t' h1 => ?_
    exact (retracedTrees hs ts).map fun ts' h2 => by
      rw [mapBlocksTrees]
      exact H.bind h1 fun _ => H.bind h2 fun _ => H.pure _

theorem retracedJoins {s s₂ : Scope} (hs : S s s₂) : (js : List Join) →
    After (fun js' => R (mapBlocksJoins w s₂ js) (mapBlocksJoins g s js'))
      (mapBlocksJoins f s js)
  | [] => by
    rw [mapBlocksJoins, mapBlocksJoins]
    refine .pure ?_
    rw [mapBlocksJoins]
    exact H.pure _
  | ⟨_, _, _, relation, matching, on, _⟩ :: js => by
    rw [mapBlocksJoins, mapBlocksJoins]
    refine (relation.retraced hs).bind fun relation' h1 => ?_
    refine (retracedOption hs matching).bind fun matching' h2 => ?_
    refine (retracedOption hs on).bind fun on' h3 => ?_
    exact (retracedJoins hs js).map fun js' h4 => by
      rw [mapBlocksJoins]
      exact H.bind h1 fun _ => H.bind h2 fun _ => H.bind h3 fun _ => H.bind h4 fun _ => H.pure _

theorem Relation.retraced {s s₂ : Scope} (hs : S s s₂) : (r : Relation) →
    After (fun r' => R (r.mapBlocks w s₂) (r'.mapBlocks g s)) (r.mapBlocks f s)
  | .table _ _ arguments _ _ after => by
    rw [Relation.mapBlocks, Relation.mapBlocks]
    refine (retracedArguments hs arguments).bind fun arguments' h1 => ?_
    exact (retracedPieces hs after).map fun after' h2 => by
      rw [Relation.mapBlocks]
      exact H.bind h1 fun _ => H.bind h2 fun _ => H.pure _
  | .derived _ query _ => by
    rw [Relation.mapBlocks, Relation.mapBlocks]
    exact (query.retraced hs).map fun query' h => by
      rw [Relation.mapBlocks]
      exact H.bind h fun _ => H.pure _
  | .nested tree _ => by
    rw [Relation.mapBlocks, Relation.mapBlocks]
    exact (tree.retraced hs).map fun tree' h => by
      rw [Relation.mapBlocks]
      exact H.bind h fun _ => H.pure _
  | .transformed _ source ps _ => by
    rw [Relation.mapBlocks, Relation.mapBlocks]
    refine (source.retraced hs).bind fun source' h1 => ?_
    exact (retracedPieces hs ps).map fun ps' h2 => by
      rw [Relation.mapBlocks]
      exact H.bind h1 fun _ => H.bind h2 fun _ => H.pure _
  | .other _ ps _ _ => by
    rw [Relation.mapBlocks, Relation.mapBlocks]
    exact (retracedPieces hs ps).map fun ps' h => by
      rw [Relation.mapBlocks]
      exact H.bind h fun _ => H.pure _

theorem retracedArguments {s s₂ : Scope} (hs : S s s₂) : (ps : Option (List Piece)) →
    After (fun ps' => R (mapBlocksArguments w s₂ ps) (mapBlocksArguments g s ps'))
      (mapBlocksArguments f s ps)
  | none => by
    rw [mapBlocksArguments, mapBlocksArguments]
    refine .pure ?_
    rw [mapBlocksArguments]
    exact H.pure _
  | some ps => by
    rw [mapBlocksArguments, mapBlocksArguments]
    exact (retracedPieces hs ps).map fun ps' h => by
      rw [mapBlocksArguments]
      exact H.bind h fun _ => H.pure _

theorem retracedSource {s s₂ : Scope} (hs : S s s₂) : (q : Option Query) →
    After (fun q' => R (mapBlocksSource w s₂ q) (mapBlocksSource g s q'))
      (mapBlocksSource f s q)
  | none => by
    rw [mapBlocksSource, mapBlocksSource]
    refine .pure ?_
    rw [mapBlocksSource]
    exact H.pure _
  | some q => by
    rw [mapBlocksSource, mapBlocksSource]
    exact (q.retraced hs).map fun q' h => by
      rw [mapBlocksSource]
      exact H.bind h fun _ => H.pure _

theorem Insertion.retraced {s s₂ : Scope} (hs : S s s₂) : (i : Insertion) →
    After (fun i' => R (i.mapBlocks w s₂) (i'.mapBlocks g s)) (i.mapBlocks f s)
  | ⟨_, _, _, _, partition, source, assignments, _, onConflict, returning⟩ => by
    rw [Insertion.mapBlocks, Insertion.mapBlocks]
    refine (retracedSource hs source).bind fun source' h1 => ?_
    refine (retracedAssignments hs assignments).bind fun assignments' h2 => ?_
    refine (retracedPieces hs partition).bind fun partition' h3 => ?_
    refine (retracedPieces hs onConflict).bind fun onConflict' h4 => ?_
    exact (retracedPieces hs returning).map fun returning' h5 => by
      rw [Insertion.mapBlocks]
      exact H.bind h1 fun _ => H.bind h2 fun _ => H.bind h3 fun _ => H.bind h4 fun _ =>
        H.bind h5 fun _ => H.pure _

theorem retracedAssignments {s s₂ : Scope} (hs : S s s₂) : (as : List Assignment) →
    After (fun as' => R (mapBlocksAssignments w s₂ as) (mapBlocksAssignments g s as'))
      (mapBlocksAssignments f s as)
  | [] => by
    rw [mapBlocksAssignments, mapBlocksAssignments]
    refine .pure ?_
    rw [mapBlocksAssignments]
    exact H.pure _
  | ⟨_, value⟩ :: as => by
    rw [mapBlocksAssignments, mapBlocksAssignments]
    refine (value.retraced hs).bind fun value' h1 => ?_
    exact (retracedAssignments hs as).map fun as' h2 => by
      rw [mapBlocksAssignments]
      exact H.bind h1 fun _ => H.bind h2 fun _ => H.pure _

theorem Update.retraced {s s₂ : Scope} (hs : S s s₂) : (u : Update) →
    After (fun u' => R (u.mapBlocks w s₂) (u'.mapBlocks g s)) (u.mapBlocks f s)
  | ⟨_, table, _, sources, assignments, selection, returning, limit⟩ => by
    rw [Update.mapBlocks, Update.mapBlocks]
    refine (table.retraced hs).bind fun table' h1 => ?_
    refine (retracedAssignments hs assignments).bind fun assignments' h2 => ?_
    refine (retracedTrees hs sources).bind fun sources' h3 => ?_
    refine (retracedOption hs selection).bind fun selection' h4 => ?_
    refine (retracedPieces hs returning).bind fun returning' h5 => ?_
    exact (retracedOption hs limit).map fun limit' h6 => by
      rw [Update.mapBlocks]
      exact H.bind h1 fun _ => H.bind h2 fun _ => H.bind h3 fun _ => H.bind h4 fun _ =>
        H.bind h5 fun _ => H.bind h6 fun _ => H.pure _

theorem Deletion.retraced {s s₂ : Scope} (hs : S s s₂) : (d : Deletion) →
    After (fun d' => R (d.mapBlocks w s₂) (d'.mapBlocks g s)) (d.mapBlocks f s)
  | ⟨_, _, sources, usingSources, selection, returning, orderBy, limit⟩ => by
    rw [Deletion.mapBlocks, Deletion.mapBlocks]
    refine (retracedTrees hs sources).bind fun sources' h1 => ?_
    refine (retracedUsing hs usingSources).bind fun usingSources' h2 => ?_
    refine (retracedOption hs selection).bind fun selection' h3 => ?_
    refine (retracedPieces hs returning).bind fun returning' h4 => ?_
    refine (retracedPieces hs orderBy).bind fun orderBy' h5 => ?_
    exact (retracedOption hs limit).map fun limit' h6 => by
      rw [Deletion.mapBlocks]
      exact H.bind h1 fun _ => H.bind h2 fun _ => H.bind h3 fun _ => H.bind h4 fun _ =>
        H.bind h5 fun _ => H.bind h6 fun _ => H.pure _

theorem retracedUsing {s s₂ : Scope} (hs : S s s₂) : (ts : Option (List JoinTree)) →
    After (fun ts' => R (mapBlocksUsing w s₂ ts) (mapBlocksUsing g s ts'))
      (mapBlocksUsing f s ts)
  | none => by
    rw [mapBlocksUsing, mapBlocksUsing]
    refine .pure ?_
    rw [mapBlocksUsing]
    exact H.pure _
  | some ts => by
    rw [mapBlocksUsing, mapBlocksUsing]
    exact (retracedTrees hs ts).map fun ts' h => by
      rw [mapBlocksUsing]
      exact H.bind h fun _ => H.pure _

end

theorem Select.retraced {s s₂ : Scope} (hs : S s s₂) (b : Select) :
    After (fun b' => R (b.mapBlocks w s₂) (b'.mapBlocks g s)) (b.mapBlocks f s) := by
  rw [b.mapBlocks_eq f s]
  exact (b.retracedInner H hs).answer.bind fun b₁ h b' hb' => H.call hs h.1 h.2 hb'

end Retraces

end RowPolicy.Sql
