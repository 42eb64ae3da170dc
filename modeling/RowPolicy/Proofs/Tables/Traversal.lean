import Mathlib.Data.List.Forall2
import RowPolicy.Error
import RowPolicy.Proofs.Tables.Uses

/-!
# Uses of tables before and behind a traversal

A traversal changes select blocks and leaves everything around them. So the uses of tables that a
statement has before and behind it are pairs, one by one, at the same places: whatever relates the
two sides of each pair relates the statements. `Rewrites` is what is asked of such a relation, and
the `rewrites` theorems give the pairs for every part of a statement, by induction over the tree.
-/

namespace RowPolicy.Sql

/-! ## Answers of computations that may fail -/

section After

variable {α β : Type} {P : α → Prop} {Q : β → Prop} {x : Except PolicyError α}

/-- Whether the answer of a computation, if it has one, satisfies `P`. -/
def After (P : α → Prop) (x : Except PolicyError α) : Prop :=
  ∀ a, x = .ok a → P a

theorem After.any (x : Except PolicyError α) : After (fun _ => True) x :=
  fun _ _ => trivial

theorem After.pure {a : α} (h : P a) : After P (pure a) := by
  rintro b ⟨⟩
  exact h

theorem After.bind {k : α → Except PolicyError β} (h : After P x)
    (hk : ∀ a, P a → After Q (k a)) : After Q (x >>= k) := by
  intro b hb
  cases x with
  | error e => cases hb
  | ok a => exact hk a (h a rfl) b hb

theorem After.map {g : α → β} (h : After P x) (hg : ∀ a, P a → Q (g a)) :
    After Q (x >>= fun a => Pure.pure (g a)) :=
  h.bind fun a ha => .pure (hg a ha)

/-- The answer of a computation is the answer that it gives. -/
theorem After.answer (h : After P x) : After (fun a => x = .ok a ∧ P a) x :=
  fun a ha => ⟨ha, h a ha⟩

end After

/-! ## Traversals -/

/-- A relation between uses that a traversal with `f` keeps. It is about what a traversal leaves of
sites; that of a select block has the same sites inside. Data are changed inside of queries only. -/
structure Rewrites (f : Scope → Select → Except PolicyError Select) (R : Use → Use → Prop) :
    Prop where
  aside : ∀ u : Use, u.place.aside = true → R u u
  select : ∀ (p : Place) (b b₁ b' : Select), b.mapInner f p.scope = .ok b₁ →
    f p.scope b₁ = .ok b' → R ⟨p, .select b⟩ ⟨p, .select b'⟩ ∧ b'.uses p = b₁.uses p
  insert : ∀ (p : Place) (i i' : Insertion), p.frames ≠ [] → i.mapBlocks f p.scope = .ok i' →
    R ⟨p, .insert i⟩ ⟨p, .insert i'⟩
  update : ∀ (p : Place) (u u' : Update), p.frames ≠ [] → u.mapBlocks f p.scope = .ok u' →
    R ⟨p, .update u⟩ ⟨p, .update u'⟩
  delete : ∀ (p : Place) (d d' : Deletion), p.frames ≠ [] → d.mapBlocks f p.scope = .ok d' →
    R ⟨p, .delete d⟩ ⟨p, .delete d'⟩
  table : ∀ (p : Place) (schema : Option String) (name : String),
    R ⟨p, .table schema name⟩ ⟨p, .table schema name⟩
  relation : ∀ (p : Place) (r r' : Relation), r.mapBlocks f p.scope = .ok r' →
    R ⟨p, .relation r⟩ ⟨p, .relation r'⟩

/-- Whether uses are related to others, one by one. -/
abbrev Paired (R : Use → Use → Prop) (us : List Use) (us' : List Use) : Prop :=
  List.Forall₂ R us us'

theorem Paired.append {R : Use → Use → Prop} {us us' vs vs' : List Use} (h : Paired R us us')
    (h' : Paired R vs vs') : Paired R (us ++ vs) (us' ++ vs') :=
  List.rel_append h h'

theorem Paired.snoc {R : Use → Use → Prop} {us us' : List Use} {u u' : Use} (h : Paired R us us')
    (h' : R u u') : Paired R (us ++ [u]) (us' ++ [u']) :=
  h.append (.cons h' .nil)

theorem place_enter_frames_ne_nil (p : Place) (f : Frame) : (p.enter f).frames ≠ [] := by
  simp [Place.enter]

section Rewrites

variable {f : Scope → Select → Except PolicyError Select} {R : Use → Use → Prop}
  (H : Rewrites f R)
include H

-- the statements below do not mention `H`, which all of their proofs pass on
set_option linter.unusedSectionVars false

/-- What is aside stays as it is. -/
theorem Rewrites.setAside (us : List Use) :
    Paired R (us.map Use.setAside) (us.map Use.setAside) := by
  refine List.forall₂_same.mpr fun u hu => H.aside u ?_
  obtain ⟨v, -, rfl⟩ := List.mem_map.mp hu
  rfl

mutual

theorem Expr.rewrites (p : Place) : (e : Expr) →
    After (fun e' => Paired R (e.uses p) (e'.uses p))
      (e.mapBlocks f p.scope)
  | .column _ => by
    rw [Expr.mapBlocks]
    exact .pure .nil
  | .literal _ => by
    rw [Expr.mapBlocks]
    exact .pure .nil
  | .binary l _ r => by
    rw [Expr.mapBlocks]
    refine (l.rewrites p).bind fun l' h1 => ?_
    exact (r.rewrites p).map fun r' h2 => by
      rw [Expr.uses, Expr.uses]
      exact h1.append h2
  | .isNull e => by
    rw [Expr.mapBlocks]
    exact (e.rewrites p).map fun e' h => by
      rw [Expr.uses, Expr.uses]
      exact h
  | .nested e => by
    rw [Expr.mapBlocks]
    exact (e.rewrites p).map fun e' h => by
      rw [Expr.uses, Expr.uses]
      exact h
  | .call _ rest => by
    rw [Expr.mapBlocks]
    exact (rewritesPieces p rest).map fun rest' h => by
      rw [Expr.uses, Expr.uses]
      exact h
  | .phrase ps => by
    rw [Expr.mapBlocks]
    exact (rewritesPieces p ps).map fun ps' h => by
      rw [Expr.uses, Expr.uses]
      exact h

theorem Piece.rewrites (p : Place) : (r : Piece) →
    After (fun r' => Paired R (r.uses p) (r'.uses p)) (r.mapBlocks f p.scope)
  | .text _ => by
    rw [Piece.mapBlocks]
    exact .pure .nil
  | .expr e => by
    rw [Piece.mapBlocks]
    exact (e.rewrites p).map fun e' h => by
      rw [Piece.uses, Piece.uses]
      exact h
  | .query q => by
    rw [Piece.mapBlocks]
    exact (q.rewrites p).map fun q' h => by
      rw [Piece.uses, Piece.uses]
      exact h
  | .relation r => by
    rw [Piece.mapBlocks]
    exact (r.rewrites p).answer.map fun r' h => by
      rw [Piece.uses, Piece.uses]
      exact h.2.snoc (H.relation p r r' h.1)
  | .swapped first second => by
    rw [Piece.mapBlocks]
    refine (rewritesPieces p second).bind fun second' h1 => ?_
    exact (rewritesPieces p first).map fun first' h2 => by
      rw [Piece.uses, Piece.uses]
      exact h1.append h2

theorem rewritesPieces (p : Place) : (ps : List Piece) →
    After (fun ps' => Paired R (usesPieces p ps) (usesPieces p ps'))
      (mapBlocksPieces f p.scope ps)
  | [] => by
    rw [mapBlocksPieces]
    exact .pure .nil
  | r :: ps => by
    rw [mapBlocksPieces]
    refine (r.rewrites p).bind fun r' h1 => ?_
    exact (rewritesPieces p ps).map fun ps' h2 => by
      rw [usesPieces, usesPieces]
      exact h1.append h2

theorem rewritesOption (p : Place) : (e : Option Expr) →
    After (fun e' => Paired R (usesOption p e) (usesOption p e'))
      (mapBlocksOption f p.scope e)
  | none => by
    rw [mapBlocksOption]
    exact .pure .nil
  | some e => by
    rw [mapBlocksOption]
    exact (e.rewrites p).map fun e' h => by
      rw [usesOption, usesOption]
      exact h

theorem rewritesExprs (p : Place) : (es : List Expr) →
    After (fun es' => Paired R (usesExprs p es) (usesExprs p es'))
      (mapBlocksExprs f p.scope es)
  | [] => by
    rw [mapBlocksExprs]
    exact .pure .nil
  | e :: es => by
    rw [mapBlocksExprs]
    refine (e.rewrites p).bind fun e' h1 => ?_
    exact (rewritesExprs p es).map fun es' h2 => by
      rw [usesExprs, usesExprs]
      exact h1.append h2

theorem rewritesRows (p : Place) : (rs : List (List Expr)) →
    After (fun rs' => Paired R (usesRows p rs) (usesRows p rs'))
      (mapBlocksRows f p.scope rs)
  | [] => by
    rw [mapBlocksRows]
    exact .pure .nil
  | r :: rs => by
    rw [mapBlocksRows]
    refine (rewritesExprs p r).bind fun r' h1 => ?_
    exact (rewritesRows p rs).map fun rs' h2 => by
      rw [usesRows, usesRows]
      exact h1.append h2

theorem Query.rewrites (p : Place) : (q : Query) →
    After (fun q' => Paired R (q.uses p) (q'.uses p)) (q.mapBlocks f p.scope)
  | ⟨recursive, ctes, body, orderBy, limit, settings, fetch, _, chain⟩ => by
    -- the place in the query, outside of its `WITH`
    let inner := p.enter ⟨recursive, cteNames ctes, none⟩
    have hscope : inner.scope = p.scope.declare (cteNames ctes) := p.scope_enter _
    have hframes : inner.frames ≠ [] := place_enter_frames_ne_nil p _
    have hctes := rewritesCtes p recursive (cteNames ctes) 0 ctes
    rw [Query.mapBlocks]
    simp only [← hscope] at hctes ⊢
    refine hctes.bind fun ctes' h1 => ?_
    refine (body.rewrites hframes).bind fun body' h2 => ?_
    refine (rewritesPieces inner orderBy).bind fun orderBy' h3 => ?_
    refine (rewritesLimit inner limit).bind fun limit' h4 => ?_
    exact (rewritesFetch inner fetch).map fun fetch' h5 => by
      rw [Query.uses, Query.uses, h1.2]
      exact h1.1.append (h2.append (h3.append (h4.append (h5.append (H.setAside _)))))

theorem rewritesCtes (p : Place) (recursive : Bool) (names : List String) (k : Nat) :
    (cs : List Cte) →
    After (fun cs' =>
        Paired R (usesCtes p recursive names k cs) (usesCtes p recursive names k cs') ∧
          cteNames cs' = cteNames cs)
      (mapBlocksCtes f (p.scope.declare names) cs)
  | [] => by
    rw [mapBlocksCtes]
    exact .pure ⟨.nil, rfl⟩
  | ⟨_, _, _, query, _⟩ :: cs => by
    let inner := p.enter ⟨recursive, names, some k⟩
    have hscope : inner.scope = p.scope.declare names := p.scope_enter _
    have hcs := rewritesCtes p recursive names (k + 1) cs
    rw [mapBlocksCtes]
    simp only [← hscope] at hcs ⊢
    refine (query.rewrites inner).bind fun query' h1 => ?_
    exact hcs.map fun cs' h2 => by
      rw [usesCtes, usesCtes]
      exact ⟨h1.append h2.1, by simpa [cteNames] using h2.2⟩

theorem rewritesLimit (p : Place) : (l : Option LimitClause) →
    After (fun l' => Paired R (usesLimit p l) (usesLimit p l'))
      (mapBlocksLimit f p.scope l)
  | none => by
    rw [mapBlocksLimit]
    exact .pure .nil
  | some (.limitOffset limit offset _ groups) => by
    rw [mapBlocksLimit]
    refine (rewritesOption p limit).bind fun limit' h1 => ?_
    refine (rewritesOption p offset).bind fun offset' h2 => ?_
    exact (rewritesPieces p groups).map fun groups' h3 => by
      rw [usesLimit, usesLimit]
      exact h1.append (h2.append h3)
  | some (.offsetComma offset limit) => by
    rw [mapBlocksLimit]
    refine (offset.rewrites p).bind fun offset' h1 => ?_
    exact (limit.rewrites p).map fun limit' h2 => by
      rw [usesLimit, usesLimit]
      exact h1.append h2

theorem rewritesFetch (p : Place) : (l : Option Fetch) →
    After (fun l' => Paired R (usesFetch p l) (usesFetch p l'))
      (mapBlocksFetch f p.scope l)
  | none => by
    rw [mapBlocksFetch]
    exact .pure .nil
  | some ⟨quantity, _, _⟩ => by
    rw [mapBlocksFetch]
    exact (rewritesOption p quantity).map fun quantity' h => by
      rw [usesFetch, usesFetch]
      exact h

theorem Body.rewrites {p : Place} (hp : p.frames ≠ []) : (b : Body) →
    After (fun b' => Paired R (b.uses p) (b'.uses p)) (b.mapBlocks f p.scope)
  | .select b => by
    rw [Body.mapBlocks]
    exact (b.rewrites p).map fun b' h => by
      rw [Body.uses, Body.uses]
      exact h
  | .query q => by
    rw [Body.mapBlocks]
    exact (q.rewrites p).map fun q' h => by
      rw [Body.uses, Body.uses]
      exact h
  | .setOperation l _ r => by
    rw [Body.mapBlocks]
    refine (l.rewrites hp).bind fun l' h1 => ?_
    exact (r.rewrites hp).map fun r' h2 => by
      rw [Body.uses, Body.uses]
      exact h1.append h2
  | .values _ _ rows => by
    rw [Body.mapBlocks]
    exact (rewritesRows p rows).map fun rows' h => by
      rw [Body.uses, Body.uses]
      exact h
  | .insert i => by
    rw [Body.mapBlocks]
    exact (i.rewrites p).answer.map fun i' h => by
      rw [Body.uses, Body.uses]
      exact h.2.snoc (H.insert p i i' hp h.1)
  | .update u => by
    rw [Body.mapBlocks]
    exact (u.rewrites p).answer.map fun u' h => by
      rw [Body.uses, Body.uses]
      exact h.2.snoc (H.update p u u' hp h.1)
  | .delete d => by
    rw [Body.mapBlocks]
    exact (d.rewrites p).answer.map fun d' h => by
      rw [Body.uses, Body.uses]
      exact h.2.snoc (H.delete p d d' hp h.1)
  | .merge ps => by
    rw [Body.mapBlocks]
    exact (rewritesPieces p ps).map fun ps' h => by
      rw [Body.uses, Body.uses]
      exact h
  | .table schema name => by
    rw [Body.mapBlocks]
    exact .pure (.cons (H.table p schema name) .nil)

theorem Select.rewrites (p : Place) : (b : Select) →
    After (fun b' => Paired R (b.uses p ++ [⟨p, .select b⟩]) (b'.uses p ++ [⟨p, .select b'⟩]))
      (b.mapBlocks f p.scope)
  | ⟨form, distinct, top, projection, into, sources, beforeWhere, selection, grouping, windows,
      qualify, windowsFirst, connect⟩ => by
    let b : Select := ⟨form, distinct, top, projection, into, sources, beforeWhere, selection,
      grouping, windows, qualify, windowsFirst, connect⟩
    have inside : After (fun b₁ => Paired R (b.uses p) (b₁.uses p)) (b.mapInner f p.scope) := by
      rw [Select.mapInner]
      refine (rewritesPieces p distinct).bind fun distinct' h1 => ?_
      refine (rewritesPieces p top).bind fun top' h2 => ?_
      refine (rewritesItems p projection).bind fun projection' h3 => ?_
      refine (rewritesTrees p sources).bind fun sources' h4 => ?_
      refine (rewritesPieces p beforeWhere).bind fun beforeWhere' h5 => ?_
      refine (rewritesOption p selection).bind fun selection' h6 => ?_
      refine (rewritesPieces p grouping).bind fun grouping' h7 => ?_
      refine (rewritesPieces p windows).bind fun windows' h8 => ?_
      refine (rewritesPieces p qualify).bind fun qualify' h9 => ?_
      exact (rewritesPieces p connect).map fun connect' h10 => by
        rw [Select.uses, Select.uses]
        exact h1.append (h2.append (h3.append (h4.append (h5.append (h6.append (h7.append
          (h8.append (h9.append h10))))))))
    rw [Select.mapBlocks_eq]
    refine inside.answer.bind fun b₁ h b' hb' => ?_
    obtain ⟨hR, huses⟩ := H.select p b b₁ b' h.1 hb'
    rw [huses]
    exact h.2.snoc hR

theorem rewritesItems (p : Place) : (is : List SelectItem) →
    After (fun is' => Paired R (usesItems p is) (usesItems p is'))
      (mapBlocksItems f p.scope is)
  | [] => by
    rw [mapBlocksItems]
    exact .pure .nil
  | .expr e :: is => by
    rw [mapBlocksItems]
    refine (e.rewrites p).bind fun e' h1 => ?_
    exact (rewritesItems p is).map fun is' h2 => by
      rw [usesItems, usesItems]
      exact h1.append h2
  | .aliased e _ :: is => by
    rw [mapBlocksItems]
    refine (e.rewrites p).bind fun e' h1 => ?_
    exact (rewritesItems p is).map fun is' h2 => by
      rw [usesItems, usesItems]
      exact h1.append h2
  | .wildcard ps :: is => by
    rw [mapBlocksItems]
    refine (rewritesPieces p ps).bind fun ps' h1 => ?_
    exact (rewritesItems p is).map fun is' h2 => by
      rw [usesItems, usesItems]
      exact h1.append h2

theorem JoinTree.rewrites (p : Place) : (t : JoinTree) →
    After (fun t' => Paired R (t.uses p) (t'.uses p))
      (t.mapBlocks f p.scope)
  | ⟨relation, joins⟩ => by
    rw [JoinTree.mapBlocks]
    refine (relation.rewrites p).bind fun relation' h1 => ?_
    exact (rewritesJoins p joins).map fun joins' h2 => by
      rw [JoinTree.uses, JoinTree.uses]
      exact h1.append h2

theorem rewritesTrees (p : Place) : (ts : List JoinTree) →
    After (fun ts' => Paired R (usesTrees p ts) (usesTrees p ts'))
      (mapBlocksTrees f p.scope ts)
  | [] => by
    rw [mapBlocksTrees]
    exact .pure .nil
  | t :: ts => by
    rw [mapBlocksTrees]
    refine (t.rewrites p).bind fun t' h1 => ?_
    exact (rewritesTrees p ts).map fun ts' h2 => by
      rw [usesTrees, usesTrees]
      exact h1.append h2

theorem rewritesJoins (p : Place) : (js : List Join) →
    After (fun js' => Paired R (usesJoins p js) (usesJoins p js'))
      (mapBlocksJoins f p.scope js)
  | [] => by
    rw [mapBlocksJoins]
    exact .pure .nil
  | ⟨_, _, _, relation, matching, on, _⟩ :: js => by
    rw [mapBlocksJoins]
    refine (relation.rewrites p).bind fun relation' h1 => ?_
    refine (rewritesOption p matching).bind fun matching' h2 => ?_
    refine (rewritesOption p on).bind fun on' h3 => ?_
    exact (rewritesJoins p js).map fun js' h4 => by
      rw [usesJoins, usesJoins]
      exact h1.append (h2.append (h3.append h4))

theorem Relation.rewrites (p : Place) : (r : Relation) →
    After (fun r' => Paired R (r.uses p) (r'.uses p))
      (r.mapBlocks f p.scope)
  | .table _ _ arguments _ _ after => by
    rw [Relation.mapBlocks]
    refine (rewritesArguments p arguments).bind fun arguments' h1 => ?_
    exact (rewritesPieces p after).map fun after' h2 => by
      rw [Relation.uses, Relation.uses]
      exact h1.append h2
  | .derived _ query _ => by
    rw [Relation.mapBlocks]
    exact (query.rewrites p).map fun query' h => by
      rw [Relation.uses, Relation.uses]
      exact h
  | .nested tree _ => by
    rw [Relation.mapBlocks]
    exact (tree.rewrites p).map fun tree' h => by
      rw [Relation.uses, Relation.uses]
      exact h
  | .transformed _ source ps _ => by
    rw [Relation.mapBlocks]
    refine (source.rewrites p).bind fun source' h1 => ?_
    exact (rewritesPieces p ps).map fun ps' h2 => by
      rw [Relation.uses, Relation.uses]
      exact h1.append h2
  | .other _ ps _ _ => by
    rw [Relation.mapBlocks]
    exact (rewritesPieces p ps).map fun ps' h => by
      rw [Relation.uses, Relation.uses]
      exact h

theorem rewritesArguments (p : Place) : (ps : Option (List Piece)) →
    After (fun ps' => Paired R (usesArguments p ps) (usesArguments p ps'))
      (mapBlocksArguments f p.scope ps)
  | none => by
    rw [mapBlocksArguments]
    exact .pure .nil
  | some ps => by
    rw [mapBlocksArguments]
    exact (rewritesPieces p ps).map fun ps' h => by
      rw [usesArguments, usesArguments]
      exact h

theorem rewritesSource (p : Place) : (q : Option Query) →
    After (fun q' => Paired R (usesSource p q) (usesSource p q'))
      (mapBlocksSource f p.scope q)
  | none => by
    rw [mapBlocksSource]
    exact .pure .nil
  | some q => by
    rw [mapBlocksSource]
    exact (q.rewrites p).map fun q' h => by
      rw [usesSource, usesSource]
      exact h

theorem Insertion.rewrites (p : Place) : (i : Insertion) →
    After (fun i' => Paired R (i.uses p) (i'.uses p))
      (i.mapBlocks f p.scope)
  | ⟨_, _, _, _, partition, source, assignments, _, onConflict, returning⟩ => by
    rw [Insertion.mapBlocks]
    refine (rewritesSource p source).bind fun source' h1 => ?_
    refine (rewritesAssignments p assignments).bind fun assignments' h2 => ?_
    refine (rewritesPieces p partition).bind fun partition' h3 => ?_
    refine (rewritesPieces p onConflict).bind fun onConflict' h4 => ?_
    exact (rewritesPieces p returning).map fun returning' h5 => by
      rw [Insertion.uses, Insertion.uses]
      exact h1.append (h2.append (h3.append (h4.append h5)))

theorem rewritesAssignments (p : Place) : (as : List Assignment) →
    After (fun as' => Paired R (usesAssignments p as) (usesAssignments p as'))
      (mapBlocksAssignments f p.scope as)
  | [] => by
    rw [mapBlocksAssignments]
    exact .pure .nil
  | ⟨_, value⟩ :: as => by
    rw [mapBlocksAssignments]
    refine (value.rewrites p).bind fun value' h1 => ?_
    exact (rewritesAssignments p as).map fun as' h2 => by
      rw [usesAssignments, usesAssignments]
      exact h1.append h2

theorem Update.rewrites (p : Place) : (u : Update) →
    After (fun u' => Paired R (u.uses p) (u'.uses p))
      (u.mapBlocks f p.scope)
  | ⟨_, table, _, sources, assignments, selection, returning, limit⟩ => by
    rw [Update.mapBlocks]
    refine (table.rewrites p).bind fun table' h1 => ?_
    refine (rewritesAssignments p assignments).bind fun assignments' h2 => ?_
    refine (rewritesTrees p sources).bind fun sources' h3 => ?_
    refine (rewritesOption p selection).bind fun selection' h4 => ?_
    refine (rewritesPieces p returning).bind fun returning' h5 => ?_
    exact (rewritesOption p limit).map fun limit' h6 => by
      rw [Update.uses, Update.uses]
      exact h1.append (h2.append (h3.append (h4.append (h5.append h6))))

theorem Deletion.rewrites (p : Place) : (d : Deletion) →
    After (fun d' => Paired R (d.uses p) (d'.uses p))
      (d.mapBlocks f p.scope)
  | ⟨_, _, sources, usingSources, selection, returning, orderBy, limit⟩ => by
    rw [Deletion.mapBlocks]
    refine (rewritesTrees p sources).bind fun sources' h1 => ?_
    refine (rewritesUsing p usingSources).bind fun usingSources' h2 => ?_
    refine (rewritesOption p selection).bind fun selection' h3 => ?_
    refine (rewritesPieces p returning).bind fun returning' h4 => ?_
    refine (rewritesPieces p orderBy).bind fun orderBy' h5 => ?_
    exact (rewritesOption p limit).map fun limit' h6 => by
      rw [Deletion.uses, Deletion.uses]
      exact h1.append (h2.append (h3.append (h4.append (h5.append h6))))

theorem rewritesUsing (p : Place) : (ts : Option (List JoinTree)) →
    After (fun ts' => Paired R (usesUsing p ts) (usesUsing p ts'))
      (mapBlocksUsing f p.scope ts)
  | none => by
    rw [mapBlocksUsing]
    exact .pure .nil
  | some ts => by
    rw [mapBlocksUsing]
    exact (rewritesTrees p ts).map fun ts' h => by
      rw [usesUsing, usesUsing]
      exact h

end

end Rewrites

end RowPolicy.Sql
