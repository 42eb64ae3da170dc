import RowPolicy.Proofs.Blocks.Outline

/-!
# Two traversals in lockstep

Two traversals of one tree make their calls at the same blocks. Whatever relates the calls, and is
kept by doing one thing after another, relates the traversals: `Lockstep` is what is asked of such a
relation, and the `lockstep` theorems give it for every part of a statement, by induction over the
tree. The relation is told which calls are made, from the outline. A call is known by its scope and
by the *shell* of its block, which has holes for the blocks inside of it and is the same before and
after these are answered for.
-/

namespace RowPolicy.Sql

/-! ## Shells -/

/-- What stands in a shell for a block. -/
def Select.hole : Select where
  form := .standard
  distinct := []
  top := []
  projection := []
  into := ""
  sources := []
  beforeWhere := []
  selection := none
  grouping := []
  windows := []
  qualify := []
  windowsFirst := false
  connect := []

/-- The answer that makes holes of blocks. -/
def makeHole (_ : Scope) (_ : Select) : Id Select :=
  pure .hole

section Inner

variable {m : Type → Type} [Monad m]

/-- The blocks inside of a select block. -/
def Select.mapInner (f : Scope → Select → m Select) (s : Scope) : Select → m Select
  | ⟨form, distinct, top, projection, into, sources, beforeWhere, selection, grouping, windows,
      qualify, windowsFirst, connect⟩ => do
    let distinct ← mapBlocksPieces f s distinct
    let top ← mapBlocksPieces f s top
    let projection ← mapBlocksItems f s projection
    let sources ← mapBlocksTrees f s sources
    let beforeWhere ← mapBlocksPieces f s beforeWhere
    let selection ← mapBlocksOption f s selection
    let grouping ← mapBlocksPieces f s grouping
    let windows ← mapBlocksPieces f s windows
    let qualify ← mapBlocksPieces f s qualify
    let connect ← mapBlocksPieces f s connect
    return ⟨form, distinct, top, projection, into, sources, beforeWhere, selection, grouping,
      windows, qualify, windowsFirst, connect⟩

theorem Select.mapBlocks_eq [LawfulMonad m] (f : Scope → Select → m Select) (s : Scope)
    (b : Select) : b.mapBlocks f s = b.mapInner f s >>= f s := by
  cases b
  simp only [Select.mapBlocks, Select.mapInner, bind_assoc, pure_bind]

end Inner

/-- A block with holes for the blocks inside of it. -/
def Select.shell (s : Scope) (b : Select) : Select :=
  Id.run (b.mapInner makeHole s)

/-! ## Calls -/

/-- A call of a hook of a policy: for a block, by its scope and its shell, or for a statement. -/
inductive Event where
  | select (scope : Scope) (shell : Select)
  | insert
  | update
  | delete
  | query
  | statement

/-- The call for a block. -/
def Occurrence.event (o : Occurrence) : Event :=
  .select o.place.scope (o.block.shell o.place.scope)

/-- The calls for the blocks of a list that are not aside. -/
def eventsOf (os : List Occurrence) : List Event :=
  (os.filter (!·.place.aside)).map Occurrence.event

theorem eventsOf_append (os os' : List Occurrence) :
    eventsOf (os ++ os') = eventsOf os ++ eventsOf os' := by
  simp [eventsOf]

theorem eventsOf_eq_nil {os : List Occurrence} (h : ∀ o ∈ os, o.place.aside = true) :
    eventsOf os = [] := by
  simpa [eventsOf] using h

/-- The calls for the blocks of an outline at a place. -/
def events (p : Place) (is : List Item) : List Event :=
  eventsOf (itemsOccurrences p is)

theorem itemsOccurrences_append (p : Place) (is is' : List Item) :
    itemsOccurrences p (is ++ is') = itemsOccurrences p is ++ itemsOccurrences p is' := by
  induction is with
  | nil => rfl
  | cons i is ih => simp [itemsOccurrences, ih]

@[simp] theorem events_nil (p : Place) : events p [] = [] :=
  rfl

theorem events_append (p : Place) (is is' : List Item) :
    events p (is ++ is') = events p is ++ events p is' := by
  rw [events, itemsOccurrences_append, eventsOf_append]
  rfl

theorem events_singleton (p : Place) (i : Item) : events p [i] = eventsOf (i.occurrences p) := by
  simp [events, itemsOccurrences]

theorem eventsOf_block {p : Place} (hp : p.aside = false) (b : Select) (inside : List Item) :
    eventsOf ((Item.block b inside).occurrences p) =
      events p inside ++ [.select p.scope (b.shell p.scope)] := by
  rw [Item.occurrences, eventsOf_append]
  simp [eventsOf, hp, events, Occurrence.event]

/-- What is aside in a query is not called for. -/
theorem eventsOf_query (p : Place) (recursive : Bool) (ctes : List Named)
    (main aside : List Item) :
    eventsOf ((Item.query recursive ctes main aside).occurrences p) =
      eventsOf (namedOccurrences p recursive (namedNames ctes) 0 ctes) ++
        events (p.enter ⟨recursive, namedNames ctes, none⟩) main := by
  rw [Item.occurrences, eventsOf_append, eventsOf_append,
    eventsOf_eq_nil (itemsAside_of_mem (by simp) aside), List.append_nil]
  rfl

/-! ## Lockstep -/

/-- Whether an answer is the same as what was asked about, but for blocks. -/
abbrev Keeps {α : Type} (hole : α → Id α) (x y : α) : Prop :=
  hole y = hole x

/-- A relation between computations of two monads that traversals with `f` and `f'` keep. It takes
a property that all answers have, the calls that are made, and the two computations. -/
structure Lockstep {m n : Type → Type} [Monad m] [Monad n] (f : Scope → Select → m Select)
    (f' : Scope → Select → n Select)
    (R : {α : Type} → (α → Prop) → List Event → m α → n α → Prop) : Prop where
  pure : ∀ {α : Type} {P : α → Prop} {a : α}, P a → R P [] (pure a) (pure a)
  bind : ∀ {α β : Type} {P : α → Prop} {Q : β → Prop} {es es' : List Event} {x : m α} {y : n α}
    {k : α → m β} {k' : α → n β}, R P es x y → (∀ a, P a → R Q es' (k a) (k' a)) →
    R Q (es ++ es') (x >>= k) (y >>= k')
  call : ∀ {s : Scope} {b b' : Select}, b'.shell s = b.shell s →
    R (Keeps (Select.mapBlocks makeHole s) b) [.select s (b.shell s)] (f s b') (f' s b')

theorem namedNames_outlineCtes (cs : List Cte) : namedNames (outlineCtes cs) = cteNames cs := by
  induction cs with
  | nil => rfl
  | cons c cs ih =>
    cases c
    simpa [outlineCtes, namedNames, cteNames] using ih

section Lockstep

variable {m n : Type → Type} [Monad m] [LawfulMonad m] [Monad n] [LawfulMonad n]
  {f : Scope → Select → m Select} {f' : Scope → Select → n Select}
  {R : {α : Type} → (α → Prop) → List Event → m α → n α → Prop}

/-- A function of an answer makes no call. -/
theorem Lockstep.map (H : Lockstep f f' R) {α β : Type} {P : α → Prop} {Q : β → Prop}
    {es : List Event} {x : m α} {y : n α} {g : α → β} (h : R P es x y)
    (hg : ∀ a, P a → Q (g a)) :
    R Q es (x >>= fun a => Pure.pure (g a)) (y >>= fun a => Pure.pure (g a)) := by
  simpa using H.bind h fun a ha => H.pure (hg a ha)

variable (H : Lockstep f f' R)
include H

mutual

theorem Expr.lockstep {p : Place} (hp : p.aside = false) : (e : Expr) →
    R (Keeps (Expr.mapBlocks makeHole p.scope) e) (events p e.outline)
      (e.mapBlocks f p.scope) (e.mapBlocks f' p.scope)
  | .column _ => by
    rw [Expr.mapBlocks, Expr.mapBlocks, Expr.outline]
    exact H.pure rfl
  | .literal _ => by
    rw [Expr.mapBlocks, Expr.mapBlocks, Expr.outline]
    exact H.pure rfl
  | .binary l _ r => by
    rw [Expr.mapBlocks, Expr.mapBlocks, Expr.outline, events_append]
    refine H.bind (l.lockstep hp) fun l' h1 => ?_
    exact H.map (r.lockstep hp) fun r' h2 => by
      simp only [Keeps, Expr.mapBlocks, h1, h2]
  | .isNull e => by
    rw [Expr.mapBlocks, Expr.mapBlocks, Expr.outline]
    exact H.map (e.lockstep hp) fun e' h => by
      simp only [Keeps, Expr.mapBlocks, h]
  | .nested e => by
    rw [Expr.mapBlocks, Expr.mapBlocks, Expr.outline]
    exact H.map (e.lockstep hp) fun e' h => by
      simp only [Keeps, Expr.mapBlocks, h]
  | .call _ rest => by
    rw [Expr.mapBlocks, Expr.mapBlocks, Expr.outline]
    exact H.map (lockstepPieces hp rest) fun rest' h => by
      simp only [Keeps, Expr.mapBlocks, h]
  | .phrase ps => by
    rw [Expr.mapBlocks, Expr.mapBlocks, Expr.outline]
    exact H.map (lockstepPieces hp ps) fun ps' h => by
      simp only [Keeps, Expr.mapBlocks, h]

theorem Piece.lockstep {p : Place} (hp : p.aside = false) : (r : Piece) →
    R (Keeps (Piece.mapBlocks makeHole p.scope) r) (events p r.outline)
      (r.mapBlocks f p.scope) (r.mapBlocks f' p.scope)
  | .text _ => by
    rw [Piece.mapBlocks, Piece.mapBlocks, Piece.outline]
    exact H.pure rfl
  | .expr e => by
    rw [Piece.mapBlocks, Piece.mapBlocks, Piece.outline]
    exact H.map (e.lockstep hp) fun e' h => by
      simp only [Keeps, Piece.mapBlocks, h]
  | .query q => by
    rw [Piece.mapBlocks, Piece.mapBlocks, Piece.outline]
    exact H.map (q.lockstep hp) fun q' h => by
      simp only [Keeps, Piece.mapBlocks, h]
  | .relation r => by
    rw [Piece.mapBlocks, Piece.mapBlocks, Piece.outline]
    exact H.map (r.lockstep hp) fun r' h => by
      simp only [Keeps, Piece.mapBlocks, h]
  | .swapped first second => by
    rw [Piece.mapBlocks, Piece.mapBlocks, Piece.outline, events_append]
    refine H.bind (lockstepPieces hp second) fun second' h1 => ?_
    exact H.map (lockstepPieces hp first) fun first' h2 => by
      simp only [Keeps, Piece.mapBlocks, h1, h2]

theorem lockstepPieces {p : Place} (hp : p.aside = false) : (ps : List Piece) →
    R (Keeps (mapBlocksPieces makeHole p.scope) ps) (events p (outlinePieces ps))
      (mapBlocksPieces f p.scope ps) (mapBlocksPieces f' p.scope ps)
  | [] => by
    rw [mapBlocksPieces, mapBlocksPieces, outlinePieces]
    exact H.pure rfl
  | r :: ps => by
    rw [mapBlocksPieces, mapBlocksPieces, outlinePieces, events_append]
    refine H.bind (r.lockstep hp) fun r' h1 => ?_
    exact H.map (lockstepPieces hp ps) fun ps' h2 => by
      simp only [Keeps, mapBlocksPieces, h1, h2]

theorem lockstepOption {p : Place} (hp : p.aside = false) : (e : Option Expr) →
    R (Keeps (mapBlocksOption makeHole p.scope) e) (events p (outlineOption e))
      (mapBlocksOption f p.scope e) (mapBlocksOption f' p.scope e)
  | none => by
    rw [mapBlocksOption, mapBlocksOption, outlineOption]
    exact H.pure rfl
  | some e => by
    rw [mapBlocksOption, mapBlocksOption, outlineOption]
    exact H.map (e.lockstep hp) fun e' h => by
      simp only [Keeps, mapBlocksOption, h]

theorem lockstepExprs {p : Place} (hp : p.aside = false) : (es : List Expr) →
    R (Keeps (mapBlocksExprs makeHole p.scope) es) (events p (outlineExprs es))
      (mapBlocksExprs f p.scope es) (mapBlocksExprs f' p.scope es)
  | [] => by
    rw [mapBlocksExprs, mapBlocksExprs, outlineExprs]
    exact H.pure rfl
  | e :: es => by
    rw [mapBlocksExprs, mapBlocksExprs, outlineExprs, events_append]
    refine H.bind (e.lockstep hp) fun e' h1 => ?_
    exact H.map (lockstepExprs hp es) fun es' h2 => by
      simp only [Keeps, mapBlocksExprs, h1, h2]

theorem lockstepRows {p : Place} (hp : p.aside = false) : (rs : List (List Expr)) →
    R (Keeps (mapBlocksRows makeHole p.scope) rs) (events p (outlineRows rs))
      (mapBlocksRows f p.scope rs) (mapBlocksRows f' p.scope rs)
  | [] => by
    rw [mapBlocksRows, mapBlocksRows, outlineRows]
    exact H.pure rfl
  | r :: rs => by
    rw [mapBlocksRows, mapBlocksRows, outlineRows, events_append]
    refine H.bind (lockstepExprs hp r) fun r' h1 => ?_
    exact H.map (lockstepRows hp rs) fun rs' h2 => by
      simp only [Keeps, mapBlocksRows, h1, h2]

theorem Query.lockstep {p : Place} (hp : p.aside = false) : (q : Query) →
    R (Keeps (Query.mapBlocks makeHole p.scope) q) (events p [q.outline])
      (q.mapBlocks f p.scope) (q.mapBlocks f' p.scope)
  | ⟨recursive, ctes, body, orderBy, limit, _, fetch, _, _⟩ => by
    -- the place in the query, outside of its `WITH`
    let inner := p.enter ⟨recursive, cteNames ctes, none⟩
    have hscope : inner.scope = p.scope.declare (cteNames ctes) := p.scope_enter _
    have hinner : inner.aside = false := hp
    have hctes := lockstepCtes hp recursive (cteNames ctes) 0 ctes
    rw [Query.mapBlocks, Query.mapBlocks, Query.outline, events_singleton, eventsOf_query,
      namedNames_outlineCtes]
    simp only [events_append, ← hscope] at hctes ⊢
    refine H.bind hctes fun ctes' h1 => ?_
    refine H.bind (body.lockstep hinner) fun body' h2 => ?_
    refine H.bind (lockstepPieces hinner orderBy) fun orderBy' h3 => ?_
    refine H.bind (lockstepLimit hinner limit) fun limit' h4 => ?_
    exact H.map (lockstepFetch hinner fetch) fun fetch' h5 => by
      simp only [Keeps, Query.mapBlocks, h1.2, ← hscope, h1.1, h2, h3, h4, h5]

theorem lockstepCtes {p : Place} (hp : p.aside = false) (recursive : Bool) (names : List String)
    (k : Nat) : (cs : List Cte) →
    R (fun cs' => Keeps (mapBlocksCtes makeHole (p.scope.declare names)) cs cs' ∧
        cteNames cs' = cteNames cs)
      (eventsOf (namedOccurrences p recursive names k (outlineCtes cs)))
      (mapBlocksCtes f (p.scope.declare names) cs)
      (mapBlocksCtes f' (p.scope.declare names) cs)
  | [] => by
    rw [mapBlocksCtes, mapBlocksCtes, outlineCtes, namedOccurrences]
    exact H.pure ⟨rfl, rfl⟩
  | ⟨_, _, _, query, _⟩ :: cs => by
    let inner := p.enter ⟨recursive, names, some k⟩
    have hscope : inner.scope = p.scope.declare names := p.scope_enter _
    have hinner : inner.aside = false := hp
    rw [mapBlocksCtes, mapBlocksCtes, outlineCtes, namedOccurrences, eventsOf_append]
    simp only [← hscope]
    refine H.bind (query.lockstep hinner) fun query' h1 => ?_
    exact H.map (hscope ▸ lockstepCtes hp recursive names (k + 1) cs) fun cs' h2 => by
      refine ⟨?_, ?_⟩
      · simp only [Keeps, mapBlocksCtes, h1, h2.1]
      · simpa [cteNames] using h2.2

theorem lockstepLimit {p : Place} (hp : p.aside = false) : (l : Option LimitClause) →
    R (Keeps (mapBlocksLimit makeHole p.scope) l) (events p (outlineLimit l))
      (mapBlocksLimit f p.scope l) (mapBlocksLimit f' p.scope l)
  | none => by
    rw [mapBlocksLimit, mapBlocksLimit, outlineLimit]
    exact H.pure rfl
  | some (.limitOffset limit offset _ groups) => by
    rw [mapBlocksLimit, mapBlocksLimit, outlineLimit]
    simp only [events_append]
    refine H.bind (lockstepOption hp limit) fun limit' h1 => ?_
    refine H.bind (lockstepOption hp offset) fun offset' h2 => ?_
    exact H.map (lockstepPieces hp groups) fun groups' h3 => by
      simp only [Keeps, mapBlocksLimit, h1, h2, h3]
  | some (.offsetComma offset limit) => by
    rw [mapBlocksLimit, mapBlocksLimit, outlineLimit, events_append]
    refine H.bind (offset.lockstep hp) fun offset' h1 => ?_
    exact H.map (limit.lockstep hp) fun limit' h2 => by
      simp only [Keeps, mapBlocksLimit, h1, h2]

theorem lockstepFetch {p : Place} (hp : p.aside = false) : (l : Option Fetch) →
    R (Keeps (mapBlocksFetch makeHole p.scope) l) (events p (outlineFetch l))
      (mapBlocksFetch f p.scope l) (mapBlocksFetch f' p.scope l)
  | none => by
    rw [mapBlocksFetch, mapBlocksFetch, outlineFetch]
    exact H.pure rfl
  | some ⟨quantity, _, _⟩ => by
    rw [mapBlocksFetch, mapBlocksFetch, outlineFetch]
    exact H.map (lockstepOption hp quantity) fun quantity' h => by
      simp only [Keeps, mapBlocksFetch, h]

theorem Body.lockstep {p : Place} (hp : p.aside = false) : (b : Body) →
    R (Keeps (Body.mapBlocks makeHole p.scope) b) (events p b.outline)
      (b.mapBlocks f p.scope) (b.mapBlocks f' p.scope)
  | .select b => by
    rw [Body.mapBlocks, Body.mapBlocks, Body.outline]
    exact H.map (b.lockstep hp) fun b' h => by
      simp only [Keeps, Body.mapBlocks, h]
  | .query q => by
    rw [Body.mapBlocks, Body.mapBlocks, Body.outline]
    exact H.map (q.lockstep hp) fun q' h => by
      simp only [Keeps, Body.mapBlocks, h]
  | .setOperation l _ r => by
    rw [Body.mapBlocks, Body.mapBlocks, Body.outline, events_append]
    refine H.bind (l.lockstep hp) fun l' h1 => ?_
    exact H.map (r.lockstep hp) fun r' h2 => by
      simp only [Keeps, Body.mapBlocks, h1, h2]
  | .values _ _ rows => by
    rw [Body.mapBlocks, Body.mapBlocks, Body.outline]
    exact H.map (lockstepRows hp rows) fun rows' h => by
      simp only [Keeps, Body.mapBlocks, h]
  | .insert i => by
    rw [Body.mapBlocks, Body.mapBlocks, Body.outline]
    exact H.map (i.lockstep hp) fun i' h => by
      simp only [Keeps, Body.mapBlocks, h]
  | .update u => by
    rw [Body.mapBlocks, Body.mapBlocks, Body.outline]
    exact H.map (u.lockstep hp) fun u' h => by
      simp only [Keeps, Body.mapBlocks, h]
  | .delete d => by
    rw [Body.mapBlocks, Body.mapBlocks, Body.outline]
    exact H.map (d.lockstep hp) fun d' h => by
      simp only [Keeps, Body.mapBlocks, h]
  | .merge ps => by
    rw [Body.mapBlocks, Body.mapBlocks, Body.outline]
    exact H.map (lockstepPieces hp ps) fun ps' h => by
      simp only [Keeps, Body.mapBlocks, h]
  | .table _ _ => by
    rw [Body.mapBlocks, Body.mapBlocks, Body.outline]
    exact H.pure rfl

theorem Select.lockstep {p : Place} (hp : p.aside = false) : (b : Select) →
    R (Keeps (Select.mapBlocks makeHole p.scope) b) (events p [b.outline])
      (b.mapBlocks f p.scope) (b.mapBlocks f' p.scope)
  | ⟨form, distinct, top, projection, into, sources, beforeWhere, selection, grouping, windows,
      qualify, windowsFirst, connect⟩ => by
    rw [Select.mapBlocks_eq, Select.mapBlocks_eq, Select.outline, events_singleton,
      eventsOf_block hp]
    refine H.bind ?_ fun b' h => H.call h
    rw [Select.mapInner, Select.mapInner]
    simp only [events_append]
    refine H.bind (lockstepPieces hp distinct) fun distinct' h1 => ?_
    refine H.bind (lockstepPieces hp top) fun top' h2 => ?_
    refine H.bind (lockstepItems hp projection) fun projection' h3 => ?_
    refine H.bind (lockstepTrees hp sources) fun sources' h4 => ?_
    refine H.bind (lockstepPieces hp beforeWhere) fun beforeWhere' h5 => ?_
    refine H.bind (lockstepOption hp selection) fun selection' h6 => ?_
    refine H.bind (lockstepPieces hp grouping) fun grouping' h7 => ?_
    refine H.bind (lockstepPieces hp windows) fun windows' h8 => ?_
    refine H.bind (lockstepPieces hp qualify) fun qualify' h9 => ?_
    exact H.map (lockstepPieces hp connect) fun connect' h10 => by
      simp only [Select.shell, Select.mapInner, h1, h2, h3, h4, h5, h6, h7, h8, h9, h10]

theorem lockstepItems {p : Place} (hp : p.aside = false) : (is : List SelectItem) →
    R (Keeps (mapBlocksItems makeHole p.scope) is) (events p (outlineItems is))
      (mapBlocksItems f p.scope is) (mapBlocksItems f' p.scope is)
  | [] => by
    rw [mapBlocksItems, mapBlocksItems, outlineItems]
    exact H.pure rfl
  | .expr e :: is => by
    rw [mapBlocksItems, mapBlocksItems, outlineItems, events_append]
    refine H.bind (e.lockstep hp) fun e' h1 => ?_
    exact H.map (lockstepItems hp is) fun is' h2 => by
      simp only [Keeps, mapBlocksItems, h1, h2]
  | .aliased e _ :: is => by
    rw [mapBlocksItems, mapBlocksItems, outlineItems, events_append]
    refine H.bind (e.lockstep hp) fun e' h1 => ?_
    exact H.map (lockstepItems hp is) fun is' h2 => by
      simp only [Keeps, mapBlocksItems, h1, h2]
  | .wildcard ps :: is => by
    rw [mapBlocksItems, mapBlocksItems, outlineItems, events_append]
    refine H.bind (lockstepPieces hp ps) fun ps' h1 => ?_
    exact H.map (lockstepItems hp is) fun is' h2 => by
      simp only [Keeps, mapBlocksItems, h1, h2]

theorem JoinTree.lockstep {p : Place} (hp : p.aside = false) : (t : JoinTree) →
    R (Keeps (JoinTree.mapBlocks makeHole p.scope) t) (events p t.outline)
      (t.mapBlocks f p.scope) (t.mapBlocks f' p.scope)
  | ⟨relation, joins⟩ => by
    rw [JoinTree.mapBlocks, JoinTree.mapBlocks, JoinTree.outline, events_append]
    refine H.bind (relation.lockstep hp) fun relation' h1 => ?_
    exact H.map (lockstepJoins hp joins) fun joins' h2 => by
      simp only [Keeps, JoinTree.mapBlocks, h1, h2]

theorem lockstepTrees {p : Place} (hp : p.aside = false) : (ts : List JoinTree) →
    R (Keeps (mapBlocksTrees makeHole p.scope) ts) (events p (outlineTrees ts))
      (mapBlocksTrees f p.scope ts) (mapBlocksTrees f' p.scope ts)
  | [] => by
    rw [mapBlocksTrees, mapBlocksTrees, outlineTrees]
    exact H.pure rfl
  | t :: ts => by
    rw [mapBlocksTrees, mapBlocksTrees, outlineTrees, events_append]
    refine H.bind (t.lockstep hp) fun t' h1 => ?_
    exact H.map (lockstepTrees hp ts) fun ts' h2 => by
      simp only [Keeps, mapBlocksTrees, h1, h2]

theorem lockstepJoins {p : Place} (hp : p.aside = false) : (js : List Join) →
    R (Keeps (mapBlocksJoins makeHole p.scope) js) (events p (outlineJoins js))
      (mapBlocksJoins f p.scope js) (mapBlocksJoins f' p.scope js)
  | [] => by
    rw [mapBlocksJoins, mapBlocksJoins, outlineJoins]
    exact H.pure rfl
  | ⟨_, _, _, relation, matching, on, _⟩ :: js => by
    rw [mapBlocksJoins, mapBlocksJoins, outlineJoins]
    simp only [events_append]
    refine H.bind (relation.lockstep hp) fun relation' h1 => ?_
    refine H.bind (lockstepOption hp matching) fun matching' h2 => ?_
    refine H.bind (lockstepOption hp on) fun on' h3 => ?_
    exact H.map (lockstepJoins hp js) fun js' h4 => by
      simp only [Keeps, mapBlocksJoins, h1, h2, h3, h4]

theorem Relation.lockstep {p : Place} (hp : p.aside = false) : (r : Relation) →
    R (Keeps (Relation.mapBlocks makeHole p.scope) r) (events p r.outline)
      (r.mapBlocks f p.scope) (r.mapBlocks f' p.scope)
  | .table _ _ arguments _ _ after => by
    rw [Relation.mapBlocks, Relation.mapBlocks, Relation.outline, events_append]
    refine H.bind (lockstepArguments hp arguments) fun arguments' h1 => ?_
    exact H.map (lockstepPieces hp after) fun after' h2 => by
      simp only [Keeps, Relation.mapBlocks, h1, h2]
  | .derived _ query _ => by
    rw [Relation.mapBlocks, Relation.mapBlocks, Relation.outline]
    exact H.map (query.lockstep hp) fun query' h => by
      simp only [Keeps, Relation.mapBlocks, h]
  | .nested tree _ => by
    rw [Relation.mapBlocks, Relation.mapBlocks, Relation.outline]
    exact H.map (tree.lockstep hp) fun tree' h => by
      simp only [Keeps, Relation.mapBlocks, h]
  | .transformed _ source ps _ => by
    rw [Relation.mapBlocks, Relation.mapBlocks, Relation.outline, events_append]
    refine H.bind (source.lockstep hp) fun source' h1 => ?_
    exact H.map (lockstepPieces hp ps) fun ps' h2 => by
      simp only [Keeps, Relation.mapBlocks, h1, h2]
  | .other _ ps _ _ => by
    rw [Relation.mapBlocks, Relation.mapBlocks, Relation.outline]
    exact H.map (lockstepPieces hp ps) fun ps' h => by
      simp only [Keeps, Relation.mapBlocks, h]

theorem lockstepArguments {p : Place} (hp : p.aside = false) : (ps : Option (List Piece)) →
    R (Keeps (mapBlocksArguments makeHole p.scope) ps) (events p (outlineArguments ps))
      (mapBlocksArguments f p.scope ps) (mapBlocksArguments f' p.scope ps)
  | none => by
    rw [mapBlocksArguments, mapBlocksArguments, outlineArguments]
    exact H.pure rfl
  | some ps => by
    rw [mapBlocksArguments, mapBlocksArguments, outlineArguments]
    exact H.map (lockstepPieces hp ps) fun ps' h => by
      simp only [Keeps, mapBlocksArguments, h]

theorem lockstepSource {p : Place} (hp : p.aside = false) : (q : Option Query) →
    R (Keeps (mapBlocksSource makeHole p.scope) q) (events p (outlineSource q))
      (mapBlocksSource f p.scope q) (mapBlocksSource f' p.scope q)
  | none => by
    rw [mapBlocksSource, mapBlocksSource, outlineSource]
    exact H.pure rfl
  | some q => by
    rw [mapBlocksSource, mapBlocksSource, outlineSource]
    exact H.map (q.lockstep hp) fun q' h => by
      simp only [Keeps, mapBlocksSource, h]

theorem Insertion.lockstep {p : Place} (hp : p.aside = false) : (i : Insertion) →
    R (Keeps (Insertion.mapBlocks makeHole p.scope) i) (events p i.outline)
      (i.mapBlocks f p.scope) (i.mapBlocks f' p.scope)
  | ⟨_, _, _, _, partition, source, assignments, _, onConflict, returning⟩ => by
    rw [Insertion.mapBlocks, Insertion.mapBlocks, Insertion.outline]
    simp only [events_append]
    refine H.bind (lockstepSource hp source) fun source' h1 => ?_
    refine H.bind (lockstepAssignments hp assignments) fun assignments' h2 => ?_
    refine H.bind (lockstepPieces hp partition) fun partition' h3 => ?_
    refine H.bind (lockstepPieces hp onConflict) fun onConflict' h4 => ?_
    exact H.map (lockstepPieces hp returning) fun returning' h5 => by
      simp only [Keeps, Insertion.mapBlocks, h1, h2, h3, h4, h5]

theorem lockstepAssignments {p : Place} (hp : p.aside = false) : (as : List Assignment) →
    R (Keeps (mapBlocksAssignments makeHole p.scope) as) (events p (outlineAssignments as))
      (mapBlocksAssignments f p.scope as) (mapBlocksAssignments f' p.scope as)
  | [] => by
    rw [mapBlocksAssignments, mapBlocksAssignments, outlineAssignments]
    exact H.pure rfl
  | ⟨_, value⟩ :: as => by
    rw [mapBlocksAssignments, mapBlocksAssignments, outlineAssignments, events_append]
    refine H.bind (value.lockstep hp) fun value' h1 => ?_
    exact H.map (lockstepAssignments hp as) fun as' h2 => by
      simp only [Keeps, mapBlocksAssignments, h1, h2]

theorem Update.lockstep {p : Place} (hp : p.aside = false) : (u : Update) →
    R (Keeps (Update.mapBlocks makeHole p.scope) u) (events p u.outline)
      (u.mapBlocks f p.scope) (u.mapBlocks f' p.scope)
  | ⟨_, table, _, sources, assignments, selection, returning, limit⟩ => by
    rw [Update.mapBlocks, Update.mapBlocks, Update.outline]
    simp only [events_append]
    refine H.bind (table.lockstep hp) fun table' h1 => ?_
    refine H.bind (lockstepAssignments hp assignments) fun assignments' h2 => ?_
    refine H.bind (lockstepTrees hp sources) fun sources' h3 => ?_
    refine H.bind (lockstepOption hp selection) fun selection' h4 => ?_
    refine H.bind (lockstepPieces hp returning) fun returning' h5 => ?_
    exact H.map (lockstepOption hp limit) fun limit' h6 => by
      simp only [Keeps, Update.mapBlocks, h1, h2, h3, h4, h5, h6]

theorem Deletion.lockstep {p : Place} (hp : p.aside = false) : (d : Deletion) →
    R (Keeps (Deletion.mapBlocks makeHole p.scope) d) (events p d.outline)
      (d.mapBlocks f p.scope) (d.mapBlocks f' p.scope)
  | ⟨_, _, sources, usingSources, selection, returning, orderBy, limit⟩ => by
    rw [Deletion.mapBlocks, Deletion.mapBlocks, Deletion.outline]
    simp only [events_append]
    refine H.bind (lockstepTrees hp sources) fun sources' h1 => ?_
    refine H.bind (lockstepUsing hp usingSources) fun usingSources' h2 => ?_
    refine H.bind (lockstepOption hp selection) fun selection' h3 => ?_
    refine H.bind (lockstepPieces hp returning) fun returning' h4 => ?_
    refine H.bind (lockstepPieces hp orderBy) fun orderBy' h5 => ?_
    exact H.map (lockstepOption hp limit) fun limit' h6 => by
      simp only [Keeps, Deletion.mapBlocks, h1, h2, h3, h4, h5, h6]

theorem lockstepUsing {p : Place} (hp : p.aside = false) : (ts : Option (List JoinTree)) →
    R (Keeps (mapBlocksUsing makeHole p.scope) ts) (events p (outlineUsing ts))
      (mapBlocksUsing f p.scope ts) (mapBlocksUsing f' p.scope ts)
  | none => by
    rw [mapBlocksUsing, mapBlocksUsing, outlineUsing]
    exact H.pure rfl
  | some ts => by
    rw [mapBlocksUsing, mapBlocksUsing, outlineUsing]
    exact H.map (lockstepTrees hp ts) fun ts' h => by
      simp only [Keeps, mapBlocksUsing, h]

end

end Lockstep

end RowPolicy.Sql
