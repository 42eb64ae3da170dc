import RowPolicy.Proofs.Joins.Placement

/-!
# Exposed tables

A predicate in the `ON` of a right or a full join does not keep rows of the joined tables away:
those that fail it have no match, and the join keeps them, with nulls for its left side. `exposure`
follows such tables through a tree of joins. Which tables have a predicate (`P`), and which of these
predicates are not true of nulls (`N`), is all it asks; it reads no condition (`shape_bare`).
-/

namespace RowPolicy.Sql

/-- The tables with rows on which their predicate is not true: in some combination, or in one that
all outward predicates let pass. -/
structure Exposure where
  loose : List Target
  exposed : List Target
  deriving DecidableEq, Repr

/-- The exposure of a join, from those of its sides. An `ON` takes the rows away that fail the
outward predicates of the right side, unless the join keeps that side; those are then gone if an
outward predicate of the left side is not true of nulls. -/
def Exposure.join (e : Exposure) (kind : JoinKind) (hasOn absorbed : Bool) (r : Exposure) :
    Exposure where
  loose := e.loose ++ if hasOn && !kind.keepsRight then r.exposed else r.loose
  exposed := e.exposed ++ if hasOn && kind.keepsRight && !absorbed then r.loose else r.exposed

section Exposure

variable (s : Scope) (qualify : Bool) (P N : Target → Bool)

/-- Whether the predicate of a table among these is not true of nulls. -/
def absorbs (ts : List Target) : Bool :=
  ts.any fun t => P t && N t

mutual

/-- The exposure of a tree of joins. -/
def JoinTree.exposure : JoinTree → Exposure
  | ⟨relation, joins⟩ => joinsExposure relation.exposure (relation.outward s qualify) joins

/-- The exposure of joins behind a left side of exposure `e` and outward tables `ts`. -/
def joinsExposure (e : Exposure) (ts : List Target) : List Join → Exposure
  | [] => e
  | ⟨_, _, kind, relation, _, on, _⟩ :: js =>
    joinsExposure (e.join kind on.isSome (absorbs P N ts) relation.exposure)
      (ts ++ if on.isSome then [] else relation.outward s qualify) js

/-- The exposure of a relation. -/
def Relation.exposure : Relation → Exposure
  | .nested tree _ => tree.exposure
  | r => ⟨(r.target? s qualify).toList.filter P, []⟩

end

theorem joinsExposure_cons (e : Exposure) (ts : List Target) (j : Join) (js : List Join) :
    joinsExposure s qualify P N e ts (j :: js) =
      joinsExposure s qualify P N
        (e.join j.kind j.on.isSome (absorbs P N ts) (j.relation.exposure s qualify P N))
        (ts ++ if j.on.isSome then [] else j.relation.outward s qualify) js := by
  cases j
  rw [joinsExposure]

theorem Relation.exposure_leaf {r : Relation} (h : r.isLeaf) :
    r.exposure s qualify P N = ⟨(r.target? s qualify).toList.filter P, []⟩ := by
  cases r with
  | nested => simp [Relation.isLeaf] at h
  | _ => rw [Relation.exposure]; exact fun _ _ h => by cases h

end Exposure

/-- The tables of a block that are exposed where its restricted form is read. -/
def Select.exposed (s : Scope) (P N : Target → Bool) (b : Select) : List Target :=
  b.sources.flatMap fun t => (t.exposure s (1 < treesSize b.sources) P N).exposed

/-! ## Joins without their conditions -/

mutual

/-- A tree of joins with nothing asked in its conditions. -/
def JoinTree.bare : JoinTree → JoinTree
  | ⟨relation, joins⟩ => ⟨relation.bare, joinsBare joins⟩

/-- Joins with nothing asked in their conditions. -/
def joinsBare : List Join → List Join
  | [] => []
  | ⟨isGlobal, isNatural, kind, relation, matching, on, columns⟩ :: js =>
    ⟨isGlobal, isNatural, kind, relation.bare, matching,
      on.map fun _ => .literal (.boolean true), columns⟩ :: joinsBare js

/-- A relation with nothing asked in the conditions in it. -/
def Relation.bare : Relation → Relation
  | .nested tree naming => .nested tree.bare naming
  | r => r

end

/-- A join with nothing asked in its condition, nor in those of what it joins. -/
def Join.bare (j : Join) : Join :=
  { j with relation := j.relation.bare, on := j.on.map fun _ => .literal (.boolean true) }

theorem joinsBare_cons (j : Join) (js : List Join) :
    joinsBare (j :: js) = j.bare :: joinsBare js := by
  cases j
  rw [joinsBare]
  rfl

theorem Relation.bare_leaf {r : Relation} (h : r.isLeaf) : r.bare = r := by
  cases r with
  | nested => simp [Relation.isLeaf] at h
  | _ => rw [Relation.bare]; exact fun _ _ h => by cases h

/-- A block with nothing asked in its `WHERE` and in the conditions of its joins. -/
def Select.bare (b : Select) : Select :=
  { b with sources := b.sources.map (·.bare), selection := none }

theorem bare_bare :
    (∀ t : JoinTree, t.bare.bare = t.bare) ∧
    (∀ js, joinsBare (joinsBare js) = joinsBare js) ∧
    ∀ r : Relation, r.bare.bare = r.bare := by
  refine JoinTree.induction ?tree ?nil ?cons ?nested ?leaf
  case tree =>
    intro relation joins ihr ihjs
    simp only [JoinTree.bare, ihr, ihjs]
  case nil => simp [joinsBare]
  case cons =>
    intro j js ihr ihjs
    simp only [joinsBare_cons, Join.bare, ihr, ihjs, Option.map_map, Function.comp_def]
  case nested =>
    intro t naming ih
    simp only [Relation.bare, ih]
  case leaf =>
    intro r h
    rw [Relation.bare_leaf h, Relation.bare_leaf h]

theorem Select.bare_bare (b : Select) : b.bare.bare = b.bare := by
  simp only [bare, List.map_map, Function.comp_def, RowPolicy.Sql.bare_bare.1]

/-- What a tree of joins is without its conditions: the names and the number of its relations,
whether its joins keep predicates, and the tables that are outward or exposed. -/
structure Shape where
  names : List (Option String)
  size : Nat
  joinsBy : Bool
  outward : List Target
  exposure : Exposure

section Shape

variable (outer : JoinKind → Bool) (s : Scope) (qualify : Bool) (P N : Target → Bool)

/-- The shape of a tree of joins. -/
def JoinTree.shape (t : JoinTree) : Shape :=
  ⟨t.names, t.size, t.joinsBy outer, t.outward s qualify, t.exposure s qualify P N⟩

/-- The shape of joins behind a left side. -/
def joinsShape (js : List Join) (e : Exposure) (ts : List Target) : Shape :=
  ⟨joinsNames js, joinsSize js, joinsJoinBy outer js, joinsOutward s qualify js,
    joinsExposure s qualify P N e ts js⟩

/-- The shape of a relation. -/
def Relation.shape (r : Relation) : Shape :=
  ⟨r.names, r.size, r.joinsBy outer, r.outward s qualify, r.exposure s qualify P N⟩

/-- The shape of a tree does not depend on its conditions. -/
theorem shape_bare :
    (∀ t : JoinTree, t.bare.shape outer s qualify P N = t.shape outer s qualify P N) ∧
    (∀ js, joinsShape outer s qualify P N (joinsBare js) = joinsShape outer s qualify P N js) ∧
    ∀ r : Relation, r.bare.shape outer s qualify P N = r.shape outer s qualify P N := by
  refine JoinTree.induction ?tree ?nil ?cons ?nested ?leaf
  case tree =>
    intro relation joins ihr ihjs
    simp only [Relation.shape, Shape.mk.injEq, funext_iff, joinsShape] at ihr ihjs
    obtain ⟨hnames, hsize, hjoins, hout, -⟩ := ihjs ⟨[], []⟩ []
    have hexp := fun e ts => (ihjs e ts).2.2.2.2
    simp only [JoinTree.shape, JoinTree.bare, JoinTree.names, JoinTree.size, JoinTree.joinsBy,
      JoinTree.outward, JoinTree.exposure, ihr, hnames, hsize, hjoins, hout, hexp]
  case nil => simp only [joinsBare]
  case cons =>
    intro j js ihr ihjs
    simp only [Relation.shape, Shape.mk.injEq, funext_iff, joinsShape] at ihr ihjs
    obtain ⟨hnames, hsize, hjoins, hout, -⟩ := ihjs ⟨[], []⟩ []
    have hexp := fun e ts => (ihjs e ts).2.2.2.2
    have hon : j.bare.on.isSome = j.on.isSome := by simp [Join.bare]
    have hkind : j.bare.kind = j.kind := rfl
    have hrel : j.bare.relation = j.relation.bare := rfl
    funext e ts
    simp only [joinsShape, joinsBare_cons, joinsNames_cons, joinsSize_cons, joinsJoinBy_cons,
      joinsOutward_cons, joinsExposure_cons, hrel, hon, hkind, ihr, hnames, hsize, hjoins, hout,
      hexp]
  case nested =>
    intro t naming ih
    simp only [JoinTree.shape, Shape.mk.injEq] at ih
    simp only [Relation.shape, Relation.bare, Relation.names, Relation.size, Relation.joinsBy,
      Relation.outward, Relation.exposure, ih]
  case leaf =>
    intro r h
    rw [Relation.bare_leaf h]

end Shape

section Blocks

variable {b b' : Select}

theorem treesSize_eq_foldr (ts : List JoinTree) :
    treesSize ts = (ts.map (·.size)).foldr (· + ·) 0 := by
  induction ts with
  | nil => rfl
  | cons t ts ih => rw [treesSize, ih, List.map_cons, List.foldr_cons]

theorem map_sources_of_bare_eq {α : Type} {g : JoinTree → α} (hg : ∀ t, g t.bare = g t)
    (h : b'.bare = b.bare) : b'.sources.map g = b.sources.map g := by
  have hs : b'.sources.map (·.bare) = b.sources.map (·.bare) := congrArg Select.sources h
  have hg' : g ∘ JoinTree.bare = g := funext hg
  simpa only [List.map_map, hg'] using congrArg (List.map g) hs

theorem treesSize_of_bare_eq (h : b'.bare = b.bare) :
    treesSize b'.sources = treesSize b.sources := by
  rw [treesSize_eq_foldr, treesSize_eq_foldr, map_sources_of_bare_eq (fun t => ?_) h]
  exact congrArg Shape.size ((shape_bare (fun _ => true) .empty true default default).1 t)

theorem treesNames_of_bare_eq (h : b'.bare = b.bare) :
    treesNames b'.sources = treesNames b.sources := by
  rw [treesNames, treesNames, List.flatMap_def, List.flatMap_def,
    map_sources_of_bare_eq (fun t => ?_) h]
  exact congrArg Shape.names ((shape_bare (fun _ => true) .empty true default default).1 t)

theorem treesJoinBy_of_bare_eq {outer : JoinKind → Bool} (h : b'.bare = b.bare) :
    treesJoinBy outer b'.sources = treesJoinBy outer b.sources := by
  have hmap := map_sources_of_bare_eq (g := fun t => t.joinsBy outer) (fun t =>
    congrArg Shape.joinsBy ((shape_bare outer .empty true default default).1 t)) h
  simpa only [treesJoinBy, List.all_map, Function.comp_def, id] using congrArg (List.all · id) hmap

/-- Blocks that join alike expose the same tables. -/
theorem exposed_of_bare_eq {s : Scope} {P N : Target → Bool} (h : b'.bare = b.bare) :
    b'.exposed s P N = b.exposed s P N := by
  rw [Select.exposed, Select.exposed, treesSize_of_bare_eq h, List.flatMap_def, List.flatMap_def,
    map_sources_of_bare_eq (fun t => ?_) h]
  exact congrArg (·.exposure.exposed) ((shape_bare (fun _ => true) s _ P N).1 t)

end Blocks

end RowPolicy.Sql
