import RowPolicy.Sql.Blocks

/-!
# The outline of a statement

An outline keeps of a statement where its select blocks and its queries stand, in the order of its
clauses, and nothing else. Every part of a statement that holds an expression, a relation or a query
is in it. `occurrences` lists the blocks of an outline, each behind the blocks inside of it, with
the queries around it: the `WITH` of each, and whether the block is in a body of that `WITH`.
-/

namespace RowPolicy.Sql

/-! ## Outlines -/

mutual

/-- A part of an outline. -/
inductive Item where
  /-- a select block, and what is inside of it -/
  | block (b : Select) (inside : List Item)
  /-- a query: the bodies of its `WITH`, its body and the clauses that order and cut its rows, and
  its settings and chained operators -/
  | query (recursive : Bool) (ctes : List Named) (main aside : List Item)

/-- A named query in an outline. -/
structure Named where
  name : String
  inside : List Item

end

mutual

/-- The outline of an expression. -/
def Expr.outline : Expr → List Item
  | .column _ => []
  | .literal _ => []
  | .binary l _ r => l.outline ++ r.outline
  | .isNull e => e.outline
  | .nested e => e.outline
  | .call _ rest => outlinePieces rest
  | .phrase ps => outlinePieces ps

/-- The outline of a piece. -/
def Piece.outline : Piece → List Item
  | .text _ => []
  | .expr e => e.outline
  | .query q => [q.outline]
  | .relation r => r.outline
  | .swapped first second => outlinePieces second ++ outlinePieces first

/-- The outline of a phrase. -/
def outlinePieces : List Piece → List Item
  | [] => []
  | p :: ps => p.outline ++ outlinePieces ps

/-- The outline of an optional expression. -/
def outlineOption : Option Expr → List Item
  | none => []
  | some e => e.outline

/-- The outline of expressions. -/
def outlineExprs : List Expr → List Item
  | [] => []
  | e :: es => e.outline ++ outlineExprs es

/-- The outline of rows. -/
def outlineRows : List (List Expr) → List Item
  | [] => []
  | r :: rs => outlineExprs r ++ outlineRows rs

/-- The outline of a query. -/
def Query.outline : Query → Item
  | ⟨recursive, ctes, body, orderBy, limit, settings, fetch, _, chain⟩ =>
    .query recursive (outlineCtes ctes)
      (body.outline ++ (outlinePieces orderBy ++ (outlineLimit limit ++ outlineFetch fetch)))
      (outlinePieces settings ++ outlinePieces chain)

/-- The outline of named queries. -/
def outlineCtes : List Cte → List Named
  | [] => []
  | ⟨name, _, _, query, _⟩ :: cs => ⟨name.value, [query.outline]⟩ :: outlineCtes cs

/-- The outline of the clause that cuts the rows. -/
def outlineLimit : Option LimitClause → List Item
  | none => []
  | some (.limitOffset limit offset _ groups) =>
    outlineOption limit ++ (outlineOption offset ++ outlinePieces groups)
  | some (.offsetComma offset limit) => offset.outline ++ limit.outline

/-- The outline of the clause that fetches the first rows. -/
def outlineFetch : Option Fetch → List Item
  | none => []
  | some ⟨quantity, _, _⟩ => outlineOption quantity

/-- The outline of a body. -/
def Body.outline : Body → List Item
  | .select b => [b.outline]
  | .query q => [q.outline]
  | .setOperation l _ r => l.outline ++ r.outline
  | .values _ _ rows => outlineRows rows
  | .insert i => i.outline
  | .update u => u.outline
  | .delete d => d.outline
  | .merge ps => outlinePieces ps
  | .table _ _ => []

/-- The outline of a select block. -/
def Select.outline : Select → Item
  | ⟨form, distinct, top, projection, into, sources, beforeWhere, selection, grouping, windows,
      qualify, windowsFirst, connect⟩ =>
    .block ⟨form, distinct, top, projection, into, sources, beforeWhere, selection, grouping,
        windows, qualify, windowsFirst, connect⟩
      (outlinePieces distinct ++ (outlinePieces top ++ (outlineItems projection ++
        (outlineTrees sources ++ (outlinePieces beforeWhere ++ (outlineOption selection ++
          (outlinePieces grouping ++ (outlinePieces windows ++ (outlinePieces qualify ++
            outlinePieces connect)))))))))

/-- The outline of the items of a projection. -/
def outlineItems : List SelectItem → List Item
  | [] => []
  | .expr e :: is => e.outline ++ outlineItems is
  | .aliased e _ :: is => e.outline ++ outlineItems is
  | .wildcard ps :: is => outlinePieces ps ++ outlineItems is

/-- The outline of a tree of joins. -/
def JoinTree.outline : JoinTree → List Item
  | ⟨relation, joins⟩ => relation.outline ++ outlineJoins joins

/-- The outline of trees of joins. -/
def outlineTrees : List JoinTree → List Item
  | [] => []
  | t :: ts => t.outline ++ outlineTrees ts

/-- The outline of joins. -/
def outlineJoins : List Join → List Item
  | [] => []
  | ⟨_, _, _, relation, matching, on, _⟩ :: js =>
    relation.outline ++ (outlineOption matching ++ (outlineOption on ++ outlineJoins js))

/-- The outline of a relation. -/
def Relation.outline : Relation → List Item
  | .table _ _ arguments _ _ after => outlineArguments arguments ++ outlinePieces after
  | .derived _ query _ => [query.outline]
  | .nested tree _ => tree.outline
  | .transformed _ source ps _ => source.outline ++ outlinePieces ps
  | .other _ ps _ _ => outlinePieces ps

/-- The outline of the arguments of a table. -/
def outlineArguments : Option (List Piece) → List Item
  | none => []
  | some ps => outlinePieces ps

/-- The outline of an optional query. -/
def outlineSource : Option Query → List Item
  | none => []
  | some q => [q.outline]

/-- The outline of an insertion. -/
def Insertion.outline : Insertion → List Item
  | ⟨_, _, _, _, partition, source, assignments, _, onConflict, returning⟩ =>
    outlineSource source ++ (outlineAssignments assignments ++ (outlinePieces partition ++
      (outlinePieces onConflict ++ outlinePieces returning)))

/-- The outline of assignments. -/
def outlineAssignments : List Assignment → List Item
  | [] => []
  | ⟨_, value⟩ :: as => value.outline ++ outlineAssignments as

/-- The outline of an update. -/
def Update.outline : Update → List Item
  | ⟨_, table, _, sources, assignments, selection, returning, limit⟩ =>
    table.outline ++ (outlineAssignments assignments ++ (outlineTrees sources ++
      (outlineOption selection ++ (outlinePieces returning ++ outlineOption limit))))

/-- The outline of a deletion. -/
def Deletion.outline : Deletion → List Item
  | ⟨_, _, sources, usingSources, selection, returning, orderBy, limit⟩ =>
    outlineTrees sources ++ (outlineUsing usingSources ++ (outlineOption selection ++
      (outlinePieces returning ++ (outlinePieces orderBy ++ outlineOption limit))))

/-- The outline of the relations of a `USING`. -/
def outlineUsing : Option (List JoinTree) → List Item
  | none => []
  | some ts => outlineTrees ts

end

/-- The outline of a statement. -/
def Statement.outline : Statement → List Item
  | .insert i => i.outline
  | .update u => u.outline
  | .delete d => d.outline
  | .select q => [q.outline]
  | .other _ => []

/-! ## Places -/

/-- A query around a block: whether its `WITH` is recursive, the names there, and the position of
the body that the block is in, if it is in one of them. -/
structure Frame where
  recursive : Bool
  names : List String
  position : Option Nat
  deriving DecidableEq, Repr

/-- The queries around a block, outer ones first, and whether it is in settings or chained operators
of one of them. -/
structure Place where
  frames : List Frame
  aside : Bool
  deriving DecidableEq, Repr

namespace Place

/-- The place that no query is around. -/
def outermost : Place :=
  ⟨[], false⟩

/-- A place in a query there. -/
def enter (p : Place) (f : Frame) : Place :=
  ⟨p.frames ++ [f], p.aside⟩

/-- A place in the settings or the chained operators of the innermost query. -/
def toSide (p : Place) : Place :=
  ⟨p.frames, true⟩

/-- The names that are declared around a place. -/
def scope (p : Place) : Scope :=
  p.frames.foldl (fun s f => s.declare f.names) .empty

@[simp] theorem scope_outermost : outermost.scope = .empty :=
  rfl

@[simp] theorem scope_enter (p : Place) (f : Frame) :
    (p.enter f).scope = p.scope.declare f.names := by
  simp [scope, enter]

@[simp] theorem aside_enter (p : Place) (f : Frame) : (p.enter f).aside = p.aside :=
  rfl

@[simp] theorem aside_toSide (p : Place) : p.toSide.aside = true :=
  rfl

end Place

/-- A select block at its place, with what is inside of it. -/
structure Occurrence where
  place : Place
  block : Select
  inside : List Item

/-- The names of named queries in an outline. -/
def namedNames (ns : List Named) : List String :=
  ns.map (·.name)

mutual

/-- The blocks of a part of an outline. -/
def Item.occurrences (p : Place) : Item → List Occurrence
  | .block b inside => itemsOccurrences p inside ++ [⟨p, b, inside⟩]
  | .query recursive ctes main aside =>
    let names := namedNames ctes
    let inner := p.enter ⟨recursive, names, none⟩
    namedOccurrences p recursive names 0 ctes ++
      (itemsOccurrences inner main ++ itemsOccurrences inner.toSide aside)

/-- The blocks of an outline. -/
def itemsOccurrences (p : Place) : List Item → List Occurrence
  | [] => []
  | i :: is => i.occurrences p ++ itemsOccurrences p is

/-- The blocks of named queries, the first of them at position `k` of a `WITH`. -/
def namedOccurrences (p : Place) (recursive : Bool) (names : List String) (k : Nat) :
    List Named → List Occurrence
  | [] => []
  | ⟨_, inside⟩ :: ns =>
    itemsOccurrences (p.enter ⟨recursive, names, some k⟩) inside ++
      namedOccurrences p recursive names (k + 1) ns

end

/-- The blocks of a statement. -/
def Statement.occurrences (st : Statement) : List Occurrence :=
  itemsOccurrences .outermost st.outline

/-! ## Order -/

/-- Whether each block of a list stands directly behind the blocks inside of it. -/
def PostOrdered (os : List Occurrence) : Prop :=
  ∀ pre o post, os = pre ++ o :: post → itemsOccurrences o.place o.inside <:+ pre

theorem postOrdered_nil : PostOrdered [] := by
  intro pre o post h
  simp at h

theorem PostOrdered.append {os os' : List Occurrence} (h : PostOrdered os)
    (h' : PostOrdered os') : PostOrdered (os ++ os') := by
  intro pre o post heq
  rcases List.append_eq_append_iff.mp heq with ⟨mid, hpre, hmid⟩ | ⟨mid, hmid, hpost⟩
  · rw [hpre]
    exact (h' mid o post hmid).trans (List.suffix_append os mid)
  · cases mid with
    | nil =>
      obtain rfl : os = pre := by simpa using hmid
      have hnil := h' [] o post (by simpa using hpost.symm)
      rw [List.suffix_nil.mp hnil]
      exact List.nil_suffix
    | cons o' mid =>
      obtain ⟨rfl, -⟩ := List.cons.inj hpost
      exact h pre o mid hmid

/-- A block behind what is inside of it. -/
theorem PostOrdered.snoc {p : Place} {b : Select} {inside : List Item}
    (h : PostOrdered (itemsOccurrences p inside)) :
    PostOrdered (itemsOccurrences p inside ++ [⟨p, b, inside⟩]) := by
  intro pre o post heq
  rcases List.eq_nil_or_concat post with rfl | ⟨post, last, rfl⟩
  · obtain ⟨rfl, hlast⟩ := List.append_inj' heq rfl
    obtain rfl := List.singleton_inj.mp hlast
    exact List.suffix_refl _
  · refine h pre o post ?_
    have heq' : itemsOccurrences p inside ++ [⟨p, b, inside⟩] =
        (pre ++ o :: post) ++ [last] := by simpa using heq
    exact (List.append_inj' heq' rfl).1

/-- Of the blocks that are kept, too, each stands directly behind those inside of it. -/
theorem PostOrdered.filter {os : List Occurrence} (h : PostOrdered os) (keep : Occurrence → Bool)
    {pre post : List Occurrence} {o : Occurrence} (heq : os.filter keep = pre ++ o :: post) :
    (itemsOccurrences o.place o.inside).filter keep <:+ pre := by
  obtain ⟨before, rest, rfl, rfl, hrest⟩ := List.filter_eq_append_iff.mp heq
  obtain ⟨dropped, after, rfl, hdropped, -, -⟩ := List.filter_eq_cons_iff.mp hrest
  have hsuffix := (h (before ++ dropped) o after (by simp)).filter keep
  rwa [List.filter_append, List.filter_eq_nil_iff.mpr hdropped, List.append_nil] at hsuffix

mutual

theorem Item.postOrdered (p : Place) : (i : Item) → PostOrdered (i.occurrences p)
  | .block b inside => by
    rw [Item.occurrences]
    exact (itemsPostOrdered p inside).snoc
  | .query recursive ctes main aside => by
    rw [Item.occurrences]
    exact (namedPostOrdered p recursive _ 0 ctes).append
      ((itemsPostOrdered _ main).append (itemsPostOrdered _ aside))

theorem itemsPostOrdered (p : Place) : (is : List Item) → PostOrdered (itemsOccurrences p is)
  | [] => by
    rw [itemsOccurrences]
    exact postOrdered_nil
  | i :: is => by
    rw [itemsOccurrences]
    exact (i.postOrdered p).append (itemsPostOrdered p is)

theorem namedPostOrdered (p : Place) (recursive : Bool) (names : List String) (k : Nat) :
    (ns : List Named) → PostOrdered (namedOccurrences p recursive names k ns)
  | [] => by
    rw [namedOccurrences]
    exact postOrdered_nil
  | ⟨_, inside⟩ :: ns => by
    rw [namedOccurrences]
    exact (itemsPostOrdered _ inside).append (namedPostOrdered p recursive names (k + 1) ns)

end

mutual

/-- What is at a place aside stays aside. -/
theorem Item.aside_of_mem {p : Place} (hp : p.aside = true) :
    (i : Item) → ∀ o ∈ i.occurrences p, o.place.aside = true
  | .block b inside => by
    intro o ho
    rw [Item.occurrences] at ho
    rcases List.mem_append.mp ho with ho | ho
    · exact itemsAside_of_mem hp inside o ho
    · rw [List.mem_singleton.mp ho]
      exact hp
  | .query recursive ctes main aside => by
    intro o ho
    rw [Item.occurrences] at ho
    rcases List.mem_append.mp ho with ho | ho
    · exact namedAside_of_mem hp recursive _ 0 ctes o ho
    rcases List.mem_append.mp ho with ho | ho
    · exact itemsAside_of_mem (by simpa using hp) main o ho
    · exact itemsAside_of_mem (by simp) aside o ho

theorem itemsAside_of_mem {p : Place} (hp : p.aside = true) :
    (is : List Item) → ∀ o ∈ itemsOccurrences p is, o.place.aside = true
  | [] => by
    intro o ho
    simp [itemsOccurrences] at ho
  | i :: is => by
    intro o ho
    rw [itemsOccurrences] at ho
    rcases List.mem_append.mp ho with ho | ho
    · exact i.aside_of_mem hp o ho
    · exact itemsAside_of_mem hp is o ho

theorem namedAside_of_mem {p : Place} (hp : p.aside = true) (recursive : Bool)
    (names : List String) (k : Nat) :
    (ns : List Named) → ∀ o ∈ namedOccurrences p recursive names k ns, o.place.aside = true
  | [] => by
    intro o ho
    simp [namedOccurrences] at ho
  | ⟨_, inside⟩ :: ns => by
    intro o ho
    rw [namedOccurrences] at ho
    rcases List.mem_append.mp ho with ho | ho
    · exact itemsAside_of_mem (by simpa using hp) inside o ho
    · exact namedAside_of_mem hp recursive names (k + 1) ns o ho

end

end RowPolicy.Sql
