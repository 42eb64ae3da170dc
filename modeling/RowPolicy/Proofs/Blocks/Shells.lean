import RowPolicy.Proofs.Blocks.Amended
import RowPolicy.Proofs.Joins.Answered

/-!
# What policies see of a block

A policy that restricts the tables of a block looks at their names and qualifiers, at the joins
around them, and at the columns that the conditions mention outside of queries. This much is the
`sight` of a block. It is the same for the shell of the block, which has holes for the blocks inside
of it (`RowBlock.sight_shell`), so what is answered for the tables does not depend on what has
become of these (`RowBlock.follows_of_sight`).
-/

namespace RowPolicy.Sql

/-! ## Sights -/

/-- Which columns a condition mentions, by their names and qualifiers. -/
abbrev Mentions := String → Option String → Bool

/-- The columns that an expression mentions. -/
def Expr.mentioned (e : Expr) : Mentions :=
  fun column qualifier => e.mentions column qualifier

/-- What is seen of a join around a table. -/
def Around.sight (x : Around) : Nat × JoinKind × Option Mentions :=
  (x.join, x.kind, x.on.map Expr.mentioned)

/-- What is seen of a step; the texts for messages do not count. -/
inductive StepSight where
  | ask (table : String) (qualifier : Option String)
      (around : List (Nat × JoinKind × Option Mentions))
  | refuse (construct : String)
  | close (join : Nat)

/-- What is seen of a step. -/
def Step.sight : Step → StepSight
  | .ask l => .ask l.target.table l.target.qualifier (l.around.map Around.sight)
  | .refuse construct _ => .refuse construct
  | .close n _ => .close n

/-- What is seen of a block: of its condition, and of the steps of restricting it. -/
def RowBlock.sight (b : RowBlock) : Option Mentions × List StepSight :=
  (b.selection.map Expr.mentioned, b.steps.map Step.sight)

/-! ## Holes -/

mutual

/-- Only what stands in a query is not seen. -/
theorem Expr.mentions_mapBlocks_makeHole (s : Scope) (column : String) (qualifier : Option String) :
    (e : Expr) → (Id.run (e.mapBlocks makeHole s)).mentions column qualifier =
      e.mentions column qualifier
  | .column _ => rfl
  | .literal _ => rfl
  | .binary l _ r => congrArg₂ (· || ·) (l.mentions_mapBlocks_makeHole s column qualifier)
      (r.mentions_mapBlocks_makeHole s column qualifier)
  | .isNull e => e.mentions_mapBlocks_makeHole s column qualifier
  | .nested e => e.mentions_mapBlocks_makeHole s column qualifier
  | .call _ rest => piecesMention_mapBlocks_makeHole s column qualifier rest
  | .phrase ps => piecesMention_mapBlocks_makeHole s column qualifier ps

theorem Piece.mentions_mapBlocks_makeHole (s : Scope) (column : String)
    (qualifier : Option String) :
    (r : Piece) → (Id.run (r.mapBlocks makeHole s)).mentions column qualifier =
      r.mentions column qualifier
  | .text _ => rfl
  | .expr e => e.mentions_mapBlocks_makeHole s column qualifier
  | .query _ => rfl
  | .relation _ => rfl
  | .swapped first second => congrArg₂ (· || ·)
      (piecesMention_mapBlocks_makeHole s column qualifier first)
      (piecesMention_mapBlocks_makeHole s column qualifier second)

theorem piecesMention_mapBlocks_makeHole (s : Scope) (column : String)
    (qualifier : Option String) :
    (ps : List Piece) → piecesMention column qualifier (Id.run (mapBlocksPieces makeHole s ps)) =
      piecesMention column qualifier ps
  | [] => rfl
  | r :: ps => congrArg₂ (· || ·) (r.mentions_mapBlocks_makeHole s column qualifier)
      (piecesMention_mapBlocks_makeHole s column qualifier ps)

end

theorem Expr.mentioned_mapBlocks_makeHole (s : Scope) (e : Option Expr) :
    (Id.run (mapBlocksOption makeHole s e)).map Expr.mentioned = e.map Expr.mentioned := by
  cases e with
  | none => rfl
  | some e =>
    exact congrArg some (funext fun column => funext fun qualifier =>
      e.mentions_mapBlocks_makeHole s column qualifier)

section Holes

variable (s : Scope)

theorem JoinTree.size_mapBlocks_makeHole (t : JoinTree) :
    (Id.run (t.mapBlocks makeHole s)).size = t.size :=
  (bind_mapBlocks_size makeHole s).1 t fun n _ => (n : Id Nat)

theorem Relation.size_mapBlocks_makeHole (r : Relation) :
    (Id.run (r.mapBlocks makeHole s)).size = r.size :=
  (bind_mapBlocks_size makeHole s).2.2 r fun n _ => (n : Id Nat)

theorem treesSize_mapBlocks_makeHole (ts : List JoinTree) :
    treesSize (Id.run (mapBlocksTrees makeHole s ts)) = treesSize ts :=
  bind_mapBlocksTrees_size makeHole s ts fun n _ => (n : Id Nat)

/-- The steps of a tree with holes are seen as those of the tree. -/
theorem sight_mapBlocks_makeHole (scope : Scope) (qualify : Bool) :
    (∀ t : JoinTree, ∀ n around around', around'.map Around.sight = around.map Around.sight →
      ((Id.run (t.mapBlocks makeHole s)).steps scope qualify n around').map Step.sight =
        (t.steps scope qualify n around).map Step.sight) ∧
    (∀ js, ∀ n around around', around'.map Around.sight = around.map Around.sight →
      (joinsSteps scope qualify n around' (Id.run (mapBlocksJoins makeHole s js))).map Step.sight =
        (joinsSteps scope qualify n around js).map Step.sight) ∧
    ∀ r : Relation, ∀ n around around', around'.map Around.sight = around.map Around.sight →
      ((Id.run (r.mapBlocks makeHole s)).steps scope qualify n around').map Step.sight =
        (r.steps scope qualify n around).map Step.sight := by
  refine JoinTree.induction ?tree ?nil ?cons ?nested ?leaf
  case tree =>
    intro relation joins ihr ihjs n around around' h
    change ((Id.run (relation.mapBlocks makeHole s)).steps scope qualify n around' ++
      joinsSteps scope qualify (n + (Id.run (relation.mapBlocks makeHole s)).size) around'
        (Id.run (mapBlocksJoins makeHole s joins))).map Step.sight = _
    rw [List.map_append, ihr n around around' h, relation.size_mapBlocks_makeHole,
      ihjs _ around around' h, JoinTree.steps, List.map_append]
  case nil => exact fun n around around' h => rfl
  case cons =>
    intro j js ihr ihjs n around around' h
    obtain ⟨isGlobal, isNatural, kind, relation, matching, on, columns⟩ := j
    have hon := Expr.mentioned_mapBlocks_makeHole s on
    have haround : ((⟨n, kind, Id.run (mapBlocksOption makeHole s on)⟩ :: around').map
        Around.sight) = (⟨n, kind, on⟩ :: around).map Around.sight := by
      rw [List.map_cons, List.map_cons, h, Around.sight, Around.sight, hon]
    let r' := Id.run (relation.mapBlocks makeHole s)
    let j' : Join := ⟨isGlobal, isNatural, kind, r', Id.run (mapBlocksOption makeHole s matching),
      Id.run (mapBlocksOption makeHole s on), columns⟩
    have hclosing : (j'.closing n).map Step.sight =
        (Join.closing n ⟨isGlobal, isNatural, kind, relation, matching, on, columns⟩).map
          Step.sight := by
      cases on <;> cases hinner : kind.isInner <;>
        simp [j', Join.closing, mapBlocksOption, hinner, Step.sight]
    have hr : (r'.steps scope qualify n (⟨n, kind, j'.on⟩ :: around')).map Step.sight = _ :=
      ihr n _ _ haround
    change (joinsSteps scope qualify n around'
      (j' :: Id.run (mapBlocksJoins makeHole s js))).map Step.sight = _
    rw [joinsSteps, List.map_append, List.map_append, hr, hclosing,
      relation.size_mapBlocks_makeHole, ihjs _ around around' h, joinsSteps, List.map_append,
      List.map_append]
  case nested =>
    intro t naming ih n around around' h
    rw [Relation.steps]
    exact ih n around around' h
  case leaf =>
    intro r hr n around around' h
    cases r with
    | nested => simp [Relation.isLeaf] at hr
    | table name partition arguments ordinality naming after =>
      cases arguments with
      | some => rfl
      | none =>
        cases htable : scope.baseTable? name with
        | none =>
          simp [Relation.mapBlocks, mapBlocksArguments, Relation.steps, Relation.leafSteps,
            Relation.refused?, Relation.target?, htable]
        | some table =>
          simp [Relation.mapBlocks, mapBlocksArguments, Relation.steps, Relation.leafSteps,
            Relation.refused?, Relation.target?, htable, Step.sight, h]
    | _ => rfl

theorem sight_mapBlocksTrees_makeHole (scope : Scope) (qualify : Bool) (ts : List JoinTree)
    (n : Nat) :
    (treesSteps scope qualify n (Id.run (mapBlocksTrees makeHole s ts))).map Step.sight =
      (treesSteps scope qualify n ts).map Step.sight := by
  induction ts generalizing n with
  | nil => rfl
  | cons t ts ih =>
    change (treesSteps scope qualify n
      (Id.run (t.mapBlocks makeHole s) :: Id.run (mapBlocksTrees makeHole s ts))).map _ = _
    rw [treesSteps, List.map_append, (sight_mapBlocks_makeHole s scope qualify).1 t n [] [] rfl,
      t.size_mapBlocks_makeHole, ih, treesSteps, List.map_append]

theorem mapBlocksTrees_makeHole_append (ts us : List JoinTree) :
    Id.run (mapBlocksTrees makeHole s (ts ++ us)) =
      Id.run (mapBlocksTrees makeHole s ts) ++ Id.run (mapBlocksTrees makeHole s us) := by
  induction ts with
  | nil => rfl
  | cons t ts ih => exact congrArg (List.cons _) ih

end Holes

namespace RowBlock

/-- A block with holes for the blocks inside of it. -/
def shell (b : RowBlock) : RowBlock :=
  Id.run (b.mapInner makeHole)

theorem shell_select (s : Scope) (b : Select) : (select s b).shell = select s (b.shell s) :=
  rfl

theorem trees_shell (b : RowBlock) :
    b.shell.trees = Id.run (mapBlocksTrees makeHole b.scope b.trees) := by
  cases b with
  | select scope s =>
    cases s
    rfl
  | update u =>
    cases u
    rfl
  | deletion d =>
    obtain ⟨tables, fromKeyword, sources, usingSources, selection, returning, orderBy, limit⟩ := d
    refine Eq.trans ?_ (mapBlocksTrees_makeHole_append .empty sources (usingSources.getD [])).symm
    cases usingSources <;> rfl

/-- The shell of a block is seen as the block. -/
theorem sight_shell (b : RowBlock) : b.shell.sight = b.sight := by
  have hscope : b.shell.scope = b.scope := by cases b <;> rfl
  have hselection : b.shell.selection = Id.run (mapBlocksOption makeHole b.scope b.selection) := by
    obtain ⟨_, ⟨⟩⟩ | ⟨⟨⟩⟩ | ⟨⟨⟩⟩ := b <;> rfl
  have hqualify : b.shell.qualify = b.qualify := by
    rw [qualify, qualify, trees_shell, treesSize_mapBlocks_makeHole]
  rw [sight, sight, hselection, Expr.mentioned_mapBlocks_makeHole, steps, steps, hscope, hqualify,
    trees_shell, sight_mapBlocksTrees_makeHole]

end RowBlock

/-! ## Tables that are seen alike -/

/-- What is seen of a table that is asked for. -/
def Leaf.sight (l : Leaf) : String × Option String × List (Nat × JoinKind × Option Mentions) :=
  (l.target.table, l.target.qualifier, l.around.map Around.sight)

/-- The table that is seen to be asked for. -/
def StepSight.leaf? :
    StepSight → Option (String × Option String × List (Nat × JoinKind × Option Mentions))
  | .ask table qualifier around => some (table, qualifier, around)
  | _ => none

theorem leavesOf_sight (steps : List Step) :
    (leavesOf steps).map Leaf.sight = (steps.map Step.sight).filterMap StepSight.leaf? := by
  induction steps with
  | nil => rfl
  | cons step steps ih =>
    rw [← List.singleton_append, leavesOf_append, List.map_append, List.map_append,
      List.filterMap_append, ih]
    cases step <;> rfl

theorem refused_sight {steps steps' : List Step}
    (h : steps.map Step.sight = steps'.map Step.sight) : Refused steps → Refused steps' := by
  rintro ⟨construct, fragment, hmem⟩
  have hsight : StepSight.refuse construct ∈ steps'.map Step.sight :=
    h ▸ List.mem_map_of_mem hmem
  obtain ⟨step, hstep, heq⟩ := List.mem_map.mp hsight
  cases step <;> cases heq
  exact ⟨_, _, hstep⟩

/-- Whether a predicate is seen to go no further out than a join. -/
def stopsSight (x : Nat × JoinKind × Option Mentions) : Bool :=
  x.2.2.isSome || !x.2.1.isInner

theorem find?_sight (around : List Around) :
    (around.find? (·.stops)).map Around.sight = (around.map Around.sight).find? stopsSight := by
  have hstops : stopsSight ∘ Around.sight = (·.stops) := by
    funext x
    obtain ⟨n, kind, on⟩ := x
    cases on <;> rfl
  rw [List.find?_map, hstops]

section Alike

variable {l l' : Leaf} (h : l.sight = l'.sight)
include h

theorem Leaf.find?_of_sight :
    (l.around.find? (·.stops)).map Around.sight = (l'.around.find? (·.stops)).map Around.sight := by
  have haround : l.around.map Around.sight = l'.around.map Around.sight :=
    congrArg (·.2.2) h
  rw [find?_sight, find?_sight, haround]

theorem Leaf.home_of_sight : l.home = l'.home := by
  have hfind := Leaf.find?_of_sight h
  unfold home homeIn
  cases hx : l.around.find? (·.stops) with
  | none =>
    cases hy : l'.around.find? (·.stops) with
    | none => rfl
    | some y => simp [hx, hy] at hfind
  | some x =>
    cases hy : l'.around.find? (·.stops) with
    | none => simp [hx, hy] at hfind
    | some y =>
      obtain ⟨n, kind, on⟩ := x
      obtain ⟨n', kind', on'⟩ := y
      cases on <;> cases on' <;> simp [hx, hy, Around.sight] at hfind ⊢
      all_goals exact hfind.1

/-- Predicates of tables that are seen alike stand behind conditions that are seen alike. -/
theorem Leaf.mentioned_of_sight {e e' : Option Expr}
    (he : e.map Expr.mentioned = e'.map Expr.mentioned) :
    (standingIn l.around e).map Expr.mentioned = (standingIn l'.around e').map Expr.mentioned := by
  have hfind := Leaf.find?_of_sight h
  unfold standingIn
  cases hx : l.around.find? (·.stops) with
  | none =>
    cases hy : l'.around.find? (·.stops) with
    | none => exact he
    | some y => simp [hx, hy] at hfind
  | some x =>
    cases hy : l'.around.find? (·.stops) with
    | none => simp [hx, hy] at hfind
    | some y =>
      rw [hx, hy, Option.map_some, Option.map_some, Option.some.injEq] at hfind
      exact congrArg (·.2.2) hfind

end Alike

/-! ## Answers that rest on what is seen -/

/-- Whether what a predicate answers without an error rests on what is seen of a table. -/
def Shallow (predicate : Target → Option Expr → Except PolicyError (Option Expr)) : Prop :=
  ∀ {t t' : Target} {e e' : Option Expr} {r : Option Expr}, t.table = t'.table →
    t.qualifier = t'.qualifier → e.map Expr.mentioned = e'.map Expr.mentioned →
    predicate t e = .ok r → predicate t' e' = .ok r

/-- Blocks that are seen alike are answered for alike. -/
theorem RowBlock.follows_of_sight
    {predicate : Target → Option Expr → Except PolicyError (Option Expr)}
    (hshallow : Shallow predicate) {b b' : RowBlock} (h : b.sight = b'.sight) :
    b'.Follows predicate b := by
  obtain ⟨hselection, hsteps⟩ := Prod.mk.inj h
  have hsights : b.leaves.map Leaf.sight = b'.leaves.map Leaf.sight := by
    rw [leaves, leaves, leavesOf_sight, leavesOf_sight, hsteps]
  rw [← List.forall₂_eq_eq_eq, List.forall₂_map_left_iff, List.forall₂_map_right_iff] at hsights
  refine ⟨hsights.imp fun l l' hl => ⟨(Leaf.home_of_sight hl).symm, fun p hp => ?_⟩,
    fun hr => refused_sight hsteps.symm hr⟩
  exact hshallow (congrArg (·.1) hl) (congrArg (·.2.1) hl)
    (Leaf.mentioned_of_sight hl hselection) hp

end RowPolicy.Sql
