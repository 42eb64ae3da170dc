import RowPolicy.Proofs.Joins.Carried
import RowPolicy.Proofs.Tables.Traversal

/-!
# What restricting leaves of a block

Neither a traversal nor the predicates that are put behind conditions change which tables a block
names. Predicates without queries bring in no use of a table either, so a restricted block has the
uses inside of it that the block had.
-/

namespace RowPolicy.Sql

/-! ## Names behind a traversal -/

section Named

variable (f : Scope → Select → Except PolicyError Select) (s : Scope)

mutual

theorem JoinTree.named_mapBlocks : (t : JoinTree) →
    After (fun t' => t'.named = t.named) (t.mapBlocks f s)
  | ⟨relation, joins⟩ => by
    rw [JoinTree.mapBlocks]
    refine relation.named_mapBlocks.bind fun relation' h1 => ?_
    exact (named_mapBlocksJoins joins).map fun joins' h2 => by
      rw [JoinTree.named, JoinTree.named, h1, h2]

theorem named_mapBlocksJoins : (js : List Join) →
    After (fun js' => joinsNamed js' = joinsNamed js) (mapBlocksJoins f s js)
  | [] => by
    rw [mapBlocksJoins]
    exact .pure rfl
  | ⟨_, _, _, relation, matching, on, _⟩ :: js => by
    rw [mapBlocksJoins]
    refine relation.named_mapBlocks.bind fun relation' h1 => ?_
    refine (After.any _).bind fun matching' _ => ?_
    refine (After.any _).bind fun on' _ => ?_
    exact (named_mapBlocksJoins js).map fun js' h2 => by
      rw [joinsNamed, joinsNamed, h1, h2]

theorem Relation.named_mapBlocks : (r : Relation) →
    After (fun r' => r'.named = r.named) (r.mapBlocks f s)
  | .table _ _ arguments _ _ after => by
    rw [Relation.mapBlocks]
    refine (After.any _).bind fun arguments' _ => ?_
    exact (After.any _).map fun after' _ => by rw [Relation.named, Relation.named]
  | .derived _ query _ => by
    rw [Relation.mapBlocks]
    exact (After.any _).map fun query' _ => by rw [Relation.named, Relation.named]
  | .nested tree _ => by
    rw [Relation.mapBlocks]
    exact tree.named_mapBlocks.map fun tree' h => by rw [Relation.named, Relation.named, h]
  | .transformed _ source ps _ => by
    rw [Relation.mapBlocks]
    refine source.named_mapBlocks.bind fun source' h => ?_
    exact (After.any _).map fun ps' _ => by rw [Relation.named, Relation.named, h]
  | .other _ ps _ _ => by
    rw [Relation.mapBlocks]
    exact (After.any _).map fun ps' _ => by rw [Relation.named, Relation.named]

end

theorem named_mapBlocksTrees (ts : List JoinTree) :
    After (fun ts' => treesNamed ts' = treesNamed ts) (mapBlocksTrees f s ts) := by
  induction ts with
  | nil =>
    rw [mapBlocksTrees]
    exact .pure rfl
  | cons t ts ih =>
    rw [mapBlocksTrees]
    refine (t.named_mapBlocks f s).bind fun t' h1 => ?_
    exact ih.map fun ts' h2 => by
      simp only [treesNamed, List.flatMap_cons] at h2 ⊢
      rw [h1, h2]

theorem treesNamed_append (ts us : List JoinTree) :
    treesNamed (ts ++ us) = treesNamed ts ++ treesNamed us :=
  List.flatMap_append

theorem Select.named_mapInner (b : Select) :
    After (fun b' => treesNamed b'.sources = treesNamed b.sources) (b.mapInner f s) := by
  cases b
  rw [Select.mapInner]
  refine (After.any _).bind fun distinct _ => ?_
  refine (After.any _).bind fun top _ => ?_
  refine (After.any _).bind fun projection _ => ?_
  refine (named_mapBlocksTrees f s _).bind fun sources h => ?_
  refine (After.any _).bind fun beforeWhere _ => ?_
  refine (After.any _).bind fun selection _ => ?_
  refine (After.any _).bind fun grouping _ => ?_
  refine (After.any _).bind fun windows _ => ?_
  refine (After.any _).bind fun qualify _ => ?_
  exact (After.any _).map fun connect _ => h

theorem Insertion.table_mapBlocks (i : Insertion) :
    After (fun i' => i'.table = i.table) (i.mapBlocks f s) := by
  cases i
  rw [Insertion.mapBlocks]
  refine (After.any _).bind fun source _ => ?_
  refine (After.any _).bind fun assignments _ => ?_
  refine (After.any _).bind fun partition _ => ?_
  refine (After.any _).bind fun onConflict _ => ?_
  exact (After.any _).map fun returning _ => rfl

theorem Update.named_mapBlocks (u : Update) :
    After (fun u' => treesNamed (u'.table :: u'.sources) = treesNamed (u.table :: u.sources))
      (u.mapBlocks f s) := by
  cases u
  rw [Update.mapBlocks]
  refine (JoinTree.named_mapBlocks f s _).bind fun table h1 => ?_
  refine (After.any _).bind fun assignments _ => ?_
  refine (named_mapBlocksTrees f s _).bind fun sources h2 => ?_
  refine (After.any _).bind fun selection _ => ?_
  refine (After.any _).bind fun returning _ => ?_
  exact (After.any _).map fun limit _ => by
    simp only [treesNamed, List.flatMap_cons] at h2 ⊢
    rw [h1, h2]

theorem Deletion.named_mapBlocks (d : Deletion) :
    After (fun d' => treesNamed (d'.sources ++ d'.usingSources.getD []) =
        treesNamed (d.sources ++ d.usingSources.getD [])) (d.mapBlocks f s) := by
  have husing : ∀ ts : Option (List JoinTree),
      After (fun ts' => treesNamed (ts'.getD []) = treesNamed (ts.getD []))
        (mapBlocksUsing f s ts) := by
    intro ts
    cases ts with
    | none =>
      rw [mapBlocksUsing]
      exact .pure rfl
    | some ts =>
      rw [mapBlocksUsing]
      exact (named_mapBlocksTrees f s ts).map fun ts' h => h
  cases d
  rw [Deletion.mapBlocks]
  refine (named_mapBlocksTrees f s _).bind fun sources h1 => ?_
  refine (husing _).bind fun usingSources h2 => ?_
  refine (After.any _).bind fun selection _ => ?_
  refine (After.any _).bind fun returning _ => ?_
  refine (After.any _).bind fun orderBy _ => ?_
  exact (After.any _).map fun limit _ => by
    rw [treesNamed_append, treesNamed_append, h1, h2]

end Named

/-! ## Amended blocks -/

theorem named_amended (g : Nat → List Expr) :
    (∀ t : JoinTree, ∀ n, (t.amended g n).named = t.named) ∧
    (∀ js, ∀ n, joinsNamed (joinsAmended g n js) = joinsNamed js) ∧
    ∀ r : Relation, ∀ n, (r.amended g n).named = r.named := by
  refine JoinTree.induction ?tree ?nil ?cons ?nested ?leaf
  case tree =>
    intro relation joins ihr ihjs n
    rw [JoinTree.amended, JoinTree.named, JoinTree.named, ihr, ihjs]
  case nil => exact fun n => rfl
  case cons =>
    intro j js ihr ihjs n
    cases j
    rw [joinsAmended, joinsNamed, joinsNamed, ihr, ihjs]
  case nested =>
    intro t naming ih n
    rw [Relation.amended, Relation.named, Relation.named, ih]
  case leaf =>
    intro r hr n
    rw [Relation.amended_leaf hr]

theorem treesNamed_amended (g : Nat → List Expr) (ts : List JoinTree) (n : Nat) :
    treesNamed (treesAmended g n ts) = treesNamed ts := by
  induction ts generalizing n with
  | nil => rfl
  | cons t ts ih =>
    have hrest := ih (n + t.size)
    simp only [treesNamed, treesAmended, List.flatMap_cons, (named_amended g).1] at hrest ⊢
    rw [hrest]

section Uses

variable (p : Place)

theorem Expr.uses_parenthesized (e : Expr) : e.parenthesized.uses p = e.uses p := by
  unfold parenthesized
  split <;> simp [Expr.uses]

theorem Expr.uses_conjoin (e : Option Expr) {q : Expr} (hq : q.uses p = []) :
    (Expr.conjoin e q).uses p = usesOption p e := by
  cases e <;> simp [conjoin, Expr.uses, uses_parenthesized, usesOption, hq]

theorem Expr.uses_withAll (e : Expr) {ps : List Expr} (h : ∀ q ∈ ps, q.uses p = []) :
    (e.withAll ps).uses p = e.uses p := by
  induction ps generalizing e with
  | nil => rfl
  | cons q qs ih =>
    obtain ⟨hq, hqs⟩ := List.forall_mem_cons.mp h
    refine (ih (.conjoin (some e) q) hqs).trans ?_
    rw [Expr.uses_conjoin p (some e) hq, usesOption]

theorem usesOption_conjoinAll (e : Option Expr) {ps : List Expr} (h : ∀ q ∈ ps, q.uses p = []) :
    usesOption p (Expr.conjoinAll e ps) = usesOption p e := by
  induction ps generalizing e with
  | nil => rfl
  | cons q qs ih =>
    obtain ⟨hq, hqs⟩ := List.forall_mem_cons.mp h
    refine (ih (some (.conjoin e q)) hqs).trans ?_
    rw [usesOption, Expr.uses_conjoin p e hq]

theorem Expr.uses_hasValue (t : Target) (column : String) (v : Value) :
    (Expr.hasValue (t.column column) v).uses p = [] := by
  unfold hasValue
  split <;> simp [Expr.uses, Target.column, ofColumn, ofValue]

variable {g : Nat → List Expr} (hg : ∀ i, ∀ q ∈ g i, q.uses p = [])
include hg

/-- Predicates without queries bring in no use. -/
theorem uses_amended :
    (∀ t : JoinTree, ∀ n, (t.amended g n).uses p = t.uses p) ∧
    (∀ js, ∀ n, usesJoins p (joinsAmended g n js) = usesJoins p js) ∧
    ∀ r : Relation, ∀ n, (r.amended g n).uses p = r.uses p := by
  refine JoinTree.induction ?tree ?nil ?cons ?nested ?leaf
  case tree =>
    intro relation joins ihr ihjs n
    rw [JoinTree.amended, JoinTree.uses, JoinTree.uses, ihr, ihjs]
  case nil => exact fun n => rfl
  case cons =>
    intro j js ihr ihjs n
    obtain ⟨isGlobal, isNatural, kind, relation, matching, on, columns⟩ := j
    have hon : usesOption p (on.map (·.withAll (g n))) = usesOption p on := by
      cases on with
      | none => rfl
      | some e => rw [Option.map_some, usesOption, usesOption, e.uses_withAll p (hg n)]
    rw [joinsAmended, usesJoins, usesJoins, ihr, ihjs, hon]
  case nested =>
    intro t naming ih n
    rw [Relation.amended, Relation.uses, Relation.uses, ih]
  case leaf =>
    intro r hr n
    rw [Relation.amended_leaf hr]

theorem usesTrees_amended (ts : List JoinTree) (n : Nat) :
    usesTrees p (treesAmended g n ts) = usesTrees p ts := by
  induction ts generalizing n with
  | nil => rfl
  | cons t ts ih => rw [treesAmended, usesTrees, usesTrees, (uses_amended p hg).1, ih]

end Uses

namespace RowBlock

/-- The site that a block is. -/
def site : RowBlock → Site
  | select _ s => .select s
  | update u => .update u
  | deletion d => .delete d

/-- The uses of tables inside of a block. -/
def inside (p : Place) : RowBlock → List Use
  | select _ s => s.uses p
  | update u => u.uses p
  | deletion d => d.uses p

theorem named_amended (as : List Answer) (b : RowBlock) :
    (b.amended as).site.named = b.site.named := by
  cases b with
  | select scope s => exact treesNamed_amended _ s.sources 0
  | update u =>
    have h := treesNamed_amended (additions as) (u.table :: u.sources) 0
    rw [treesAmended, Nat.zero_add] at h
    exact h
  | deletion d =>
    have h := treesNamed_amended (additions as) (d.sources ++ d.usingSources.getD []) 0
    rw [treesAmended_append, Nat.zero_add] at h
    refine Eq.trans ?_ h
    cases hd : d.usingSources <;> simp [amended, site, Site.named, hd, treesAmended]

/-- Predicates without queries bring in no use. -/
theorem inside_amended {as : List Answer} {p : Place}
    (h : ∀ l e, (l, some e) ∈ as → e.uses p = []) (b : RowBlock) :
    (b.amended as).inside p = b.inside p := by
  have hat : ∀ home, ∀ q ∈ answersAt home as, q.uses p = [] := by
    intro home q hq
    obtain ⟨⟨l, o⟩, hx, ho⟩ := List.mem_filterMap.mp hq
    split at ho
    · exact h l q (by rwa [← ho])
    · cases ho
  have hg : ∀ i, ∀ q ∈ additions as i, q.uses p = [] := fun i => hat (.on i)
  cases b with
  | select scope s =>
    cases s
    simp only [amended, inside, Select.uses, usesTrees_amended p hg,
      usesOption_conjoinAll p _ (hat .selection)]
  | update u =>
    cases u
    simp only [amended, inside, Update.uses, (uses_amended p hg).1, usesTrees_amended p hg,
      usesOption_conjoinAll p _ (hat .selection)]
  | deletion d =>
    obtain ⟨tables, fromKeyword, sources, usingSources, selection, returning, orderBy, limit⟩ := d
    cases usingSources <;>
      simp only [amended, inside, Deletion.uses, Option.map_none, Option.map_some, usesUsing,
        usesTrees_amended p hg, usesOption_conjoinAll p _ (hat .selection)]

end RowBlock

end RowPolicy.Sql
