import Mathlib.Data.List.Nodup
import Mathlib.Logic.Function.Basic
import RowPolicy.Proofs.Joins.Meaning

/-!
# Where predicates go

To restrict a block is to ask for the predicates of its tables, in order, and then to put them where
they belong. `placed` is the second step by itself, a function of the answers: the predicate of a
table goes to the nearest `ON` around it, and `outward` lists the tables that have none inside a
tree. The main statement, `Select.restrict_eq`, holds for blocks of which no join loses a predicate
and whose tables are asked for once each.
-/

namespace RowPolicy.Sql

/-! ## Joins that keep predicates -/

/-- Whether a join is an inner one between relations that do not see each other. -/
def JoinKind.isPlainInner : JoinKind → Bool
  | .join | .inner | .cross | .straight => true
  | _ => false

/-- Whether a join keeps its left side and not its right one. -/
def JoinKind.isLeft : JoinKind → Bool
  | .left | .leftOuter => true
  | _ => false

/-- Whether a join keeps one side or both. -/
def JoinKind.isOuter : JoinKind → Bool
  | .left | .leftOuter | .right | .rightOuter | .full => true
  | _ => false

mutual

/-- Whether a tree joins tables, queries and nested joins by plain inner joins and, with an `ON`, by
joins of a kind in `outer`. -/
def JoinTree.joinsBy (outer : JoinKind → Bool) : JoinTree → Bool
  | ⟨relation, joins⟩ => relation.joinsBy outer && joinsJoinBy outer joins

/-- Whether joins are plain inner ones or, with an `ON`, of a kind in `outer`. -/
def joinsJoinBy (outer : JoinKind → Bool) : List Join → Bool
  | [] => true
  | ⟨_, _, kind, relation, _, on, _⟩ :: js =>
    (kind.isPlainInner || (outer kind && on.isSome)) && relation.joinsBy outer &&
      joinsJoinBy outer js

/-- Whether a relation is a table, a query, or a nested join of such relations. -/
def Relation.joinsBy (outer : JoinKind → Bool) : Relation → Bool
  | .nested tree _ => tree.joinsBy outer
  | .table _ _ arguments _ _ _ => arguments.isNone
  | .derived _ _ _ => true
  | .transformed _ _ _ _ => false
  | .other _ _ _ _ => false

end

/-- Whether all trees of a `FROM` join by such joins. -/
def treesJoinBy (outer : JoinKind → Bool) (ts : List JoinTree) : Bool :=
  ts.all (·.joinsBy outer)

theorem joinsSize_cons (j : Join) (js : List Join) :
    joinsSize (j :: js) = j.relation.size + joinsSize js := by
  cases j
  rw [joinsSize]

theorem joinsJoinBy_cons (outer : JoinKind → Bool) (j : Join) (js : List Join) :
    joinsJoinBy outer (j :: js) =
      ((j.kind.isPlainInner || (outer j.kind && j.on.isSome)) && j.relation.joinsBy outer &&
        joinsJoinBy outer js) := by
  cases j
  rw [joinsJoinBy]

/-- A join without `ON` of such a tree is an inner one. -/
theorem JoinKind.isInner_of_isPlainInner {k : JoinKind} (h : k.isPlainInner = true) :
    k.isInner = true := by
  cases k <;> first | rfl | simp [isPlainInner] at h

/-! ## Tables -/

section Tables

variable (s : Scope) (qualify : Bool)

/-- A relation as a target, if it is a base table. -/
def Relation.target? : Relation → Option Target
  | .table name partition none ordinality naming after =>
    (s.baseTable? name).map fun table =>
      ⟨table, qualifierOf naming table qualify,
        (Relation.table name partition none ordinality naming after).render⟩
  | _ => none

mutual

/-- The tables of a tree of joins, in order. -/
def JoinTree.targets : JoinTree → List Target
  | ⟨relation, joins⟩ => relation.targets ++ joinsTargets joins

/-- The tables that are joined, in order. -/
def joinsTargets : List Join → List Target
  | [] => []
  | ⟨_, _, _, relation, _, _, _⟩ :: js => relation.targets ++ joinsTargets js

/-- The tables of a relation, in order. -/
def Relation.targets : Relation → List Target
  | .nested tree _ => tree.targets
  | r => (r.target? s qualify).toList

end

/-- The tables of a `FROM`, in order. -/
def treesTargets (ts : List JoinTree) : List Target :=
  ts.flatMap (·.targets s qualify)

theorem joinsTargets_cons (j : Join) (js : List Join) :
    joinsTargets s qualify (j :: js) =
      j.relation.targets s qualify ++ joinsTargets s qualify js := by
  cases j
  rw [joinsTargets]

theorem Relation.targets_leaf {r : Relation} (h : r.isLeaf) :
    r.targets s qualify = (r.target? s qualify).toList := by
  cases r with
  | nested => simp [Relation.isLeaf] at h
  | _ => rw [Relation.targets]; exact fun _ _ h => by cases h

mutual

/-- The tables of a tree of joins that no `ON` in it is around. -/
def JoinTree.outward : JoinTree → List Target
  | ⟨relation, joins⟩ => relation.outward ++ joinsOutward joins

/-- The joined tables that no `ON` is around. -/
def joinsOutward : List Join → List Target
  | [] => []
  | ⟨_, _, _, relation, _, on, _⟩ :: js =>
    (if on.isSome then [] else relation.outward) ++ joinsOutward js

/-- The tables of a relation that no `ON` in it is around. -/
def Relation.outward : Relation → List Target
  | .nested tree _ => tree.outward
  | r => (r.target? s qualify).toList

end

/-- The tables of a `FROM` that no `ON` is around. -/
def treesOutward (ts : List JoinTree) : List Target :=
  ts.flatMap (·.outward s qualify)

theorem joinsOutward_cons (j : Join) (js : List Join) :
    joinsOutward s qualify (j :: js) =
      (if j.on.isSome then [] else j.relation.outward s qualify) ++ joinsOutward s qualify js := by
  cases j
  rw [joinsOutward]

theorem Relation.outward_leaf {r : Relation} (h : r.isLeaf) :
    r.outward s qualify = (r.target? s qualify).toList := by
  cases r with
  | nested => simp [Relation.isLeaf] at h
  | _ => rw [Relation.outward]; exact fun _ _ h => by cases h

variable (a : Target → Option Expr)

/-- A condition with the predicates of tables behind it. -/
def Expr.withPredicates (e : Option Expr) (ts : List Target) : Option Expr :=
  Expr.conjoinAll e (ts.filterMap a)

mutual

/-- A tree of joins with the predicates that belong to an `ON` in it. -/
def JoinTree.placed : JoinTree → JoinTree
  | ⟨relation, joins⟩ => ⟨relation.placed, joinsPlaced joins⟩

/-- Joins with the predicates that belong to an `ON` of them. -/
def joinsPlaced : List Join → List Join
  | [] => []
  | ⟨isGlobal, isNatural, kind, relation, matching, on, columns⟩ :: js =>
    ⟨isGlobal, isNatural, kind, relation.placed, matching,
      on.bind fun e => Expr.withPredicates a (some e) (relation.outward s qualify),
      columns⟩ :: joinsPlaced js

/-- A relation with the predicates that belong to an `ON` in it. -/
def Relation.placed : Relation → Relation
  | .nested tree naming => .nested tree.placed naming
  | r => r

end

/-- A join with the predicates that belong to its `ON`, or to one in what it joins. -/
def Join.placed (j : Join) : Join :=
  { j with
    relation := j.relation.placed s qualify a
    on := j.on.bind fun e => Expr.withPredicates a (some e) (j.relation.outward s qualify) }

theorem joinsPlaced_cons (j : Join) (js : List Join) :
    joinsPlaced s qualify a (j :: js) = j.placed s qualify a :: joinsPlaced s qualify a js := by
  cases j
  rw [joinsPlaced]
  rfl

theorem Relation.placed_leaf {r : Relation} (h : r.isLeaf) : r.placed s qualify a = r := by
  cases r with
  | nested => simp [Relation.isLeaf] at h
  | _ => rw [Relation.placed]; exact fun _ _ h => by cases h

end Tables

/-- A select block with the predicates of its tables where they belong. -/
def Select.placed (s : Scope) (a : Target → Option Expr) (b : Select) : Select :=
  let qualify := 1 < treesSize b.sources
  { b with
    sources := b.sources.map (·.placed s qualify a)
    selection := Expr.withPredicates a b.selection (treesOutward s qualify b.sources) }

/-- The tables that a select block asks for, in order. -/
def Select.targets (s : Scope) (b : Select) : List Target :=
  treesTargets s (1 < treesSize b.sources) b.sources

/-! ## Names of tables -/

/-- The name of the relation that a target is. -/
def Target.name (t : Target) : String :=
  t.qualifier.getD t.table

section Names

variable {s : Scope} {qualify : Bool}

theorem Scope.last?_of_baseTable? {name : Name} {table : String}
    (h : s.baseTable? name = some table) : Name.last? name = some table := by
  unfold Scope.baseTable? at h
  cases hl : Name.last? name with
  | none => simp [hl] at h
  | some last =>
    simp only [hl, Option.bind_eq_bind, Option.bind_some] at h
    split at h
    · simp at h
    · exact h

theorem Relation.name?_of_target? {r : Relation} {t : Target}
    (h : r.target? s qualify = some t) : r.name? = some t.name := by
  unfold Relation.target? at h
  split at h
  · rename_i name partition ordinality naming after
    obtain ⟨table, htable, rfl⟩ := Option.map_eq_some_iff.mp h
    have hlast := Scope.last?_of_baseTable? htable
    cases naming with
    | none => cases qualify <;> simp [Relation.name?, Target.name, qualifierOf, hlast]
    | some n => simp [Relation.name?, Target.name, qualifierOf]
  · simp at h

/-- The tables of a tree stand in it under their names. -/
theorem targets_sublist_names :
    (∀ t : JoinTree, ((t.targets s qualify).map Target.name).Sublist (t.names.filterMap id)) ∧
    (∀ js, ((joinsTargets s qualify js).map Target.name).Sublist ((joinsNames js).filterMap id)) ∧
    ∀ r : Relation, ((r.targets s qualify).map Target.name).Sublist (r.names.filterMap id) := by
  refine JoinTree.induction ?tree ?nil ?cons ?nested ?leaf
  case tree =>
    intro relation joins ihr ihjs
    simp only [JoinTree.targets, JoinTree.names, List.map_append, List.filterMap_append]
    exact ihr.append ihjs
  case nil => simp [joinsTargets]
  case cons =>
    intro j js ihr ihjs
    simp only [joinsTargets_cons, joinsNames_cons, List.map_append, List.filterMap_append]
    exact ihr.append ihjs
  case nested =>
    intro t naming ih
    simpa only [Relation.targets, Relation.names] using ih
  case leaf =>
    intro r h
    rw [Relation.targets_leaf s qualify h, Relation.names_leaf h]
    cases ht : r.target? s qualify with
    | none => simp
    | some t => simp [Relation.name?_of_target? ht]

theorem treesTargets_sublist_names (ts : List JoinTree) :
    ((treesTargets s qualify ts).map Target.name).Sublist ((treesNames ts).filterMap id) := by
  induction ts with
  | nil => simp [treesTargets]
  | cons t ts ih =>
    simp only [treesTargets, treesNames, List.flatMap_cons, List.map_append,
      List.filterMap_append] at ih ⊢
    exact (targets_sublist_names.1 t).append ih

/-- What goes outward is asked for. -/
theorem outward_subset_targets :
    (∀ t : JoinTree, t.outward s qualify ⊆ t.targets s qualify) ∧
    (∀ js, joinsOutward s qualify js ⊆ joinsTargets s qualify js) ∧
    ∀ r : Relation, r.outward s qualify ⊆ r.targets s qualify := by
  refine JoinTree.induction ?tree ?nil ?cons ?nested ?leaf
  case tree =>
    intro relation joins ihr ihjs
    simp only [JoinTree.targets, JoinTree.outward]
    exact List.append_subset.mpr ⟨List.subset_append_of_subset_left _ ihr,
      List.subset_append_of_subset_right _ ihjs⟩
  case nil => simp [joinsOutward]
  case cons =>
    intro j js ihr ihjs
    simp only [joinsTargets_cons, joinsOutward_cons]
    refine List.append_subset.mpr ⟨?_, List.subset_append_of_subset_right _ ihjs⟩
    split
    · simp
    · exact List.subset_append_of_subset_left _ ihr
  case nested =>
    intro t naming ih
    simpa only [Relation.targets, Relation.outward] using ih
  case leaf =>
    intro r h
    rw [Relation.targets_leaf s qualify h, Relation.outward_leaf s qualify h]
    exact List.Subset.refl _

/-- A table of a relation has a name in it. -/
theorem name_mem_of_target {r : Relation} {t : Target} (h : t ∈ r.targets s qualify) :
    some t.name ∈ r.names := by
  have hmem : t.name ∈ r.names.filterMap id :=
    (targets_sublist_names.2.2 r).subset (List.mem_map_of_mem h)
  simpa using hmem

theorem name_mem_of_outward {r : Relation} {t : Target} (h : t ∈ r.outward s qualify) :
    some t.name ∈ r.names :=
  name_mem_of_target (outward_subset_targets.2.2 r h)

theorem JoinTree.name_mem_of_target {t : JoinTree} {x : Target} (h : x ∈ t.targets s qualify) :
    some x.name ∈ t.names := by
  have hnested : x ∈ (Relation.nested t none).targets s qualify := by
    rwa [Relation.targets]
  have hname := RowPolicy.Sql.name_mem_of_target hnested
  rwa [Relation.names] at hname

theorem JoinTree.name_mem_of_outward {t : JoinTree} {x : Target} (h : x ∈ t.outward s qualify) :
    some x.name ∈ t.names :=
  t.name_mem_of_target (outward_subset_targets.1 t h)

theorem name_mem_of_treesTargets {ts : List JoinTree} {x : Target}
    (h : x ∈ treesTargets s qualify ts) : some x.name ∈ treesNames ts := by
  obtain ⟨t, ht, hx⟩ := List.mem_flatMap.mp h
  exact List.mem_flatMap.mpr ⟨t, ht, t.name_mem_of_target hx⟩

theorem treesOutward_subset_treesTargets (ts : List JoinTree) :
    treesOutward s qualify ts ⊆ treesTargets s qualify ts := by
  intro x hx
  obtain ⟨t, ht, hx⟩ := List.mem_flatMap.mp hx
  exact List.mem_flatMap.mpr ⟨t, ht, outward_subset_targets.1 t hx⟩

theorem name_mem_of_treesOutward {ts : List JoinTree} {x : Target}
    (h : x ∈ treesOutward s qualify ts) : some x.name ∈ treesNames ts :=
  name_mem_of_treesTargets (treesOutward_subset_treesTargets ts h)

theorem nodup_of_append {ns ms : List (Option String)} (h : ((ns ++ ms).filterMap id).Nodup) :
    (ns.filterMap id).Nodup ∧ (ms.filterMap id).Nodup := by
  rw [List.filterMap_append, List.nodup_append] at h
  exact ⟨h.1, h.2.1⟩

/-- A name on the right is none on the left. -/
theorem notMem_of_nodup {ns ms : List (Option String)} {name : String}
    (h : ((ns ++ ms).filterMap id).Nodup) (hmem : some name ∈ ms) : some name ∉ ns := by
  rw [List.filterMap_append, List.nodup_append] at h
  intro hns
  exact h.2.2 name (List.mem_filterMap.mpr ⟨_, hns, rfl⟩) name
    (List.mem_filterMap.mpr ⟨_, hmem, rfl⟩) rfl

/-- The relations keep their names. -/
theorem names_placed (a : Target → Option Expr) :
    (∀ t : JoinTree, (t.placed s qualify a).names = t.names) ∧
    (∀ js, joinsNames (joinsPlaced s qualify a js) = joinsNames js) ∧
    ∀ r : Relation, (r.placed s qualify a).names = r.names := by
  refine JoinTree.induction ?tree ?nil ?cons ?nested ?leaf
  case tree =>
    intro relation joins ihr ihjs
    simp only [JoinTree.placed, JoinTree.names, ihr, ihjs]
  case nil => simp [joinsPlaced]
  case cons =>
    intro j js ihr ihjs
    simp only [joinsPlaced_cons, joinsNames_cons, Join.placed, ihr, ihjs]
  case nested =>
    intro t naming ih
    simp only [Relation.placed, Relation.names, ih]
  case leaf =>
    intro r h
    rw [Relation.placed_leaf s qualify a h]

theorem Expr.withPredicates_congr {a b : Target → Option Expr} {ts : List Target}
    (h : ∀ t ∈ ts, a t = b t) (e : Option Expr) :
    Expr.withPredicates a e ts = Expr.withPredicates b e ts := by
  rw [withPredicates, withPredicates, List.filterMap_congr h]

/-- Only the answers for the tables of a tree matter to it. -/
theorem placed_congr {a b : Target → Option Expr} :
    (∀ t : JoinTree, (∀ x ∈ t.targets s qualify, a x = b x) →
      t.placed s qualify a = t.placed s qualify b) ∧
    (∀ js, (∀ x ∈ joinsTargets s qualify js, a x = b x) →
      joinsPlaced s qualify a js = joinsPlaced s qualify b js) ∧
    ∀ r : Relation, (∀ x ∈ r.targets s qualify, a x = b x) →
      r.placed s qualify a = r.placed s qualify b := by
  refine JoinTree.induction ?tree ?nil ?cons ?nested ?leaf
  case tree =>
    intro relation joins ihr ihjs h
    simp only [JoinTree.targets, List.forall_mem_append] at h
    simp only [JoinTree.placed, ihr h.1, ihjs h.2]
  case nil => simp [joinsPlaced]
  case cons =>
    intro j js ihr ihjs h
    simp only [joinsTargets_cons, List.forall_mem_append] at h
    have hout : ∀ e, Expr.withPredicates a e (j.relation.outward s qualify) =
        Expr.withPredicates b e (j.relation.outward s qualify) :=
      Expr.withPredicates_congr fun t ht => h.1 t (outward_subset_targets.2.2 _ ht)
    simp only [joinsPlaced_cons, Join.placed, ihr h.1, ihjs h.2, hout]
  case nested =>
    intro t naming ih h
    simp only [Relation.targets] at h
    simp only [Relation.placed, ih h]
  case leaf =>
    intro r h _
    simp only [Relation.placed_leaf s qualify _ h]

theorem Join.placed_congr {a b : Target → Option Expr} {j : Join}
    (h : ∀ t ∈ j.relation.targets s qualify, a t = b t) :
    j.placed s qualify a = j.placed s qualify b := by
  have hout : ∀ e, Expr.withPredicates a e (j.relation.outward s qualify) =
      Expr.withPredicates b e (j.relation.outward s qualify) :=
    Expr.withPredicates_congr fun t ht => h t (outward_subset_targets.2.2 _ ht)
  simp only [Join.placed, RowPolicy.Sql.placed_congr.2.2 _ h, hout]

end Names

/-! ## Asking -/

section Asking

variable {β : Target → Type}

/-- Answers for the tables `ts` by `a` and for all others by `b`. -/
def mergeAnswers (ts : List Target) (a b : (t : Target) → β t) (t : Target) : β t :=
  if t ∈ ts then a t else b t

theorem mergeAnswers_of_mem {ts : List Target} {t : Target} (h : t ∈ ts)
    (a b : (t : Target) → β t) : mergeAnswers ts a b t = a t :=
  if_pos h

theorem mergeAnswers_of_notMem {ts : List Target} {t : Target} (h : t ∉ ts)
    (a b : (t : Target) → β t) : mergeAnswers ts a b t = b t :=
  if_neg h

/-- One answer more is put before the others. -/
theorem update_mergeAnswers (t : Target) (q : β t) (ts : List Target) (a b : (t : Target) → β t) :
    Function.update (mergeAnswers ts a b) t q =
      mergeAnswers (t :: ts) (Function.update a t q) b := by
  funext t'
  by_cases h : t' = t
  · subst h
    simp [mergeAnswers]
  · simp [mergeAnswers, h]

/-- Either of two disjoint lists of tables sees its own answers among those of both. -/
theorem congr_mergeAnswers (val : (t : Target) → β t → Option Expr) {ts us : List Target}
    (h : ∀ t ∈ ts, ∀ t' ∈ us, t ≠ t') (a b : (t : Target) → β t) :
    (∀ t ∈ ts, val t (a t) = val t (mergeAnswers ts a b t)) ∧
      ∀ t ∈ us, val t (b t) = val t (mergeAnswers ts a b t) := by
  refine ⟨fun t ht => ?_, fun t ht => ?_⟩
  · rw [mergeAnswers_of_mem ht]
  · rw [mergeAnswers_of_notMem fun ht' => h t ht' t ht rfl]

variable {m : Type → Type} [Monad m] [∀ t, Inhabited (β t)]

/-- The answers for tables, asked for in order. -/
def askAll (c : (t : Target) → m (β t)) : List Target → m ((t : Target) → β t)
  | [] => return fun _ => default
  | t :: ts => do
    let q ← c t
    let a ← askAll c ts
    return Function.update a t q

variable [LawfulMonad m] (val : (t : Target) → β t → Option Expr) (c : (t : Target) → m (β t))

theorem askAll_append (ts us : List Target) :
    askAll c (ts ++ us) = do
      let a ← askAll c ts
      let b ← askAll c us
      return mergeAnswers ts a b := by
  induction ts with
  | nil =>
    have h : (mergeAnswers [] fun _ => default : ((t : Target) → β t) → _) = id := rfl
    simp [askAll, h]
  | cons t ts ih =>
    simp only [List.cons_append, askAll, ih, bind_assoc, pure_bind, update_mergeAnswers]

/-- Answers at hand need no asking. -/
theorem askAll_pure (a : (t : Target) → β t) (ts : List Target) :
    askAll (fun t => (pure (a t) : m (β t))) ts = pure (mergeAnswers ts a fun _ => default) := by
  induction ts with
  | nil => rfl
  | cons t ts ih =>
    simp only [askAll, ih, pure_bind, update_mergeAnswers, Function.update_eq_self]

/-! ## Restricting is asking and placing -/

variable [MonadExceptOf PolicyError m] (s : Scope) (strict qualify : Bool)
  {outer : JoinKind → Bool}

/-- A restriction that asks `c` for predicates, whatever they stand behind. -/
def Restriction.asking : Restriction m :=
  ⟨s, strict, qualify, fun t _ => val t <$> c t⟩

theorem Relation.restrict_leaf (e : Option Expr) {r : Relation} (hl : r.isLeaf)
    (h : r.joinsBy outer) :
    r.restrict (Restriction.asking val c s strict qualify) e = do
      let a ← askAll c (r.target? s qualify).toList
      return (r, (r.target? s qualify).toList.filterMap fun t => val t (a t)) := by
  cases r with
  | nested => simp [Relation.isLeaf] at hl
  | transformed => simp [Relation.joinsBy] at h
  | other => simp [Relation.joinsBy] at h
  | derived isLateral query naming => simp [Relation.restrict, Relation.target?, askAll]
  | table name partition arguments ordinality naming after =>
    simp only [Relation.joinsBy, Option.isNone_iff_eq_none] at h
    subst h
    simp only [Relation.restrict, Restriction.ofTable, Restriction.asking, Relation.target?,
      Option.isSome_none, Bool.false_eq_true, if_false]
    cases s.baseTable? name with
    | none => simp [askAll]
    | some table =>
      simp only [Option.map_some, Option.toList_some, askAll, bind_assoc, pure_bind,
        map_eq_pure_bind]
      refine bind_congr fun q => ?_
      cases hq : val _ q <;> simp [hq]

/-- One join, where what it joins is restricted by asking and placing. -/
theorem Join.restrict_eq (e : Option Expr) (j : Join)
    (hk : j.kind.isPlainInner || (outer j.kind && j.on.isSome))
    (ih : ∀ e, j.relation.restrict (Restriction.asking val c s strict qualify) e = do
      let a ← askAll c (j.relation.targets s qualify)
      let a' t := val t (a t)
      return (j.relation.placed s qualify a', (j.relation.outward s qualify).filterMap a')) :
    j.restrict (Restriction.asking val c s strict qualify) e = do
      let a ← askAll c (j.relation.targets s qualify)
      let a' t := val t (a t)
      return (j.placed s qualify a',
        (if j.on.isSome then [] else j.relation.outward s qualify).filterMap a') := by
  obtain ⟨isGlobal, isNatural, kind, relation, matching, on, columns⟩ := j
  cases on with
  | some on =>
    simp only [Join.restrict, ih, bind_assoc, pure_bind, Join.placed, Option.bind_some,
      Expr.withPredicates, Option.isSome_some, if_true, List.filterMap_nil]
  | none =>
    have hi : kind.isInner = true := JoinKind.isInner_of_isPlainInner (by simpa using hk)
    simp only [Join.restrict, ih, hi, if_true, bind_assoc, pure_bind, Join.placed,
      Option.bind_none, Option.isSome_none, Bool.false_eq_true, if_false]

theorem restrict_eq_placed :
    (∀ (t : JoinTree) (e : Option Expr), t.joinsBy outer → (t.targets s qualify).Nodup →
      t.restrict (Restriction.asking val c s strict qualify) e = do
        let a ← askAll c (t.targets s qualify)
        let a' t := val t (a t)
        return (t.placed s qualify a', (t.outward s qualify).filterMap a')) ∧
    (∀ (js : List Join) (e : Option Expr), joinsJoinBy outer js →
      (joinsTargets s qualify js).Nodup →
      restrictJoins (Restriction.asking val c s strict qualify) e js = do
        let a ← askAll c (joinsTargets s qualify js)
        let a' t := val t (a t)
        return (joinsPlaced s qualify a' js, (joinsOutward s qualify js).filterMap a')) ∧
    ∀ (r : Relation) (e : Option Expr), r.joinsBy outer → (r.targets s qualify).Nodup →
      r.restrict (Restriction.asking val c s strict qualify) e = do
        let a ← askAll c (r.targets s qualify)
        let a' t := val t (a t)
        return (r.placed s qualify a', (r.outward s qualify).filterMap a') := by
  refine JoinTree.induction ?tree ?nil ?cons ?nested ?leaf
  case tree =>
    intro relation joins ihr ihjs e h hn
    simp only [JoinTree.joinsBy, Bool.and_eq_true] at h
    simp only [JoinTree.targets, List.nodup_append] at hn
    simp only [JoinTree.restrict, JoinTree.targets, askAll_append, ihr e h.1 hn.1,
      ihjs e h.2 hn.2.1, bind_assoc, pure_bind]
    refine bind_congr fun a => bind_congr fun b => ?_
    obtain ⟨hl, hr⟩ := congr_mergeAnswers val hn.2.2 a b
    simp only [JoinTree.placed, JoinTree.outward, List.filterMap_append,
      placed_congr.2.2 relation hl, placed_congr.2.1 joins hr,
      List.filterMap_congr fun t ht => hl t (outward_subset_targets.2.2 relation ht),
      List.filterMap_congr fun t ht => hr t (outward_subset_targets.2.1 joins ht)]
  case nil => simp [restrictJoins, joinsTargets, askAll, joinsPlaced, joinsOutward]
  case cons =>
    intro j js ihr ihjs e h hn
    simp only [joinsJoinBy_cons, Bool.and_eq_true] at h
    simp only [joinsTargets_cons, List.nodup_append] at hn
    have hj := Join.restrict_eq val c s strict qualify e j h.1.1 fun e => ihr e h.1.2 hn.1
    simp only [restrictJoins, joinsTargets_cons, askAll_append, hj, ihjs e h.2 hn.2.1,
      bind_assoc, pure_bind]
    refine bind_congr fun a => bind_congr fun b => ?_
    obtain ⟨hl, hr⟩ := congr_mergeAnswers val hn.2.2 a b
    have hout : ∀ t ∈ (if j.on.isSome then [] else j.relation.outward s qualify),
        val t (a t) = val t (mergeAnswers (j.relation.targets s qualify) a b t) := by
      intro t ht
      split at ht
      · simp at ht
      · exact hl t (outward_subset_targets.2.2 _ ht)
    simp only [joinsPlaced_cons, joinsOutward_cons, List.filterMap_append, Join.placed_congr hl,
      placed_congr.2.1 js hr, List.filterMap_congr hout,
      List.filterMap_congr fun t ht => hr t (outward_subset_targets.2.1 js ht)]
  case nested =>
    intro t naming ih e h hn
    simp only [Relation.joinsBy] at h
    simp only [Relation.targets] at hn
    simp only [Relation.restrict, ih e h hn, bind_assoc, pure_bind, Relation.targets,
      Relation.placed, Relation.outward]
  case leaf =>
    intro r hl e h hn
    simp only [Relation.restrict_leaf val c s strict qualify e hl h, Relation.targets_leaf s _ hl,
      Relation.placed_leaf s _ _ hl, Relation.outward_leaf s _ hl]

theorem restrictTrees_eq (e : Option Expr) (ts : List JoinTree) (h : treesJoinBy outer ts)
    (hn : (treesTargets s qualify ts).Nodup) :
    restrictTrees (Restriction.asking val c s strict qualify) e ts = do
      let a ← askAll c (treesTargets s qualify ts)
      let a' t := val t (a t)
      return (ts.map (·.placed s qualify a'), (treesOutward s qualify ts).filterMap a') := by
  induction ts with
  | nil => simp [restrictTrees, treesTargets, treesOutward, askAll]
  | cons t ts ih =>
    simp only [treesJoinBy, List.all_cons, Bool.and_eq_true] at h
    simp only [treesTargets, List.flatMap_cons, List.nodup_append] at hn
    have ht := (restrict_eq_placed val c s strict qualify).1 t e h.1 hn.1
    simp only [restrictTrees, ht, ih h.2 hn.2.1, treesTargets, List.flatMap_cons, askAll_append,
      bind_assoc, pure_bind]
    refine bind_congr fun a => bind_congr fun b => ?_
    obtain ⟨hl, hr⟩ := congr_mergeAnswers val hn.2.2 a b
    have htrees : ts.map (·.placed s qualify fun x => val x (b x)) =
        ts.map (·.placed s qualify
          fun x => val x (mergeAnswers (t.targets s qualify) a b x)) :=
      List.map_congr_left fun u hu => placed_congr.1 u fun x hx =>
        hr x (List.mem_flatMap.mpr ⟨u, hu, hx⟩)
    simp only [List.map_cons, htrees, placed_congr.1 t hl]
    simp only [treesOutward, List.flatMap_cons, List.filterMap_append,
      List.filterMap_congr fun x hx => hl x (outward_subset_targets.1 t hx)]
    rw [← treesOutward,
      List.filterMap_congr fun x hx => hr x (treesOutward_subset_treesTargets ts hx)]

/-- **Restricting a block is asking for its tables and placing the answers**, where no join loses a
predicate and no name stands for two relations. -/
theorem Select.restrict_eq (b : Select) (h : treesJoinBy outer b.sources)
    (hn : ((treesNames b.sources).filterMap id).Nodup) :
    (b.restrict strict s fun t _ => val t <$> c t) = do
      let a ← askAll c (b.targets s)
      return b.placed s fun t => val t (a t) := by
  have hts : (b.targets s).Nodup :=
    List.Nodup.of_map _ (hn.sublist (treesTargets_sublist_names b.sources))
  have ht := restrictTrees_eq val c s strict (1 < treesSize b.sources) b.selection b.sources h hts
  simp only [Select.restrict]
  rw [← Restriction.asking, ht]
  simp only [bind_assoc, pure_bind, Select.placed, Select.targets, Expr.withPredicates]

end Asking

/-- Only the answers for the tables of a block matter to it. -/
theorem Select.placed_congr {s : Scope} {a a' : Target → Option Expr} {b : Select}
    (h : ∀ t ∈ b.targets s, a t = a' t) : b.placed s a = b.placed s a' := by
  have hsources : b.sources.map (·.placed s (1 < treesSize b.sources) a) =
      b.sources.map (·.placed s (1 < treesSize b.sources) a') :=
    List.map_congr_left fun t ht => RowPolicy.Sql.placed_congr.1 t fun x hx =>
      h x (List.mem_flatMap.mpr ⟨t, ht, hx⟩)
  have hselection := Expr.withPredicates_congr
    (fun t ht => h t (treesOutward_subset_treesTargets b.sources ht)) b.selection
  simp only [Select.placed, hsources, hselection]

/-- With its answers at hand, a restricted block is a placed one. -/
theorem Select.restrict_pure {m : Type → Type} [Monad m] [LawfulMonad m]
    [MonadExceptOf PolicyError m] (strict : Bool) (s : Scope) (a : Target → Option Expr)
    {outer : JoinKind → Bool} {b : Select} (h : treesJoinBy outer b.sources)
    (hn : ((treesNames b.sources).filterMap id).Nodup) :
    b.restrict strict s (fun t _ => (pure (a t) : m _)) = pure (b.placed s a) := by
  have heq := Select.restrict_eq (fun _ (p : Option Expr) => p) (fun t => (pure (a t) : m _)) s
    strict b h hn
  simp only [map_pure, askAll_pure, pure_bind] at heq
  rw [heq, Select.placed_congr fun t ht => mergeAnswers_of_mem ht a fun _ => default]

end RowPolicy.Sql
