import RowPolicy.Proofs.Joins.Placement

/-!
# Predicates on combinations of rows

A predicate of a table looks at the row of that table alone (`Meaning.OwnColumns`), so in a
combination of rows it sees nothing of the other relations. The combinations of a tree have one row
for each relation of it, and where the names of relations are distinct, a predicate that stands in
an `ON` filters the combinations of what is joined: `Meaning.matched_placed`.
-/

namespace RowPolicy.Sql

/-! ## Names in a combination -/

namespace Combination

variable {Row : Type}

@[simp] theorem names_append (u v : Combination Row) : names (u ++ v) = u.names ++ v.names := by
  simp [names]

@[simp] theorem names_nulls (ns : List (Option String)) :
    (nulls ns : Combination Row).names = ns := by
  simp [names, nulls, Function.comp_def]

theorem row?_append (u v : Combination Row) (name : String) :
    row? (u ++ v) name = (u.row? name).or (v.row? name) := by
  simp [row?, List.find?_append, Option.map_or]

/-- A relation of a combination has a row in it, or nulls. -/
theorem exists_row?_of_mem_names {u : Combination Row} {name : String} (h : some name ∈ u.names) :
    ∃ b ∈ u, b.name = some name ∧ u.row? name = some b.row := by
  obtain ⟨b, hb, hname⟩ := List.mem_map.mp h
  have hf : (u.find? (·.name = some name)).isSome := by
    rw [List.find?_isSome]
    exact ⟨b, hb, by simpa using hname⟩
  obtain ⟨found, hfound⟩ := Option.isSome_iff_exists.mp hf
  refine ⟨found, List.mem_of_find?_eq_some hfound, ?_, ?_⟩
  · simpa using List.find?_some hfound
  · simp only [row?, hfound, Option.map_some]

theorem row?_append_left {u v : Combination Row} {name : String} (h : some name ∈ u.names) :
    row? (u ++ v) name = u.row? name := by
  obtain ⟨b, _, _, hrow⟩ := exists_row?_of_mem_names h
  rw [row?_append, hrow, Option.some_or]

theorem row?_append_right {u v : Combination Row} {name : String} (h : some name ∉ u.names) :
    row? (u ++ v) name = v.row? name := by
  have hf : u.find? (·.name = some name) = none := by
    rw [List.find?_eq_none]
    intro b hb hname
    exact h (List.mem_map.mpr ⟨b, hb, by simpa using hname⟩)
  rw [row?_append, row?, hf, Option.map_none, Option.none_or]

theorem row?_nulls {ns : List (Option String)} {name : String} (h : some name ∈ ns) :
    row? (nulls ns : Combination Row) name = some none := by
  obtain ⟨b, hb, _, hrow⟩ := exists_row?_of_mem_names (u := (nulls ns : Combination Row))
    (by simpa using h)
  obtain ⟨n, _, rfl⟩ := List.mem_map.mp hb
  exact hrow

theorem row?_singleton (name : String) (row : Option Row) :
    row? [⟨some name, row⟩] name = some row := by
  simp [row?]

end Combination

/-! ## Predicates -/

/-- With predicates behind it, a condition is still a condition. -/
theorem Expr.exists_conjoinAll (e : Expr) (ps : List Expr) :
    ∃ p, Expr.conjoinAll (some e) ps = some p := by
  induction ps generalizing e with
  | nil => exact ⟨e, rfl⟩
  | cons q qs ih => exact ih (.conjoin (some e) q)

namespace Meaning

variable {Row : Type} (M : Meaning Row)

/-- Whether a condition depends on the row of one relation alone. -/
def OwnColumns (e : Expr) (name : String) : Prop :=
  ∀ u v : Combination Row, u.row? name = v.row? name → M.eval u e = M.eval v e

/-- An equation of a column of a table with a number looks at the row of the table alone. -/
theorem ownColumns_ofTables (tables : String → List Columns) (t : Target) (column n : String) :
    (ofTables tables).OwnColumns (.binary (t.column column) .eq (.literal (.number n))) t.name := by
  intro u v h
  simp only [eval, ofTables, Target.column, Expr.ofColumn]
  cases hq : t.qualifier with
  | none => rfl
  | some q =>
    simp only [Target.name, hq, Option.getD_some] at h
    simp [Ident.plain, Combination.value?, h]

/-- Whether the predicates of tables let a combination pass. -/
def passes (a : Target → Option Expr) (ts : List Target) (u : Combination Row) : Bool :=
  ts.all fun t => M.admits (a t) u

variable {a : Target → Option Expr}

theorem eval_parenthesized (u : Combination Row) (e : Expr) :
    M.eval u e.parenthesized = M.eval u e := by
  unfold Expr.parenthesized
  split <;> simp [eval]

theorem holds_conjoin (e : Option Expr) (p : Expr) (u : Combination Row) :
    M.holds (Expr.conjoin e p) u = (M.admits e u && M.holds p u) := by
  cases e with
  | none => simp [Expr.conjoin, holds, admits, eval_parenthesized]
  | some e =>
    simp only [Expr.conjoin, holds, admits, eval, eval_parenthesized, Option.all_some]
    rw [Bool.eq_iff_iff]
    simp [Truth.and_eq_yes]

theorem admits_conjoinAll (e : Option Expr) (ps : List Expr) (u : Combination Row) :
    M.admits (Expr.conjoinAll e ps) u = (M.admits e u && ps.all (M.holds · u)) := by
  induction ps generalizing e with
  | nil => simp [Expr.conjoinAll]
  | cons p ps ih =>
    have hcons : Expr.conjoinAll e (p :: ps) = Expr.conjoinAll (some (.conjoin e p)) ps := rfl
    rw [hcons, ih, List.all_cons, ← Bool.and_assoc, ← holds_conjoin]
    simp [admits]

/-- A condition with predicates behind it is true where all of them are. -/
theorem admits_withPredicates (e : Option Expr) (ts : List Target) (u : Combination Row) :
    M.admits (Expr.withPredicates a e ts) u = (M.admits e u && M.passes a ts u) := by
  rw [Expr.withPredicates, admits_conjoinAll]
  congr 1
  induction ts with
  | nil => rfl
  | cons t ts ih =>
    simp only [passes, List.all_cons, List.filterMap_cons] at ih ⊢
    cases ht : a t with
    | none => simpa [admits] using ih
    | some p => simpa [admits] using congrArg (M.holds p u && ·) ih

@[simp] theorem passes_nil (u : Combination Row) : M.passes a [] u = true :=
  rfl

theorem passes_append (ts us : List Target) (u : Combination Row) :
    M.passes a (ts ++ us) u = (M.passes a ts u && M.passes a us u) := by
  simp [passes]

theorem admits_congr {e : Option Expr} {name : String} (own : ∀ p ∈ e, M.OwnColumns p name)
    {u v : Combination Row} (h : u.row? name = v.row? name) : M.admits e u = M.admits e v := by
  cases e with
  | none => rfl
  | some p => simp only [admits, Option.all_some, holds, own p rfl u v h]

/-- The tables of two sides: `ts` of relations `names`, with `out` of them outward, and `us` of
relations `ns`, with `outr` of them outward, none of which has a name on the left. -/
structure Sides (names ns : List (Option String)) (ts out us outr : List Target) : Prop where
  name_left : ∀ t ∈ ts, some t.name ∈ names
  name_right : ∀ t ∈ us, some t.name ∈ ns
  notMem_right : ∀ t ∈ us, some t.name ∉ names
  outward_left : out ⊆ ts
  outward_right : outr ⊆ us

namespace Sides

variable {names ns : List (Option String)} {ts out us outr : List Target}
  (S : Sides names ns ts out us outr) {l : Combination Row} (hl : l.names = names)
include S hl

theorem row?_left {t : Target} (ht : t ∈ ts) (x : Combination Row) :
    Combination.row? (l ++ x) t.name = l.row? t.name :=
  Combination.row?_append_left (hl ▸ S.name_left t ht)

theorem row?_right {t : Target} (ht : t ∈ us) (x : Combination Row) :
    Combination.row? (l ++ x) t.name = x.row? t.name :=
  Combination.row?_append_right (hl ▸ S.notMem_right t ht)

variable {M} (own : ∀ t, ∀ p ∈ a t, M.OwnColumns p t.name)
include own

/-- The predicates of tables on the left do not see the right. -/
theorem passes_left (x : Combination Row) : M.passes a out (l ++ x) = M.passes a out l := by
  refine Bool.eq_iff_iff.mpr ?_
  simp only [passes, List.all_eq_true]
  refine forall₂_congr fun t ht => ?_
  rw [M.admits_congr (own t) (S.row?_left hl (S.outward_left ht) x)]

/-- The predicates of tables on the right do not see the left. -/
theorem passes_right (x : Combination Row) : M.passes a outr (l ++ x) = M.passes a outr x := by
  refine Bool.eq_iff_iff.mpr ?_
  simp only [passes, List.all_eq_true]
  refine forall₂_congr fun t ht => ?_
  rw [M.admits_congr (own t) (S.row?_right hl (S.outward_right ht) x)]

end Sides

section Sides

variable {s : Scope} {qualify : Bool}

/-- The sides of a join, where the relations have distinct names. -/
theorem sides_join {j : Join} {names : List (Option String)} {ts out : List Target}
    (hn : ((names ++ j.relation.names).filterMap id).Nodup)
    (hts : ∀ t ∈ ts, some t.name ∈ names) (hout : out ⊆ ts) :
    Sides names j.relation.names ts out (j.relation.targets s qualify)
      (j.relation.outward s qualify) where
  name_left := hts
  name_right _ ht := name_mem_of_target ht
  notMem_right _ ht := notMem_of_nodup hn (name_mem_of_target ht)
  outward_left := hout
  outward_right := outward_subset_targets.2.2 j.relation

/-- A tree and the trees behind it, where the relations have distinct names. -/
theorem sides_trees {t : JoinTree} {ts : List JoinTree}
    (hn : ((t.names ++ treesNames ts).filterMap id).Nodup) :
    Sides t.names (treesNames ts) (t.targets s qualify) (t.outward s qualify)
      (treesTargets s qualify ts) (treesOutward s qualify ts) where
  name_left _ hx := t.name_mem_of_target hx
  name_right _ hx := name_mem_of_treesTargets hx
  notMem_right _ hx := notMem_of_nodup hn (name_mem_of_treesTargets hx)
  outward_left := outward_subset_targets.1 t
  outward_right := treesOutward_subset_treesTargets ts

variable {names ns : List (Option String)} {ts out us outr : List Target}
  (S : Sides names ns ts out us outr)
include S

/-- The tables of both sides have names of both. -/
theorem Sides.name_append : ∀ t ∈ ts ++ us, some t.name ∈ names ++ ns := by
  intro t ht
  rcases List.mem_append.mp ht with ht | ht
  · exact List.mem_append_left _ (S.name_left t ht)
  · exact List.mem_append_right _ (S.name_right t ht)

/-- What is outward behind a join is on one of its sides. -/
theorem Sides.outward_append (hasOn : Bool) :
    (out ++ if hasOn then [] else outr) ⊆ ts ++ us := by
  refine List.append_subset.mpr ⟨List.subset_append_of_subset_left _ S.outward_left,
    List.subset_append_of_subset_right _ ?_⟩
  split
  · simp
  · exact S.outward_right

end Sides

/-! ## What a join yields -/

section Join

variable {M} {j : Join} {names : List (Option String)} {left rest : List (Combination Row)}
  {right : Combination Row → List (Combination Row)}

/-- A join yields matches, and combinations of either side that have none. -/
theorem mem_joined {u : Combination Row}
    (h : u ∈ M.joined j names left right rest) :
    (∃ l ∈ left, ∃ r ∈ right l, M.matched j l r = true ∧ u = l ++ r) ∨
    (∃ l ∈ left, u = l ++ .nulls j.relation.names) ∨
    (j.kind.keepsRight = true ∧ ∃ r ∈ rest, u = .nulls names ++ r) := by
  rcases List.mem_append.mp h with h | h
  · obtain ⟨l, hl, h⟩ := List.mem_flatMap.mp h
    unfold joinOne at h
    split at h
    · split at h
      · exact .inr (.inl ⟨l, hl, List.mem_singleton.mp h⟩)
      · simp at h
    · obtain ⟨r, hr, rfl⟩ := List.mem_map.mp h
      obtain ⟨hr, hm⟩ := List.mem_filter.mp hr
      exact .inl ⟨l, hl, r, hr, hm, rfl⟩
  · unfold joinRest at h
    split at h
    · rename_i hk
      obtain ⟨r, hr, rfl⟩ := List.mem_map.mp h
      exact .inr (.inr ⟨hk, r, (List.mem_filter.mp hr).1, rfl⟩)
    · simp at h

theorem names_of_mem_joined {u : Combination Row} (hleft : ∀ l ∈ left, l.names = names)
    (hright : ∀ l, ∀ r ∈ right l, r.names = j.relation.names)
    (hrest : ∀ r ∈ rest, r.names = j.relation.names) (h : u ∈ M.joined j names left right rest) :
    u.names = names ++ j.relation.names := by
  rcases mem_joined h with ⟨l, hl, r, hr, _, rfl⟩ | ⟨l, hl, rfl⟩ | ⟨_, r, hr, rfl⟩
  · rw [Combination.names_append, hleft l hl, hright l r hr]
  · rw [Combination.names_append, hleft l hl, Combination.names_nulls]
  · rw [Combination.names_append, Combination.names_nulls, hrest r hr]

theorem mem_joined_of_matched {l r : Combination Row} (hl : l ∈ left) (hr : r ∈ right l)
    (hm : M.matched j l r = true) :
    l ++ r ∈ M.joined j names left right rest := by
  refine List.mem_append_left _ (List.mem_flatMap.mpr ⟨l, hl, ?_⟩)
  have hmem : r ∈ (right l).filter (M.matched j l) := List.mem_filter.mpr ⟨hr, hm⟩
  unfold joinOne
  split
  · rename_i hnil
    simp [hnil] at hmem
  · exact List.mem_map_of_mem hmem

theorem mem_joined_of_unmatched {r : Combination Row} (hk : j.kind.keepsRight = true)
    (hr : r ∈ rest) (hm : ∀ l ∈ left, M.matched j l r = false) :
    .nulls names ++ r ∈ M.joined j names left right rest := by
  refine List.mem_append_right _ ?_
  rw [joinRest, if_pos hk]
  refine List.mem_map_of_mem (List.mem_filter.mpr ⟨hr, ?_⟩)
  simpa using hm

end Join

/-- The combinations of a tree name its relations, in order. -/
theorem names_of_mem_rows :
    (∀ (t : JoinTree) (before : Combination Row), ∀ u ∈ M.treeRows before t, u.names = t.names) ∧
    (∀ (js : List Join) (before : Combination Row) (names : List (Option String))
      (left : List (Combination Row)), (∀ u ∈ left, u.names = names) →
      ∀ u ∈ M.joinsRows before names left js, u.names = names ++ joinsNames js) ∧
    ∀ (r : Relation) (before : Combination Row),
      ∀ u ∈ M.relationRows before r, u.names = r.names := by
  refine JoinTree.induction ?tree ?nil ?cons ?nested ?leaf
  case tree =>
    intro relation joins ihr ihjs before u hu
    rw [treeRows] at hu
    rw [JoinTree.names]
    exact ihjs before _ _ (ihr before) u hu
  case nil =>
    intro before names left hleft u hu
    rw [joinsRows] at hu
    simpa [joinsNames] using hleft u hu
  case cons =>
    intro j js ihr ihjs before names left hleft u hu
    rw [joinsRows_cons] at hu
    rw [joinsNames_cons, ← List.append_assoc]
    refine ihjs before _ _ ?_ u hu
    exact fun v hv => names_of_mem_joined hleft (fun _ => ihr _) (ihr _) hv
  case nested =>
    intro t naming ih before u hu
    rw [relationRows] at hu
    rw [Relation.names]
    exact ih before u hu
  case leaf =>
    intro r h before u hu
    rw [relationRows_leaf M h] at hu
    obtain ⟨row, _, rfl⟩ := List.mem_map.mp hu
    rw [Relation.names_leaf h]
    rfl

theorem names_of_mem_treesRows (ts : List JoinTree) (before : Combination Row) :
    ∀ u ∈ M.treesRows before ts, u.names = treesNames ts := by
  induction ts generalizing before with
  | nil => simp [treesRows, treesNames, Combination.names]
  | cons t ts ih =>
    intro u hu
    rw [treesRows] at hu
    obtain ⟨l, hl, hu⟩ := List.mem_flatMap.mp hu
    obtain ⟨r, hr, rfl⟩ := List.mem_map.mp hu
    rw [Combination.names_append, M.names_of_mem_rows.1 t before l hl, ih (before ++ l) r hr,
      treesNames, treesNames, List.flatMap_cons]

/-! ## Rows of placed trees -/

section Placed

variable {M} {s : Scope} {qualify : Bool}

theorem names_of_mem_placed {r : Relation} {before u : Combination Row}
    (h : u ∈ M.relationRows before (r.placed s qualify a)) : u.names = r.names := by
  rw [M.names_of_mem_rows.2.2 _ before u h, (names_placed a).2.2]

theorem names_of_mem_placedTree {t : JoinTree} {before u : Combination Row}
    (h : u ∈ M.treeRows before (t.placed s qualify a)) : u.names = t.names := by
  rw [M.names_of_mem_rows.1 _ before u h, (names_placed a).1]

theorem names_of_mem_joined_placed {j : Join} {names : List (Option String)}
    {left rest : List (Combination Row)} {right : Combination Row → List (Combination Row)}
    {u : Combination Row} (hleft : ∀ l ∈ left, l.names = names)
    (hright : ∀ l, ∀ r ∈ right l, r.names = j.relation.names)
    (hrest : ∀ r ∈ rest, r.names = j.relation.names)
    (h : u ∈ M.joined (j.placed s qualify a) names left right rest) :
    u.names = names ++ j.relation.names := by
  have hnames : (j.placed s qualify a).relation.names = j.relation.names :=
    (names_placed a).2.2 j.relation
  rw [← hnames] at hright hrest ⊢
  exact names_of_mem_joined hleft hright hrest h

variable (M a s qualify)

theorem treeRows_placed (before : Combination Row) (relation : Relation) (joins : List Join) :
    M.treeRows before ((⟨relation, joins⟩ : JoinTree).placed s qualify a) =
      M.joinsRows before relation.names (M.relationRows before (relation.placed s qualify a))
        (joinsPlaced s qualify a joins) := by
  rw [JoinTree.placed, treeRows, (names_placed a).2.2]

/-- What is joined next to a placed left side. -/
theorem joinsRows_placed_cons (before : Combination Row) (names : List (Option String))
    (left : List (Combination Row)) (j : Join) (js : List Join) :
    M.joinsRows before names left (joinsPlaced s qualify a (j :: js)) =
      M.joinsRows before (names ++ j.relation.names)
        (M.joined (j.placed s qualify a) names left
          (fun l => M.relationRows (if j.kind.keepsRight then before else before ++ l)
            (j.relation.placed s qualify a))
          (M.relationRows (if j.kind.keepsRight then before else before ++ [])
            (j.relation.placed s qualify a)))
        (joinsPlaced s qualify a js) := by
  have hnames : (j.placed s qualify a).relation.names = j.relation.names :=
    (names_placed a).2.2 j.relation
  rw [joinsPlaced_cons, joinsRows_cons, hnames]
  rfl

end Placed

/-! ## Predicates in an `ON` -/

/-- Predicates in the `ON` of a join filter what is joined. -/
theorem matched_placed {M : Meaning Row} (own : ∀ t, ∀ p ∈ a t, M.OwnColumns p t.name)
    {s : Scope} {qualify : Bool} {j : Join} {names ns : List (Option String)}
    {ts out us : List Target} (S : Sides names ns ts out us (j.relation.outward s qualify))
    {l : Combination Row} (hl : l.names = names) (r : Combination Row) :
    M.matched (j.placed s qualify a) l r =
      (M.matched j l r && (j.on.isNone || M.passes a (j.relation.outward s qualify) r)) := by
  obtain ⟨isGlobal, isNatural, kind, relation, matching, on, columns⟩ := j
  cases on with
  | none => simp [Join.placed, matched]
  | some e =>
    have hw := M.admits_withPredicates (a := a) (some e) (relation.outward s qualify) (l ++ r)
    rw [S.passes_right hl own] at hw
    simp only [Join.placed, Option.bind_some, matched, Option.isNone_some, Bool.false_or]
    obtain ⟨p, hp⟩ := Expr.exists_conjoinAll e ((relation.outward s qualify).filterMap a)
    rw [← Expr.withPredicates] at hp
    rw [hp] at hw
    simpa [hp, admits] using hw

end Meaning

end RowPolicy.Sql
