import RowPolicy.Proofs.Joins.Probe
import RowPolicy.Proofs.Joins.Visibility

/-!
# Isolation

A restricted block isolates its tables if what it yields has no row of a table on which the
predicate of the table is not true. `Select.isolating_iff_exposed_eq_nil` says which joins do,
whatever their conditions and the contents of tables: those that expose no table.

Proof. By induction over the tree, what the exposure does not list has no such row
(`within_exposure`). Conversely, over tables of one row on which the predicate is true and one on
which it is not, what the exposure lists has one (`exhibits_exposure`), because a row that fails the
predicates in the `ON` of a right or a full join has no match.
-/

namespace RowPolicy.Sql

namespace Meaning

variable {Row : Type} (M : Meaning Row) (a : Target → Option Expr)

/-- Whether no combination that a block yields has a row of a table on which the predicate of the
table is not true. -/
def Isolates (ts : List Target) (b : Select) : Prop :=
  ∀ u ∈ M.blockRows b, ∀ t ∈ ts, ∀ row, u.row? t.name = some (some row) →
    M.admits (a t) [⟨some t.name, some row⟩] = true

/-- Whether a combination has a row of a table, and the predicate of the table is not true on it. -/
def Violates (t : Target) (u : Combination Row) : Prop :=
  (∃ row, u.row? t.name = some (some row)) ∧ M.admits (a t) u = false

/-- Whether an exposure lists what is violated in combinations of tables `ts`, the tables `out`
being outward. -/
def Within (e : Exposure) (ts out : List Target) (rows : List (Combination Row)) : Prop :=
  ∀ u ∈ rows, ∀ t ∈ ts, M.Violates a t u →
    t ∈ e.loose ∧ (M.passes a out u = true → t ∈ e.exposed)

variable {M a}

section Violates

variable (own : ∀ t, ∀ p ∈ a t, M.OwnColumns p t.name)
include own

theorem violates_congr {t : Target} {u v : Combination Row} (h : u.row? t.name = v.row? t.name) :
    M.Violates a t u ↔ M.Violates a t v := by
  rw [Violates, Violates, h, M.admits_congr (own t) h]

omit own in
theorem not_violates_of_row?_eq {t : Target} {u : Combination Row}
    (h : u.row? t.name = some none) : ¬ M.Violates a t u := by
  rintro ⟨⟨row, hrow⟩, -⟩
  simp [h] at hrow

/-- Where the outward predicates of the left side let nulls pass, each of them is true of nulls. -/
theorem not_absorbs_of_passes_nulls {P N : Target → Bool} (hP : ∀ t, (a t).isSome = P t)
    (hN : ∀ t, N t → ∀ p ∈ a t, M.holds p [⟨some t.name, none⟩] = false)
    {names ns : List (Option String)} {ts out us outr : List Target}
    (S : Sides names ns ts out us outr) {x : Combination Row}
    (hp : M.passes a out (.nulls names ++ x) = true) : absorbs P N out = false := by
  refine Bool.eq_false_iff.mpr fun habs => ?_
  obtain ⟨t, ht, hpn⟩ := List.any_eq_true.mp habs
  rw [Bool.and_eq_true] at hpn
  obtain ⟨p, ha⟩ := Option.isSome_iff_exists.mp ((hP t).trans hpn.1)
  have hadm := List.all_eq_true.mp hp t ht
  have hrow : Combination.row? (.nulls names ++ x) t.name =
      Combination.row? ([⟨some t.name, none⟩] : Combination Row) t.name := by
    rw [S.row?_left (Combination.names_nulls names) (S.outward_left ht),
      Combination.row?_nulls (S.name_left t (S.outward_left ht)), Combination.row?_singleton]
  rw [M.admits_congr (own t) hrow, ha, admits, Option.all_some, hN t hpn.2 p ha] at hadm
  simp at hadm

/-- One join adds to the exposure of its left side what `Exposure.join` says. -/
theorem within_join {s : Scope} {qualify : Bool} {P N : Target → Bool}
    (hP : ∀ t, (a t).isSome = P t)
    (hN : ∀ t, N t → ∀ p ∈ a t, M.holds p [⟨some t.name, none⟩] = false)
    {j : Join} (hk : j.kind.isPlainInner || (j.kind.isOuter && j.on.isSome))
    {e r : Exposure} {ts out us : List Target} {names : List (Option String)}
    {left : List (Combination Row)} {right : Combination Row → List (Combination Row)}
    {rest : List (Combination Row)}
    (S : Sides names j.relation.names ts out us (j.relation.outward s qualify))
    (hnames : ∀ l ∈ left, l.names = names) (hleft : M.Within a e ts out left)
    (hright : ∀ l, M.Within a r us (j.relation.outward s qualify) (right l))
    (hrest : M.Within a r us (j.relation.outward s qualify) rest) :
    M.Within a (e.join j.kind j.on.isSome (absorbs P N out) r) (ts ++ us)
      (out ++ if j.on.isSome then [] else j.relation.outward s qualify)
      (M.joined (j.placed s qualify a) names left right rest) := by
  -- a row of the left side is in no more than the left side lets it be
  have honleft : ∀ l ∈ left, ∀ x : Combination Row, ∀ t ∈ ts, M.Violates a t (l ++ x) →
      t ∈ e.loose ∧ (M.passes a (out ++ if j.on.isSome then [] else
        j.relation.outward s qualify) (l ++ x) = true → t ∈ e.exposed) := by
    intro l hl x t ht hv
    rw [violates_congr own (S.row?_left (hnames l hl) ht x)] at hv
    obtain ⟨hloose, hexposed⟩ := hleft l hl t ht hv
    refine ⟨hloose, fun hp => hexposed ?_⟩
    rw [passes_append, Bool.and_eq_true, S.passes_left (hnames l hl) own] at hp
    exact hp.1
  intro u hu t ht hv
  rcases List.mem_append.mp ht with ht | ht <;>
    rcases mem_joined hu with ⟨l, hl, x, hx, hm, rfl⟩ | ⟨l, hl, rfl⟩ | ⟨hk', x, hx, rfl⟩
  · obtain ⟨hloose, hexposed⟩ := honleft l hl x t ht hv
    exact ⟨List.mem_append_left _ hloose, fun hp => List.mem_append_left _ (hexposed hp)⟩
  · obtain ⟨hloose, hexposed⟩ := honleft l hl _ t ht hv
    exact ⟨List.mem_append_left _ hloose, fun hp => List.mem_append_left _ (hexposed hp)⟩
  · refine absurd hv (not_violates_of_row?_eq ?_)
    rw [S.row?_left (Combination.names_nulls names) ht,
      Combination.row?_nulls (S.name_left t ht)]
  · -- a match: the `ON` has let the row of the right side pass
    rw [violates_congr own (S.row?_right (hnames l hl) ht x)] at hv
    obtain ⟨hloose, hexposed⟩ := hright l x hx t ht hv
    rw [matched_placed own S (hnames l hl), Bool.and_eq_true] at hm
    simp only [Exposure.join, List.mem_append]
    cases hon : j.on.isSome with
    | true =>
      have hpass : M.passes a (j.relation.outward s qualify) x = true := by
        simpa [← Option.not_isSome, hon] using hm.2
      have hmem := hexposed hpass
      refine ⟨.inr ?_, fun _ => .inr ?_⟩ <;> split <;> assumption
    | false =>
      refine ⟨.inr (by simpa using hloose), fun hp => .inr ?_⟩
      simp only [Bool.false_eq_true, if_false, passes_append, Bool.and_eq_true] at hp
      rw [S.passes_right (hnames l hl) own] at hp
      simpa using hexposed hp.2
  · refine absurd hv (not_violates_of_row?_eq ?_)
    rw [S.row?_right (hnames l hl) ht, Combination.row?_nulls]
    rw [Join.placed, (names_placed a).2.2]
    exact S.name_right t ht
  · -- no match: the outward predicates of the left side see nulls
    rw [violates_congr own (S.row?_right (Combination.names_nulls names) ht x)] at hv
    obtain ⟨hloose, -⟩ := hrest x hx t ht hv
    have hkr : j.kind.keepsRight = true := hk'
    have hon : j.on.isSome = true := by
      revert hk hkr
      cases j.kind <;> simp [JoinKind.isPlainInner, JoinKind.isOuter, JoinKind.keepsRight]
    simp only [Exposure.join, hon, hkr, Bool.not_true, Bool.and_false, Bool.true_and,
      Bool.false_eq_true, if_false, if_true, List.append_nil, List.mem_append]
    refine ⟨.inr hloose, fun hp => .inr ?_⟩
    rw [not_absorbs_of_passes_nulls own hP hN S hp]
    simpa using hloose

/-- The exposure of a tree lists what is violated in its combinations. -/
theorem within_exposure {s : Scope} {qualify : Bool} {P N : Target → Bool}
    (hP : ∀ t, (a t).isSome = P t)
    (hN : ∀ t, N t → ∀ p ∈ a t, M.holds p [⟨some t.name, none⟩] = false) :
    (∀ (t : JoinTree) (before : Combination Row), t.joinsBy JoinKind.isOuter →
      (t.names.filterMap id).Nodup →
      M.Within a (t.exposure s qualify P N) (t.targets s qualify) (t.outward s qualify)
        (M.treeRows before (t.placed s qualify a))) ∧
    (∀ (js : List Join) (before : Combination Row) (names : List (Option String))
      (left : List (Combination Row)) (e : Exposure) (ts out : List Target),
      joinsJoinBy JoinKind.isOuter js → ((names ++ joinsNames js).filterMap id).Nodup →
      (∀ l ∈ left, l.names = names) → (∀ t ∈ ts, some t.name ∈ names) → out ⊆ ts →
      M.Within a e ts out left →
      M.Within a (joinsExposure s qualify P N e out js) (ts ++ joinsTargets s qualify js)
        (out ++ joinsOutward s qualify js)
        (M.joinsRows before names left (joinsPlaced s qualify a js))) ∧
    ∀ (r : Relation) (before : Combination Row), r.joinsBy JoinKind.isOuter →
      (r.names.filterMap id).Nodup →
      M.Within a (r.exposure s qualify P N) (r.targets s qualify) (r.outward s qualify)
        (M.relationRows before (r.placed s qualify a)) := by
  refine JoinTree.induction ?tree ?nil ?cons ?nested ?leaf
  case tree =>
    intro relation joins ihr ihjs before h hn
    simp only [JoinTree.joinsBy, Bool.and_eq_true] at h
    simp only [JoinTree.names] at hn
    have hnr := (nodup_of_append hn).1
    simp only [JoinTree.exposure, JoinTree.targets, JoinTree.outward, treeRows_placed]
    exact ihjs before _ _ _ _ _ h.2 hn (fun l hl => names_of_mem_placed hl)
      (fun t ht => name_mem_of_target ht) (outward_subset_targets.2.2 relation)
      (ihr before h.1 hnr)
  case nil =>
    intro before names left e ts out _ _ _ _ _ hleft
    simpa only [joinsExposure, joinsTargets, joinsOutward, joinsPlaced, joinsRows,
      List.append_nil] using hleft
  case cons =>
    intro j js ihr ihjs before names left e ts out h hn hnames hts hout hleft
    simp only [joinsJoinBy_cons, Bool.and_eq_true] at h
    rw [joinsNames_cons, ← List.append_assoc] at hn
    have hnj := (nodup_of_append hn).1
    have hnr := (nodup_of_append hnj).2
    rw [joinsExposure_cons, joinsTargets_cons, joinsOutward_cons, joinsRows_placed_cons,
      ← List.append_assoc, ← List.append_assoc]
    have S : Sides names j.relation.names ts out _ (j.relation.outward s qualify) :=
      sides_join hnj hts hout
    refine ihjs before _ _ _ _ _ h.2 hn ?_ S.name_append (S.outward_append j.on.isSome) ?_
    · exact fun u hu => names_of_mem_joined_placed hnames (fun _ _ => names_of_mem_placed)
        (fun _ => names_of_mem_placed) hu
    · exact within_join own hP hN h.1.1 S hnames hleft (fun l => ihr _ h.1.2 hnr)
        (ihr _ h.1.2 hnr)
  case nested =>
    intro t naming ih before h hn
    simp only [Relation.joinsBy] at h
    simp only [Relation.names] at hn
    simpa only [Relation.exposure, Relation.targets, Relation.outward, Relation.placed,
      relationRows] using ih before h hn
  case leaf =>
    intro r hl before h hn u hu t ht hv
    rw [Relation.outward_leaf s qualify hl, Relation.exposure_leaf s qualify P N hl]
    rw [Relation.targets_leaf s qualify hl] at ht
    refine ⟨List.mem_filter.mpr ⟨ht, ?_⟩, fun hp => ?_⟩
    · rw [← hP t, ← Option.ne_none_iff_isSome]
      intro hnone
      simp [Violates, hnone, admits] at hv
    · have hadm := List.all_eq_true.mp hp t ht
      rw [hv.2] at hadm
      simp at hadm

theorem exposed_of_violates_trees {s : Scope} {qualify : Bool} {P N : Target → Bool}
    (hP : ∀ t, (a t).isSome = P t)
    (hN : ∀ t, N t → ∀ p ∈ a t, M.holds p [⟨some t.name, none⟩] = false)
    (ts : List JoinTree) (before : Combination Row) (h : treesJoinBy JoinKind.isOuter ts)
    (hn : ((treesNames ts).filterMap id).Nodup) {u : Combination Row}
    (hu : u ∈ M.treesRows before (ts.map (·.placed s qualify a)))
    (hp : M.passes a (treesOutward s qualify ts) u = true) {x : Target}
    (hx : x ∈ treesTargets s qualify ts) (hv : M.Violates a x u) :
    x ∈ ts.flatMap fun t => (t.exposure s qualify P N).exposed := by
  induction ts generalizing before u with
  | nil => simp [treesTargets] at hx
  | cons t ts ih =>
    simp only [treesJoinBy, List.all_cons, Bool.and_eq_true] at h
    simp only [treesNames, List.flatMap_cons] at hn
    have hn' := nodup_of_append hn
    simp only [List.map_cons, treesRows] at hu
    obtain ⟨l, hl, hu⟩ := List.mem_flatMap.mp hu
    obtain ⟨r, hr, rfl⟩ := List.mem_map.mp hu
    have hnames : l.names = t.names := names_of_mem_placedTree hl
    have S : Sides t.names (treesNames ts) (t.targets s qualify) (t.outward s qualify)
        (treesTargets s qualify ts) (treesOutward s qualify ts) := sides_trees hn
    rw [treesOutward, List.flatMap_cons, passes_append, Bool.and_eq_true] at hp
    rw [treesTargets, List.flatMap_cons] at hx
    rw [List.flatMap_cons]
    rcases List.mem_append.mp hx with hx | hx
    · rw [violates_congr own (S.row?_left hnames hx r)] at hv
      rw [S.passes_left hnames own] at hp
      have hwithin := (within_exposure own hP hN).1 t before h.1 hn'.1 l hl x hx hv
      exact List.mem_append_left _ (hwithin.2 hp.1)
    · rw [violates_congr own (S.row?_right hnames hx r)] at hv
      have hpr := hp.2
      rw [← treesOutward, S.passes_right hnames own] at hpr
      exact List.mem_append_right _ (ih (before ++ l) h.2 hn'.2 hr hpr hx hv)

/-- A table of which a placed block yields a row that its predicate is not true on is exposed. -/
theorem exposed_of_violates {s : Scope} {P N : Target → Bool} {b : Select}
    (hP : ∀ t, (a t).isSome = P t)
    (hN : ∀ t, N t → ∀ p ∈ a t, M.holds p [⟨some t.name, none⟩] = false)
    (h : treesJoinBy JoinKind.isOuter b.sources)
    (hn : ((treesNames b.sources).filterMap id).Nodup) {u : Combination Row}
    (hu : u ∈ M.blockRows (b.placed s a)) {t : Target} (ht : t ∈ b.targets s)
    (hv : M.Violates a t u) : t ∈ b.exposed s P N := by
  simp only [blockRows, Select.placed] at hu
  obtain ⟨hu, hp⟩ := List.mem_filter.mp hu
  rw [admits_withPredicates, Bool.and_eq_true] at hp
  exact exposed_of_violates_trees own hP hN b.sources [] h hn hu hp.2 ht hv

end Violates

end Meaning

/-! ## Which blocks isolate -/

/-- Whether all blocks that join as `b` does isolate their tables when restricted: for all contents
of tables, all conditions of joins and of the block, and all predicates that look at the row of
their table alone. `P` says which tables have a predicate, and `N` which of the predicates are not
true of nulls. -/
def Select.Isolating (strict : Bool) (s : Scope) (b : Select) (P N : Target → Bool) : Prop :=
  ∀ (Row : Type) (M : Meaning Row) (a : Target → Option Expr) (b' : Select), b'.bare = b.bare →
    (∀ t, (a t).isSome = P t) → (∀ t, ∀ p ∈ a t, M.OwnColumns p t.name) →
    (∀ t, N t → ∀ p ∈ a t, M.holds p [⟨some t.name, none⟩] = false) →
    ∃ r, b'.restrict strict s (fun t _ => pure (a t)) = (.ok r : Except PolicyError Select) ∧
      M.Isolates a (b'.targets s) r

/-- **A restricted block isolates its tables if and only if it exposes none.** The relations are
joined by inner joins and by left, right and full joins with an `ON`, to any depth, and have
distinct names. -/
theorem Select.isolating_iff_exposed_eq_nil (strict : Bool) (s : Scope) (b : Select)
    (h : treesJoinBy JoinKind.isOuter b.sources)
    (hn : ((treesNames b.sources).filterMap id).Nodup) (P N : Target → Bool) :
    b.Isolating strict s P N ↔ b.exposed s P N = [] := by
  constructor
  · intro hall
    refine List.eq_nil_iff_forall_not_mem.mpr fun t ht => ?_
    have h' : treesJoinBy JoinKind.isOuter b.bare.sources := by
      rwa [treesJoinBy_of_bare_eq b.bare_bare]
    have hn' : ((treesNames b.bare.sources).filterMap id).Nodup := by
      rwa [treesNames_of_bare_eq b.bare_bare]
    obtain ⟨r, hr, hisolates⟩ := hall Bool Meaning.probe (Meaning.probes P N) b.bare b.bare_bare
      (fun t => by cases hPt : P t <;> simp [Meaning.probes, hPt]) Meaning.own_probes
      (fun t hN => Meaning.holds_probes_nulls t hN)
    rw [Select.restrict_pure strict s _ h' hn'] at hr
    obtain rfl : _ = r := Except.ok.inj hr
    rw [← exposed_of_bare_eq b.bare_bare] at ht
    obtain ⟨ht, hPt, u, hu, hrow⟩ := Meaning.exists_bad_of_exposed ht hn' b.bare_bare
    have hadm := hisolates u hu t ht false hrow
    rw [Meaning.admits_probes, Combination.row?_singleton] at hadm
    simp [hPt] at hadm
  · intro hnil Row M a b' hb hP own hN
    have h' : treesJoinBy JoinKind.isOuter b'.sources := by rwa [treesJoinBy_of_bare_eq hb]
    have hn' : ((treesNames b'.sources).filterMap id).Nodup := by
      rwa [treesNames_of_bare_eq hb]
    refine ⟨_, Select.restrict_pure strict s a h' hn', fun u hu t ht row hrow => ?_⟩
    rw [← Bool.not_eq_false]
    intro hbad
    have hv : M.Violates a t u := by
      refine ⟨⟨row, hrow⟩, ?_⟩
      rw [← hbad]
      refine M.admits_congr (own t) ?_
      rw [hrow, Combination.row?_singleton]
    have hexp := Meaning.exposed_of_violates own hP hN h' hn' hu ht hv
    rw [exposed_of_bare_eq hb, hnil] at hexp
    exact absurd hexp (by simp)

/-- A right join isolates its tables if both have a predicate, and does not if the right one alone
has. -/
theorem isolating_ordersOfCountries :
    treesJoinBy JoinKind.isOuter (ordersOfCountries .right).sources = true ∧
    ((treesNames (ordersOfCountries .right).sources).filterMap id).Nodup ∧
    (ordersOfCountries .right).Isolating true .empty (fun _ => true) (fun _ => true) ∧
    ¬ (ordersOfCountries .right).Isolating true .empty (·.table = "orders") fun _ => true :=
  ⟨by decide, by decide,
    (Select.isolating_iff_exposed_eq_nil true .empty (ordersOfCountries .right) (by decide)
      (by decide) (fun _ => true) fun _ => true).mpr (by decide),
    fun h => absurd ((Select.isolating_iff_exposed_eq_nil true .empty (ordersOfCountries .right)
      (by decide) (by decide) (·.table = "orders") fun _ => true).mp h) (by decide)⟩

/-- Behind a right join, the order of tenant 8 is there, though no country has it. -/
theorem not_isolates_ordersOfCountries :
    ∃ r, (ordersOfCountries .right).restrict true .empty
        (fun t _ => pure (ordersOfSeven t).predicate) = (.ok r : Except PolicyError Select) ∧
      ¬ (Meaning.ofTables countriesAndOrders).Isolates (fun t => (ordersOfSeven t).predicate)
        ((ordersOfCountries .right).targets .empty) r := by
  have hjoins : treesJoinBy JoinKind.isOuter (ordersOfCountries .right).sources = true := by
    decide
  refine ⟨_, Select.restrict_pure true .empty _ hjoins (by decide), fun h => ?_⟩
  have hrow := h [⟨some "c", none⟩,
    ⟨some "o", some [("country_id", "2"), ("tenant_id", "8")]⟩] (by decide)
    ⟨"orders", some "o", "orders o"⟩ (by decide) [("country_id", "2"), ("tenant_id", "8")] rfl
  exact absurd hrow (by decide)

end RowPolicy.Sql
