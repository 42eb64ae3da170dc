import RowPolicy.Proofs.Joins.Exposure
import RowPolicy.Proofs.Joins.Rows

/-!
# A probe

Over the tables of `probe`, each with a row that predicates are true on and one that they are not,
blocks show all that their joins expose: where nothing is asked in conditions, each table that an
exposure lists has a row of the second kind in some combination (`exhibits_exposure`).
-/

namespace RowPolicy.Sql

namespace Meaning

/-- Two rows for each table, the bad one `false`; a column stands for its relation being good, and
a test for null for its relation not being bad. Every other condition is true. -/
def probe : Meaning Bool where
  stored _ := [true, false]
  computed _ _ := [true]
  truth
    | .column [q], u => if u.row? q.value = some (some true) then .yes else .no
    | .isNull (.column [q]), u => if u.row? q.value = some (some false) then .no else .yes
    | _, _ => .yes
  shared _ _ _ _ := .yes

section Probe

variable (P N : Target → Bool)

/-- The predicate that keeps the bad row of a table away, and nulls where `N` holds. -/
def probes (t : Target) : Option Expr :=
  if P t then
    some (if N t then .column [.plain t.name] else .isNull (.column [.plain t.name]))
  else none

variable {P N}

theorem own_probes : ∀ t, ∀ p ∈ probes P N t, probe.OwnColumns p t.name := by
  intro t p hp u v h
  obtain ⟨_, rfl⟩ : P t = true ∧ _ := by simpa [probes] using hp
  cases N t <;> simp [eval, probe, Ident.plain, h]

theorem admits_probes (t : Target) (u : Combination Bool) :
    probe.admits (probes P N t) u = (!P t || if N t then u.row? t.name = some (some true)
      else u.row? t.name ≠ some (some false)) := by
  cases hP : P t <;> cases hN : N t <;>
    simp [admits, probes, hP, hN, holds, eval, probe, Ident.plain]
  · split <;> simp_all
  · split <;> simp_all

theorem holds_probes_nulls (t : Target) (hN : N t) :
    ∀ p ∈ probes P N t, probe.holds p [⟨some t.name, none⟩] = false := by
  intro p hp
  obtain ⟨_, rfl⟩ : P t = true ∧ _ := by simpa [probes] using hp
  simp [hN, holds, eval, probe, Ident.plain, Combination.row?_singleton]

/-- Whether all rows of a combination are good. -/
def AllGood (u : Combination Bool) : Prop :=
  ∀ b ∈ u, b.row = some true

theorem row?_of_allGood {u : Combination Bool} (h : AllGood u) {name : String}
    (hname : some name ∈ u.names) : u.row? name = some (some true) := by
  obtain ⟨b, hb, _, hrow⟩ := Combination.exists_row?_of_mem_names hname
  rw [hrow, h b hb]

theorem passes_of_allGood {u : Combination Bool} (h : AllGood u) {ts : List Target}
    (hts : ∀ t ∈ ts, some t.name ∈ u.names) : probe.passes (probes P N) ts u = true := by
  refine List.all_eq_true.mpr fun t ht => ?_
  simp [admits_probes, row?_of_allGood h (hts t ht)]

variable (P N)

/-- Whether combinations of tables `ts` show what an exposure lists, the tables `out` being
outward: one is good, and each listed table is bad in one. -/
structure Exhibits (e : Exposure) (ts out : List Target) (rows : List (Combination Bool)) :
    Prop where
  good : ∃ u ∈ rows, AllGood u
  loose : ∀ t ∈ e.loose, t ∈ ts ∧ P t ∧ ∃ u ∈ rows, u.row? t.name = some (some false)
  exposed : ∀ t ∈ e.exposed, t ∈ ts ∧ P t ∧ ∃ u ∈ rows, u.row? t.name = some (some false) ∧
    probe.passes (probes P N) out u = true

variable {P N}

section Join

variable {s : Scope} {qualify : Bool} {j : Join} {names : List (Option String)}
  {ts out us : List Target}
  (S : Sides names j.relation.names ts out us (j.relation.outward s qualify))
  (hbare : j.bare = j)
include S hbare

/-- Where nothing is asked in its condition, a join has a match for all that passes the predicates
in its `ON`. -/
theorem matched_probe {l : Combination Bool} (hl : l.names = names) (r : Combination Bool) :
    probe.matched (j.placed s qualify (probes P N)) l r =
      (j.on.isNone || probe.passes (probes P N) (j.relation.outward s qualify) r) := by
  rw [matched_placed own_probes S hl]
  have hon : (j.on.map fun _ => .literal (.boolean true)) = j.on := congrArg Join.on hbare
  cases he : j.on with
  | none => simp [he, matched, probe]
  | some e =>
    rw [he, Option.map_some, Option.some.injEq] at hon
    simp [he, matched, holds, ← hon, eval, probe]

variable {left rest : List (Combination Bool)} {right : Combination Bool → List (Combination Bool)}
  (hnames : ∀ l ∈ left, l.names = names)
include hnames

/-- What passes the predicates in the `ON`, if there is one, has a match. -/
theorem append_mem_joined {l x : Combination Bool} (hl : l ∈ left) (hx : x ∈ right l)
    (hp : j.on.isSome = true →
      probe.passes (probes P N) (j.relation.outward s qualify) x = true) :
    l ++ x ∈ probe.joined (j.placed s qualify (probes P N)) names left right rest := by
  refine mem_joined_of_matched hl hx ?_
  rw [matched_probe S hbare (hnames l hl)]
  cases hon : j.on with
  | none => rfl
  | some e => simpa using hp (by simp [hon])

omit hbare in
theorem passes_append_of_passes {l x : Combination Bool} (hl : l ∈ left)
    (hpl : probe.passes (probes P N) out l = true)
    (hpx : probe.passes (probes P N) (j.relation.outward s qualify) x = true) :
    probe.passes (probes P N) (out ++ if j.on.isSome then [] else j.relation.outward s qualify)
      (l ++ x) = true := by
  rw [passes_append, S.passes_left (hnames l hl) own_probes, hpl]
  split
  · rfl
  · rw [S.passes_right (hnames l hl) own_probes, hpx]
    rfl

variable (right rest)

/-- A bad row of the right side, in a match with a good combination of the left side. -/
theorem exists_bad_of_match {g x : Combination Bool} (hg : g ∈ left)
    (hpg : probe.passes (probes P N) out g = true) {t : Target} (ht : t ∈ us) (hx : x ∈ right g)
    (hrow : x.row? t.name = some (some false))
    (hp : j.on.isSome = true →
      probe.passes (probes P N) (j.relation.outward s qualify) x = true) :
    ∃ u ∈ probe.joined (j.placed s qualify (probes P N)) names left right rest,
      u.row? t.name = some (some false) ∧
      (probe.passes (probes P N) (j.relation.outward s qualify) x = true →
        probe.passes (probes P N) (out ++ if j.on.isSome then [] else
          j.relation.outward s qualify) u = true) := by
  refine ⟨g ++ x, append_mem_joined S hbare hnames hg hx hp, ?_,
    passes_append_of_passes S hnames hg hpg⟩
  rw [S.row?_right (hnames g hg) ht, hrow]

/-- A bad row of the right side that the join keeps, with a match or with none. -/
theorem exists_bad_of_keepsRight {g x : Combination Bool} (hg : g ∈ left)
    (hpg : probe.passes (probes P N) out g = true) {t : Target} (ht : t ∈ us)
    (hk : j.kind.keepsRight = true) (hon : j.on.isSome = true) (hx : x ∈ right g)
    (hrest : x ∈ rest) (hrow : x.row? t.name = some (some false)) :
    ∃ u ∈ probe.joined (j.placed s qualify (probes P N)) names left right rest,
      u.row? t.name = some (some false) ∧ (absorbs P N out = false →
        probe.passes (probes P N) (out ++ if j.on.isSome then [] else
          j.relation.outward s qualify) u = true) := by
  by_cases hpx : probe.passes (probes P N) (j.relation.outward s qualify) x = true
  · obtain ⟨u, hu, hrow, hpu⟩ := exists_bad_of_match S hbare rest right hnames hg hpg ht hx
      hrow fun _ => hpx
    exact ⟨u, hu, hrow, fun _ => hpu hpx⟩
  · have hk' : (j.placed s qualify (probes P N)).kind.keepsRight = true := hk
    refine ⟨.nulls names ++ x, mem_joined_of_unmatched hk' hrest ?_, ?_, ?_⟩
    · intro l hl
      rw [matched_probe S hbare (hnames l hl)]
      simpa [← Option.not_isSome, hon] using hpx
    · rw [S.row?_right (Combination.names_nulls names) ht, hrow]
    · intro habs
      rw [hon, if_pos rfl, List.append_nil]
      refine List.all_eq_true.mpr fun t' ht' => ?_
      have hnull : Combination.row? (.nulls names ++ x) t'.name = some none := by
        rw [S.row?_left (Combination.names_nulls names) (S.outward_left ht'),
          Combination.row?_nulls (S.name_left t' (S.outward_left ht'))]
      have hpn := List.any_eq_false.mp habs t' ht'
      rw [admits_probes, hnull]
      cases hP : P t' <;> cases hN : N t' <;> simp_all

variable {right rest}

/-- A join shows what its sides show. -/
theorem exhibits_join {e r : Exposure}
    (hrnames : ∀ l, ∀ x ∈ right l, x.names = j.relation.names)
    (hsame : j.kind.keepsRight = true → ∀ l, right l = rest)
    (hleft : Exhibits P N e ts out left)
    (hright : ∀ l, Exhibits P N r us (j.relation.outward s qualify) (right l)) :
    Exhibits P N (e.join j.kind j.on.isSome (absorbs P N out) r) (ts ++ us)
      (out ++ if j.on.isSome then [] else j.relation.outward s qualify)
      (probe.joined (j.placed s qualify (probes P N)) names left right rest) := by
  obtain ⟨g, hg, hgood⟩ := hleft.good
  have hpg : probe.passes (probes P N) out g = true :=
    passes_of_allGood hgood fun t ht => hnames g hg ▸ S.name_left t (S.outward_left ht)
  have hclean (l) : ∃ x ∈ right l, AllGood x ∧
      probe.passes (probes P N) (j.relation.outward s qualify) x = true := by
    obtain ⟨x, hx, hgx⟩ := (hright l).good
    refine ⟨x, hx, hgx, passes_of_allGood hgx fun t ht => ?_⟩
    exact hrnames l x hx ▸ S.name_right t (S.outward_right ht)
  have hmatch {t x} := exists_bad_of_match S hbare rest right hnames (t := t) (x := x) hg hpg
  have hkept {t x} := exists_bad_of_keepsRight S hbare rest right hnames (t := t) (x := x) hg hpg
  refine ⟨?good, ?loose, ?exposed⟩
  case good =>
    obtain ⟨x, hx, hgx, hpx⟩ := hclean g
    exact ⟨g ++ x, append_mem_joined S hbare hnames hg hx fun _ => hpx,
      List.forall_mem_append.mpr ⟨hgood, hgx⟩⟩
  case loose =>
    intro t ht
    rcases List.mem_append.mp ht with ht | ht
    · obtain ⟨ht, hPt, l, hl, hrow⟩ := hleft.loose t ht
      obtain ⟨x, hx, -, hpx⟩ := hclean l
      refine ⟨List.mem_append_left _ ht, hPt, l ++ x,
        append_mem_joined S hbare hnames hl hx fun _ => hpx, ?_⟩
      rw [S.row?_left (hnames l hl) ht, hrow]
    · split at ht
      · obtain ⟨ht, hPt, x, hx, hrow, hpx⟩ := (hright g).exposed t ht
        obtain ⟨u, hu, hrow, -⟩ := hmatch ht hx hrow fun _ => hpx
        exact ⟨List.mem_append_right _ ht, hPt, u, hu, hrow⟩
      · rename_i hcase
        obtain ⟨ht, hPt, x, hx, hrow⟩ := (hright g).loose t ht
        refine ⟨List.mem_append_right _ ht, hPt, ?_⟩
        by_cases hon : j.on.isSome = true
        · have hk : j.kind.keepsRight = true := by simpa [hon] using hcase
          obtain ⟨u, hu, hrow, -⟩ := hkept ht hk hon hx (hsame hk g ▸ hx) hrow
          exact ⟨u, hu, hrow⟩
        · obtain ⟨u, hu, hrow, -⟩ := hmatch ht hx hrow fun h => absurd h hon
          exact ⟨u, hu, hrow⟩
  case exposed =>
    intro t ht
    rcases List.mem_append.mp ht with ht | ht
    · obtain ⟨ht, hPt, l, hl, hrow, hpl⟩ := hleft.exposed t ht
      obtain ⟨x, hx, -, hpx⟩ := hclean l
      refine ⟨List.mem_append_left _ ht, hPt, l ++ x,
        append_mem_joined S hbare hnames hl hx fun _ => hpx, ?_,
        passes_append_of_passes S hnames hl hpl hpx⟩
      rw [S.row?_left (hnames l hl) ht, hrow]
    · split at ht
      · rename_i hcase
        simp only [Bool.and_eq_true, Bool.not_eq_true'] at hcase
        obtain ⟨ht, hPt, x, hx, hrow⟩ := (hright g).loose t ht
        obtain ⟨u, hu, hrow, hpu⟩ := hkept ht hcase.1.2 hcase.1.1 hx (hsame hcase.1.2 g ▸ hx) hrow
        exact ⟨List.mem_append_right _ ht, hPt, u, hu, hrow, hpu hcase.2⟩
      · obtain ⟨ht, hPt, x, hx, hrow, hpx⟩ := (hright g).exposed t ht
        obtain ⟨u, hu, hrow, hpu⟩ := hmatch ht hx hrow fun _ => hpx
        exact ⟨List.mem_append_right _ ht, hPt, u, hu, hrow, hpu hpx⟩

end Join

theorem true_mem_leafRows (before : Combination Bool) (r : Relation) :
    true ∈ probe.leafRows before r := by
  unfold leafRows
  split <;> simp [probe]

theorem false_mem_leafRows {s : Scope} {qualify : Bool} {r : Relation} {t : Target}
    (h : r.target? s qualify = some t) (before : Combination Bool) :
    false ∈ probe.leafRows before r := by
  unfold Relation.target? at h
  split at h
  · simp [leafRows, probe]
  · simp at h

/-- A tree with nothing asked in its conditions shows what its exposure lists. -/
theorem exhibits_exposure (s : Scope) (qualify : Bool) :
    (∀ (t : JoinTree) (before : Combination Bool), t.bare = t → (t.names.filterMap id).Nodup →
      Exhibits P N (t.exposure s qualify P N) (t.targets s qualify) (t.outward s qualify)
        (probe.treeRows before (t.placed s qualify (probes P N)))) ∧
    (∀ (js : List Join) (before : Combination Bool) (names : List (Option String))
      (left : List (Combination Bool)) (e : Exposure) (ts out : List Target), joinsBare js = js →
      ((names ++ joinsNames js).filterMap id).Nodup → (∀ l ∈ left, l.names = names) →
      (∀ t ∈ ts, some t.name ∈ names) → out ⊆ ts → Exhibits P N e ts out left →
      Exhibits P N (joinsExposure s qualify P N e out js) (ts ++ joinsTargets s qualify js)
        (out ++ joinsOutward s qualify js)
        (probe.joinsRows before names left (joinsPlaced s qualify (probes P N) js))) ∧
    ∀ (r : Relation) (before : Combination Bool), r.bare = r → (r.names.filterMap id).Nodup →
      Exhibits P N (r.exposure s qualify P N) (r.targets s qualify) (r.outward s qualify)
        (probe.relationRows before (r.placed s qualify (probes P N))) := by
  refine JoinTree.induction ?tree ?nil ?cons ?nested ?leaf
  case tree =>
    intro relation joins ihr ihjs before hb hn
    simp only [JoinTree.bare, JoinTree.mk.injEq] at hb
    simp only [JoinTree.names] at hn
    simp only [JoinTree.exposure, JoinTree.targets, JoinTree.outward, treeRows_placed]
    exact ihjs before _ _ _ _ _ hb.2 hn (fun l hl => names_of_mem_placed hl)
      (fun t ht => name_mem_of_target ht) (outward_subset_targets.2.2 relation)
      (ihr before hb.1 (nodup_of_append hn).1)
  case nil =>
    intro before names left e ts out _ _ _ _ _ hleft
    simpa only [joinsExposure, joinsTargets, joinsOutward, joinsPlaced, joinsRows,
      List.append_nil] using hleft
  case cons =>
    intro j js ihr ihjs before names left e ts out hb hn hnames hts hout hleft
    rw [joinsBare_cons, List.cons.injEq] at hb
    rw [joinsNames_cons, ← List.append_assoc] at hn
    have hnj := (nodup_of_append hn).1
    have hnr := (nodup_of_append hnj).2
    have hbr : j.relation.bare = j.relation := congrArg Join.relation hb.1
    have S : Sides names j.relation.names ts out _ (j.relation.outward s qualify) :=
      sides_join hnj hts hout
    rw [joinsExposure_cons, joinsTargets_cons, joinsOutward_cons, joinsRows_placed_cons,
      ← List.append_assoc, ← List.append_assoc]
    refine ihjs before _ _ _ _ _ hb.2 hn ?_ S.name_append (S.outward_append j.on.isSome) ?_
    · exact fun u hu => names_of_mem_joined_placed hnames (fun _ _ => names_of_mem_placed)
        (fun _ => names_of_mem_placed) hu
    · refine exhibits_join S hb.1 hnames (fun _ _ => names_of_mem_placed) ?_ hleft
        (fun l => ihr _ hbr hnr)
      intro hk l
      simp only [hk, if_true]
  case nested =>
    intro t naming ih before hb hn
    simp only [Relation.bare, Relation.nested.injEq, and_true] at hb
    simp only [Relation.names] at hn
    simpa only [Relation.exposure, Relation.targets, Relation.outward, Relation.placed,
      relationRows] using ih before hb hn
  case leaf =>
    intro r hl before _ _
    rw [Relation.exposure_leaf s qualify P N hl, Relation.targets_leaf s qualify hl,
      Relation.outward_leaf s qualify hl, Relation.placed_leaf s qualify _ hl,
      relationRows_leaf _ hl]
    refine ⟨⟨_, List.mem_map_of_mem (true_mem_leafRows before r), ?good⟩, ?loose, ?exposed⟩
    case good => simp [AllGood]
    case exposed => simp
    case loose =>
      intro t ht
      obtain ⟨ht, hPt⟩ := List.mem_filter.mp ht
      have htarget : r.target? s qualify = some t := by simpa using ht
      refine ⟨ht, hPt, _, List.mem_map_of_mem (false_mem_leafRows htarget before), ?_⟩
      rw [Relation.name?_of_target? htarget, Combination.row?_singleton]

/-- Trees with nothing asked in their conditions show what they expose. -/
theorem exhibits_trees (s : Scope) (qualify : Bool) (ts : List JoinTree)
    (before : Combination Bool) (hb : ∀ t ∈ ts, t.bare = t)
    (hn : ((treesNames ts).filterMap id).Nodup) :
    Exhibits P N ⟨[], ts.flatMap fun t => (t.exposure s qualify P N).exposed⟩
      (treesTargets s qualify ts) (treesOutward s qualify ts)
      (probe.treesRows before (ts.map (·.placed s qualify (probes P N)))) := by
  induction ts generalizing before with
  | nil => exact ⟨⟨[], List.mem_singleton.mpr rfl, by simp [AllGood]⟩, by simp, by simp⟩
  | cons t ts ih =>
    obtain ⟨hbt, hbts⟩ := List.forall_mem_cons.mp hb
    simp only [treesNames, List.flatMap_cons] at hn
    have hn' := nodup_of_append hn
    have S : Sides t.names (treesNames ts) (t.targets s qualify) (t.outward s qualify)
        (treesTargets s qualify ts) (treesOutward s qualify ts) := sides_trees hn
    have hnames : ∀ l ∈ probe.treeRows before (t.placed s qualify (probes P N)),
        l.names = t.names := fun l hl => names_of_mem_placedTree hl
    have hnames' : ∀ before', ∀ x ∈ probe.treesRows before'
        (ts.map (·.placed s qualify (probes P N))), x.names = treesNames ts := by
      intro before' x hx
      rw [probe.names_of_mem_treesRows _ before' x hx]
      simp only [treesNames, List.flatMap_map, (names_placed (probes P N)).1]
    have hmem : ∀ l ∈ probe.treeRows before (t.placed s qualify (probes P N)),
        ∀ x ∈ probe.treesRows (before ++ l) (ts.map (·.placed s qualify (probes P N))),
        l ++ x ∈ probe.treesRows before ((t :: ts).map (·.placed s qualify (probes P N))) := by
      intro l hl x hx
      rw [List.map_cons, treesRows]
      exact List.mem_flatMap.mpr ⟨l, hl, List.mem_map_of_mem hx⟩
    have htree := (exhibits_exposure (P := P) (N := N) s qualify).1 t before hbt hn'.1
    have htrees := fun l => ih (before ++ l) hbts hn'.2
    obtain ⟨g, hg, hgood⟩ := htree.good
    refine ⟨?good, ?loose, ?exposed⟩
    case loose => simp
    case good =>
      obtain ⟨x, hx, hgx⟩ := (htrees g).good
      exact ⟨g ++ x, hmem g hg x hx, List.forall_mem_append.mpr ⟨hgood, hgx⟩⟩
    case exposed =>
      intro y hy
      rw [treesTargets, List.flatMap_cons, treesOutward, List.flatMap_cons]
      rw [List.flatMap_cons] at hy
      rcases List.mem_append.mp hy with hy | hy
      · obtain ⟨hy, hPy, l, hl, hrow, hpl⟩ := htree.exposed y hy
        obtain ⟨x, hx, hgx⟩ := (htrees l).good
        have hpx : probe.passes (probes P N) (treesOutward s qualify ts) x = true :=
          passes_of_allGood hgx fun z hz => hnames' _ x hx ▸ name_mem_of_treesOutward hz
        refine ⟨List.mem_append_left _ hy, hPy, l ++ x, hmem l hl x hx, ?_, ?_⟩
        · rw [S.row?_left (hnames l hl) hy, hrow]
        · rw [passes_append, S.passes_left (hnames l hl) own_probes, hpl, ← treesOutward,
            S.passes_right (hnames l hl) own_probes, hpx]
          rfl
      · obtain ⟨hy, hPy, x, hx, hrow, hpx⟩ := (htrees g).exposed y hy
        have hpg : probe.passes (probes P N) (t.outward s qualify) g = true :=
          passes_of_allGood hgood fun z hz => hnames g hg ▸ t.name_mem_of_outward hz
        refine ⟨List.mem_append_right _ hy, hPy, g ++ x, hmem g hg x hx, ?_, ?_⟩
        · rw [S.row?_right (hnames g hg) hy, hrow]
        · rw [passes_append, S.passes_left (hnames g hg) own_probes, hpg, ← treesOutward,
            S.passes_right (hnames g hg) own_probes, hpx]
          rfl

/-- A table that a block exposes is bad in what its restricted form yields without conditions. -/
theorem exists_bad_of_exposed {s : Scope} {b : Select} {t : Target} (ht : t ∈ b.exposed s P N)
    (hn : ((treesNames b.sources).filterMap id).Nodup) (hb : b.bare = b) :
    t ∈ b.targets s ∧ P t = true ∧
      ∃ u ∈ probe.blockRows (b.placed s (probes P N)), u.row? t.name = some (some false) := by
  have hsources : ∀ x ∈ b.sources, x.bare = x := by
    have hmap : b.sources.map (·.bare) = b.sources := congrArg Select.sources hb
    exact List.map_inj_left.mp (hmap.trans (List.map_id b.sources).symm)
  have hselection : b.selection = none := (congrArg Select.selection hb).symm
  obtain ⟨ht, hPt, u, hu, hrow, hp⟩ :=
    (exhibits_trees s (1 < treesSize b.sources) b.sources [] hsources hn).exposed t ht
  refine ⟨ht, hPt, u, List.mem_filter.mpr ⟨hu, ?_⟩, hrow⟩
  rw [Select.placed, admits_withPredicates, hselection, hp]
  rfl

end Probe

end Meaning

end RowPolicy.Sql
