import RowPolicy.Proofs.Blocks.NamedQueries

/-!
# Where a query stands

A query stands at a place of a statement: it is the statement itself, the source of an insertion, a
derived table, a body of a `WITH`, or it stands in an expression, at any depth. The blocks of a
statement are those before the query, those of the query at its place, and those behind it
(`Query.StandsAt.exists_split`). At its place a query has the blocks that it has as a statement of
its own, with the queries around it in front (`Item.occurrences_append`).
-/

namespace RowPolicy.Sql

/-! ## Places in places -/

/-- A place as seen from another one, and the same place from outside of that. -/
instance : Append Place where
  append p p' := ⟨p.frames ++ p'.frames, p.aside || p'.aside⟩

namespace Place

variable (p p' : Place)

@[simp] theorem append_outermost : p ++ outermost = p := by
  change Place.mk (p.frames ++ []) (p.aside || false) = p
  rw [List.append_nil, Bool.or_false]

theorem append_enter (f : Frame) : (p ++ p').enter f = p ++ p'.enter f :=
  congrArg (Place.mk · (p.aside || p'.aside)) (List.append_assoc ..)

theorem append_toSide : (p ++ p').toSide = p ++ p'.toSide :=
  congrArg (Place.mk _) (Bool.or_true _).symm

theorem toSide_append : p.toSide ++ p' = (p ++ p').toSide :=
  congrArg (Place.mk _) (Bool.true_or _)

end Place

/-- A block that is seen from a place, as it is seen from outside. -/
def Occurrence.under (p : Place) (o : Occurrence) : Occurrence :=
  ⟨p ++ o.place, o.block, o.inside⟩

mutual

/-- The blocks at a place in a place. -/
theorem Item.occurrences_append (p p' : Place) : (i : Item) →
    i.occurrences (p ++ p') = (i.occurrences p').map (Occurrence.under p)
  | .block b inside => by
    rw [Item.occurrences, Item.occurrences, List.map_append,
      itemsOccurrences_append_place p p' inside]
    rfl
  | .query recursive ctes main aside => by
    simp only [Item.occurrences, List.map_append, Place.append_enter, Place.append_toSide,
      namedOccurrences_append_place p p' recursive _ 0 ctes,
      itemsOccurrences_append_place p _ main, itemsOccurrences_append_place p _ aside]

theorem itemsOccurrences_append_place (p p' : Place) : (is : List Item) →
    itemsOccurrences (p ++ p') is = (itemsOccurrences p' is).map (Occurrence.under p)
  | [] => rfl
  | i :: is => by
    rw [itemsOccurrences, itemsOccurrences, List.map_append, i.occurrences_append p p',
      itemsOccurrences_append_place p p' is]

theorem namedOccurrences_append_place (p p' : Place) (recursive : Bool) (names : List String)
    (k : Nat) : (ns : List Named) →
    namedOccurrences (p ++ p') recursive names k ns =
      (namedOccurrences p' recursive names k ns).map (Occurrence.under p)
  | [] => rfl
  | ⟨_, inside⟩ :: ns => by
    rw [namedOccurrences, namedOccurrences, List.map_append, Place.append_enter,
      itemsOccurrences_append_place p _ inside,
      namedOccurrences_append_place p p' recursive names (k + 1) ns]

end

theorem Item.occurrences_eq_map_under (p : Place) (i : Item) :
    i.occurrences p = (i.occurrences .outermost).map (Occurrence.under p) := by
  rw [← i.occurrences_append, Place.append_outermost]

theorem itemsOccurrences_eq_map_under (p : Place) (is : List Item) :
    itemsOccurrences p is = (itemsOccurrences .outermost is).map (Occurrence.under p) := by
  rw [← itemsOccurrences_append_place, Place.append_outermost]

/-- What is inside of settings or chained operators is aside. -/
theorem itemsOccurrences_toSide (p : Place) (is : List Item) :
    itemsOccurrences p.toSide is =
      (itemsOccurrences p is).map fun o => ⟨o.place.toSide, o.block, o.inside⟩ := by
  rw [itemsOccurrences_eq_map_under, itemsOccurrences_eq_map_under p, List.map_map]
  refine List.map_congr_left fun o _ => ?_
  simp only [Occurrence.under, Place.toSide_append, Function.comp_apply]

/-! ## Standing -/

/-- Whether a part of an outline stands at the place `p` among parts that stand at another one,
which is not in settings or chained operators of a query among these. -/
inductive Item.StandsAt (i : Item) (p : Place) : Place → List Item → Prop where
  | here {is : List Item} (h : i ∈ is) : i.StandsAt p p is
  | inBlock {p₀ : Place} {is inside : List Item} {b : Select} (h : .block b inside ∈ is)
      (hi : i.StandsAt p p₀ inside) : i.StandsAt p p₀ is
  | inQuery {p₀ : Place} {is main aside : List Item} {recursive : Bool} {ctes : List Named}
      (h : .query recursive ctes main aside ∈ is)
      (hi : i.StandsAt p (p₀.enter ⟨recursive, namedNames ctes, none⟩) main) : i.StandsAt p p₀ is
  | inNamed {p₀ : Place} {is main aside : List Item} {recursive : Bool} {ctes : List Named}
      {k : Nat} {n : Named} (h : .query recursive ctes main aside ∈ is) (hk : ctes[k]? = some n)
      (hi : i.StandsAt p (p₀.enter ⟨recursive, namedNames ctes, some k⟩) n.inside) :
      i.StandsAt p p₀ is

/-- Whether a query stands at a place of a statement. -/
def Query.StandsAt (q : Query) (p : Place) (s : Statement) : Prop :=
  q.outline.StandsAt p .outermost s.outline

theorem mem_itemsOccurrences_split {p : Place} {i : Item} {is : List Item} (h : i ∈ is) :
    ∃ pre post, itemsOccurrences p is = pre ++ i.occurrences p ++ post := by
  obtain ⟨before, behind, rfl⟩ := List.append_of_mem h
  refine ⟨itemsOccurrences p before, itemsOccurrences p behind, ?_⟩
  rw [itemsOccurrences_append, itemsOccurrences, List.append_assoc]

theorem namedOccurrences_split {p : Place} {recursive : Bool} {names : List String} {k : Nat}
    {n : Named} {ns : List Named} (h : ns[k]? = some n) (first : Nat) :
    ∃ pre post, namedOccurrences p recursive names first ns =
      pre ++ itemsOccurrences (p.enter ⟨recursive, names, some (first + k)⟩) n.inside ++ post := by
  induction ns generalizing k first with
  | nil => simp at h
  | cons n' ns ih =>
    obtain ⟨name, inside⟩ := n'
    cases k with
    | zero =>
      obtain rfl : ⟨name, inside⟩ = n := by simpa using h
      rw [namedOccurrences, Nat.add_zero]
      exact ⟨[], _, rfl⟩
    | succ k =>
      obtain ⟨pre, post, hsplit⟩ := ih (k := k) (by simpa using h) (first + 1)
      rw [namedOccurrences, hsplit, Nat.add_assoc, Nat.add_comm 1 k]
      simp only [← List.append_assoc]
      exact ⟨_, post, rfl⟩

/-- What stands among parts has its blocks in a row among theirs. -/
theorem Item.StandsAt.exists_split {i : Item} {p p₀ : Place} {is : List Item}
    (h : i.StandsAt p p₀ is) : p.aside = p₀.aside ∧
      ∃ pre post, itemsOccurrences p₀ is = pre ++ i.occurrences p ++ post := by
  have hwithin : ∀ {p₀ p₁ : Place} {is is₁ : List Item} {j : Item}, j ∈ is →
      (∃ pre post, j.occurrences p₀ = pre ++ itemsOccurrences p₁ is₁ ++ post) →
      (∃ pre post, itemsOccurrences p₁ is₁ = pre ++ i.occurrences p ++ post) →
      ∃ pre post, itemsOccurrences p₀ is = pre ++ i.occurrences p ++ post := by
    rintro p₀ p₁ is is₁ j hj ⟨pre₁, post₁, h₁⟩ ⟨pre₂, post₂, h₂⟩
    obtain ⟨pre, post, h⟩ := mem_itemsOccurrences_split (p := p₀) hj
    refine ⟨pre ++ (pre₁ ++ pre₂), post₂ ++ (post₁ ++ post), ?_⟩
    rw [h, h₁, h₂]
    simp only [List.append_assoc]
  induction h with
  | here h => exact ⟨rfl, mem_itemsOccurrences_split h⟩
  | inBlock h _ ih =>
    refine ⟨ih.1, hwithin h ?_ ih.2⟩
    rw [Item.occurrences]
    exact ⟨[], _, rfl⟩
  | inQuery h _ ih =>
    refine ⟨ih.1, hwithin h ?_ ih.2⟩
    rw [Item.occurrences]
    exact ⟨_, _, (List.append_assoc ..).symm⟩
  | inNamed h hk _ ih =>
    refine ⟨ih.1, hwithin h ?_ ih.2⟩
    rw [Item.occurrences]
    obtain ⟨pre, post, hnamed⟩ := namedOccurrences_split hk 0
    rw [hnamed, Nat.zero_add]
    simp only [List.append_assoc]
    exact ⟨pre, _, rfl⟩

/-- **A query that stands at a place of a statement has its blocks in a row among those of the
statement**, and is not aside. -/
theorem Query.StandsAt.exists_split {q : Query} {p : Place} {s : Statement}
    (h : q.StandsAt p s) : p.aside = false ∧
      ∃ pre post, s.occurrences = pre ++ q.outline.occurrences p ++ post :=
  Item.StandsAt.exists_split h

/-! ## Positions -/

theorem Item.StandsAt.mono {i : Item} {p p₀ : Place} {is is' : List Item}
    (h : i.StandsAt p p₀ is) (hsub : is ⊆ is') : i.StandsAt p p₀ is' := by
  cases h with
  | here h => exact .here (hsub h)
  | inBlock h hi => exact .inBlock (hsub h) hi
  | inQuery h hi => exact .inQuery (hsub h) hi
  | inNamed h hk hi => exact .inNamed (hsub h) hk hi

/-- What stands in a part stands where the part does. -/
theorem Item.StandsAt.trans {i j : Item} {p p₁ p₀ : Place} {is : List Item}
    (h : j.StandsAt p p₁ [i]) (h' : i.StandsAt p₁ p₀ is) : j.StandsAt p p₀ is := by
  induction h' with
  | here h' => exact h.mono (by simpa using h')
  | inBlock hmem _ ih => exact .inBlock hmem ih
  | inQuery hmem _ ih => exact .inQuery hmem ih
  | inNamed hmem hk _ ih => exact .inNamed hmem hk ih

theorem outlineCtes_getElem? {cs : List Cte} {k : Nat} {cte : Cte} (h : cs[k]? = some cte) :
    (outlineCtes cs)[k]? = some ⟨cte.name.value, [cte.query.outline]⟩ := by
  induction cs generalizing k with
  | nil => simp at h
  | cons c cs ih =>
    cases c
    cases k with
    | zero =>
      cases h
      rfl
    | succ k => exact ih (by simpa using h)

theorem outline_mem_outlineTrees {t : JoinTree} {ts : List JoinTree} (h : t ∈ ts) :
    t.outline ⊆ outlineTrees ts := by
  induction ts with
  | nil => cases h
  | cons t' ts ih =>
    rw [outlineTrees]
    rcases List.mem_cons.mp h with rfl | h
    · exact List.subset_append_left ..
    · exact List.Subset.trans (ih h) (List.subset_append_right ..)

namespace Query

/-- A query that is a statement of its own. -/
theorem standsAt_select (q : Query) : q.StandsAt .outermost (.select q) :=
  .here List.mem_cons_self

/-- The source of an insertion. -/
theorem standsAt_insert {q : Query} {i : Insertion} (h : i.source = some q) :
    q.StandsAt .outermost (.insert i) := by
  obtain ⟨_, _, _, _, _, source, _, _, _, _⟩ := i
  cases h
  exact .here (List.mem_append_left _ List.mem_cons_self)

namespace StandsAt

variable {q₀ q : Query} {p : Place} {s : Statement} {b : Select} (h : q₀.StandsAt p s)
include h

/-- A body of the `WITH` of a query. -/
theorem cte {k : Nat} {cte : Cte} (hk : q₀.ctes[k]? = some cte) :
    cte.query.StandsAt (p.enter ⟨q₀.recursive, cteNames q₀.ctes, some k⟩) s := by
  obtain ⟨recursive, ctes, body, orderBy, limit, settings, fetch, tail, chain⟩ := q₀
  rw [← namedNames_outlineCtes]
  refine Item.StandsAt.trans (.inNamed List.mem_cons_self (outlineCtes_getElem? hk) ?_) h
  exact .here List.mem_cons_self

/-- What stands directly in the select block of a query. -/
theorem of_body (hbody : q₀.body = .select b)
    (hq : ∀ inside, b.outline = .block b inside → q.outline ∈ inside) :
    q.StandsAt (p.enter ⟨q₀.recursive, cteNames q₀.ctes, none⟩) s := by
  obtain ⟨recursive, ctes, body, orderBy, limit, settings, fetch, tail, chain⟩ := q₀
  cases hbody
  rw [← namedNames_outlineCtes]
  obtain ⟨inside, hb⟩ : ∃ inside, b.outline = .block b inside := by
    cases b
    exact ⟨_, rfl⟩
  have hblock : ∀ is, Item.block b inside ∈ (Body.select b).outline ++ is := by
    intro is
    rw [Body.outline, hb]
    exact List.mem_append_left _ List.mem_cons_self
  exact Item.StandsAt.trans
    (.inQuery List.mem_cons_self (.inBlock (hblock _) (.here (hq inside hb)))) h

/-- A derived table. -/
theorem derived (hbody : q₀.body = .select b) {isLateral : Bool} {naming : Option Alias}
    {joins : List Join} (ht : ⟨.derived isLateral q naming, joins⟩ ∈ b.sources) :
    q.StandsAt (p.enter ⟨q₀.recursive, cteNames q₀.ctes, none⟩) s := by
  have hq : q.outline ∈ outlineTrees b.sources :=
    outline_mem_outlineTrees ht (List.mem_append_left _ List.mem_cons_self)
  refine h.of_body hbody fun inside hb => ?_
  cases b
  cases hb
  simp only [List.mem_append]
  exact .inr (.inr (.inr (.inl hq)))

/-- A query in the condition of a block. -/
theorem condition (hbody : q₀.body = .select b) {e : Expr} (he : b.selection = some e)
    (hq : q.outline ∈ e.outline) :
    q.StandsAt (p.enter ⟨q₀.recursive, cteNames q₀.ctes, none⟩) s := by
  have hq : q.outline ∈ outlineOption b.selection := by rwa [he]
  refine h.of_body hbody fun inside hb => ?_
  cases b
  cases hb
  simp only [List.mem_append]
  exact .inr (.inr (.inr (.inr (.inr (.inl hq)))))

end StandsAt

end Query

end RowPolicy.Sql
