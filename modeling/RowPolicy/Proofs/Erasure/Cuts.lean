import RowPolicy.Proofs.Joins.Settled

/-!
# Taking predicates away again

Restricting a block puts predicates behind its conditions. A `Cut` says what has been put behind one
of them, and takes it away again: conjuncts from the right end, and the parentheses that the old
condition has got. The cuts of a block go by its joins, like the predicates, so that for all that a
block can be amended with there are cuts that give back the block: `RowBlock.exists_erase_amended`.

A cut only ever takes away what stands at the right end of a condition. What a cut gives back is
therefore what was there, and no more.
-/

namespace RowPolicy.Sql

/-! ## Conditions -/

/-- What has been put behind a condition: a number of conjuncts, and parentheses around the
condition. -/
structure Cut where
  conjuncts : Nat := 0
  wrapped : Bool := false

/-- A condition without conjuncts at its right end. -/
def Expr.dropConjuncts : Nat → Expr → Expr
  | n + 1, .binary l .and _ => l.dropConjuncts n
  | _, e => e

/-- A condition without the parentheses around it. -/
def Expr.unwrapped : Expr → Expr
  | .nested e => e
  | e => e

/-- A condition without what has been put behind it. -/
def Expr.cut (x : Cut) (e : Expr) : Expr :=
  if x.wrapped then (e.dropConjuncts x.conjuncts).unwrapped else e.dropConjuncts x.conjuncts

/-- `(a OR b) AND c` has been `a OR b`. -/
example (a b c : Expr) :
    ((a.binary .or b).nested.binary .and c).cut ⟨1, true⟩ = a.binary .or b := rfl

theorem Expr.dropConjuncts_zero (e : Expr) : e.dropConjuncts 0 = e := by
  rw [dropConjuncts]
  intro n l r h
  cases h

/-- Predicates behind a conjunction are dropped first. -/
theorem Expr.dropConjuncts_withAll (ps : List Expr) (k : Nat) (l r : Expr) :
    ((Expr.binary l .and r).withAll ps).dropConjuncts (ps.length + k) =
      (Expr.binary l .and r).dropConjuncts k := by
  induction ps generalizing k l r with
  | nil => simp [withAll]
  | cons p ps ih =>
    rw [List.length_cons, Nat.add_assoc, Nat.add_comm 1 k]
    exact ih (k + 1) (.binary l .and r) p.parenthesized

theorem Expr.exists_cut_withAll (e : Expr) (ps : List Expr) : ∃ x, (e.withAll ps).cut x = e := by
  cases ps with
  | nil => exact ⟨{}, e.dropConjuncts_zero⟩
  | cons p ps =>
    have hdrop : (e.withAll (p :: ps)).dropConjuncts (ps.length + 1) = e.parenthesized := by
      have h := dropConjuncts_withAll ps 1 e.parenthesized p.parenthesized
      rwa [dropConjuncts, dropConjuncts_zero] at h
    have hwrap : e.parenthesized = e ∨ e.parenthesized = .nested e := by
      cases e with
      | binary l op r => cases op <;> simp [parenthesized]
      | _ => exact .inl rfl
    rcases hwrap with h | h
    · refine ⟨⟨ps.length + 1, false⟩, ?_⟩
      simp [cut, hdrop, h]
    · refine ⟨⟨ps.length + 1, true⟩, ?_⟩
      simp [cut, hdrop, h, unwrapped]

/-- The condition of a block without what has been put behind it. Without a cut, there was none. -/
def cutSelection (x : Option Cut) (e : Option Expr) : Option Expr :=
  x.bind fun x => e.map (·.cut x)

theorem exists_cutSelection (e : Option Expr) (ps : List Expr) :
    ∃ x, cutSelection x (Expr.conjoinAll e ps) = e := by
  cases e with
  | none => exact ⟨none, rfl⟩
  | some e =>
    obtain ⟨x, hx⟩ := e.exists_cut_withAll ps
    refine ⟨some x, ?_⟩
    rw [Expr.conjoinAll_some]
    exact congrArg some hx

/-! ## Trees of joins -/

mutual

/-- A tree of joins without what has been put behind the `ON` of its joins, `n` relations being in
front of the tree. -/
def JoinTree.cut (x : Nat → Cut) (n : Nat) : JoinTree → JoinTree
  | ⟨relation, joins⟩ => ⟨relation.cut x n, joinsCut x (n + relation.size) joins⟩

/-- Joins without what has been put behind their `ON`. -/
def joinsCut (x : Nat → Cut) (n : Nat) : List Join → List Join
  | [] => []
  | ⟨isGlobal, isNatural, kind, relation, matching, on, columns⟩ :: js =>
    ⟨isGlobal, isNatural, kind, relation.cut x n, matching, on.map (·.cut (x n)), columns⟩ ::
      joinsCut x (n + relation.size) js

/-- A relation without what has been put behind the `ON` of the joins in it. -/
def Relation.cut (x : Nat → Cut) (n : Nat) : Relation → Relation
  | .nested tree naming => .nested (tree.cut x n) naming
  | r => r

end

/-- The trees of a `FROM` without what has been put behind the `ON` of their joins. -/
def treesCut (x : Nat → Cut) (n : Nat) : List JoinTree → List JoinTree
  | [] => []
  | t :: ts => t.cut x n :: treesCut x (n + t.size) ts

theorem Relation.cut_leaf {r : Relation} (h : r.isLeaf) (x : Nat → Cut) (n : Nat) :
    r.cut x n = r := by
  cases r with
  | nested => simp [Relation.isLeaf] at h
  | _ => rw [Relation.cut]; exact fun _ _ h => by cases h

/-- Whether cuts take away what has been put behind conditions that go by numbers. -/
def Undoes (x : Nat → Cut) (g : Nat → List Expr) (ons : List (Nat × Expr)) : Prop :=
  ∀ y ∈ ons, (y.2.withAll (g y.1)).cut (x y.1) = y.2

theorem cut_amended (x : Nat → Cut) (g : Nat → List Expr) :
    (∀ t : JoinTree, ∀ n, Undoes x g (t.ons n) → (t.amended g n).cut x n = t) ∧
    (∀ js, ∀ n, Undoes x g (joinsOns n js) → joinsCut x n (joinsAmended g n js) = js) ∧
    ∀ r : Relation, ∀ n, Undoes x g (r.ons n) → (r.amended g n).cut x n = r := by
  refine JoinTree.induction ?tree ?nil ?cons ?nested ?leaf
  case tree =>
    intro relation joins ihr ihjs n h
    rw [JoinTree.ons] at h
    rw [JoinTree.amended, JoinTree.cut, (size_amended g).2.2,
      ihr n fun y hy => h y (List.mem_append_left _ hy),
      ihjs _ fun y hy => h y (List.mem_append_right _ hy)]
  case nil => exact fun n _ => rfl
  case cons =>
    intro j js ihr ihjs n h
    rw [joinsOns_cons] at h
    obtain ⟨isGlobal, isNatural, kind, relation, matching, on, columns⟩ := j
    have hon : (on.map (·.withAll (g n))).map (·.cut (x n)) = on := by
      cases on with
      | none => rfl
      | some e =>
        have he := h (n, e) (List.mem_append_left _ (List.mem_append_left _ (by simp)))
        exact congrArg some he
    have hr : (relation.amended g n).cut x n = relation :=
      ihr n fun y hy => h y (List.mem_append_left _ (List.mem_append_right _ hy))
    rw [joinsAmended, joinsCut, (size_amended g).2.2, hr, hon,
      ihjs _ fun y hy => h y (List.mem_append_right _ hy)]
  case nested =>
    intro t naming ih n h
    rw [Relation.ons] at h
    rw [Relation.amended, Relation.cut, ih n h]
  case leaf =>
    intro r hr n _
    rw [Relation.amended_leaf hr, Relation.cut_leaf hr]

theorem treesCut_amended {x : Nat → Cut} {g : Nat → List Expr} (ts : List JoinTree) (n : Nat)
    (h : Undoes x g (treesOns n ts)) : treesCut x n (treesAmended g n ts) = ts := by
  induction ts generalizing n with
  | nil => rfl
  | cons t ts ih =>
    rw [treesOns] at h
    rw [treesAmended, treesCut, (size_amended g).1,
      (cut_amended x g).1 t n fun y hy => h y (List.mem_append_left _ hy),
      ih _ fun y hy => h y (List.mem_append_right _ hy)]

theorem treesOns_append (n : Nat) (ts us : List JoinTree) :
    treesOns n (ts ++ us) = treesOns n ts ++ treesOns (n + treesSize ts) us := by
  induction ts generalizing n with
  | nil => rfl
  | cons t ts ih =>
    simp only [List.cons_append, treesOns, treesSize, ih, List.append_assoc, Nat.add_assoc]

/-- As no two joins share a number, there is one cut for each. -/
theorem exists_undoes (g : Nat → List Expr) {ons : List (Nat × Expr)}
    (hn : (ons.map Prod.fst).Nodup) : ∃ x, Undoes x g ons := by
  induction ons with
  | nil => exact ⟨fun _ => {}, fun y hy => absurd hy List.not_mem_nil⟩
  | cons y ons ih =>
    rw [List.map_cons, List.nodup_cons] at hn
    obtain ⟨x, hx⟩ := ih hn.2
    obtain ⟨x₀, hx₀⟩ := y.2.exists_cut_withAll (g y.1)
    refine ⟨Function.update x y.1 x₀, fun z hz => ?_⟩
    rcases List.mem_cons.mp hz with rfl | hz
    · rwa [Function.update_self]
    · have hne : z.1 ≠ y.1 := fun heq => hn.1 (heq ▸ List.mem_map_of_mem hz)
      rw [Function.update_of_ne hne]
      exact hx z hz

/-! ## Blocks -/

/-- What has been put behind the conditions of a block. -/
structure BlockMark where
  on : Nat → Cut
  selection : Option Cut

/-- A select block without what has been put behind its conditions. -/
def Select.erase (m : BlockMark) (b : Select) : Select :=
  { b with
    sources := treesCut m.on 0 b.sources
    selection := cutSelection m.selection b.selection }

/-- An update without what has been put behind its conditions. -/
def Update.erase (m : BlockMark) (u : Update) : Update :=
  { u with
    table := u.table.cut m.on 0
    sources := treesCut m.on u.table.size u.sources
    selection := cutSelection m.selection u.selection }

/-- A deletion without what has been put behind its conditions. -/
def Deletion.erase (m : BlockMark) (d : Deletion) : Deletion :=
  { d with
    sources := treesCut m.on 0 d.sources
    usingSources := d.usingSources.map (treesCut m.on (treesSize d.sources))
    selection := cutSelection m.selection d.selection }

/-- A block without what has been put behind its conditions. -/
def RowBlock.erase (m : BlockMark) : RowBlock → RowBlock
  | select scope b => select scope (b.erase m)
  | update u => update (u.erase m)
  | deletion d => deletion (d.erase m)

/-- Whatever a block has been amended with can be taken away. -/
theorem RowBlock.exists_erase_amended (b : RowBlock) (as : List Answer) :
    ∃ m, (b.amended as).erase m = b := by
  obtain ⟨x, hx⟩ := exists_undoes (additions as) (treesOns_numbered b.trees 0).nodup
  obtain ⟨y, hy⟩ := exists_cutSelection b.selection (answersAt .selection as)
  refine ⟨⟨x, y⟩, ?_⟩
  cases b with
  | select scope b =>
    have hsources := treesCut_amended b.sources 0 hx
    have hselection : cutSelection y (Expr.conjoinAll b.selection _) = b.selection := hy
    cases b
    simp only [amended, erase, Select.erase, hsources, hselection]
  | update u =>
    have htrees := treesCut_amended (u.table :: u.sources) 0 hx
    simp only [treesAmended, treesCut, List.cons.injEq, Nat.zero_add, (size_amended _).1] at htrees
    have hselection : cutSelection y (Expr.conjoinAll u.selection _) = u.selection := hy
    cases u
    simp only [amended, erase, Update.erase, (size_amended _).1, htrees, hselection]
  | deletion d =>
    rw [trees, treesOns_append, Nat.zero_add] at hx
    have hsources := treesCut_amended d.sources 0 fun z hz => hx z (List.mem_append_left _ hz)
    have husing : (d.usingSources.map (treesAmended (additions as) (treesSize d.sources))).map
        (treesCut x (treesSize d.sources)) = d.usingSources := by
      cases hd : d.usingSources with
      | none => rfl
      | some ts =>
        rw [hd] at hx
        exact congrArg some (treesCut_amended ts _ fun z hz => hx z (List.mem_append_right _ hz))
    have hselection : cutSelection y (Expr.conjoinAll d.selection _) = d.selection := hy
    cases d
    simp only [amended, erase, Deletion.erase, treesSize_amended, hsources, husing, hselection]

end RowPolicy.Sql
