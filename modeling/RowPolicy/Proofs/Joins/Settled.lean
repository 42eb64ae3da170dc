import RowPolicy.Proofs.Joins.Carried
import RowPolicy.Proofs.Outcomes

/-!
# Restricting a restricted block

A predicate settles a table if it asks for nothing more where its own answer stands among the
conditions. Where all predicates do, restricting a block a second time changes nothing:
`RowBlock.restrict_restrict`. The second time, each table is asked about with the condition that its
first answer has been put behind. A predicate that was lost at an outer join is answered and lost
again.
-/

namespace RowPolicy.Sql

namespace RowBlock

variable {strict : Bool} {predicate : Target → Option Expr → Except PolicyError (Option Expr)}

/-- Restricting a block goes well where each table is answered and, if the caller is strict, no
relation is refused and no predicate lost. -/
theorem restrict_eq_ok_iff {b b' : RowBlock} :
    b.restrict strict predicate = .ok b' ↔
      ∃ ps, List.Forall₂ (fun l p => b.asks predicate l = .ok p) b.leaves ps ∧
        b' = b.amended (b.leaves.zip ps) ∧
        (strict = true → ¬Refused b.steps ∧ lostOf (b.leaves.zip ps) = []) := by
  have h : Running.plain.run (b.restrict strict predicate) () = (.ok b', ()) ↔ _ :=
    run_restrict_ok .plain
  simpa only [Running.plain, Prod.mk.injEq, and_true, mapM_eq_ok_iff] using h

end RowBlock

/-! ## Conditions behind which answers stand -/

theorem Leaf.find?_amended (g : Nat → List Expr) (l : Leaf) :
    (l.amended g).around.find? (·.stops) = (l.around.find? (·.stops)).map (·.amended g) := by
  have hstops : (fun x => (Around.amended g x).stops) = (·.stops) :=
    funext (Around.stops_amended g)
  rw [Leaf.amended, List.find?_map, Function.comp_def, hstops]

/-- A table is asked about with its first answer, and the others at its home, behind the condition
that it was asked about with. -/
theorem standingIn_amended {l : Leaf} (as : List Answer) (selection : Option Expr)
    (h : ∀ c, l.home ≠ .lost c) :
    standingIn (l.amended (additions as)).around
        (Expr.conjoinAll selection (answersAt .selection as)) =
      Expr.conjoinAll (standingIn l.around selection) (answersAt l.home as) := by
  rw [standingIn, l.find?_amended, standingIn]
  unfold Leaf.home homeIn at h ⊢
  cases hfind : l.around.find? (·.stops) with
  | none => rfl
  | some x =>
    obtain ⟨n, kind, on⟩ := x
    cases on with
    | some e => exact (Expr.conjoinAll_some e _).symm
    | none =>
      rw [hfind] at h
      exact absurd rfl (h n)

/-- Behind an outer join without `ON` nothing stands. -/
theorem standingIn_of_lost {l : Leaf} {c : Nat} (h : l.home = .lost c)
    (selection : Option Expr) : standingIn l.around selection = none := by
  unfold Leaf.home homeIn at h
  split at h
  · cases h
  · rename_i hfind
    rw [standingIn, hfind]
  · cases h

/-! ## Blocks amended with nothing -/

theorem amended_nil :
    (∀ t : JoinTree, ∀ n, t.amended (fun _ => []) n = t) ∧
    (∀ js, ∀ n, joinsAmended (fun _ => []) n js = js) ∧
    ∀ r : Relation, ∀ n, r.amended (fun _ => []) n = r := by
  refine JoinTree.induction ?tree ?nil ?cons ?nested ?leaf
  case tree =>
    intro relation joins ihr ihjs n
    rw [JoinTree.amended, ihr, ihjs]
  case nil => exact fun n => rfl
  case cons =>
    intro j js ihr ihjs n
    have hon : j.on.map (·.withAll []) = j.on := by cases j.on <;> rfl
    rw [joinsAmended_cons, Join.amended, ihr, ihjs, hon]
    cases j
    rfl
  case nested =>
    intro t naming ih n
    rw [Relation.amended, ih]
  case leaf => exact fun r hr n => Relation.amended_leaf hr _ n

theorem treesAmended_nil (ts : List JoinTree) (n : Nat) :
    treesAmended (fun _ => []) n ts = ts := by
  induction ts generalizing n with
  | nil => rfl
  | cons t ts ih => rw [treesAmended, amended_nil.1, ih]

/-- Predicates that are lost change nothing. -/
theorem RowBlock.amended_eq_self {as : List Answer} (b : RowBlock)
    (h : ∀ x ∈ as, x.2 ≠ none → ∃ c, x.1.home = .lost c) : b.amended as = b := by
  have hnil : ∀ home, (∀ c, home ≠ .lost c) → answersAt home as = [] := by
    intro home hhome
    refine List.filterMap_eq_nil_iff.mpr fun x hx => ?_
    split
    · rename_i heq
      by_contra hne
      obtain ⟨c, hc⟩ := h x hx hne
      exact hhome c (heq ▸ hc)
    · rfl
  have hon : additions as = fun _ => [] := funext fun j => hnil (.on j) (by simp)
  have hselection : answersAt .selection as = [] := hnil .selection (by simp)
  have husing : ∀ (u : Option (List JoinTree)) n,
      u.map (treesAmended (fun _ => []) n) = u := fun u n => by
    cases u <;> simp [treesAmended_nil]
  obtain ⟨_, ⟨⟩⟩ | ⟨⟨⟩⟩ | ⟨⟨⟩⟩ := b <;>
    simp only [amended, hon, hselection, treesAmended_nil, amended_nil.1, husing, Expr.conjoinAll,
      List.foldl_nil]

/-! ## Restricting twice -/

/-- Whether a predicate that has been answered is not asked for again where the answer stands among
the conditions. -/
def Settles (predicate : Target → Option Expr → Except PolicyError (Option Expr)) : Prop :=
  ∀ t e p ps, predicate t e = .ok p → (∀ q ∈ p, q ∈ ps) →
    predicate t (Expr.conjoinAll e ps) = .ok none

/-- What a table is answered the second time: a predicate that is lost, and no other. -/
def Answer.again (x : Answer) : Option Expr :=
  match x.1.home with
  | .lost _ => x.2
  | _ => none

theorem Answer.exists_lost_of_again {x : Answer} (h : Answer.again x ≠ none) :
    ∃ c, x.1.home = .lost c := by
  unfold again at h
  split at h
  · exact ⟨_, ‹_›⟩
  · exact absurd rfl h

namespace RowBlock

variable {strict : Bool} {predicate : Target → Option Expr → Except PolicyError (Option Expr)}

/-- The second time, each table is asked about in the amended block. -/
theorem asks_amended (hsettles : Settles predicate) {b : RowBlock} {as : List Answer}
    {l : Leaf} {p : Option Expr} (hmem : (l, p) ∈ as) (hp : b.asks predicate l = .ok p) :
    (b.amended as).asks predicate (l.amended (additions as)) = .ok (Answer.again (l, p)) := by
  have hselection : (b.amended as).selection =
      Expr.conjoinAll b.selection (answersAt .selection as) := by cases b <;> rfl
  rw [asks] at hp
  rw [asks, hselection, Answer.again]
  change predicate l.target _ = _
  have hat : ∀ q ∈ p, q ∈ answersAt l.home as := fun q hq =>
    List.mem_filterMap.mpr ⟨(l, p), hmem, by rw [if_pos rfl]; exact hq⟩
  cases hhome : l.home with
  | lost c =>
    have hhome' := (l.home_amended (additions as)).trans hhome
    rwa [standingIn_of_lost hhome', ← standingIn_of_lost hhome b.selection]
  | on i =>
    rw [standingIn_amended as b.selection (by simp [hhome])]
    exact hsettles _ _ p _ hp hat
  | selection =>
    rw [standingIn_amended as b.selection (by simp [hhome])]
    exact hsettles _ _ p _ hp hat

/-- A restricted block is left as it is. -/
theorem restrict_restrict (hsettles : Settles predicate) {b b' : RowBlock}
    (h : b.restrict strict predicate = .ok b') : b'.restrict strict predicate = .ok b' := by
  obtain ⟨ps, hps, rfl, hstrict⟩ := restrict_eq_ok_iff.mp h
  obtain ⟨hlength, hanswers⟩ := List.forall₂_iff_zip.mp hps
  -- the answers of the first time, and those of the second
  let as := b.leaves.zip ps
  let second (x : Answer) : Answer := (x.1.amended (additions as), Answer.again x)
  have hleaves : (b.amended as).leaves = (as.map second).map Prod.fst := by
    rw [leaves_amended, List.map_map, ← List.map_fst_zip (Nat.le_of_eq hlength), List.map_map]
    rfl
  have hzip : (b.amended as).leaves.zip ((as.map second).map Prod.snd) = as.map second := by
    rw [hleaves, List.zip_map']
    exact List.map_id _
  refine restrict_eq_ok_iff.mpr ⟨(as.map second).map Prod.snd, ?_, ?_, fun hs => ?_⟩
  · rw [hleaves, List.forall₂_map_left_iff, List.forall₂_map_right_iff, List.forall₂_same]
    intro y hy
    obtain ⟨x, hx, rfl⟩ := List.mem_map.mp hy
    exact asks_amended hsettles hx (hanswers hx)
  · rw [hzip]
    refine (amended_eq_self _ fun y hy hne => ?_).symm
    obtain ⟨x, hx, rfl⟩ := List.mem_map.mp hy
    obtain ⟨c, hc⟩ := Answer.exists_lost_of_again hne
    exact ⟨c, (x.1.home_amended _).trans hc⟩
  · obtain ⟨hrefused, hlost⟩ := hstrict hs
    rw [hzip, steps_amended, refused_amended]
    refine ⟨hrefused, lostOf_eq_nil.mpr fun y hy c hc => ?_⟩
    obtain ⟨x, hx, rfl⟩ := List.mem_map.mp hy
    have hhome : x.1.home = .lost c := (x.1.home_amended _).symm.trans hc
    have hnone : x.2 = none := lostOf_eq_nil.mp hlost x hx c hhome
    simp [second, Answer.again, hhome, hnone]

end RowBlock

end RowPolicy.Sql
