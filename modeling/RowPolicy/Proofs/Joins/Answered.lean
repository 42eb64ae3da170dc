import RowPolicy.Proofs.Joins.Settled

/-!
# Answers with which a block is restricted

Restricting a block goes well with the answers for its tables that `RowBlock.Answered` says. They
are put behind the conditions by their homes alone, so a block is answered for like another one that
has tables with the same homes and the same answers (`RowBlock.Follows`). A predicate that overlooks
what has been put behind the conditions of a block answers for the amended block as for the block
(`RowBlock.follows_amended`, `RowBlock.amended_follows`), and what it then puts behind them stands
behind what is there (`RowBlock.amended_amended`).
-/

namespace RowPolicy.Sql

/-! ## Answers by the homes of their tables -/

/-- Answers with the homes of their tables alone. -/
def homed (as : List Answer) : List (Home × Option Expr) :=
  as.map fun x => (x.1.home, x.2)

theorem homed_append (as bs : List Answer) : homed (as ++ bs) = homed as ++ homed bs :=
  List.map_append

theorem homed_zip (ls : List Leaf) (ps : List (Option Expr)) :
    homed (ls.zip ps) = (ls.map Leaf.home).zip ps := by
  rw [homed, List.zip_map_left]
  rfl

section Placed

variable {as as' : List Answer} (h : homed as = homed as')
include h

/-- Predicates go where the homes of their tables are. -/
theorem answersAt_of_homed (home : Home) : answersAt home as = answersAt home as' := by
  have hhomed : ∀ xs : List Answer,
      answersAt home xs = (homed xs).filterMap fun x => if x.1 = home then x.2 else none := by
    intro xs
    rw [homed, List.filterMap_map]
    rfl
  rw [hhomed, hhomed, h]

theorem lostOf_eq_nil_of_homed : lostOf as = [] ↔ lostOf as' = [] := by
  have hhomed : ∀ xs : List Answer, lostOf xs = [] ↔
      ∀ x ∈ homed xs, ∀ c, x.1 = .lost c → x.2 = none := by
    intro xs
    rw [lostOf_eq_nil, homed, List.forall_mem_map]
  rw [hhomed, hhomed, h]

theorem RowBlock.amended_of_homed (b : RowBlock) : b.amended as = b.amended as' := by
  have hon : additions as = additions as' := funext fun n => answersAt_of_homed h (.on n)
  cases b <;> simp only [amended, hon, answersAt_of_homed h .selection]

end Placed

namespace RowBlock

variable {strict : Bool} {predicate : Target → Option Expr → Except PolicyError (Option Expr)}

/-- The answers with which the tables of a block are restricted without an error. -/
def Answered (strict : Bool)
    (predicate : Target → Option Expr → Except PolicyError (Option Expr)) (b : RowBlock)
    (as : List Answer) : Prop :=
  ∃ ps, List.Forall₂ (fun l p => b.asks predicate l = .ok p) b.leaves ps ∧ as = b.leaves.zip ps ∧
    (strict = true → ¬Refused b.steps ∧ lostOf as = [])

theorem restrict_eq_ok_iff_answered {b b' : RowBlock} :
    b.restrict strict predicate = .ok b' ↔
      ∃ as, b.Answered strict predicate as ∧ b' = b.amended as := by
  rw [restrict_eq_ok_iff]
  constructor
  · rintro ⟨ps, hps, hb', hstrict⟩
    exact ⟨_, ⟨ps, hps, rfl, hstrict⟩, hb'⟩
  · rintro ⟨_, ⟨ps, hps, rfl, hstrict⟩, hb'⟩
    exact ⟨ps, hps, hb', hstrict⟩

/-! ## Blocks that are answered for alike -/

/-- Whether a block has tables with the same homes as those of another one, that are answered for as
these are, and is refused only if the other one is. -/
structure Follows (predicate : Target → Option Expr → Except PolicyError (Option Expr))
    (b' b : RowBlock) : Prop where
  leaves : List.Forall₂ (fun l l' => l'.home = l.home ∧
    ∀ p, b.asks predicate l = .ok p → b'.asks predicate l' = .ok p) b.leaves b'.leaves
  refused : Refused b'.steps → Refused b.steps

/-- A block that follows another one is answered for like it. -/
theorem Follows.exists_answered {b b' : RowBlock} (h : b'.Follows predicate b) {as : List Answer}
    (has : b.Answered strict predicate as) :
    ∃ as', b'.Answered strict predicate as' ∧ homed as' = homed as := by
  obtain ⟨ps, hps, rfl, hstrict⟩ := has
  obtain ⟨hlength, hleaves⟩ := List.forall₂_iff_get.mp h.leaves
  obtain ⟨hlength', hps⟩ := List.forall₂_iff_get.mp hps
  have hps' : List.Forall₂ (fun l' p => b'.asks predicate l' = .ok p) b'.leaves ps :=
    List.forall₂_iff_get.mpr ⟨hlength.symm.trans hlength', fun i hi hi' =>
      (hleaves i (hlength ▸ hi) hi).2 _ (hps i _ hi')⟩
  have hhomes : b'.leaves.map Leaf.home = b.leaves.map Leaf.home := by
    refine List.ext_get (by simp [hlength]) fun i hi hi' => ?_
    simpa using (hleaves i (by simpa using hi') (by simpa using hi)).1
  have hhomed : homed (b'.leaves.zip ps) = homed (b.leaves.zip ps) := by
    rw [homed_zip, homed_zip, hhomes]
  refine ⟨b'.leaves.zip ps, ⟨ps, hps', rfl, fun hs => ?_⟩, hhomed⟩
  obtain ⟨hrefused, hlost⟩ := hstrict hs
  exact ⟨fun hr => hrefused (h.refused hr), (lostOf_eq_nil_of_homed hhomed).mpr hlost⟩

/-! ## Predicates behind predicates -/

section Overlooked

variable {kind : Expr → Prop}

/-- Whether a predicate is answered alike with and without predicates of a kind behind the condition
that it is asked with. -/
def Overlooks (predicate : Target → Option Expr → Except PolicyError (Option Expr))
    (kind : Expr → Prop) : Prop :=
  ∀ t e ps, (∀ q ∈ ps, kind q) → predicate t (Expr.conjoinAll e ps) = predicate t e

/-- Whether all predicates that were answered are of a kind. -/
def OfKind (kind : Expr → Prop) (as : List Answer) : Prop :=
  ∀ x ∈ as, ∀ q ∈ x.2, kind q

theorem OfKind.answersAt {as : List Answer} (has : OfKind kind as) (home : Home) :
    ∀ q ∈ answersAt home as, kind q := by
  intro q hq
  obtain ⟨x, hx, hxq⟩ := List.mem_filterMap.mp hq
  split at hxq
  · exact has x hx q hxq
  · cases hxq

variable (hover : Overlooks predicate kind) {as : List Answer} (has : OfKind kind as)
  (b : RowBlock)
include hover has

/-- A table of an amended block is answered for as before. -/
theorem asks_amended_of_overlooks (l : Leaf) :
    (b.amended as).asks predicate (l.amended (additions as)) = b.asks predicate l := by
  have hselection : (b.amended as).selection =
      Expr.conjoinAll b.selection (answersAt .selection as) := by cases b <;> rfl
  rw [asks, asks, hselection]
  change predicate l.target _ = _
  cases hhome : l.home with
  | lost c =>
    have hhome' := (l.home_amended (additions as)).trans hhome
    rw [standingIn_of_lost hhome', standingIn_of_lost hhome]
  | on i =>
    rw [standingIn_amended as b.selection (by simp [hhome])]
    exact hover _ _ _ (has.answersAt _)
  | selection =>
    rw [standingIn_amended as b.selection (by simp [hhome])]
    exact hover _ _ _ (has.answersAt _)

theorem amended_follows : (b.amended as).Follows predicate b where
  leaves := by
    rw [leaves_amended, List.forall₂_map_right_iff]
    refine List.forall₂_same.mpr fun l _ => ⟨l.home_amended _, fun p hp => ?_⟩
    rwa [asks_amended_of_overlooks hover has]
  refused := by
    rw [steps_amended, refused_amended]
    exact id

theorem follows_amended : b.Follows predicate (b.amended as) where
  leaves := by
    rw [leaves_amended, List.forall₂_map_left_iff]
    refine List.forall₂_same.mpr fun l _ => ⟨(l.home_amended _).symm, fun p hp => ?_⟩
    rwa [asks_amended_of_overlooks hover has] at hp
  refused := by
    rw [steps_amended, refused_amended]
    exact id

end Overlooked

end RowBlock

/-- Predicates behind predicates stand behind the condition one by one. -/
theorem Expr.conjoinAll_append (e : Option Expr) (ps qs : List Expr) :
    Expr.conjoinAll e (ps ++ qs) = Expr.conjoinAll (Expr.conjoinAll e ps) qs :=
  List.foldl_append

theorem Expr.withAll_append (e : Expr) (ps qs : List Expr) :
    e.withAll (ps ++ qs) = (e.withAll ps).withAll qs :=
  List.foldl_append

section Stacked

variable (g g' : Nat → List Expr)

theorem amended_amended :
    (∀ t : JoinTree, ∀ n, (t.amended g n).amended g' n = t.amended (fun k => g k ++ g' k) n) ∧
    (∀ js, ∀ n, joinsAmended g' n (joinsAmended g n js) =
      joinsAmended (fun k => g k ++ g' k) n js) ∧
    ∀ r : Relation, ∀ n, (r.amended g n).amended g' n = r.amended (fun k => g k ++ g' k) n := by
  refine JoinTree.induction ?tree ?nil ?cons ?nested ?leaf
  case tree =>
    intro relation joins ihr ihjs n
    rw [JoinTree.amended, JoinTree.amended, JoinTree.amended, (size_amended g).2.2, ihr, ihjs]
  case nil => exact fun n => rfl
  case cons =>
    intro j js ihr ihjs n
    have hsize : (j.amended g n).relation.size = j.relation.size := (size_amended g).2.2 _ n
    have hr : ((j.relation.amended g n).amended g' n) = _ := ihr n
    rw [joinsAmended_cons, joinsAmended_cons, joinsAmended_cons, hsize, ihjs, Join.amended,
      Join.amended, Join.amended, hr]
    cases j.on <;> simp [Expr.withAll_append]
  case nested =>
    intro t naming ih n
    rw [Relation.amended, Relation.amended, Relation.amended, ih]
  case leaf =>
    intro r hr n
    rw [Relation.amended_leaf hr, Relation.amended_leaf hr, Relation.amended_leaf hr]

theorem treesAmended_treesAmended (ts : List JoinTree) (n : Nat) :
    treesAmended g' n (treesAmended g n ts) = treesAmended (fun k => g k ++ g' k) n ts := by
  induction ts generalizing n with
  | nil => rfl
  | cons t ts ih =>
    rw [treesAmended, treesAmended, treesAmended, (size_amended g).1, (amended_amended g g').1, ih]

end Stacked

/-- What is put behind an amended block stands behind what is there. -/
theorem RowBlock.amended_amended (b : RowBlock) (as bs : List Answer) :
    (b.amended as).amended bs = b.amended (as ++ bs) := by
  have hon : additions (as ++ bs) = fun k => additions as k ++ additions bs k :=
    funext (additions_append as bs)
  cases b with
  | select scope s =>
    simp only [amended, hon, treesAmended_treesAmended, answersAt_append, Expr.conjoinAll_append]
  | update u =>
    simp only [amended, hon, treesAmended_treesAmended, (Sql.amended_amended _ _).1,
      (size_amended _).1, answersAt_append, Expr.conjoinAll_append]
  | deletion d =>
    simp only [amended, hon, treesAmended_treesAmended, treesSize_amended, answersAt_append,
      Expr.conjoinAll_append, Option.map_map, Function.comp_def]

end RowPolicy.Sql
