import RowPolicy.Proofs.Joins.Placement

/-!
# The tables of a block, one by one

Joins go by the number of relations in front of the one that they bring in, which no two joins
share. A `Leaf` is a table with the joins around it, and these joins alone say where its predicate
goes: `Leaf.home`. `JoinTree.amended` puts predicates behind the `ON` of the joins of a tree.

`JoinTree.steps` lists what there is to do in a tree, in textual order: a table is asked for, a
relation that is no table is refused, an outer join without `ON` ends. The steps of a part of a tree
are about that part (`steps_local`).
-/

namespace RowPolicy.Sql

/-! ## Homes -/

/-- A join around a table, by its number. -/
structure Around where
  join : Nat
  kind : JoinKind
  on : Option Expr

/-- Whether a predicate goes no further out than a join: it has an `ON`, or it is an outer join. -/
def Around.stops (x : Around) : Bool :=
  x.on.isSome || !x.kind.isInner

/-- Where the predicate of a table goes: behind the `ON` of a join, nowhere as it reaches an outer
join without `ON`, or behind the condition of the block. -/
inductive Home where
  | on (join : Nat)
  | lost (join : Nat)
  | selection
  deriving DecidableEq, Repr

/-- The home of a table with these joins around it, the innermost first. -/
def homeIn (around : List Around) : Home :=
  match around.find? (·.stops) with
  | some ⟨n, _, some _⟩ => .on n
  | some ⟨n, _, none⟩ => .lost n
  | none => .selection

/-- The condition that the predicate of a table with these joins around it will stand behind. -/
def standingIn (around : List Around) (selection : Option Expr) : Option Expr :=
  match around.find? (·.stops) with
  | some x => x.on
  | none => selection

/-- A table that is asked for, and the joins around it, the innermost first. -/
structure Leaf where
  target : Target
  around : List Around

/-- Where the predicate of a table goes. -/
def Leaf.home (l : Leaf) : Home :=
  homeIn l.around

/-- Whether a home is that of a join with a number from `n` up to but not including `k`. -/
def Home.Within (n k : Nat) : Home → Prop
  | .on j => n ≤ j ∧ j < k
  | .lost j => n ≤ j ∧ j < k
  | .selection => False

/-- Whether a home is behind the condition of the block, or that of a join with a number less
than `n`. -/
def Home.Below (n : Nat) : Home → Prop
  | .on j => j < n
  | .lost j => j < n
  | .selection => True

theorem Home.Within.mono {n k n' k' : Nat} {h : Home} (hw : h.Within n k) (hn : n' ≤ n)
    (hk : k ≤ k') : h.Within n' k' := by
  cases h <;> simp only [Within] at hw ⊢ <;> omega

theorem Home.Within.below {n k : Nat} {h : Home} (hw : h.Within n k) : h.Below k := by
  cases h <;> simp only [Within, Below] at hw ⊢
  all_goals omega

theorem Home.Below.mono {n k : Nat} {h : Home} (hb : h.Below n) (hn : n ≤ k) : h.Below k := by
  cases h <;> simp only [Below] at hb ⊢ <;> omega

theorem Home.Within.ne {n k : Nat} {h h' : Home} (hw : h.Within n k) (hb : h'.Below n) :
    h ≠ h' := by
  rintro rfl
  cases h <;> simp only [Within, Below] at hw hb
  all_goals omega

theorem Home.Below.ne_on {n i : Nat} {h : Home} (hb : h.Below n) (hi : n ≤ i) : h ≠ .on i := by
  rintro rfl
  exact Nat.not_lt.mpr hi hb

theorem homeIn_on (n : Nat) (kind : JoinKind) (e : Expr) (around : List Around) :
    homeIn (⟨n, kind, some e⟩ :: around) = .on n := by
  simp [homeIn, Around.stops]

theorem homeIn_lost (n : Nat) {kind : JoinKind} (h : kind.isInner = false)
    (around : List Around) : homeIn (⟨n, kind, none⟩ :: around) = .lost n := by
  simp [homeIn, Around.stops, h]

/-- An inner join without `ON` lets predicates through. -/
theorem homeIn_inner (n : Nat) {kind : JoinKind} (h : kind.isInner = true)
    (around : List Around) : homeIn (⟨n, kind, none⟩ :: around) = homeIn around := by
  simp [homeIn, Around.stops, h]

/-- Out of a cross join without `ON`, and no further than the `ON` of the join around it. -/
example (e : Expr) : homeIn [⟨2, .cross, none⟩, ⟨1, .left, some e⟩] = .on 1 := rfl

theorem standingIn_on (n : Nat) (kind : JoinKind) (e : Expr) (around : List Around)
    (selection : Option Expr) :
    standingIn (⟨n, kind, some e⟩ :: around) selection = some e := by
  simp [standingIn, Around.stops]

theorem standingIn_lost (n : Nat) {kind : JoinKind} (h : kind.isInner = false)
    (around : List Around) (selection : Option Expr) :
    standingIn (⟨n, kind, none⟩ :: around) selection = none := by
  simp [standingIn, Around.stops, h]

theorem standingIn_inner (n : Nat) {kind : JoinKind} (h : kind.isInner = true)
    (around : List Around) (selection : Option Expr) :
    standingIn (⟨n, kind, none⟩ :: around) selection = standingIn around selection := by
  simp [standingIn, Around.stops, h]

/-- The home that joins give is one of them. -/
theorem homeIn_below {n : Nat} {around : List Around} (h : ∀ x ∈ around, x.join < n) :
    (homeIn around).Below n := by
  unfold homeIn
  cases hf : around.find? (·.stops) with
  | none => trivial
  | some x =>
    have hx := h x (List.mem_of_find?_eq_some hf)
    obtain ⟨j, kind, on⟩ := x
    cases on <;> exact hx

/-! ## Answers -/

/-- A table with the answer for it. -/
abbrev Answer := Leaf × Option Expr

/-- The predicates that go to a home, in order. -/
def answersAt (h : Home) (as : List Answer) : List Expr :=
  as.filterMap fun x => if x.1.home = h then x.2 else none

theorem answersAt_append (h : Home) (as bs : List Answer) :
    answersAt h (as ++ bs) = answersAt h as ++ answersAt h bs :=
  List.filterMap_append

theorem answersAt_singleton (h : Home) (l : Leaf) (p : Option Expr) :
    answersAt h [(l, p)] = if l.home = h then p.toList else [] := by
  by_cases hl : l.home = h <;> cases p <;> simp [answersAt, hl]

theorem answersAt_eq_nil {h : Home} {as : List Answer} (ha : ∀ x ∈ as, x.1.home ≠ h) :
    answersAt h as = [] :=
  List.filterMap_eq_nil_iff.mpr fun x hx => if_neg (ha x hx)

/-- The predicates that go behind the `ON` of each join. -/
def additions (as : List Answer) (join : Nat) : List Expr :=
  answersAt (.on join) as

theorem additions_append (as bs : List Answer) (k : Nat) :
    additions (as ++ bs) k = additions as k ++ additions bs k :=
  answersAt_append (.on k) as bs

/-! ## Amended conditions -/

/-- A condition with predicates one by one behind it. -/
def Expr.withAll (e : Expr) (ps : List Expr) : Expr :=
  ps.foldl (fun e p => .conjoin (some e) p) e

theorem Expr.conjoinAll_some (e : Expr) (ps : List Expr) :
    Expr.conjoinAll (some e) ps = some (e.withAll ps) := by
  induction ps generalizing e with
  | nil => rfl
  | cons p ps ih => exact ih (.conjoin (some e) p)

mutual

/-- A tree of joins with predicates behind the `ON` of its joins, `n` relations being in front of
the tree. -/
def JoinTree.amended (g : Nat → List Expr) (n : Nat) : JoinTree → JoinTree
  | ⟨relation, joins⟩ => ⟨relation.amended g n, joinsAmended g (n + relation.size) joins⟩

/-- Joins with predicates behind their `ON`. -/
def joinsAmended (g : Nat → List Expr) (n : Nat) : List Join → List Join
  | [] => []
  | ⟨isGlobal, isNatural, kind, relation, matching, on, columns⟩ :: js =>
    ⟨isGlobal, isNatural, kind, relation.amended g n, matching,
      on.map (·.withAll (g n)), columns⟩ ::
      joinsAmended g (n + relation.size) js

/-- A relation with predicates behind the `ON` of the joins in it. -/
def Relation.amended (g : Nat → List Expr) (n : Nat) : Relation → Relation
  | .nested tree naming => .nested (tree.amended g n) naming
  | r => r

end

/-- A join with predicates behind its `ON` and the `ON` of the joins in it. -/
def Join.amended (g : Nat → List Expr) (n : Nat) (j : Join) : Join :=
  { j with
    relation := j.relation.amended g n
    on := j.on.map (·.withAll (g n)) }

/-- The trees of a `FROM` with predicates behind the `ON` of their joins. -/
def treesAmended (g : Nat → List Expr) (n : Nat) : List JoinTree → List JoinTree
  | [] => []
  | t :: ts => t.amended g n :: treesAmended g (n + t.size) ts

theorem joinsAmended_cons (g : Nat → List Expr) (n : Nat) (j : Join) (js : List Join) :
    joinsAmended g n (j :: js) = j.amended g n :: joinsAmended g (n + j.relation.size) js := by
  cases j
  rw [joinsAmended]
  rfl

theorem Relation.amended_leaf {r : Relation} (h : r.isLeaf) (g : Nat → List Expr) (n : Nat) :
    r.amended g n = r := by
  cases r with
  | nested => simp [Relation.isLeaf] at h
  | _ => rw [Relation.amended]; exact fun _ _ h => by cases h

theorem Relation.size_leaf {r : Relation} (h : r.isLeaf) : r.size = 1 := by
  cases r with
  | nested => simp [Relation.isLeaf] at h
  | _ => rw [Relation.size]

theorem size_pos : (∀ t : JoinTree, 0 < t.size) ∧ (∀ _ : List Join, True) ∧
    ∀ r : Relation, 0 < r.size := by
  refine JoinTree.induction ?tree ?nil ?cons ?nested ?leaf
  case tree =>
    intro relation joins ihr _
    rw [JoinTree.size]
    omega
  case nil => trivial
  case cons => exact fun _ _ _ _ => trivial
  case nested =>
    intro t naming ih
    rwa [Relation.size]
  case leaf =>
    intro r h
    rw [Relation.size_leaf h]
    exact Nat.one_pos

/-- Only the joins of a tree matter to it. -/
theorem amended_congr {g g' : Nat → List Expr} :
    (∀ t : JoinTree, ∀ n, (∀ k, n < k → k < n + t.size → g k = g' k) →
      t.amended g n = t.amended g' n) ∧
    (∀ js, ∀ n, (∀ k, n ≤ k → k < n + joinsSize js → g k = g' k) →
      joinsAmended g n js = joinsAmended g' n js) ∧
    ∀ r : Relation, ∀ n, (∀ k, n < k → k < n + r.size → g k = g' k) →
      r.amended g n = r.amended g' n := by
  refine JoinTree.induction ?tree ?nil ?cons ?nested ?leaf
  case tree =>
    intro relation joins ihr ihjs n h
    rw [JoinTree.size] at h
    have hpos := size_pos.2.2 relation
    rw [JoinTree.amended, JoinTree.amended, ihr n fun k hk hk' => h k hk (by omega),
      ihjs (n + relation.size) fun k hk hk' => h k (by omega) (by omega)]
  case nil => exact fun n _ => rfl
  case cons =>
    intro j js ihr ihjs n h
    rw [joinsSize_cons] at h
    have hpos := size_pos.2.2 j.relation
    rw [joinsAmended_cons, joinsAmended_cons, Join.amended, Join.amended,
      ihr n fun k hk hk' => h k (by omega) (by omega), h n (Nat.le_refl n) (by omega),
      ihjs (n + j.relation.size) fun k hk hk' => h k (by omega) (by omega)]
  case nested =>
    intro t naming ih n h
    rw [Relation.size] at h
    rw [Relation.amended, Relation.amended, ih n h]
  case leaf =>
    intro r hr n _
    rw [Relation.amended_leaf hr, Relation.amended_leaf hr]

theorem treesAmended_congr {g g' : Nat → List Expr} (ts : List JoinTree) (n : Nat)
    (h : ∀ k, n ≤ k → k < n + treesSize ts → g k = g' k) :
    treesAmended g n ts = treesAmended g' n ts := by
  induction ts generalizing n with
  | nil => rfl
  | cons t ts ih =>
    rw [treesSize] at h
    rw [treesAmended, treesAmended,
      amended_congr.1 t n fun k hk hk' => h k (Nat.le_of_lt hk) (by omega),
      ih (n + t.size) fun k hk hk' => h k (by omega) (by omega)]

theorem treesAmended_append (g : Nat → List Expr) (n : Nat) (ts us : List JoinTree) :
    treesAmended g n (ts ++ us) =
      treesAmended g n ts ++ treesAmended g (n + treesSize ts) us := by
  induction ts generalizing n with
  | nil => rfl
  | cons t ts ih =>
    simp only [List.cons_append, treesAmended, treesSize, ih, Nat.add_assoc]

theorem treesSize_append (ts us : List JoinTree) :
    treesSize (ts ++ us) = treesSize ts + treesSize us := by
  induction ts with
  | nil => simp [treesSize]
  | cons t ts ih => simp only [List.cons_append, treesSize, ih, Nat.add_assoc]

/-! ## Steps -/

/-- A step of restricting a block. -/
inductive Step where
  | ask (l : Leaf)
  /-- a relation that is no table stands here -/
  | refuse (construct fragment : String)
  /-- an outer join without `ON` that brings in the relation ends -/
  | close (join : Nat) (r : Relation)

/-- What a relation without a predicate is called. -/
def Relation.refused? : Relation → Option String
  | .table _ _ (some _) _ _ _ => some "table-valued function"
  | .transformed kind _ _ _ => some kind.label
  | .other kind _ _ _ => some kind.label
  | _ => none

section Steps

variable (s : Scope) (qualify : Bool)

/-- The steps for a relation that is no nested join. -/
def Relation.leafSteps (around : List Around) (r : Relation) : List Step :=
  match r.refused? with
  | some construct => [.refuse construct r.render]
  | none => (r.target? s qualify).toList.map fun t => .ask ⟨t, around⟩

/-- The steps at the end of a join. -/
def Join.closing (n : Nat) (j : Join) : List Step :=
  if j.on.isSome || j.kind.isInner then [] else [.close n j.relation]

mutual

/-- The steps for a tree of joins behind `n` relations and with these joins around it. -/
def JoinTree.steps (n : Nat) (around : List Around) : JoinTree → List Step
  | ⟨relation, joins⟩ =>
    relation.steps n around ++ joinsSteps (n + relation.size) around joins

/-- The steps for joins. -/
def joinsSteps (n : Nat) (around : List Around) : List Join → List Step
  | [] => []
  | ⟨isGlobal, isNatural, kind, relation, matching, on, columns⟩ :: js =>
    relation.steps n (⟨n, kind, on⟩ :: around) ++
      Join.closing n ⟨isGlobal, isNatural, kind, relation, matching, on, columns⟩ ++
      joinsSteps (n + relation.size) around js

/-- The steps for a relation. -/
def Relation.steps (n : Nat) (around : List Around) : Relation → List Step
  | .nested tree _ => tree.steps n around
  | r => r.leafSteps s qualify around

end

/-- The steps for the trees of a `FROM`. -/
def treesSteps (n : Nat) : List JoinTree → List Step
  | [] => []
  | t :: ts => t.steps s qualify n [] ++ treesSteps (n + t.size) ts

theorem treesSteps_append (n : Nat) (ts us : List JoinTree) :
    treesSteps s qualify n (ts ++ us) =
      treesSteps s qualify n ts ++ treesSteps s qualify (n + treesSize ts) us := by
  induction ts generalizing n with
  | nil => simp [treesSteps, treesSize]
  | cons t ts ih =>
    simp only [List.cons_append, treesSteps, treesSize, ih, List.append_assoc, Nat.add_assoc]

/-- The steps for a join. -/
def Join.steps (n : Nat) (around : List Around) (j : Join) : List Step :=
  j.relation.steps s qualify n (⟨n, j.kind, j.on⟩ :: around) ++ j.closing n

theorem joinsSteps_cons (n : Nat) (around : List Around) (j : Join) (js : List Join) :
    joinsSteps s qualify n around (j :: js) =
      j.steps s qualify n around ++ joinsSteps s qualify (n + j.relation.size) around js := by
  cases j
  rw [joinsSteps]
  rfl

theorem Relation.steps_leaf {r : Relation} (h : r.isLeaf) (n : Nat) (around : List Around) :
    r.steps s qualify n around = r.leafSteps s qualify around := by
  cases r with
  | nested => simp [Relation.isLeaf] at h
  | _ => rw [Relation.steps]; exact fun _ _ h => by cases h

end Steps

/-- The tables that are asked for. -/
def Step.leaf? : Step → Option Leaf
  | .ask l => some l
  | _ => none

/-- Whether the steps of some part are about that part: its tables have the home `h` that they
are given from around, or a join from `n` up to but not including `k`, and such joins end. -/
structure Local (h : Home) (n k : Nat) (steps : List Step) : Prop where
  ask : ∀ l, .ask l ∈ steps → l.home = h ∨ l.home.Within n k
  close : ∀ c r, .close c r ∈ steps → n ≤ c ∧ c < k

theorem Local.nil (h : Home) (n k : Nat) : Local h n k [] where
  ask _ hl := by simp at hl
  close _ _ hc := by simp at hc

theorem Local.append {h : Home} {n k : Nat} {steps steps' : List Step} (hs : Local h n k steps)
    (hs' : Local h n k steps') : Local h n k (steps ++ steps') where
  ask l hl := (List.mem_append.mp hl).elim (hs.ask l) (hs'.ask l)
  close c r hc := (List.mem_append.mp hc).elim (hs.close c r) (hs'.close c r)

theorem Local.mono {h : Home} {n k n' k' : Nat} {steps : List Step} (hs : Local h n k steps)
    (hn : n' ≤ n) (hk : k ≤ k') : Local h n' k' steps where
  ask l hl := (hs.ask l hl).imp_right fun hw => hw.mono hn hk
  close c r hc := by have := hs.close c r hc; omega

/-- What a join with `ON` or an outer join is around stays in it. -/
theorem Local.stop {h h' : Home} {n k : Nat} {steps : List Step} (hs : Local h n k steps)
    (hh : h.Within n k) : Local h' n k steps where
  ask l hl := .inr ((hs.ask l hl).elim (fun heq => heq ▸ hh) id)
  close := hs.close

theorem Join.local_closing (h : Home) (n : Nat) (j : Join) {k : Nat} (hk : n < k) :
    Local h n k (j.closing n) := by
  unfold Join.closing
  split
  · exact .nil h n k
  · refine ⟨fun l hl => ?_, fun c r hc => ?_⟩
    · simp at hl
    · simp only [List.mem_singleton, Step.close.injEq] at hc
      omega

/-- The steps of a join are about it, where those of what it joins are about that. -/
theorem Join.local_steps {s : Scope} {qualify : Bool} {n : Nat} {j : Join}
    (hr : ∀ around, Local (homeIn around) (n + 1) (n + j.relation.size)
      (j.relation.steps s qualify n around)) (around : List Around) :
    Local (homeIn around) n (n + j.relation.size) (j.steps s qualify n around) := by
  have hpos := size_pos.2.2 j.relation
  have hn : n < n + j.relation.size := by omega
  have hin := (hr (⟨n, j.kind, j.on⟩ :: around)).mono (Nat.le_succ n) (Nat.le_refl _)
  refine Local.append ?_ (j.local_closing _ n hn)
  cases hon : j.on with
  | some e =>
    rw [hon, homeIn_on] at hin
    exact hin.stop ⟨Nat.le_refl n, hn⟩
  | none =>
    cases hinner : j.kind.isInner with
    | true => rwa [hon, homeIn_inner n hinner] at hin
    | false =>
      rw [hon, homeIn_lost n hinner] at hin
      exact hin.stop ⟨Nat.le_refl n, hn⟩

/-- The steps of a tree are about it. -/
theorem steps_local (s : Scope) (qualify : Bool) :
    (∀ t : JoinTree, ∀ n around,
      Local (homeIn around) (n + 1) (n + t.size) (t.steps s qualify n around)) ∧
    (∀ js, ∀ n around,
      Local (homeIn around) n (n + joinsSize js) (joinsSteps s qualify n around js)) ∧
    ∀ r : Relation, ∀ n around,
      Local (homeIn around) (n + 1) (n + r.size) (r.steps s qualify n around) := by
  refine JoinTree.induction ?tree ?nil ?cons ?nested ?leaf
  case tree =>
    intro relation joins ihr ihjs n around
    have hpos := size_pos.2.2 relation
    rw [JoinTree.steps, JoinTree.size]
    exact ((ihr n around).mono (by omega) (by omega)).append
      ((ihjs (n + relation.size) around).mono (by omega) (by omega))
  case nil => exact fun n around => .nil _ _ _
  case cons =>
    intro j js ihr ihjs n around
    rw [joinsSteps_cons, joinsSize_cons]
    exact ((Join.local_steps (ihr n) around).mono (Nat.le_refl n) (by omega)).append
      ((ihjs (n + j.relation.size) around).mono (by omega) (by omega))
  case nested =>
    intro t naming ih n around
    rw [Relation.steps, Relation.size]
    exact ih n around
  case leaf =>
    intro r hr n around
    rw [Relation.steps_leaf s qualify hr, Relation.leafSteps]
    split
    · exact ⟨fun l hl => by simp at hl, fun c r hc => by simp at hc⟩
    · refine ⟨fun l hl => .inl ?_, fun c r hc => by simp at hc⟩
      obtain ⟨t, -, ht⟩ := List.mem_map.mp hl
      cases ht
      rfl

theorem treesSteps_local (s : Scope) (qualify : Bool) (ts : List JoinTree) (n : Nat) :
    Local .selection n (n + treesSize ts) (treesSteps s qualify n ts) := by
  induction ts generalizing n with
  | nil => exact .nil _ _ _
  | cons t ts ih =>
    rw [treesSteps, treesSize]
    exact (((steps_local s qualify).1 t n []).mono (Nat.le_succ n) (by omega)).append
      ((ih (n + t.size)).mono (by omega) (by omega))

/-- Predicates for tables of a part go behind no `ON` outside of it but the one around it. -/
theorem Local.additions_eq_nil {h : Home} {n k : Nat} {steps : List Step} (hs : Local h n k steps)
    {as : List Answer} (has : ∀ x ∈ as, .ask x.1 ∈ steps) {i : Nat} (hi : h ≠ .on i)
    (hout : i < n ∨ k ≤ i) : additions as i = [] :=
  answersAt_eq_nil fun x hx hh => by
    rcases hs.ask x.1 (has x hx) with h' | h'
    · exact hi (h'.symm.trans hh)
    · rw [hh, Home.Within] at h'
      omega

end RowPolicy.Sql
