import Mathlib.Tactic.Choose
import RowPolicy.Proofs.Joins.Leaves

/-!
# Restricting as a walk

Restricting the tables of a block is to walk its steps one by one, and then to put the answers where
they belong, in any monad: `RowBlock.restrict_eq_walk`. A `RowBlock` is a part of a statement whose
tables are restricted: a select block, an update or a deletion.
-/

namespace RowPolicy.Sql

/-! ## Walking the steps -/

section Walk

variable {m : Type → Type} [Monad m] [MonadExceptOf PolicyError m] (strict : Bool)
  (ask : Leaf → m (Option Expr))

/-- The end of an outer join without `ON` that predicates reach, which is an error where the caller
is strict. -/
def refuseLoss (lost : List Expr) (r : Relation) : m Unit :=
  unless lost.isEmpty do unsupported strict "outer join without ON" r.render

/-- Walking steps one by one, `seen` being the answers so far. -/
def walk (seen : List Answer) : List Step → m (List Answer)
  | [] => return seen
  | .ask l :: rest => do
    let p ← ask l
    walk (seen ++ [(l, p)]) rest
  | .refuse construct fragment :: rest => do
    unsupported strict construct fragment
    walk seen rest
  | .close n r :: rest => do
    refuseLoss strict (answersAt (.lost n) seen) (r.amended (additions seen) n)
    walk seen rest

variable [LawfulMonad m]

theorem walk_append (seen : List Answer) (steps steps' : List Step) :
    walk strict ask seen (steps ++ steps') =
      walk strict ask seen steps >>= (walk strict ask · steps') := by
  induction steps generalizing seen with
  | nil => simp [walk]
  | cons step steps ih => cases step <;> simp [walk, ih]

/-- Answers for tables further left change nothing. -/
theorem walk_frame {n : Nat} {before : List Answer} (hb : ∀ x ∈ before, x.1.home.Below n)
    {steps : List Step} (hs : ∀ c r, .close c r ∈ steps → n ≤ c) (seen : List Answer) :
    walk strict ask (before ++ seen) steps = (before ++ ·) <$> walk strict ask seen steps := by
  have hnone : ∀ h k, h.Within n k → answersAt h before = [] := fun h k hh =>
    answersAt_eq_nil fun x hx => (hh.ne (hb x hx)).symm
  induction steps generalizing seen with
  | nil => simp [walk]
  | cons step steps ih =>
    replace ih := ih fun c r hc => hs c r (List.mem_cons_of_mem _ hc)
    cases step with
    | ask l => simp [walk, ← ih, List.append_assoc]
    | refuse construct fragment => simp [walk, ih]
    | close c r =>
      have hc := hs c r List.mem_cons_self
      have hr : r.amended (additions (before ++ seen)) c = r.amended (additions seen) c :=
        amended_congr.2.2 r c fun k hk _ => by
          rw [additions_append, additions, hnone (.on k) (k + 1) ⟨by omega, by omega⟩,
            List.nil_append]
      rw [walk, walk, answersAt_append, hnone (.lost c) (c + 1) ⟨hc, by omega⟩, List.nil_append,
        hr, ih, map_bind]

/-- Only answers for the tables that are asked for can come. -/
theorem walk_answers (steps : List Step) (seen : List Answer) :
    ∃ w : m { as : List Answer // ∀ x ∈ as, x ∈ seen ∨ .ask x.1 ∈ steps },
      Subtype.val <$> w = walk strict ask seen steps := by
  induction steps generalizing seen with
  | nil => exact ⟨pure ⟨seen, fun x hx => .inl hx⟩, by simp [walk]⟩
  | cons step steps ih =>
    have weaken : ∀ as : List Answer, (∀ x ∈ as, x ∈ seen ∨ .ask x.1 ∈ steps) →
        ∀ x ∈ as, x ∈ seen ∨ .ask x.1 ∈ step :: steps := fun as h x hx =>
      (h x hx).imp_right (List.mem_cons_of_mem _)
    cases step with
    | ask l =>
      choose w hw using fun p => ih (seen ++ [(l, p)])
      refine ⟨ask l >>= fun p => (fun as => ⟨as.1, fun x hx => ?_⟩) <$> w p, ?_⟩
      · rcases as.2 x hx with h | h
        · rcases List.mem_append.mp h with h | h
          · exact .inl h
          · rw [List.mem_singleton] at h
            exact .inr (h ▸ List.mem_cons_self)
        · exact .inr (List.mem_cons_of_mem _ h)
      · simp [walk, ← hw]
    | refuse construct fragment =>
      obtain ⟨w, hw⟩ := ih seen
      refine ⟨do
        unsupported strict construct fragment
        (fun as => ⟨as.1, weaken as.1 as.2⟩) <$> w, ?_⟩
      simp [walk, ← hw]
    | close n r =>
      obtain ⟨w, hw⟩ := ih seen
      refine ⟨do
        refuseLoss strict (answersAt (.lost n) seen) (r.amended (additions seen) n)
        (fun as => ⟨as.1, weaken as.1 as.2⟩) <$> w, ?_⟩
      simp [walk, ← hw]

/-- What is done with the answers may rest on what they are for. -/
theorem walk_congr {β : Type} {steps : List Step} {k k' : List Answer → m β}
    (h : ∀ as, (∀ x ∈ as, .ask x.1 ∈ steps) → k as = k' as) :
    walk strict ask [] steps >>= k = walk strict ask [] steps >>= k' := by
  obtain ⟨w, hw⟩ := walk_answers strict ask steps []
  rw [← hw, bind_map_left, bind_map_left]
  refine bind_congr fun as => h as.1 fun x hx => (as.2 x hx).resolve_left List.not_mem_nil

/-- Steps one part after the other, the tables of the second not looking at those of the first. -/
theorem walk_append_bind {β : Type} {n : Nat} {steps steps' : List Step}
    (h : ∀ l, .ask l ∈ steps → l.home.Below n) (h' : ∀ c r, .close c r ∈ steps' → n ≤ c)
    (k : List Answer → m β) :
    walk strict ask [] (steps ++ steps') >>= k =
      walk strict ask [] steps >>= fun as => walk strict ask [] steps' >>= fun bs =>
        k (as ++ bs) := by
  rw [walk_append, bind_assoc]
  refine walk_congr strict ask fun as has => ?_
  have hframe := walk_frame strict ask (fun x hx => h x.1 (has x hx)) h' []
  rw [List.append_nil] at hframe
  rw [hframe, bind_map_left]

end Walk

/-! ## Restricting -/

section Restricting

variable {m : Type → Type} [Monad m] [MonadExceptOf PolicyError m] [LawfulMonad m]
  (w : Restriction m) (selection : Option Expr)

/-- The question for a table. -/
def Restriction.asks (l : Leaf) : m (Option Expr) :=
  w.predicate l.target (standingIn l.around selection)

theorem Relation.restrict_eq_walk (r : Relation) (hr : r.isLeaf) (n : Nat) (around : List Around) :
    r.restrict w (standingIn around selection) = do
      let as ← walk w.strict (w.asks selection) [] (r.steps w.scope w.qualify n around)
      return (r.amended (additions as) n, answersAt (homeIn around) as) := by
  simp only [Relation.steps_leaf w.scope w.qualify hr, Relation.amended_leaf hr]
  cases r with
  | nested => simp [Relation.isLeaf] at hr
  | derived isLateral query naming =>
    simp [Relation.restrict, leafSteps, refused?, target?, walk, answersAt]
  | transformed kind source clause naming =>
    simp [Relation.restrict, leafSteps, refused?, walk, answersAt]
  | other kind pieces naming suffix =>
    simp [Relation.restrict, leafSteps, refused?, walk, answersAt]
  | table name partition arguments ordinality naming after =>
    cases arguments with
    | some => simp [Relation.restrict, leafSteps, refused?, walk, answersAt]
    | none =>
      cases htable : w.scope.baseTable? name with
      | none =>
        simp [Relation.restrict, Restriction.ofTable, leafSteps, refused?, target?, walk,
          answersAt, htable]
      | some table =>
        simp [Relation.restrict, Restriction.ofTable, leafSteps, refused?, target?, walk,
          answersAt_singleton, htable, Restriction.asks, Leaf.home]

/-- Nothing that a join stops goes further out. -/
theorem answersAt_homeIn_eq_nil {n k : Nat} {around : List Around} {steps : List Step} {h : Home}
    {as : List Answer} (ha : ∀ x ∈ around, x.join < n) (hs : Local h n k steps)
    (hh : h.Within n k) (has : ∀ x ∈ as, .ask x.1 ∈ steps) :
    answersAt (homeIn around) as = [] :=
  answersAt_eq_nil fun x hx => by
    rcases hs.ask x.1 (has x hx) with hx | hx
    · exact hx ▸ hh.ne (homeIn_below ha)
    · exact hx.ne (homeIn_below ha)

/-- A join, where what it joins is restricted by walking. -/
theorem Join.restrict_eq_walk (j : Join) (n : Nat) {around : List Around}
    (ha : ∀ x ∈ around, x.join < n)
    (ih : ∀ around, (∀ x ∈ around, x.join ≤ n) →
      j.relation.restrict w (standingIn around selection) = do
        let as ← walk w.strict (w.asks selection) [] (j.relation.steps w.scope w.qualify n around)
        return (j.relation.amended (additions as) n, answersAt (homeIn around) as)) :
    j.restrict w (standingIn around selection) = do
      let as ← walk w.strict (w.asks selection) [] (j.steps w.scope w.qualify n around)
      return (j.amended (additions as) n, answersAt (homeIn around) as) := by
  replace ih := ih (⟨n, j.kind, j.on⟩ :: around) fun x hx => by
    rcases List.mem_cons.mp hx with rfl | hx
    · exact Nat.le_refl n
    · exact Nat.le_of_lt (ha x hx)
  have hlocal := ((steps_local w.scope w.qualify).2.2 j.relation n
    (⟨n, j.kind, j.on⟩ :: around)).mono (Nat.le_succ n) (Nat.le_refl _)
  have hpos := size_pos.2.2 j.relation
  obtain ⟨isGlobal, isNatural, kind, relation, matching, on, columns⟩ := j
  -- What reaches the join stops at its `ON`, goes through an inner join, or is lost.
  cases on with
  | some e =>
    rw [standingIn_on, homeIn_on] at ih
    rw [homeIn_on] at hlocal
    simp only [Join.restrict, ih, bind_assoc, pure_bind, Join.steps, Join.closing,
      Option.isSome_some,
      Bool.true_or, if_true, List.append_nil]
    refine walk_congr _ _ fun as has => ?_
    rw [answersAt_homeIn_eq_nil ha hlocal ⟨Nat.le_refl n, by omega⟩ has, Expr.conjoinAll_some]
    rfl
  | none =>
    cases hinner : kind.isInner with
    | true =>
      rw [standingIn_inner n hinner, homeIn_inner n hinner] at ih
      simp only [Join.restrict, hinner, if_true, ih, bind_assoc, pure_bind, Join.steps,
        Join.closing, Bool.or_true, List.append_nil]
      rfl
    | false =>
      rw [standingIn_lost n hinner, homeIn_lost n hinner] at ih
      rw [homeIn_lost n hinner] at hlocal
      simp only [Join.restrict, hinner, Bool.false_eq_true, if_false, ih, bind_assoc, pure_bind,
        Join.steps, Join.closing, Option.isSome_none, Bool.or_self, walk_append]
      refine walk_congr _ _ fun as has => ?_
      simp only [walk, bind_assoc, pure_bind, refuseLoss,
        answersAt_homeIn_eq_nil ha hlocal ⟨Nat.le_refl n, by omega⟩ has]
      split
      · rw [pure_bind]
        rfl
      · rfl

/-- Restricting a tree of joins is walking its steps. -/
theorem restrict_eq_walk :
    (∀ t : JoinTree, ∀ n around, (∀ x ∈ around, x.join ≤ n) →
      t.restrict w (standingIn around selection) = do
        let as ← walk w.strict (w.asks selection) [] (t.steps w.scope w.qualify n around)
        return (t.amended (additions as) n, answersAt (homeIn around) as)) ∧
    (∀ js, ∀ n around, (∀ x ∈ around, x.join < n) →
      restrictJoins w (standingIn around selection) js = do
        let as ← walk w.strict (w.asks selection) [] (joinsSteps w.scope w.qualify n around js)
        return (joinsAmended (additions as) n js, answersAt (homeIn around) as)) ∧
    ∀ r : Relation, ∀ n around, (∀ x ∈ around, x.join ≤ n) →
      r.restrict w (standingIn around selection) = do
        let as ← walk w.strict (w.asks selection) [] (r.steps w.scope w.qualify n around)
        return (r.amended (additions as) n, answersAt (homeIn around) as) := by
  refine JoinTree.induction ?tree ?nil ?cons ?nested ?leaf
  case tree =>
    intro relation joins ihr ihjs n around ha
    have hpos := size_pos.2.2 relation
    have hr := (steps_local w.scope w.qualify).2.2 relation n around
    have hjs := (steps_local w.scope w.qualify).2.1 joins (n + relation.size) around
    have hbelow : (homeIn around).Below (n + 1) :=
      homeIn_below fun x hx => Nat.lt_succ_of_le (ha x hx)
    -- No table of the relation is lost at a join that ends behind it, so the joins are walked
    -- without the answers for the relation.
    rw [JoinTree.steps, walk_append_bind w.strict (w.asks selection) (n := n + relation.size)
      (fun l hl => (hr.ask l hl).elim (fun h => h ▸ hbelow.mono (by omega)) Home.Within.below)
      fun c r hc => (hjs.close c r hc).1]
    simp only [JoinTree.restrict, ihr n around ha,
      ihjs (n + relation.size) around fun x hx => by have := ha x hx; omega, bind_assoc, pure_bind]
    refine walk_congr _ _ fun as has => walk_congr _ _ fun bs hbs => ?_
    have hrelation :
        relation.amended (additions (as ++ bs)) n = relation.amended (additions as) n :=
      amended_congr.2.2 relation n fun i hi hi' => by
        rw [additions_append, hjs.additions_eq_nil hbs (hbelow.ne_on hi) (.inl hi'),
          List.append_nil]
    have hjoins : joinsAmended (additions (as ++ bs)) (n + relation.size) joins =
        joinsAmended (additions bs) (n + relation.size) joins :=
      amended_congr.2.1 joins (n + relation.size) fun i hi _ => by
        rw [additions_append, hr.additions_eq_nil has (hbelow.ne_on (by omega)) (.inr hi),
          List.nil_append]
    rw [JoinTree.amended, hrelation, hjoins, answersAt_append]
  case nil =>
    intro n around _
    simp [restrictJoins, joinsSteps, walk, joinsAmended, answersAt]
  case cons =>
    intro j js ihr ihjs n around ha
    have hpos := size_pos.2.2 j.relation
    have hj := Join.local_steps ((steps_local w.scope w.qualify).2.2 j.relation n) around
    have hjs := (steps_local w.scope w.qualify).2.1 js (n + j.relation.size) around
    have hbelow := homeIn_below ha
    rw [joinsSteps_cons, walk_append_bind w.strict (w.asks selection) (n := n + j.relation.size)
      (fun l hl => (hj.ask l hl).elim (fun h => h ▸ hbelow.mono (by omega)) Home.Within.below)
      fun c r hc => (hjs.close c r hc).1]
    simp only [restrictJoins, j.restrict_eq_walk w selection n ha fun around => ihr n around,
      ihjs (n + j.relation.size) around fun x hx => by have := ha x hx; omega, bind_assoc,
      pure_bind]
    refine walk_congr _ _ fun as has => walk_congr _ _ fun bs hbs => ?_
    have hnone : ∀ i, n ≤ i → i < n + j.relation.size →
        additions (as ++ bs) i = additions as i := fun i hi hi' => by
      rw [additions_append, hjs.additions_eq_nil hbs (hbelow.ne_on hi) (.inl hi'), List.append_nil]
    have hjoin : j.amended (additions (as ++ bs)) n = j.amended (additions as) n := by
      rw [Join.amended, Join.amended, hnone n (Nat.le_refl n) (by omega),
        amended_congr.2.2 j.relation n fun i hi hi' => hnone i (by omega) hi']
    have hjoins : joinsAmended (additions (as ++ bs)) (n + j.relation.size) js =
        joinsAmended (additions bs) (n + j.relation.size) js :=
      amended_congr.2.1 js (n + j.relation.size) fun i hi _ => by
        rw [additions_append, hj.additions_eq_nil has (hbelow.ne_on (by omega)) (.inr hi),
          List.nil_append]
    rw [joinsAmended_cons, hjoin, hjoins, answersAt_append]
  case nested =>
    intro t naming ih n around ha
    simp only [Relation.restrict, ih n around ha, Relation.steps, Relation.amended, bind_assoc,
      pure_bind]
  case leaf => exact fun r hr n around _ => r.restrict_eq_walk w selection hr n around

/-- What restricting the trees of a `FROM` behind `n` relations is to be. -/
def TreesWalked (n : Nat) (ts : List JoinTree) : Prop :=
  restrictTrees w selection ts = do
    let as ← walk w.strict (w.asks selection) [] (treesSteps w.scope w.qualify n ts)
    return (treesAmended (additions as) n ts, answersAt .selection as)

/-- Restricting some trees and then others is one walk. -/
theorem TreesWalked.append_bind {β : Type} {n : Nat} {ts us : List JoinTree}
    (hts : TreesWalked w selection n ts) (hus : TreesWalked w selection (n + treesSize ts) us)
    (k : List JoinTree → List JoinTree → List Expr → m β) :
    (do let (ts, ps) ← restrictTrees w selection ts
        let (us, qs) ← restrictTrees w selection us
        k ts us (ps ++ qs)) =
      walk w.strict (w.asks selection) [] (treesSteps w.scope w.qualify n (ts ++ us)) >>= fun as =>
        k (treesAmended (additions as) n ts) (treesAmended (additions as) (n + treesSize ts) us)
          (answersAt .selection as) := by
  have hl := treesSteps_local w.scope w.qualify ts n
  have hr := treesSteps_local w.scope w.qualify us (n + treesSize ts)
  have hbelow : Home.selection.Below (n + treesSize ts) := trivial
  rw [treesSteps_append, walk_append_bind w.strict (w.asks selection) (n := n + treesSize ts)
    (fun l hl' => (hl.ask l hl').elim (fun h => h ▸ hbelow) Home.Within.below)
    fun c r hc => (hr.close c r hc).1]
  rw [TreesWalked] at hts hus
  simp only [hts, hus, bind_assoc, pure_bind]
  refine walk_congr _ _ fun as has => walk_congr _ _ fun bs hbs => ?_
  have hfirst : treesAmended (additions (as ++ bs)) n ts = treesAmended (additions as) n ts :=
    treesAmended_congr ts n fun i _ hi => by
      rw [additions_append, hr.additions_eq_nil hbs (by simp) (.inl hi), List.append_nil]
  have hsecond : treesAmended (additions (as ++ bs)) (n + treesSize ts) us =
      treesAmended (additions bs) (n + treesSize ts) us :=
    treesAmended_congr us (n + treesSize ts) fun i hi _ => by
      rw [additions_append, hl.additions_eq_nil has (by simp) (.inr hi), List.nil_append]
  rw [hfirst, hsecond, answersAt_append]

/-- Restricting the trees of a `FROM` is walking their steps. -/
theorem restrictTrees_eq_walk (ts : List JoinTree) (n : Nat) : TreesWalked w selection n ts := by
  induction ts generalizing n with
  | nil => simp [TreesWalked, restrictTrees, treesSteps, walk, treesAmended, answersAt]
  | cons t ts ih =>
    have htree : t.restrict w selection = _ := (restrict_eq_walk w selection).1 t n [] (by simp)
    have hone : TreesWalked w selection n [t] := by
      simp only [TreesWalked, restrictTrees, htree, treesSteps, treesAmended, bind_assoc,
        pure_bind, List.append_nil]
      rfl
    have hsize : treesSize [t] = t.size := rfl
    have hpair := hone.append_bind w selection (by rw [hsize]; exact ih (n + t.size))
      fun ts us ps => pure (ts ++ us, ps)
    simp only [restrictTrees, bind_assoc, pure_bind, List.append_nil, List.cons_append,
      List.nil_append] at hpair
    simpa only [TreesWalked, restrictTrees, treesAmended, hsize, List.cons_append,
      List.nil_append] using hpair

end Restricting

/-! ## Blocks -/

/-- A part of a statement whose tables are restricted; a select block stands in the scope of named
queries. -/
inductive RowBlock where
  | select (scope : Scope) (s : Select)
  | update (u : Update)
  | deletion (d : Deletion)

namespace RowBlock

/-- A block with its tables restricted. -/
def restrict {m : Type → Type} [Monad m] [MonadExceptOf PolicyError m] (strict : Bool)
    (predicate : Target → Option Expr → m (Option Expr)) : RowBlock → m RowBlock
  | select scope s => select scope <$> s.restrict strict scope predicate
  | update u => update <$> u.restrict strict predicate
  | deletion d => deletion <$> d.restrict strict predicate

/-- The named queries that a block sees. -/
def scope : RowBlock → Scope
  | select scope _ => scope
  | _ => .empty

/-- The trees of joins of a block, in textual order. -/
def trees : RowBlock → List JoinTree
  | select _ s => s.sources
  | update u => u.table :: u.sources
  | deletion d => d.sources ++ d.usingSources.getD []

/-- The condition of a block. -/
def selection : RowBlock → Option Expr
  | select _ s => s.selection
  | update u => u.selection
  | deletion d => d.selection

/-- Whether the columns of a block are qualified by the names of tables. -/
def qualify (b : RowBlock) : Bool :=
  1 < treesSize b.trees

/-- The steps of restricting a block. -/
def steps (b : RowBlock) : List Step :=
  treesSteps b.scope b.qualify 0 b.trees

/-- A block with the answers for its tables where they belong. -/
def amended (as : List Answer) : RowBlock → RowBlock
  | select scope s => select scope { s with
      sources := treesAmended (additions as) 0 s.sources
      selection := Expr.conjoinAll s.selection (answersAt .selection as) }
  | update u => update { u with
      table := u.table.amended (additions as) 0
      sources := treesAmended (additions as) u.table.size u.sources
      selection := Expr.conjoinAll u.selection (answersAt .selection as) }
  | deletion d => deletion { d with
      sources := treesAmended (additions as) 0 d.sources
      usingSources := d.usingSources.map (treesAmended (additions as) (treesSize d.sources))
      selection := Expr.conjoinAll d.selection (answersAt .selection as) }

/-- The question for a table of a block. -/
def asks {m : Type → Type} (predicate : Target → Option Expr → m (Option Expr)) (b : RowBlock)
    (l : Leaf) : m (Option Expr) :=
  predicate l.target (standingIn l.around b.selection)

/-- Restricting a block is walking its steps and putting the answers where they belong. -/
theorem restrict_eq_walk {m : Type → Type} [Monad m] [LawfulMonad m] [MonadExceptOf PolicyError m]
    (strict : Bool) (predicate : Target → Option Expr → m (Option Expr)) (b : RowBlock) :
    b.restrict strict predicate = do
      let as ← walk strict (b.asks predicate) [] b.steps
      return b.amended as := by
  cases b with
  | select scope s =>
    have h := restrictTrees_eq_walk ⟨scope, strict, 1 < treesSize s.sources, predicate⟩ s.selection
      s.sources 0
    rw [TreesWalked] at h
    simp only [restrict, Select.restrict, h, bind_assoc, pure_bind, map_bind, map_pure]
    rfl
  | update u =>
    have hsize : treesSize (u.table :: u.sources) = u.table.size + treesSize u.sources := rfl
    let w : Restriction m := ⟨.empty, strict, 1 < treesSize (u.table :: u.sources), predicate⟩
    have h := (restrictTrees_eq_walk w u.selection [u.table] 0).append_bind w u.selection
      (restrictTrees_eq_walk w u.selection u.sources _) fun ts sources ps =>
        (pure (update { u with
          table := ts.headD u.table
          sources
          selection := Expr.conjoinAll u.selection ps }) : m RowBlock)
    simp only [restrictTrees, bind_assoc, pure_bind, List.append_nil] at h
    simp only [restrict, Update.restrict, map_bind, map_pure, ← hsize]
    refine h.trans ?_
    simp only [treesAmended, List.headD_cons, Nat.zero_add]
    rfl
  | deletion d =>
    have hsize := treesSize_append d.sources (d.usingSources.getD [])
    let w : Restriction m :=
      ⟨.empty, strict, 1 < treesSize (d.sources ++ d.usingSources.getD []), predicate⟩
    have h := (restrictTrees_eq_walk w d.selection d.sources 0).append_bind w d.selection
      (restrictTrees_eq_walk w d.selection (d.usingSources.getD []) _) fun sources usingTrees ps =>
        (pure (deletion { d with
          sources
          usingSources := d.usingSources.map fun _ => usingTrees
          selection := Expr.conjoinAll d.selection ps }) : m RowBlock)
    simp only [restrict, Deletion.restrict, map_bind, map_pure, ← hsize]
    refine h.trans ?_
    congr 1
    funext as
    cases husing : d.usingSources <;> simp [amended, husing]

end RowBlock

end RowPolicy.Sql
