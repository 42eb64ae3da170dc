import RowPolicy.Proofs.Joins.Rows

/-!
# The rows that a restricted block reads

`Select.blockRows_restrict`: where the relations of a block are joined by inner joins and by left
joins with an `ON`, and have distinct names, the restricted block yields what the block itself
yields over tables that hold only the rows on which their predicates are true.

Proof. A predicate goes to the nearest `ON` around its table, or outward. By induction over the
tree, the combinations over limited tables are those of the placed tree that the outward predicates
let pass (`rows_limited`). In a join with an `ON`, that `ON` takes the outward predicates of
what is joined, so a row of the left side finds the same matches and is kept with nulls in the same
cases. A join without an `ON` is an inner one, and a filter on its right side is one on its
combinations.
-/

namespace RowPolicy.Sql

namespace Meaning

variable {Row : Type} (M : Meaning Row) (s : Scope) (qualify : Bool) (a : Target → Option Expr)

/-- The meaning in which tables hold only the rows on which their predicates are true. -/
def limited : Meaning Row :=
  { M with
    stored := fun r => (M.stored r).filter fun row =>
      (r.target? s qualify).all fun t => M.admits (a t) [⟨r.name?, some row⟩] }

theorem eval_limited (u : Combination Row) (e : Expr) :
    (M.limited s qualify a).eval u e = M.eval u e := by
  fun_induction eval M u e with
  | case1 e ih => simpa only [eval] using ih
  | case2 l r ihl ihr => simp only [eval, ihl, ihr]
  | case3 l r ihl ihr => simp only [eval, ihl, ihr]
  | case4 l r ihl ihr => simp only [eval, ihl, ihr]
  | case5 e hnested hand hor hxor =>
    rw [eval] <;> first | assumption | rfl

theorem admits_limited (e : Option Expr) (u : Combination Row) :
    (M.limited s qualify a).admits e u = M.admits e u := by
  simp only [admits, holds, eval_limited]

theorem joinOne_limited (j : Join) (l : Combination Row) (right : List (Combination Row)) :
    (M.limited s qualify a).joinOne j l right = M.joinOne j l right := by
  have hm : (M.limited s qualify a).matched j l = M.matched j l := by
    funext r
    simp only [matched, holds, eval_limited]
    rfl
  simp only [joinOne, hm]

/-- What a join yields for a combination of its left side begins with it. -/
theorem exists_append_of_mem_joinOne {j : Join} {l u : Combination Row}
    {right : List (Combination Row)} (h : u ∈ M.joinOne j l right) : ∃ x, u = l ++ x := by
  unfold joinOne at h
  split at h
  · split at h
    · exact ⟨_, List.mem_singleton.mp h⟩
    · simp at h
  · obtain ⟨x, _, rfl⟩ := List.mem_map.mp h
    exact ⟨x, rfl⟩

theorem joinOne_of_isPlainInner {j : Join} (h : j.kind.isPlainInner = true) (l : Combination Row)
    (right : List (Combination Row)) :
    M.joinOne j l right = (right.filter (M.matched j l)).map (l ++ ·) := by
  have hk : j.kind.keepsLeft = false := by
    cases hj : j.kind <;> first | rfl | simp [hj, JoinKind.isPlainInner] at h
  unfold joinOne
  split
  · rename_i hnil
    simp [hk, hnil]
  · rfl

variable {M a}

/-- The tables on the left of a join filter its left side; those outward of what is joined filter
that. -/
theorem filter_joinOne_placed (own : ∀ t, ∀ p ∈ a t, M.OwnColumns p t.name) {j : Join}
    (hk : j.kind.isPlainInner || (j.kind.isLeft && j.on.isSome))
    {names ns : List (Option String)} {ts us : List Target}
    (S : Sides names ns ts ts us (j.relation.outward s qualify)) {l : Combination Row}
    (hl : l.names = names) (right : List (Combination Row)) :
    (M.joinOne (j.placed s qualify a) l right).filter
        (M.passes a (ts ++ if j.on.isSome then [] else j.relation.outward s qualify)) =
      if M.passes a ts l then
        M.joinOne j l (right.filter (M.passes a (j.relation.outward s qualify)))
      else [] := by
  have hleft := S.passes_left hl own
  have hright := S.passes_right hl own
  have hm := matched_placed own S hl
  cases hon : j.on with
  | some e =>
    -- the `ON` filters the right side before it is known whether there is a match
    have hf : right.filter (M.matched (j.placed s qualify a) l) =
        (right.filter (M.passes a (j.relation.outward s qualify))).filter (M.matched j l) := by
      rw [List.filter_filter]
      refine List.filter_congr fun r _ => ?_
      simp [hm, hon]
    have hj : M.joinOne (j.placed s qualify a) l right =
        M.joinOne j l (right.filter (M.passes a (j.relation.outward s qualify))) := by
      have hn : (j.placed s qualify a).relation.names = j.relation.names :=
        (names_placed a).2.2 j.relation
      have hkind : (j.placed s qualify a).kind = j.kind := rfl
      simp only [joinOne, hf, hn, hkind]
    rw [hj, Option.isSome_some, if_pos rfl, List.append_nil]
    split
    · rename_i hp
      refine List.filter_eq_self.mpr fun u hu => ?_
      obtain ⟨x, rfl⟩ := M.exists_append_of_mem_joinOne hu
      rw [hleft, hp]
    · rename_i hp
      refine List.filter_eq_nil_iff.mpr fun u hu => ?_
      obtain ⟨x, rfl⟩ := M.exists_append_of_mem_joinOne hu
      rw [hleft]
      exact hp
  | none =>
    have hi : j.kind.isPlainInner = true := by simpa [hon] using hk
    have hi' : (j.placed s qualify a).kind.isPlainInner = true := hi
    have hm' : M.matched (j.placed s qualify a) l = M.matched j l := by
      funext r
      simp [hm, hon]
    rw [M.joinOne_of_isPlainInner hi, M.joinOne_of_isPlainInner hi', hm', List.filter_map]
    have hp : M.passes a (ts ++ j.relation.outward s qualify) ∘ (l ++ ·) =
        fun x => M.passes a ts l && M.passes a (j.relation.outward s qualify) x := by
      funext x
      simp only [Function.comp_apply, passes_append, hleft, hright]
    simp only [Option.isSome_none, Bool.false_eq_true, if_false, hp]
    cases M.passes a ts l with
    | false => simp
    | true => simp only [Bool.true_and, if_true, List.filter_filter, Bool.and_comm]

/-! ## Rows over limited tables -/

theorem flatMap_filter {α β : Type} (p : α → Bool) (f : α → List β) (xs : List α) :
    (xs.filter p).flatMap f = xs.flatMap fun x => if p x then f x else [] := by
  induction xs with
  | nil => rfl
  | cons x xs ih =>
    cases hx : p x with
    | false => rw [List.filter_cons_of_neg (by simp [hx]), ih]; simp [hx]
    | true => rw [List.filter_cons_of_pos hx, List.flatMap_cons, ih]; simp [hx]

theorem keepsRight_eq_false {k : JoinKind} {on : Bool}
    (h : k.isPlainInner || (k.isLeft && on)) : k.keepsRight = false := by
  cases k <;> first | rfl | simp [JoinKind.isPlainInner, JoinKind.isLeft] at h

theorem joined_eq_flatMap {j : Join} (h : j.kind.keepsRight = false)
    (names : List (Option String)) (left : List (Combination Row))
    (right : Combination Row → List (Combination Row)) (rest : List (Combination Row)) :
    M.joined j names left right rest = left.flatMap fun l => M.joinOne j l (right l) := by
  simp [joined, joinRest, h]

theorem leafRows_limited (before : Combination Row) (r : Relation) :
    (M.limited s qualify a).leafRows before r = (M.leafRows before r).filter fun row =>
      M.passes a (r.target? s qualify).toList [⟨r.name?, some row⟩] := by
  have hnone : r.target? s qualify = none → (M.limited s qualify a).leafRows before r =
      M.leafRows before r → (M.limited s qualify a).leafRows before r =
      (M.leafRows before r).filter fun row =>
        M.passes a (r.target? s qualify).toList [⟨r.name?, some row⟩] := by
    intro ht heq
    simp [ht, heq]
  cases r with
  | table name partition arguments ordinality naming after =>
    cases arguments with
    | none =>
      simp only [leafRows, limited, passes]
      refine List.filter_congr fun row _ => ?_
      cases Relation.target? s qualify _ <;> simp
    | some ps => exact hnone rfl rfl
  | derived isLateral query naming => cases isLateral <;> exact hnone rfl rfl
  | nested tree naming => exact hnone rfl rfl
  | transformed kind source clause naming => exact hnone rfl rfl
  | other kind pieces naming suffix => exact hnone rfl rfl

/-- The rows over limited tables are those of the placed tree that pass outward. Of the joins in a
tree, `left` is what is on their left, and `ts` are the outward tables there. -/
theorem rows_limited (own : ∀ t, ∀ p ∈ a t, M.OwnColumns p t.name) :
    (∀ (t : JoinTree) (before : Combination Row), t.joinsBy JoinKind.isLeft →
      (t.names.filterMap id).Nodup →
      (M.limited s qualify a).treeRows before t =
        (M.treeRows before (t.placed s qualify a)).filter (M.passes a (t.outward s qualify))) ∧
    (∀ (js : List Join) (before : Combination Row) (names : List (Option String))
      (left : List (Combination Row)) (ts : List Target), joinsJoinBy JoinKind.isLeft js →
      ((names ++ joinsNames js).filterMap id).Nodup → (∀ l ∈ left, l.names = names) →
      (∀ t ∈ ts, some t.name ∈ names) →
      (M.limited s qualify a).joinsRows before names (left.filter (M.passes a ts)) js =
        (M.joinsRows before names left (joinsPlaced s qualify a js)).filter
          (M.passes a (ts ++ joinsOutward s qualify js))) ∧
    ∀ (r : Relation) (before : Combination Row), r.joinsBy JoinKind.isLeft →
      (r.names.filterMap id).Nodup →
      (M.limited s qualify a).relationRows before r =
        (M.relationRows before (r.placed s qualify a)).filter
          (M.passes a (r.outward s qualify)) := by
  refine JoinTree.induction ?tree ?nil ?cons ?nested ?leaf
  case tree =>
    intro relation joins ihr ihjs before h hn
    simp only [JoinTree.joinsBy, Bool.and_eq_true] at h
    simp only [JoinTree.names] at hn
    have hnr := (nodup_of_append hn).1
    rw [treeRows_placed, treeRows, JoinTree.outward, ihr before h.1 hnr]
    exact ihjs before _ _ _ h.2 hn (fun l hl => names_of_mem_placed hl)
      fun t ht => name_mem_of_outward ht
  case nil =>
    intro before names left ts _ _ _ _
    simp only [joinsPlaced, joinsRows, joinsOutward, List.append_nil]
  case cons =>
    intro j js ihr ihjs before names left ts h hn hleft hts
    simp only [joinsJoinBy_cons, Bool.and_eq_true] at h
    rw [joinsNames_cons, ← List.append_assoc] at hn
    have hnj := (nodup_of_append hn).1
    have hnr := (nodup_of_append hnj).2
    have S : Sides names j.relation.names ts ts _ (j.relation.outward s qualify) :=
      sides_join hnj hts (List.Subset.refl ts)
    have hkeep := keepsRight_eq_false h.1.1
    have hkeep' : (j.placed s qualify a).kind.keepsRight = false := hkeep
    -- one combination of the left side at a time
    have hstep : ∀ l ∈ left,
        (if M.passes a ts l then
            M.joinOne j l ((M.limited s qualify a).relationRows (before ++ l) j.relation)
          else []) =
        (M.joinOne (j.placed s qualify a) l
            (M.relationRows (before ++ l) (j.relation.placed s qualify a))).filter
          (M.passes a (ts ++ if j.on.isSome then [] else j.relation.outward s qualify)) := by
      intro l hl
      rw [filter_joinOne_placed s qualify own h.1.1 S (hleft l hl), ihr (before ++ l) h.1.2 hnr]
    rw [joinsRows_placed_cons, joinsRows_cons, joined_eq_flatMap hkeep, joined_eq_flatMap hkeep',
      hkeep]
    simp only [Bool.false_eq_true, if_false, joinOne_limited]
    rw [flatMap_filter, List.flatMap_congr hstep, ← List.filter_flatMap, joinsOutward_cons,
      ← List.append_assoc]
    refine ihjs before _ _ _ h.2 hn ?_ ?_
    · intro u hu
      rw [← joined_eq_flatMap hkeep' names left _ []] at hu
      exact names_of_mem_joined_placed hleft (fun _ _ => names_of_mem_placed) (by simp) hu
    · exact fun t ht => S.name_append t (S.outward_append j.on.isSome ht)
  case nested =>
    intro t naming ih before h hn
    simp only [Relation.joinsBy] at h
    simp only [Relation.names] at hn
    simp only [relationRows, Relation.placed, Relation.outward, ih before h hn]
  case leaf =>
    intro r hl before h hn
    rw [Relation.placed_leaf s qualify a hl, relationRows_leaf _ hl, relationRows_leaf _ hl,
      Relation.outward_leaf s qualify hl, leafRows_limited, List.filter_map]
    rfl

theorem treesRows_limited (own : ∀ t, ∀ p ∈ a t, M.OwnColumns p t.name) (ts : List JoinTree)
    (before : Combination Row) (h : treesJoinBy JoinKind.isLeft ts)
    (hn : ((treesNames ts).filterMap id).Nodup) :
    (M.limited s qualify a).treesRows before ts =
      (M.treesRows before (ts.map (·.placed s qualify a))).filter
        (M.passes a (treesOutward s qualify ts)) := by
  induction ts generalizing before with
  | nil => rfl
  | cons t ts ih =>
    simp only [treesJoinBy, List.all_cons, Bool.and_eq_true] at h
    simp only [treesNames, List.flatMap_cons] at hn
    have hn' := nodup_of_append hn
    have hstep : ∀ l ∈ M.treeRows before (t.placed s qualify a),
        (if M.passes a (t.outward s qualify) l then
            ((M.limited s qualify a).treesRows (before ++ l) ts).map (l ++ ·)
          else []) =
        ((M.treesRows (before ++ l) (ts.map (·.placed s qualify a))).map (l ++ ·)).filter
          (M.passes a (t.outward s qualify ++ treesOutward s qualify ts)) := by
      intro l hl
      have hnames : l.names = t.names := names_of_mem_placedTree hl
      have S : Sides t.names (treesNames ts) _ (t.outward s qualify) _
          (treesOutward s qualify ts) := sides_trees hn
      have hleft := S.passes_left hnames own
      have hright := S.passes_right hnames own
      have hp : M.passes a (t.outward s qualify ++ treesOutward s qualify ts) ∘ (l ++ ·) =
          fun x => M.passes a (t.outward s qualify) l &&
            M.passes a (treesOutward s qualify ts) x := by
        funext x
        simp only [Function.comp_apply, passes_append, hleft, hright]
      rw [ih (before ++ l) h.2 hn'.2, List.filter_map, hp]
      cases M.passes a (t.outward s qualify) l <;> simp
    simp only [treesRows, List.map_cons, treesOutward, List.flatMap_cons]
    rw [(rows_limited s qualify own).1 t before h.1 hn'.1, flatMap_filter,
      List.flatMap_congr hstep, ← List.filter_flatMap]
    rfl

/-- A placed block yields what the block yields over limited tables. -/
theorem blockRows_placed {b : Select}
    (own : ∀ t, ∀ p ∈ a t, M.OwnColumns p t.name) (h : treesJoinBy JoinKind.isLeft b.sources)
    (hn : ((treesNames b.sources).filterMap id).Nodup) :
    M.blockRows (b.placed s a) =
      (M.limited s (1 < treesSize b.sources) a).blockRows b := by
  simp only [blockRows, Select.placed]
  rw [treesRows_limited s _ own b.sources [] h hn, List.filter_filter]
  refine List.filter_congr fun u _ => ?_
  rw [admits_withPredicates, admits_limited]

/-- A predicate for a table, or none, that looks at the row of the table alone. -/
structure OwnPredicate (M : Meaning Row) (t : Target) where
  predicate : Option Expr
  own : ∀ e ∈ predicate, M.OwnColumns e t.name

instance (M : Meaning Row) (t : Target) : Inhabited (M.OwnPredicate t) :=
  ⟨none, by simp⟩

end Meaning

/-- **A restricted block yields what the block yields over limited tables.** The relations are
joined by inner joins and by left joins with an `ON`, to any depth, and have distinct names; the
predicates that `c` answers look at the row of their table alone. -/
theorem Select.blockRows_restrict {m : Type → Type} [Monad m] [LawfulMonad m]
    [MonadExceptOf PolicyError m] {Row : Type} (M : Meaning Row) (strict : Bool) (s : Scope)
    (b : Select) (h : treesJoinBy JoinKind.isLeft b.sources)
    (hn : ((treesNames b.sources).filterMap id).Nodup)
    (c : (t : Target) → m (M.OwnPredicate t)) :
    (do return M.blockRows (← b.restrict strict s fun t _ => (·.predicate) <$> c t)) = do
      let a ← askAll c (b.targets s)
      return (M.limited s (1 < treesSize b.sources) fun t => (a t).predicate).blockRows b := by
  rw [Select.restrict_eq (fun _ p => p.predicate) c s strict b h hn]
  simp only [bind_assoc, pure_bind]
  refine bind_congr fun a => ?_
  rw [Meaning.blockRows_placed s (fun t => (a t).own) h hn]

/-- Countries and the orders of two tenants. -/
def countriesAndOrders : String → List Columns
  | "country" => [[("id", "1")], [("id", "2")]]
  | "orders" =>
    [[("country_id", "1"), ("tenant_id", "7")], [("country_id", "2"), ("tenant_id", "8")]]
  | _ => []

/-- Countries with their orders, by a kind of join. -/
def ordersOfCountries (kind : JoinKind) : Select where
  form := .standard
  distinct := []
  top := []
  projection := [.wildcard [.text "*"]]
  into := ""
  sources := [⟨.table [.plain "country"] "" none "" (some ⟨false, .plain "c", ""⟩) [],
    [⟨false, false, kind, .table [.plain "orders"] "" none "" (some ⟨false, .plain "o", ""⟩) [],
      none, some (.binary (.column [.plain "o", .plain "country_id"]) .eq
        (.column [.plain "c", .plain "id"])), ""⟩]⟩]
  beforeWhere := []
  selection := none
  grouping := []
  windows := []
  qualify := []
  windowsFirst := false
  connect := []

/-- The orders of tenant 7, and no predicate for any other table. -/
def ordersOfSeven (t : Target) : (Meaning.ofTables countriesAndOrders).OwnPredicate t :=
  if t.table = "orders" then
    ⟨some (.binary (t.column "tenant_id") .eq (.literal (.number "7"))), fun e he => by
      obtain rfl : _ = e := by simpa using he
      exact Meaning.ownColumns_ofTables countriesAndOrders t "tenant_id" "7"⟩
  else default

/-- A country that has orders of another tenant alone is there without any. -/
theorem blockRows_restrict_ordersOfCountries :
    treesJoinBy JoinKind.isLeft (ordersOfCountries .left).sources = true ∧
    ((treesNames (ordersOfCountries .left).sources).filterMap id).Nodup ∧
    (do
      let b ← (ordersOfCountries .left).restrict true .empty fun t _ =>
        Meaning.OwnPredicate.predicate <$> (pure (ordersOfSeven t) : Except PolicyError _)
      return (Meaning.ofTables countriesAndOrders).blockRows b) =
    .ok [[⟨some "c", some [("id", "1")]⟩,
        ⟨some "o", some [("country_id", "1"), ("tenant_id", "7")]⟩],
      [⟨some "c", some [("id", "2")]⟩, ⟨some "o", none⟩]] :=
  ⟨by decide, by decide,
    (Select.blockRows_restrict (Meaning.ofTables countriesAndOrders) true .empty
      (ordersOfCountries .left) (by decide) (by decide) fun t => pure (ordersOfSeven t)).trans
      (by rfl)⟩

end RowPolicy.Sql
