import RowPolicy.Proofs.Contexts.Consulted

/-!
# What is relevant in a context

What policies consult is named by the statement as it was at the outset, or by a query in the
expression of an audit column: blocks are only given conditions, which use no tables, and columns,
whose values may (`BuiltIn.consults_of_leaves`). So contexts that agree on the page, on the values
under the keys of the policies, and on the tables that are named lead to the same statement or the
same error (`BuiltIn.process_congr`).
-/

namespace RowPolicy

open Sql

namespace Sql

/-! ## Names of tables -/

/-- Whether an expression names a table, in a query. -/
def Expr.Names (e : Expr) (table : String) : Prop :=
  ∃ u ∈ e.uses .outermost, NamedIn u.site.named table

/-- Whether a statement names a table: in a relation, or as the table of an insertion, an update or
a deletion. -/
def Statement.Names (s : Statement) (table : String) : Prop :=
  ∃ u ∈ s.uses, NamedIn u.site.named table

section Named

variable {s : Scope} {qualify : Bool}

theorem NamedIn.append_left {xs : List (Name × Option Alias)} {table : String}
    (h : NamedIn xs table) (ys : List (Name × Option Alias)) : NamedIn (xs ++ ys) table := by
  obtain ⟨x, hx, htable⟩ := h
  exact ⟨x, List.mem_append_left _ hx, htable⟩

theorem NamedIn.append_right {ys : List (Name × Option Alias)} {table : String}
    (h : NamedIn ys table) (xs : List (Name × Option Alias)) : NamedIn (xs ++ ys) table := by
  obtain ⟨x, hx, htable⟩ := h
  exact ⟨x, List.mem_append_right _ hx, htable⟩

/-- A table that is asked for is named. -/
theorem namedIn_of_ask :
    (∀ t : JoinTree, ∀ n around l, .ask l ∈ t.steps s qualify n around →
      NamedIn t.named l.target.table) ∧
    (∀ js, ∀ n around l, .ask l ∈ joinsSteps s qualify n around js →
      NamedIn (joinsNamed js) l.target.table) ∧
    ∀ r : Relation, ∀ n around l, .ask l ∈ r.steps s qualify n around →
      NamedIn r.named l.target.table := by
  refine JoinTree.induction ?tree ?nil ?cons ?nested ?leaf
  case tree =>
    intro relation joins ihr ihjs n around l hl
    rw [JoinTree.steps] at hl
    rw [JoinTree.named]
    rcases List.mem_append.mp hl with hl | hl
    · exact (ihr _ _ _ hl).append_left _
    · exact (ihjs _ _ _ hl).append_right _
  case nil =>
    intro n around l hl
    cases hl
  case cons =>
    intro j js ihr ihjs n around l hl
    obtain ⟨isGlobal, isNatural, kind, relation, matching, on, columns⟩ := j
    rw [joinsSteps_cons] at hl
    rw [joinsNamed]
    rcases List.mem_append.mp hl with hl | hl
    · rcases List.mem_append.mp hl with hl | hl
      · exact (ihr _ _ _ hl).append_left _
      · unfold Join.closing at hl
        split at hl <;> simp at hl
    · exact (ihjs _ _ _ hl).append_right _
  case nested =>
    intro t naming ih n around l hl
    rw [Relation.steps] at hl
    exact ih _ _ _ hl
  case leaf =>
    intro r hr n around l hl
    rw [Relation.steps_leaf s qualify hr] at hl
    unfold Relation.leafSteps at hl
    split at hl
    · simp at hl
    · obtain ⟨t, ht, hask⟩ := List.mem_map.mp hl
      cases hask
      cases r with
      | table name partition arguments ordinality naming after =>
        cases arguments with
        | some => cases ht
        | none =>
          obtain ⟨table, htable, rfl⟩ := Option.map_eq_some_iff.mp (Option.mem_toList.mp ht)
          exact ⟨(name, naming), List.mem_cons_self, Scope.last?_of_baseTable? htable⟩
      | _ => cases ht

theorem namedIn_of_asks (ts : List JoinTree) (n : Nat) {l : Leaf}
    (hl : .ask l ∈ treesSteps s qualify n ts) : NamedIn (treesNamed ts) l.target.table := by
  induction ts generalizing n with
  | nil => cases hl
  | cons t ts ih =>
    rw [treesSteps] at hl
    rw [treesNamed, List.flatMap_cons]
    rcases List.mem_append.mp hl with hl | hl
    · exact (namedIn_of_ask.1 t _ _ _ hl).append_left _
    · exact (ih _ hl).append_right _

end Named

/-- The tables of a block are named by it. -/
theorem RowBlock.namedIn_of_tables {b : RowBlock} {table : String} (h : table ∈ b.tables) :
    NamedIn b.site.named table := by
  have hnamed : b.site.named = treesNamed b.trees := by cases b <;> rfl
  obtain ⟨l, hl, rfl⟩ := List.mem_map.mp h
  rw [hnamed]
  exact namedIn_of_asks b.trees 0 (mem_leavesOf.mp hl)

theorem mem_uses_of_placed {us : List Use} {p : Place} {b : Select}
    (h : (p, b) ∈ blocksOfUses us) : ⟨p, .select b⟩ ∈ us := by
  obtain ⟨⟨place, site⟩, hu, heq⟩ := List.mem_filterMap.mp h
  cases site <;> cases heq
  exact hu

/-- A block that a statement has names tables of the statement. -/
theorem Statement.names_of_occurrence {s : Statement} {o : Occurrence} (ho : o ∈ s.occurrences)
    {table : String} (h : table ∈ (RowBlock.select o.place.scope o.block).tables) :
    s.Names table := by
  have hplaced : (o.place, o.block) ∈ blocksOfUses s.uses := by
    rw [s.blocksOf_uses]
    exact List.mem_map_of_mem ho
  exact ⟨_, mem_uses_of_placed hplaced, RowBlock.namedIn_of_tables h⟩

/-- **What policies consult is named.** -/
theorem Statement.Consults.names {s : Statement} {table : String} (h : s.Consults table) :
    s.Names table := by
  have hown : ∀ table, NamedIn s.ownNamed table → s.Names table := by
    intro table h
    cases s with
    | update u => exact ⟨⟨.outermost, .update u⟩, List.mem_append_right _ List.mem_cons_self, h⟩
    | delete d => exact ⟨⟨.outermost, .delete d⟩, List.mem_append_right _ List.mem_cons_self, h⟩
    | _ =>
      obtain ⟨x, hx, -⟩ := h
      cases hx
  rcases h with (⟨o, ho, -, htable⟩ | ⟨b, hb, htable⟩ | htable) | h
  · exact names_of_occurrence ho htable
  · refine hown table ?_
    rw [ownNamed, hb]
    exact RowBlock.namedIn_of_tables htable
  · cases s with
    | insert i =>
      obtain ⟨t, ht, rfl⟩ := Option.map_eq_some_iff.mp htable
      obtain ⟨table, hlast, ht⟩ := Option.bind_eq_some_iff.mp ht
      cases ht
      exact ⟨⟨.outermost, .insert i⟩, List.mem_append_right _ List.mem_cons_self,
        (i.table, none), List.mem_cons_self, hlast⟩
    | _ => cases htable
  · exact hown table h

/-! ## Another column of an insertion -/

section Grown

variable {value : Expr}

/-- Whether some blocks are others, which may have another value in each row, and besides these only
blocks of such values. -/
def Grown (value : Expr) (xs xs' : List (Place × Select)) : Prop :=
  ∀ x' ∈ xs', (∃ x ∈ xs, x' = x ∨ x' = placedWithColumn value x) ∨
    ∃ p, x' ∈ placedBlocks p value.outline

theorem Grown.refl (value : Expr) (xs : List (Place × Select)) : Grown value xs xs :=
  fun x hx => .inl ⟨x, hx, .inl rfl⟩

theorem Grown.append {xs xs' ys ys' : List (Place × Select)} (hx : Grown value xs xs')
    (hy : Grown value ys ys') : Grown value (xs ++ ys) (xs' ++ ys') := by
  intro z hz
  rcases List.mem_append.mp hz with hz | hz
  · exact (hx z hz).imp_left fun ⟨x, hx, h⟩ => ⟨x, List.mem_append_left _ hx, h⟩
  · exact (hy z hz).imp_left fun ⟨y, hy, h⟩ => ⟨y, List.mem_append_right _ hy, h⟩

/-- The value itself. -/
theorem grown_value (value : Expr) (p : Place) (is : List Item) :
    Grown value (placedBlocks p is) (placedBlocks p (is ++ value.outline)) := by
  have hvalue : Grown value [] (placedBlocks p value.outline) := fun x hx => .inr ⟨p, hx⟩
  have happend := (Grown.refl value (placedBlocks p is)).append hvalue
  rwa [List.append_nil, ← placedBlocks_append] at happend

theorem grown_rows (value : Expr) (p : Place) (rows : List (List Expr)) :
    Grown value (placedBlocks p (outlineRows rows))
      (placedBlocks p (outlineRows (rows.map (· ++ [value])))) := by
  induction rows with
  | nil => exact .refl value _
  | cons row rows ih =>
    rw [List.map_cons, outlineRows, outlineRows, outlineExprs_append, outlineExprs_singleton,
      placedBlocks_append, placedBlocks_append]
    exact (grown_value value p _).append ih

theorem grown_select (value : Expr) (p : Place) (b : Select) :
    Grown value (placedBlocks p [b.outline]) (placedBlocks p [(b.withColumn value).outline]) := by
  obtain ⟨form, distinct, top, projection, into, sources, beforeWhere, selection, grouping,
    windows, qualify, windowsFirst, connect⟩ := b
  have hitems : outlineItems (projection ++ [.expr value]) =
      outlineItems projection ++ value.outline := by
    rw [outlineItems_append, outlineItems, outlineItems, List.append_nil]
  have hitself : ∀ x : Place × Select, Grown value [x] [placedWithColumn value x] := by
    intro x y hy
    exact .inl ⟨x, List.mem_cons_self, .inr (List.mem_singleton.mp hy)⟩
  simp only [Select.withColumn, Select.outline, hitems, placedBlocks_singleton, Item.occurrences,
    List.map_append]
  refine .append ?_ (hitself _)
  have hplaced : ∀ is, (itemsOccurrences p is).map Occurrence.placed = placedBlocks p is :=
    fun _ => rfl
  simp only [hplaced, placedBlocks_append]
  refine (Grown.refl value _).append ((Grown.refl value _).append (.append ?_ (.refl value _)))
  rw [← placedBlocks_append]
  exact grown_value value p _

theorem grown_withValue {b b' : Body} (h : b.withValue value = .ok b') (p : Place) :
    Grown value (placedBlocks p b.outline) (placedBlocks p b'.outline) := by
  cases b with
  | values keyword explicitRow rows =>
    cases h
    exact grown_rows value p rows
  | select b =>
    cases h
    exact grown_select value p b
  | _ => cases h

end Grown

/-- **Another column of an insertion brings no blocks but those of its value.** -/
theorem Insertion.grown_appendColumn (i : Insertion) (column : String) (value : Expr) :
    Grown value (placedBlocks .outermost i.outline)
      (placedBlocks .outermost (i.appendColumn column value).2.outline) := by
  rcases Tenant.appendColumn_cases i column value with ⟨-, h⟩ | h | ⟨q, body, hq, hbody, h⟩ |
    ⟨_, -, -, h⟩ <;> rw [h]
  · exact .refl value _
  · obtain ⟨head, table, naming, columns, partition, source, assignments, rowAlias, onConflict,
      returning⟩ := i
    have hgrown := grown_value value .outermost (outlineAssignments assignments)
    simp only [Insertion.outline, outlineAssignments_concat, placedBlocks_append] at hgrown ⊢
    exact (Grown.refl value _).append (hgrown.append (.refl value _))
  -- The value stands in each row of the source, which is one level further in.
  · cases i
    obtain ⟨recursive, ctes, b, orderBy, limit, settings, fetch, tail, chain⟩ := q
    cases hq
    have hgrown := grown_withValue hbody
      (Place.outermost.enter ⟨recursive, namedNames (outlineCtes ctes), none⟩)
    simp only [Insertion.outline, outlineSource, Query.outline, placedBlocks, Item.occurrences,
      itemsOccurrences, itemsOccurrences_append, List.map_append, List.append_assoc,
      List.nil_append] at hgrown ⊢
    exact (Grown.refl value _).append (hgrown.append (.refl value _))
  · exact .refl value _

/-- A block of an expression names tables of the expression, wherever the expression stands. -/
theorem Expr.names_of_placed {e : Expr} {p : Place} {x : Place × Select}
    (hx : x ∈ placedBlocks p e.outline) {table : String}
    (h : table ∈ (RowBlock.select x.1.scope x.2).tables) : e.Names table := by
  rw [placedBlocks, itemsOccurrences_eq_map_under, List.map_map] at hx
  obtain ⟨o, ho, rfl⟩ := List.mem_map.mp hx
  have hplaced : (o.place, o.block) ∈ blocksOfUses (e.uses .outermost) := by
    rw [e.blocksOf_uses]
    exact List.mem_map_of_mem ho
  exact ⟨_, mem_uses_of_placed hplaced, RowBlock.namedIn_of_tables h⟩

theorem Insertion.reaches_appendColumn {i : Insertion} {column : String} {value : Expr}
    {table : String} (h : (Statement.insert (i.appendColumn column value).2).Reaches table) :
    (Statement.insert i).Reaches table ∨ value.Names table := by
  have hinserted := (i.retains_appendColumn column value).inserted
  rcases Statement.reaches_iff.mp h with ⟨x, hx, hreached⟩ | ⟨b, hb, -⟩ | htable
  · rcases i.grown_appendColumn column value x hx with ⟨y, hy, rfl | rfl⟩ | ⟨p, hp⟩
    · exact .inl (Statement.reaches_iff.mpr (.inl ⟨x, hy, hreached⟩))
    · exact .inl (Statement.reaches_iff.mpr (.inl ⟨y, hy, hreached⟩))
    · exact .inr (Expr.names_of_placed hp hreached.2)
  · cases hb
  · rw [hinserted] at htable
    exact .inl (.inr (.inr htable))

end Sql

/-! ## Registries -/

namespace Registry

variable (r : Registry)

theorem find?_others {name table : String} (h : tableKey table ≠ tableKey name) :
    (r.others name).find? (fun t => tableKey t.table == tableKey table) = r.resolve table := by
  have hother : ∀ t : TableMetadata, ((tableKey t.table != tableKey name) = true ∧
      (tableKey t.table == tableKey table) = true) ↔
        (tableKey t.table == tableKey table) = true := by
    intro t
    rw [and_iff_right_iff_imp, beq_iff_eq, bne_iff_ne]
    intro heq
    rwa [heq]
  rw [others, List.find?_filter, resolve]
  simp only [hother, Bool.decide_eq_true]

/-- Metadata under another name leave what is known of a table. -/
theorem resolve_unregister {name table : String} (h : tableKey table ≠ tableKey name) :
    (r.unregister name).resolve table = r.resolve table :=
  r.find?_others h

theorem resolve_register {t : TableMetadata} {table : String}
    (h : tableKey table ≠ tableKey t.table) : (r.register t).resolve table = r.resolve table := by
  have hlast : [t].find? (fun t => tableKey t.table == tableKey table) = none := by
    rw [List.find?_singleton, if_neg (by simpa using h.symm)]
  rw [← r.find?_others h]
  unfold resolve register
  rw [List.find?_append, hlast, Option.or_none]

end Registry

/-- Another value leaves the values under other keys. -/
theorem Context.value?_of_cons {c c' : Context} {key key' : String} {v : Value}
    (hvalues : c'.values = (key, v) :: c.values) (h : key' ≠ key) :
    c'.value? key' = c.value? key' := by
  have hne : (key' == key) = false := beq_eq_false_iff_ne.mpr h
  rw [value?, value?, hvalues, List.lookup_cons, hne]

/-! ## Policies one after another -/

namespace BuiltIn

/-- Whether a policy names a table: in the expression of an audit column. -/
def Names (b : BuiltIn) (table : String) : Prop :=
  match b with
  | auditColumn p => ∃ e, p.source = .expression e ∧ e.Names table
  | _ => False

variable {b : BuiltIn} {c c' : Context} {s s' : Statement} {table : String}

theorem names_of_value {p : AuditColumn} {fragment : String} {value : Expr}
    (hvalue : p.value c fragment = .ok value) (h : value.Names table) :
    (auditColumn p).Names table := by
  unfold AuditColumn.value at hvalue
  split at hvalue
  · obtain ⟨v, -, rfl⟩ := map_eq_ok_iff.mp hvalue
    obtain ⟨u, hu, -⟩ := h
    cases hu
  · rename_i hsource
    cases hvalue
    exact ⟨_, hsource, h⟩

/-- **What is consulted behind a policy was consulted before it**, or the policy names it. -/
theorem consults_of_leaves (h : b.Leaves c s s') (htable : s'.Consults table) :
    s.Consults table ∨ b.Names table := by
  have hnamed := h.ownNamed
  cases h with
  | @filter f s s' h =>
    have hretains : s.Retains True s' := (retains_of_apply (b := .filter f) h).mono fun _ => trivial
    exact .inl (htable.of_retains hretains hnamed)
  | optimisticLock h =>
    exact .inl (htable.of_retains (OptimisticLock.retains_of_update h) hnamed)
  | pagination h => exact .inl (htable.of_retains (Pagination.retains_of_query h) hnamed)
  | same s => exact .inl htable
  | @auditColumn p i i' h =>
    rcases htable with hreaches | ⟨x, hx, -⟩
    · rcases AuditColumn.exists_of_insert h with rfl | ⟨fragment, value, hvalue, rfl⟩
      · exact .inl (.inl hreaches)
      · rcases Insertion.reaches_appendColumn hreaches with hreaches | hnames
        · exact .inl (.inl hreaches)
        · exact .inr (names_of_value hvalue hnames)
    · cases hx

variable {dialect : Dialect} {guard : Guard} {bs : List BuiltIn}

/-- Contexts that agree on what is consulted lead to the same statement or the same error. -/
theorem process_congr (h : c.AgreeOn (fun key => ∃ b ∈ bs, key ∈ b.keys)
      (fun table => s.Consults table ∨ ∃ b ∈ bs, b.Names table) c') :
    (enforcer dialect guard bs).process c s = (enforcer dialect guard bs).process c' s := by
  induction bs generalizing s with
  | nil => rfl
  | cons b bs ih =>
    have happly : b.policy.apply c s = b.policy.apply c' s :=
      apply_congr (h.mono (fun key hkey => ⟨b, List.mem_cons_self, hkey⟩) fun table => .inl)
    rw [process_cons, process_cons, ← happly]
    refine bind_congr_of_ok fun s₁ hs₁ => ih (h.mono ?_ ?_)
    · rintro key ⟨b', hb', hkey⟩
      exact ⟨b', List.mem_cons_of_mem _ hb', hkey⟩
    · rintro table (htable | ⟨b', hb', htable⟩)
      · exact (consults_of_leaves (leaves_of_apply hs₁) htable).imp_right fun htable =>
          ⟨b, List.mem_cons_self, htable⟩
      · exact .inr ⟨b', List.mem_cons_of_mem _ hb', htable⟩

/-! ## What is relevant -/

/-- Whether a table is named by a statement or by one of some policies. -/
def Relevant (bs : List BuiltIn) (s : Statement) (table : String) : Prop :=
  s.Names table ∨ ∃ b ∈ bs, b.Names table

/-- Whether a key is one that some policies are configured with. -/
def Keyed (bs : List BuiltIn) (key : String) : Prop :=
  ∃ b ∈ bs, key ∈ b.keys

/-- **Only what is relevant in a context matters.** Contexts that agree on the page, on the values
under the keys of the policies, and on the tables that the statement or a policy names lead to the
same statement or the same error. So nothing changes where metadata of other tables is registered or
removed, or where other values are added. -/
theorem process_of_relevant (dialect : Dialect) (guard : Guard) (bs : List BuiltIn)
    (s : Statement) :
    (∀ c c' : Context, c.AgreeOn (Keyed bs) (Relevant bs s) c' →
      (enforcer dialect guard bs).process c s = (enforcer dialect guard bs).process c' s) ∧
    (∀ (c : Context) (r : Registry) (t : TableMetadata),
      (∀ table, Relevant bs s table → tableKey table ≠ tableKey t.table) →
        (enforcer dialect guard bs).process { c with metadata := (r.register t).resolve } s =
          (enforcer dialect guard bs).process { c with metadata := r.resolve } s) ∧
    (∀ (c : Context) (r : Registry) (name : String),
      (∀ table, Relevant bs s table → tableKey table ≠ tableKey name) →
        (enforcer dialect guard bs).process { c with metadata := (r.unregister name).resolve } s =
          (enforcer dialect guard bs).process { c with metadata := r.resolve } s) ∧
    ∀ (c : Context) (key : String) (v : Value), ¬Keyed bs key →
      (enforcer dialect guard bs).process (c.withValue key v) s =
        (enforcer dialect guard bs).process c s := by
  have hagree : ∀ c c' : Context, c.AgreeOn (Keyed bs) (Relevant bs s) c' →
      (enforcer dialect guard bs).process c s = (enforcer dialect guard bs).process c' s := by
    intro c c' h
    exact process_congr (h.mono (fun _ => id) fun table htable => htable.imp_left (·.names))
  refine ⟨hagree, fun c r t h => ?_, fun c r name h => ?_, fun c key v h => ?_⟩
  · exact hagree _ _ ⟨rfl, fun _ _ => rfl, fun table ht => r.resolve_register (h table ht)⟩
  · exact hagree _ _ ⟨rfl, fun _ _ => rfl, fun table ht => r.resolve_unregister (h table ht)⟩
  · refine hagree _ _ ⟨rfl, fun key' hkey' => Context.value?_of_cons rfl ?_, fun _ _ => rfl⟩
    rintro rfl
    exact h hkey'

/-- For the orders of a tenant it does not matter what is known of users, nor which language the
caller speaks. -/
theorem process_of_relevant_allOrders :
    let bs : List BuiltIn := [filter (.tenant {}), pagination { style := .limitOffset }]
    let s : Statement := .select (.ofBody (.select (.allOf "orders")))
    let r : Registry := .ofList [{ table := "orders", tenantColumn := some "tenant_id" }]
    let users : TableMetadata := { table := "app.Users", tenantColumn := some "owner_id" }
    let c : Context :=
      { (Context.ofRegistry r).withValue "tenant_id" (.integer 7) with page := some ⟨10, 0⟩ }
    let c' : Context := { c.withValue "locale" (.text "de") with
      metadata := (r.register users).resolve, statementId := some "orders.all" }
    let process := (enforcer .generic Guard.allowAll bs).process
    c.AgreeOn (Keyed bs) (Relevant bs s) c' ∧ process c s = process c' s ∧
      process { c with metadata := (r.register users).resolve } s =
        process { c with metadata := r.resolve } s ∧
      process { c with metadata := (r.unregister "users").resolve } s =
        process { c with metadata := r.resolve } s ∧
      process (c.withValue "locale" (.text "de")) s = process c s := by
  intro bs s r users c c' process
  have hrelevant : ∀ table, Relevant bs s table → table = "orders" := by
    rintro table (⟨u, hu, x, hx, htable⟩ | ⟨b, hb, h⟩)
    · obtain rfl : u = ⟨Place.outermost.enter ⟨false, [], none⟩, .select (.allOf "orders")⟩ :=
        List.mem_singleton.mp hu
      obtain rfl : x = ([.plain "orders"], none) := List.mem_singleton.mp hx
      exact (Option.some.inj htable).symm
    · rcases List.mem_cons.mp hb with rfl | hb
      · cases h
      · obtain rfl := List.mem_singleton.mp hb
        cases h
  have hkeyed : ∀ key, Keyed bs key → key = "tenant_id" := by
    rintro key ⟨b, hb, hkey⟩
    rcases List.mem_cons.mp hb with rfl | hb
    · exact List.mem_singleton.mp hkey
    · obtain rfl := List.mem_singleton.mp hb
      cases hkey
  have hother : ∀ table, Relevant bs s table → tableKey table ≠ tableKey users.table ∧
      tableKey table ≠ tableKey "users" := by
    intro table htable
    rw [hrelevant table htable]
    decide +kernel
  have hlocale : ¬Keyed bs "locale" := fun h => absurd (hkeyed _ h) (by decide)
  have hlaw := process_of_relevant .generic Guard.allowAll bs s
  have hmetadata : c.metadata = r.resolve := by
    simp only [c, Context.withValue, Context.ofRegistry]
  have hmetadata' : c'.metadata = (r.register users).resolve := by
    simp only [c']
  have hagree : c.AgreeOn (Keyed bs) (Relevant bs s) c' := by
    refine ⟨rfl, fun key hkey => ?_, fun table htable => ?_⟩
    · have hne : key ≠ "locale" := fun h => hlocale (h ▸ hkey)
      have hvalues : c'.values = ("locale", .text "de") :: c.values := rfl
      exact (Context.value?_of_cons hvalues hne).symm
    · rw [hmetadata, hmetadata', r.resolve_register (hother table htable).1]
  exact ⟨hagree, hlaw.1 c c' hagree, hlaw.2.1 c r users fun table h => (hother table h).1,
    hlaw.2.2.1 c r "users" fun table h => (hother table h).2, hlaw.2.2.2 c "locale" _ hlocale⟩

end BuiltIn

end RowPolicy
