import RowPolicy.Proofs.Failures.Pipelines

/-!
# What policies ask of a context

A policy asks its context for the page, for the values under the keys that it is configured with,
and for what is known of the tables that it consults: those that it reaches (`Statement.Reaches`),
and the table of an update. Two contexts that agree on these are told apart by no policy: the
traversals of a statement with the two go in lockstep (`Statement.mapBlocks_congr`), and so does
each hook (`BuiltIn.apply_congr`).
-/

namespace RowPolicy

open Sql

/-- Whether two contexts agree on the page, on the values under some keys, and on what is known of
some tables. -/
structure Context.AgreeOn (keys tables : String → Prop) (c c' : Context) : Prop where
  page : c.page = c'.page
  value : ∀ key, keys key → c.value? key = c'.value? key
  metadata : ∀ table, tables table → c.metadata table = c'.metadata table

theorem Context.AgreeOn.mono {keys keys' tables tables' : String → Prop} {c c' : Context}
    (h : c.AgreeOn keys tables c') (hkeys : ∀ key, keys' key → keys key)
    (htables : ∀ table, tables' table → tables table) : c.AgreeOn keys' tables' c' :=
  ⟨h.page, fun key hkey => h.value key (hkeys key hkey),
    fun table htable => h.metadata table (htables table htable)⟩

theorem eq_of_map_eq {α β : Type} {g : α → β} (hg : Function.Injective g)
    {x y : Except PolicyError α} (h : g <$> x = g <$> y) : x = y := by
  cases x with
  | error e => exact (map_eq_error_iff.mp h.symm).symm
  | ok a => exact ((map_eq_ok_map_iff hg).mp h.symm).symm

namespace Sql

/-! ## Blocks -/

section Walk

variable {m : Type → Type} [Monad m] [MonadExceptOf PolicyError m] {strict : Bool}

/-- A walk rests on the answers for the tables that its steps ask for. -/
theorem walk_eq_of_ask {ask ask' : Leaf → m (Option Expr)} {steps : List Step}
    (h : ∀ l, .ask l ∈ steps → ask l = ask' l) (seen : List Answer) :
    walk strict ask seen steps = walk strict ask' seen steps := by
  induction steps generalizing seen with
  | nil => rfl
  | cons step steps ih =>
    replace ih := ih fun l hl => h l (List.mem_cons_of_mem _ hl)
    cases step with
    | ask l =>
      rw [walk, walk, h l List.mem_cons_self]
      exact bind_congr fun p => ih _
    | refuse construct fragment =>
      rw [walk, walk]
      exact bind_congr fun _ => ih _
    | close n r =>
      rw [walk, walk]
      exact bind_congr fun _ => ih _

end Walk

section Restricting

variable {strict : Bool}
  {predicate predicate' : Target → Option Expr → Except PolicyError (Option Expr)}

/-- Restricting a block rests on the predicates for its tables. -/
theorem RowBlock.restrict_congr {b : RowBlock}
    (h : ∀ t e, t.table ∈ b.tables → predicate t e = predicate' t e) :
    b.restrict strict predicate = b.restrict strict predicate' := by
  have hasks : ∀ l, .ask l ∈ b.steps → b.asks predicate l = b.asks predicate' l := by
    intro l hl
    exact h _ _ (List.mem_map_of_mem (mem_leavesOf.mpr hl))
  rw [restrict_eq_walk, restrict_eq_walk, walk_eq_of_ask hasks]

theorem Select.restrict_congr {s : Scope} {b : Select}
    (h : ∀ t e, t.table ∈ (RowBlock.select s b).tables → predicate t e = predicate' t e) :
    b.restrict strict s predicate = b.restrict strict s predicate' := by
  have hselect : Function.Injective (RowBlock.select s) := fun _ _ h => (RowBlock.select.inj h).2
  exact eq_of_map_eq hselect (RowBlock.restrict_congr h)

end Restricting

/-! ## Traversals -/

/-- Traversals with functions that answer alike to calls that are `Good` are the same. -/
theorem lockstep_congr {f f' : Scope → Select → Except PolicyError Select} {Good : Event → Prop}
    (h : ∀ s b, Good (.select s (b.shell s)) → f s b = f' s b) :
    Lockstep f f' fun P es x y => (∀ e ∈ es, Good e) → x = y ∧ After P x where
  pure ha _ := ⟨rfl, .pure ha⟩
  bind hx hk hgood := by
    obtain ⟨hes, hes'⟩ := List.forall_mem_append.mp hgood
    obtain ⟨rfl, hafter⟩ := hx hes
    refine ⟨bind_congr_of_ok fun a ha => (hk a (hafter a ha) hes').1, ?_⟩
    exact hafter.bind fun a ha => (hk a ha hes').2
  call {s b b'} hshell hgood := by
    refine ⟨h s b' ?_, fun r _ => keeps_select s b r⟩
    rw [hshell]
    exact hgood _ List.mem_cons_self

/-- **A traversal rests on what is answered for the blocks that it comes to.** -/
theorem Statement.mapBlocks_congr {f f' : Scope → Select → Except PolicyError Select}
    {T : String → Prop} (h : ∀ s b, (∀ table ∈ (RowBlock.select s b).tables, T table) →
      f s b = f' s b) {s : Statement} (hs : ∀ table, s.Reaches table → T table) :
    s.mapBlocks f = s.mapBlocks f' := by
  let Good : Event → Prop := fun e => ∀ scope shell, e = .select scope shell →
    ∀ table ∈ (RowBlock.select scope shell).tables, T table
  have hshell : ∀ scope b, (RowBlock.select scope (b.shell scope)).tables =
      (RowBlock.select scope b).tables := fun scope b =>
    RowBlock.tables_of_sight (RowBlock.sight_shell (.select scope b))
  have hcongr : ∀ scope b, Good (.select scope (b.shell scope)) → f scope b = f' scope b := by
    intro scope b hgood
    refine h scope b ?_
    rw [← hshell]
    exact hgood scope _ rfl
  refine (s.lockstep (lockstep_congr hcongr) fun e he => ?_).1
  obtain ⟨o, ho, rfl⟩ := List.mem_map.mp he
  obtain ⟨ho, haside⟩ := List.mem_filter.mp ho
  rintro scope shell heq table htable
  obtain ⟨rfl, rfl⟩ := Event.select.inj heq
  rw [hshell] at htable
  exact hs table (.inl ⟨o, ho, by simpa using haside, htable⟩)

/-! ## Tables that are consulted -/

/-- Whether a table is one of those that are named. -/
def NamedIn (xs : List (Name × Option Alias)) (table : String) : Prop :=
  ∃ x ∈ xs, Name.last? x.1 = some table

/-- The tables that an update or a deletion names itself. -/
def Statement.ownNamed (s : Statement) : List (Name × Option Alias) :=
  match s.block? with
  | none => []
  | some b => b.site.named

/-- Whether a policy may ask for what is known of a table: it reaches the table, or the statement
is an update or a deletion and names it. -/
def Statement.Consults (s : Statement) (table : String) : Prop :=
  s.Reaches table ∨ NamedIn s.ownNamed table

theorem Update.consults_target {u : Update} {t : Target} (h : u.target? = some t) :
    (Statement.update u).Consults t.table := by
  obtain ⟨head, ⟨relation, joins⟩, sourcesFirst, sources, assignments, selection, returning,
    limit⟩ := u
  cases relation with
  | table name partition arguments ordinality naming after =>
    obtain ⟨table, htable, ht⟩ := Option.bind_eq_some_iff.mp h
    cases ht
    exact .inr ⟨(name, naming), List.mem_cons_self, htable⟩
  | _ => cases h

theorem Deletion.consults_target {d : Deletion} {t : Target} (h : d.target? = some t) :
    (Statement.delete d).Consults t.table := by
  unfold target? at h
  split at h
  · rename_i name partition ordinality naming after htables hsources husing
    obtain ⟨table, htable, ht⟩ := Option.bind_eq_some_iff.mp h
    cases ht
    refine .inr ⟨(name, naming), ?_, htable⟩
    change (name, naming) ∈ treesNamed (d.sources ++ d.usingSources.getD [])
    rw [hsources]
    exact List.mem_cons_self
  · cases h

theorem Statement.Consults.of_retains {s s' : Statement} {table : String}
    (hretains : s.Retains True s') (hnamed : s'.ownNamed = s.ownNamed) (h : s'.Consults table) :
    s.Consults table := by
  rcases h with h | h
  · exact .inl (hretains.of_reaches trivial h)
  · rw [hnamed] at h
    exact .inr h

theorem Statement.ownNamed_of_mapBlocks {f : Scope → Select → Except PolicyError Select}
    {s s' : Statement} (h : s.mapBlocks f = .ok s') : s'.ownNamed = s.ownNamed := by
  cases s with
  | insert i =>
    obtain ⟨i', -, rfl⟩ := map_eq_ok_iff.mp h
    rfl
  | update u =>
    obtain ⟨u', hu', rfl⟩ := map_eq_ok_iff.mp h
    exact u.named_mapBlocks _ _ u' hu'
  | delete d =>
    obtain ⟨d', hd', rfl⟩ := map_eq_ok_iff.mp h
    exact d.named_mapBlocks _ _ d' hd'
  | select q =>
    obtain ⟨q', -, rfl⟩ := map_eq_ok_iff.mp h
    rfl
  | other text =>
    cases h
    rfl

theorem Statement.ownNamed_amended (s : Statement) (as : List Answer) :
    (s.amended as).ownNamed = s.ownNamed := by
  unfold ownNamed
  rw [block?_amended]
  cases s.block? with
  | none => rfl
  | some b => exact b.named_amended as

end Sql

/-! ## Hooks -/

theorem Policy.resolve_congr {c c' : Context} {t : Target}
    (h : c.metadata t.table = c'.metadata t.table) (required : Bool) :
    Policy.resolve c t required = (Policy.resolve c' t required : Except PolicyError _) := by
  unfold Policy.resolve
  rw [h]

theorem Policy.demand_congr {c c' : Context} {key : String} (h : c.value? key = c'.value? key)
    (fragment : String) :
    Policy.demand c key fragment = (Policy.demand c' key fragment : Except PolicyError _) := by
  unfold Policy.demand
  rw [h]

namespace Filter

variable {f : Filter} {c c' : Context}

theorem predicate_congr (hkey : ∀ key ∈ f.key?, c.value? key = c'.value? key) {t : Target}
    (ht : c.metadata t.table = c'.metadata t.table) (e : Option Expr) :
    f.predicate c t e = f.predicate c' t e := by
  cases f with
  | logicDelete p =>
    change p.predicate c t e = p.predicate c' t e
    unfold LogicDelete.predicate
    rw [Policy.resolve_congr ht]
  | tenant p =>
    change p.predicate c t = p.predicate c' t
    unfold Tenant.predicate Tenant.column?
    simp only [Policy.resolve_congr ht, Policy.demand_congr (hkey _ rfl)]
  | condition p =>
    change p.predicate c t = p.predicate c' t
    unfold Condition.predicate
    rw [Policy.resolve_congr ht]

theorem block_congr (hkey : ∀ key ∈ f.key?, c.value? key = c'.value? key) (s : Scope) (b : Select)
    (h : ∀ table ∈ (RowBlock.select s b).tables, c.metadata table = c'.metadata table) :
    (f.restraint c).block s b = (f.restraint c').block s b := by
  have hpredicate : ∀ t e, t.table ∈ (RowBlock.select s b).tables →
      f.predicate c t e = f.predicate c' t e := fun t e ht => predicate_congr hkey (h _ ht) e
  cases f with
  | logicDelete p => exact Select.restrict_congr hpredicate
  | tenant p => exact Select.restrict_congr hpredicate
  | condition p => exact Select.restrict_congr hpredicate

theorem outer_congr (hkey : ∀ key ∈ f.key?, c.value? key = c'.value? key) {s : Statement}
    (h : ∀ table, s.Reaches table → c.metadata table = c'.metadata table) :
    (f.restraint c).outer s = (f.restraint c').outer s := by
  have hrestrict : ∀ strict, s.restrict strict (f.predicate c) =
      s.restrict strict (f.predicate c') := by
    intro strict
    unfold Statement.restrict
    cases hs : s.block? with
    | none => rfl
    | some b =>
      have hblock : b.restrict strict (f.predicate c) = b.restrict strict (f.predicate c') :=
        RowBlock.restrict_congr fun t e ht =>
          predicate_congr hkey (h _ (.inr (.inl ⟨b, hs, ht⟩))) e
      simp only [hblock]
  cases f with
  | logicDelete p => exact hrestrict p.strict
  | tenant p => exact hrestrict p.strict
  | condition p => exact hrestrict p.strict

theorem insert_congr (hkey : ∀ key ∈ f.key?, c.value? key = c'.value? key) {i : Insertion}
    (h : ∀ table, (Statement.insert i).Reaches table → c.metadata table = c'.metadata table) :
    f.policy.insert c i = f.policy.insert c' i := by
  cases f with
  | tenant p =>
    change p.insert c i = p.insert c' i
    unfold Tenant.insert Tenant.column?
    cases ht : i.target? with
    | none => rfl
    | some t =>
      have hreaches : (Statement.insert i).Reaches t.table :=
        .inr (.inr (congrArg (Option.map Target.table) ht))
      simp only [Policy.resolve_congr (h _ hreaches), Policy.demand_congr (hkey _ rfl)]
  | _ => rfl

theorem statement_congr {s : Statement}
    (h : ∀ table, s.Consults table → c.metadata table = c'.metadata table) :
    f.policy.statement c s = f.policy.statement c' s := by
  cases f with
  | logicDelete p =>
    cases s with
    | delete d =>
      have hmarking : p.marking? c d = (p.marking? c' d : Except PolicyError _) := by
        unfold LogicDelete.marking?
        cases ht : d.target? with
        | none => rfl
        | some t =>
          have hresolve := Policy.resolve_congr (h _ (Deletion.consults_target ht))
          cases d.sources with
          | nil => rfl
          | cons table _ => simp only [hresolve]
      change (if p.soft then _ else _ : Except PolicyError Statement) = if p.soft then _ else _
      rw [hmarking]
    | _ => rfl
  | _ => rfl

/-! ### Runs -/

/-- What a filter makes of a statement itself, between its blocks and the hook for whole
statements. -/
def itself (c : Context) (f : Filter) : Statement → Except PolicyError Statement
  | .insert i => Statement.insert <$> f.policy.insert c i
  | s => (f.restraint c).outer s

theorem run_eq_itself (c : Context) (s : Statement) : f.policy.run c s =
    s.mapBlocks (f.restraint c).block >>= fun s₁ => f.itself c s₁ >>= f.policy.statement c := by
  cases s with
  | insert i =>
    rw [run_insert_eq]
    simp only [Statement.mapBlocks, itself, bind_assoc, pure_bind, bind_map_left]
  | _ =>
    rw [(f.restrains c).run_eq (by simp [Statement.kind])]
    simp only [Restraint.run, Statement.mapBlocks, itself, bind_assoc, pure_bind]

theorem itself_congr (hkey : ∀ key ∈ f.key?, c.value? key = c'.value? key) {s : Statement}
    (h : ∀ table, s.Reaches table → c.metadata table = c'.metadata table) :
    f.itself c s = f.itself c' s := by
  cases s with
  | insert i => exact congrArg (Statement.insert <$> ·) (insert_congr hkey h)
  | _ => exact outer_congr hkey h

theorem retains_of_itself {s s' : Statement} (h : f.itself c s = .ok s') : s.Retains True s' := by
  cases s with
  | insert i =>
    obtain ⟨i', hi', rfl⟩ := map_eq_ok_iff.mp h
    exact retains_of_insert hi'
  | _ => exact (f.plain c).retains_outer h

theorem ownNamed_of_itself {s s' : Statement} (h : f.itself c s = .ok s') :
    s'.ownNamed = s.ownNamed := by
  cases s with
  | insert i =>
    obtain ⟨i', -, rfl⟩ := map_eq_ok_iff.mp h
    rfl
  | _ =>
    obtain ⟨as, -, rfl⟩ := (f.restraint c).outer_eq_ok_iff.mp h
    exact Statement.ownNamed_amended _ as

theorem ownNamed_of_statement {s s' : Statement} (h : f.policy.statement c s = .ok s') :
    s'.ownNamed = s.ownNamed := by
  rcases exists_of_statement h with rfl | ⟨x, mark, rfl, rfl⟩ <;> rfl

/-- **What a filter does rests on the value that it needs and on the tables that are consulted.** -/
theorem apply_congr (hkey : ∀ key ∈ f.key?, c.value? key = c'.value? key) {s : Statement}
    (h : ∀ table, s.Consults table → c.metadata table = c'.metadata table) :
    f.policy.apply c s = f.policy.apply c' s := by
  have hblocks : s.mapBlocks (f.restraint c).block = s.mapBlocks (f.restraint c').block :=
    Statement.mapBlocks_congr (fun scope b hb => block_congr hkey scope b hb)
      fun table htable => h table (.inl htable)
  have hrun : f.policy.run c s = f.policy.run c' s := by
    rw [run_eq_itself, run_eq_itself, ← hblocks]
    refine bind_congr_of_ok fun s₁ hs₁ => ?_
    have h₁ : ∀ table, s₁.Consults table → c.metadata table = c'.metadata table := fun table ht =>
      h table (ht.of_retains ((f.plain c).retains_mapBlocks hs₁)
        (Statement.ownNamed_of_mapBlocks hs₁))
    rw [← itself_congr hkey fun table ht => h₁ table (.inl ht)]
    refine bind_congr_of_ok fun s₂ hs₂ => statement_congr fun table ht => ?_
    exact h₁ table (ht.of_retains (retains_of_itself hs₂) (ownNamed_of_itself hs₂))
  unfold Policy.apply
  rw [hrun]

theorem ownNamed_of_apply {s s' : Statement} (h : f.policy.apply c s = .ok s') :
    s'.ownNamed = s.ownNamed := by
  unfold Policy.apply at h
  split at h
  · rw [run_eq_itself] at h
    obtain ⟨s₁, hs₁, h⟩ := bind_eq_ok_iff.mp h
    obtain ⟨s₂, hs₂, hs'⟩ := bind_eq_ok_iff.mp h
    rw [ownNamed_of_statement hs', ownNamed_of_itself hs₂, Statement.ownNamed_of_mapBlocks hs₁]
  · cases h
    rfl

end Filter

/-! ## The six policies -/

namespace AuditColumn

variable {p : AuditColumn} {c c' : Context}

theorem insert_congr (hkey : ∀ key, p.source = .context key → c.value? key = c'.value? key)
    (i : Insertion) : p.insert c i = (p.insert c' i : Except PolicyError Insertion) := by
  have hvalue : ∀ fragment, p.value c fragment = p.value c' fragment := by
    intro fragment
    unfold value
    cases hsource : p.source with
    | context key => simp only [Policy.demand_congr (hkey key hsource)]
    | expression e => rfl
  rw [insert_eq, insert_eq]
  simp only [hvalue]

end AuditColumn

namespace OptimisticLock

variable {p : OptimisticLock} {c c' : Context}

theorem update_congr (hkey : c.value? p.contextKey = c'.value? p.contextKey) {u : Update}
    (h : ∀ table, (Statement.update u).Consults table → c.metadata table = c'.metadata table) :
    p.update c u = (p.update c' u : Except PolicyError Update) := by
  unfold update
  cases ht : u.target? with
  | none => rfl
  | some t =>
    simp only [Policy.resolve_congr (h _ (Update.consults_target ht)), hkey]

theorem ownNamed_of_update {u u' : Update}
    (h : p.update c u = (.ok u' : Except PolicyError Update)) :
    (Statement.update u').ownNamed = (Statement.update u).ownNamed := by
  rcases exists_of_update h with rfl | ⟨t, column, rfl⟩ <;> rfl

end OptimisticLock

theorem Pagination.query_congr {p : Pagination} {c c' : Context} (h : c.page = c'.page)
    (q : Query) : p.query c q = (p.query c' q : Except PolicyError Query) := by
  unfold query
  rw [h]

namespace BuiltIn

variable {b : BuiltIn} {c c' : Context} {s s' : Statement}

/-- The keys of the values that a policy asks for. -/
def keys : BuiltIn → List String
  | filter f => f.key?.toList
  | auditColumn p =>
    match p.source with
    | .context key => [key]
    | .expression _ => []
  | optimisticLock p => [p.contextKey]
  | pagination _ => []

/-- **What a policy does rests on the page, on the values that it asks for, and on the tables that
are consulted.** -/
theorem apply_congr (h : c.AgreeOn (· ∈ b.keys) s.Consults c') :
    b.policy.apply c s = b.policy.apply c' s := by
  cases b with
  | filter f =>
    exact Filter.apply_congr (fun key hkey => h.value key (Option.mem_toList.mpr hkey)) h.metadata
  | auditColumn p =>
    cases s with
    | insert i =>
      have hkey : ∀ key, p.source = .context key → c.value? key = c'.value? key := by
        intro key hsource
        exact h.value key (by simp [keys, hsource])
      change p.policy.apply c (.insert i) = p.policy.apply c' (.insert i)
      rw [AuditColumn.apply_insert, AuditColumn.apply_insert, AuditColumn.insert_congr hkey]
    | _ => rfl
  | optimisticLock p =>
    cases s with
    | update u =>
      change p.policy.apply c (.update u) = p.policy.apply c' (.update u)
      rw [OptimisticLock.apply_update, OptimisticLock.apply_update,
        OptimisticLock.update_congr (h.value _ List.mem_cons_self) h.metadata]
    | _ => rfl
  | pagination p =>
    cases s with
    | select q =>
      change p.policy.apply c (.select q) = p.policy.apply c' (.select q)
      rw [Pagination.apply_select, Pagination.apply_select, Pagination.query_congr h.page]
    | _ => rfl

/-- What is left of an update or a deletion names the same tables. -/
theorem Leaves.ownNamed (h : b.Leaves c s s') : s'.ownNamed = s.ownNamed := by
  cases h with
  | filter h => exact Filter.ownNamed_of_apply h
  | optimisticLock h => exact OptimisticLock.ownNamed_of_update h
  | _ => rfl

end BuiltIn

end RowPolicy
