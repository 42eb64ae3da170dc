import RowPolicy.Proofs.Order.Restraining
import RowPolicy.Proofs.Order.Succession

/-!
# Logic deletion and tenants in either order

Two restraints that overlook each other can be run in either order: the one order goes well if the
other does, and both put the same predicates behind each condition, up to their order
(`Restraint.exists_run_comm`). The separation of tenants does not look at conditions at all, and
logic deletion looks for columns that mark deleted rows, so the two overlook each other where no
such column tells tenants apart (`LogicDelete.process_comm_tenant`).
-/

namespace RowPolicy

namespace Sql

/-! ## Answers in another order -/

/-- Whether answers put the same predicates behind each condition, up to their order. -/
def Reordered (as bs : List Answer) : Prop :=
  ∀ home, (answersAt home as).Perm (answersAt home bs)

theorem reordered_append_comm (as bs : List Answer) : Reordered (as ++ bs) (bs ++ as) := by
  intro home
  rw [answersAt_append, answersAt_append]
  exact List.perm_append_comm

/-- Whether `r` and `r'` are a statement with predicates behind the conditions of its blocks,
and of itself if it is an update or a deletion, and the same ones behind each condition up to
their order. -/
def Statement.Reorders (s r r' : Statement) : Prop :=
  ∃ marks marks' as as', r = (s.added marks).amended as ∧ r' = (s.added marks').amended as' ∧
    List.Forall₂ Reordered marks marks' ∧ Reordered as as'

namespace Restraint

variable {w w' : Restraint}

section Either

variable (h : w'.Overlooks w) (h' : w.Overlooks w')

/-- What is answered for in one order is answered for in the other. -/
theorem Answers.exists_comm {s : Statement} {marks : List (List Answer)} {as : List Answer}
    (has : (w.andThen w' h).Answers s marks as) :
    ∃ marks' as', (w'.andThen w h').Answers s marks' as' ∧ List.Forall₂ Reordered marks marks' ∧
      Reordered as as' := by
  obtain ⟨hmarks, hown⟩ := has
  have hinside : ∃ marks', List.Forall₂
      (fun e cs => Event.Admits (w'.andThen w h').verdicts cs e) (eventsOf s.occurrences) marks' ∧
        List.Forall₂ Reordered marks marks' := by
    generalize eventsOf s.occurrences = es at hmarks
    induction hmarks with
    | nil => exact ⟨[], .nil, .nil⟩
    | @cons e _ _ _ hadmits _ ih =>
      obtain ⟨marks', hmarks', hreordered⟩ := ih
      cases e with
      | select scope shell =>
        obtain ⟨xs, ys, hxs, hys, rfl⟩ := hadmits
        exact ⟨(ys ++ xs) :: marks', .cons ⟨ys, xs, hys, hxs, rfl⟩ hmarks',
          .cons (reordered_append_comm xs ys) hreordered⟩
      | _ => cases hadmits
  obtain ⟨marks', hmarks', hreordered⟩ := hinside
  cases hs : s.block? with
  | none =>
    exact ⟨marks', as, ⟨hmarks', by simp [hs]⟩, hreordered, fun home => .refl _⟩
  | some b =>
    obtain ⟨xs, ys, hxs, hys, rfl⟩ := hown b hs
    refine ⟨marks', ys ++ xs, ⟨hmarks', fun b' hb' => ?_⟩, hreordered, reordered_append_comm xs ys⟩
    obtain rfl : b = b' := Option.some.inj (hs.symm.trans hb')
    exact ⟨ys, xs, hys, hxs, rfl⟩

include h h' in
/-- **Two restraints that overlook each other can be run in either order.** -/
theorem exists_run_comm {s r : Statement} (hr : w.run s >>= w'.run = .ok r) :
    ∃ r', w'.run s >>= w.run = .ok r' ∧ s.Reorders r r' := by
  obtain ⟨marks, as, has, rfl⟩ := (run_eq_ok_iff _).mp ((run_andThen h).mp hr)
  obtain ⟨marks', as', has', hmarks, hown⟩ := has.exists_comm h h'
  exact ⟨_, (run_andThen h').mpr ((run_eq_ok_iff _).mpr ⟨marks', as', has', rfl⟩),
    marks, marks', as, as', rfl, rfl, hmarks, hown⟩

end Either

section OfPredicate

variable {strict strict' : Bool}
  {predicate predicate' : Target → Option Expr → Except PolicyError (Option Expr)}
  {hshallow : Shallow predicate} {hshallow' : Shallow predicate'}
  {hblockless : ∀ t e p, predicate t e = .ok p → ∀ q ∈ p, q.Blockless}
  {hblockless' : ∀ t e p, predicate' t e = .ok p → ∀ q ∈ p, q.Blockless}

/-- A predicate that overlooks the answers of another one overlooks what they have amended. -/
theorem overlooks_of_predicate (kind : Expr → Prop)
    (hkind : ∀ t e p, predicate t e = .ok p → ∀ q ∈ p, kind q)
    (hover : RowBlock.Overlooks predicate' kind) :
    (ofPredicate strict' predicate' hshallow' hblockless').Overlooks
      (ofPredicate strict predicate hshallow hblockless) := by
  have hof : ∀ {b : RowBlock} {as : List Answer}, b.Answered strict predicate as →
      RowBlock.OfKind kind as := by
    rintro b as ⟨ps, hps, rfl, -⟩ x hx
    exact hkind _ _ _ ((List.forall₂_iff_zip.mp hps).2 hx)
  constructor
  · intro b as bs has hbs
    exact (RowBlock.follows_amended hover (hof has) b).exists_answered hbs
  · intro b as bs has hbs
    exact (RowBlock.amended_follows hover (hof has) b).exists_answered hbs

end OfPredicate

end Restraint

end Sql

open Sql

/-! ## Columns -/

namespace Tenant

/-- Whether a column tells the tenants of some table apart. -/
def MayUse (p : Tenant) (c : Context) (column : String) : Prop :=
  p.defaultColumn = some column ∨
    ∃ table known, c.metadata table = some known ∧ known.tenantColumn = some column

/-- Whether no column that tells tenants apart has the name of one that marks deleted rows, letter
case aside. -/
def Apart (p : Tenant) (c : Context) : Prop :=
  ∀ column, p.MayUse c column → ∀ table known mark, c.metadata table = some known →
    known.logicDelete = some mark → Text.sameName column mark.column = false

/-- A predicate of a column that tells tenants apart. -/
def Separating (p : Tenant) (c : Context) (e : Expr) : Prop :=
  ∃ (t : Target) (column : String) (v : Value), p.MayUse c column ∧
    e = (t.column column).hasValue v

theorem mayUse_of_column? {p : Tenant} {c : Context} {t : Target} {column : String}
    (h : p.column? c t = (.ok (some column) : Except PolicyError _)) : p.MayUse c column := by
  obtain ⟨known, hknown, h⟩ := bind_eq_ok_iff.mp h
  cases known with
  | none => exact .inl (Except.ok.inj h)
  | some known =>
    have hcolumn : (if known.ignoreTenant then none else known.tenantColumn.or p.defaultColumn) =
        some column := Except.ok.inj h
    split at hcolumn
    · cases hcolumn
    rcases Option.or_eq_some_iff.mp hcolumn with hown | ⟨-, hdefault⟩
    · exact .inr ⟨t.table, known, (Policy.resolve_eq_ok_iff.mp hknown).1, hown⟩
    · exact .inl hdefault

theorem separating_of_predicate {p : Tenant} {c : Context} {t : Target} {r : Option Expr}
    (h : p.predicate c t = (.ok r : Except PolicyError (Option Expr))) :
    ∀ q ∈ r, p.Separating c q := by
  intro q hq
  obtain ⟨column, v, hcolumn, -, rfl⟩ := exists_of_predicate h q hq
  exact ⟨t, column, v, mayUse_of_column? hcolumn, rfl⟩

end Tenant

/-- A predicate of another column does not mention a column. -/
theorem Sql.Expr.mentions_hasValue_of_other {column other : String}
    (h : Text.sameName other column = false) (t : Target) (v : Value) (qualifier : Option String) :
    (Expr.hasValue (t.column other) v).mentions column qualifier = false := by
  have hcolumn : (t.column other).mentions column qualifier = false := by
    cases hq : t.qualifier <;> cases qualifier <;>
      simp [Target.column, ofColumn, mentions, isReference, hq, Ident.plain, h]
  unfold hasValue
  split <;> simp [mentions, hcolumn, ofValue]

theorem LogicDelete.overlooks_separating (p : LogicDelete) {q : Tenant} {c : Context}
    (hapart : q.Apart c) : RowBlock.Overlooks (p.predicate c) (q.Separating c) := by
  intro t e ps hps
  cases hknown : (Policy.resolve c t p.requireMetadata : Except PolicyError _) with
  | error _ => simp only [predicate, hknown, bind, Except.bind]
  | ok known =>
    rw [p.predicate_eq hknown, p.predicate_eq hknown]
    congr 1
    refine Option.bind_congr fun mark hmark => ?_
    obtain ⟨x, rfl, hx⟩ := Option.bind_eq_some_iff.mp hmark
    have hnone : ps.any (·.mentions mark.column t.qualifier) = false := by
      rw [List.any_eq_false]
      intro r hr
      obtain ⟨t', column, v, hcolumn, rfl⟩ := hps r hr
      have hmetadata := (Policy.resolve_eq_ok_iff.mp hknown).1
      have hother := hapart column hcolumn _ x mark hmetadata hx
      rw [Expr.mentions_hasValue_of_other hother]
      exact Bool.false_ne_true
    rw [Expr.any_mentions_conjoinAll, hnone, Bool.or_false]

/-! ## Either order -/

theorem exists_error_iff {α : Type} {x : Except PolicyError α} :
    (∃ e, x = .error e) ↔ ¬∃ a, x = .ok a := by
  cases x <;> simp

/-- Whether the rows of a statement are restrained: those of a query, an update or a deletion. -/
def Sql.StatementKind.Restrained (k : StatementKind) : Prop :=
  k = .select ∨ k = .update ∨ k = .delete

instance : DecidablePred Sql.StatementKind.Restrained :=
  fun k => inferInstanceAs (Decidable (k = .select ∨ k = .update ∨ k = .delete))

theorem Sql.StatementKind.Restrained.ne_insert {k : StatementKind} (h : k.Restrained) :
    k ≠ .insert := by
  rcases h with rfl | rfl | rfl <;> decide

theorem Sql.Restraint.kind_of_run {w : Restraint} {s s' : Statement} (h : w.run s = .ok s') :
    s'.kind = s.kind := by
  obtain ⟨marks, as, -, rfl⟩ := w.run_eq_ok_iff.mp h
  have hamended : ∀ x : Statement, (x.amended as).kind = x.kind := fun x => by cases x <;> rfl
  rw [hamended]
  cases s <;> rfl

theorem LogicDelete.apply_eq_run (p : LogicDelete) (c : Context) (hsoft : p.soft = false)
    {s : Statement} (hs : s.kind.Restrained) : p.policy.apply c s = (p.restraint c).run s := by
  have happlies : (p.policy : Policy (Except PolicyError)).appliesTo s.kind = true := by
    rcases hs with hs | hs | hs <;> rw [hs] <;> rfl
  have hstatement : (p.policy : Policy (Except PolicyError)).statement c = pure :=
    funext (p.adds hsoft c).statement
  rw [Policy.apply, if_pos happlies, (p.restrains c).run_eq hs.ne_insert, hstatement, bind_pure]

theorem Tenant.apply_eq_run (p : Tenant) (c : Context) {s : Statement}
    (hs : s.kind.Restrained) : p.policy.apply c s = (p.restraint c).run s := by
  have hstatement : (p.policy : Policy (Except PolicyError)).statement c = pure :=
    funext (p.adds c).statement
  change p.policy.run c s = _
  rw [(p.restrains c).run_eq hs.ne_insert, hstatement, bind_pure]

/-- One of two policies after the other, on a statement whose rows are restrained. -/
theorem Sql.Restraint.bind_apply_eq_ok_iff {w w' : Restraint}
    {apply apply' : Statement → Except PolicyError Statement}
    (h : ∀ {s}, s.kind.Restrained → apply s = w.run s)
    (h' : ∀ {s}, s.kind.Restrained → apply' s = w'.run s) {s r : Statement}
    (hs : s.kind.Restrained) : apply s >>= apply' = .ok r ↔ w.run s >>= w'.run = .ok r := by
  rw [h hs, bind_eq_ok_iff, bind_eq_ok_iff]
  refine exists_congr fun s₁ => and_congr_right fun hs₁ => ?_
  rw [h' (by rwa [kind_of_run hs₁])]

/-- Logic deletion leaves an insertion, and a statement without rows, as the other policy does. -/
theorem LogicDelete.process_of_not_restrained (p : LogicDelete) (q : Tenant) (c : Context)
    {s : Statement} (hs : ¬s.kind.Restrained) :
    ((p.policy : Policy (Except PolicyError)).apply c s >>= q.policy.apply c) =
        q.policy.apply c s ∧
      ((q.policy : Policy (Except PolicyError)).apply c s >>= p.policy.apply c) =
        q.policy.apply c s := by
  have hskip : ∀ {x : Statement}, ¬x.kind.Restrained →
      (p.policy : Policy (Except PolicyError)).apply c x = .ok x := by
    intro x hx
    have happlies : ¬(p.policy : Policy (Except PolicyError)).appliesTo x.kind = true := by
      intro happlies
      apply hx
      cases hkind : x.kind <;> simp_all [Sql.StatementKind.Restrained, policy]
    rw [Policy.apply, if_neg happlies]
    rfl
  refine ⟨by rw [hskip hs]; rfl, ?_⟩
  cases hq : (q.policy : Policy (Except PolicyError)).apply c s with
  | error _ => rfl
  | ok s' =>
    have hkind : s'.kind = s.kind := ((q.adds c).exists_erase hq).1
    exact hskip (by rwa [hkind])

/-- **Logic deletion and the separation of tenants can be put in either order**, where no column
that tells tenants apart marks deleted rows and no deletion becomes an update: one order fails if
and only if the other does, and what the two leave is the same up to the order of the predicates
behind each condition. -/
theorem LogicDelete.process_comm_tenant (p : LogicDelete) (q : Tenant) {c : Context}
    (hsoft : p.soft = false) (hapart : q.Apart c) (dialect : Dialect) (guard : Guard)
    (s : Statement) :
    let first : Except PolicyError Statement :=
      Enforcer.process ⟨dialect, [p.policy, q.policy], guard⟩ c s
    let second : Except PolicyError Statement :=
      Enforcer.process ⟨dialect, [q.policy, p.policy], guard⟩ c s
    ((∃ e, first = .error e) ↔ ∃ e, second = .error e) ∧
      ∀ r r', first = .ok r → second = .ok r' →
        if s.kind.Restrained then s.Reorders r r' else r = r' := by
  intro first second
  have hfirst : first = p.policy.apply c s >>= q.policy.apply c := by
    simp only [first, Enforcer.process, List.foldlM_cons, List.foldlM_nil, bind_pure]
  have hsecond : second = q.policy.apply c s >>= p.policy.apply c := by
    simp only [second, Enforcer.process, List.foldlM_cons, List.foldlM_nil, bind_pure]
  rw [hfirst, hsecond]
  by_cases hs : s.kind.Restrained
  · have hpq : ∀ r, p.policy.apply c s >>= q.policy.apply c = (.ok r : Except PolicyError _) ↔
        (p.restraint c).run s >>= (q.restraint c).run = .ok r := fun r =>
      Restraint.bind_apply_eq_ok_iff (p.apply_eq_run c hsoft) (q.apply_eq_run c) hs
    have hqp : ∀ r, q.policy.apply c s >>= p.policy.apply c = (.ok r : Except PolicyError _) ↔
        (q.restraint c).run s >>= (p.restraint c).run = .ok r := fun r =>
      Restraint.bind_apply_eq_ok_iff (q.apply_eq_run c) (p.apply_eq_run c hsoft) hs
    have hover : (q.restraint c).Overlooks (p.restraint c) :=
      Restraint.overlooks_of_predicate (fun _ => True) (by simp) fun _ _ _ _ => rfl
    have hover' : (p.restraint c).Overlooks (q.restraint c) :=
      Restraint.overlooks_of_predicate _ (fun _ _ _ h => Tenant.separating_of_predicate h)
        (p.overlooks_separating hapart)
    simp only [exists_error_iff, if_pos hs]
    refine ⟨not_congr ⟨?_, ?_⟩, fun r r' hr hr' => ?_⟩
    · rintro ⟨r, hr⟩
      obtain ⟨r', hr', -⟩ := Restraint.exists_run_comm hover hover' ((hpq r).mp hr)
      exact ⟨r', (hqp r').mpr hr'⟩
    · rintro ⟨r, hr⟩
      obtain ⟨r', hr', -⟩ := Restraint.exists_run_comm hover' hover ((hqp r).mp hr)
      exact ⟨r', (hpq r').mpr hr'⟩
    · obtain ⟨r'', hr'', hreorders⟩ := Restraint.exists_run_comm hover hover' ((hpq r).mp hr)
      obtain rfl : r'' = r' := Except.ok.inj (((hqp r'').mpr hr'').symm.trans hr')
      exact hreorders
  · obtain ⟨h₁, h₂⟩ := p.process_of_not_restrained q c hs
    simp only [h₁, h₂, if_neg hs]
    refine ⟨trivial, fun r r' hr hr' => ?_⟩
    exact Except.ok.inj (hr.symm.trans hr')

/-! ## An update of orders -/

/-- `UPDATE orders o SET paid = 1 WHERE o.id = 1 OR o.id IN (SELECT * FROM orders)` with predicates
behind the condition of the block and behind its own. -/
def Sql.Update.payOrdersWith (block own : List Expr) : Update :=
  { TableDeletion.orderOne.update "paid" (.integer 1) with
    selection := Expr.conjoinAll
      (some (.binary (.hasValue (.ofColumn (some "o") "id") (.integer 1)) .or
        { Select.allOf "orders" with selection := Expr.conjoinAll none block }.isAmong)) own }

/-- The predicate that orders are not deleted. -/
def Sql.Expr.ordersLeft (qualifier : Option String) : Expr :=
  .hasValue (.ofColumn qualifier "deleted") (.integer 0)

/-- The predicate that orders belong to tenant 9. -/
def Sql.Expr.ordersOfNine (qualifier : Option String) : Expr :=
  .hasValue (.ofColumn qualifier "tenant_id") (.integer 9)

theorem Tenant.apart_ofConfig : ({} : Tenant).Apart .ofConfig := by
  have hentries : (Registry.ofList Config.ofOrders.tables).entries = Config.ofOrders.tables := rfl
  have hknown : ∀ table known, Context.ofConfig.metadata table = some known →
      known ∈ Config.ofOrders.tables := by
    intro table known h
    simp only [Context.ofConfig, Context.withValue, Context.ofRegistry, Registry.resolve,
      hentries] at h
    exact List.mem_of_find?_eq_some h
  intro column hcolumn table known mark hmetadata hmark
  obtain rfl := List.mem_singleton.mp (hknown table known hmetadata)
  cases hmark
  rcases hcolumn with hdefault | ⟨table', known', hmetadata', hcolumn⟩
  · cases hdefault
  · obtain rfl := List.mem_singleton.mp (hknown table' known' hmetadata')
    cases hcolumn
    decide

/-- Either order puts the same two predicates behind both conditions. -/
theorem LogicDelete.process_comm_payOrders :
    let first : Except PolicyError Statement := Enforcer.process
      ⟨.generic, [LogicDelete.policy {}, Tenant.policy {}], .allowAll⟩ .ofConfig (.update .payOrders)
    let second : Except PolicyError Statement := Enforcer.process
      ⟨.generic, [Tenant.policy {}, LogicDelete.policy {}], .allowAll⟩ .ofConfig (.update .payOrders)
    let left := Expr.ordersLeft
    let ours := Expr.ordersOfNine
    let r := Update.payOrdersWith [left none, ours none] [left (some "o"), ours (some "o")]
    let r' := Update.payOrdersWith [ours none, left none] [ours (some "o"), left (some "o")]
    first = .ok (.update r) ∧ second = .ok (.update r') ∧
      (Statement.update .payOrders).Reorders (.update r) (.update r') := by
  intro first second left ours r r'
  have hfirst : first = .ok (.update r) := by with_unfolding_all rfl
  have hsecond : second = .ok (.update r') := by with_unfolding_all rfl
  have hcomm := (LogicDelete.process_comm_tenant {} {} rfl Tenant.apart_ofConfig .generic .allowAll
    (.update .payOrders)).2 (.update r) (.update r') hfirst hsecond
  rw [if_pos (by decide)] at hcomm
  exact ⟨hfirst, hsecond, hcomm⟩

end RowPolicy
