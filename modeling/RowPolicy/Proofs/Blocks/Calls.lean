import Mathlib.Tactic.Choose
import RowPolicy.Enforcer
import RowPolicy.Proofs.Blocks.Lockstep

/-!
# What a policy is called for

`Policy.traced` is a policy that notes the calls of its hooks. It does what the policy itself does,
and what it notes is known before it starts: the blocks that the outline lists, each behind the
blocks inside of it and none that a hook brings in, then the hooks for the whole statement
(`Policy.traced_run`). No policy is called for the blocks in the settings or the chained operators
of a query, so all blocks of a statement are called for if and only if none of them is there
(`Statement.callsFor_occurrences_iff`).
-/

namespace RowPolicy.Sql

/-! ## Traced computations -/

section Traced

variable {m : Type → Type} [Monad m] {α β : Type}

/-- Whether `y` is `x` with the notes `es` made, all answers of `x` satisfying `P`. -/
def Traced (P : α → Prop) (es : List Event) (x : m α) (y : StateT (List Event) m α) : Prop :=
  ∃ w : m { a // P a }, Subtype.val <$> w = x ∧
    ∀ log, y.run log = (fun a => (a.1, log ++ es)) <$> w

variable [LawfulMonad m] {P : α → Prop} {Q : β → Prop} {es es' : List Event} {x : m α}
  {y : StateT (List Event) m α}

theorem Traced.pure {a : α} (h : P a) : Traced P [] (pure a : m α) (pure a) :=
  ⟨Pure.pure ⟨a, h⟩, by simp, fun log => by simp⟩

/-- One computation after the other makes the notes of both. -/
theorem Traced.bind {k : α → m β} {k' : α → StateT (List Event) m β} (h : Traced P es x y)
    (hk : ∀ a, P a → Traced Q es' (k a) (k' a)) : Traced Q (es ++ es') (x >>= k) (y >>= k') := by
  obtain ⟨w, rfl, hy⟩ := h
  choose w' hw' hk' using fun a : { a // P a } => hk a.1 a.2
  refine ⟨w >>= w', ?_, fun log => ?_⟩
  · simp [← hw']
  · simp [hy, hk', List.append_assoc]

theorem Traced.run_eq (h : Traced P es x y) (log : List Event) :
    y.run log = (fun a => (a, log ++ es)) <$> x := by
  obtain ⟨w, rfl, hy⟩ := h
  simp [hy]

/-- A computation that notes an event first. -/
def noted (e : Event) (x : m α) : StateT (List Event) m α := do
  modify (· ++ [e])
  StateT.lift x

theorem traced_noted (e : Event) (x : m α) : Traced (fun _ => True) [e] x (noted e x) :=
  ⟨(fun a => ⟨a, trivial⟩) <$> x, by simp, fun log => by simp [noted]⟩

theorem traced_lift (x : m α) : Traced (fun _ => True) [] x (StateT.lift x) :=
  ⟨(fun a => ⟨a, trivial⟩) <$> x, by simp, fun log => by simp⟩

end Traced

theorem keeps_select (s : Scope) (b b' : Select) : Keeps (Select.mapBlocks makeHole s) b b' := by
  rw [Keeps, Select.mapBlocks_eq, Select.mapBlocks_eq]
  rfl

section Logged

variable {m : Type → Type} [Monad m] (f : Scope → Select → m Select)

/-- A function that notes each call of `f` before it is made. -/
def logged (s : Scope) (b : Select) : StateT (List Event) m Select :=
  noted (.select s (b.shell s)) (f s b)

variable [LawfulMonad m]

theorem lockstep_logged : Lockstep f (logged f) Traced where
  pure := Traced.pure
  bind := Traced.bind
  call {s b b'} h := by
    refine ⟨(fun a => ⟨a, keeps_select s b a⟩) <$> f s b', by simp, fun log => ?_⟩
    simp [logged, noted, h]

end Logged

/-- Traversals that change nothing do not fail. -/
theorem lockstep_succeeds : Lockstep (fun _ b => (.ok b : Except PolicyError Select))
    (fun _ b => (pure b : Id Select)) fun P _ x _ => ∃ a, P a ∧ x = .ok a where
  pure {_ _ a} h := ⟨a, h, rfl⟩
  bind := by
    rintro α β P Q es es' x y k k' ⟨a, ha, rfl⟩ hk
    exact hk a ha
  call {s b b'} _ := ⟨b', keeps_select s b b', rfl⟩

/-- The calls of hooks that follow those for blocks. -/
def Statement.hookEvents : Statement → List Event
  | .insert _ => [.insert, .statement]
  | .update _ => [.update, .statement]
  | .delete _ => [.delete, .statement]
  | .select _ => [.query, .statement]
  | .other _ => [.statement]

end RowPolicy.Sql

namespace RowPolicy

open Sql

namespace Policy

variable {m : Type → Type} [Monad m]

/-- A policy that notes the calls of its hooks. -/
def traced (p : Policy m) : Policy (StateT (List Event) m) where
  name := p.name
  strict := p.strict
  appliesTo := p.appliesTo
  insert c i := noted .insert (p.insert c i)
  update c u := noted .update (p.update c u)
  delete c d := noted .delete (p.delete c d)
  select c := logged (p.select c)
  query c q := noted .query (p.query c q)
  statement c s := noted .statement (p.statement c s)

variable [LawfulMonad m] [MonadExceptOf PolicyError m]

theorem traced_checkWidths (p : Policy m) (before after : Insertion) :
    Traced (fun _ => True) [] (p.checkWidths before after)
      (p.traced.checkWidths before after) := by
  unfold checkWidths
  split
  · exact traced_lift (throw _)
  · exact Traced.pure trivial

/-- **A run of a policy is called for the blocks of the statement that are not aside**, in the order
of the outline, and then for the whole statement, whatever its hooks answer. -/
theorem traced_run (p : Policy m) (c : Context) (s : Statement) :
    Traced (fun _ => True) (eventsOf s.occurrences ++ s.hookEvents) (p.run c s)
      (p.traced.run c s) := by
  have hlock := lockstep_logged (p.select c)
  have hp : Place.outermost.aside = false := rfl
  unfold run
  cases s with
  | insert i =>
    simp only [pure_bind]
    refine (i.lockstep hlock hp).bind fun i' _ => ?_
    refine (traced_noted .insert _).bind fun i'' _ => ?_
    exact (traced_checkWidths p i' i'').bind fun _ _ => traced_noted .statement _
  | update u =>
    simp only [pure_bind]
    refine (u.lockstep hlock hp).bind fun u' _ => ?_
    exact (traced_noted .update _).bind fun _ _ => traced_noted .statement _
  | delete d =>
    simp only [pure_bind]
    refine (d.lockstep hlock hp).bind fun d' _ => ?_
    exact (traced_noted .delete _).bind fun _ _ => traced_noted .statement _
  | select q =>
    simp only [pure_bind]
    refine (q.lockstep hlock hp).bind fun q' _ => ?_
    exact (traced_noted .query _).bind fun _ _ => traced_noted .statement _
  | other text =>
    simp only [pure_bind]
    exact traced_noted .statement _

end Policy

/-- Whether each run of each policy on a statement is called for just these blocks, in this order,
and then for the whole statement, and does nothing that a policy without notes does not. -/
def Sql.Statement.CallsFor (s : Statement) (os : List Occurrence) : Prop :=
  ∀ (m : Type → Type) [Monad m] [LawfulMonad m] [MonadExceptOf PolicyError m] (p : Policy m)
    (c : Context) (log : List Event),
    (p.traced.run c s).run log =
      (fun r => (r, log ++ (os.map Occurrence.event ++ s.hookEvents))) <$> p.run c s

namespace Sql.Statement

theorem callsFor_notAside (s : Statement) :
    s.CallsFor (s.occurrences.filter (!·.place.aside)) := by
  intro m _ _ _ p c log
  exact (p.traced_run c s).run_eq log

/-- The policy without hooks. -/
def idlePolicy : Policy (Except PolicyError) where
  name := ""

theorem checkWidths_self (i : Insertion) : idlePolicy.checkWidths i i = .ok i := by
  unfold Policy.checkWidths
  cases i.misfits <;> rfl

/-- The policy without hooks does not fail. -/
theorem run_idlePolicy (c : Context) (s : Statement) : ∃ r, idlePolicy.run c s = .ok r := by
  have hp : Place.outermost.aside = false := rfl
  unfold Policy.run
  cases s with
  | insert i =>
    obtain ⟨i', -, hi⟩ := i.lockstep lockstep_succeeds hp
    have hi' : i.mapBlocks (idlePolicy.select c) .empty = .ok i' := hi
    refine ⟨.insert i', ?_⟩
    simp only [hi']
    change (idlePolicy.checkWidths i' i' >>= fun i => pure (Statement.insert i)) = _
    rw [checkWidths_self]
    rfl
  | update u =>
    obtain ⟨u', -, hu⟩ := u.lockstep lockstep_succeeds hp
    have hu' : u.mapBlocks (idlePolicy.select c) .empty = .ok u' := hu
    exact ⟨.update u', by simp only [hu']; rfl⟩
  | delete d =>
    obtain ⟨d', -, hd⟩ := d.lockstep lockstep_succeeds hp
    have hd' : d.mapBlocks (idlePolicy.select c) .empty = .ok d' := hd
    exact ⟨.delete d', by simp only [hd']; rfl⟩
  | select q =>
    obtain ⟨q', -, hq⟩ := q.lockstep lockstep_succeeds hp
    have hq' : q.mapBlocks (idlePolicy.select c) .empty = .ok q' := hq
    exact ⟨.select q', by simp only [hq']; rfl⟩
  | other text => exact ⟨.other text, rfl⟩

/-- The calls of a statement are no others. -/
theorem CallsFor.unique {s : Statement} {os os' : List Occurrence} (h : s.CallsFor os)
    (h' : s.CallsFor os') : os.map Occurrence.event = os'.map Occurrence.event := by
  obtain ⟨r, hr⟩ := run_idlePolicy .empty s
  have heq := (h (Except PolicyError) idlePolicy .empty []).symm.trans
    (h' (Except PolicyError) idlePolicy .empty [])
  rw [hr] at heq
  have hlog := congrArg Prod.snd (Except.ok.inj heq)
  simpa using hlog

theorem callsFor_iff_notAside (s : Statement) :
    s.CallsFor s.occurrences ↔ ∀ o ∈ s.occurrences, o.place.aside = false := by
  constructor
  · intro h o ho
    have hlength := congrArg List.length (h.unique s.callsFor_notAside)
    simp only [List.length_map] at hlength
    simpa using List.length_filter_eq_length_iff.mp hlength.symm o ho
  · intro h
    have hfilter : s.occurrences.filter (!·.place.aside) = s.occurrences :=
      List.filter_eq_self.mpr fun o ho => by simpa using h o ho
    exact hfilter ▸ s.callsFor_notAside

/-- **All blocks of a statement are called for if and only if none is aside.** In any case the calls
are those for the blocks that are not aside, once each and in the order of the outline, in which
each block stands directly behind those inside of it, and then those for the whole statement. -/
theorem callsFor_occurrences_iff (s : Statement) :
    s.CallsFor (s.occurrences.filter (!·.place.aside)) ∧
    (∀ pre o post, s.occurrences.filter (!·.place.aside) = pre ++ o :: post →
      (itemsOccurrences o.place o.inside).filter (!·.place.aside) <:+ pre) ∧
    (s.CallsFor s.occurrences ↔ ∀ o ∈ s.occurrences, o.place.aside = false) :=
  ⟨s.callsFor_notAside, fun _ _ _ => (itemsPostOrdered _ s.outline).filter _,
    s.callsFor_iff_notAside⟩

end Sql.Statement

/-- All rows of a table. -/
def Sql.Select.allOf (table : String) : Select where
  form := .standard
  distinct := []
  top := []
  projection := [.wildcard [.text "*"]]
  into := ""
  sources := [⟨.table [.plain table] "" none "" none [], []⟩]
  beforeWhere := []
  selection := none
  grouping := []
  windows := []
  qualify := []
  windowsFirst := false
  connect := []

/-- `FROM users |> WHERE id IN (SELECT * FROM orders)` -/
def Sql.Query.usersWithOrders : Query :=
  { Query.ofBody (.select { Select.allOf "users" with form := .fromOnly, projection := [] }) with
    chain := [.text " |> WHERE ", .expr (.phrase [.expr (.column [.plain "id"]), .text " IN (",
      .query (.ofBody (.select (.allOf "orders"))), .text ")"])] }

/-- No policy is called for the orders in a chained operator. -/
theorem not_callsFor_usersWithOrders :
    ¬ (Statement.select .usersWithOrders).CallsFor
      (Statement.select .usersWithOrders).occurrences := by
  rw [Statement.callsFor_iff_notAside]
  intro h
  have haside : (Statement.select .usersWithOrders).occurrences.map (·.place.aside) =
      [false, true] := rfl
  have hmem : true ∈ (Statement.select .usersWithOrders).occurrences.map (·.place.aside) := by
    rw [haside]
    decide
  obtain ⟨o, ho, htrue⟩ := List.mem_map.mp hmem
  rw [h o ho] at htrue
  exact absurd htrue (by decide)

end RowPolicy
