import RowPolicy.Proofs.Blocks.Calls

/-!
# The scope that a policy is given

A name is *visible* at a place if a query around it declares it: in a body of a `WITH` that is not
recursive, only the names before that body count. A name is *ahead* if such a `WITH` declares it at
the body or behind it. A policy is given the names that are visible or ahead
(`Place.isCte_scope_iff`), so the scope is right if and only if all names ahead are visible too.
-/

namespace RowPolicy.Sql

/-! ## Visible names -/

/-- The names of a `WITH` that are visible where a frame says. -/
def Frame.visible (f : Frame) : List String :=
  match f.position with
  | some k => if f.recursive then f.names else f.names.take k
  | none => f.names

/-- The names of a `WITH` that are declared only at or behind where a frame says. -/
def Frame.ahead (f : Frame) : List String :=
  match f.position with
  | some k => if f.recursive then [] else f.names.drop k
  | none => []

theorem Frame.visible_append_ahead (f : Frame) : f.visible ++ f.ahead = f.names := by
  unfold visible ahead
  cases f.position with
  | none => exact List.append_nil _
  | some k =>
    cases f.recursive with
    | false => exact List.take_append_drop k f.names
    | true => exact List.append_nil _

namespace Place

/-- Whether a name denotes a named query at a place. -/
def Visible (p : Place) (name : String) : Prop :=
  ∃ f ∈ p.frames, ∃ x ∈ f.visible, Text.sameName x name

/-- Whether a `WITH` declares a name, at or behind the body that a place is in. -/
def Ahead (p : Place) (name : String) : Prop :=
  ∃ f ∈ p.frames, ∃ x ∈ f.ahead, Text.sameName x name

theorem isCte_declare (s : Scope) (names : List String) (name : String) :
    (s.declare names).isCte name = (s.isCte name || names.any (Text.sameName · name)) := by
  simp [Scope.isCte, Scope.declare, List.any_map, Function.comp_def, Text.sameName_fold]

/-- Names that are declared frame by frame. -/
theorem isCte_foldl_declare (names : Frame → List String) (fs : List Frame) (s : Scope)
    (name : String) : (fs.foldl (fun s f => s.declare (names f)) s).isCte name =
      (s.isCte name || fs.any fun f => (names f).any (Text.sameName · name)) := by
  induction fs generalizing s with
  | nil => simp
  | cons f fs ih => rw [List.foldl_cons, ih, isCte_declare, List.any_cons, Bool.or_assoc]

/-- The scope of a place has all names that the queries around it declare. -/
theorem isCte_scope (p : Place) (name : String) :
    p.scope.isCte name = p.frames.any fun f => f.names.any (Text.sameName · name) := by
  rw [scope, isCte_foldl_declare]
  rfl

/-- These are the visible ones and those ahead. -/
theorem isCte_scope_iff (p : Place) (name : String) :
    p.scope.isCte name = true ↔ p.Visible name ∨ p.Ahead name := by
  rw [isCte_scope, List.any_eq_true]
  constructor
  · rintro ⟨f, hf, hname⟩
    rw [← f.visible_append_ahead, List.any_append, Bool.or_eq_true] at hname
    rcases hname with h | h
    · exact .inl ⟨f, hf, List.any_eq_true.mp h⟩
    · exact .inr ⟨f, hf, List.any_eq_true.mp h⟩
  · rintro (⟨f, hf, h⟩ | ⟨f, hf, h⟩) <;>
      refine ⟨f, hf, ?_⟩ <;>
      rw [← f.visible_append_ahead, List.any_append, Bool.or_eq_true]
    · exact .inl (List.any_eq_true.mpr h)
    · exact .inr (List.any_eq_true.mpr h)

/-- A bare name is taken for a named query where the scope has it. -/
theorem baseTable?_eq_none_iff (p : Place) (i : Ident) :
    p.scope.baseTable? [i] = none ↔ p.Visible i.value ∨ p.Ahead i.value := by
  rw [← isCte_scope_iff]
  cases h : p.scope.isCte i.value <;> simp [Scope.baseTable?, Name.last?, h]

end Place

/-! ## Statements -/

namespace Statement

/-- **The scopes that policies are given are right if and only if no name is ahead that is not
visible too.** In any case a policy is given the names that are visible or ahead at the place of a
block, and a bare name of a table is passed over where it is one of these. -/
theorem scopes_right_iff (s : Statement) :
    s.CallsFor (s.occurrences.filter (!·.place.aside)) ∧
    (∀ o ∈ s.occurrences, ∀ name,
      o.place.scope.isCte name = true ↔ o.place.Visible name ∨ o.place.Ahead name) ∧
    (∀ o ∈ s.occurrences, ∀ i : Ident,
      o.place.scope.baseTable? [i] = none ↔ o.place.Visible i.value ∨ o.place.Ahead i.value) ∧
    ((∀ o ∈ s.occurrences.filter (!·.place.aside), ∀ name,
        o.place.scope.isCte name = true ↔ o.place.Visible name) ↔
      ∀ o ∈ s.occurrences.filter (!·.place.aside), ∀ name,
        o.place.Ahead name → o.place.Visible name) := by
  refine ⟨s.callsFor_notAside, fun o _ => o.place.isCte_scope_iff,
    fun o _ => o.place.baseTable?_eq_none_iff, ?_⟩
  refine forall₂_congr fun o _ => forall_congr' fun name => ?_
  rw [o.place.isCte_scope_iff]
  exact or_iff_left_iff_imp

end Statement

/-- `WITH orders AS (SELECT * FROM orders) SELECT * FROM orders` -/
def Query.ordersOfOrders : Query :=
  { Query.ofBody (.select (.allOf "orders")) with
    ctes := [⟨.plain "orders", "", "", .ofBody (.select (.allOf "orders")), ""⟩] }

/-- The table in the body of a `WITH` that is not recursive is taken for the query of its name. -/
theorem not_visible_ordersOfOrders :
    ∃ o ∈ (Statement.select .ordersOfOrders).occurrences.filter (!·.place.aside),
      o.place.scope.isCte "orders" = true ∧ o.place.scope.baseTable? [.plain "orders"] = none ∧
      ¬ o.place.Visible "orders" := by
  refine ⟨⟨⟨[⟨false, ["orders"], some 0⟩, ⟨false, [], none⟩], false⟩, .allOf "orders", []⟩,
    List.mem_cons_self, by decide +kernel, by decide +kernel, ?_⟩
  rintro ⟨f, hf, x, hx, -⟩
  simp only [List.mem_cons, List.not_mem_nil, or_false] at hf
  rcases hf with rfl | rfl <;> simp [Frame.visible] at hx

end RowPolicy.Sql
