import RowPolicy.Proofs.Positions.Rewritten
import RowPolicy.Proofs.Tables.Tenants

/-!
# Blocks of an insertion with another column

Where an insertion gets another column, at most one of its blocks changes: the one that yields its
rows has one more item. The value of the column may bring blocks of its own, in each row
(`Insertion.widened_appendColumn`).
-/

namespace RowPolicy.Sql

/-! ## Lists with one element changed -/

section OnceBy

variable {α β : Type} {g : α → α}

/-- Whether a list is another one with at most one element changed by a function. -/
def OnceBy (g : α → α) (xs xs' : List α) : Prop :=
  xs' = xs ∨ ∃ pre x post, xs = pre ++ x :: post ∧ xs' = pre ++ g x :: post

theorem OnceBy.within {xs xs' : List α} (h : OnceBy g xs xs') (pre post : List α) :
    OnceBy g (pre ++ xs ++ post) (pre ++ xs' ++ post) := by
  rcases h with rfl | ⟨before, x, behind, rfl, rfl⟩
  · exact .inl rfl
  · exact .inr ⟨pre ++ before, x, behind ++ post, by simp, by simp⟩

/-- Of two lists in a row at most one has a changed element. -/
theorem OnceBy.exists_append {xs ys zs : List α} (h : OnceBy g (xs ++ ys) zs) :
    ∃ xs' ys', zs = xs' ++ ys' ∧ xs'.length = xs.length ∧ ys'.length = ys.length ∧
      OnceBy g xs xs' ∧ OnceBy g ys ys' := by
  rcases h with rfl | ⟨pre, x, post, hsplit, rfl⟩
  · exact ⟨xs, ys, rfl, rfl, rfl, .inl rfl, .inl rfl⟩
  rcases List.append_eq_append_iff.mp hsplit with ⟨mid, rfl, rfl⟩ | ⟨mid, rfl, hpost⟩
  · exact ⟨xs, mid ++ g x :: post, by simp, rfl, by simp, .inl rfl, .inr ⟨mid, x, post, rfl, rfl⟩⟩
  · cases mid with
    | nil =>
      obtain rfl : x :: post = ys := hpost
      exact ⟨pre, g x :: post, rfl, by simp, by simp, .inl (List.append_nil _).symm,
        .inr ⟨[], x, post, rfl, rfl⟩⟩
    | cons x' mid =>
      obtain ⟨rfl, rfl⟩ := List.cons.inj hpost
      exact ⟨pre ++ g x :: mid, ys, by simp, by simp, rfl, .inr ⟨pre, x, mid, rfl, rfl⟩, .inl rfl⟩

theorem OnceBy.filterMap {g' : β → β} {h : α → Option β} (hg : ∀ x, h (g x) = (h x).map g')
    {xs xs' : List α} (hxs : OnceBy g xs xs') :
    OnceBy g' (xs.filterMap h) (xs'.filterMap h) := by
  rcases hxs with rfl | ⟨pre, x, post, rfl, rfl⟩
  · exact .inl rfl
  rw [List.filterMap_append, List.filterMap_append, List.filterMap_cons, List.filterMap_cons, hg]
  cases h x with
  | none => exact .inl rfl
  | some y => exact .inr ⟨_, y, _, rfl, rfl⟩

end OnceBy

/-! ## Another value -/

/-- A block with another value in each row. -/
def Select.withColumn (value : Expr) (b : Select) : Select :=
  { b with projection := b.projection ++ [.expr value] }

/-- A block at its place with another value in each row. -/
def placedWithColumn (value : Expr) (x : Place × Select) : Place × Select :=
  (x.1, x.2.withColumn value)

/-- Whether some blocks are others, of which at most one has another value in each row, and besides
these only blocks of such values. -/
def Widened (value : Expr) (xs xs' : List (Place × Select)) : Prop :=
  ∃ ys, OnceBy (placedWithColumn value) xs ys ∧ ys.Sublist xs' ∧ (value.outline = [] → xs' = ys)

section Widened

variable {value : Expr} {xs xs' : List (Place × Select)}

theorem Widened.refl (xs : List (Place × Select)) : Widened value xs xs :=
  ⟨xs, .inl rfl, .refl xs, fun _ => rfl⟩

theorem Widened.within (h : Widened value xs xs') (pre post : List (Place × Select)) :
    Widened value (pre ++ xs ++ post) (pre ++ xs' ++ post) := by
  obtain ⟨ys, honce, hsub, heq⟩ := h
  refine ⟨pre ++ ys ++ post, honce.within pre post, ?_, fun hvalue => by rw [heq hvalue]⟩
  exact ((List.Sublist.refl pre).append hsub).append (.refl post)

/-- The value is one more expression among some. -/
theorem widened_append (value : Expr) (p : Place) (is : List Item) :
    Widened value (placedBlocks p is) (placedBlocks p (is ++ value.outline)) := by
  refine ⟨_, .inl rfl, ?_, fun hvalue => by rw [hvalue, List.append_nil]⟩
  rw [placedBlocks_append]
  exact List.sublist_append_left ..

theorem outlineExprs_append (es es' : List Expr) :
    outlineExprs (es ++ es') = outlineExprs es ++ outlineExprs es' := by
  induction es with
  | nil => rfl
  | cons e es ih => rw [List.cons_append, outlineExprs, outlineExprs, ih, List.append_assoc]

theorem outlineItems_append (is is' : List SelectItem) :
    outlineItems (is ++ is') = outlineItems is ++ outlineItems is' := by
  induction is with
  | nil => rfl
  | cons i is ih =>
    cases i <;> rw [List.cons_append, outlineItems, outlineItems, ih, List.append_assoc]

theorem outlineAssignments_append (as as' : List Assignment) :
    outlineAssignments (as ++ as') = outlineAssignments as ++ outlineAssignments as' := by
  induction as with
  | nil => rfl
  | cons a as ih =>
    cases a
    rw [List.cons_append, outlineAssignments, outlineAssignments, ih, List.append_assoc]

theorem outlineAssignments_concat (as : List Assignment) (column : String) (value : Expr) :
    outlineAssignments (as ++ [.ofColumn column value]) =
      outlineAssignments as ++ value.outline := by
  rw [outlineAssignments_append, Assignment.ofColumn, outlineAssignments, outlineAssignments,
    List.append_nil]

theorem outlineExprs_singleton (e : Expr) : outlineExprs [e] = e.outline := by
  rw [outlineExprs, outlineExprs, List.append_nil]

/-- The value is one more in each row of values. -/
theorem widened_rows (value : Expr) (p : Place) (rows : List (List Expr)) :
    Widened value (placedBlocks p (outlineRows rows))
      (placedBlocks p (outlineRows (rows.map (· ++ [value])))) := by
  refine ⟨_, .inl rfl, ?_, fun hvalue => congrArg (placedBlocks p) ?_⟩
  · induction rows with
    | nil => exact .refl _
    | cons row rows ih =>
      rw [List.map_cons, outlineRows, outlineRows, outlineExprs_append, placedBlocks_append,
        placedBlocks_append, placedBlocks_append]
      exact (List.sublist_append_left ..).append ih
  · induction rows with
    | nil => rfl
    | cons row rows ih =>
      rw [List.map_cons, outlineRows, outlineRows, ih, outlineExprs_append, outlineExprs_singleton,
        hvalue, List.append_nil]

/-- The value is one more in each row that a block yields. -/
theorem widened_select (value : Expr) (p : Place) (b : Select) :
    Widened value (placedBlocks p [b.outline]) (placedBlocks p [(b.withColumn value).outline]) := by
  obtain ⟨form, distinct, top, projection, into, sources, beforeWhere, selection, grouping,
    windows, qualify, windowsFirst, connect⟩ := b
  have hitems : outlineItems (projection ++ [.expr value]) =
      outlineItems projection ++ value.outline := by
    rw [outlineItems_append, outlineItems, outlineItems, List.append_nil]
  simp only [Select.withColumn, Select.outline, hitems, placedBlocks_singleton, Item.occurrences,
    List.map_append]
  refine ⟨_, .inr ⟨_, _, [], rfl, rfl⟩, .append (List.Sublist.map _ ?_) (.refl _),
    fun hvalue => ?_⟩
  · simp only [itemsOccurrences_append]
    exact .append (.refl _) (.append (.refl _)
      (.append (List.sublist_append_left ..) (.refl _)))
  · rw [hvalue, List.append_nil]
    rfl

/-- Another value in each row of a body. -/
theorem widened_withValue {b b' : Body} (h : b.withValue value = .ok b') (p : Place) :
    Widened value (placedBlocks p b.outline) (placedBlocks p b'.outline) := by
  cases b with
  | values keyword explicitRow rows =>
    cases h
    exact widened_rows value p rows
  | select b =>
    cases h
    exact widened_select value p b
  | _ => cases h

end Widened

/-- **Another column of an insertion changes at most one block**, and brings no others than those of
its value. -/
theorem Insertion.widened_appendColumn (i : Insertion) (column : String) (value : Expr) :
    Widened value (placedBlocks .outermost i.outline)
      (placedBlocks .outermost (i.appendColumn column value).2.outline) := by
  rcases Tenant.appendColumn_cases i column value with ⟨-, h⟩ | h | ⟨q, body, hq, hbody, h⟩ |
    ⟨_, -, -, h⟩ <;> rw [h]
  · exact .refl _
  · obtain ⟨head, table, naming, columns, partition, source, assignments, rowAlias, onConflict,
      returning⟩ := i
    have hwidened := (widened_append value .outermost (outlineAssignments assignments)).within
      (placedBlocks .outermost (outlineSource source))
    simp only [Insertion.outline, outlineAssignments_concat, placedBlocks_append,
      List.append_assoc] at hwidened ⊢
    exact hwidened _
  -- The value stands in each row of the source, which is one level further in.
  · cases i
    obtain ⟨recursive, ctes, b, orderBy, limit, settings, fetch, tail, chain⟩ := q
    cases hq
    have hwidened := (widened_withValue hbody
      (Place.outermost.enter ⟨recursive, namedNames (outlineCtes ctes), none⟩)).within
        ((namedOccurrences .outermost recursive (namedNames (outlineCtes ctes)) 0
          (outlineCtes ctes)).map Occurrence.placed)
    simp only [Insertion.outline, outlineSource, Query.outline, placedBlocks, Item.occurrences,
      itemsOccurrences, itemsOccurrences_append, List.map_append, List.append_assoc,
      List.nil_append] at hwidened ⊢
    exact hwidened _
  · exact .refl _

end RowPolicy.Sql
