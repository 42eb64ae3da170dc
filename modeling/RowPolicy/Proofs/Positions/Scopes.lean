import RowPolicy.Proofs.Blocks.Identity
import RowPolicy.Proofs.Order.Succession
import RowPolicy.Proofs.Positions.Places
import RowPolicy.Proofs.Tables.Reached

/-!
# Names around a query

A restraint looks at the names around a block only to tell tables from named queries. So it makes of
a query the same wherever the query stands, if the query uses no name that is declared around it
(`Restraint.mapBlocks_scope_eq_ok_iff`).
-/

namespace RowPolicy.Sql

/-! ## Scopes at a place -/

/-- A scope in what stands at a place. -/
def Scope.under (p : Place) (s : Scope) : Scope :=
  ⟨p.scope.ctes ++ s.ctes⟩

section Under

variable (p : Place)

theorem Scope.under_empty : Scope.under p .empty = p.scope :=
  congrArg Scope.mk (List.append_nil _)

theorem Scope.under_declare (s : Scope) (names : List String) :
    Scope.under p (s.declare names) = (Scope.under p s).declare names :=
  congrArg Scope.mk (List.append_assoc ..).symm

theorem Scope.isCte_under (s : Scope) (name : String) :
    (Scope.under p s).isCte name = (p.scope.isCte name || s.isCte name) :=
  List.any_append

/-- A traversal at a place is one that sees the names there as well. -/
theorem Query.mapBlocks_under {m : Type → Type} [Monad m] [LawfulMonad m]
    (f : Scope → Select → m Select) (s : Scope) (q : Query) :
    q.mapBlocks f (.under p s) = q.mapBlocks (fun s => f (.under p s)) s := by
  have H : Retraces (fun _ b => pure b) f (fun s => f (.under p s))
      (fun s s₂ => s₂ = Scope.under p s) Eq :=
    { declare := fun names hs => hs ▸ (Scope.under_declare p _ names).symm
      pure := fun _ => rfl
      bind := by
        rintro α β x _ k k' rfl hk
        exact congrArg (x >>= ·) (funext hk)
      call := by
        rintro s s₂ b b₁ b' rfl hb₁ hinner hb'
        rw [Select.mapInner_pure] at hb₁
        cases hb₁
        cases hb'
        rw [Select.mapBlocks_eq, Select.mapBlocks_eq, hinner] }
  exact q.retraced H rfl q (q.mapBlocks_pure s)

/-- The holes in a shell are where the blocks are, whatever names are around. -/
theorem Select.shell_scope (s s' : Scope) (b : Select) : b.shell s = b.shell s' := by
  have H : Retraces (fun _ b => pure b) makeHole makeHole (fun _ _ => True) Eq :=
    { declare := fun _ _ => trivial
      pure := fun _ => rfl
      bind := by
        rintro α β x _ k k' rfl hk
        exact congrArg (x >>= ·) (funext hk)
      call := by
        rintro s s₂ b b₁ b' - hb₁ hinner hb'
        rw [Select.mapInner_pure] at hb₁
        cases hb₁
        cases hb'
        rw [Select.mapBlocks_eq, Select.mapBlocks_eq]
        rfl }
  exact b.retracedInner H trivial b b.mapInner_pure

end Under

/-! ## Blocks that see the same -/

/-- Whether a block is seen alike with the names at a place around it. -/
def Event.Same (p : Place) : Event → Prop
  | .select s shell =>
    (RowBlock.select (.under p s) shell).sight = (RowBlock.select s shell).sight
  | _ => True

namespace Restraint

variable (w : Restraint)

theorem block_eq_ok_of_sight {s s' : Scope} {b r : Select}
    (h : (RowBlock.select s b).sight = (RowBlock.select s' b).sight) (hr : w.block s b = .ok r) :
    w.block s' b = .ok r := by
  obtain ⟨as, has, rfl⟩ := w.block_eq_ok_iff.mp hr
  obtain ⟨as', has', hhomed⟩ := w.alike h has
  exact w.block_eq_ok_iff.mpr ⟨as', has', Select.amended_of_homed hhomed.symm b⟩

/-- Traversals with and without the names at a place leave the same, if no block tells the two
apart. -/
theorem lockstep_under (p : Place) : Lockstep w.block (fun s => w.block (.under p s))
    (fun P es x y => (∀ e ∈ es, Event.Same p e) →
      After P x ∧ ∀ r, x = .ok r ↔ y = .ok r) where
  pure h _ := ⟨.pure h, fun _ => .rfl⟩
  bind h hk hes := by
    obtain ⟨hes₁, hes₂⟩ := List.forall_mem_append.mp hes
    obtain ⟨hP, hxy⟩ := h hes₁
    refine ⟨hP.bind fun a ha => (hk a ha hes₂).1, fun r => ?_⟩
    rw [bind_eq_ok_iff, bind_eq_ok_iff]
    refine exists_congr fun a => ?_
    rw [← hxy a]
    exact and_congr_right fun ha => (hk a (hP a ha) hes₂).2 r
  call {s b b'} hshell hes := by
    have hsame := hes _ (List.mem_singleton_self _)
    -- What is known of the shell of the block is known of what has become of the block.
    have hsight : (RowBlock.select (.under p s) b').sight = (RowBlock.select s b').sight := by
      rw [← RowBlock.sight_shell (.select s b'), ← RowBlock.sight_shell (.select (.under p s) b'),
        RowBlock.shell_select, RowBlock.shell_select, Select.shell_scope _ s b', hshell]
      exact hsame
    exact ⟨fun r _ => keeps_select s b r,
      fun r => ⟨w.block_eq_ok_of_sight hsight.symm, w.block_eq_ok_of_sight hsight⟩⟩

end Restraint

/-! ## Queries that avoid names -/

/-- Whether a query uses no name that is declared around a place, but for those that it declares
itself. -/
def Query.Avoids (q : Query) (p : Place) : Prop :=
  ∀ o ∈ q.outline.occurrences .outermost, o.place.aside = false →
    ∀ x ∈ treesNamed o.block.sources, ∀ i, x.1 = [i] →
      p.scope.isCte i.value = true → o.place.scope.isCte i.value = true

theorem baseTable?_under {p : Place} {s : Scope} {name : Name}
    (h : ∀ i, name = [i] → p.scope.isCte i.value = true → s.isCte i.value = true) :
    (Scope.under p s).baseTable? name = s.baseTable? name := by
  have hcte : ∀ i, name = [i] → (Scope.under p s).isCte i.value = s.isCte i.value := by
    intro i hi
    rw [Scope.isCte_under, Bool.or_eq_right_iff_imp]
    exact h i hi
  rcases name with _ | ⟨i, _ | ⟨j, rest⟩⟩
  · rfl
  · simp [Scope.baseTable?, Name.last?, hcte i rfl]
  · simp [Scope.baseTable?]

theorem Query.Avoids.same {q : Query} {p : Place} (h : q.Avoids p) :
    ∀ e ∈ eventsOf (q.outline.occurrences .outermost), Event.Same p e := by
  intro e he
  obtain ⟨o, ho, rfl⟩ := List.mem_map.mp he
  obtain ⟨ho, haside⟩ := List.mem_filter.mp ho
  have hsteps : (RowBlock.select (.under p o.place.scope) o.block).steps =
      (RowBlock.select o.place.scope o.block).steps :=
    RowBlock.steps_select_of_named fun x hx =>
      baseTable?_under (h o ho (by simpa using haside) x hx)
  have hshell := RowBlock.sight_shell (.select (.under p o.place.scope) o.block)
  rw [RowBlock.shell_select, Select.shell_scope _ o.place.scope] at hshell
  have hshell' := RowBlock.sight_shell (.select o.place.scope o.block)
  rw [RowBlock.shell_select] at hshell'
  change (RowBlock.select _ (o.block.shell _)).sight = (RowBlock.select _ (o.block.shell _)).sight
  rw [hshell, hshell', RowBlock.sight, RowBlock.sight, hsteps]
  rfl

/-- **A restraint makes the same of a query at a place as of the query alone**, if the query avoids
the names around the place. -/
theorem Restraint.mapBlocks_scope_eq_ok_iff (w : Restraint) {q r : Query} {p : Place}
    (h : q.Avoids p) :
    q.mapBlocks w.block p.scope = .ok r ↔ q.mapBlocks w.block .empty = .ok r := by
  have hlock := q.lockstep (w.lockstep_under p) (p := .outermost) rfl
  rw [events_singleton] at hlock
  rw [← Scope.under_empty, Query.mapBlocks_under]
  exact ((hlock h.same).2 r).symm

end RowPolicy.Sql
