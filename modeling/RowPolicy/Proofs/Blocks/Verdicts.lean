import RowPolicy.Proofs.Blocks.Calls
import RowPolicy.Proofs.Blocks.Hooks
import RowPolicy.Proofs.Blocks.Shells

/-!
# Traversals that restrict blocks

A traversal that restricts blocks goes well if each call for a block has answers, which can be told
from the shell of the block before the traversal starts. Then it leaves the tree that it was given
with these answers behind the conditions of its blocks, one block after another:
`Verdict.eq_ok_iff`.
-/

namespace RowPolicy.Sql

/-! ## Adding answers -/

/-- A select block with the answers for its tables where they belong. -/
def Select.amended (as : List Answer) (b : Select) : Select :=
  { b with
    sources := treesAmended (additions as) 0 b.sources
    selection := Expr.conjoinAll b.selection (answersAt .selection as) }

theorem RowBlock.amended_select (s : Scope) (b : Select) (as : List Answer) :
    (select s b).amended as = select s (b.amended as) :=
  rfl

theorem Select.amended_of_homed {as as' : List Answer} (h : homed as = homed as') (b : Select) :
    b.amended as = b.amended as' :=
  (RowBlock.select.inj (RowBlock.amended_of_homed h (.select .empty b))).2

theorem Select.amended_amended (b : Select) (as bs : List Answer) :
    (b.amended as).amended bs = b.amended (as ++ bs) :=
  (RowBlock.select.inj (RowBlock.amended_amended (.select .empty b) as bs)).2

/-- A block with the next answers; those for the blocks behind it are left. -/
def addAnswers (_ : Scope) (b : Select) : StateM (List (List Answer)) Select :=
  modifyGet fun
    | [] => (b, [])
    | as :: rest => (b.amended as, rest)

/-! ## Verdicts -/

/-- The answers that can be given for a block, by its scope and its shell. -/
abbrev Verdicts :=
  Scope → Select → List Answer → Prop

/-- Whether answers can be given at a call. -/
def Event.Admits (V : Verdicts) (as : List Answer) : Event → Prop
  | .select scope shell => V scope shell as
  | _ => False

/-- Whether a function puts answers behind the conditions of each block that can be given for it. -/
def Governed (f : Scope → Select → Except PolicyError Select) (V : Verdicts) : Prop :=
  ∀ {s : Scope} {b b' : Select}, f s b = .ok b' ↔ ∃ as, V s (b.shell s) as ∧ b' = b.amended as

/-- What becomes of a tree in a traversal with the calls `es`: it goes well if there are answers at
all calls, and then `y` puts these where they belong. -/
structure Verdict (V : Verdicts) {α : Type} (P : α → Prop) (es : List Event)
    (x : Except PolicyError α) (y : StateM (List (List Answer)) α) : Prop where
  exists_of_admits : ∀ marks, List.Forall₂ (fun e as => e.Admits V as) es marks →
    ∃ a, P a ∧ x = .ok a ∧ ∀ rest, y.run (marks ++ rest) = (a, rest)
  exists_marks : ∀ a, x = .ok a → ∃ marks, List.Forall₂ (fun e as => Event.Admits V as e) es marks

/-- What is related to two lists in a row is two lists in a row. -/
theorem exists_append_of_forall₂ {κ μ : Type} {R : κ → μ → Prop} {ks ks' : List κ} {ms : List μ}
    (h : List.Forall₂ R (ks ++ ks') ms) :
    ∃ ms₁ ms₂, List.Forall₂ R ks ms₁ ∧ List.Forall₂ R ks' ms₂ ∧ ms = ms₁ ++ ms₂ := by
  have htake := List.forall₂_take ks.length h
  have hdrop := List.forall₂_drop ks.length h
  rw [List.take_left] at htake
  rw [List.drop_left] at hdrop
  exact ⟨_, _, htake, hdrop, (List.take_append_drop _ ms).symm⟩

section Verdict

variable {V : Verdicts} {α β : Type} {P : α → Prop} {Q : β → Prop} {es es' : List Event}
  {x : Except PolicyError α} {y : StateM (List (List Answer)) α}

theorem Verdict.pure {a : α} (h : P a) : Verdict V P [] (pure a) (pure a) where
  exists_of_admits marks hmarks := by
    cases hmarks
    exact ⟨a, h, rfl, fun rest => rfl⟩
  exists_marks _ _ := ⟨[], .nil⟩

theorem Verdict.bind {k : α → Except PolicyError β} {k' : α → StateM (List (List Answer)) β}
    (h : Verdict V P es x y) (hk : ∀ a, P a → Verdict V Q es' (k a) (k' a)) :
    Verdict V Q (es ++ es') (x >>= k) (y >>= k') where
  exists_of_admits marks hmarks := by
    obtain ⟨marks₁, marks₂, hmarks₁, hmarks₂, rfl⟩ := exists_append_of_forall₂ hmarks
    obtain ⟨a, ha, rfl, hy⟩ := h.exists_of_admits marks₁ hmarks₁
    obtain ⟨b, hb, hkb, hyb⟩ := (hk a ha).exists_of_admits marks₂ hmarks₂
    refine ⟨b, hb, hkb, fun rest => ?_⟩
    rw [List.append_assoc, StateT.run_bind, hy]
    exact hyb rest
  exists_marks b hb := by
    obtain ⟨a, ha, hb⟩ := bind_eq_ok_iff.mp hb
    obtain ⟨marks₁, hmarks₁⟩ := h.exists_marks a ha
    obtain ⟨a', ha', heq, -⟩ := h.exists_of_admits marks₁ hmarks₁
    obtain rfl : a' = a := Except.ok.inj (heq.symm.trans ha)
    obtain ⟨marks₂, hmarks₂⟩ := (hk a' ha').exists_marks b hb
    exact ⟨marks₁ ++ marks₂, List.rel_append hmarks₁ hmarks₂⟩

theorem Verdict.of_eq_ok (h : Verdict V P es x y) {a : α} (ha : x = .ok a) : P a := by
  obtain ⟨marks, hmarks⟩ := h.exists_marks a ha
  obtain ⟨a', hP, heq, -⟩ := h.exists_of_admits marks hmarks
  obtain rfl : a' = a := Except.ok.inj (heq.symm.trans ha)
  exact hP

/-- **A traversal goes well if and only if there are answers at all calls**, and then leaves the
tree with such answers. -/
theorem Verdict.eq_ok_iff (h : Verdict V P es x y) {a : α} :
    x = .ok a ↔ ∃ marks, List.Forall₂ (fun e as => Event.Admits V as e) es marks ∧
      (y.run marks).1 = a := by
  constructor
  · intro ha
    obtain ⟨marks, hmarks⟩ := h.exists_marks a ha
    obtain ⟨a', -, heq, hy⟩ := h.exists_of_admits marks hmarks
    obtain rfl : a' = a := Except.ok.inj (heq.symm.trans ha)
    have hrun := hy []
    rw [List.append_nil] at hrun
    exact ⟨marks, hmarks, congrArg Prod.fst hrun⟩
  · rintro ⟨marks, hmarks, rfl⟩
    obtain ⟨a', -, heq, hy⟩ := h.exists_of_admits marks hmarks
    have hrun := hy []
    rw [List.append_nil] at hrun
    rw [heq, hrun]

end Verdict

/-- Traversals that restrict blocks go by their verdicts. -/
theorem lockstep_verdict {f : Scope → Select → Except PolicyError Select} {V : Verdicts}
    (hf : Governed f V) : Lockstep f addAnswers (Verdict V) where
  pure := Verdict.pure
  bind := Verdict.bind
  call {s b b'} h := by
    refine ⟨fun marks hmarks => ?_, fun b'' hb'' => ?_⟩
    · obtain ⟨as, _, has, hnil, rfl⟩ := List.forall₂_cons_left_iff.mp hmarks
      cases hnil
      refine ⟨b'.amended as, keeps_select s b _, hf.mpr ⟨as, h ▸ has, rfl⟩, fun rest => rfl⟩
    · obtain ⟨as, has, -⟩ := hf.mp hb''
      exact ⟨[as], .cons (h ▸ has) .nil⟩

end RowPolicy.Sql
