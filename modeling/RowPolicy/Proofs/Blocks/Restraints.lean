import RowPolicy.Proofs.Blocks.Retrace
import RowPolicy.Proofs.Blocks.Verdicts

/-!
# Statements that are restrained

A `Restraint` is a way to restrict blocks: it says which answers can be given for a block, by what
is seen of it, and puts them behind its conditions. A statement is restrained by a traversal of its
select blocks, and then, if it is an update or a deletion, as a block itself. That goes well if and
only if there are answers for all of these blocks, and leaves the statement with such answers
(`Restraint.run_eq_ok_iff`).
-/

namespace RowPolicy.Sql

/-! ## Statements as a whole -/

namespace Statement

/-- The blocks of a statement. -/
def mapBlocks {m : Type → Type} [Monad m] (f : Scope → Select → m Select) :
    Statement → m Statement
  | .insert i => return .insert (← i.mapBlocks f .empty)
  | .update u => return .update (← u.mapBlocks f .empty)
  | .delete d => return .delete (← d.mapBlocks f .empty)
  | .select q => return .select (← q.mapBlocks f .empty)
  | .other text => return .other text

/-- The block that a statement is itself, if it is an update or a deletion. -/
def block? : Statement → Option RowBlock
  | .update u => some (.update u)
  | .delete d => some (.deletion d)
  | _ => none

theorem lockstep {m n : Type → Type} [Monad m] [LawfulMonad m] [Monad n] [LawfulMonad n]
    {f : Scope → Select → m Select} {f' : Scope → Select → n Select}
    {R : {α : Type} → (α → Prop) → List Event → m α → n α → Prop} (H : Lockstep f f' R)
    (s : Statement) :
    R (Keeps (mapBlocks makeHole) s) (eventsOf s.occurrences) (s.mapBlocks f)
      (s.mapBlocks f') := by
  have hp : Place.outermost.aside = false := rfl
  cases s with
  | insert i => exact H.map (i.lockstep H hp) fun i' h => congrArg Statement.insert h
  | update u => exact H.map (u.lockstep H hp) fun u' h => congrArg Statement.update h
  | delete d => exact H.map (d.lockstep H hp) fun d' h => congrArg Statement.delete h
  | select q => exact H.map (q.lockstep H hp) fun q' h => congrArg Statement.select h
  | other text => exact H.pure rfl

theorem retraced {m n : Type → Type} [Monad m] [Monad n]
    {f : Scope → Select → Except PolicyError Select} {w : Scope → Select → m Select}
    {g : Scope → Select → n Select} {S : Scope → Scope → Prop}
    {R : {α : Type} → m α → n α → Prop} (H : Retraces f w g S R) (hS : S .empty .empty)
    (s : Statement) : After (fun s' => R (s.mapBlocks w) (s'.mapBlocks g)) (s.mapBlocks f) := by
  cases s with
  | insert i => exact (i.retraced H hS).map fun i' h => H.bind h fun _ => H.pure _
  | update u => exact (u.retraced H hS).map fun u' h => H.bind h fun _ => H.pure _
  | delete d => exact (d.retraced H hS).map fun d' h => H.bind h fun _ => H.pure _
  | select q => exact (q.retraced H hS).map fun q' h => H.bind h fun _ => H.pure _
  | other text => exact .pure (H.pure _)

/-- What a statement is the same as but for blocks, is the same as a block itself. -/
theorem sight_of_keeps {s s' : Statement} (h : Keeps (mapBlocks makeHole) s s') :
    s'.block?.map RowBlock.sight = s.block?.map RowBlock.sight := by
  have hshell : ∀ x : Statement, (Id.run (x.mapBlocks makeHole)).block? =
      x.block?.map RowBlock.shell := by
    intro x
    cases x <;> rfl
  have hsight : ∀ x : Statement, x.block?.map RowBlock.sight =
      (Id.run (x.mapBlocks makeHole)).block?.map RowBlock.sight := by
    intro x
    rw [hshell, Option.map_map]
    exact congrArg (fun g => x.block?.map g) (funext fun b => b.sight_shell.symm)
  rw [hsight, hsight s, show s'.mapBlocks makeHole = s.mapBlocks makeHole from h]

/-- A statement with the answers for the blocks inside of it where they belong, one block after
another. -/
def added (marks : List (List Answer)) (s : Statement) : Statement :=
  ((s.mapBlocks addAnswers).run marks).1

/-- A statement with another block in place of the one that it is itself. -/
def withBlock (s : Statement) : RowBlock → Statement
  | .select _ _ => s
  | .update u => .update u
  | .deletion d => .delete d

/-- A statement with the answers for its own tables where they belong. -/
def amended (as : List Answer) (s : Statement) : Statement :=
  match s.block? with
  | none => s
  | some b => s.withBlock (b.amended as)

theorem amended_of_block?_eq_none {s : Statement} (h : s.block? = none) (as : List Answer) :
    s.amended as = s := by
  rw [amended, h]

theorem block?_amended (as : List Answer) (s : Statement) :
    (s.amended as).block? = s.block?.map (·.amended as) := by
  cases s <;> rfl

theorem amended_of_homed {as as' : List Answer} (h : homed as = homed as') (s : Statement) :
    s.amended as = s.amended as' := by
  cases s <;> simp only [amended, block?, RowBlock.amended_of_homed h]

theorem amended_amended (s : Statement) (as bs : List Answer) :
    (s.amended as).amended bs = s.amended (as ++ bs) := by
  cases s with
  | update u =>
    simp only [amended, block?, withBlock, ← RowBlock.amended_amended]
    rfl
  | delete d =>
    simp only [amended, block?, withBlock, ← RowBlock.amended_amended]
    rfl
  | _ => rfl

/-- A statement with its own tables restricted, if it is an update or a deletion. -/
def restrict (strict : Bool) (predicate : Target → Option Expr → Except PolicyError (Option Expr))
    (s : Statement) : Except PolicyError Statement :=
  match s.block? with
  | none => pure s
  | some b => s.withBlock <$> b.restrict strict predicate

theorem restrict_eq_ok_iff {strict : Bool}
    {predicate : Target → Option Expr → Except PolicyError (Option Expr)} {s s' : Statement} :
    s.restrict strict predicate = .ok s' ↔
      ∃ as, (∀ b ∈ s.block?, b.Answered strict predicate as) ∧ s' = s.amended as := by
  unfold restrict amended
  cases s.block? with
  | none =>
    refine ⟨fun h => ⟨[], by simp, (Except.ok.inj h).symm⟩, ?_⟩
    rintro ⟨_, _, rfl⟩
    rfl
  | some b =>
    simp only [map_eq_ok_iff, RowBlock.restrict_eq_ok_iff_answered, Option.mem_some_iff,
      forall_eq']
    constructor
    · rintro ⟨_, ⟨as, has, rfl⟩, rfl⟩
      exact ⟨as, has, rfl⟩
    · rintro ⟨as, has, rfl⟩
      exact ⟨_, ⟨as, has, rfl⟩, rfl⟩

end Statement

/-! ## Restraints -/

/-- A way to restrict blocks: the answers that it has for a block, by what is seen of the block, and
the functions that put such answers behind the conditions of a select block, and of a statement that
is a block itself. -/
structure Restraint where
  Admits : RowBlock → List Answer → Prop
  block : Scope → Select → Except PolicyError Select
  outer : Statement → Except PolicyError Statement
  alike : ∀ {b b' : RowBlock} {as : List Answer}, b.sight = b'.sight → Admits b as →
    ∃ as', Admits b' as' ∧ homed as' = homed as
  blockless : ∀ {b : RowBlock} {as : List Answer}, Admits b as → BlocklessAnswers as
  block_eq_ok_iff : ∀ {s : Scope} {b b' : Select},
    block s b = .ok b' ↔ ∃ as, Admits (.select s b) as ∧ b' = b.amended as
  outer_eq_ok_iff : ∀ {s s' : Statement},
    outer s = .ok s' ↔ ∃ as, (∀ b ∈ s.block?, Admits b as) ∧ s' = s.amended as

namespace Restraint

/-- The restraint that asks a predicate for each table. -/
def ofPredicate (strict : Bool)
    (predicate : Target → Option Expr → Except PolicyError (Option Expr))
    (hshallow : Shallow predicate)
    (hblockless : ∀ t e p, predicate t e = .ok p → ∀ q ∈ p, q.Blockless) : Restraint where
  Admits b as := b.Answered strict predicate as
  block s b := b.restrict strict s predicate
  outer s := s.restrict strict predicate
  alike h has := (RowBlock.follows_of_sight hshallow h).exists_answered has
  blockless := by
    rintro b as ⟨ps, hps, rfl, -⟩ x hx
    exact hblockless _ _ _ ((List.forall₂_iff_zip.mp hps).2 hx)
  block_eq_ok_iff {s b b'} := by
    have hselect : Function.Injective (RowBlock.select s) := fun _ _ h =>
      (RowBlock.select.inj h).2
    rw [← map_eq_ok_map_iff hselect]
    change (RowBlock.select s b).restrict strict predicate = _ ↔ _
    rw [RowBlock.restrict_eq_ok_iff_answered]
    simp only [RowBlock.amended_select, RowBlock.select.injEq, true_and]
  outer_eq_ok_iff := Statement.restrict_eq_ok_iff

variable (w : Restraint)

/-- The answers for a block, by its scope and its shell. -/
def verdicts : Verdicts :=
  fun s shell as => w.Admits (.select s shell) as

theorem governed : Governed w.block w.verdicts := by
  intro s b b'
  have hsight : (RowBlock.select s (b.shell s)).sight = (RowBlock.select s b).sight :=
    RowBlock.sight_shell (.select s b)
  rw [w.block_eq_ok_iff]
  constructor
  · rintro ⟨as, has, rfl⟩
    obtain ⟨as', has', hhomed⟩ := w.alike hsight.symm has
    exact ⟨as', has', Select.amended_of_homed hhomed.symm b⟩
  · rintro ⟨as, has, rfl⟩
    obtain ⟨as', has', hhomed⟩ := w.alike hsight has
    exact ⟨as', has', Select.amended_of_homed hhomed.symm b⟩

/-- A statement that is restrained, block by block and then as a block itself. -/
def run (s : Statement) : Except PolicyError Statement :=
  s.mapBlocks w.block >>= w.outer

/-- The answers for the blocks of a statement that are called for, and for the statement itself. -/
structure Answers (s : Statement) (marks : List (List Answer)) (as : List Answer) : Prop where
  inside : List.Forall₂ (fun e as => Event.Admits w.verdicts as e) (eventsOf s.occurrences) marks
  itself : ∀ b ∈ s.block?, w.Admits b as

theorem alike_outer {s s' : Statement} (h : Keeps (Statement.mapBlocks makeHole) s s')
    {as : List Answer} (has : ∀ b ∈ s.block?, w.Admits b as) :
    ∃ as', (∀ b ∈ s'.block?, w.Admits b as') ∧ homed as' = homed as := by
  have hsight := Statement.sight_of_keeps h
  cases hs' : s'.block? with
  | none => exact ⟨as, by simp, rfl⟩
  | some b' =>
    rw [hs'] at hsight
    obtain ⟨b, hb, hbb'⟩ := Option.map_eq_some_iff.mp hsight.symm
    obtain ⟨as', has', hhomed⟩ := w.alike hbb' (has b hb)
    exact ⟨as', by simpa using has', hhomed⟩

/-- **A statement is restrained if and only if there are answers for all of its blocks**, and is
then left with such answers behind its conditions. -/
theorem run_eq_ok_iff {s s' : Statement} :
    w.run s = .ok s' ↔ ∃ marks as, w.Answers s marks as ∧ s' = (s.added marks).amended as := by
  have hverdict := s.lockstep (lockstep_verdict w.governed)
  simp only [run, bind_eq_ok_iff, w.outer_eq_ok_iff]
  constructor
  · rintro ⟨s₁, hs₁, as, has, rfl⟩
    obtain ⟨marks, hmarks, rfl⟩ := hverdict.eq_ok_iff.mp hs₁
    obtain ⟨as', has', hhomed⟩ := w.alike_outer (hverdict.of_eq_ok hs₁).symm has
    exact ⟨marks, as', ⟨hmarks, has'⟩, Statement.amended_of_homed hhomed.symm _⟩
  · rintro ⟨marks, as, ⟨hmarks, has⟩, rfl⟩
    have hs₁ := hverdict.eq_ok_iff.mpr ⟨marks, hmarks, rfl⟩
    obtain ⟨as', has', hhomed⟩ := w.alike_outer (hverdict.of_eq_ok hs₁) has
    exact ⟨_, hs₁, as', has', Statement.amended_of_homed hhomed.symm _⟩

end Restraint

end RowPolicy.Sql
