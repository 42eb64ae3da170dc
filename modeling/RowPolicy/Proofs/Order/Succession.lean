import RowPolicy.Proofs.Blocks.Restraints

/-!
# One restraint after another

A restraint overlooks another one if it has the same answers for blocks that the other one has put
its answers into. Restraining a statement by one and then by the other is then the same as
restraining it once by both, each block by the one and then by the other: `Restraint.run_andThen`.
The answers of the second stand behind those of the first.
-/

namespace RowPolicy.Sql

section Inside

variable {m : Type → Type} [Monad m] [LawfulMonad m] (f : Scope → Select → m Select)
  {as : List Answer} (has : BlocklessAnswers as)
include has

/-- The blocks inside of a select block do not change with the answers for its tables. -/
theorem Select.mapInner_amended (s : Scope) (b : Select) :
    (b.amended as).mapInner f s = amended as <$> b.mapInner f s := by
  have h := RowBlock.mapInner_amended f has (.select s b)
  rw [RowBlock.amended_select, RowBlock.mapInner, RowBlock.mapInner, Functor.map_map] at h
  have hmap : RowBlock.select s <$> (b.amended as).mapInner f s =
      RowBlock.select s <$> amended as <$> b.mapInner f s := by
    rw [h, Functor.map_map]
    rfl
  exact (map_inj_right fun heq => (RowBlock.select.inj heq).2).mp hmap

/-- The blocks inside of a statement do not change with the answers for its own tables. -/
theorem Statement.mapBlocks_amended (s : Statement) :
    (s.amended as).mapBlocks f = amended as <$> s.mapBlocks f := by
  cases s with
  | update u =>
    have h := congrArg ((Statement.update u).withBlock <$> ·)
      (RowBlock.mapInner_amended f has (.update u))
    simpa only [RowBlock.amended, RowBlock.mapInner, Functor.map_map, mapBlocks, amended, block?,
      withBlock, ← map_eq_pure_bind] using h
  | delete d =>
    have h := congrArg ((Statement.delete d).withBlock <$> ·)
      (RowBlock.mapInner_amended f has (.deletion d))
    simpa only [RowBlock.amended, RowBlock.mapInner, Functor.map_map, mapBlocks, amended, block?,
      withBlock, ← map_eq_pure_bind] using h
  | insert i => simp [mapBlocks, amended, block?]
  | select q => simp [mapBlocks, amended, block?]
  | other text => simp [mapBlocks, amended, block?]

end Inside

namespace Restraint

/-- Whether a restraint has the same answers for blocks that another one has amended. -/
structure Overlooks (w' w : Restraint) : Prop where
  before : ∀ {b : RowBlock} {as bs : List Answer}, w.Admits b as → w'.Admits (b.amended as) bs →
    ∃ bs', w'.Admits b bs' ∧ homed bs' = homed bs
  behind : ∀ {b : RowBlock} {as bs : List Answer}, w.Admits b as → w'.Admits b bs →
    ∃ bs', w'.Admits (b.amended as) bs' ∧ homed bs' = homed bs

variable {w w' : Restraint}

/-- One restraint after another, block by block. -/
def andThen (w w' : Restraint) (h : w'.Overlooks w) : Restraint where
  Admits b cs := ∃ as bs, w.Admits b as ∧ w'.Admits b bs ∧ cs = as ++ bs
  block s b := w.block s b >>= w'.block s
  outer s := w.outer s >>= w'.outer
  alike := by
    rintro b b' _ hsight ⟨as, bs, has, hbs, rfl⟩
    obtain ⟨as', has', has⟩ := w.alike hsight has
    obtain ⟨bs', hbs', hbs⟩ := w'.alike hsight hbs
    exact ⟨as' ++ bs', ⟨as', bs', has', hbs', rfl⟩, by rw [homed_append, has, hbs, homed_append]⟩
  blockless := by
    rintro b _ ⟨as, bs, has, hbs, rfl⟩ x hx
    rcases List.mem_append.mp hx with hx | hx
    · exact w.blockless has x hx
    · exact w'.blockless hbs x hx
  block_eq_ok_iff {s b b'} := by
    simp only [bind_eq_ok_iff, w.block_eq_ok_iff, w'.block_eq_ok_iff]
    constructor
    · rintro ⟨_, ⟨as, has, rfl⟩, bs, hbs, rfl⟩
      obtain ⟨bs', hbs', hhomed⟩ := h.before has hbs
      refine ⟨as ++ bs', ⟨as, bs', has, hbs', rfl⟩, ?_⟩
      rw [← Select.amended_amended, Select.amended_of_homed hhomed]
    · rintro ⟨_, ⟨as, bs, has, hbs, rfl⟩, rfl⟩
      obtain ⟨bs', hbs', hhomed⟩ := h.behind has hbs
      refine ⟨_, ⟨as, has, rfl⟩, bs', hbs', ?_⟩
      rw [← Select.amended_amended, Select.amended_of_homed hhomed]
  outer_eq_ok_iff {s s'} := by
    simp only [bind_eq_ok_iff, w.outer_eq_ok_iff, w'.outer_eq_ok_iff]
    cases hs : s.block? with
    | none =>
      simp [Statement.amended_of_block?_eq_none hs, hs]
    | some b =>
      simp only [Option.mem_some_iff, forall_eq']
      constructor
      · rintro ⟨_, ⟨as, has, rfl⟩, bs, hbs, rfl⟩
        obtain ⟨bs', hbs', hhomed⟩ := h.before has (hbs _ (by rw [s.block?_amended, hs]; rfl))
        refine ⟨as ++ bs', ⟨as, bs', has, hbs', rfl⟩, ?_⟩
        rw [← Statement.amended_amended, Statement.amended_of_homed hhomed]
      · rintro ⟨_, ⟨as, bs, has, hbs, rfl⟩, rfl⟩
        obtain ⟨bs', hbs', hhomed⟩ := h.behind has hbs
        refine ⟨_, ⟨as, has, rfl⟩, bs', fun b' hb' => ?_, ?_⟩
        · rw [s.block?_amended, hs] at hb'
          cases hb'
          exact hbs'
        · rw [← Statement.amended_amended, Statement.amended_of_homed hhomed]

/-! ## Two traversals as one -/

/-- What a traversal leaves of the blocks inside of a block has the shell that the block had. -/
theorem retraces_makeHole (f : Scope → Select → Except PolicyError Select) :
    Retraces f makeHole makeHole Eq (fun x y => x = y) where
  declare _ hs := hs ▸ rfl
  pure _ := rfl
  bind := by
    rintro α β x _ k k' rfl hk
    exact congrArg (x >>= ·) (funext hk)
  call {s s₂ b b₁ b'} hs _ _ _ := by
    subst hs
    rw [Select.mapBlocks_eq, Select.mapBlocks_eq]
    rfl

theorem sight_of_mapInner {f : Scope → Select → Except PolicyError Select} {s : Scope}
    {b b' : Select} (h : b.mapInner f s = .ok b') :
    (RowBlock.select s b').sight = (RowBlock.select s b).sight := by
  have hshell : b.shell s = b'.shell s := b.retracedInner (retraces_makeHole f) rfl b' h
  rw [← RowBlock.sight_shell (.select s b'), ← RowBlock.sight_shell (.select s b),
    RowBlock.shell_select, RowBlock.shell_select, hshell]

theorem keeps_of_mapBlocks {f : Scope → Select → Except PolicyError Select} {s s' : Statement}
    (h : s.mapBlocks f = .ok s') : Keeps (Statement.mapBlocks makeHole) s s' :=
  (s.retraced (retraces_makeHole f) rfl s' h).symm

theorem exists_of_outer {s s' : Statement} (h : w.outer s = .ok s') :
    ∃ as, BlocklessAnswers as ∧ (∀ b ∈ s.block?, w.Admits b as) ∧ s' = s.amended as := by
  obtain ⟨as, has, rfl⟩ := w.outer_eq_ok_iff.mp h
  cases hs : s.block? with
  | none =>
    refine ⟨[], by simp [BlocklessAnswers], by simp, ?_⟩
    rw [s.amended_of_block?_eq_none hs, s.amended_of_block?_eq_none hs]
  | some b => exact ⟨as, w.blockless (has b hs), by rwa [hs] at has, rfl⟩

/-- A statement is restrained as a block itself as well before a traversal as behind it. -/
theorem outer_mapBlocks (w : Restraint) (f : Scope → Select → Except PolicyError Select)
    (s s' : Statement) : w.outer s >>= (·.mapBlocks f) = .ok s' ↔
      s.mapBlocks f >>= w.outer = .ok s' := by
  simp only [bind_eq_ok_iff]
  constructor
  · rintro ⟨_, hs, hs'⟩
    obtain ⟨as, hblockless, has, rfl⟩ := exists_of_outer hs
    rw [Statement.mapBlocks_amended f hblockless] at hs'
    obtain ⟨s₁, hs₁, rfl⟩ := map_eq_ok_iff.mp hs'
    obtain ⟨as', has', hhomed⟩ := w.alike_outer (keeps_of_mapBlocks hs₁) has
    exact ⟨s₁, hs₁, w.outer_eq_ok_iff.mpr ⟨as', has', Statement.amended_of_homed hhomed.symm s₁⟩⟩
  · rintro ⟨s₁, hs₁, hs'⟩
    obtain ⟨as, hblockless, has, rfl⟩ := exists_of_outer hs'
    obtain ⟨as', has', hhomed⟩ := w.alike_outer (keeps_of_mapBlocks hs₁).symm has
    refine ⟨s.amended as,
      w.outer_eq_ok_iff.mpr ⟨as', has', Statement.amended_of_homed hhomed.symm s⟩, ?_⟩
    rw [Statement.mapBlocks_amended f hblockless]
    exact map_eq_ok_iff.mpr ⟨s₁, hs₁, rfl⟩

section AndThen

variable (h : w'.Overlooks w)

/-- The second traversal leaves of what the first has left what one traversal by both leaves. -/
theorem retraces_andThen : Retraces w.block (w.andThen w' h).block w'.block Eq
    (fun x y => ∀ r, x = .ok r ↔ y = .ok r) where
  declare _ hs := hs ▸ rfl
  pure _ _ := .rfl
  bind {α β x y k k'} hxy hk r := by
    simp only [bind_eq_ok_iff, hxy, hk]
  call {s s₂ b b₁ b'} hs hb₁ hinner hb' r := by
    subst hs
    obtain ⟨as, has, rfl⟩ := w.block_eq_ok_iff.mp hb'
    rw [Select.mapBlocks_eq, Select.mapBlocks_eq,
      Select.mapInner_amended w'.block (w.blockless has), bind_map_left]
    simp only [bind_eq_ok_iff, hinner]
    refine exists_congr fun b₂ => and_congr_right fun hb₂ => ?_
    -- What the second traversal has left of the blocks inside is answered for as before.
    obtain ⟨as', has', hhomed⟩ := w.alike (sight_of_mapInner hb₂).symm has
    have hblock : w.block s b₂ = .ok (b₂.amended as) :=
      w.block_eq_ok_iff.mpr ⟨as', has', Select.amended_of_homed hhomed.symm b₂⟩
    simp only [andThen, hblock]
    rfl

theorem exists_of_andThen {s s' : Statement} (hs' : s.mapBlocks (w.andThen w' h).block = .ok s') :
    ∃ s₁, s.mapBlocks w.block = .ok s₁ := by
  have hboth := s.lockstep (lockstep_verdict (w.andThen w' h).governed)
  obtain ⟨marks, hmarks⟩ := hboth.exists_marks s' hs'
  have hfirst : ∃ marks', List.Forall₂ (fun e as => Event.Admits w.verdicts as e)
      (eventsOf s.occurrences) marks' := by
    generalize eventsOf s.occurrences = es at hmarks
    induction hmarks with
    | nil => exact ⟨[], .nil⟩
    | @cons e _ _ _ hadmits _ ih =>
      obtain ⟨marks', hmarks'⟩ := ih
      cases e with
      | select scope shell =>
        obtain ⟨as, bs, has, -, -⟩ := hadmits
        exact ⟨as :: marks', .cons has hmarks'⟩
      | _ => cases hadmits
  obtain ⟨marks', hmarks'⟩ := hfirst
  exact ⟨_, (s.lockstep (lockstep_verdict w.governed)).eq_ok_iff.mpr ⟨marks', hmarks', rfl⟩⟩

/-- **Restraining a statement twice is restraining it once by both**, each block by the one and then
by the other. -/
theorem run_andThen {s s' : Statement} :
    w.run s >>= w'.run = .ok s' ↔ (w.andThen w' h).run s = .ok s' := by
  have hfirst : ∀ s₁, s.mapBlocks w.block = .ok s₁ →
      (w.outer s₁ >>= w'.run = .ok s' ↔ (w.andThen w' h).run s = .ok s') := by
    intro s₁ hs₁
    have hboth := s.retraced (retraces_andThen h) rfl s₁ hs₁
    have houter := w.outer_mapBlocks w'.block s₁
    calc w.outer s₁ >>= w'.run = .ok s'
        ↔ (w.outer s₁ >>= (·.mapBlocks w'.block)) >>= w'.outer = .ok s' := by
          rw [bind_assoc]
          rfl
      _ ↔ (s₁.mapBlocks w'.block >>= w.outer) >>= w'.outer = .ok s' := by
          simp only [bind_eq_ok_iff (k := w'.outer), houter]
      _ ↔ s.mapBlocks (w.andThen w' h).block >>= (w.andThen w' h).outer = .ok s' := by
          simp only [bind_assoc, bind_eq_ok_iff (x := s₁.mapBlocks w'.block),
            bind_eq_ok_iff (x := s.mapBlocks (w.andThen w' h).block), hboth]
          rfl
  constructor
  · intro hs'
    obtain ⟨s₂, hs₂, hs'⟩ := bind_eq_ok_iff.mp hs'
    obtain ⟨s₁, hs₁, hs₂⟩ := bind_eq_ok_iff.mp hs₂
    exact (hfirst s₁ hs₁).mp (bind_eq_ok_iff.mpr ⟨s₂, hs₂, hs'⟩)
  · intro hs'
    obtain ⟨s₂, hs₂, -⟩ := bind_eq_ok_iff.mp hs'
    obtain ⟨s₁, hs₁⟩ := exists_of_andThen h hs₂
    obtain ⟨s₃, hs₃, hs'⟩ := bind_eq_ok_iff.mp ((hfirst s₁ hs₁).mpr hs')
    exact bind_eq_ok_iff.mpr ⟨s₃, bind_eq_ok_iff.mpr ⟨s₁, hs₁, hs₃⟩, hs'⟩

end AndThen

end Restraint

end RowPolicy.Sql
