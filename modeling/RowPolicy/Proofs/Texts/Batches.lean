import RowPolicy.Policy.Pagination
import RowPolicy.Proofs.Failures.Lenience

/-!
# Texts of several statements

An enforcer processes the statements of a text one by one, and none of them knows of the others.
The first one that fails fails the text (`mapM_eq_error_iff`). If none does, the statements are
printed one behind the other with a semicolon between them, next to the list of their kinds. Texts
of blanks only are left out twice, once with their kinds and once where texts are joined; the second
time there is none left (`assemble_eq`).
-/

namespace RowPolicy

open Sql

/-! ## Runs over lists -/

section Lists

variable {α β : Type} {ask : α → Except PolicyError β}

/-- A run over a list fails with the error of the first element that fails. -/
theorem mapM_eq_error_iff {xs : List α} {e : PolicyError} :
    xs.mapM ask = .error e ↔ ∃ before x behind, xs = before ++ x :: behind ∧
      (∀ y ∈ before, ∃ a, ask y = .ok a) ∧ ask x = .error e := by
  induction xs with
  | nil =>
    constructor
    · intro h
      cases h
    · rintro ⟨before, x, behind, h, -⟩
      exact absurd h (by simp)
  | cons y ys ih =>
    rw [List.mapM_cons, bind_eq_error_iff]
    simp only [bind_pure_comp, map_eq_error_iff, ih]
    constructor
    · rintro (h | ⟨a, ha, before, x, behind, rfl, hbefore, hx⟩)
      · exact ⟨[], y, ys, rfl, by simp, h⟩
      · exact ⟨y :: before, x, behind, rfl, List.forall_mem_cons.mpr ⟨⟨a, ha⟩, hbefore⟩, hx⟩
    · rintro ⟨before, x, behind, h, hbefore, hx⟩
      cases before with
      | nil =>
        obtain ⟨rfl, rfl⟩ := List.cons.inj h
        exact .inl hx
      | cons z before =>
        obtain ⟨rfl, rfl⟩ := List.cons.inj h
        obtain ⟨⟨a, ha⟩, hbefore⟩ := List.forall_mem_cons.mp hbefore
        exact .inr ⟨a, ha, before, x, behind, rfl, hbefore, hx⟩

/-- A run over a list fails if and only if one of its elements does. -/
theorem exists_mapM_error_iff {xs : List α} :
    (∃ e, xs.mapM ask = .error e) ↔ ∃ x ∈ xs, ∃ e, ask x = .error e := by
  constructor
  · rintro ⟨e, h⟩
    obtain ⟨x, hx, he⟩ := exists_error_of_mapM h
    exact ⟨x, hx, e, he⟩
  · rintro ⟨x, hx, e, he⟩
    cases h : xs.mapM ask with
    | error e' => exact ⟨e', rfl⟩
    | ok ys =>
      obtain ⟨y, hy⟩ := exists_forall₂_iff.mp ⟨ys, mapM_eq_ok_iff.mp h⟩ x hx
      rw [he] at hy
      cases hy

theorem mapM_map_eq {γ : Type} (g : β → γ) (xs : List α) :
    (xs.mapM fun x => g <$> ask x) = List.map g <$> xs.mapM ask := by
  induction xs with
  | nil => simp
  | cons x xs ih => simp [List.mapM_cons, ih]

end Lists

/-! ## Assembling -/

/-- The printed statements that are not blank. -/
def visible (statements : List (StatementKind × String)) : List (StatementKind × String) :=
  statements.filter fun x => !Text.isBlankText x.2

theorem visible_eq_nil_iff {xs : List (StatementKind × String)} :
    visible xs = [] ↔ ∀ x ∈ xs, Text.isBlankText x.2 = true := by
  simp [visible, List.filter_eq_nil_iff]

theorem visible_eq_self {xs : List (StatementKind × String)}
    (h : ∀ x ∈ xs, Text.isBlankText x.2 = false) : visible xs = xs :=
  List.filter_eq_self.mpr fun x hx => by simp [h x hx]

/-- The texts that are joined are those next to the kinds: joining them leaves none out. -/
theorem joinStatements_visible (xs : List (StatementKind × String)) :
    joinStatements ((visible xs).map Prod.snd) =
      if visible xs = [] then none else some (";".intercalate ((visible xs).map Prod.snd)) := by
  have hkept : (((visible xs).map Prod.snd).filter fun t => !Text.isBlankText t) =
      (visible xs).map Prod.snd := by
    rw [List.filter_eq_self]
    intro t ht
    obtain ⟨x, hx, rfl⟩ := List.mem_map.mp ht
    exact (List.mem_filter.mp hx).2
  unfold joinStatements
  rw [hkept]
  cases visible xs with
  | nil => rfl
  | cons x xs => rfl

theorem assemble_eq (xs : List (StatementKind × String)) :
    assemble xs = if visible xs = [] then none else
      some ⟨";".intercalate ((visible xs).map Prod.snd), (visible xs).map Prod.fst⟩ := by
  show (joinStatements ((visible xs).map Prod.snd)).map
    (fun sql => (⟨sql, (visible xs).map Prod.fst⟩ : Enforced)) = _
  rw [joinStatements_visible]
  by_cases h : visible xs = []
  · rw [if_pos h, if_pos h]
    rfl
  · rw [if_neg h, if_neg h]
    rfl

/-! ## Enforcers -/

/-- A statement as it is assembled. -/
def Sql.Statement.printed (s : Statement) : StatementKind × String :=
  (s.kind, s.render)

/-- The statements of a text, in order, as one text and the list of their kinds. -/
def Enforced.ofStatements (ss : List Statement) : Enforced :=
  ⟨";".intercalate (ss.map (·.render)), ss.map (·.kind)⟩

namespace Enforcer

variable {e : Enforcer (Except PolicyError)} {c : Context} {sql : String} {ss : List Statement}

/-- Behind the guard and the reader, a text is its statements processed one by one. -/
theorem parse_eq (hallow : e.guard c = true) (hread : parseStatements e.dialect sql = .ok ss) :
    e.parse sql c =
      (fun ss' => assemble (ss'.map Statement.printed)) <$> ss.mapM (e.process c) := by
  have hstatements : e.statements sql = pure ss := by
    unfold statements
    rw [hread]
  have hprinted : (ss.mapM fun s => do
      let s ← e.process c s
      return (s.kind, s.render) : Except PolicyError _) =
        List.map Statement.printed <$> ss.mapM (e.process c) := by
    rw [← mapM_map_eq]
    simp only [bind_pure_comp]
    rfl
  unfold parse
  rw [if_pos hallow, hstatements, pure_bind, hprinted, bind_pure_comp, Functor.map_map]

theorem assemble_printed (h : ∀ s ∈ ss, Text.isBlankText s.render = false) :
    assemble (ss.map Statement.printed) =
      if ss = [] then none else some (.ofStatements ss) := by
  have hvisible : visible (ss.map Statement.printed) = ss.map Statement.printed := by
    apply visible_eq_self
    intro x hx
    obtain ⟨s, hs, rfl⟩ := List.mem_map.mp hx
    exact h s hs
  rw [assemble_eq, hvisible]
  simp only [List.map_eq_nil_iff, List.map_map]
  rfl

/-- **A text is enforced statement by statement.** If the guard allows it and its statements can be
read, then it fails if and only if one of them fails on its own, with the error of the first that
does. Else, where no statement is printed blank, nothing comes out of a text without statements,
and of any other the separately processed statements in order with one semicolon between each two,
next to their kinds. And of any texts, exactly the blank ones are left out, each together with its
kind, and nothing comes out if and only if all are blank. -/
theorem parse_statements (hallow : e.guard c = true)
    (hread : parseStatements e.dialect sql = .ok ss)
    (hprints : ∀ s ∈ ss, ∀ s', e.process c s = .ok s' → Text.isBlankText s'.render = false) :
    ((∃ err, e.parse sql c = .error err) ↔ ∃ s ∈ ss, ∃ err, e.process c s = .error err) ∧
    (∀ err, e.parse sql c = .error err ↔ ∃ before s behind, ss = before ++ s :: behind ∧
      (∀ t ∈ before, ∃ t', e.process c t = .ok t') ∧ e.process c s = .error err) ∧
    (∀ out, e.parse sql c = .ok out ↔
      ∃ ss', List.Forall₂ (fun s s' => e.process c s = .ok s') ss ss' ∧
        out = if ss = [] then none else some (.ofStatements ss')) ∧
    (∀ xs, assemble xs = none ↔ ∀ x ∈ xs, Text.isBlankText x.2 = true) ∧
    (∀ xs out, assemble xs = some out ↔ visible xs ≠ [] ∧
      out = ⟨";".intercalate ((visible xs).map Prod.snd), (visible xs).map Prod.fst⟩) := by
  rw [parse_eq hallow hread]
  refine ⟨?_, ?_, ?_, ?_, ?_⟩
  · simp only [map_eq_error_iff]
    exact exists_mapM_error_iff
  · intro err
    rw [map_eq_error_iff, mapM_eq_error_iff]
  · intro out
    rw [map_eq_ok_iff]
    simp only [mapM_eq_ok_iff]
    apply exists_congr
    intro ss'
    apply and_congr_right
    intro hss'
    have hblank : ∀ s' ∈ ss', Text.isBlankText s'.render = false := by
      intro s' hs'
      obtain ⟨i, hi, rfl⟩ := List.mem_iff_getElem.mp hs'
      have hlength := hss'.length_eq
      exact hprints _ (List.getElem_mem (by omega)) _ (hss'.get (by omega) hi)
    have hnil : ss' = [] ↔ ss = [] := by
      rw [← List.length_eq_zero_iff, ← hss'.length_eq, List.length_eq_zero_iff]
    rw [assemble_printed hblank]
    simp only [hnil]
    exact eq_comm
  · intro xs
    rw [assemble_eq, ← visible_eq_nil_iff]
    split <;> simp_all
  · intro xs out
    rw [assemble_eq]
    by_cases h : visible xs = []
    · simp [h]
    · simp only [h, if_false, Option.some.injEq, ne_eq, not_false_eq_true, true_and]
      exact eq_comm

/-- A page is given to the one statement of two that takes one. -/
theorem parse_statements_lastOrders :
    let page : Pagination := { style := .limitOffset }
    let e : Enforcer (Except PolicyError) := { policies := [page.policy] }
    let c : Context := { Context.empty with page := some ⟨10, 0⟩ }
    let sql := "SELECT id FROM orders;COMMIT;"
    ∃ ss ss', parseStatements e.dialect sql = .ok ss ∧
      List.Forall₂ (fun s s' => e.process c s = .ok s') ss ss' ∧
      e.parse sql c = .ok (some (.ofStatements ss')) ∧
      Enforced.ofStatements ss' = ⟨"SELECT id FROM orders LIMIT 10;COMMIT", [.select, .other]⟩ := by
  intro page e c sql
  have hparse : (match e.parse sql c with | .ok out => out | .error _ => none) =
      some ⟨"SELECT id FROM orders LIMIT 10;COMMIT", [.select, .other]⟩ := by decide +kernel
  have hprints : (match parseStatements e.dialect sql with
      | .error _ => false
      | .ok ss => ss.all fun s => match e.process c s with
        | .error _ => true
        | .ok s' => !Text.isBlankText s'.render) = true := by decide +kernel
  cases hread : parseStatements e.dialect sql with
  | error fault =>
    rw [hread] at hprints
    cases hprints
  | ok ss =>
    rw [hread] at hprints
    have hlaw := parse_statements (e := e) (c := c) rfl hread fun s hs s' hs' => by
      have h := List.all_eq_true.mp hprints s hs
      rw [hs'] at h
      simpa using h
    cases hout : e.parse sql c with
    | error err =>
      rw [hout] at hparse
      cases hparse
    | ok out =>
      rw [hout] at hparse
      obtain ⟨ss', hss', heq⟩ := (hlaw.2.2.1 out).mp hout
      have hout' : out = some ⟨"SELECT id FROM orders LIMIT 10;COMMIT", [.select, .other]⟩ := hparse
      by_cases hnil : ss = []
      · rw [if_pos hnil, hout'] at heq
        cases heq
      · rw [if_neg hnil] at heq
        exact ⟨ss, ss', rfl, hss', congrArg Except.ok heq, Option.some.inj (heq.symm.trans hout')⟩

end Enforcer

end RowPolicy
