import RowPolicy.Enforcer
import RowPolicy.Proofs.Outcomes

/-!
# What a policy has done

A policy that changes a statement without an error has traversed it, then run the hook for its kind,
then the hook for all statements. Each kind has one lemma that says so, and says all that there is
to say: the run is good if and only if these are.
-/

namespace RowPolicy

open Sql

namespace Policy

variable (p : Policy (Except PolicyError)) {c : Context} {s' : Statement}

/-! ## One statement of each kind -/

theorem run_select_eq_ok_iff {q : Query} :
    p.run c (.select q) = .ok s' ↔
      ∃ q₁ q₂, q.mapBlocks (p.select c) .empty = .ok q₁ ∧ p.query c q₁ = .ok q₂ ∧
        p.statement c (.select q₂) = .ok s' := by
  simp only [run, pure_bind, bind_eq_ok_iff, exists_and_left]

theorem run_update_eq_ok_iff {u : Update} :
    p.run c (.update u) = .ok s' ↔
      ∃ u₁ u₂, u.mapBlocks (p.select c) .empty = .ok u₁ ∧ p.update c u₁ = .ok u₂ ∧
        p.statement c (.update u₂) = .ok s' := by
  simp only [run, pure_bind, bind_eq_ok_iff, exists_and_left]

theorem run_delete_eq_ok_iff {d : Deletion} :
    p.run c (.delete d) = .ok s' ↔
      ∃ d₁ d₂, d.mapBlocks (p.select c) .empty = .ok d₁ ∧ p.delete c d₁ = .ok d₂ ∧
        p.statement c (.delete d₂) = .ok s' := by
  simp only [run, pure_bind, bind_eq_ok_iff, exists_and_left]

theorem checkWidths_eq_ok_iff {before after i : Insertion} :
    p.checkWidths before after = .ok i ↔
      i = after ∧ (before.misfits = [] → after.misfits = []) := by
  unfold checkWidths
  cases hbefore : before.misfits with
  | nil =>
    cases hafter : after.misfits with
    | nil => simp [pure, Except.pure, eq_comm (a := i)]
    | cons x xs => simp [throw, throwThe, MonadExceptOf.throw]
  | cons x xs => simp [pure, Except.pure, eq_comm (a := i)]

theorem run_insert_eq_ok_iff {i : Insertion} :
    p.run c (.insert i) = .ok s' ↔
      ∃ i₁ i₂, i.mapBlocks (p.select c) .empty = .ok i₁ ∧ p.insert c i₁ = .ok i₂ ∧
        (i₁.misfits = [] → i₂.misfits = []) ∧ p.statement c (.insert i₂) = .ok s' := by
  simp only [run, pure_bind, bind_eq_ok_iff, checkWidths_eq_ok_iff]
  constructor
  · rintro ⟨i₁, hi₁, i₂, hi₂, _, ⟨rfl, hfits⟩, hs⟩
    exact ⟨i₁, _, hi₁, hi₂, hfits, hs⟩
  · rintro ⟨i₁, i₂, hi₁, hi₂, hfits, hs⟩
    exact ⟨i₁, hi₁, i₂, hi₂, i₂, ⟨rfl, hfits⟩, hs⟩

theorem run_other_eq {text : String} : p.run c (.other text) = p.statement c (.other text) := by
  simp only [run, pure_bind]

end Policy

end RowPolicy
