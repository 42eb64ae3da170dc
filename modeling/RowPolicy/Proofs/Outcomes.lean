import Mathlib.Data.List.Forall2
import Mathlib.Logic.Function.Basic

/-!
# Computations that give an answer or fail

A chain of computations gives an answer if and only if each of them does, and fails with the first
that fails.
-/

namespace RowPolicy

section One

variable {ε α β : Type} {x : Except ε α}

theorem eq_ok_of_toOption {a : α} (h : x.toOption = some a) : x = .ok a := by
  cases x with
  | error e => cases h
  | ok b => rw [Option.some.inj h]

theorem ok_bind {a : α} {k : α → Except ε β} : Except.ok a >>= k = k a :=
  rfl

theorem map_eq_ok_iff {g : α → β} {b : β} : g <$> x = .ok b ↔ ∃ a, x = .ok a ∧ g a = b := by
  cases x with
  | error e => simp [Functor.map, Except.map]
  | ok a => simp [Functor.map, Except.map]

theorem bind_eq_ok_iff {k : α → Except ε β} {b : β} :
    x >>= k = .ok b ↔ ∃ a, x = .ok a ∧ k a = .ok b := by
  cases x with
  | error e => simp [Bind.bind, Except.bind]
  | ok a => simp [Bind.bind, Except.bind]

theorem map_eq_ok_map_iff {g : α → β} (hg : Function.Injective g) {a : α} :
    g <$> x = .ok (g a) ↔ x = .ok a := by
  rw [map_eq_ok_iff]
  constructor
  · rintro ⟨a', ha', heq⟩
    rwa [← hg heq]
  · exact fun ha => ⟨a, ha, rfl⟩

theorem map_eq_error_iff {g : α → β} {e : ε} : g <$> x = .error e ↔ x = .error e := by
  cases x with
  | error e' => simp [Functor.map, Except.map]
  | ok a => simp [Functor.map, Except.map]

theorem bind_eq_error_iff {k : α → Except ε β} {e : ε} :
    x >>= k = .error e ↔ x = .error e ∨ ∃ a, x = .ok a ∧ k a = .error e := by
  cases x with
  | error e' => simp [Bind.bind, Except.bind]
  | ok a => simp [Bind.bind, Except.bind]

theorem bind_congr_of_ok {k k' : α → Except ε β} (h : ∀ a, x = .ok a → k a = k' a) :
    x >>= k = x >>= k' := by
  cases x with
  | error e => rfl
  | ok a => exact h a rfl

end One

section Several

variable {ε κ α : Type} {ask : κ → Except ε α}

/-- Asking several questions goes well where each of them does. -/
theorem mapM_eq_ok_iff {ks : List κ} {as : List α} :
    ks.mapM ask = .ok as ↔ List.Forall₂ (fun k a => ask k = .ok a) ks as := by
  induction ks generalizing as with
  | nil =>
    rw [List.mapM_nil, List.forall₂_nil_left_iff]
    exact ⟨fun h => by cases h; rfl, fun h => by rw [h]; rfl⟩
  | cons k ks ih =>
    rw [List.mapM_cons, List.forall₂_cons_left_iff]
    constructor
    · intro h
      cases hk : ask k with
      | error e => rw [hk] at h; cases h
      | ok a =>
        cases hks : ks.mapM ask with
        | error e => rw [hk, hks] at h; cases h
        | ok bs =>
          rw [hk, hks] at h
          cases h
          exact ⟨a, bs, rfl, ih.mp hks, rfl⟩
    · rintro ⟨a, bs, ha, hbs, rfl⟩
      rw [ha, ih.mpr hbs]
      rfl

end Several

end RowPolicy
