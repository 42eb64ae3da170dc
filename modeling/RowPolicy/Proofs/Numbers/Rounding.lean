import Mathlib
import RowPolicy.Number.Decimal

/-!
# Whole numbers of double precision

A whole number is rounded to the nearest magnitude. How often the unit is doubled depends on the
stretch that the number lies in (`Reach`); once it is known, the number is a quotient rounded to a
whole number of units (`nearest_of_reach`), and no magnitude is nearer to it (`dist_nearest_le`).
Rounding is monotone (`nearest_mono`), so the numbers that are too large are those from some bound
on (`nearest_lt_overflow_iff`), and the whole numbers in the interval of a magnitude are rounded to
it (`nearest_of_rounds`).
-/

namespace RowPolicy.Double

/-! ## Rounding a quotient -/

/-- The rounded quotient is at most half a unit away. -/
theorem roundDiv_bounds {x u : Nat} (hu : 0 < u) :
    2 * (roundDiv x u * u) ≤ 2 * x + u ∧ 2 * x ≤ 2 * (roundDiv x u * u) + u := by
  have hx : x / u * u + x % u = x := by rw [Nat.mul_comm]; exact Nat.div_add_mod x u
  have hr : x % u < u := Nat.mod_lt x hu
  have hsucc : (x / u + 1) * u = x / u * u + u := Nat.succ_mul _ _
  simp only [roundDiv]
  split
  · rename_i h
    simp only [Bool.or_eq_true, Bool.and_eq_true, decide_eq_true_eq, beq_iff_eq] at h
    omega
  · rename_i h
    simp only [Bool.or_eq_true, Bool.and_eq_true, decide_eq_true_eq, beq_iff_eq] at h
    rw [hsucc]
    omega

/-- A number of units that is at most half a unit away, and less where it is odd, is the rounded
quotient. -/
theorem roundDiv_eq {x u m : Nat} (hlow : 2 * (m * u) ≤ 2 * x + u) (hhigh : 2 * x ≤ 2 * (m * u) + u)
    (hodd : m % 2 = 1 → 2 * (m * u) < 2 * x + u ∧ 2 * x < 2 * (m * u) + u) (hu : 0 < u) :
    roundDiv x u = m := by
  have hx : x / u * u + x % u = x := by rw [Nat.mul_comm]; exact Nat.div_add_mod x u
  have hr : x % u < u := Nat.mod_lt x hu
  have hsucc (k : Nat) : (k + 1) * u = k * u + u := Nat.succ_mul k u
  have hle {j k : Nat} (h : j ≤ k) : j * u ≤ k * u := Nat.mul_le_mul_right u h
  -- at most half a unit away, `m` is one of the two whole numbers around the quotient
  have hm : m = x / u ∨ m = x / u + 1 := by
    rcases Nat.lt_trichotomy m (x / u) with h | h | h
    · have := hle (Nat.succ_le_of_lt h)
      rw [Nat.succ_eq_add_one, hsucc] at this
      omega
    · exact .inl h
    · refine .inr (Nat.le_antisymm (Nat.not_lt.mp fun h2 => ?_) h)
      have := hle (Nat.succ_le_of_lt h2)
      rw [Nat.succ_eq_add_one, hsucc, hsucc] at this
      omega
  simp only [roundDiv, Bool.or_eq_true, Bool.and_eq_true, decide_eq_true_eq, beq_iff_eq]
  rcases hm with rfl | rfl
  · refine if_pos ?_
    omega
  · rw [hsucc] at hlow hhigh hodd
    refine if_neg ?_
    omega

theorem roundDiv_mul (m : Nat) {u : Nat} (hu : 0 < u) : roundDiv (m * u) u = m :=
  roundDiv_eq (by omega) (by omega) (fun _ => by omega) hu

theorem roundDiv_mono {x y u : Nat} (h : x ≤ y) (hu : 0 < u) : roundDiv x u ≤ roundDiv y u := by
  by_contra hlt
  have hstep := Nat.mul_le_mul_right u (Nat.succ_le_of_lt (Nat.not_le.mp hlt))
  rw [Nat.succ_mul] at hstep
  have hx := (roundDiv_bounds (x := x) hu).1
  have hy := (roundDiv_bounds (x := y) hu).2
  -- half a unit is not enough for both, unless the numbers are the same
  have : x = y := by omega
  exact hlt (this ▸ Nat.le_refl _)

/-! ## The stretch of a number -/

/-- A value, in the least units, lies in the stretch of magnitudes whose unit is doubled `k`
times. -/
structure Reach (x k : Nat) : Prop where
  low : k = 0 ∨ stretch * 2 ^ k ≤ x
  high : x < 2 * stretch * 2 ^ k

theorem stretch_mul_two_pow (k : Nat) : stretch * 2 ^ k = 2 ^ (52 + k) := by
  rw [stretch]
  ring

theorem exists_reach (x : Nat) : ∃ k, Reach x k := by
  by_cases hx : x < 2 * stretch
  · exact ⟨0, .inl rfl, by rwa [Nat.pow_zero, Nat.mul_one]⟩
  · have h0 : x ≠ 0 := by rintro rfl; exact hx (by decide)
    have hlog : 53 ≤ x.log2 := (Nat.le_log2 h0).mpr (Nat.not_lt.mp hx)
    obtain ⟨k, hk⟩ := Nat.exists_eq_add_of_le hlog
    obtain ⟨hlow, hhigh⟩ := (Nat.log2_eq_iff h0).mp hk
    have hstretch : stretch * 2 ^ (k + 1) = 2 ^ (53 + k) := by
      rw [stretch_mul_two_pow, Nat.add_comm k, ← Nat.add_assoc]
    refine ⟨k + 1, .inr (hstretch ▸ hlow), ?_⟩
    rwa [Nat.mul_assoc, hstretch, Nat.mul_comm, ← Nat.pow_succ]

/-- How often the unit is doubled for a value, as it is computed. -/
theorem Reach.scale {x k : Nat} (h : Reach x k) :
    (if x < 2 * stretch then 0 else x.log2 - 52) = k := by
  have hhigh := h.high
  rcases Nat.eq_zero_or_pos k with rfl | hk
  · exact if_pos (by rwa [Nat.pow_zero, Nat.mul_one] at hhigh)
  · have hlow := h.low.resolve_left (Nat.ne_of_gt hk)
    have htwo : 2 * stretch ≤ x := calc
      2 * stretch = stretch * 2 ^ 1 := Nat.mul_comm _ _
      _ ≤ stretch * 2 ^ k := Nat.mul_le_mul_left _ (Nat.pow_le_pow_right (by decide) hk)
      _ ≤ x := hlow
    have h0 : x ≠ 0 := by rintro rfl; exact absurd htwo (by decide)
    rw [Nat.mul_assoc, stretch_mul_two_pow, Nat.mul_comm, ← Nat.pow_succ] at hhigh
    rw [stretch_mul_two_pow] at hlow
    rw [if_neg (Nat.not_lt.mpr htwo), (Nat.log2_eq_iff h0).mpr ⟨hlow, hhigh⟩,
      Nat.add_sub_cancel_left]

/-- A whole number is rounded to a number of the units of its stretch. -/
theorem nearest_of_reach {n k : Nat} (h : Reach (n <<< 1074) k) :
    nearest n 1 = k * stretch + roundDiv (n <<< 1074) (2 ^ k) := by
  simp only [nearest, Nat.div_one, h.scale]
  rw [Nat.shiftLeft_eq 1, Nat.one_mul]

/-- A value has at least as many units as its stretch begins with, and at most as many as the next
one does. -/
theorem Reach.bounds {x k : Nat} (h : Reach x k) :
    (k = 0 ∨ stretch ≤ roundDiv x (2 ^ k)) ∧ roundDiv x (2 ^ k) ≤ 2 * stretch := by
  have hpos : 0 < 2 ^ k := Nat.two_pow_pos k
  constructor
  · refine h.low.imp_right fun hlow => ?_
    have := roundDiv_mono hlow hpos
    rwa [roundDiv_mul stretch hpos] at this
  · have := roundDiv_mono (Nat.le_of_lt h.high) hpos
    rwa [roundDiv_mul (2 * stretch) hpos] at this

/-- Rounding keeps the order of whole numbers. -/
theorem nearest_mono {m n : Nat} (h : m ≤ n) : nearest m 1 ≤ nearest n 1 := by
  have hunits : m <<< 1074 ≤ n <<< 1074 := by
    simpa only [Nat.shiftLeft_eq] using Nat.mul_le_mul_right _ h
  obtain ⟨j, hj⟩ := exists_reach (m <<< 1074)
  obtain ⟨k, hk⟩ := exists_reach (n <<< 1074)
  rw [nearest_of_reach hj, nearest_of_reach hk]
  rcases Nat.lt_trichotomy j k with hlt | rfl | hlt
  · have hnext : (j + 1) * stretch ≤ k * stretch := Nat.mul_le_mul_right _ hlt
    have hfew := hj.bounds.2
    have hmany := hk.bounds.1.resolve_left (by omega)
    rw [Nat.succ_mul] at hnext
    omega
  · exact Nat.add_le_add_left (roundDiv_mono hunits (Nat.two_pow_pos j)) _
  · -- the smaller number is in no later stretch
    have hlow := hj.low.resolve_left (by omega)
    have hpow : 2 ^ (k + 1) ≤ 2 ^ j := Nat.pow_le_pow_right (by decide) hlt
    have := calc
      n <<< 1074 < 2 * stretch * 2 ^ k := hk.high
      _ = stretch * 2 ^ (k + 1) := by ring
      _ ≤ stretch * 2 ^ j := Nat.mul_le_mul_left _ hpow
      _ ≤ m <<< 1074 := hlow
    omega

/-! ## The nearest magnitude -/

/-- No whole number of units is nearer than the rounded quotient. -/
theorem dist_roundDiv_le (x j : Nat) {u : Nat} (hu : 0 < u) :
    Nat.dist x (roundDiv x u * u) ≤ Nat.dist x (j * u) := by
  obtain ⟨hlow, hhigh⟩ := roundDiv_bounds (x := x) hu
  rcases Nat.lt_trichotomy j (roundDiv x u) with h | h | h
  · have := Nat.mul_le_mul_right u (Nat.succ_le_of_lt h)
    rw [Nat.succ_mul] at this
    simp only [Nat.dist]
    omega
  · rw [h]
  · have := Nat.mul_le_mul_right u (Nat.succ_le_of_lt h)
    rw [Nat.succ_mul] at this
    simp only [Nat.dist]
    omega

theorem units_eq (magnitude : Nat) :
    units magnitude = mantissaOf magnitude * 2 ^ scaleOf magnitude := by
  rw [units, Nat.shiftLeft_eq]

theorem mantissaOf_lt (magnitude : Nat) : mantissaOf magnitude < 2 * stretch := by
  rw [mantissaOf, scaleOf, stretch]
  omega

/-- A magnitude by its unit and its mantissa. -/
theorem units_add {k m : Nat} (hm : m < 2 * stretch) (h : k = 0 ∨ stretch ≤ m) :
    units (k * stretch + m) = m * 2 ^ k := by
  have hscale : scaleOf (k * stretch + m) = k := by
    rw [stretch] at hm h
    rw [scaleOf, stretch]
    omega
  rw [units_eq, mantissaOf, hscale, Nat.add_sub_cancel_left]

/-- The value of a rounded number is a whole number of the units of its stretch. -/
theorem Reach.units_eq {x k : Nat} (h : Reach x k) :
    units (k * stretch + roundDiv x (2 ^ k)) = roundDiv x (2 ^ k) * 2 ^ k := by
  obtain ⟨hleast, hmost⟩ := h.bounds
  rcases Nat.lt_or_eq_of_le hmost with hlt | heq
  · exact units_add hlt hleast
  · -- the number is rounded up to the beginning of the next stretch
    have hnext : k * stretch + 2 * stretch = (k + 1) * stretch + stretch := by ring
    rw [heq, hnext, units_add (by decide) (.inr (Nat.le_refl _)), Nat.pow_succ]
    ring

/-- The value of a magnitude is a whole number of units, or it lies before their stretch. -/
theorem exists_units_eq_or_lt (magnitude k : Nat) :
    (∃ j, units magnitude = j * 2 ^ k) ∨ (k ≠ 0 ∧ units magnitude < stretch * 2 ^ k) := by
  rw [units_eq]
  rcases Nat.lt_or_ge (scaleOf magnitude) k with h | h
  · refine .inr ⟨by omega, ?_⟩
    calc mantissaOf magnitude * 2 ^ scaleOf magnitude
        < 2 * stretch * 2 ^ scaleOf magnitude :=
          Nat.mul_lt_mul_of_pos_right (mantissaOf_lt magnitude) (Nat.two_pow_pos _)
      _ = stretch * 2 ^ (scaleOf magnitude + 1) := by ring
      _ ≤ stretch * 2 ^ k := Nat.mul_le_mul_left _ (Nat.pow_le_pow_right (by decide) h)
  · obtain ⟨i, hi⟩ := Nat.exists_eq_add_of_le h
    refine .inl ⟨mantissaOf magnitude * 2 ^ i, ?_⟩
    rw [hi, Nat.pow_add, Nat.mul_assoc, Nat.mul_comm (2 ^ i)]

/-- No magnitude is nearer to a whole number than the one that it is rounded to. -/
theorem dist_nearest_le (n magnitude : Nat) :
    Nat.dist (n <<< 1074) (units (nearest n 1)) ≤ Nat.dist (n <<< 1074) (units magnitude) := by
  obtain ⟨k, hk⟩ := exists_reach (n <<< 1074)
  have hpos := Nat.two_pow_pos k
  rw [nearest_of_reach hk, hk.units_eq]
  rcases exists_units_eq_or_lt magnitude k with ⟨j, hj⟩ | ⟨hne, hlt⟩
  · rw [hj]
    exact dist_roundDiv_le _ j hpos
  · -- the beginning of the stretch is a whole number of units, and nearer
    have hlow := hk.low.resolve_left hne
    have hstart := dist_roundDiv_le (n <<< 1074) stretch hpos
    simp only [Nat.dist] at hstart ⊢
    omega

/-! ## Numbers that are too large -/

/-- The least whole number that is too large for double precision: it lies half a unit below
`2 ^ 1024`. -/
def tooLarge : Nat :=
  2 ^ 1024 - 2 ^ 970

theorem nearest_lt_overflow_iff {n : Nat} : nearest n 1 < overflow ↔ n < tooLarge := by
  have hbound : overflow ≤ nearest tooLarge 1 := by decide +kernel
  have hbelow : nearest (tooLarge - 1) 1 < overflow := by decide +kernel
  constructor
  · intro h
    by_contra hn
    exact absurd (Nat.lt_of_le_of_lt (nearest_mono (Nat.not_lt.mp hn)) h) (Nat.not_lt.mpr hbound)
  · intro h
    exact Nat.lt_of_le_of_lt (nearest_mono (Nat.le_sub_one_of_lt h)) hbelow

/-- Digits without an exponent are rounded like the number they count to. -/
theorem ofDecimal?_zero (negative : Bool) (n : Nat) :
    ofDecimal? negative n 0 = ofRatio? negative n 1 := by
  have hlarge : (¬(Nat.toDigits 10 n).length ≤ 310) → ¬nearest n 1 < overflow := by
    intro h hlt
    rw [Nat.length_toDigits_le_iff (by decide) (by decide)] at h
    have : tooLarge ≤ 10 ^ 310 := by decide +kernel
    have := nearest_lt_overflow_iff.mp hlt
    omega
  unfold ofDecimal?
  split
  · rename_i hn
    subst hn
    rfl
  · simp only [Int.add_zero]
    split
    · rw [ofRatio?, dif_neg (hlarge (by omega))]
    · rw [if_neg (by omega)]
      simp only [Int.toNat_zero, Int.neg_zero, Nat.pow_eq, Nat.pow_zero, Nat.mul_one]

/-! ## The interval of a magnitude -/

/-- A magnitude beyond the first stretch: so many stretches, and a mantissa of full length. -/
theorem scaleOf_add_mantissaOf {magnitude : Nat} (h : stretch ≤ magnitude) :
    scaleOf magnitude * stretch + mantissaOf magnitude = magnitude ∧
      stretch ≤ mantissaOf magnitude ∧ mantissaOf magnitude < 2 * stretch := by
  have hpos : 0 < stretch := by decide
  have hdiv : 1 ≤ magnitude / stretch := (Nat.one_le_div_iff hpos).mpr h
  have hmod := Nat.mod_lt magnitude hpos
  have heq : stretch * (magnitude / stretch) + magnitude % stretch = magnitude :=
    Nat.div_add_mod magnitude stretch
  obtain ⟨k, hk⟩ := Nat.exists_eq_add_of_le hdiv
  rw [hk, Nat.mul_add, Nat.mul_one, Nat.mul_comm] at heq
  rw [mantissaOf, scaleOf, hk, Nat.add_sub_cancel_left]
  omega

/-- A value, in the least units, lies in the interval of a magnitude; at an end of it, only if the
mantissa is even. -/
structure Rounds (magnitude x : Nat) : Prop where
  low : (interval magnitude).1 ≤ 4 * x
  high : 4 * x ≤ (interval magnitude).2.2
  odd : mantissaOf magnitude % 2 = 1 →
    (interval magnitude).1 < 4 * x ∧ 4 * x < (interval magnitude).2.2

/-- The values in the interval of a magnitude have, in the units of their stretch, that magnitude
as their rounded quotient. -/
theorem Rounds.exists_reach {magnitude x : Nat} (hm : 2 * stretch ≤ magnitude)
    (h : Rounds magnitude x) :
    ∃ k, Reach x k ∧ k * stretch + roundDiv x (2 ^ k) = magnitude := by
  obtain ⟨hsum, hleast, hmost⟩ :=
    scaleOf_add_mantissaOf (Nat.le_trans (Nat.le_mul_of_pos_left _ (by decide)) hm)
  obtain ⟨hlow, hhigh, hodd⟩ := h
  simp only [interval, units, Nat.shiftLeft_eq, Nat.one_mul] at hlow hhigh hodd
  obtain ⟨k, hk⟩ : ∃ k, scaleOf magnitude = k + 1 :=
    Nat.exists_eq_succ_of_ne_zero fun h0 => by rw [h0] at hsum; omega
  rw [hk] at hsum hlow hhigh hodd
  generalize mantissaOf magnitude = m at *
  generalize hb : (if m = stretch then 2 ^ (k + 1) else 2 * 2 ^ (k + 1)) = below at hlow hodd
  have hbelow : below ≤ 2 * 2 ^ (k + 1) := by rw [← hb]; split <;> omega
  have hpos : 0 < 2 ^ (k + 1) := Nat.two_pow_pos _
  by_cases hx : stretch * 2 ^ (k + 1) ≤ x
  · -- the value has the unit of the magnitude
    have hnext := Nat.mul_le_mul_right (2 ^ (k + 1)) (Nat.succ_le_of_lt hmost)
    rw [Nat.succ_mul] at hnext
    have hround : roundDiv x (2 ^ (k + 1)) = m := roundDiv_eq (by omega) (by omega) (by omega) hpos
    exact ⟨k + 1, ⟨.inr hx, by omega⟩, by rw [hround, hsum]⟩
  · -- the value is rounded up from the stretch below, where the unit is half of it
    have hm : m = stretch := by
      refine Nat.le_antisymm (Nat.not_lt.mp fun hlt => ?_) hleast
      have := Nat.mul_le_mul_right (2 ^ (k + 1)) (Nat.succ_le_of_lt hlt)
      rw [Nat.succ_mul] at this
      omega
    subst hm
    rw [if_pos rfl] at hb
    have hhalf : 2 ^ (k + 1) = 2 * 2 ^ k := by rw [Nat.pow_succ, Nat.mul_comm]
    have hunit : 2 ^ k ≤ stretch * 2 ^ k := Nat.le_mul_of_pos_left _ (by decide)
    have hwhole : stretch * 2 ^ (k + 1) = 2 * (stretch * 2 ^ k) := by rw [hhalf]; ring
    have htwice : 2 * stretch * 2 ^ k = 2 * (stretch * 2 ^ k) := Nat.mul_assoc _ _ _
    have hround : roundDiv x (2 ^ k) = 2 * stretch :=
      roundDiv_eq (by omega) (by omega) (by omega) (Nat.two_pow_pos k)
    refine ⟨k, ⟨.inr (by omega), by omega⟩, ?_⟩
    rw [Nat.succ_mul] at hsum
    omega

/-- The whole numbers in the interval of a magnitude are rounded to it. -/
theorem nearest_of_rounds {magnitude n : Nat} (hm : 2 * stretch ≤ magnitude)
    (h : Rounds magnitude (n <<< 1074)) : nearest n 1 = magnitude := by
  obtain ⟨k, hk, heq⟩ := h.exists_reach hm
  rw [nearest_of_reach hk, heq]

end RowPolicy.Double
