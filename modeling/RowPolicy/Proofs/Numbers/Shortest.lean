import RowPolicy.Proofs.Numbers.Rounding

/-!
# Whole numbers in decimal

The digits that are printed for a magnitude are searched on decimal grids that grow finer. A
magnitude from `2 ^ 63` on is a whole number itself, and one of the grids of whole numbers that are
searched is finer than its unit (`Large.exists_grid`). So the search ends there at the latest, and
what it finds is a whole number that is rounded to the magnitude (`Large.exists_shortest`).
-/

namespace RowPolicy.Double

/-! ## Powers -/

theorem mul_shiftLeft (d u s : Nat) : (d * u) <<< s = d * u <<< s := by
  rw [Nat.shiftLeft_eq, Nat.shiftLeft_eq, Nat.mul_assoc]

theorem add_shiftLeft (u v s : Nat) : (u + v) <<< s = u <<< s + v <<< s := by
  rw [Nat.shiftLeft_eq, Nat.shiftLeft_eq, Nat.shiftLeft_eq, Nat.add_mul]

theorem shiftLeft_le_shiftLeft {u v : Nat} (h : u ≤ v) (s : Nat) : u <<< s ≤ v <<< s := by
  simpa only [Nat.shiftLeft_eq] using Nat.mul_le_mul_right (2 ^ s) h

theorem two_pow_shiftLeft (k s : Nat) : (2 ^ k) <<< s = 2 ^ (k + s) := by
  rw [Nat.shiftLeft_eq, Nat.pow_add]

theorem two_pow_shiftLeft_lt {k s e : Nat} (h : k + s < e) : (2 ^ k) <<< s < 2 ^ e := by
  rw [two_pow_shiftLeft]
  exact Nat.pow_lt_pow_right (by decide) h

theorem ten_pow_le_two_pow {k m : Nat} (h : 10 * k ≤ 3 * m) : 10 ^ k ≤ 2 ^ m := by
  refine le_of_pow_le_pow_left₀ (n := 3) (by decide) (Nat.zero_le _) ?_
  calc (10 ^ k) ^ 3 = (10 ^ 3) ^ k := by rw [← Nat.pow_mul, ← Nat.pow_mul, Nat.mul_comm]
    _ ≤ (2 ^ 10) ^ k := Nat.pow_le_pow_left (by decide) k
    _ = 2 ^ (10 * k) := by rw [← Nat.pow_mul]
    _ ≤ 2 ^ (3 * m) := Nat.pow_le_pow_right (by decide) h
    _ = (2 ^ m) ^ 3 := by rw [← Nat.pow_mul, Nat.mul_comm]

/-! ## Points of a grid -/

/-- The points that are taken are those in the interval. -/
theorem admits_iff {magnitude x : Nat} :
    admits magnitude 1 (4 * x) = true ↔ Rounds magnitude x := by
  rcases Nat.mod_two_eq_zero_or_one (mantissaOf magnitude) with h | h
  · have : admits magnitude 1 (4 * x) = true ↔
        (interval magnitude).1 ≤ 4 * x ∧ 4 * x ≤ (interval magnitude).2.2 := by
      simp [admits, h]
    exact this.trans ⟨fun hx => ⟨hx.1, hx.2, fun hodd => by omega⟩, fun hx => ⟨hx.low, hx.high⟩⟩
  · have : admits magnitude 1 (4 * x) = true ↔
        (interval magnitude).1 < 4 * x ∧ 4 * x < (interval magnitude).2.2 := by
      simp [admits, h]
    exact this.trans
      ⟨fun hx => ⟨Nat.le_of_lt hx.1, Nat.le_of_lt hx.2, fun _ => hx⟩, fun hx => hx.odd h⟩

/-- A step of a grid, in quarters of a unit. -/
theorem shiftLeft_add_two (u s : Nat) : u <<< (s + 2) = 4 * u <<< s := by
  rw [Nat.shiftLeft_succ, Nat.shiftLeft_succ]
  omega

/-- On a grid of whole numbers, too, the points that are taken are those in the interval. -/
theorem admits_grid_iff {magnitude p d : Nat} :
    admits magnitude 1 (d * (10 ^ p) <<< 1076) = true ↔
      Rounds magnitude ((d * 10 ^ p) <<< 1074) := by
  rw [shiftLeft_add_two (10 ^ p) 1074, Nat.mul_left_comm, ← mul_shiftLeft, admits_iff]

/-- A point of a grid of whole numbers that is taken lies in the interval. -/
theorem rounds_of_gridPoint? {magnitude p d : Nat} (h : gridPoint? magnitude p = some d) :
    Rounds magnitude ((d * 10 ^ p) <<< 1074) := by
  simp only [gridPoint?, Int.toNat_natCast, Int.toNat_neg_natCast, Nat.pow_eq, Nat.pow_zero,
    Nat.mul_one] at h
  generalize (interval magnitude).2.1 / (10 ^ p) <<< 1076 = d₀ at h
  split at h
  · rename_i hboth
    obtain ⟨hbelow, habove⟩ := Bool.and_eq_true_iff.mp hboth
    obtain rfl := Option.some.inj h
    split
    · exact admits_grid_iff.mp hbelow
    · exact admits_grid_iff.mp habove
  split at h
  · rename_i hbelow
    obtain rfl := Option.some.inj h
    exact admits_grid_iff.mp hbelow
  split at h
  · rename_i habove
    obtain rfl := Option.some.inj h
    exact admits_grid_iff.mp habove
  · cases h

/-- A point is taken where the one above a magnitude lies in its interval. -/
theorem gridPoint?_isSome {magnitude p : Nat}
    (h : Rounds magnitude (((4 * units magnitude / (10 ^ p) <<< 1076 + 1) * 10 ^ p) <<< 1074)) :
    (gridPoint? magnitude p).isSome = true := by
  rw [← admits_grid_iff] at h
  simp only [gridPoint?, interval, Int.toNat_natCast, Int.toNat_neg_natCast, Nat.pow_eq,
    Nat.pow_zero, Nat.mul_one, h, Bool.and_true, if_true]
  split <;> rfl

/-! ## The search -/

/-- The search ends at the latest on a grid on which a point is taken. -/
theorem searchGrids_of_isSome {point? : Int → Option Nat} {n : Nat} {place : Int} {k : Nat}
    (hk : k < n) (h : (point? (place - k)).isSome = true) :
    ∃ j ≤ k, ∃ d, point? (place - j) = some d ∧
      searchGrids point? n place = (d, place - j) := by
  induction n generalizing place k with
  | zero => exact absurd hk (Nat.not_lt_zero k)
  | succ n ih =>
    cases hd : point? place with
    | some d =>
      refine ⟨0, Nat.zero_le k, d, ?_⟩
      rw [Int.natCast_zero, Int.sub_zero, searchGrids, hd]
      exact ⟨rfl, rfl⟩
    | none =>
      cases k with
      | zero =>
        rw [Int.natCast_zero, Int.sub_zero, hd] at h
        cases h
      | succ k =>
        have hplace (i : Nat) : place - 1 - i = place - (i + 1 : Nat) := by omega
        rw [← hplace] at h
        obtain ⟨j, hj, d, hpoint, hsearch⟩ := ih (Nat.lt_of_succ_lt_succ hk) h
        refine ⟨j + 1, Nat.succ_le_succ hj, d, ?_⟩
        rw [searchGrids, hd, ← hplace]
        exact ⟨hpoint, hsearch⟩

/-! ## Values of a magnitude -/

theorem log2_units {magnitude : Nat} (h : stretch ≤ magnitude) :
    (units magnitude).log2 = 52 + scaleOf magnitude := by
  obtain ⟨-, hleast, hmost⟩ := scaleOf_add_mantissaOf h
  have hlow := Nat.mul_le_mul_right (2 ^ scaleOf magnitude) hleast
  have hhigh := Nat.mul_lt_mul_of_pos_right hmost (Nat.two_pow_pos (scaleOf magnitude))
  rw [Nat.mul_assoc, stretch_mul_two_pow, Nat.mul_comm 2, ← Nat.pow_succ] at hhigh
  rw [stretch_mul_two_pow] at hlow
  rw [units_eq]
  have hpos := Nat.two_pow_pos (52 + scaleOf magnitude)
  exact (Nat.log2_eq_iff (by omega)).mpr ⟨hlow, hhigh⟩

/-- The values from a magnitude on that are less than half a unit away lie in its interval. -/
theorem rounds_of_le {magnitude x : Nat} (hlow : units magnitude ≤ x)
    (hhigh : 2 * x < 2 * units magnitude + 2 ^ scaleOf magnitude) : Rounds magnitude x := by
  have hpos := Nat.two_pow_pos (scaleOf magnitude)
  have hunit : 1 <<< scaleOf magnitude = 2 ^ scaleOf magnitude := Nat.one_shiftLeft _
  refine ⟨?_, ?_, fun hodd => ?_⟩
  · simp only [interval]
    omega
  · simp only [interval, hunit]
    omega
  · have hunits : 0 < units magnitude := by
      rw [units_eq]
      exact Nat.mul_pos (by omega) hpos
    simp only [interval, hunit]
    constructor
    · split <;> omega
    · omega

/-- On a grid that is finer than half a unit some point is taken. -/
theorem gridPoint?_isSome_of_lt {magnitude p : Nat}
    (h : (10 ^ p) <<< 1075 < 2 ^ scaleOf magnitude) : (gridPoint? magnitude p).isSome = true := by
  have hpos : 0 < (10 ^ p) <<< 1074 :=
    Nat.lt_of_lt_of_le (Nat.pow_pos (by decide)) Nat.le_shiftLeft
  apply gridPoint?_isSome
  rw [shiftLeft_add_two (10 ^ p) 1074, Nat.mul_div_mul_left _ _ (by decide), mul_shiftLeft]
  rw [Nat.shiftLeft_succ] at h
  generalize (10 ^ p) <<< 1074 = step at h hpos ⊢
  -- the next point is at most a step of the grid away
  have hbelow := Nat.div_mul_le_self (units magnitude) step
  have habove := Nat.lt_mul_div_succ (units magnitude) hpos
  rw [Nat.mul_comm] at habove
  have hnext := Nat.add_one_mul (units magnitude / step) step
  exact rounds_of_le (Nat.le_of_lt habove) (by omega)

/-! ## Large magnitudes -/

/-- The magnitudes of finite numbers from `2 ^ 63` on. -/
structure Large (magnitude : Nat) : Prop where
  low : 1086 * stretch ≤ magnitude
  high : magnitude < overflow

theorem nearest_two_pow : nearest (2 ^ 63) 1 = 1086 * stretch := by
  decide +kernel

/-- The whole numbers from `2 ^ 63` on that are not too large have a large magnitude. -/
theorem large_nearest {n : Nat} (hlow : 2 ^ 63 ≤ n) (hhigh : n < tooLarge) :
    Large (nearest n 1) where
  low := nearest_two_pow ▸ nearest_mono hlow
  high := nearest_lt_overflow_iff.mpr hhigh

namespace Large

variable {magnitude : Nat}

theorem two_mul_stretch_le (h : Large magnitude) : 2 * stretch ≤ magnitude :=
  Nat.le_trans (Nat.mul_le_mul_right stretch (by decide)) h.low

theorem scaleOf_bounds (h : Large magnitude) :
    1085 ≤ scaleOf magnitude ∧ scaleOf magnitude ≤ 2045 := by
  have hpos : 0 < stretch := by decide
  have hlow : 1086 ≤ magnitude / stretch := (Nat.le_div_iff_mul_le hpos).mpr h.low
  have hhigh : magnitude / stretch < 0x7ff := (Nat.div_lt_iff_lt_mul hpos).mpr h.high
  rw [scaleOf]
  omega

/-- A large number is whole. -/
theorem exists_whole (h : Large magnitude) : ∃ n, 2 ^ 63 ≤ n ∧ n <<< 1074 = units magnitude := by
  obtain ⟨k, hk⟩ := Nat.exists_eq_add_of_le h.scaleOf_bounds.1
  have hmantissa : stretch ≤ mantissaOf magnitude :=
    (scaleOf_add_mantissaOf (Nat.le_trans (by decide) h.low)).2.1
  refine ⟨mantissaOf magnitude * 2 ^ (11 + k), ?_, ?_⟩
  · calc 2 ^ 63 = stretch * 2 ^ 11 := by decide
      _ ≤ mantissaOf magnitude * 2 ^ (11 + k) :=
        Nat.mul_le_mul hmantissa (Nat.pow_le_pow_right (by decide) (by omega))
  · rw [mul_shiftLeft, two_pow_shiftLeft, units_eq, hk, Nat.add_right_comm]

/-- Of the grids that are searched, one of whole numbers is fine enough. -/
theorem exists_grid (h : Large magnitude) :
    ∃ k q : Nat, k < 24 ∧
      (((units magnitude).log2 : Int) - 1074) * 30103 / 100000 + 2 - k = q ∧
      (gridPoint? magnitude q).isSome = true := by
  obtain ⟨hleast, hmost⟩ := h.scaleOf_bounds
  obtain ⟨e, he⟩ := Nat.exists_eq_add_of_le hleast
  have hlow : stretch ≤ magnitude :=
    Nat.le_trans (Nat.le_mul_of_pos_left _ (by decide)) h.low
  obtain ⟨start, hstart⟩ : ∃ start, start = (e + 63) * 30103 / 100000 + 2 := ⟨_, rfl⟩
  refine ⟨min start 23, start - 23, by omega, ?_, gridPoint?_isSome_of_lt ?_⟩
  · rw [log2_units hlow, he]
    omega
  · -- a decimal step is less than four binary ones, and that suffices for these grids
    have hten : 10 ^ (start - 23) ≤ 2 ^ (e + 9) := ten_pow_le_two_pow (by omega)
    calc (10 ^ (start - 23)) <<< 1075 ≤ (2 ^ (e + 9)) <<< 1075 := shiftLeft_le_shiftLeft hten _
      _ < 2 ^ scaleOf magnitude := two_pow_shiftLeft_lt (by omega)

/-- What is printed for a large magnitude are the digits of a whole number that is rounded to
it. -/
theorem exists_shortest (h : Large magnitude) :
    ∃ d p : Nat, shortest magnitude = (d, (p : Int)) ∧ nearest (d * 10 ^ p) 1 = magnitude := by
  have htwo := h.two_mul_stretch_le
  have hpos : 0 < stretch := by decide
  obtain ⟨k, q, hk, hq, hgrid⟩ := h.exists_grid
  rw [← hq] at hgrid
  obtain ⟨j, hj, d, hd, hsearch⟩ := searchGrids_of_isSome hk hgrid
  obtain ⟨p, hp⟩ : ∃ p : Nat,
      (((units magnitude).log2 : Int) - 1074) * 30103 / 100000 + 2 - j = p :=
    Int.eq_ofNat_of_zero_le (by omega)
  rw [hp] at hd hsearch
  refine ⟨d, p, ?_, nearest_of_rounds htwo (rounds_of_gridPoint? hd)⟩
  rw [shortest, if_neg (by omega)]
  exact hsearch

/-- The whole number that is printed is beyond `2 ^ 63`, the least large number itself included. -/
theorem lt_of_shortest (h : Large magnitude) {d p : Nat}
    (hprinted : shortest magnitude = (d, (p : Int))) (hd : nearest (d * 10 ^ p) 1 = magnitude) :
    2 ^ 63 < d * 10 ^ p := by
  by_contra hle
  have hmagnitude : magnitude = 1086 * stretch := by
    refine Nat.le_antisymm ?_ h.low
    rw [← nearest_two_pow, ← hd]
    exact nearest_mono (Nat.not_lt.mp hle)
  have hshortest : shortest (1086 * stretch) = (9223372036854776, 3) := by decide +kernel
  rw [hmagnitude, hshortest] at hprinted
  obtain ⟨rfl, hp⟩ := Prod.mk.inj hprinted
  obtain rfl : p = 3 := by omega
  exact hle (by decide)

/-- Two whole numbers beyond `2 ^ 63` at least are rounded to a large magnitude. -/
theorem exists_two (h : Large magnitude) :
    ∃ n, 2 ^ 63 < n ∧ nearest n 1 = magnitude ∧ nearest (n + 1) 1 = magnitude := by
  have hleast := h.scaleOf_bounds.1
  have hunit : 1 <<< 1076 < 2 ^ scaleOf magnitude := two_pow_shiftLeft_lt (k := 0) (by omega)
  rw [shiftLeft_add_two 1 1074] at hunit
  obtain ⟨n, hn, hunits⟩ := h.exists_whole
  have hround (d : Nat) (hd : d ≤ 2) : nearest (n + d) 1 = magnitude := by
    refine nearest_of_rounds h.two_mul_stretch_le ?_
    have hmul : (d * 1) <<< 1074 = d * 1 <<< 1074 := mul_shiftLeft d 1 _
    have hle : d * 1 <<< 1074 ≤ 2 * 1 <<< 1074 := Nat.mul_le_mul_right _ hd
    rw [Nat.mul_one] at hmul
    rw [add_shiftLeft, hunits, hmul]
    generalize 1 <<< 1074 = u at hunit hle ⊢
    exact rounds_of_le (Nat.le_add_right _ _) (by omega)
  exact ⟨n + 1, by omega, hround 1 (by decide), hround 2 (by decide)⟩

end Large

end RowPolicy.Double
