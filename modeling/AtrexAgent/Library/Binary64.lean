import Mathlib

/-! Binary64 numbers as the rationals they stand for: rounding to the nearest one, ties to even. Quotients that
overflow are outside of what is modelled here. -/

namespace AtrexAgent.Binary64

/-- The nearest integer, ties to even. -/
def roundHalfEven (q : ℚ) : ℤ :=
  if q - ⌊q⌋ < 1 / 2 then ⌊q⌋
  else if 1 / 2 < q - ⌊q⌋ then ⌊q⌋ + 1
  else if Even ⌊q⌋ then ⌊q⌋ else ⌊q⌋ + 1

/-- The distance between neighbouring numbers at a magnitude. -/
def spacing (q : ℚ) : ℚ := 2 ^ (max (Int.log 2 |q|) (-1022) - 52)

/-- The binary64 number that is nearest. -/
def nearest (q : ℚ) : ℚ := roundHalfEven (q / spacing q) * spacing q

/-- The quotient of two integers. -/
def trueDiv (a b : ℤ) : ℚ := nearest (a / b)

/-- `round(x, digits)` -/
def roundTo (digits : ℕ) (x : ℚ) : ℚ := nearest (roundHalfEven (x * 10 ^ digits) / 10 ^ digits)

/-! ### Rounding to an integer -/

theorem floor_le_roundHalfEven (q : ℚ) : ⌊q⌋ ≤ roundHalfEven q := by
  unfold roundHalfEven
  split_ifs <;> omega

theorem roundHalfEven_le_succ (q : ℚ) : roundHalfEven q ≤ ⌊q⌋ + 1 := by
  unfold roundHalfEven
  split_ifs <;> omega

/-- What exceeds an integer by more than a half is rounded past it; by a half, where the integer is odd. -/
theorem lt_roundHalfEven_iff (n : ℤ) (q : ℚ) :
    n < roundHalfEven q ↔ n + 1 / 2 < q ∨ (n + 1 / 2 = q ∧ ¬ Even n) := by
  have low := Int.floor_le q
  have high := Int.lt_floor_add_one q
  rcases lt_trichotomy n ⌊q⌋ with less | same | more
  · have half_less : (n : ℚ) + 1 / 2 < q := by
      have next : (n : ℚ) + 1 ≤ ⌊q⌋ := by exact_mod_cast less
      linarith
    exact iff_of_true (less.trans_le (floor_le_roundHalfEven q)) (.inl half_less)
  · subst same
    unfold roundHalfEven
    split_ifs with below above even
    · exact iff_of_false (lt_irrefl _) (by rintro (past | ⟨half, -⟩) <;> linarith)
    · exact iff_of_true (lt_add_one _) (.inl (by linarith))
    · exact iff_of_false (lt_irrefl _) (by rintro (past | ⟨-, odd⟩); exacts [above (by linarith), odd even])
    · exact iff_of_true (lt_add_one _) (.inr ⟨by linarith, even⟩)
  · refine iff_of_false (not_lt.mpr ((roundHalfEven_le_succ q).trans more)) ?_
    have past : q < n := high.trans_le (by exact_mod_cast more)
    rintro (less | ⟨same, -⟩) <;> linarith

theorem roundHalfEven_le (q : ℚ) : (roundHalfEven q : ℚ) ≤ q + 1 / 2 := by
  by_contra past
  have less : roundHalfEven q - 1 < roundHalfEven q := by omega
  rw [lt_roundHalfEven_iff] at less
  push_cast at less
  rcases less with less | ⟨same, -⟩ <;> linarith

@[simp] theorem roundHalfEven_intCast (n : ℤ) : roundHalfEven n = n := by
  simp [roundHalfEven]

/-! ### The nearest number -/

theorem spacing_pos (q : ℚ) : 0 < spacing q := by
  unfold spacing
  positivity

theorem nearest_le (q : ℚ) : nearest q ≤ q + spacing q / 2 := by
  have rounded := mul_le_mul_of_nonneg_right (roundHalfEven_le (q / spacing q)) (spacing_pos q).le
  rw [add_mul, div_mul_cancel₀ q (spacing_pos q).ne'] at rounded
  unfold nearest
  linarith

theorem nearest_nonpos {q : ℚ} (nonpos : q ≤ 0) : nearest q ≤ 0 := by
  have quotient : q / spacing q ≤ 0 := div_nonpos_of_nonpos_of_nonneg nonpos (spacing_pos q).le
  have rounded : roundHalfEven (q / spacing q) ≤ 0 := by
    rw [← not_lt, lt_roundHalfEven_iff]
    push_cast
    rintro (less | ⟨same, -⟩) <;> linarith
  exact mul_nonpos_of_nonpos_of_nonneg (by exact_mod_cast rounded) (spacing_pos q).le

theorem spacing_below_one {q : ℚ} (positive : 0 < q) (below : q < 1) : spacing q ≤ 2 ^ (-53 : ℤ) := by
  have log : Int.log 2 |q| < 0 := by
    rw [abs_of_pos positive, Int.lt_zpow_iff_log_lt (by norm_num) positive |>.symm]
    simpa using below
  exact zpow_le_zpow_right₀ (by norm_num) (by omega)

theorem spacing_upper_half {q : ℚ} (half : 1 / 2 ≤ q) (below : q < 1) : spacing q = 2 ^ (-53 : ℤ) := by
  have log : Int.log 2 |q| = -1 := by
    have positive : 0 < q := by linarith
    rw [abs_of_pos positive]
    have less : Int.log 2 q < 0 := by
      rw [← Int.lt_zpow_iff_log_lt (by norm_num) positive]
      simpa using below
    have least : -1 ≤ Int.log 2 q := by
      rw [← Int.zpow_le_iff_le_log (by norm_num) positive]
      norm_num
      linarith
    omega
  rw [spacing, log]
  norm_num

/-- The spacing between two powers of two. -/
theorem spacing_eq {q : ℚ} {k : ℤ} (normal : -1022 ≤ k) (low : 2 ^ k ≤ q) (high : q < 2 ^ (k + 1)) : spacing q = 2 ^ (k - 52) := by
  have positive : 0 < q := lt_of_lt_of_le (by positivity) low
  have log : Int.log 2 |q| = k := by
    rw [abs_of_pos positive]
    have less : Int.log 2 q < k + 1 := (Int.lt_zpow_iff_log_lt (by norm_num) positive).mp (by exact_mod_cast high)
    have least : k ≤ Int.log 2 q := (Int.zpow_le_iff_le_log (by norm_num) positive).mp (by exact_mod_cast low)
    omega
  rw [spacing, log, max_eq_left normal]

/-- Where numbers are larger they are spaced at least as wide. -/
theorem spacing_divides {x y : ℚ} (positive : 0 < x) (le : x ≤ y) : ∃ n : ℕ, spacing y = n * spacing x := by
  have logs : Int.log 2 |x| ≤ Int.log 2 |y| := by
    rw [abs_of_pos positive, abs_of_pos (positive.trans_le le)]
    exact Int.log_mono_right positive le
  obtain ⟨k, more⟩ := Int.eq_ofNat_of_zero_le (sub_nonneg.mpr (max_le_max_right (-1022) logs))
  refine ⟨2 ^ k, ?_⟩
  rw [spacing, spacing, Nat.cast_pow, Nat.cast_ofNat, ← zpow_natCast, ← zpow_add₀ (by norm_num)]
  congr 1
  omega

/-- A number on the grid of a larger one is a binary64 number. -/
theorem nearest_of_multiple {x y : ℚ} (nonneg : 0 ≤ x) (le : x ≤ y) {m : ℤ} (multiple : x = m * spacing y) : nearest x = x := by
  rcases nonneg.eq_or_lt with zero | positive
  · rw [← zero]
    simp [nearest, roundHalfEven]
  · obtain ⟨n, wider⟩ := spacing_divides positive le
    have whole : x / spacing x = ((m * n : ℤ) : ℚ) := by
      rw [div_eq_iff (spacing_pos x).ne']
      push_cast
      rw [mul_assoc, ← wider]
      exact multiple
    rw [nearest, whole, roundHalfEven_intCast, ← whole, div_mul_cancel₀ x (spacing_pos x).ne']

/-- Below `2 ^ 53` the spacing divides every integer. -/
theorem integer_on_grid {y : ℚ} (positive : 0 < y) (below : y < 2 ^ 53) (n : ℤ) : ∃ m : ℤ, (n : ℚ) = m * spacing y := by
  have log : Int.log 2 |y| < 53 := by
    rw [abs_of_pos positive]
    exact (Int.lt_zpow_iff_log_lt (by norm_num) positive).mp (by exact_mod_cast below)
  obtain ⟨k, rest⟩ := Int.eq_ofNat_of_zero_le (show 0 ≤ -(max (Int.log 2 |y|) (-1022) - 52) by omega)
  refine ⟨n * 2 ^ k, ?_⟩
  have inverse : (2 : ℚ) ^ k * spacing y = 1 := by
    rw [spacing, ← zpow_natCast, ← zpow_add₀ (by norm_num)]
    have none_left : (k : ℤ) + (max (Int.log 2 |y|) (-1022) - 52) = 0 := by omega
    rw [none_left, zpow_zero]
  push_cast
  rw [mul_assoc, inverse, mul_one]

theorem nearest_natCast {n : ℕ} (small : n < 2 ^ 53) : nearest n = n := by
  rcases Nat.eq_zero_or_pos n with zero | positive
  · rw [zero]
    simp [nearest, roundHalfEven]
  · have below : (n : ℚ) < 2 ^ 53 := by exact_mod_cast small
    obtain ⟨m, multiple⟩ := integer_on_grid (by exact_mod_cast positive) below n
    exact nearest_of_multiple (Nat.cast_nonneg n) le_rfl multiple

theorem nearest_one : nearest 1 = 1 := by
  have spaced : spacing 1 = 2 ^ (-52 : ℤ) := by simp [spacing]
  have whole : (1 : ℚ) / 2 ^ (-52 : ℤ) = ((2 ^ 52 : ℤ) : ℚ) := by norm_num
  rw [nearest, spaced, whole, roundHalfEven_intCast]
  norm_num

theorem nearest_lt_one {q : ℚ} (below : q ≤ 0.999999) : nearest q < 1 := by
  rcases le_or_gt q 0 with nonpos | positive
  · exact (nearest_nonpos nonpos).trans_lt one_pos
  · have small := spacing_below_one positive (by linarith)
    have near := nearest_le q
    norm_num at small
    linarith

/-! ### A share of a whole -/

theorem roundTo_six_iff {x : ℚ} (at_most : x ≤ 1) : roundTo 6 x = 1 ↔ 0.9999995 ≤ x := by
  have rounded : 999999 < roundHalfEven (x * 10 ^ 6) ↔ 0.9999995 ≤ x := by
    rw [lt_roundHalfEven_iff]
    have odd : ¬ Even (999999 : ℤ) := by decide
    simp only [odd, not_false_iff, and_true]
    push_cast
    constructor
    · rintro (less | same) <;> linarith
    · intro least
      rcases least.lt_or_eq with less | same
      · left
        linarith
      · right
        linarith
  have capped : roundHalfEven (x * 10 ^ 6) ≤ 10 ^ 6 := by
    rw [← not_lt, lt_roundHalfEven_iff]
    have scaled : x * 10 ^ 6 ≤ 10 ^ 6 := mul_le_of_le_one_left (by positivity) at_most
    push_cast
    rintro (less | ⟨same, -⟩) <;> linarith
  rw [← rounded]
  constructor
  · intro one
    by_contra small
    have shown : (roundHalfEven (x * 10 ^ 6) : ℚ) ≤ 999999 := by exact_mod_cast not_lt.mp small
    have less := nearest_lt_one (q := roundHalfEven (x * 10 ^ 6) / 10 ^ 6) (by
      rw [div_le_iff₀ (by positivity)]
      exact shown.trans (by norm_num))
    exact less.ne one
  · intro large
    have all : roundHalfEven (x * 10 ^ 6) = 10 ^ 6 := by omega
    rw [roundTo, all]
    norm_num [nearest_one]

/-- A share of a whole is shown as 1 where less than half of the last digit is missing, up to the rounding of the quotient
itself: the bound is the middle between the two numbers around 0.9999995. -/
theorem share_is_one_iff {part whole : ℤ} (positive : 0 < whole) (within : part ≤ whole) :
    roundTo 6 (trueDiv part whole) = 1 ↔ 18014389502282729 * whole < 2 ^ 54 * part := by
  have whole_pos : (0 : ℚ) < whole := by exact_mod_cast positive
  have threshold : 18014389502282729 * whole < 2 ^ 54 * part ↔
      (9007194751141364 + 1 / 2 : ℚ) < part / whole * 2 ^ 53 := by
    rw [div_mul_eq_mul_div, lt_div_iff₀ whole_pos, ← @Int.cast_lt ℚ]
    push_cast
    constructor <;> intro less <;> linarith
  rcases within.lt_or_eq with less | rfl
  · have below : (part / whole : ℚ) < 1 := by
      rw [div_lt_one whole_pos]
      exact_mod_cast less
    rw [threshold]
    rcases lt_or_ge (part / whole : ℚ) (1 / 2) with small | half
    · have near : nearest (part / whole : ℚ) ≤ 0.9 := by
        rcases le_or_gt (part / whole : ℚ) 0 with nonpos | share_pos
        · linarith [nearest_nonpos nonpos]
        · have spaced := spacing_below_one share_pos below
          norm_num at spaced
          linarith [nearest_le (part / whole : ℚ)]
      rw [trueDiv, roundTo_six_iff (by linarith)]
      constructor <;> intro large <;> linarith
    · have digits : nearest (part / whole : ℚ) = roundHalfEven (part / whole * 2 ^ 53) / 2 ^ 53 := by
        have scale : (2 : ℚ) ^ (-53 : ℤ) = (2 ^ 53)⁻¹ := by norm_num
        rw [nearest, spacing_upper_half half below, scale, div_inv_eq_mul, div_eq_mul_inv _ ((2 : ℚ) ^ 53)]
      have capped : roundHalfEven (part / whole * 2 ^ 53) ≤ 2 ^ 53 := by
        rw [← not_lt, lt_roundHalfEven_iff]
        push_cast
        rintro (more | ⟨same, -⟩) <;> linarith
      have capped : (roundHalfEven (part / whole * 2 ^ 53) : ℚ) ≤ 2 ^ 53 := by exact_mod_cast capped
      have even : Even (9007194751141364 : ℤ) := by decide
      have rounded := lt_roundHalfEven_iff 9007194751141364 (part / whole * 2 ^ 53)
      simp only [even, not_true, and_false, or_false] at rounded
      push_cast at rounded
      rw [trueDiv, digits, roundTo_six_iff ((div_le_one (by positivity)).mpr capped), ← rounded,
        le_div_iff₀ (by positivity)]
      constructor
      · intro least
        rw [← @Int.cast_lt ℚ]
        push_cast
        norm_num at least ⊢
        linarith
      · intro more
        have next : ((9007194751141364 + 1 : ℤ) : ℚ) ≤ roundHalfEven (part / whole * 2 ^ 53) := by exact_mod_cast more
        push_cast at next
        norm_num at next ⊢
        linarith
  · rw [trueDiv, div_self whole_pos.ne', nearest_one, roundTo_six_iff le_rfl]
    norm_num
    omega

end AtrexAgent.Binary64
