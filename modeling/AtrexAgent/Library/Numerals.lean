import Mathlib

/-! Decimal numerals padded with zeros, and the order of names: among numerals of one width it is the order of the
numbers, and a numeral that is too long for the width comes too early. -/

namespace AtrexAgent.Numerals

variable {width m n : Nat}

/-- `str(n)` -/
def decimal (n : Nat) : List Char := Nat.toDigits 10 n

/-- `format(n, f"0{width}d")` -/
def padded (width n : Nat) : List Char := List.replicate (width - (decimal n).length) '0' ++ decimal n

/-! ### The order of texts -/

section

variable {α : Type*} [LinearOrder α] {a b : List α}

theorem append_lt_append (same : a.length = b.length) (less : a < b) (s t : List α) : a ++ s < b ++ t := by
  induction a generalizing b with
  | nil =>
      cases b with
      | nil => exact absurd less (lt_irrefl _)
      | cons y b => cases same
  | cons x a ih =>
      cases b with
      | nil => cases same
      | cons y b =>
          rw [List.cons_append, List.cons_append, List.cons_lt_cons_iff]
          rcases List.cons_lt_cons_iff.mp less with first | ⟨first, rest⟩
          · exact .inl first
          · exact .inr ⟨first, ih (Nat.succ.inj same) rest⟩

theorem le_append (a s : List α) : a ≤ a ++ s := by
  rw [← not_lt]
  intro less
  induction a with
  | nil => cases s <;> cases less
  | cons x a ih =>
      rcases List.cons_lt_cons_iff.mp less with first | ⟨-, rest⟩
      · exact lt_irrefl x first
      · exact ih rest

theorem append_le_append_iff (s : List α) : s ++ a ≤ s ++ b ↔ a ≤ b := by
  induction s with
  | nil => rfl
  | cons x s ih =>
      rw [← ih, List.cons_append, List.cons_append, ← not_lt, ← not_lt, List.cons_lt_cons_iff]
      simp

end

/-! ### Numerals of one width -/

theorem decimal_small (small : n < 10) : decimal n = [n.digitChar] := Nat.toDigits_of_lt_base small

theorem decimal_large (large : 10 ≤ n) : decimal n = decimal (n / 10) ++ [(n % 10).digitChar] :=
  Nat.toDigits_of_base_le (by decide) large

theorem padded_succ (positive : 0 < width) (n : Nat) :
    padded (width + 1) n = padded width (n / 10) ++ [(n % 10).digitChar] := by
  rcases Nat.lt_or_ge n 10 with small | large
  · have one_less : padded width 0 = List.replicate width '0' := by
      obtain ⟨less, rfl⟩ := Nat.exists_eq_add_one.mpr positive
      rw [List.replicate_succ']
      rfl
    rw [Nat.div_eq_of_lt small, Nat.mod_eq_of_lt small, one_less, padded, decimal_small small]
    rfl
  · rw [padded, padded, decimal_large large, List.length_append, List.length_singleton, Nat.add_sub_add_right,
      List.append_assoc]

theorem padded_length (positive : 0 < width) (bound : n < 10 ^ width) : (padded width n).length = width := by
  have short := (Nat.length_toDigits_le_iff (b := 10) (n := n) (by decide) positive).mpr bound
  rw [padded, List.length_append, List.length_replicate]
  exact Nat.sub_add_cancel short

theorem digitChar_lt (less : m < n) (bound : n < 10) : m.digitChar < n.digitChar := by
  have digits : ∀ n < 10, ∀ m < n, m.digitChar < n.digitChar := by decide
  exact digits n bound m less

theorem padded_lt (less : m < n) (bound : n < 10 ^ width) : padded width m < padded width n := by
  induction width generalizing m n with
  | zero => omega
  | succ width ih =>
      rcases Nat.eq_zero_or_pos width with rfl | positive
      · have digit {k : Nat} (small : k < 10) : padded 1 k = [k.digitChar] := by
          rw [padded, decimal_small small]
          rfl
        rw [digit bound, digit (less.trans bound), List.cons_lt_cons_iff]
        exact .inl (digitChar_lt less bound)
      · rw [padded_succ positive, padded_succ positive]
        have high : n / 10 < 10 ^ width := by
          rw [Nat.div_lt_iff_lt_mul (by decide), ← pow_succ]
          exact bound
        rcases (Nat.div_le_div_right (c := 10) less.le).lt_or_eq with first | same
        · have equal_length : (padded width (m / 10)).length = (padded width (n / 10)).length := by
            rw [padded_length positive high, padded_length positive (first.trans high)]
          exact append_lt_append equal_length (ih first high) _ _
        · rw [same]
          apply List.append_left_lt
          rw [List.cons_lt_cons_iff]
          exact .inl (digitChar_lt (by omega) (by omega))

theorem padded_le (at_most : m ≤ n) (bound : n < 10 ^ width) : padded width m ≤ padded width n := by
  rcases at_most.lt_or_eq with less | rfl
  · exact (padded_lt less bound).le
  · exact le_rfl

/-! ### Numerals that are longer -/

theorem padded_wide (wide : 10 ^ width ≤ n) : padded width n = decimal n := by
  rcases Nat.eq_zero_or_pos width with rfl | positive
  · rw [padded, Nat.zero_sub]
    rfl
  · have long : width ≤ (decimal n).length := by
      by_contra short
      have less := (Nat.length_toDigits_le_iff (b := 10) (n := n) (by decide) positive).mp (le_of_not_ge short)
      omega
    rw [padded, Nat.sub_eq_zero_of_le long]
    rfl

theorem padded_eq_decimal (positive : 0 < width) (high : 10 ^ width ≤ n) : padded (width + 1) n = decimal n := by
  have long : width < (decimal n).length := by
    by_contra short
    have less := (Nat.length_toDigits_le_iff (b := 10) (n := n) (by decide) positive).mp (not_lt.mp short)
    omega
  rw [padded, Nat.sub_eq_zero_of_le long]
  rfl

/-- The first numeral of a width comes before all that are as long or longer. -/
theorem decimal_power_le (width : Nat) (positive : 0 < width) (high : 10 ^ width ≤ n) : decimal (10 ^ width) ≤ decimal n := by
  induction n using Nat.strongRecOn with
  | ind n ih =>
      rcases Nat.lt_or_ge n (10 ^ (width + 1)) with bound | larger
      · rw [← padded_eq_decimal positive high, ← padded_eq_decimal positive le_rfl]
        exact padded_le high bound
      · have shorter : 10 ^ width ≤ n / 10 := by
          rw [Nat.le_div_iff_mul_le (by decide), ← pow_succ]
          exact larger
        have at_least : 10 ≤ n := (Nat.le_self_pow (by omega) 10).trans larger
        rw [decimal_large at_least]
        exact (ih (n / 10) (by omega) shorter).trans (le_append _ _)

theorem decimal_power (positive : 0 < width) :
    decimal (10 ^ (width + 1)) = decimal (10 ^ width) ++ ['0'] := by
  have ten : 10 ^ (width + 1) / 10 = 10 ^ width := by rw [pow_succ, Nat.mul_div_cancel _ (by decide)]
  rw [decimal_large (Nat.le_self_pow (by omega) 10), ten, pow_succ, Nat.mul_mod_left]
  rfl

/-- The first numeral that is too long comes before those that are larger than a tenth of it. -/
theorem decimal_power_lt (width : Nat) (positive : 0 < width) (less : 10 ^ width < n) (bound : n < 10 ^ (width + 1)) :
    padded (width + 1) (10 ^ (width + 1)) < padded (width + 1) n := by
  have high : 10 ^ width < 10 ^ (width + 1) := less.trans bound
  have tenth := padded_eq_decimal positive le_rfl
  rw [padded_wide le_rfl, decimal_power positive, ← tenth, ← List.append_nil (padded (width + 1) n)]
  apply append_lt_append
  · rw [padded_length (by omega) bound, padded_length (by omega) high]
  · exact padded_lt less bound

theorem ofDigitChars_padded (width k : Nat) : Nat.ofDigitChars 10 (padded width k) 0 = k := by
  rw [padded, Nat.ofDigitChars_append, Nat.ofDigitChars_replicate_zero, Nat.mul_zero]
  exact Nat.ofDigitChars_ten_toDigits

theorem padded_injective (width : Nat) : Function.Injective (padded width) := by
  have value (k : Nat) : Nat.ofDigitChars 10 (padded width k) 0 = k := by
    rw [padded, Nat.ofDigitChars_append, Nat.ofDigitChars_replicate_zero, Nat.mul_zero]
    exact Nat.ofDigitChars_ten_toDigits
  intro m n same
  rw [← value m, same, value n]

end AtrexAgent.Numerals
