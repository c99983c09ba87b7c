import LayerQuota.Number.Binary64
import Mathlib.Algebra.Order.Field.Power
import Mathlib.Algebra.Order.Field.Rat
import Mathlib.Tactic.FieldSimp
import Mathlib.Tactic.Linarith
import Mathlib.Tactic.NormNum
import Mathlib.Tactic.Ring
/-!
# Rounding a quotient

A quotient is rounded at the exponent at which it has a whole part of 53 bits. What is said of the
result here is what decides on which side of a power of two it lies.
-/

namespace LayerQuota.Number

/-! ### The nearest integer -/

section DivideEven

variable {num den k : Nat}

theorem divideEven_le (h : 2 * num < (2 * k + 1) * den) : divideEven num den ≤ k := by
  have hden : 0 < den := Nat.pos_of_ne_zero fun h0 => by
    rw [h0, Nat.mul_zero] at h
    exact Nat.not_lt_zero _ h
  have hdivision := Nat.div_add_mod num den
  have hrest := Nat.mod_lt num hden
  have hq : num / den ≤ k := by
    rw [Nat.div_le_iff_le_mul_add_pred hden]
    have hexpand : (2 * k + 1) * den = 2 * (den * k) + den := by ring
    omega
  unfold divideEven
  simp only
  rcases Nat.lt_or_eq_of_le hq with hlt | heq
  · split
    · exact hq
    · split
      · exact hlt
      · have hparity := Nat.mod_lt (num / den) (Nat.zero_lt_two)
        omega
  · -- the remainder is less than half
    rw [heq] at hdivision ⊢
    have hexpand : (2 * k + 1) * den = 2 * (den * k) + den := by ring
    rw [if_pos (by omega)]

theorem le_divideEven (hden : 0 < den) (h : k * den ≤ num) : k ≤ divideEven num den := by
  have hq : k ≤ num / den := (Nat.le_div_iff_mul_le hden).mpr h
  unfold divideEven
  simp only
  split
  · exact hq
  · split
    · exact Nat.le_succ_of_le hq
    · exact Nat.le_add_right_of_le hq

/-- Half-way above an odd integer it is rounded up. -/
theorem lt_divideEven (hden : 0 < den) (hodd : k % 2 = 1) (h : (2 * k + 1) * den ≤ 2 * num) :
    k < divideEven num den := by
  have hdivision := Nat.div_add_mod num den
  have hrest := Nat.mod_lt num hden
  have hexpand : (2 * k + 1) * den = 2 * (k * den) + den := by ring
  have hq : k ≤ num / den := (Nat.le_div_iff_mul_le hden).mpr (by omega)
  rcases Nat.lt_or_eq_of_le hq with hlt | heq
  · exact le_divideEven hden ((Nat.le_div_iff_mul_le hden).mp hlt)
  · unfold divideEven
    simp only
    rw [← heq] at hdivision ⊢
    have hcomm : den * k = k * den := Nat.mul_comm den k
    rw [if_neg (by omega)]
    split
    · exact Nat.lt_succ_self k
    · omega

end DivideEven

/-! ### The exponent -/

theorem two_zpow_pos (e : Int) : (0 : ℚ) < 2 ^ e := zpow_pos (by norm_num) e

theorem two_zpow_le {a b : Int} (h : a ≤ b) : (2 : ℚ) ^ a ≤ 2 ^ b :=
  zpow_le_zpow_right₀ (by norm_num) h

theorem two_zpow_add (a b : Int) : (2 : ℚ) ^ (a + b) = 2 ^ a * 2 ^ b :=
  zpow_add₀ (by norm_num) a b

theorem scaleBinary_ratio (num den : Nat) (hden : 0 < den) (e : Int) :
    0 < (scaleBinary num den e).2 ∧
      ((scaleBinary num den e).1 : ℚ) / (scaleBinary num den e).2 * 2 ^ e = num / den := by
  have hden' : (den : ℚ) ≠ 0 := Nat.cast_ne_zero.mpr (Nat.ne_of_gt hden)
  unfold scaleBinary
  split
  · rename_i he
    have hexponent : e = -((-e).toNat : Int) := by omega
    refine ⟨hden, ?_⟩
    show ((num * 2 ^ (-e).toNat : Nat) : ℚ) / den * 2 ^ e = num / den
    conv_lhs => rw [hexponent]
    push_cast
    rw [zpow_neg, zpow_natCast]
    have hpow : (2 : ℚ) ^ (-e).toNat ≠ 0 := pow_ne_zero _ (by norm_num)
    rw [neg_neg, Int.toNat_natCast]
    field_simp
  · rename_i he
    have hexponent : e = (e.toNat : Int) := by omega
    refine ⟨Nat.mul_pos hden (Nat.pow_pos (by norm_num)), ?_⟩
    show (num : ℚ) / ((den * 2 ^ e.toNat : Nat) : ℚ) * 2 ^ e = num / den
    conv_lhs => rw [hexponent]
    push_cast
    rw [zpow_natCast, Int.toNat_natCast]
    have hpow : (2 : ℚ) ^ e.toNat ≠ 0 := pow_ne_zero _ (by norm_num)
    field_simp

theorem log2_bounds (n : Nat) (hn : 0 < n) :
    (2 : ℚ) ^ (Nat.log2 n : Int) ≤ n ∧ (n : ℚ) < 2 ^ ((Nat.log2 n : Int) + 1) := by
  have hlow : 2 ^ Nat.log2 n ≤ n := Nat.log2_self_le (Nat.ne_of_gt hn)
  have hhigh : n < 2 ^ (Nat.log2 n + 1) := Nat.lt_log2_self
  constructor
  · rw [zpow_natCast]
    exact_mod_cast hlow
  · have hcast : ((Nat.log2 n : Int) + 1) = ((Nat.log2 n + 1 : Nat) : Int) := by push_cast; rfl
    rw [hcast, zpow_natCast]
    exact_mod_cast hhigh

/-- The logarithms place a quotient between two powers of two. -/
theorem quotient_bounds (num den : Nat) (hnum : 0 < num) (hden : 0 < den) :
    (2 : ℚ) ^ ((Nat.log2 num : Int) - Nat.log2 den - 1) ≤ (num : ℚ) / den ∧
      (num : ℚ) / den < 2 ^ ((Nat.log2 num : Int) - Nat.log2 den + 1) := by
  have hden' : (0 : ℚ) < den := Nat.cast_pos.mpr hden
  obtain ⟨hnlow, hnhigh⟩ := log2_bounds num hnum
  obtain ⟨hdlow, hdhigh⟩ := log2_bounds den hden
  generalize (Nat.log2 num : Int) = a at hnlow hnhigh ⊢
  generalize (Nat.log2 den : Int) = b at hdlow hdhigh ⊢
  constructor
  · rw [le_div_iff₀ hden']
    have hsplit : (2 : ℚ) ^ (a - b - 1) * 2 ^ (b + 1) = 2 ^ a := by
      rw [← two_zpow_add]
      congr 1
      ring
    have hmul := mul_le_mul_of_nonneg_left hdhigh.le (two_zpow_pos (a - b - 1)).le
    linarith
  · rw [div_lt_iff₀ hden']
    have hsplit : (2 : ℚ) ^ (a - b + 1) * 2 ^ b = 2 ^ (a + 1) := by
      rw [← two_zpow_add]
      congr 1
      ring
    have hmul := mul_le_mul_of_nonneg_left hdlow (two_zpow_pos (a - b + 1)).le
    linarith

namespace Binary64

/-- At its exponent a quotient has a whole part of 53 bits. -/
theorem exponentOf_bounds (num den : Nat) (hnum : 0 < num) (hden : 0 < den) :
    (2 : ℚ) ^ (52 + exponentOf num den) ≤ (num : ℚ) / den ∧
      (num : ℚ) / den < 2 ^ (53 + exponentOf num den) := by
  obtain ⟨hlow, hhigh⟩ := quotient_bounds num den hnum hden
  generalize hq : (Nat.log2 num : Int) - (Nat.log2 den : Int) = q at hlow hhigh
  obtain ⟨hpos, hratio⟩ := scaleBinary_ratio num den hden (q - 53)
  unfold exponentOf
  simp only [hq]
  generalize scaleBinary num den (q - 53) = p at hpos hratio ⊢
  have hpos' : (0 : ℚ) < p.2 := Nat.cast_pos.mpr hpos
  split
  · rename_i hlt
    have hp : (p.1 : ℚ) / p.2 < 2 ^ (53 : Int) := by
      rw [div_lt_iff₀ hpos']
      have hnat : p.1 < 2 ^ 53 * p.2 := (Nat.div_lt_iff_lt_mul hpos).mp hlt
      exact_mod_cast hnat
    refine ⟨?_, ?_⟩
    · have hexp : 52 + (q - 53) = q - 1 := by ring
      rw [hexp]
      exact hlow
    · rw [two_zpow_add, ← hratio]
      exact mul_lt_mul_of_pos_right hp (two_zpow_pos _)
  · rename_i hge
    have hp : (2 : ℚ) ^ (53 : Int) ≤ (p.1 : ℚ) / p.2 := by
      rw [le_div_iff₀ hpos']
      have hnat : 2 ^ 53 * p.2 ≤ p.1 := (Nat.le_div_iff_mul_le hpos).mp (Nat.not_lt.mp hge)
      exact_mod_cast hnat
    refine ⟨?_, ?_⟩
    · have hexp : 52 + (q - 52) = 53 + (q - 53) := by ring
      rw [hexp, two_zpow_add, ← hratio]
      exact mul_le_mul_of_nonneg_right hp (two_zpow_pos _).le
    · have hexp : 53 + (q - 52) = q + 1 := by ring
      rw [hexp]
      exact hhigh

/-! ### Placing a significand -/

/-- The significand that a quotient is rounded to at an exponent. -/
def significand (num den : Nat) (e : Int) : Nat :=
  divideEven (scaleBinary num den e).1 (scaleBinary num den e).2

section Significand

variable {num den k : Nat} {e : Int} (hden : 0 < den)

include hden

theorem significand_le (h : 2 * ((num : ℚ) / den) < (2 * k + 1) * 2 ^ e) :
    significand num den e ≤ k := by
  obtain ⟨hpos, hratio⟩ := scaleBinary_ratio num den hden e
  unfold significand
  generalize scaleBinary num den e = p at hpos hratio ⊢
  rw [← hratio, ← mul_assoc] at h
  have hquotient := lt_of_mul_lt_mul_right h (two_zpow_pos e).le
  rw [← mul_div_assoc, div_lt_iff₀ (Nat.cast_pos.mpr hpos)] at hquotient
  exact divideEven_le (by exact_mod_cast hquotient)

theorem le_significand (h : (k : ℚ) * 2 ^ e ≤ (num : ℚ) / den) : k ≤ significand num den e := by
  obtain ⟨hpos, hratio⟩ := scaleBinary_ratio num den hden e
  unfold significand
  generalize scaleBinary num den e = p at hpos hratio ⊢
  rw [← hratio] at h
  have hquotient := le_of_mul_le_mul_right h (two_zpow_pos e)
  rw [le_div_iff₀ (Nat.cast_pos.mpr hpos)] at hquotient
  exact le_divideEven hpos (by exact_mod_cast hquotient)

theorem lt_significand (hodd : k % 2 = 1) (h : (2 * k + 1) * 2 ^ e ≤ 2 * ((num : ℚ) / den)) :
    k < significand num den e := by
  obtain ⟨hpos, hratio⟩ := scaleBinary_ratio num den hden e
  unfold significand
  generalize scaleBinary num den e = p at hpos hratio ⊢
  rw [← hratio, ← mul_assoc] at h
  have hquotient := le_of_mul_le_mul_right h (two_zpow_pos e)
  rw [← mul_div_assoc, le_div_iff₀ (Nat.cast_pos.mpr hpos)] at hquotient
  exact lt_divideEven hpos hodd (by exact_mod_cast hquotient)

end Significand

/-- A significand that became too long is carried into the next exponent. -/
def carry (m : Nat) (e : Int) : Nat × Int := if m = 2 ^ 53 then (2 ^ 52, e + 1) else (m, e)

/-- The exponent that a quotient is rounded at. -/
def roundingExponent (num den : Nat) : Int := max (exponentOf num den) minExponent

/-- At the exponent that it is rounded at, a quotient has a whole part of 53 bits at most. -/
theorem lt_of_roundingExponent (num den : Nat) (hnum : 0 < num) (hden : 0 < den) :
    (num : ℚ) / den < 2 ^ (53 : Int) * 2 ^ roundingExponent num den := by
  obtain ⟨-, hhigh⟩ := exponentOf_bounds num den hnum hden
  have hexponent : exponentOf num den ≤ roundingExponent num den := Int.le_max_left _ _
  rw [← two_zpow_add]
  exact hhigh.trans_le (two_zpow_le (by omega))

theorem ofRatio_eq (negative : Bool) (num den : Nat) (hnum : 0 < num) :
    ofRatio negative num den =
      let e := roundingExponent num den
      let c := carry (significand num den e) e
      if maxExponent < c.2 then .infinite negative else .finite negative c.1 c.2 := by
  unfold ofRatio
  rw [if_neg (Nat.ne_of_gt hnum)]
  rfl

theorem carry_worth (m : Nat) (e : Int) : ((carry m e).1 : ℚ) * 2 ^ (carry m e).2 = m * 2 ^ e := by
  unfold carry
  split
  · rename_i hm
    rw [hm]
    push_cast
    rw [two_zpow_add, zpow_one]
    ring
  · rfl

theorem carry_exponent (m : Nat) (e : Int) : (carry m e).2 ≤ e + 1 := by
  unfold carry
  split
  · exact Int.le_refl _
  · show e ≤ e + 1
    omega

end Binary64

end LayerQuota.Number
