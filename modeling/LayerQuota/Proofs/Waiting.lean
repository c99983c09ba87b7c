import LayerQuota.CancelScope
import LayerQuota.Proofs.Number.Rounding
/-!
# How long a scope can be waited on

The clock counts nanoseconds in 64 bits. A delay can be waited for just where its nanoseconds, once
rounded to a significand of 53 bits, are below the limit of the clock: half a step below that limit
they are rounded up to it.
-/

namespace LayerQuota

open LayerQuota.Number

namespace CancelScope

/-- Can a clock with a limit count these nanoseconds? -/
def countable (limit : Int) (nanoseconds : Binary64) : Bool :=
  match nanoseconds with
  | .infinite negative => negative
  | x => x.truncate?.all (· < limit)

theorem canWait_eq (x : Binary64) : canWait x = countable clockLimit (x.scale 1000000000) := by
  unfold canWait countable
  cases x.scale 1000000000 with
  | _ => rfl

theorem clockLimit_eq : clockLimit = ((2 ^ 63 : Nat) : Int) := by
  unfold clockLimit
  rfl

theorem countable_negative (j m : Nat) (e : Int) :
    countable ((2 ^ j : Nat) : Int) (.finite true m e) = true := by
  have hpow : (0 : Int) < ((2 ^ j : Nat) : Int) := Nat.cast_pos.mpr (Nat.two_pow_pos j)
  unfold countable Binary64.truncate?
  simp only [if_true, Option.all_some, decide_eq_true_eq]
  omega

theorem countable_finite (j m : Nat) (e : Int) :
    countable ((2 ^ j : Nat) : Int) (.finite false m e) = true ↔ (m : ℚ) * 2 ^ e < 2 ^ j := by
  unfold countable Binary64.truncate?
  simp only [Bool.false_eq_true, if_false, Option.all_some, decide_eq_true_eq, Nat.cast_lt]
  split
  · rename_i he
    have hexponent : e = -((-e).toNat : Int) := by omega
    generalize (-e).toNat = k at hexponent
    subst hexponent
    have hpow : (0 : ℚ) < 2 ^ k := pow_pos (by norm_num) k
    rw [Nat.pow_eq, Nat.div_lt_iff_lt_mul (Nat.two_pow_pos k), zpow_neg, zpow_natCast,
      ← div_eq_mul_inv, div_lt_iff₀ hpow]
    exact_mod_cast Iff.rfl
  · rename_i he
    have hexponent : e = (e.toNat : Int) := by omega
    generalize e.toNat = k at hexponent
    subst hexponent
    rw [Nat.pow_eq, zpow_natCast]
    exact_mod_cast Iff.rfl

/-! ### Rounded nanoseconds -/

section Ratio

variable {num den : Nat}

/-- A negative quotient stays negative, however large it is. -/
theorem countable_ofRatio_negative (j : Nat) (hnum : 0 < num) :
    countable ((2 ^ j : Nat) : Int) (.ofRatio true num den) = true := by
  rw [Binary64.ofRatio_eq true num den hnum]
  simp only
  split
  · rfl
  · exact countable_negative j _ _

/-- What a quotient is rounded to counts, if it is not infinite. -/
theorem countable_ofRatio (j : Nat) (hnum : 0 < num) :
    countable ((2 ^ j : Nat) : Int) (.ofRatio false num den) = true ↔
      (Binary64.carry (Binary64.significand num den (Binary64.roundingExponent num den))
        (Binary64.roundingExponent num den)).2 ≤ Binary64.maxExponent ∧
      (Binary64.significand num den (Binary64.roundingExponent num den) : ℚ) *
        2 ^ Binary64.roundingExponent num den < 2 ^ j := by
  rw [Binary64.ofRatio_eq false num den hnum]
  simp only
  split
  · rename_i hlarge
    exact iff_of_false nofun fun h => absurd h.1 (Int.not_le.mpr hlarge)
  · rename_i hsmall
    rw [countable_finite, Binary64.carry_worth]
    exact (and_iff_right (Int.not_lt.mp hsmall)).symm

variable (hnum : 0 < num) (hden : 0 < den)

include hnum hden

/-- Rounding gives no less than the limit to what is at least half a step below it. -/
theorem not_countable_of_le (h : (2 : ℚ) ^ 63 - 512 ≤ (num : ℚ) / den) :
    (2 : ℚ) ^ 63 ≤ (Binary64.significand num den (Binary64.roundingExponent num den) : ℚ) *
      2 ^ Binary64.roundingExponent num den := by
  have hhigh := Binary64.lt_of_roundingExponent num den hnum hden
  obtain ⟨hlow, -⟩ := Binary64.exponentOf_bounds num den hnum hden
  have hten : 10 ≤ Binary64.roundingExponent num den := by
    by_contra hlt
    have hle := two_zpow_le (a := Binary64.roundingExponent num den) (b := 9) (by omega)
    norm_num at h hhigh hle
    linarith
  -- the least exponent is far below, so the quotient has 53 bits in full
  have hexact : Binary64.exponentOf num den = Binary64.roundingExponent num den := by
    unfold Binary64.roundingExponent Binary64.minExponent at hten ⊢
    omega
  rw [hexact, two_zpow_add] at hlow
  generalize Binary64.roundingExponent num den = e at hlow hten ⊢
  rcases Int.lt_or_eq_of_le hten with hmore | rfl
  · have hm : 2 ^ 52 ≤ Binary64.significand num den e :=
      Binary64.le_significand hden (by exact_mod_cast hlow)
    have hm' : (2 : ℚ) ^ 52 ≤ Binary64.significand num den e := by exact_mod_cast hm
    have he := two_zpow_le (a := 11) (b := e) (by omega)
    calc (2 : ℚ) ^ 63 = (2 : ℚ) ^ 52 * (2 : ℚ) ^ (11 : Int) := by norm_num
      _ ≤ (Binary64.significand num den e : ℚ) * (2 : ℚ) ^ e :=
        mul_le_mul hm' he (two_zpow_pos 11).le (Nat.cast_nonneg _)
  · have hm : 2 ^ 53 - 1 < Binary64.significand num den 10 := by
      refine Binary64.lt_significand hden (by norm_num) ?_
      norm_num at h ⊢
      linarith
    have hm' : (2 : ℚ) ^ 53 ≤ Binary64.significand num den 10 := by
      exact_mod_cast Nat.succ_le_of_lt hm
    calc (2 : ℚ) ^ 63 = (2 : ℚ) ^ 53 * (2 : ℚ) ^ (10 : Int) := by norm_num
      _ ≤ (Binary64.significand num den 10 : ℚ) * (2 : ℚ) ^ (10 : Int) :=
        mul_le_mul_of_nonneg_right hm' (two_zpow_pos 10).le

/-- Rounding leaves what is more than half a step below the limit below it. -/
theorem countable_of_lt (h : (num : ℚ) / den < 2 ^ 63 - 512) :
    Binary64.roundingExponent num den ≤ 10 ∧
      (Binary64.significand num den (Binary64.roundingExponent num den) : ℚ) *
        2 ^ Binary64.roundingExponent num den < 2 ^ 63 := by
  have hhigh := Binary64.lt_of_roundingExponent num den hnum hden
  obtain ⟨hlow, -⟩ := Binary64.exponentOf_bounds num den hnum hden
  have hten : Binary64.roundingExponent num den ≤ 10 := by
    by_contra hlt
    have hmore : 11 ≤ Binary64.exponentOf num den := by
      unfold Binary64.roundingExponent Binary64.minExponent at hlt
      omega
    have hle := two_zpow_le (a := 63) (b := 52 + Binary64.exponentOf num den) (by omega)
    norm_num at h hle
    linarith
  refine ⟨hten, ?_⟩
  generalize Binary64.roundingExponent num den = e at hhigh hten ⊢
  rcases Int.lt_or_eq_of_le hten with hless | rfl
  · have hm : Binary64.significand num den e ≤ 2 ^ 53 := by
      refine Binary64.significand_le hden ?_
      have hpos := two_zpow_pos e
      norm_num at hhigh ⊢
      linarith
    have hm' : (Binary64.significand num den e : ℚ) ≤ (2 : ℚ) ^ 53 := by exact_mod_cast hm
    have he := two_zpow_le (a := e) (b := 9) (by omega)
    calc (Binary64.significand num den e : ℚ) * 2 ^ e ≤ (2 : ℚ) ^ 53 * (2 : ℚ) ^ (9 : Int) :=
        mul_le_mul hm' he (two_zpow_pos e).le (by norm_num)
      _ < 2 ^ 63 := by norm_num
  · have hm : Binary64.significand num den 10 ≤ 2 ^ 53 - 1 := by
      refine Binary64.significand_le hden ?_
      norm_num at h ⊢
      linarith
    have hm' : (Binary64.significand num den 10 : ℚ) ≤ ((2 ^ 53 - 1 : Nat) : ℚ) :=
      Nat.cast_le.mpr hm
    calc (Binary64.significand num den 10 : ℚ) * (2 : ℚ) ^ (10 : Int) ≤
          ((2 ^ 53 - 1 : Nat) : ℚ) * (2 : ℚ) ^ (10 : Int) :=
        mul_le_mul_of_nonneg_right hm' (two_zpow_pos 10).le
      _ < 2 ^ 63 := by norm_num

end Ratio

/-- A quotient of nanoseconds counts just where it is more than half a step below the limit. -/
theorem countable_ratio_iff (num den : Nat) (hden : 0 < den) :
    countable ((2 ^ 63 : Nat) : Int) (.ofRatio false num den) = true ↔
      (num : ℚ) / den < 2 ^ 63 - 512 := by
  rcases Nat.eq_zero_or_pos num with rfl | hnum
  · refine iff_of_true ?_ (by norm_num)
    refine (countable_finite 63 0 Binary64.minExponent).mpr ?_
    norm_num
  · rw [countable_ofRatio 63 hnum]
    constructor
    · rintro ⟨-, hworth⟩
      by_contra hle
      exact absurd (not_countable_of_le hnum hden (not_lt.mp hle)) (not_le.mpr hworth)
    · intro hlt
      obtain ⟨hten, hworth⟩ := countable_of_lt hnum hden hlt
      have hcarry := Binary64.carry_exponent
        (Binary64.significand num den (Binary64.roundingExponent num den))
        (Binary64.roundingExponent num den)
      refine ⟨?_, hworth⟩
      unfold Binary64.maxExponent
      omega

/-! ### Delays -/

/-- What a clock can wait for: any number but infinity, and those of which the nanoseconds come too
close to its limit. -/
def Short : Binary64 → Prop
  | .nan => True
  | .infinite negative => negative = true
  | .finite negative m e => negative = true ∨ (m : ℚ) * 2 ^ e * 10 ^ 9 < 2 ^ 63 - 512

theorem scale_finite (negative : Bool) (m : Nat) (e : Int) (factor : Nat) :
    ∃ num den : Nat, 0 < den ∧ (num : ℚ) / den = m * 2 ^ e * factor ∧
      Binary64.scale (.finite negative m e) factor = .ofRatio negative num den := by
  obtain ⟨hpos, hratio⟩ := scaleBinary_ratio (m * factor) 1 Nat.one_pos (-e)
  refine ⟨(scaleBinary (m * factor) 1 (-e)).1, (scaleBinary (m * factor) 1 (-e)).2, hpos, ?_, rfl⟩
  have hpow : (2 : ℚ) ^ (-e) * 2 ^ e = 1 := by
    rw [← two_zpow_add, neg_add_cancel, zpow_zero]
  generalize ((scaleBinary (m * factor) 1 (-e)).1 : ℚ) / (scaleBinary (m * factor) 1 (-e)).2 = x
    at hratio ⊢
  push_cast at hratio
  calc x = x * 2 ^ (-e) * 2 ^ e := by rw [mul_assoc, hpow, mul_one]
    _ = m * 2 ^ e * factor := by
      rw [hratio]
      ring

theorem canWait_iff (x : Binary64) : canWait x = true ↔ Short x := by
  rw [canWait_eq, clockLimit_eq]
  cases x with
  | nan => exact iff_of_true rfl trivial
  | infinite negative => exact Iff.rfl
  | finite negative m e =>
    obtain ⟨num, den, hden, hratio, hscale⟩ := scale_finite negative m e 1000000000
    rw [hscale]
    cases negative with
    | true =>
      refine iff_of_true ?_ (.inl rfl)
      rcases Nat.eq_zero_or_pos num with rfl | hnum
      · exact countable_negative 63 0 Binary64.minExponent
      · exact countable_ofRatio_negative 63 hnum
    | false =>
      rw [countable_ratio_iff num den hden, hratio]
      have hunit : ((1000000000 : Nat) : ℚ) = 10 ^ 9 := by norm_num
      rw [hunit]
      exact ⟨.inr, fun h => h.resolve_left nofun⟩

/-- A wait fails only where nobody cancelled the scope before, and the delay is too long. -/
theorem wait_eq_error {κ : Type} (s : CancelScope κ) (x : Binary64) (f : Failure) :
    s.wait x = .error f ↔ s.cancelled = false ∧ canWait x = false ∧ f = .tooLongWait := by
  unfold wait
  cases s.cancelled with
  | true => exact iff_of_false nofun nofun
  | false =>
    cases canWait x with
    | true => exact iff_of_false nofun nofun
    | false => simp [eq_comm]

end CancelScope

end LayerQuota
