import Mathlib.Algebra.Order.Field.Power
import Mathlib.Data.Rat.Cast.Order
import Mathlib.Tactic.FieldSimp
import Mathlib.Tactic.Linarith
import Mathlib.Tactic.NormNum
import Mathlib.Tactic.Positivity
import Mathlib.Tactic.Ring
import SqlSelect.Number.Double

/-!
Reading is exact where it can be: a quotient or a decimal that is the value of a floating-point
number is read as that number. The exponent that reading measures in is the only one in whose units
a value takes 53 bits, or the least exponent of all.
-/
namespace SqlSelect

theorem power_cast (base : ℕ) (e : ℤ) : (power base e : ℚ) = (base : ℚ) ^ e.toNat := by
  simp [power]

/-- The two powers of one exponent, one of which is one, make up a power with a sign. -/
theorem power_div_power {b : ℕ} (pos : 0 < b) (e : ℤ) :
    (power b e : ℚ) / power b (-e) = (b : ℚ) ^ e := by
  have nonzero : (b : ℚ) ≠ 0 := by exact_mod_cast pos.ne'
  rw [power_cast, power_cast, ← zpow_natCast, ← zpow_natCast, ← zpow_sub₀ nonzero]
  congr 1
  omega

namespace Magnitude

def value (m : Magnitude) : ℚ := m.significand * 2 ^ m.exponent

theorem numerator_div_denominator (m : Magnitude) :
    (m.numerator : ℚ) / m.denominator = m.value := by
  rw [numerator, denominator, value, Nat.cast_mul, mul_div_assoc, power_div_power (by decide)]
  rfl

end Magnitude

namespace Double

theorem inUnits_div {d : ℕ} (n : ℕ) (e : ℤ) :
    ((inUnits n d e).1 : ℚ) / (inUnits n d e).2 = n / d / 2 ^ e := by
  have powers := power_div_power (b := 2) (by decide) e
  have : (power 2 e : ℚ) ≠ 0 := by exact_mod_cast (power_pos (by decide) e).ne'
  have : (power 2 (-e) : ℚ) ≠ 0 := by exact_mod_cast (power_pos (by decide) (-e)).ne'
  rw [Nat.cast_two] at powers
  rw [← powers, inUnits, Nat.cast_mul, Nat.cast_mul]
  field_simp

theorem inUnits_pos {d : ℕ} (pos : 0 < d) (n : ℕ) (e : ℤ) : 0 < (inUnits n d e).2 :=
  Nat.mul_pos pos (power_pos (by decide) e)

/-- In units of `2 ^ e` the value stays below 54 bits and takes all 53, unless the exponent is the
least one. -/
structure Fits (x : ℚ) (e : ℤ) : Prop where
  least : -1074 ≤ e
  upper : x < 2 ^ (53 : ℤ) * 2 ^ e
  lower : e = -1074 ∨ 2 ^ (52 : ℤ) * 2 ^ e ≤ x

namespace Fits

variable {x : ℚ} {e f : ℤ}

theorem le (first : Fits x e) (second : Fits x f) : e ≤ f := by
  by_contra above
  rcases first.lower with rfl | lower
  · exact absurd second.least (by omega)
  · have bound := lower.trans_lt second.upper
    rw [← zpow_add₀ two_ne_zero, ← zpow_add₀ two_ne_zero,
      zpow_lt_zpow_iff_right₀ one_lt_two] at bound
    omega

theorem unique (first : Fits x e) (second : Fits x f) : e = f :=
  le_antisymm (first.le second) (second.le first)

theorem of_bounds (lower : 2 ^ (52 : ℤ) * 2 ^ e ≤ x) (upper : x < 2 ^ (53 : ℤ) * 2 ^ e) :
    Fits x (max (-1074) e) := by
  rcases le_total (-1074) e with high | low
  · rw [max_eq_right high]
    exact ⟨high, upper, .inr lower⟩
  · rw [max_eq_left low]
    refine ⟨le_rfl, upper.trans_le ?_, .inl rfl⟩
    exact mul_le_mul_of_nonneg_left (zpow_le_zpow_right₀ one_le_two low) (by positivity)

end Fits

/-- The quotient lies between the powers of two that its numerator and its denominator show. -/
theorem quotient_bounds {n d : ℕ} (pos : 0 < n) (pos' : 0 < d) :
    (2 : ℚ) ^ ((n.log2 : ℤ) - d.log2 - 1) ≤ n / d ∧
      (n / d : ℚ) < 2 ^ ((n.log2 : ℤ) - d.log2 + 1) := by
  have above {n : ℕ} : (n : ℚ) < 2 ^ ((n.log2 : ℤ) + 1) := by
    exact_mod_cast Nat.lt_log2_self
  have below {n : ℕ} (pos : 0 < n) : (2 : ℚ) ^ (n.log2 : ℤ) ≤ n := by
    exact_mod_cast Nat.log2_self_le pos.ne'
  have positive : (0 : ℚ) < d := by exact_mod_cast pos'
  constructor
  · rw [le_div_iff₀ positive]
    calc (2 : ℚ) ^ ((n.log2 : ℤ) - d.log2 - 1) * d
        ≤ 2 ^ ((n.log2 : ℤ) - d.log2 - 1) * 2 ^ ((d.log2 : ℤ) + 1) :=
          mul_le_mul_of_nonneg_left above.le (by positivity)
      _ = 2 ^ (n.log2 : ℤ) := by
          rw [← zpow_add₀ two_ne_zero]
          congr 1
          ring
      _ ≤ n := below pos
  · rw [div_lt_iff₀ positive]
    calc (n : ℚ) < 2 ^ ((n.log2 : ℤ) + 1) := above
      _ = 2 ^ ((n.log2 : ℤ) - d.log2 + 1) * 2 ^ (d.log2 : ℤ) := by
          rw [← zpow_add₀ two_ne_zero]
          congr 1
          ring
      _ ≤ 2 ^ ((n.log2 : ℤ) - d.log2 + 1) * d :=
          mul_le_mul_of_nonneg_left (below pos') (by positivity)

theorem fits_unitExponent {n d : ℕ} (pos : 0 < n) (pos' : 0 < d) :
    Fits (n / d) (unitExponent n d) := by
  obtain ⟨lower, upper⟩ := quotient_bounds pos pos'
  unfold unitExponent
  set low : ℤ := (n.log2 : ℤ) - d.log2 - 53 with hlow
  have below : (2 : ℚ) ^ (52 : ℤ) * 2 ^ low ≤ n / d := by
    rw [← zpow_add₀ two_ne_zero]
    convert lower using 2
    omega
  have above : (n / d : ℚ) < 2 ^ (53 : ℤ) * 2 ^ (low + 1) := by
    rw [← zpow_add₀ two_ne_zero]
    convert upper using 2
    omega
  have small_iff : (inUnits n d low).1 / (inUnits n d low).2 < significandLimit ↔
      (n / d : ℚ) < 2 ^ (53 : ℤ) * 2 ^ low := by
    have scaled := inUnits_div (d := d) n low
    have positive := inUnits_pos pos' n low
    rw [Nat.div_lt_iff_lt_mul positive, ← div_lt_iff₀ (by positivity), ← scaled,
      div_lt_iff₀ (by exact_mod_cast positive)]
    norm_num
    exact_mod_cast Iff.rfl
  dsimp only
  split
  · next small => exact .of_bounds below (small_iff.1 small)
  · next large =>
    refine .of_bounds ?_ above
    have := not_lt.1 (mt small_iff.2 large)
    rwa [zpow_add_one₀ two_ne_zero, mul_comm _ (2 : ℚ), ← mul_assoc, ← zpow_add_one₀ two_ne_zero]

end Double

namespace Magnitude

variable {m : Magnitude}

theorem fits (m : Magnitude) : Double.Fits m.value m.exponent := by
  obtain ⟨below, least, -, full⟩ := m.canonical
  have unit : (0 : ℚ) < 2 ^ m.exponent := by positivity
  refine ⟨least, mul_lt_mul_of_pos_right ?_ unit, ?_⟩
  · norm_num
    exact_mod_cast below
  · refine full.symm.imp_right fun full => mul_le_mul_of_nonneg_right ?_ unit.le
    norm_num
    exact_mod_cast full

theorem value_eq_zero : m.value = 0 ↔ m.significand = 0 := by
  have unit : (2 : ℚ) ^ m.exponent ≠ 0 := by positivity
  rw [value, mul_eq_zero, or_iff_left unit, Nat.cast_eq_zero]

/-- There is one way to write a value. -/
theorem eq_of_value_eq {n : Magnitude} (same : m.value = n.value) : m = n := by
  have exponents : m.exponent = n.exponent := m.fits.unique (same ▸ n.fits)
  have unit : (2 : ℚ) ^ m.exponent ≠ 0 := by positivity
  have significands : m.significand = n.significand := by
    rw [value, value, ← exponents] at same
    exact_mod_cast mul_right_cancel₀ unit same
  obtain ⟨_, _, _⟩ := m
  obtain ⟨_, _, _⟩ := n
  subst exponents significands
  rfl

end Magnitude

namespace Double

variable {m : Magnitude}

/-- A quotient that is the value of a number is read as that number. -/
theorem ofQuotient_eq_finite {n d : ℕ} (pos : 0 < d) (same : (n / d : ℚ) = m.value)
    (negative : Bool) : ofQuotient negative n d = .finite negative m := by
  unfold ofQuotient
  split
  · next zero =>
    rw [zero, Nat.cast_zero, zero_div] at same
    rw [Magnitude.eq_of_value_eq ((Magnitude.value_eq_zero.2 rfl : Magnitude.zero.value = 0).trans
      same)]
  · next nonzero =>
    have exponent : unitExponent n d = m.exponent :=
      (fits_unitExponent (Nat.pos_of_ne_zero nonzero) pos).unique (same ▸ m.fits)
    have positive := inUnits_pos pos n m.exponent
    -- In its own units the value is the significand, with nothing to round.
    have units : (inUnits n d m.exponent).1 =
        m.significand * (inUnits n d m.exponent).2 := by
      have scaled := inUnits_div (d := d) n m.exponent
      rw [same, Magnitude.value, mul_div_cancel_right₀ _ (by positivity),
        div_eq_iff (by exact_mod_cast positive.ne')] at scaled
      exact_mod_cast scaled
    have rounded : roundQuotient (inUnits n d m.exponent).1 (inUnits n d m.exponent).2 =
        m.significand := by
      rw [units, roundQuotient, Nat.mul_div_cancel _ positive, Nat.mul_mod_left]
      simp [positive]
    simp only [exponent, rounded]
    rw [if_neg m.canonical.1.ne, ofScaled, dif_pos m.canonical]

/-- A decimal that is the value of a number is read as that number. -/
theorem ofDecimal_eq_finite {digits : ℕ} {scale : ℤ}
    (same : (digits * 10 ^ scale : ℚ) = m.value) (negative : Bool) :
    ofDecimal negative digits scale = .finite negative m := by
  refine ofQuotient_eq_finite (power_pos (by decide) _) ?_ negative
  rw [Nat.cast_mul, mul_div_assoc, power_div_power (by decide)]
  exact same

end Double
end SqlSelect
