import Mathlib.Data.Nat.Digits.Defs
import SqlSelect.Number.Numeral
import SqlSelect.Proofs.Number.Exact

/-!
The text of whole numbers. The search for the shortest digits never goes below the unit place, since
all the digits in front of it read back. So the text is a natural number in full below `10 ^ 21`,
and has an exponent from there on.
-/
namespace SqlSelect

theorem exists_of_findSome?_range {α : Type} {f : ℕ → Option α} {n : ℕ} {x : α}
    (found : (List.range n).findSome? f = some x) :
    ∃ i < n, f i = some x ∧ ∀ j < i, f j = none := by
  induction n with
  | zero => cases found
  | succ n ih =>
    rw [List.range_succ, List.findSome?_append] at found
    rcases earlier : (List.range n).findSome? f with _ | y
    · rw [earlier, Option.none_or] at found
      refine ⟨n, n.lt_succ_self, by simpa using found, fun j below => ?_⟩
      exact List.findSome?_eq_none_iff.1 earlier j (List.mem_range.2 below)
    · rw [earlier, Option.some_or] at found
      obtain ⟨i, below, at_i, before⟩ := ih (earlier.trans found)
      exact ⟨i, below.trans n.lt_succ_self, at_i, before⟩

theorem toDigits_mul_pow {n : ℕ} (pos : 0 < n) (s : ℕ) :
    Nat.toDigits 10 (n * 10 ^ s) = Nat.toDigits 10 n ++ List.replicate s '0' := by
  induction s with
  | zero => simp
  | succ s ih =>
    have step := Nat.toDigits_append_toDigits (b := 10) (n := n * 10 ^ s) (d := 0) (by decide)
      (by positivity) (by decide)
    rw [show n * 10 ^ (s + 1) = 10 * (n * 10 ^ s) + 0 by ring, ← step, ih, Nat.toDigits_zero,
      List.append_assoc, List.replicate_succ']

/-- The powers of ten that a number lies between show how many digits it has. -/
theorem length_toDigits_bounds {n : ℕ} (pos : 0 < n) :
    10 ^ ((Nat.toDigits 10 n).length - 1) ≤ n ∧ n < 10 ^ (Nat.toDigits 10 n).length := by
  refine ⟨?_, (Nat.length_toDigits_le_iff (by decide) Nat.length_toDigits_pos).1 le_rfl⟩
  by_contra below
  rcases Nat.eq_zero_or_pos ((Nat.toDigits 10 n).length - 1) with zero | positive
  · rw [zero] at below
    omega
  · have := (Nat.length_toDigits_le_iff (by decide) positive).2 (not_le.1 below)
    omega

namespace Magnitude

variable {m : Magnitude}

theorem readsBack_of_value {digits : ℕ} {scale : ℤ}
    (same : (digits * 10 ^ scale : ℚ) = m.value) : m.readsBack ⟨digits, scale⟩ = true :=
  beq_iff_eq.2 (Double.ofDecimal_eq_finite same false)

/-- The lower neighbour with the given count of digits, without its place. -/
def below (m : Magnitude) (count : ℕ) : ℕ :=
  (m.inDecimalUnits (m.leadingPlace - count)).1 / (m.inDecimalUnits (m.leadingPlace - count)).2

theorem neighbour?_eq_some {count : ℕ} {d : Decimal} (found : m.neighbour? count = some d) :
    d.scale = m.leadingPlace - count ∧ m.readsBack d = true ∧
      (d.digits = m.below count ∨ d.digits = m.below count + 1) := by
  simp only [neighbour?, ← below.eq_def] at found
  cases lower : m.readsBack ⟨m.below count, m.leadingPlace - count⟩ <;>
    cases upper : m.readsBack ⟨m.below count + 1, m.leadingPlace - count⟩ <;>
    simp only [lower, upper, reduceCtorEq, Option.some.injEq] at found
  -- Only the upper one reads back, only the lower one, or both; then the nearer one is taken.
  · subst found
    exact ⟨rfl, upper, .inr rfl⟩
  · subst found
    exact ⟨rfl, lower, .inl rfl⟩
  · split at found
    · obtain rfl := Option.some.inj found
      exact ⟨rfl, lower, .inl rfl⟩
    · split at found
      · obtain rfl := Option.some.inj found
        exact ⟨rfl, upper, .inr rfl⟩
      · obtain rfl := Option.some.inj found
        rcases Nat.mod_two_eq_zero_or_one (m.below count) with even | odd
        · simp [even, lower]
        · simp [odd, upper]

theorem neighbour?_ne_none {count : ℕ}
    (lower : m.readsBack ⟨m.below count, m.leadingPlace - count⟩ = true) :
    m.neighbour? count ≠ none := by
  simp only [neighbour?, ← below.eq_def, lower]
  cases m.readsBack ⟨m.below count + 1, m.leadingPlace - count⟩
  · simp
  · dsimp only
    split
    · simp
    · split <;> simp

/-- The search ends at the first count of digits that is enough, or with all digits. -/
theorem shortest_cases (nonzero : m.significand ≠ 0) :
    (∃ i < 17, m.neighbour? (i + 1) = some m.shortest ∧ ∀ j < i, m.neighbour? (j + 1) = none) ∨
      m.shortest = m.exactDecimal ∧ ∀ i < 17, m.neighbour? (i + 1) = none := by
  rw [shortest, if_neg nonzero]
  cases found : (List.range 17).findSome? fun i => m.neighbour? (i + 1) with
  | some d => exact .inl (exists_of_findSome?_range found)
  | none =>
    refine .inr ⟨rfl, fun i below => ?_⟩
    exact List.findSome?_eq_none_iff.1 found i (List.mem_range.2 below)

section Whole

variable {n : ℕ} (whole : m.value = n) (pos : 0 < n)

include whole

theorem numerator_of_whole : m.numerator = n * m.denominator := by
  have positive : (m.denominator : ℚ) ≠ 0 := by exact_mod_cast m.denominator_pos.ne'
  rw [← numerator_div_denominator, div_eq_iff positive] at whole
  exact_mod_cast whole

theorem numerator_div_of_whole : m.numerator / m.denominator = n := by
  rw [numerator_of_whole whole, Nat.mul_div_cancel _ m.denominator_pos]

/-- At a natural place the lower neighbour is what stands in front of it. -/
theorem below_of_whole {count s : ℕ} (place : m.leadingPlace - count = s) :
    m.below count = n / 10 ^ s := by
  rw [below, place, inDecimalUnits, numerator_of_whole whole]
  simp only [power, Int.toNat_natCast, Int.toNat_neg_natCast, Nat.pow_eq, pow_zero, mul_one]
  rw [mul_comm n, Nat.mul_div_mul_left _ _ m.denominator_pos]

theorem exactDecimal_of_whole (exponent : 0 ≤ m.exponent) : m.exactDecimal = ⟨n, 0⟩ := by
  have one (base : ℕ) : power base (-m.exponent) = 1 := by
    rw [power, Int.toNat_eq_zero.2 (by omega)]
    rfl
  rw [exactDecimal, numerator_of_whole whole, denominator, one, one, min_eq_right exponent,
    mul_one, mul_one]

include pos

theorem significand_ne_zero_of_whole : m.significand ≠ 0 := fun zero => by
  rw [value_eq_zero.2 zero] at whole
  exact pos.ne (by exact_mod_cast whole)

theorem leadingPlace_of_whole : m.leadingPlace = (Nat.toDigits 10 n).length := by
  have least : m.denominator ≤ m.numerator := by
    rw [numerator_of_whole whole]
    exact Nat.le_mul_of_pos_left _ pos
  rw [leadingPlace, if_pos least, numerator_div_of_whole whole]

/-- All the digits in front of the point read back. -/
theorem neighbour?_place_ne_none : m.neighbour? (Nat.toDigits 10 n).length ≠ none := by
  have place : m.leadingPlace - (Nat.toDigits 10 n).length = (0 : ℕ) := by
    rw [leadingPlace_of_whole whole pos]
    simp
  refine neighbour?_ne_none (readsBack_of_value ?_)
  rw [below_of_whole whole place, place, whole]
  simp

/-- The exponent of a whole number that needs more than 17 digits is not negative. -/
theorem exponent_nonneg_of_whole (many : 17 < (Nat.toDigits 10 n).length) : 0 ≤ m.exponent := by
  by_contra negative
  have large : 10 ^ 17 ≤ n := by
    have least := (length_toDigits_bounds pos).1
    exact (Nat.pow_le_pow_right (by decide) (by omega)).trans least
  have small : (n : ℚ) ≤ m.significand := by
    rw [← whole, value]
    exact mul_le_of_le_one_right (by positivity) (zpow_le_one_of_nonpos₀ one_le_two (by omega))
  have : m.significand < 9007199254740992 := m.canonical.1
  have : n ≤ m.significand := by exact_mod_cast small
  omega

/-- The shortest digits of a whole number are followed by zeros up to the unit place; with them
they read back, and they stand for a number with as many digits or for the next power of ten. -/
theorem shortest_of_whole : ∃ s : ℕ, m.shortest.scale = s ∧ m.readsBack m.shortest = true ∧
    10 ^ ((Nat.toDigits 10 n).length - 1) ≤ m.shortest.digits * 10 ^ s ∧
    m.shortest.digits * 10 ^ s ≤ 10 ^ (Nat.toDigits 10 n).length := by
  have length : 0 < (Nat.toDigits 10 n).length := Nat.length_toDigits_pos
  have place := leadingPlace_of_whole whole pos
  have stops := neighbour?_place_ne_none whole pos
  have bounds := length_toDigits_bounds pos
  have exponent := exponent_nonneg_of_whole whole pos
  generalize (Nat.toDigits 10 n).length = count at *
  rcases shortest_cases (significand_ne_zero_of_whole whole pos) with
    ⟨i, -, found, before⟩ | ⟨exactly, before⟩
  · obtain ⟨scale, back, digits⟩ := neighbour?_eq_some found
    have most : i + 1 ≤ count := by
      by_contra more
      exact stops (by simpa [Nat.sub_add_cancel length] using before (count - 1) (by omega))
    obtain ⟨s, rfl⟩ := Nat.exists_eq_add_of_le most
    have natural : m.leadingPlace - (i + 1 : ℕ) = (s : ℕ) := by
      rw [place]
      omega
    refine ⟨s, scale.trans natural, back, ?_⟩
    rw [below_of_whole whole natural] at digits
    have unit : 0 < 10 ^ s := by positivity
    -- The digits in front of the place, cut off or with one added, lie between two powers of ten.
    have least : 10 ^ i ≤ n / 10 ^ s := by
      rw [Nat.le_div_iff_mul_le unit, ← pow_add, ← show i + 1 + s - 1 = i + s by omega]
      exact bounds.1
    have most : n / 10 ^ s < 10 ^ (i + 1) := by
      rw [Nat.div_lt_iff_lt_mul unit, ← pow_add]
      exact bounds.2
    rw [show i + 1 + s - 1 = i + s by omega, pow_add, pow_add 10 (i + 1)]
    exact ⟨Nat.mul_le_mul_right _ (by omega), Nat.mul_le_mul_right _ (by omega)⟩
  · have many : 17 < count := by
      by_contra few
      exact stops (by simpa [Nat.sub_add_cancel length] using before (count - 1) (by omega))
    rw [exactly, exactDecimal_of_whole whole (exponent many)]
    refine ⟨0, rfl, readsBack_of_value (by simp [whole]), ?_⟩
    rw [pow_zero, mul_one]
    exact ⟨bounds.1, bounds.2.le⟩

end Whole

end Magnitude

theorem exists_eq_dropTrailingZeros_append (digits : List Char) :
    ∃ n, digits = dropTrailingZeros digits ++ List.replicate n '0' := by
  refine ⟨(digits.reverse.takeWhile (· == '0')).length, ?_⟩
  have zeros : digits.reverse.takeWhile (· == '0') =
      List.replicate (digits.reverse.takeWhile (· == '0')).length '0' :=
    List.eq_replicate_of_mem fun c mem => beq_iff_eq.1 (List.all_eq_true.1 List.all_takeWhile c mem)
  rw [dropTrailingZeros, ← List.reverse_replicate, ← zeros, ← List.reverse_append,
    List.takeWhile_append_dropWhile, List.reverse_reverse]

/-- Up to 21 places a whole number is written in full. -/
theorem Decimal.layOut_of_small {digits s : ℕ} (pos : 0 < digits)
    (small : digits * 10 ^ s < 10 ^ 21) :
    Decimal.layOut ⟨digits, s⟩ = Nat.toDigits 10 (digits * 10 ^ s) := by
  have places : (Nat.toDigits 10 digits).length + s ≤ 21 := by
    have := (Nat.length_toDigits_le_iff (by decide) (by decide)).2 small
    simpa [toDigits_mul_pow pos] using this
  obtain ⟨n, parts⟩ := exists_eq_dropTrailingZeros_append (Nat.toDigits 10 digits)
  have length : (Nat.toDigits 10 digits).length =
      (dropTrailingZeros (Nat.toDigits 10 digits)).length + n := by
    simpa using congrArg List.length parts
  rw [toDigits_mul_pow pos, layOut, if_neg pos.ne']
  simp only [numeralStyle, NumeralStyle.layOut]
  rw [if_pos (by omega), if_pos (by omega)]
  conv_rhs => rw [parts]
  rw [List.append_assoc, List.replicate_append_replicate]
  congr 2
  omega

/-- From there on it has an exponent. -/
theorem Decimal.exponent_mem_layOut {digits s : ℕ} (pos : 0 < digits)
    (large : 10 ^ 21 ≤ digits * 10 ^ s) : 'e' ∈ Decimal.layOut ⟨digits, s⟩ := by
  have places : ¬ (Nat.toDigits 10 digits).length + s ≤ 21 := fun few => by
    have := (Nat.length_toDigits_le_iff (b := 10) (n := digits * 10 ^ s) (by decide)
      (by decide : 0 < 21)).1 (by simpa [toDigits_mul_pow pos] using few)
    omega
  rw [layOut, if_neg pos.ne']
  simp only [numeralStyle, NumeralStyle.layOut]
  rw [if_neg (by omega)]
  simp

namespace Double

/-- The number without its sign; the two zeros become one. -/
def unsigned : Double → Double
  | .nan => .nan
  | .infinite _ => .infinite false
  | .finite _ m => .finite false m

/-- The text consists of digits, without a sign, a point or an exponent, and reads back as the
number. -/
structure IsNumeral (text : String) (x : Double) : Prop where
  nonempty : text ≠ ""
  digits : ∀ c ∈ text.toList, c.isDigit = true
  value : ofNat (Nat.ofDigitChars 10 text.toList 0) = x.unsigned

/-- The least whole number that is written with an exponent. -/
def exponentBound : Double := ofDecimal false 1 21

theorem ofDecimal_natural (digits s : ℕ) : ofDecimal false digits s = ofNat (digits * 10 ^ s) := by
  simp [ofNat, ofDecimal, power]

theorem exists_exponentBound : ∃ bound : Magnitude, exponentBound = .finite false bound ∧
    bound.value = (10 ^ 21 : ℕ) := by
  have value : (⟨7629394531250000, 17, by decide⟩ : Magnitude).value = (10 ^ 21 : ℕ) := by
    norm_num [Magnitude.value]
  exact ⟨_, ofDecimal_eq_finite (by rw [value]; norm_num) false, value⟩

section Finite

variable {m k : Magnitude}

theorem lessThan_finite :
    lessThan (.finite false m) (.finite false k) = true ↔ m.value < k.value := by
  have positive : (0 : ℚ) < m.denominator := by exact_mod_cast m.denominator_pos
  have positive' : (0 : ℚ) < k.denominator := by exact_mod_cast k.denominator_pos
  rw [← m.numerator_div_denominator, ← k.numerator_div_denominator,
    div_lt_div_iff₀ positive positive']
  show decide ((m.numerator : ℤ) * k.denominator < k.numerator * m.denominator) = true ↔ _
  rw [decide_eq_true_iff]
  exact_mod_cast Iff.rfl

/-- The only negative number that is not below zero is a zero itself. -/
theorem significand_of_not_below (natural : lessThan (.finite true m) zero = false) :
    m.significand = 0 := by
  have above : ¬ -(m.numerator : ℤ) * Magnitude.zero.denominator <
      Magnitude.zero.numerator * m.denominator := of_decide_eq_false natural
  have zero : Magnitude.zero.numerator = 0 := Nat.zero_mul _
  have positive : (0 : ℤ) < Magnitude.zero.denominator := by
    exact_mod_cast Magnitude.zero.denominator_pos
  rw [zero, Nat.cast_zero, zero_mul, not_lt, neg_mul, neg_nonneg] at above
  have : m.numerator = 0 := by
    have := nonpos_of_mul_nonpos_left above positive
    omega
  exact (Nat.mul_eq_zero.1 this).resolve_right (power_pos (by decide) _).ne'

theorem value_of_isInteger {negative : Bool} (whole : (finite negative m).isInteger = true) :
    m.value = (m.numerator / m.denominator : ℕ) := by
  have positive : (m.denominator : ℚ) ≠ 0 := by exact_mod_cast m.denominator_pos.ne'
  rw [← m.numerator_div_denominator, div_eq_iff positive]
  exact_mod_cast (Nat.div_mul_cancel (Nat.dvd_of_mod_eq_zero (beq_iff_eq.1 whole))).symm

/-- A positive whole number is a numeral exactly if it is below the bound. -/
theorem isNumeral_layOut_iff {n : ℕ} (whole : m.value = n) (pos : 0 < n) :
    IsNumeral (String.ofList m.shortest.layOut) (.finite false m) ↔ n < 10 ^ 21 := by
  obtain ⟨s, scale, back, least, most⟩ := m.shortest_of_whole whole pos
  have bounds := length_toDigits_bounds pos
  have shape : m.shortest = ⟨m.shortest.digits, s⟩ := by rw [← scale]
  rw [shape] at back ⊢
  generalize m.shortest.digits = digits at *
  generalize (Nat.toDigits 10 n).length = length at *
  have positive : 0 < digits := Nat.pos_of_ne_zero fun zero => by
    rw [zero, zero_mul] at least
    exact absurd least (Nat.not_le.2 (by positivity))
  constructor
  · intro numeral
    by_contra large
    have : 21 < length := (Nat.pow_lt_pow_iff_right (by decide : 1 < 10)).1
      ((not_lt.1 large).trans_lt bounds.2)
    have : 10 ^ 21 ≤ digits * 10 ^ s :=
      (Nat.pow_le_pow_right (by decide) (by omega)).trans least
    exact absurd (numeral.digits 'e' (by simpa using Decimal.exponent_mem_layOut positive this))
      (by decide)
  · intro small
    have reads : ofNat (digits * 10 ^ s) = .finite false m :=
      (ofDecimal_natural digits s).symm.trans (beq_iff_eq.1 back)
    have places : length ≤ 21 := by
      have : length - 1 < 21 := (Nat.pow_lt_pow_iff_right (by decide : 1 < 10)).1
        (bounds.1.trans_lt small)
      omega
    have below : digits * 10 ^ s < 10 ^ 21 := by
      refine lt_of_le_of_ne (most.trans (Nat.pow_le_pow_right (by decide) places)) fun equal => ?_
      -- The next power of ten is a number of its own, and does not read back as a smaller one.
      obtain ⟨bound, read, value⟩ := exists_exponentBound
      rw [exponentBound, show (21 : ℤ) = (21 : ℕ) from rfl, ofDecimal_natural, one_mul, ← equal,
        reads] at read
      obtain rfl : m = bound := by simpa using read
      rw [whole] at value
      exact small.ne (by exact_mod_cast value)
    rw [Decimal.layOut_of_small positive below]
    refine ⟨?_, fun c mem => ?_, ?_⟩
    · simp
    · rw [String.toList_ofList] at mem
      exact Nat.isDigit_of_mem_toDigits (by decide) (by decide) mem
    · rw [String.toList_ofList, Nat.ofDigitChars_ten_toDigits]
      exact reads

end Finite

/-- A whole number from zero on is written as a numeral exactly if it is below the bound. -/
theorem isNumeral_text_iff {x : Double} (whole : x.isInteger = true)
    (natural : x.lessThan zero = false) :
    IsNumeral x.text x ↔ x.lessThan exponentBound = true := by
  match x, whole with
  | .finite negative m, whole =>
    by_cases blank : m.significand = 0
    · obtain rfl : m = .zero :=
        Magnitude.eq_of_value_eq ((Magnitude.value_eq_zero.2 blank).trans
          (Magnitude.value_eq_zero.2 rfl).symm)
      have text : (finite negative .zero).text = "0" := by cases negative <;> decide +kernel
      have below : (finite negative .zero).lessThan exponentBound = true := by
        cases negative <;> decide +kernel
      rw [text]
      have read : ofNat (Nat.ofDigitChars 10 "0".toList 0) = .finite false .zero := by
        decide +kernel
      have digit : "0".toList.all Char.isDigit = true := by decide +kernel
      exact iff_of_true ⟨by decide, List.all_eq_true.1 digit, read⟩ below
    · cases negative with
      | true => exact absurd (significand_of_not_below natural) blank
      | false =>
        obtain ⟨bound, read, value⟩ := exists_exponentBound
        have text : (finite false m).text = String.ofList m.shortest.layOut := by simp [Double.text]
        have exact := value_of_isInteger whole
        rw [read, lessThan_finite, text, value, exact, Nat.cast_lt]
        refine isNumeral_layOut_iff exact (Nat.pos_of_ne_zero fun none => blank ?_)
        rwa [none, Nat.cast_zero, Magnitude.value_eq_zero] at exact

end Double
end SqlSelect
