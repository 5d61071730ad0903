/-! Floating-point numbers with 53 significant bits, as exact data rather than as machine words.
Reading a quotient or a decimal rounds it to the nearest number, a tie to the even one. -/
namespace SqlSelect

/-- The least number of 54 bits: every significand is below it. -/
abbrev significandLimit : Nat := 9007199254740992

/-- The least number of 53 bits. -/
abbrev leastFull : Nat := 4503599627370496

/-- The power of a base; a negative exponent counts as zero, so that one of `power base n` and
`power base (-n)` is always one. -/
def power (base : Nat) (exponent : Int) : Nat := Nat.pow base exponent.toNat

theorem power_pos {base : Nat} (h : 0 < base) (exponent : Int) : 0 < power base exponent :=
  Nat.pow_pos h

/-- The one way to write a magnitude as `significand * 2 ^ exponent`: all 53 bits are used unless
the exponent is the least one. -/
def Canonical (significand : Nat) (exponent : Int) : Prop :=
  significand < significandLimit ∧ -1074 ≤ exponent ∧ exponent ≤ 971 ∧
    (leastFull ≤ significand ∨ exponent = -1074)

instance (significand : Nat) (exponent : Int) : Decidable (Canonical significand exponent) :=
  inferInstanceAs (Decidable (_ ∧ _ ∧ _ ∧ _))

structure Magnitude where
  significand : Nat
  exponent : Int
  canonical : Canonical significand exponent
deriving DecidableEq

namespace Magnitude

def zero : Magnitude := ⟨0, -1074, by decide⟩

def numerator (m : Magnitude) : Nat := m.significand * power 2 m.exponent

def denominator (m : Magnitude) : Nat := power 2 (-m.exponent)

theorem denominator_pos (m : Magnitude) : 0 < m.denominator := power_pos (by decide) _

end Magnitude

inductive Double where
  | nan
  | infinite (negative : Bool)
  | finite (negative : Bool) (magnitude : Magnitude)
deriving DecidableEq

namespace Double

def zero : Double := .finite false .zero

/-- The quotient rounded to an integer, a half to the even neighbour. -/
def roundQuotient (numerator denominator : Nat) : Nat :=
  let whole := numerator / denominator
  let rest := numerator % denominator
  if 2 * rest < denominator then whole
  else if denominator < 2 * rest then whole + 1
  else whole + whole % 2

/-- A pair in canonical form is a finite number; any other is too large for one. -/
def ofScaled (negative : Bool) (significand : Nat) (exponent : Int) : Double :=
  if h : Canonical significand exponent then .finite negative ⟨significand, exponent, h⟩
  else .infinite negative

/-- The quotient measured in units of `2 ^ exponent`, as a quotient. -/
def inUnits (numerator denominator : Nat) (exponent : Int) : Nat × Nat :=
  (numerator * power 2 (-exponent), denominator * power 2 exponent)

/-- The least exponent in whose units the quotient stays below 54 bits, but none below that of
the smallest numbers. -/
def unitExponent (numerator denominator : Nat) : Int :=
  let low : Int := (numerator.log2 : Int) - denominator.log2 - 53
  let scaled := inUnits numerator denominator low
  max (-1074) (if scaled.1 / scaled.2 < significandLimit then low else low + 1)

/-- The number nearest to a quotient with a positive denominator. -/
def ofQuotient (negative : Bool) (numerator denominator : Nat) : Double :=
  if numerator = 0 then .finite negative .zero
  else
    let exponent := unitExponent numerator denominator
    let scaled := inUnits numerator denominator exponent
    let significand := roundQuotient scaled.1 scaled.2
    if significand = significandLimit then ofScaled negative leastFull (exponent + 1)
    else ofScaled negative significand exponent

/-- The number nearest to `digits * 10 ^ scale`. -/
def ofDecimal (negative : Bool) (digits : Nat) (scale : Int) : Double :=
  ofQuotient negative (digits * power 10 scale) (power 10 (-scale))

def ofNat (n : Nat) : Double := ofDecimal false n 0

private def signed (negative : Bool) (n : Nat) : Int := if negative then -(n : Int) else n

/-- Order of values: nothing is below or above what is not a number, and the two zeros are
equal. -/
def lessThan : Double → Double → Bool
  | .nan, _ => false
  | _, .nan => false
  | .infinite a, .infinite b => a && !b
  | .infinite a, .finite _ _ => a
  | .finite _ _, .infinite b => !b
  | .finite a m, .finite b n =>
    signed a m.numerator * n.denominator < signed b n.numerator * m.denominator

def atMost (x y : Double) : Bool := x != .nan && y != .nan && !lessThan y x

def isInteger : Double → Bool
  | .finite _ m => m.numerator % m.denominator == 0
  | _ => false

/-- The value without its fraction; only finite numbers have one. -/
def truncated? : Double → Option Int
  | .finite negative m => some (signed negative (m.numerator / m.denominator))
  | _ => none

end Double

end SqlSelect
