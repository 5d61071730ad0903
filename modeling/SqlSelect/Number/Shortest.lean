import SqlSelect.Number.Double

/-! The shortest decimal that reads back as a given number. For each count of digits the number
has two neighbours on the decimal grid; the first count with a neighbour that reads back wins,
and of two such neighbours the nearer one, a tie going to the even one. -/
namespace SqlSelect

/-- The value `digits * 10 ^ scale`. -/
structure Decimal where
  digits : Nat
  scale : Int
deriving DecidableEq, Repr

namespace Magnitude

/-- How many digits stand before the point; zero and below count the zeros after it. -/
def leadingPlace (m : Magnitude) : Int :=
  if m.denominator ≤ m.numerator then
    ((Nat.toDigits 10 (m.numerator / m.denominator)).length : Int)
  else 1 - ((Nat.toDigits 10 ((m.denominator - 1) / m.numerator)).length : Int)

def readsBack (m : Magnitude) (d : Decimal) : Bool :=
  Double.ofDecimal false d.digits d.scale == .finite false m

/-- The magnitude in units of `10 ^ scale`, as a quotient. -/
def inDecimalUnits (m : Magnitude) (scale : Int) : Nat × Nat :=
  (m.numerator * power 10 (-scale), m.denominator * power 10 scale)

/-- The better of the two neighbours with the given count of digits, if one reads back. -/
def neighbour? (m : Magnitude) (count : Nat) : Option Decimal :=
  let scale := m.leadingPlace - count
  let scaled := m.inDecimalUnits scale
  let below := scaled.1 / scaled.2
  let rest := scaled.1 % scaled.2
  match m.readsBack ⟨below, scale⟩, m.readsBack ⟨below + 1, scale⟩ with
  | true, true =>
    if 2 * rest < scaled.2 then some ⟨below, scale⟩
    else if scaled.2 < 2 * rest then some ⟨below + 1, scale⟩
    else some ⟨below + below % 2, scale⟩
  | true, false => some ⟨below, scale⟩
  | false, true => some ⟨below + 1, scale⟩
  | false, false => none

/-- All the digits of the magnitude. -/
def exactDecimal (m : Magnitude) : Decimal :=
  ⟨m.numerator * power 5 (-m.exponent), min m.exponent 0⟩

def shortest (m : Magnitude) : Decimal :=
  if m.significand = 0 then ⟨0, 0⟩
  else ((List.range 17).findSome? fun i => m.neighbour? (i + 1)).getD m.exactDecimal

end Magnitude

end SqlSelect
