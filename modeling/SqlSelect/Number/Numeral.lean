import SqlSelect.Number.Shortest

/-! The text of a number: its shortest digits, written out in full between a millionth and
`10 ^ 21` and with an exponent outside. -/
namespace SqlSelect

/-- Between which places of the leading digit a numeral is written without an exponent. -/
structure NumeralStyle where
  leastPlace : Int
  greatestPlace : Int
deriving DecidableEq, Repr

def numeralStyle : NumeralStyle := ⟨-5, 21⟩

/-- Digits with the point after the given place. -/
def NumeralStyle.layOut (style : NumeralStyle) (digits : List Char) (place : Int) : List Char :=
  if style.leastPlace ≤ place ∧ place ≤ style.greatestPlace then
    if digits.length ≤ place then digits ++ List.replicate (place - digits.length).toNat '0'
    else if 0 < place then digits.take place.toNat ++ '.' :: digits.drop place.toNat
    else '0' :: '.' :: (List.replicate (-place).toNat '0' ++ digits)
  else
    let power := place - 1
    (match digits with
      | first :: second :: rest => first :: '.' :: second :: rest
      | short => short) ++
    'e' :: (if power < 0 then '-' else '+') :: Nat.toDigits 10 power.natAbs

def dropTrailingZeros (digits : List Char) : List Char :=
  (digits.reverse.dropWhile (· == '0')).reverse

def Decimal.layOut (d : Decimal) : List Char :=
  if d.digits = 0 then ['0']
  else
    let digits := Nat.toDigits 10 d.digits
    numeralStyle.layOut (dropTrailingZeros digits) (digits.length + d.scale)

namespace Double

def text : Double → String
  | .nan => "NaN"
  | .infinite negative => if negative then "-Infinity" else "Infinity"
  | .finite negative m =>
    String.ofList ((if negative ∧ m.significand ≠ 0 then ['-'] else []) ++ m.shortest.layOut)

example : (ofDecimal false 123456789 (-3)).text = "123456.789" := by decide +kernel

example : (ofDecimal false 1 21).text = "1e+21" := by decide +kernel

example : (ofQuotient true 2 3).text = "-0.6666666666666666" := by decide +kernel

end Double

end SqlSelect
