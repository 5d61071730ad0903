import SqlSelect.Number.Double
import SqlSelect.Time.Calendar

/-! Instants: milliseconds from the start of 1970, within a hundred million days of it, and their
text in universal time. -/
namespace SqlSelect

structure Instant where
  milliseconds : Int
  within : milliseconds.natAbs ≤ 8640000000000000
deriving DecidableEq

namespace Instant

/-- Drops a fraction of a millisecond; what is not a number or lies too far away is no instant. -/
def ofDouble? (x : Double) : Option Instant :=
  match x.truncated? with
  | none => none
  | some ms => if h : ms.natAbs ≤ 8640000000000000 then some ⟨ms, h⟩ else none

def date (t : Instant) : Date := Calendar.ofDay (t.milliseconds / 86400000)

def millisecondOfDay (t : Instant) : Nat := (t.milliseconds % 86400000).toNat

def hour (t : Instant) : Nat := t.millisecondOfDay / 3600000

def minute (t : Instant) : Nat := t.millisecondOfDay / 60000 % 60

def second (t : Instant) : Nat := t.millisecondOfDay / 1000 % 60

def millisecond (t : Instant) : Nat := t.millisecondOfDay % 1000

/-- At least `width` digits, filled up with zeros on the left. -/
def padded (width n : Nat) : List Char :=
  let digits := Nat.toDigits 10 n
  List.replicate (width - digits.length) '0' ++ digits

/-- Four digits for the years 0 to 9999, a sign and six digits for all others. -/
def yearText (year : Int) : List Char :=
  if 0 ≤ year ∧ year ≤ 9999 then padded 4 year.toNat
  else (if year < 0 then '-' else '+') :: padded 6 year.natAbs

/-- Date and time of day with `T` between them, then milliseconds and the mark `Z` of universal
time. -/
def isoChars (t : Instant) : List Char :=
  yearText t.date.year ++ '-' :: padded 2 t.date.month ++ '-' :: padded 2 t.date.day ++
    'T' :: padded 2 t.hour ++ ':' :: padded 2 t.minute ++ ':' :: padded 2 t.second ++
    '.' :: padded 3 t.millisecond ++ ['Z']

end Instant

end SqlSelect
