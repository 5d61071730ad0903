/-! The Gregorian calendar, continued without end in both directions, and the instants that a
literal can name. -/
namespace SqlSelect

structure Date where
  year : Int
  month : Nat
  day : Nat
deriving DecidableEq, Repr

namespace Calendar

def isLeap (year : Int) : Bool := year % 4 == 0 && (year % 100 != 0 || year % 400 == 0)

def monthLengths (leap : Bool) : List Nat :=
  [31, if leap then 29 else 28, 31, 30, 31, 30, 31, 31, 30, 31, 30, 31]

/-- The year and the day of the year, counted from zero, of a day counted from the start of 2001,
when a cycle of 400 years begins. The fourth century of a cycle and the fourth year of a leap
cycle are a day longer than the others. -/
def yearAndDay (day : Int) : Int × Nat :=
  let cycle := day / 146097
  let inCycle := day % 146097
  let century := min 3 (inCycle / 36524)
  let inCentury := inCycle - century * 36524
  let quad := inCentury / 1461
  let inQuad := inCentury % 1461
  let single := min 3 (inQuad / 365)
  (2001 + 400 * cycle + 100 * century + 4 * quad + single, (inQuad - single * 365).toNat)

/-- The month, counted on from `month`, and the day of the month of a day of the year. -/
def monthAndDay : List Nat → (month dayOfYear : Nat) → Nat × Nat
  | [], month, rest => (month, rest + 1)
  | length :: lengths, month, rest =>
    if rest < length then (month, rest + 1)
    else monthAndDay lengths (month + 1) (rest - length)

/-- The date of a day counted from the start of 1970. -/
def ofDay (day : Int) : Date :=
  let (year, dayOfYear) := yearAndDay (day - 11323)
  let (month, dayOfMonth) := monthAndDay (monthLengths (isLeap year)) 1 dayOfYear
  ⟨year, month, dayOfMonth⟩

example : ofDay 0 = ⟨1970, 1, 1⟩ := by decide

example : ofDay 11016 = ⟨2000, 2, 29⟩ := by decide

example : ofDay (-719529) = ⟨-1, 12, 31⟩ := by decide

end Calendar

end SqlSelect
