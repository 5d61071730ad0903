import Mathlib
import SqlSelect.Time.Calendar

/-!
Dates counted back to days. The count goes by the rule for leap years and by the lengths of the
months alone, without the cycles that a date is found with. The date of a day is one that the
calendar has, and it counts to that day.
-/
namespace SqlSelect

namespace Calendar

def yearLength (year : ℤ) : ℕ := if isLeap year then 366 else 365

/-- The day on which a year starts, counted from the start of 1970. -/
def startOfYear (year : ℤ) : ℤ :=
  365 * (year - 1970) + ((year - 1) / 4 - (year - 1) / 100 + (year - 1) / 400 - 477)

theorem isLeap_iff {year : ℤ} :
    isLeap year = true ↔ year % 4 = 0 ∧ (year % 100 ≠ 0 ∨ year % 400 = 0) := by
  simp [isLeap]

/-- A year starts when the one before it has lasted its length. -/
theorem startOfYear_succ (year : ℤ) :
    startOfYear (year + 1) = startOfYear year + yearLength year := by
  unfold startOfYear yearLength
  split
  · next leap =>
    have := isLeap_iff.1 leap
    omega
  · next common =>
    rw [isLeap_iff] at common
    omega

example : startOfYear 1970 = 0 := rfl

theorem startOfYear_mono {year other : ℤ} (le : year ≤ other) :
    startOfYear year ≤ startOfYear other := by
  unfold startOfYear
  omega

theorem sum_monthLengths (year : ℤ) : (monthLengths (isLeap year)).sum = yearLength year := by
  unfold yearLength
  cases isLeap year <;> rfl

/-! The parts of a cycle of 400 years that starts in 2001. -/

section Parts

variable (cycle : ℤ) {century quad single : ℤ} (inCycle : 0 ≤ century ∧ century ≤ 3)
  (inCentury : 0 ≤ quad ∧ quad ≤ 24) (inQuad : 0 ≤ single ∧ single ≤ 3)
include inCycle inCentury inQuad

theorem startOfYear_parts :
    startOfYear (2001 + 400 * cycle + 100 * century + 4 * quad + single) =
      11323 + 146097 * cycle + 36524 * century + 1461 * quad + 365 * single := by
  generalize isYear : 2001 + 400 * cycle + 100 * century + 4 * quad + single = year
  have quads : (year - 1) / 4 = 500 + 100 * cycle + 25 * century + quad := by omega
  have centuries : (year - 1) / 100 = 20 + 4 * cycle + century := by omega
  have cycles : (year - 1) / 400 = 5 + cycle := by omega
  rw [startOfYear, quads, centuries, cycles]
  omega

theorem isLeap_parts :
    isLeap (2001 + 400 * cycle + 100 * century + 4 * quad + single) = true ↔
      single = 3 ∧ (quad ≠ 24 ∨ century = 3) := by
  rw [isLeap_iff]
  omega

end Parts

/-- What the search for a year finds: the parts of the cycle that have passed, and the rest. -/
theorem yearAndDay_parts (day : ℤ) : ∃ cycle century quad single : ℤ, ∃ rest : ℕ,
    yearAndDay day = (2001 + 400 * cycle + 100 * century + 4 * quad + single, rest) ∧
      day = 146097 * cycle + 36524 * century + 1461 * quad + 365 * single + rest ∧
      (0 ≤ century ∧ century ≤ 3) ∧ (0 ≤ quad ∧ quad ≤ 24) ∧ (0 ≤ single ∧ single ≤ 3) ∧
      rest ≤ 365 ∧ (rest = 365 → single = 3 ∧ (quad ≠ 24 ∨ century = 3)) := by
  refine ⟨_, _, _, _, _, rfl, ?_, ?_, ?_, ?_, ?_, ?_⟩ <;> omega

/-- A day lies in the year that is found for it. -/
theorem yearAndDay_spec (day : ℤ) :
    startOfYear (yearAndDay day).1 + (yearAndDay day).2 = day + 11323 ∧
      (yearAndDay day).2 < yearLength (yearAndDay day).1 := by
  obtain ⟨cycle, century, quad, single, rest, found, isDay, centuries, quads, singles, le, last⟩ :=
    yearAndDay_parts day
  have starts := startOfYear_parts cycle centuries quads singles
  have leap := isLeap_parts cycle centuries quads singles
  rw [found]
  dsimp only
  refine ⟨by omega, ?_⟩
  unfold yearLength
  split
  · exact Nat.lt_succ_of_le le
  · next common =>
    rw [leap] at common
    exact Nat.lt_of_le_of_ne le fun full => common (last full)

/-- Days of the year are passed over month by month. -/
theorem monthAndDay_spec (lengths : List ℕ) (month : ℕ) {rest : ℕ} (inside : rest < lengths.sum) :
    ∃ passed length, (monthAndDay lengths month rest).1 = month + passed ∧
      lengths[passed]? = some length ∧ (monthAndDay lengths month rest).2 ≤ length ∧
      0 < (monthAndDay lengths month rest).2 ∧
      (lengths.take passed).sum + (monthAndDay lengths month rest).2 = rest + 1 := by
  induction lengths generalizing month rest with
  | nil => simp at inside
  | cons first lengths ih =>
    unfold monthAndDay
    split
    · next within => exact ⟨0, first, by simp [Nat.succ_le_of_lt within]⟩
    · next beyond =>
      rw [List.sum_cons] at inside
      have left : rest - first < lengths.sum := by omega
      obtain ⟨passed, length, isMonth, there, le, pos, count⟩ := ih (month + 1) left
      refine ⟨passed + 1, length, by omega, by simpa using there, le, pos, ?_⟩
      rw [List.take_succ_cons, List.sum_cons]
      omega

end Calendar

open Calendar

namespace Date

/-- The calendar has this date. -/
def isValid (d : Date) : Bool :=
  0 < d.month && 0 < d.day && ((monthLengths (isLeap d.year))[d.month - 1]?).any (d.day ≤ ·)

/-- The day of a date, counted from the start of 1970. -/
def toDay (d : Date) : ℤ :=
  startOfYear d.year + ((monthLengths (isLeap d.year)).take (d.month - 1)).sum + (d.day - 1)

example : toDay ⟨2000, 3, 1⟩ = 11017 := by decide

theorem le_of_isValid {d : Date} (valid : d.isValid = true) : d.month ≤ 12 ∧ d.day ≤ 31 := by
  have lengths (leap : Bool) :
      (monthLengths leap).length = 12 ∧ ∀ l ∈ monthLengths leap, l ≤ 31 := by
    cases leap <;> decide
  obtain ⟨months, days⟩ := lengths (isLeap d.year)
  obtain ⟨length, there, le⟩ := (Option.any_eq_true _ _).1 (Bool.and_eq_true_iff.1 valid).2
  obtain ⟨inside, -⟩ := List.getElem?_eq_some_iff.1 there
  exact ⟨by omega, (of_decide_eq_true le).trans (days length (List.mem_of_getElem? there))⟩

end Date

namespace Calendar

theorem ofDay_spec (day : ℤ) : (ofDay day).isValid = true ∧ (ofDay day).toDay = day ∧
    startOfYear (ofDay day).year ≤ day ∧ day < startOfYear ((ofDay day).year + 1) := by
  obtain ⟨count, inside⟩ := yearAndDay_spec (day - 11323)
  rcases inYears : yearAndDay (day - 11323) with ⟨year, dayOfYear⟩
  rw [inYears] at count inside
  dsimp only at count inside
  obtain ⟨passed, length, isMonth, there, le, pos, days⟩ :=
    monthAndDay_spec (monthLengths (isLeap year)) 1 (by rwa [sum_monthLengths])
  rcases inMonths : monthAndDay (monthLengths (isLeap year)) 1 dayOfYear with ⟨month, dayOfMonth⟩
  rw [inMonths] at isMonth le pos days
  dsimp only at isMonth le pos days
  obtain rfl : month = passed + 1 := by omega
  have date : ofDay day = ⟨year, passed + 1, dayOfMonth⟩ := by
    simp only [ofDay, inYears, inMonths]
  rw [date, Date.isValid, Date.toDay, startOfYear_succ]
  dsimp only
  rw [Nat.add_sub_cancel, there]
  exact ⟨by simp [pos, le], by omega, by omega, by omega⟩

theorem isValid_ofDay (day : ℤ) : (ofDay day).isValid = true := (ofDay_spec day).1

/-- The date of a day counts to that day. -/
theorem toDay_ofDay (day : ℤ) : (ofDay day).toDay = day := (ofDay_spec day).2.1

theorem le_year_ofDay {day year : ℤ} : year ≤ (ofDay day).year ↔ startOfYear year ≤ day := by
  obtain ⟨-, -, begun, ends⟩ := ofDay_spec day
  constructor
  · intro le
    exact (startOfYear_mono le).trans begun
  · intro le
    by_contra above
    have := startOfYear_mono (show (ofDay day).year + 1 ≤ year by omega)
    omega

end Calendar

end SqlSelect
