import SqlSelect.Proofs.Time.Calendar
import SqlSelect.Value

/-!
Timestamps, a date and a time of day in universal time, and how they are read. The text that MySQL
gets for an instant is a timestamp exactly if the year has four digits; it then stands for the
second that the instant lies in. A wider year leaves no room for the seconds.
-/
namespace SqlSelect

namespace Timestamp

/-- So many decimal digits, with what stands behind them. -/
def readNumber? (width : ℕ) (text : List Char) : Option (ℕ × List Char) :=
  let digits := text.take width
  if digits.length = width ∧ digits.all Char.isDigit then
    some (Nat.ofDigitChars 10 digits 0, text.drop width)
  else none

/-- Two digits behind a mark. -/
def readPart? (mark : Char) : List Char → Option (ℕ × List Char)
  | [] => none
  | c :: text => if c = mark then readNumber? 2 text else none

/-- Four digits, or a sign and six of them. -/
def readYear? : List Char → Option (ℤ × List Char)
  | '+' :: text => (readNumber? 6 text).map fun (n, rest) => ((n : ℤ), rest)
  | '-' :: text => (readNumber? 6 text).map fun (n, rest) => (-(n : ℤ), rest)
  | text => (readNumber? 4 text).map fun (n, rest) => ((n : ℤ), rest)

/-- A date with the hour and the minute, in minutes from the start of 1970. -/
def readMinute? (text : List Char) : Option (ℤ × List Char) := do
  let (year, text) ← readYear? text
  let (month, text) ← readPart? '-' text
  let (day, text) ← readPart? '-' text
  let (hour, text) ← readPart? ' ' text
  let (minute, text) ← readPart? ':' text
  let date : Date := ⟨year, month, day⟩
  if date.isValid ∧ hour < 24 ∧ minute < 60 then
    some ((date.toDay * 24 + hour) * 60 + minute, text)
  else none

/-- The timestamp that a whole text is, in seconds from the start of 1970. -/
def read? (text : String) : Option ℤ := do
  let (minute, text) ← readMinute? text.toList
  let (second, text) ← readPart? ':' text
  if second < 60 ∧ text = [] then some (minute * 60 + second) else none

example : read? "2024-01-15 10:30:00" = some 1705314600 ∧ read? "2023-02-29 00:00:00" = none := by
  decide +kernel

/-- The character stands for a mark of a shape: a zero is the mark for any digit. -/
def Fits (c mark : Char) : Prop := if mark = '0' then c.isDigit = true else c = mark

/-- The shape of a timestamp whose year has four digits. -/
def HasShape (text : String) : Prop :=
  List.Forall₂ Fits text.toList "0000-00-00 00:00:00".toList

theorem shape_eq : "0000-00-00 00:00:00".toList =
    List.replicate 4 '0' ++ '-' :: List.replicate 2 '0' ++ '-' :: List.replicate 2 '0' ++
      ' ' :: List.replicate 2 '0' ++ ':' :: List.replicate 2 '0' ++
      ':' :: List.replicate 2 '0' := by
  decide

end Timestamp

namespace Instant

open Calendar

section Padded

variable {width n : ℕ}

theorem isDigit_of_mem_padded {c : Char} (mem : c ∈ padded width n) : c.isDigit = true := by
  rcases List.mem_append.1 mem with zero | digit
  · obtain rfl := List.eq_of_mem_replicate zero
    decide
  · exact Nat.isDigit_of_mem_toDigits (by decide) (by decide) digit

theorem ofDigitChars_padded : Nat.ofDigitChars 10 (padded width n) 0 = n := by
  simp [padded, Nat.ofDigitChars_append, Nat.ofDigitChars_replicate_zero]

variable (pos : 0 < width) (fits : n < 10 ^ width)
include pos fits

theorem length_padded : (padded width n).length = width := by
  have digits := (Nat.length_toDigits_le_iff (by decide) pos).2 fits
  simp [padded, digits]

theorem readNumber?_padded (rest : List Char) :
    Timestamp.readNumber? width (padded width n ++ rest) = some (n, rest) := by
  have length := length_padded pos fits
  have digits : (padded width n).all Char.isDigit = true :=
    List.all_eq_true.2 fun c mem => isDigit_of_mem_padded mem
  simp [Timestamp.readNumber?, List.take_left' length, List.drop_left' length, length, digits,
    ofDigitChars_padded]

end Padded

theorem readPart?_padded {n : ℕ} (fits : n < 100) (mark : Char) (rest : List Char) :
    Timestamp.readPart? mark (mark :: padded 2 n ++ rest) = some (n, rest) := by
  rw [List.cons_append, Timestamp.readPart?, if_pos rfl]
  exact readNumber?_padded (by decide) fits rest

theorem readYear?_yearText {year : ℤ} (fits : year.natAbs < 1000000) (rest : List Char) :
    Timestamp.readYear? (yearText year ++ rest) = some (year, rest) := by
  unfold yearText
  split
  · next short =>
    have four : year.toNat < 10 ^ 4 := by omega
    have read := readNumber?_padded (by decide) four rest
    have length := length_padded (by decide) four
    cases text : padded 4 year.toNat with
    | nil => simp [text] at length
    | cons first others =>
      rw [text] at read
      have digit : first.isDigit = true := isDigit_of_mem_padded (by rw [text]; simp)
      have plus : first ≠ '+' := by rintro rfl; simp at digit
      have minus : first ≠ '-' := by rintro rfl; simp at digit
      rw [List.cons_append] at read ⊢
      rw [Timestamp.readYear?, read]
      · simp [short.1]
      · simpa using plus
      · simpa using minus
  · next wide =>
    have read := readNumber?_padded (by decide) (show year.natAbs < 10 ^ 6 from fits) rest
    split
    · next negative =>
      rw [List.cons_append, Timestamp.readYear?, read, Option.map_some]
      exact congrArg some (Prod.ext (by dsimp only; omega) rfl)
    · next positive =>
      rw [List.cons_append, Timestamp.readYear?, read, Option.map_some]
      exact congrArg some (Prod.ext (by dsimp only; omega) rfl)

variable (t : Instant)

/-- The date of an instant as it is written out. -/
def dateChars : List Char :=
  yearText t.date.year ++ '-' :: padded 2 t.date.month ++ '-' :: padded 2 t.date.day

def minuteChars : List Char :=
  t.dateChars ++ ' ' :: padded 2 t.hour ++ ':' :: padded 2 t.minute

theorem date_fits : t.date.year.natAbs < 1000000 ∧ t.date.month < 100 ∧ t.date.day < 100 := by
  have within := t.within
  have first : startOfYear (-999999) = -365961662 := by decide
  have last : startOfYear 1000000 = 364522972 := by decide
  have begun : (-999999 : ℤ) ≤ t.date.year := le_year_ofDay.2 (by omega)
  have ends : ¬ (1000000 : ℤ) ≤ t.date.year := fun le => by
    have := le_year_ofDay.1 le
    omega
  have valid := Date.le_of_isValid (isValid_ofDay (t.milliseconds / 86400000))
  exact ⟨by omega, Nat.lt_of_le_of_lt valid.1 (by decide), Nat.lt_of_le_of_lt valid.2 (by decide)⟩

theorem time_fits : t.hour < 24 ∧ t.minute < 60 ∧ t.second < 60 := by
  unfold hour minute second millisecondOfDay
  omega

/-- The date and the time of day of an instant come to its minutes. -/
theorem minutes_eq :
    (t.date.toDay * 24 + t.hour) * 60 + t.minute = t.milliseconds / 60000 := by
  have day : t.date.toDay = t.milliseconds / 86400000 := Calendar.toDay_ofDay _
  rw [day]
  unfold hour minute millisecondOfDay
  omega

theorem seconds_eq : t.milliseconds / 60000 * 60 + t.second = t.milliseconds / 1000 := by
  unfold second millisecondOfDay
  omega

theorem readMinute?_minuteChars (rest : List Char) :
    Timestamp.readMinute? (t.minuteChars ++ rest) = some (t.milliseconds / 60000, rest) := by
  obtain ⟨year, month, day⟩ := t.date_fits
  obtain ⟨hour, minute, -⟩ := t.time_fits
  have valid : t.date.isValid = true := isValid_ofDay _
  simp only [Timestamp.readMinute?, minuteChars, dateChars, List.append_assoc,
    readYear?_yearText year, readPart?_padded month, readPart?_padded day,
    readPart?_padded (hour.trans (by decide)), readPart?_padded (minute.trans (by decide)),
    Option.bind_eq_bind, Option.bind_some]
  rw [if_pos ⟨valid, hour, minute⟩, ← t.minutes_eq]

/-! The text for MySQL. -/

/-- The years with four digits, 0 to 9999. -/
abbrev HasShortYear : Prop := 0 ≤ t.date.year ∧ t.date.year ≤ 9999

theorem hasShortYear_iff : t.HasShortYear ↔
    -62167219200000 ≤ t.milliseconds ∧ t.milliseconds < 253402300800000 := by
  have first : startOfYear 0 = -719528 := by decide
  have last : startOfYear 10000 = 2932897 := by decide
  have begun : 0 ≤ t.date.year ↔ startOfYear 0 ≤ t.milliseconds / 86400000 := le_year_ofDay
  have ended : 10000 ≤ t.date.year ↔ startOfYear 10000 ≤ t.milliseconds / 86400000 := le_year_ofDay
  unfold HasShortYear
  omega

variable {t}

theorem length_dateChars : t.dateChars.length = if t.HasShortYear then 10 else 13 := by
  obtain ⟨year, month, day⟩ := t.date_fits
  have month : (padded 2 t.date.month).length = 2 := length_padded (by decide) month
  have day : (padded 2 t.date.day).length = 2 := length_padded (by decide) day
  unfold dateChars yearText
  by_cases short : t.HasShortYear
  · have four : (padded 4 t.date.year.toNat).length = 4 := length_padded (by decide) (by omega)
    simp only [if_pos short]
    simp [four, month, day]
  · have six : (padded 6 t.date.year.natAbs).length = 6 := length_padded (by decide) year
    simp only [if_neg short]
    simp [six, month, day]

theorem not_mem_dateChars : 'T' ∉ t.dateChars := by
  have digits (width n : ℕ) : 'T' ∉ padded width n := fun mem =>
    absurd (isDigit_of_mem_padded mem) (by decide)
  unfold dateChars yearText
  split
  · simp [digits]
  · split <;> simp [digits]

/-- The nineteen characters that are taken end behind the seconds, or behind the minutes if the year
is a wide one. -/
theorem dateText_eq : Database.mysql.dateText t = String.ofList
    (if t.HasShortYear then t.minuteChars ++ ':' :: padded 2 t.second else t.minuteChars) := by
  obtain ⟨hour, minute, second⟩ := t.time_fits
  have hour : (padded 2 t.hour).length = 2 := length_padded (by decide) (by omega)
  have minute : (padded 2 t.minute).length = 2 := length_padded (by decide) (by omega)
  have second : (padded 2 t.second).length = 2 := length_padded (by decide) (by omega)
  have date := t.length_dateChars
  have marked (rest : List Char) :
      (t.dateChars ++ 'T' :: rest).replace 'T' ' ' = t.dateChars ++ ' ' :: rest := by
    rw [List.replace_append_right not_mem_dateChars, List.replace_cons_self]
  have iso : t.isoChars =
      (t.dateChars ++ 'T' :: (padded 2 t.hour ++ ':' :: padded 2 t.minute)) ++
        (':' :: padded 2 t.second ++ ('.' :: padded 3 t.millisecond ++ ['Z'])) := by
    simp [isoChars, dateChars]
  rw [Database.dateText, iso]
  refine congrArg String.ofList ?_
  by_cases short : t.HasShortYear
  · rw [if_pos short] at date ⊢
    rw [← List.append_assoc, List.take_left' (by simp [date, hour, minute, second]),
      List.append_assoc, List.cons_append, marked]
    simp [minuteChars]
  · rw [if_neg short] at date ⊢
    rw [List.take_left' (by simp [date, hour, minute]), marked]
    simp [minuteChars]

theorem dateText_of_short (short : t.HasShortYear) :
    (Database.mysql.dateText t).toList = t.minuteChars ++ ':' :: padded 2 t.second := by
  rw [dateText_eq, if_pos short, String.toList_ofList]

theorem dateText_of_wide (wide : ¬ t.HasShortYear) :
    (Database.mysql.dateText t).toList = t.minuteChars := by
  rw [dateText_eq, if_neg wide, String.toList_ofList]

theorem read?_dateText_of_short (short : t.HasShortYear) :
    Timestamp.read? (Database.mysql.dateText t) = some (t.milliseconds / 1000) := by
  have second := t.time_fits.2.2
  have last := readPart?_padded (second.trans (by decide)) ':' []
  rw [List.append_nil] at last
  rw [Timestamp.read?, dateText_of_short short]
  simp only [readMinute?_minuteChars, last, Option.bind_eq_bind, Option.bind_some]
  rw [if_pos ⟨second, trivial⟩, t.seconds_eq]

theorem readMinute?_dateText_of_wide (wide : ¬ t.HasShortYear) :
    Timestamp.readMinute? (Database.mysql.dateText t).toList =
      some (t.milliseconds / 60000, []) := by
  have read := t.readMinute?_minuteChars []
  rwa [List.append_nil, ← dateText_of_wide wide] at read

theorem read?_dateText_of_wide (wide : ¬ t.HasShortYear) :
    Timestamp.read? (Database.mysql.dateText t) = none := by
  rw [Timestamp.read?, readMinute?_dateText_of_wide wide]
  rfl

theorem fits_padded {width n : ℕ} (pos : 0 < width) (fits : n < 10 ^ width) :
    List.Forall₂ Timestamp.Fits (padded width n) (List.replicate width '0') := by
  have zeros : List.replicate width '0' = (padded width n).map fun _ => '0' := by
    rw [List.map_const', length_padded pos fits]
  rw [zeros, List.forall₂_map_right_iff, List.forall₂_same]
  exact fun c mem => isDigit_of_mem_padded mem

theorem hasShape_of_short (short : t.HasShortYear) :
    Timestamp.HasShape (Database.mysql.dateText t) := by
  obtain ⟨-, month, day⟩ := t.date_fits
  obtain ⟨hour, minute, second⟩ := t.time_fits
  have four : t.date.year.toNat < 10 ^ 4 := by
    have := short.2
    omega
  have part {n : ℕ} (fits : n < 100) (mark : Char) (apart : mark ≠ '0') :
      List.Forall₂ Timestamp.Fits (mark :: padded 2 n) (mark :: List.replicate 2 '0') :=
    .cons (by simp [Timestamp.Fits, apart]) (fits_padded (by decide) fits)
  rw [Timestamp.HasShape, Timestamp.shape_eq, dateText_of_short short, minuteChars, dateChars,
    yearText, if_pos short]
  have front := fits_padded (by decide) four
  exact List.rel_append (List.rel_append (List.rel_append (List.rel_append (List.rel_append front
    (part month '-' (by decide))) (part day '-' (by decide))) (part (by omega) ' ' (by decide)))
    (part (by omega) ':' (by decide))) (part (by omega) ':' (by decide))

theorem not_hasShape_of_wide (wide : ¬ t.HasShortYear) :
    ¬ Timestamp.HasShape (Database.mysql.dateText t) := by
  intro shape
  rw [Timestamp.HasShape, Timestamp.shape_eq, dateText_of_wide wide, minuteChars, dateChars,
    yearText, if_neg wide] at shape
  obtain ⟨digit, -⟩ := List.forall₂_cons.1 shape
  rw [Timestamp.Fits, if_pos rfl] at digit
  split at digit <;> cases digit

/-- The minutes of an instant decide on the whole text but the seconds. -/
theorem minuteChars_congr {t u : Instant} (same : u.milliseconds / 60000 = t.milliseconds / 60000) :
    u.minuteChars = t.minuteChars ∧ (u.HasShortYear ↔ t.HasShortYear) := by
  have date : u.date = t.date := congrArg ofDay (by omega)
  have hour : u.hour = t.hour := by
    unfold hour millisecondOfDay
    omega
  have minute : u.minute = t.minute := by
    unfold minute millisecondOfDay
    omega
  simp only [minuteChars, dateChars, HasShortYear, date, hour, minute, and_self]

/-- Texts are the same for the same second, and in wide years for the same minute. -/
theorem dateText_eq_iff {t u : Instant} :
    Database.mysql.dateText u = Database.mysql.dateText t ↔
      if t.HasShortYear then u.milliseconds / 1000 = t.milliseconds / 1000
      else u.milliseconds / 60000 = t.milliseconds / 60000 := by
  by_cases short : t.HasShortYear
  · rw [if_pos short]
    constructor
    · intro same
      by_cases shortU : u.HasShortYear
      · have read := read?_dateText_of_short shortU
        rw [same, read?_dateText_of_short short] at read
        exact (Option.some.inj read).symm
      · have read := read?_dateText_of_wide shortU
        rw [same, read?_dateText_of_short short] at read
        cases read
    · intro same
      have second : u.second = t.second := by
        unfold second millisecondOfDay
        omega
      obtain ⟨minutes, years⟩ := minuteChars_congr (t := t) (u := u) (by omega)
      rw [dateText_eq, dateText_eq, if_pos short, if_pos (years.2 short), minutes, second]
  · rw [if_neg short]
    constructor
    · intro same
      by_cases shortU : u.HasShortYear
      · have read := read?_dateText_of_short shortU
        rw [same, read?_dateText_of_wide short] at read
        cases read
      · have read := readMinute?_dateText_of_wide shortU
        rw [same, readMinute?_dateText_of_wide short] at read
        exact (congrArg Prod.fst (Option.some.inj read)).symm
    · intro same
      obtain ⟨minutes, years⟩ := minuteChars_congr same
      rw [dateText_eq, dateText_eq, if_neg short, if_neg fun shortU => short (years.1 shortU),
        minutes]

end Instant

/-- Every instant has a text for MySQL. It has the shape of a timestamp, and can be read as one,
exactly if the year has four digits, and then it reads as the second that the instant lies in;
other seconds have other texts. In all other years the text is the same for a whole minute. -/
theorem Database.date_text_reads_back_iff (t : Instant) :
    (t.HasShortYear ↔ -62167219200000 ≤ t.milliseconds ∧ t.milliseconds < 253402300800000) ∧
    ∃ text, mysql.valueText (.date (some t)) = .ok text ∧
      (Timestamp.HasShape text ↔ t.HasShortYear) ∧
      (Timestamp.read? text = some (t.milliseconds / 1000) ↔ t.HasShortYear) ∧
      ∀ u : Instant, mysql.valueText (.date (some u)) = .ok text ↔
        if t.HasShortYear then u.milliseconds / 1000 = t.milliseconds / 1000
        else u.milliseconds / 60000 = t.milliseconds / 60000 := by
  refine ⟨t.hasShortYear_iff, mysql.dateText t, rfl, ⟨?_, Instant.hasShape_of_short⟩,
    ⟨?_, Instant.read?_dateText_of_short⟩, fun u => ?_⟩
  · exact fun shape => by_contra fun wide => Instant.not_hasShape_of_wide wide shape
  · intro read
    by_contra wide
    rw [Instant.read?_dateText_of_wide wide] at read
    cases read
  · rw [← Instant.dateText_eq_iff]
    exact ⟨Except.ok.inj, congrArg Except.ok⟩

/-- The first second of the year 10000 and the one behind it have one text, which is no
timestamp. -/
theorem Database.wide_year_loses_seconds :
    let t : Instant := ⟨253402300800000, by decide⟩
    let u : Instant := ⟨253402300801000, by decide⟩
    mysql.valueText (.date (some t)) = .ok "+010000-01-01 00:00" ∧
      mysql.valueText (.date (some u)) = .ok "+010000-01-01 00:00" ∧
      ¬ Timestamp.HasShape "+010000-01-01 00:00" ∧
      Timestamp.read? "+010000-01-01 00:00" = none ∧
      t.milliseconds / 1000 ≠ u.milliseconds / 1000 := by
  intro t u
  have text : mysql.dateText t = "+010000-01-01 00:00" := by decide +kernel
  have same : mysql.dateText u = "+010000-01-01 00:00" := by decide +kernel
  have wide : ¬ t.HasShortYear := by decide
  refine ⟨congrArg _ text, congrArg _ same, ?_, ?_, by decide⟩
  · exact text ▸ Instant.not_hasShape_of_wide wide
  · exact text ▸ Instant.read?_dateText_of_wide wide

end SqlSelect
