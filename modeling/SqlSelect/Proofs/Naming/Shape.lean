import Mathlib
import SqlSelect.Identifier
import SqlSelect.Naming
import SqlSelect.Proofs.Text.LowerCase

/-!
When the naming convention gives an identifier. The convention adds underscores and lower-cases, so
it makes identifiers of identifiers and of nothing else, but for one character: the Kelvin sign is
no ASCII letter, and its lower-case form is one.
-/
namespace SqlSelect

namespace Identifier

theorem isIdentifier_iff {name : List Char} : isIdentifier name = true ↔
    (∃ c ∈ name.head?, isStart c = true) ∧ ∀ c ∈ name, isPart c = true := by
  cases name with
  | nil => simp [isIdentifier]
  | cons first rest =>
    simp only [isIdentifier, Bool.and_eq_true, List.all_eq_true, List.head?_cons, Option.mem_def,
      Option.some.injEq, exists_eq_left', List.forall_mem_cons]
    constructor
    · rintro ⟨start, parts⟩
      exact ⟨start, isPart_of_isStart start, parts⟩
    · rintro ⟨start, -, parts⟩
      exact ⟨start, parts⟩

private theorem no_dot {name : List Char} (h : '.' ∉ name) : ∀ c ∈ name, (c != '.') = true :=
  fun c mem => by simpa using ne_of_mem_of_not_mem mem h

theorem isQualified_of_no_dot {name : List Char} (h : '.' ∉ name) :
    isQualified name = isIdentifier name := by
  have none : (name ++ []).dropWhile (· != '.') = [] := by
    rw [List.dropWhile_append_of_pos (no_dot h)]
    rfl
  rw [List.append_nil] at none
  rw [isQualified, none]

theorem isQualified_append {first second : List Char} (h : '.' ∉ first) :
    isQualified (first ++ '.' :: second) = (isIdentifier first && isIdentifier second) := by
  have plain := no_dot h
  have behind : (first ++ '.' :: second).dropWhile (· != '.') = '.' :: second := by
    rw [List.dropWhile_append_of_pos plain]
    simp
  have before : (first ++ '.' :: second).takeWhile (· != '.') = first := by
    rw [List.takeWhile_append_of_pos plain]
    simp
  simp only [isQualified, behind, before]

end Identifier

open Identifier

namespace Text

/-- Characters of qualified names. -/
def Nameable (c : Char) : Prop := isPart c = true ∨ c = '.'

instance (c : Char) : Decidable (Nameable c) := inferInstanceAs (Decidable (_ ∨ _))

theorem isIdentifier_of_not_nameable {cs : List Char} (h : ∃ c ∈ cs, ¬ Nameable c) :
    isIdentifier cs = false := by
  obtain ⟨c, mem, other⟩ := h
  exact Bool.eq_false_iff.2 fun valid => other (.inl (isPart_of_mem valid mem))

theorem isQualified_of_not_nameable {cs : List Char} (h : ∃ c ∈ cs, ¬ Nameable c) :
    isQualified cs = false := by
  obtain ⟨c, mem, other⟩ := h
  exact Bool.eq_false_iff.2 fun valid => other (isPart_or_dot_of_mem valid mem)

/-- The character of the alphabet that lower-casing makes of the one character outside of it, or the
character itself. -/
def fold (c : Char) : Char := if c = '\u212A' then 'k' else c

/-! What lower-casing does to single characters. -/

theorem toNat_of_nameable {c : Char} (h : Nameable c) : c.toNat < 0x80 := by
  rcases h with part | rfl
  · have toNat : c.val.toNat = c.toNat := rfl
    simp only [isPart, Char.isAlphanum, Char.isAlpha, Char.isUpper, Char.isLower, Char.isDigit,
      Bool.or_eq_true, Bool.and_eq_true, decide_eq_true_eq, beq_iff_eq, ge_iff_le,
      UInt32.le_iff_toNat_le, toNat] at part
    rcases part with ((⟨-, upper⟩ | ⟨-, lower⟩) | ⟨-, digit⟩) | rfl
    · exact Nat.lt_of_le_of_lt upper (by decide)
    · exact Nat.lt_of_le_of_lt lower (by decide)
    · exact Nat.lt_of_le_of_lt digit (by decide)
    · decide
  · decide

theorem isPart_toLower (c : Char) : isPart c.toLower = isPart c :=
  forall_toLower (P := fun c lower => isPart lower = isPart c) (by decide +kernel) (fun _ => rfl) c

theorem isStart_toLower (c : Char) : isStart c.toLower = isStart c :=
  forall_toLower (P := fun c lower => isStart lower = isStart c) (by decide +kernel) (fun _ => rfl) c

theorem toLower_eq_dot {c : Char} : c.toLower = '.' ↔ c = '.' :=
  forall_toLower (P := fun c lower => lower = '.' ↔ c = '.') (by decide +kernel) (fun _ => .rfl) c

theorem lowerCode_ascii {code : Nat} (h : lowerCode code < 0x80) :
    code < 0x80 ∨ code = 0x212A := by
  have table : ∀ run ∈ lowerRuns, run.last < 0x80 ∨ 0x80 ≤ run.first + run.distance ∨
      run.first = 0x212A ∧ run.last = 0x212A := by decide +kernel
  unfold lowerCode at h
  split at h
  · next run found =>
    have covered := List.find?_some found
    simp only [CaseRun.covers, Bool.and_eq_true, decide_eq_true_eq] at covered
    rcases table run (List.mem_of_find?_eq_some found) with small | large | kelvin
    · exact .inl (by omega)
    · omega
    · exact .inr (by omega)
  · exact .inl h

theorem not_nameable_ofNat {code : Nat} (h : 0x80 ≤ code) : ¬ Nameable (Char.ofNat code) := by
  refine forall_ofNat (P := fun c => ¬ Nameable c) (fun c same nameable => ?_) (by decide)
  have := toNat_of_nameable nameable
  omega

/-! What lower-casing does to names. -/

theorem lowerFrom_of_nameable {cs : List Char} (h : ∀ c ∈ cs, Nameable (fold c))
    (before : List Char) : lowerFrom before cs = cs.map fun c => (fold c).toLower := by
  induction cs generalizing before with
  | nil => rfl
  | cons c cs ih =>
    obtain ⟨first, others⟩ := List.forall_mem_cons.1 h
    rw [lowerFrom, ih others, List.map_cons]
    by_cases kelvin : c = '\u212A'
    · subst kelvin
      rfl
    · have same : fold c = c := if_neg kelvin
      have ascii : c.toNat < 0x80 := toNat_of_nameable (same ▸ first)
      have sigma : c.toNat ≠ 0x3A3 := by omega
      rw [if_neg sigma, lowerChar, if_pos ascii, same]
      rfl

theorem exists_mem_lowerChar {c : Char} (h : ¬ Nameable (fold c)) :
    ∃ x ∈ lowerChar c, ¬ Nameable x := by
  have plain : c ≠ '\u212A' := by
    rintro rfl
    exact h (by decide)
  have code : c.toNat ≠ 0x212A := fun same => plain (Char.toNat_inj.1 same)
  rw [fold, if_neg plain] at h
  unfold lowerChar
  split
  · refine ⟨c.toLower, List.mem_cons_self, fun nameable => h ?_⟩
    rwa [Nameable, isPart_toLower, toLower_eq_dot] at nameable
  · next large =>
    split
    · exact ⟨'\u0307', by simp, by decide⟩
    · refine ⟨_, List.mem_cons_self, not_nameable_ofNat (Nat.le_of_not_lt fun small => ?_)⟩
      exact (lowerCode_ascii small).elim large code

/-- A character that cannot stand in a name is not made into ones that can. -/
theorem exists_mem_lowerFrom {cs : List Char} (h : ∃ c ∈ cs, ¬ Nameable (fold c))
    (before : List Char) : ∃ c ∈ lowerFrom before cs, ¬ Nameable c := by
  obtain ⟨c, mem, other⟩ := h
  induction cs generalizing before with
  | nil => simp at mem
  | cons first cs ih =>
    rw [lowerFrom]
    rcases List.mem_cons.1 mem with rfl | mem
    · have here : ∃ x ∈ if c.toNat = 0x3A3 then
          if casedAhead before && !casedAhead cs then ['\u03C2'] else ['\u03C3']
          else lowerChar c, ¬ Nameable x := by
        split
        · split
          · exact ⟨'\u03C2', by simp, by decide⟩
          · exact ⟨'\u03C3', by simp, by decide⟩
        · exact exists_mem_lowerChar other
      obtain ⟨x, there, bad⟩ := here
      exact ⟨x, List.mem_append_left _ there, bad⟩
    · obtain ⟨x, there, bad⟩ := ih (first :: before) mem
      exact ⟨x, List.mem_append_right _ there, bad⟩

end Text

namespace Naming

open Text

/-! What separating words does to names. -/

theorem head?_separate (cs : List Char) : (separate cs).head? = cs.head? := by
  cases cs with
  | nil => simp [separate]
  | cons c cs =>
    rw [separate]
    split <;> rfl

theorem mem_separate_of_mem {cs : List Char} {c : Char} (h : c ∈ cs) : c ∈ separate cs := by
  fun_induction separate cs with
  | case1 => exact h
  | case2 first rest run _ ih =>
    rw [← List.takeWhile_append_dropWhile (p := isCapital) (l := rest)] at h
    rcases List.mem_cons.1 h with rfl | h
    · exact List.mem_cons_self
    · apply List.mem_cons_of_mem
      apply List.mem_cons_of_mem
      exact List.mem_append.2 ((List.mem_append.1 h).imp_right ih)
  | case3 first rest run _ ih => exact List.mem_cons.2 ((List.mem_cons.1 h).imp_right ih)

theorem mem_of_mem_separate {cs : List Char} {c : Char} (h : c ∈ separate cs) :
    c ∈ cs ∨ c = '_' := by
  fun_induction separate cs with
  | case1 => exact .inl h
  | case2 first rest run _ ih =>
    rcases List.mem_cons.1 h with rfl | h
    · exact .inl List.mem_cons_self
    rcases List.mem_cons.1 h with rfl | h
    · exact .inr rfl
    rcases List.mem_append.1 h with inside | behind
    · exact .inl (List.mem_cons_of_mem _ (List.takeWhile_subset _ inside))
    · exact (ih behind).imp_left fun mem =>
        List.mem_cons_of_mem _ ((List.dropWhile_sublist _).subset mem)
  | case3 first rest run _ ih =>
    rcases List.mem_cons.1 h with rfl | h
    · exact .inl List.mem_cons_self
    · exact (ih h).imp_left (List.mem_cons_of_mem _)

/-- No run of capitals reaches over a dot. -/
private theorem capitals_append_dot (first second : List Char) :
    (first ++ '.' :: second).takeWhile isCapital = first.takeWhile isCapital ∧
      (first ++ '.' :: second).dropWhile isCapital =
        first.dropWhile isCapital ++ '.' :: second := by
  induction first with
  | nil => exact ⟨rfl, rfl⟩
  | cons c first ih =>
    cases capital : isCapital c with
    | false => simp [capital]
    | true => simp [capital, ih]

theorem separate_append_dot (first second : List Char) :
    separate (first ++ '.' :: second) = separate first ++ '.' :: separate second := by
  fun_induction separate first with
  | case1 =>
    have dot : isSmall '.' = false := by decide
    rw [List.nil_append, separate, if_neg (by simp [dot])]
    simp
  | case2 c rest run found ih =>
    obtain ⟨taken, dropped⟩ := capitals_append_dot rest second
    rw [List.cons_append, separate, taken, dropped, if_pos found, ih]
    simp [run]
  | case3 c rest run found ih =>
    rw [List.cons_append, separate, (capitals_append_dot rest second).1, if_neg found, ih]
    rfl

/-! What the convention makes of names. -/

theorem fold_eq_dot {c : Char} : fold c = '.' ↔ c = '.' := by
  unfold fold
  split
  · next kelvin =>
    subst kelvin
    decide
  · rfl

private theorem isIdentifier_map_separate (cs : List Char) :
    isIdentifier ((separate cs).map fun c => (fold c).toLower) = isIdentifier (cs.map fold) := by
  rw [Bool.eq_iff_iff, isIdentifier_iff, isIdentifier_iff, List.head?_map, List.head?_map,
    head?_separate]
  have starts : (∃ c ∈ cs.head?.map fun c => (fold c).toLower, isStart c = true) ↔
      ∃ c ∈ cs.head?.map fold, isStart c = true := by
    cases cs.head? <;> simp [isStart_toLower]
  rw [starts, List.forall_mem_map, List.forall_mem_map]
  simp only [isPart_toLower]
  refine and_congr_right fun _ => ⟨fun parts c mem => parts c (mem_separate_of_mem mem), ?_⟩
  intro parts c mem
  rcases mem_of_mem_separate mem with mem | rfl
  · exact parts c mem
  · decide

private theorem isQualified_map_separate (cs : List Char) :
    isQualified ((separate cs).map fun c => (fold c).toLower) = isQualified (cs.map fold) := by
  have dotless {cs : List Char} (h : '.' ∉ cs) : '.' ∉ cs.map fold := by
    rintro mem
    obtain ⟨c, there, same⟩ := List.mem_map.1 mem
    exact h (fold_eq_dot.1 same ▸ there)
  have dotless' {cs : List Char} (h : '.' ∉ cs) :
      '.' ∉ (separate cs).map fun c => (fold c).toLower := by
    rintro mem
    obtain ⟨c, there, same⟩ := List.mem_map.1 mem
    obtain rfl := fold_eq_dot.1 (toLower_eq_dot.1 same)
    exact (mem_of_mem_separate there).elim h (by decide)
  by_cases dot : '.' ∈ cs
  · obtain ⟨first, second, rfl, none⟩ := List.eq_append_cons_of_mem dot
    rw [separate_append_dot, List.map_append, List.map_append, List.map_cons, List.map_cons]
    show isQualified (_ ++ '.' :: _) = isQualified (_ ++ '.' :: _)
    rw [isQualified_append (dotless' none), isQualified_append (dotless none),
      isIdentifier_map_separate, isIdentifier_map_separate]
  · rw [isQualified_of_no_dot (dotless' dot), isQualified_of_no_dot (dotless dot),
      isIdentifier_map_separate]

variable (name : String)

/-- The convention lower-cases a name as far as a name can have been one of identifiers; else it
leaves a character that cannot stand in a name. -/
theorem snakeCase_cases :
    (snakeCase name).toList = (separate name.toList).map (fun c => (fold c).toLower) ∨
      (∃ c ∈ (snakeCase name).toList, ¬ Nameable c) ∧
        ∃ c ∈ name.toList.map fold, ¬ Nameable c := by
  rw [snakeCase, lowerCase, String.toList_ofList, String.toList_ofList]
  by_cases h : ∀ c ∈ name.toList, Nameable (fold c)
  · refine .inl (lowerFrom_of_nameable (fun c mem => ?_) [])
    rcases mem_of_mem_separate mem with mem | rfl
    · exact h c mem
    · decide
  · obtain ⟨c, there, other⟩ : ∃ c ∈ name.toList, ¬ Nameable (fold c) := by simpa using h
    exact .inr ⟨exists_mem_lowerFrom ⟨c, mem_separate_of_mem there, other⟩ [],
      fold c, List.mem_map_of_mem there, other⟩

/-- The convention gives an identifier exactly for an identifier, with the Kelvin sign taken for the
letter that it is lower-cased to. -/
theorem isIdentifier_snakeCase :
    isIdentifier (snakeCase name).toList = isIdentifier (name.toList.map fold) := by
  rcases snakeCase_cases name with same | ⟨made, given⟩
  · rw [same, isIdentifier_map_separate]
  · rw [isIdentifier_of_not_nameable made, isIdentifier_of_not_nameable given]

theorem isQualified_snakeCase :
    isQualified (snakeCase name).toList = isQualified (name.toList.map fold) := by
  rcases snakeCase_cases name with same | ⟨made, given⟩
  · rw [same, isQualified_map_separate]
  · rw [isQualified_of_not_nameable made, isQualified_of_not_nameable given]

end Naming

end SqlSelect
