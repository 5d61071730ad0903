import SqlSelect.Diagnostic
import SqlSelect.Proofs.Entity.FieldOrder
import SqlSelect.Proofs.Resolver.Identifiers

/-!
What a definition of an entity may say, as a grammar of names. A definition is accepted exactly if
all its names are of the grammar, and then the entity holds what the definition says. Otherwise it
is refused for the first name that is not, with the columns read in the order of the fields.
-/
namespace SqlSelect

theorem except_bind_eq_error {α β : Type} {x : Except QueryError α} {f : α → Except QueryError β}
    {e : QueryError} : x >>= f = .error e ↔ x = .error e ∨ ∃ a, x = .ok a ∧ f a = .error e := by
  cases x <;> simp [bind, Except.bind]

namespace Identifier

def IsLetter (c : Char) : Prop := ('A' ≤ c ∧ c ≤ 'Z') ∨ ('a' ≤ c ∧ c ≤ 'z') ∨ c = '_'

def IsDigit (c : Char) : Prop := '0' ≤ c ∧ c ≤ '9'

/-- A letter, and then letters and digits to the end. -/
inductive Word : List Char → Prop
  | intro {first : Char} {rest : List Char} (start : IsLetter first)
      (others : ∀ c ∈ rest, IsLetter c ∨ IsDigit c) : Word (first :: rest)

/-- One word, or two with a single dot between them. -/
inductive Path : List Char → Prop
  | plain {name : List Char} (word : Word name) : Path name
  | qualified {schema table : List Char} (first : Word schema) (second : Word table) :
      Path (schema ++ '.' :: table)

theorem isStart_iff {c : Char} : isStart c = true ↔ IsLetter c := by
  simp only [isStart, IsLetter, Char.isAlpha, Char.isUpper, Char.isLower, Bool.or_eq_true,
    Bool.and_eq_true, decide_eq_true_eq, beq_iff_eq, or_assoc]
  rfl

theorem isPart_iff {c : Char} : isPart c = true ↔ IsLetter c ∨ IsDigit c := by
  rw [← isStart_iff]
  simp only [isPart, isStart, IsDigit, Char.isAlphanum, Char.isDigit, Bool.or_eq_true,
    Bool.and_eq_true, decide_eq_true_eq, beq_iff_eq, or_right_comm]
  rfl

theorem isIdentifier_iff_word {name : List Char} : isIdentifier name = true ↔ Word name := by
  constructor
  · intro named
    match name, named with
    | first :: rest, named =>
      obtain ⟨start, others⟩ := Bool.and_eq_true_iff.1 named
      exact ⟨isStart_iff.1 start, fun c mem => isPart_iff.1 (List.all_eq_true.1 others c mem)⟩
  · rintro ⟨start, others⟩
    refine Bool.and_eq_true_iff.2 ⟨isStart_iff.2 start, List.all_eq_true.2 fun c mem => ?_⟩
    exact isPart_iff.2 (others c mem)

theorem Word.no_dot {name : List Char} (word : Word name) : ∀ c ∈ name, (c != '.') = true := by
  intro c mem
  rw [bne_iff_ne]
  rintro rfl
  exact absurd (isPart_of_mem (isIdentifier_iff_word.2 word) mem) (by decide)

theorem isQualified_iff_path {name : List Char} : isQualified name = true ↔ Path name := by
  constructor
  · intro named
    unfold isQualified at named
    split at named
    · exact .plain (isIdentifier_iff_word.1 named)
    · next dot rest split =>
      obtain ⟨first, second⟩ := Bool.and_eq_true_iff.1 named
      have isDot : dot = '.' := by simpa [split] using List.head?_dropWhile_not (· != '.') name
      rw [← List.takeWhile_append_dropWhile (p := (· != '.')) (l := name), split, isDot]
      exact .qualified (isIdentifier_iff_word.1 first) (isIdentifier_iff_word.1 second)
  · intro path
    unfold isQualified
    cases path with
    | plain word =>
      rw [List.dropWhile_eq_nil_iff.2 word.no_dot]
      exact isIdentifier_iff_word.2 word
    | qualified first second =>
      rw [List.dropWhile_append_of_pos first.no_dot, List.takeWhile_append_of_pos first.no_dot]
      simp [isIdentifier_iff_word.2 first, isIdentifier_iff_word.2 second]

end Identifier

open Identifier

namespace Entity

/-- A name that is left out or empty, or of the shape asked for. -/
def Fits (shape : List Char → Prop) (declared? : Option String) : Prop :=
  ∀ name ∈ declared?, name = "" ∨ shape name.toList

def IsNamed (name : String) : Prop := ∃ c ∈ name.toList, Text.blankChar c = false

/-- The grammar of definitions. -/
structure Conforms (name : String) (table? : Option String) (fields : List Field) : Prop where
  named : IsNamed name
  table : Fits Path table?
  columns : ∀ f ∈ fields, Fits Word f.column?

/-- The first name that is not of the grammar, by the error that reports it. -/
inductive FirstViolation (name : String) (table? : Option String) (fields : List Field) :
    QueryError → Prop
  | ofName (blank : ¬ IsNamed name) : FirstViolation name table? fields .entityNameBlank
  | ofTable {table : String} (named : IsNamed name) (given : table? = some table)
      (unfit : ¬ Fits Path table?) :
      FirstViolation name table? fields (.nameMalformed .table table)
  | ofColumn {before behind : List Field} {f : Field} {column : String} (named : IsNamed name)
      (fitting : Fits Path table?) (split : fields = before ++ f :: behind)
      (earlier : ∀ g ∈ before, Fits Word g.column?) (given : f.column? = some column)
      (unfit : ¬ Fits Word f.column?) :
      FirstViolation name table? fields (.nameMalformed .column column)

theorem isBlank_eq_false_iff {name : String} : Text.isBlank name = false ↔ IsNamed name := by
  simp [Text.isBlank, IsNamed]

/-- A check that accepts the names of one shape, and else reports the name. -/
structure Checks (check : String → Except QueryError Unit) (shape : List Char → Prop)
    (role : NameRole) : Prop where
  ok : ∀ {name : String}, name ≠ "" → (check name = .ok () ↔ shape name.toList)
  error : ∀ {name : String} {e : QueryError}, name ≠ "" → check name = .error e →
    e = .nameMalformed role name

theorem checks_table : Checks checkTableName Path .table where
  ok nonempty := (checkTableName_eq_ok nonempty).trans isQualified_iff_path
  error nonempty refused := by
    rw [checkTableName, if_neg nonempty] at refused
    split at refused <;> cases refused
    rfl

theorem checks_column : Checks checkColumnName Word .column where
  ok nonempty := (checkColumnName_eq_ok nonempty).trans isIdentifier_iff_word
  error nonempty refused := by
    rw [checkColumnName, if_neg nonempty] at refused
    split at refused <;> cases refused
    rfl

namespace Checks

variable {check : String → Except QueryError Unit} {shape : List Char → Prop} {role : NameRole}
  (checks : Checks check shape role) {declared? : Option String}
include checks

theorem declared_ok : checkDeclared check declared? = .ok () ↔ Fits shape declared? := by
  rw [checkDeclared_eq_ok]
  refine forall₂_congr fun name _ => ?_
  by_cases empty : name = ""
  · simp [empty]
  · simp [empty, checks.ok empty]

theorem declared_error {e : QueryError} : checkDeclared check declared? = .error e ↔
    ∃ name, declared? = some name ∧ ¬ Fits shape declared? ∧ e = .nameMalformed role name := by
  constructor
  · intro refused
    have unfit : ¬ Fits shape declared? := fun fits => by
      rw [checks.declared_ok.2 fits] at refused
      cases refused
    cases declared? with
    | none => cases refused
    | some name =>
      have nonempty : name ≠ "" := fun empty => unfit fun other given =>
        .inl ((Option.some.inj given).symm.trans empty)
      rw [checkDeclared, if_neg nonempty] at refused
      exact ⟨name, rfl, unfit, checks.error nonempty refused⟩
  · rintro ⟨name, rfl, unfit, rfl⟩
    have nonempty : name ≠ "" := fun empty => unfit fun other given =>
      .inl ((Option.some.inj given).symm.trans empty)
    have refused : check name ≠ .ok () := fun passed => unfit fun other given =>
      .inr (Option.some.inj given ▸ (checks.ok nonempty).1 passed)
    cases checked : check name with
    | ok => exact absurd checked refused
    | error e => rw [checkDeclared, if_neg nonempty, checked, checks.error nonempty checked]

end Checks

/-- The columns are checked up to the first that is refused. -/
theorem checkFields_eq_error {fields : List Field} {e : QueryError} :
    checkFields fields = .error e ↔ ∃ before f behind, fields = before ++ f :: behind ∧
      (∀ g ∈ before, checkDeclared checkColumnName g.column? = .ok ()) ∧
      checkDeclared checkColumnName f.column? = .error e := by
  induction fields with
  | nil => simp [checkFields]
  | cons f fields ih =>
    rw [checkFields, except_bind_eq_error, ih]
    constructor
    · rintro (refused | ⟨⟨⟩, passed, before, g, behind, rfl, earlier, refused⟩)
      · exact ⟨[], f, fields, rfl, List.forall_mem_nil _, refused⟩
      · exact ⟨f :: before, g, behind, rfl, List.forall_mem_cons.2 ⟨passed, earlier⟩, refused⟩
    · rintro ⟨before, g, behind, split, earlier, refused⟩
      cases before with
      | nil =>
        cases split
        exact .inl refused
      | cons first before =>
        cases split
        obtain ⟨passed, earlier⟩ := List.forall_mem_cons.1 earlier
        exact .inr ⟨(), passed, before, g, behind, rfl, earlier, refused⟩

section Define

variable {serial : ℕ} {name : String} {table? : Option String} {definitions : List Field}
  {parent? : Option Entity}

theorem define_ok_iff_conforms {e : Entity} :
    define serial name table? definitions parent? = .ok e ↔
      Conforms name table? (Field.ofDefinitions definitions) ∧
      e = extend ⟨serial, name, table?, Field.ofDefinitions definitions⟩ parent? := by
  simp only [define_eq_ok, isBlank_eq_false_iff, checks_table.declared_ok, checkFields_eq_ok,
    checks_column.declared_ok]
  constructor
  · rintro ⟨named, table, columns, same⟩
    exact ⟨⟨named, table, columns⟩, same⟩
  · rintro ⟨⟨named, table, columns⟩, same⟩
    exact ⟨named, table, columns, same⟩

/-- A definition is refused by the first of its checks that does not pass. -/
theorem define_eq_error {e : QueryError} :
    define serial name table? definitions parent? = .error e ↔
      Text.isBlank name = true ∧ e = .entityNameBlank ∨ Text.isBlank name = false ∧
        (checkDeclared checkTableName table? = .error e ∨
          checkDeclared checkTableName table? = .ok () ∧
            checkFields (Field.ofDefinitions definitions) = .error e) := by
  unfold define
  dsimp only
  split
  · next blank =>
    simp only [blank, Bool.true_eq_false, true_and, false_and, or_false]
    exact ⟨fun thrown => (Except.error.inj thrown).symm, fun same => same ▸ rfl⟩
  · next named =>
    have named := Bool.eq_false_iff.2 named
    simp only [named, Bool.false_eq_true, true_and, false_and, false_or, except_bind_eq_error]
    constructor
    · rintro (table | ⟨⟨⟩, table, columns | ⟨_, _, ended⟩⟩)
      · exact .inl table
      · exact .inr ⟨table, columns⟩
      · cases ended
    · rintro (table | ⟨table, columns⟩)
      · exact .inl table
      · exact .inr ⟨(), table, .inl columns⟩

theorem define_error_iff_violates {e : QueryError} :
    define serial name table? definitions parent? = .error e ↔
      FirstViolation name table? (Field.ofDefinitions definitions) e := by
  rw [define_eq_error]
  simp only [checks_table.declared_error, checks_table.declared_ok, checkFields_eq_error,
    checks_column.declared_error, checks_column.declared_ok, isBlank_eq_false_iff]
  constructor
  · rintro (⟨blank, rfl⟩ | ⟨named, ⟨table, given, unfit, rfl⟩ | ⟨fitting, wrong⟩⟩)
    · exact .ofName fun named => by simp [isBlank_eq_false_iff.2 named] at blank
    · exact .ofTable named given unfit
    · obtain ⟨before, f, behind, split, earlier, column, given, unfit, rfl⟩ := wrong
      exact .ofColumn named fitting split earlier given unfit
  · rintro (blank | ⟨named, given, unfit⟩ | ⟨named, fitting, split, earlier, given, unfit⟩)
    · exact .inl ⟨eq_true_of_ne_false fun named => blank (isBlank_eq_false_iff.1 named), rfl⟩
    · exact .inr ⟨named, .inl ⟨_, given, unfit, rfl⟩⟩
    · exact .inr ⟨named, .inr ⟨fitting, _, _, _, split, earlier, _, given, unfit, rfl⟩⟩

end Define

/-- The fields of a definition are arranged in one way. The definition is accepted exactly if its
names are of the grammar, and the entity then holds the name, the table, the fields and the entity
that is extended as they were given. It is refused otherwise, for the first name that is not of the
grammar. Nothing of this depends on the fields of the entity that is extended. -/
theorem define_follows_grammar (serial : ℕ) (name : String) (table? : Option String)
    (definitions : List Field) (parent? : Option Entity) :
    ∃ fields, (∀ others, Field.Arranged definitions others ↔ others = fields) ∧
      ((∃ e, define serial name table? definitions parent? = .ok e) ↔
        Conforms name table? fields) ∧
      (∀ e, define serial name table? definitions parent? = .ok e →
        e.own = ⟨serial, name, table?, fields⟩ ∧ e.parent? = parent?) ∧
      ∀ error, (define serial name table? definitions parent? = .error error ↔
          FirstViolation name table? fields error) ∧
        (FirstViolation name table? fields error → error.diagnostic.kind = .validation) := by
  have arranged := Field.arranged_ofDefinitions definitions
  refine ⟨Field.ofDefinitions definitions, fun others => ?_, ?_, fun e defined => ?_, fun error =>
    ⟨define_error_iff_violates, fun violated => ?_⟩⟩
  · exact ⟨fun also => also.unique arranged, fun same => same ▸ arranged⟩
  · simp [define_ok_iff_conforms]
  · obtain ⟨-, rfl⟩ := define_ok_iff_conforms.1 defined
    exact ⟨own_extend .., parent?_extend ..⟩
  · cases violated <;> rfl

/-- The name of an array index is read first, wherever it was defined. -/
example : define 1 "A" none [⟨"b", some "x.y"⟩, ⟨"10", some "1"⟩] none =
    .error (.nameMalformed .column "1") := by cbv

end Entity

end SqlSelect
