import SqlSelect.Error

/-! The names that may stand in a statement: identifiers of ASCII letters, digits and
underscores. A table name may be qualified by one more identifier. -/
namespace SqlSelect

namespace Identifier

def isStart (c : Char) : Bool := c.isAlpha || c == '_'

def isPart (c : Char) : Bool := c.isAlphanum || c == '_'

def isIdentifier : List Char → Bool
  | [] => false
  | c :: rest => isStart c && rest.all isPart

/-- One identifier, or two with a single dot between them. -/
def isQualified (name : List Char) : Bool :=
  match name.dropWhile (· != '.') with
  | [] => isIdentifier name
  | _ :: rest => isIdentifier (name.takeWhile (· != '.')) && isIdentifier rest

theorem isPart_of_isStart {c : Char} (h : isStart c = true) : isPart c = true := by
  rcases Bool.or_eq_true_iff.1 h with alpha | underscore
  · simp [isPart, Char.isAlphanum, alpha]
  · simp [isPart, underscore]

theorem isPart_of_mem {name : List Char} (h : isIdentifier name = true) {c : Char}
    (mem : c ∈ name) : isPart c = true := by
  match name, h with
  | first :: rest, h =>
    obtain ⟨start, parts⟩ := Bool.and_eq_true_iff.1 h
    rcases List.mem_cons.1 mem with rfl | mem
    · exact isPart_of_isStart start
    · exact List.all_eq_true.1 parts c mem

/-- The characters of a qualified name. -/
theorem isPart_or_dot_of_mem {name : List Char} (h : isQualified name = true) {c : Char}
    (mem : c ∈ name) : isPart c = true ∨ c = '.' := by
  unfold isQualified at h
  split at h
  · exact .inl (isPart_of_mem h mem)
  · next dot rest split =>
    obtain ⟨first, second⟩ := Bool.and_eq_true_iff.1 h
    rw [← List.takeWhile_append_dropWhile (p := (· != '.')) (l := name), split] at mem
    rcases List.mem_append.1 mem with before | behind
    · exact .inl (isPart_of_mem first before)
    · rcases List.mem_cons.1 behind with rfl | behind
      · have := List.head?_dropWhile_not (· != '.') name
        exact .inr (by simpa [split] using this)
      · exact .inl (isPart_of_mem second behind)

end Identifier

open Identifier

def checkTableName (name : String) : Except QueryError Unit :=
  if name = "" then .error (.nameMissing .table)
  else if isQualified name.toList then .ok ()
  else .error (.nameMalformed .table name)

def checkColumnName (name : String) : Except QueryError Unit :=
  if name = "" then .error (.nameMissing .column)
  else if isIdentifier name.toList then .ok ()
  else .error (.nameMalformed .column name)

def checkAlias (name : String) : Except QueryError Unit :=
  if isIdentifier name.toList then .ok () else .error (.aliasMalformed name)

/-- Row counts are the whole numbers from zero on. -/
def checkRowCount (clause : RowClause) (count : Double) : Except QueryError Unit :=
  if count.isInteger && !count.lessThan .zero then .ok ()
  else .error (.rowCountMalformed clause count)

@[simp] theorem checkAlias_eq_ok {name : String} :
    checkAlias name = .ok () ↔ isIdentifier name.toList = true := by
  simp [checkAlias]

@[simp] theorem checkRowCount_eq_ok {clause : RowClause} {count : Double} :
    checkRowCount clause count = .ok () ↔
      count.isInteger = true ∧ count.lessThan .zero = false := by
  simp [checkRowCount]

end SqlSelect
