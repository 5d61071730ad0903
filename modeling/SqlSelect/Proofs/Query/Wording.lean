import Mathlib.Data.List.Infix
import SqlSelect.Proofs.Literal.Pieces
import SqlSelect.Proofs.Text.Occurrences
import SqlSelect.Selection

/-!
Expressions as texts of words, names and quoted strings with separators between them. A property
that passes on from the parts to the whole holds of an expression if it holds of its names and its
strings. A word without special characters is in a quoted string only if it is in the string.
-/
namespace SqlSelect

/-- Characters that stand between the parts of an expression. -/
def separators : List Char := ['.', '(', ')', ',', ' ']

/-- The words of expressions and projections, and the empty text beside a separator. -/
def expressionWords : List String :=
  ["", "*", "||", "AS", "LOWER", "UPPER", "COUNT", "CONCAT", "TO_CHAR", "DATE_FORMAT",
    "FROM"]

namespace Expr

mutual

/-- The names in an expression, and the texts in it that are taken as they are. -/
def names : Expr → List String
  | raw text => [text]
  | column qualifier name => [qualifier, name]
  | all qualifier => [qualifier]
  | literal _ => []
  | lower argument => argument.names
  | upper argument => argument.names
  | count argument => argument.names
  | formatDate _ argument _ => argument.names
  | concat _ parts => allNames parts

def allNames : List Expr → List String
  | [] => []
  | e :: es => e.names ++ allNames es

end

@[simp] theorem allNames_eq_flatMap (es : List Expr) : allNames es = es.flatMap names := by
  induction es with
  | nil => rfl
  | cons e es ih => simp [allNames, ih]

end Expr

/-- A property that the words of expressions have, and that passes on to texts with a separator
between them. -/
structure Composable (P : List Char → Prop) : Prop where
  word : ∀ text ∈ expressionWords, P text.toList
  glue : ∀ c ∈ separators, ∀ {a b : List Char}, P a → P b → P (a ++ c :: b)

namespace Composable

variable {P : List Char → Prop} (h : Composable P)
include h

private theorem call (word : String) (known : word ∈ expressionWords) {argument : List Char}
    (inside : P argument) : P (word.toList ++ '(' :: (argument ++ [')'])) :=
  h.glue _ (by decide) (h.word word known) (h.glue ')' (by decide) inside (h.word "" (by decide)))

/-- Items of a list that are written with a comma and a blank, or with two bars, between them. -/
private theorem joined {separator : List Char}
    (between : ∀ {a b : List Char}, P a → P b → P (a ++ (separator ++ b)))
    {items : List (List Char)} (each : ∀ item ∈ items, P item) :
    P (separator.intercalate items) := by
  match items with
  | [] => simpa using h.word "" (by decide)
  | [item] => simpa using each
  | first :: second :: others =>
    obtain ⟨head, tail⟩ := List.forall_mem_cons.1 each
    rw [List.intercalate_cons_cons, List.append_assoc]
    exact between head (joined between tail)

theorem comma {a b : List Char} (left : P a) (right : P b) : P (a ++ (", ".toList ++ b)) := by
  have behind := h.glue ' ' (by decide) (h.word "" (by decide)) right
  simpa using h.glue ',' (by decide) left behind

private theorem separator (database : Database) {a b : List Char} (left : P a) (right : P b) :
    P (a ++ (database.concatSeparator.toList ++ b)) := by
  cases database with
  | postgresql =>
    have bars := h.glue ' ' (by decide) (h.word "||" (by decide)) right
    simpa [Database.concatSeparator] using h.glue ' ' (by decide) left bars
  | mysql => exact h.comma left right

/-- The text of an expression has a property if its names and its strings do. -/
theorem text {e : Expr} (names : ∀ name ∈ e.names, P name.toList)
    (strings : ∀ s ∈ e.strings, ∀ d : Database, P (d.quote s).toList) : P e.text.toList := by
  induction e with
  | raw text => exact names text List.mem_cons_self
  | column qualifier name =>
    simpa [Expr.text] using h.glue '.' (by decide) (names qualifier List.mem_cons_self)
      (names name (List.mem_cons_of_mem _ List.mem_cons_self))
  | all qualifier =>
    simpa [Expr.text] using h.glue '.' (by decide) (names qualifier List.mem_cons_self)
      (h.word "*" (by decide))
  | literal content => exact strings _ List.mem_cons_self content.database
  | lower argument ih => simpa [Expr.text] using h.call "LOWER" (by decide) (ih names strings)
  | upper argument ih => simpa [Expr.text] using h.call "UPPER" (by decide) (ih names strings)
  | count argument ih => simpa [Expr.text] using h.call "COUNT" (by decide) (ih names strings)
  | formatDate database argument pattern ih =>
    have inside := ih names fun s mem => strings s (List.mem_append_left _ mem)
    have quoted := strings pattern (by simp [Expr.strings]) database
    have known : database.dateFunction ∈ expressionWords := by cases database <;> decide
    simpa [Expr.text, Database.formatDate] using h.call _ known (h.comma inside quoted)
  | concat database parts ih =>
    have each : ∀ item ∈ parts.map fun e => e.text.toList, P item := by
      refine List.forall_mem_map.2 fun e mem => ih e mem (fun name inside => ?_) fun s inside => ?_
      · exact names name (by simpa [Expr.names] using ⟨e, mem, inside⟩)
      · exact strings s (by simpa [Expr.strings] using ⟨e, mem, inside⟩)
    have inside := h.joined (h.separator database) each
    simpa [Expr.text, String.toList_intercalate, Function.comp_def] using
      h.call "CONCAT" (by decide) inside

theorem list {items : List (List Char)} (each : ∀ item ∈ items, P item) :
    P (", ".toList.intercalate items) := h.joined h.comma each

theorem listText {columns : List Column}
    (names : ∀ c ∈ columns, ∀ name ∈ c.expr.names, P name.toList)
    (strings : ∀ c ∈ columns, ∀ s ∈ c.expr.strings, ∀ d : Database, P (d.quote s).toList) :
    P (Column.listText columns).toList := by
  rw [Column.listText, String.toList_intercalate, List.map_map]
  exact h.list (List.forall_mem_map.2 fun c mem => h.text (names c mem) (strings c mem))

end Composable

theorem composable_not_mem {c : Char} (separates : c ∉ separators)
    (lacks : ∀ text ∈ expressionWords, c ∉ text.toList) : Composable (c ∉ ·) := by
  refine ⟨lacks, fun x known a b left right => ?_⟩
  have other : c ≠ x := fun same => separates (same ▸ known)
  simp [left, right, other]

section Quoting

variable {word : List Char} (plain : quoteMark ∉ word) (unescaped : '\\' ∉ word) (d : Database)

/-- A character is written as it is, or behind another one, and both are special. -/
theorem Database.escapeChar_cases (c : Char) : d.escapeChar c = [c] ∨
    ∃ x ∈ [quoteMark, '\\'], c ∈ [quoteMark, '\\'] ∧ d.escapeChar c = [x, c] := by
  cases d with
  | postgresql =>
    by_cases quote : c = quoteMark
    · exact .inr ⟨quoteMark, by simp, by simp [quote], by simp [Database.escapeChar, quote]⟩
    · exact .inl (by simp [Database.escapeChar, quote])
  | mysql =>
    by_cases special : c = '\\' ∨ c = quoteMark
    · exact .inr ⟨'\\', by simp, by simpa [or_comm] using special,
        by simp [Database.escapeChar, special]⟩
    · exact .inl (by simp [Database.escapeChar, special])

include plain unescaped

private theorem not_mem_word {c : Char} (special : c ∈ [quoteMark, '\\']) : c ∉ word := by
  simp only [List.mem_cons, List.not_mem_nil, or_false] at special
  rcases special with rfl | rfl
  · exact plain
  · exact unescaped

private theorem prefix_of_prefix_escaped (content : List Char)
    (h : word <+: content.flatMap d.escapeChar) : word <+: content := by
  induction content generalizing word with
  | nil => exact h
  | cons c content ih =>
    cases word with
    | nil => exact List.nil_prefix
    | cons x word =>
      have first : x ∉ [quoteMark, '\\'] := fun special =>
        not_mem_word plain unescaped special List.mem_cons_self
      rw [List.flatMap_cons] at h
      rcases d.escapeChar_cases c with same | ⟨y, special, -, same⟩
      · rw [same] at h
        obtain ⟨rfl, rest⟩ := List.cons_prefix_cons.1 h
        simp only [List.mem_cons, not_or] at plain unescaped
        exact List.cons_prefix_cons.2 ⟨rfl, ih plain.2 unescaped.2 rest⟩
      · rw [same] at h
        obtain ⟨rfl, -⟩ := List.cons_prefix_cons.1 h
        exact absurd special first

/-- A word without special characters is in a quoted string only if it is in the string. -/
theorem infix_of_infix_quote {content : String} (h : word <:+: (d.quote content).toList) :
    word <:+: content.toList := by
  have inside : word <:+: content.toList.flatMap d.escapeChar := by
    simp only [Database.quote, String.toList_ofList, Database.quoteChars] at h
    have opened := (Text.infix_cons_of_not_mem plain).1 h
    rcases (Text.infix_append_cons plain).1 opened with inside | closed
    · exact inside
    · exact (List.infix_nil.1 closed) ▸ List.nil_infix
  generalize content.toList = chars at inside
  induction chars with
  | nil => exact inside
  | cons c chars ih =>
    rw [List.flatMap_cons] at inside
    rcases d.escapeChar_cases c with same | ⟨x, first, second, same⟩
    · rw [same] at inside
      rcases List.infix_cons_iff.1 inside with starts | behind
      · have whole : word <+: (c :: chars).flatMap d.escapeChar := by
          rwa [List.flatMap_cons, same]
        exact (prefix_of_prefix_escaped plain unescaped d _ whole).isInfix
      · exact List.infix_cons_iff.2 (.inr (ih behind))
    · rw [same] at inside
      have behind := (Text.infix_cons_of_not_mem (not_mem_word plain unescaped first)).1 inside
      have rest := (Text.infix_cons_of_not_mem (not_mem_word plain unescaped second)).1 behind
      exact List.infix_cons_iff.2 (.inr (ih rest))

end Quoting

end SqlSelect
