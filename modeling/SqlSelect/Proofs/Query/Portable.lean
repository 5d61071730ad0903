import SqlSelect.Proofs.Builder.Steps
import SqlSelect.Proofs.Query.Criteria
import SqlSelect.Proofs.Query.Pieces

/-!
What every database takes: columns without concatenations and formatted dates, selections of such
columns, and tables and queries over identifiers. Such a query can be read whole, for what it
selects is printed without any string.
-/
namespace SqlSelect

/-- A column that all databases print alike. -/
structure Column.Portable (c : Column) : Prop where
  regular : ∀ d, c.expr.Regular d
  named : ∀ name ∈ c.alias?, Identifier.isIdentifier name.toList = true

/-- What prints for every database holds no string. -/
theorem Expr.quoteMark_not_mem_text {e : Expr} (h : ∀ d, e.Regular d) :
    quoteMark ∉ e.text.toList := by
  have dot : quoteMark ≠ '.' := by decide
  have call (argument : Expr) (plain : quoteMark ∉ argument.text.toList) :
      ∀ opening ∈ ["LOWER(", "UPPER(", "COUNT("],
        quoteMark ∉ (opening ++ argument.text ++ ")").toList := by
    have words : ∀ word ∈ ["LOWER(", "UPPER(", "COUNT(", ")"], quoteMark ∉ word.toList := by decide
    intro opening mem
    have before := words opening (List.mem_append_left [")"] mem)
    simp only [String.toList_append, List.mem_append, not_or]
    exact ⟨⟨before, plain⟩, words ")" (by simp)⟩
  induction e with
  | raw => exact (h .mysql).elim
  | column qualifier name =>
    obtain ⟨before, behind⟩ := h .mysql
    simp [text, quoteMark_not_mem_of_isIdentifier before, quoteMark_not_mem_of_isIdentifier behind,
      dot]
  | all qualifier =>
    have qualified : Identifier.isIdentifier qualifier.toList = true := h .mysql
    have star : quoteMark ≠ '*' := by decide
    simp [text, quoteMark_not_mem_of_isIdentifier qualified, dot, star]
  | literal content => cases (h .postgresql).symm.trans (h .mysql)
  | lower argument ih => exact call argument (ih h) "LOWER(" (by simp)
  | upper argument ih => exact call argument (ih h) "UPPER(" (by simp)
  | count argument ih => exact call argument (ih h) "COUNT(" (by simp)
  | formatDate | concat => cases (h .postgresql).1.symm.trans (h .mysql).1

theorem Column.portable_ofExprAs {e : Expr} {name? : Option String} {c : Column}
    (given : ofExprAs e name? = .ok c) (regular : ∀ d, e.Regular d) : c.Portable :=
  ⟨expr_ofExprAs given ▸ regular, isIdentifier_ofExprAs given⟩

namespace Column.Portable

variable {c : Column}

theorem quoteMark_not_mem_projected (h : c.Portable) : quoteMark ∉ c.projected.toList := by
  have word : quoteMark ∉ " AS ".toList := by decide
  unfold projected
  cases named : c.alias? with
  | none => exact Expr.quoteMark_not_mem_text h.regular
  | some name =>
    have behind := quoteMark_not_mem_of_isIdentifier (h.named name named)
    simp only [String.toList_append, List.mem_append, not_or]
    exact ⟨⟨Expr.quoteMark_not_mem_text h.regular, word⟩, behind⟩

theorem lower (h : c.Portable) : c.lower.Portable := ⟨h.regular, nofun⟩

theorem upper (h : c.Portable) : c.upper.Portable := ⟨h.regular, nofun⟩

end Column.Portable

namespace Selection

private theorem quoteMark_not_mem_intercalate {texts : List String}
    (plain : ∀ text ∈ texts, quoteMark ∉ text.toList) :
    quoteMark ∉ (", ".intercalate texts).toList := by
  have comma : quoteMark ∉ ", ".toList := by decide
  match texts with
  | [] => decide
  | [text] => simpa using plain
  | first :: second :: others =>
    obtain ⟨here, behind⟩ := List.forall_mem_cons.1 plain
    rw [String.intercalate_cons_cons]
    simp only [String.toList_append, List.mem_append, not_or]
    exact ⟨⟨here, comma⟩, quoteMark_not_mem_intercalate behind⟩

/-- Around what is selected there are only words. -/
private theorem quoteMark_not_mem_around {opening closing body : String}
    (words : quoteMark ∉ opening.toList ∧ quoteMark ∉ closing.toList)
    (plain : quoteMark ∉ body.toList) : quoteMark ∉ (opening ++ body ++ closing).toList := by
  simp only [String.toList_append, List.mem_append, not_or]
  exact ⟨⟨words.1, plain⟩, words.2⟩

/-- What a selection holds is portable, and none of it is text taken as it is. -/
def Portable : Selection → Prop
  | raw _ => False
  | all qualifier | countAll qualifier => Identifier.isIdentifier qualifier.toList = true
  | columns list | countColumns list => ∀ c ∈ list, c.Portable

theorem Portable.quoteMark_not_mem_text {s : Selection} (h : s.Portable) :
    quoteMark ∉ s.text.toList := by
  unfold Selection.text
  cases s with
  | raw => exact h.elim
  | all qualifier =>
    refine quoteMark_not_mem_around ⟨?_, by decide⟩ (quoteMark_not_mem_of_isIdentifier h)
    decide
  | columns list =>
    refine quoteMark_not_mem_around ⟨by decide, by decide⟩ (quoteMark_not_mem_intercalate ?_)
    exact List.forall_mem_map.2 fun c mem => (h c mem).quoteMark_not_mem_projected
  | countAll qualifier =>
    exact quoteMark_not_mem_around ⟨by decide, by decide⟩ (quoteMark_not_mem_of_isIdentifier h)
  | countColumns list =>
    refine quoteMark_not_mem_around ⟨by decide, by decide⟩ (quoteMark_not_mem_intercalate ?_)
    exact List.forall_mem_map.2 fun c mem => Expr.quoteMark_not_mem_text (h c mem).regular

end Selection

theorem Text.not_mem_removed {c : Char} (word : String) {text : String} (h : c ∉ text.toList) :
    c ∉ (Text.replaceAll word "" text).toList := by
  have kept (skip : Nat) (passed rest : List Char) :
      Text.replaceFrom word.toList [] skip passed rest ⊆ rest := by
    fun_induction Text.replaceFrom word.toList [] skip passed rest with
    | case1 => exact List.Subset.refl _
    | case2 skip passed c rest ih => exact List.subset_cons_of_subset c ih
    | case3 passed c rest _ ih =>
      rw [Text.expand_nil, List.nil_append]
      exact List.subset_cons_of_subset c ih
    | case4 passed c rest _ ih => exact List.cons_subset_cons c ih
  rw [Text.replaceAll, String.toList_ofList]
  exact fun mem => h (kept 0 [] text.toList mem)

/-- All names are of the shape that names have to be of. -/
structure Entity.Shaped (e : Entity) : Prop where
  table : Identifier.isQualified e.tableName.toList = true
  columns : ∀ field name, e.columnName? field = some name →
    Identifier.isIdentifier name.toList = true

/-- For an entity that extends no other, its own fields decide. -/
theorem Entity.shaped_base {own : Declaration}
    (table : Identifier.isQualified (base own).tableName.toList = true)
    (columns : ∀ f ∈ own.fields,
      Identifier.isIdentifier (declaredOr f.column? (Naming.snakeCase f.name)).toList = true) :
    (base own).Shaped := by
  refine ⟨table, fun field name named => ?_⟩
  obtain ⟨f, found, rfl⟩ := Option.map_eq_some_iff.1 named
  have found : own.fields.find? (·.name = field) = some f := by
    simpa [Entity.field?, Entity.ownField?, Entity.parent?, Entity.own] using found
  obtain rfl : f.name = field := by simpa using List.find?_some found
  exact columns f (List.mem_of_find?_eq_some found)

structure TableRoot.Portable (d : Database) (r : TableRoot) : Prop extends r.Regular d where
  columns : ∀ field name, r.entity.columnName? field = some name →
    Identifier.isIdentifier name.toList = true

theorem Builder.portable_aliasedRoot {e : Entity} (shaped : e.Shaped) (b : Builder) {name : String}
    (named : Identifier.isIdentifier name.toList = true) (d : Database) :
    (b.aliasedRoot e name).Portable d := by
  refine ⟨⟨⟨shaped.table, ?_⟩, nofun⟩, shaped.columns⟩
  rintro _ ⟨⟩
  exact named

structure Query.Portable (d : Database) (q : Query) : Prop extends q.Regular d where
  selection : ∀ s ∈ q.selection?, s.Portable
  plain : q.distinctOn? = none

/-- What is selected stands in front of all strings. -/
theorem Query.Portable.quoteMark_not_mem_selectClause {d : Database} {q : Query}
    (h : q.Portable d) {selected : String} (chosen : q.selectClause = .ok selected) :
    quoteMark ∉ selected.toList := by
  unfold selectClause at chosen
  rw [h.plain] at chosen
  cases given : q.selection? with
  | none =>
    rw [given] at chosen
    cases chosen
  | some s =>
    have plain := (h.selection s given).quoteMark_not_mem_text
    have blank : Text.isBlank ((none.map DistinctOn.text).getD "") = true := by decide
    rw [given] at chosen
    simp only [blank] at chosen
    cases distinct : q.distinct with
    | true =>
      rw [distinct] at chosen
      exact Except.ok.inj chosen ▸ plain
    | false =>
      rw [distinct] at chosen
      exact Except.ok.inj chosen ▸ Text.not_mem_removed _ plain

/-- The whole statement can be read: it is the text in front of the tables, which holds no string,
and the pieces of all that comes behind. -/
theorem Query.Portable.scan_statement {d : Database} {q : Query} (h : q.Portable d)
    {start : TableRoot} {joins : List TableRoot} (begins : start.Portable d)
    (wired : ∀ r ∈ joins, r.Portable d) {selected : String}
    (chosen : q.selectClause = .ok selected) :
    d.scan (selected ++ q.tail start joins).toList =
      some (words selected ++ q.tailPieces start joins) := by
  have regular : ∀ r ∈ joins, r.Regular d := fun r mem => (wired r mem).toRegular
  have separated := separated_tailPieces h.toRegular begins.toShaped regular
  have scanned := scan_write d
    (separated.words_append (h.quoteMark_not_mem_selectClause chosen))
  rwa [write_append, write_words, write_tailPieces h.toRegular regular, ← String.toList_append]
    at scanned

end SqlSelect
