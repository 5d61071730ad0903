import SqlSelect.Proofs.Condition.Reader
import SqlSelect.Proofs.Condition.Tokens
import SqlSelect.Proofs.Query.Criteria

/-!
Conditions keep their meaning as text. What the builder writes for a tree of criteria is read by
the grammar of conditions as the same tree: a group as parentheses around its members, with the
literals that its values are formatted as.
-/
namespace SqlSelect

open Condition

def Connective.keyword : Connective → Keyword
  | and => .and
  | or => .or

/-- The tokens of a text that does not end within a literal. -/
def Database.conditionTokens (d : Database) (text : String) : Option (List Token) :=
  (d.scan text.toList).map (lex d)

/-- Reads the whole text as one condition. -/
def Database.readCondition (d : Database) (text : String) : Option (List (List Operand)) :=
  (d.conditionTokens text).bind Condition.read

/-- A column of a root, with an identifier as its alias and as its name. -/
def Column.IsPlain (c : Column) : Prop :=
  ∃ qualifier name, c.expr = .column qualifier name ∧
    Identifier.isIdentifier qualifier.toList = true ∧ Identifier.isIdentifier name.toList = true

/-- Roots give such columns, unless a name is no identifier. -/
theorem Column.isPlain_of_column {r : TableRoot} {field : String} {name? : Option String}
    {names : Resolvers} {c : Column} (given : ((r.column field name?).run names).result = .ok c)
    (named : c.expr.Named) : c.IsPlain := by
  obtain ⟨e, there, given⟩ := Action.run_bind_eq_ok given
  obtain ⟨qualifier, name, rfl⟩ := columnExpr_ok there
  rw [Action.run_lift] at given
  have same := expr_ofExprAs given
  rw [same] at named
  exact ⟨qualifier, name, same, named⟩

namespace Criterion

/-- How the grammar puts members together. With a single member the connective is not seen. -/
def grouped : Connective → List Operand → Operand
  | .and, members => .grouped [members]
  | .or, members => .grouped (members.map ([·]))

mutual

/-- The tree of a criterion in the grammar of conditions. -/
def operand (d : Database) : Criterion → Except QueryError Operand
  | compare c comparison v =>
    (Literal.ofValue d v).map fun right => .test (.compare c.text comparison right)
  | among c negated values =>
    (Literal.ofValues d values).map fun list => .test (.among c.text negated list)
  | like c negated mode v =>
    (Literal.ofPattern d mode v).map fun pattern => .test (.like c.text negated pattern)
  | between c low high => do
    let low ← Literal.ofValue d low
    let high ← Literal.ofValue d high
    return .test (.between c.text low high)
  | isNull c negated => .ok (.test (.isNull c.text negated))
  | group connective members => (allOperands d members).map (grouped connective)

def allOperands (d : Database) : List Criterion → Except QueryError (List Operand)
  | [] => .ok []
  | c :: cs => do return (← c.operand d) :: (← allOperands d cs)

end

mutual

/-- Every list has a member, and every date names an instant. -/
def Valid : Criterion → Prop
  | compare _ _ v => v ≠ .date none
  | among _ _ values => values ≠ [] ∧ ∀ v ∈ values, v ≠ .date none
  | like _ _ _ v => v ≠ .date none
  | between _ low high => low ≠ .date none ∧ high ≠ .date none
  | isNull _ _ => True
  | group _ members => members ≠ [] ∧ AllValid members

def AllValid : List Criterion → Prop
  | [] => True
  | c :: cs => c.Valid ∧ AllValid cs

end

@[simp] theorem allValid_iff {cs : List Criterion} : AllValid cs ↔ ∀ c ∈ cs, c.Valid := by
  induction cs with
  | nil => simp [AllValid]
  | cons c cs ih => simp [AllValid, ih]

variable {d : Database}

theorem valueText_of_ne {v : Value} (h : v ≠ .date none) : ∃ text, d.valueText v = .ok text := by
  cases v with
  | date instant? =>
    cases instant? with
    | none => exact absurd rfl h
    | some t => exact ⟨_, rfl⟩
  | text | boolean | number | integer => exact ⟨_, rfl⟩

theorem make_of_valid {c : Criterion} (h : c.Valid) : ∃ p, c.make d = .ok p := by
  induction c with
  | compare c comparison v =>
    obtain ⟨text, there⟩ := valueText_of_ne (d := d) h
    exact ⟨_, by rw [make, Predicate.ofComparison, Literal.ofValue, there]; rfl⟩
  | among c negated values =>
    obtain ⟨some, dated⟩ := h
    obtain ⟨texts, there⟩ := exists_mapM_eq_ok fun v mem => valueText_of_ne (d := d) (dated v mem)
    exact ⟨_, by rw [make, Predicate.ofValues, if_neg some, ofValues_eq, there]; rfl⟩
  | like c negated mode v =>
    obtain ⟨text, there⟩ := valueText_of_ne (d := d) h
    exact ⟨_, by rw [make, Predicate.ofPattern, Literal.ofPattern, there]; rfl⟩
  | between c low high =>
    obtain ⟨first, there⟩ := valueText_of_ne (d := d) h.1
    obtain ⟨last, behind⟩ := valueText_of_ne (d := d) h.2
    exact ⟨_, by rw [make, Predicate.ofRange, Literal.ofValue, Literal.ofValue, there, behind]; rfl⟩
  | isNull c negated => exact ⟨_, rfl⟩
  | group connective members ih =>
    obtain ⟨some, valid⟩ := h
    have each := allValid_iff.1 valid
    obtain ⟨ps, there⟩ := exists_mapM_eq_ok fun c mem => ih c mem (each c mem)
    have nonempty : ps ≠ [] := by
      rintro rfl
      exact some (List.forall₂_nil_right_iff.1 (mapM_eq_ok_iff.1 there))
    obtain ⟨p, rest, rfl⟩ := List.exists_cons_of_ne_nil nonempty
    exact ⟨_, by rw [make, makeAll_eq_mapM, there]; rfl⟩

section Spelling

/-! The words of predicates. -/

theorem spells_blank : Spells d " " [] := by
  cases d <;> exact ⟨by decide, by decide +kernel⟩

theorem spells_opening : Spells d " (" [.opening] := by
  cases d <;> exact ⟨by decide, by decide +kernel⟩

theorem spells_closing : Spells d ") " [.closing] := by
  cases d <;> exact ⟨by decide, by decide +kernel⟩

theorem spells_comma : Spells d "," [.comma] := by
  cases d <;> exact ⟨by decide, by decide +kernel⟩

theorem spells_comparison (comparison : Comparison) :
    Spells d (" " ++ comparison.symbol ++ " ") [.comparison comparison] := by
  cases d <;> cases comparison <;> exact ⟨by decide, by decide +kernel⟩

theorem spells_among (negated : Bool) :
    Spells d (if negated then " NOT IN (" else " IN (")
      (negation negated ++ [.keyword .among, .opening]) := by
  cases d <;> cases negated <;> exact ⟨by decide, by decide +kernel⟩

theorem spells_like (negated : Bool) :
    Spells d (if negated then " NOT LIKE " else " LIKE ")
      (negation negated ++ [.keyword .like]) := by
  cases d <;> cases negated <;> exact ⟨by decide, by decide +kernel⟩

theorem spells_between : Spells d " BETWEEN " [.keyword .between] := by
  cases d <;> exact ⟨by decide, by decide +kernel⟩

theorem spells_isNull (negated : Bool) :
    Spells d (if negated then " IS NOT NULL " else " IS NULL ")
      (.keyword .is :: (negation negated ++ [.keyword .null])) := by
  cases d <;> cases negated <;> exact ⟨by decide, by decide +kernel⟩

theorem spells_separator (connective : Connective) :
    Spells d connective.separator [.keyword connective.keyword] := by
  cases d <;> cases connective <;> exact ⟨by decide, by decide +kernel⟩

end Spelling

section Leaves

variable {c : Column} (plain : c.IsPlain)
include plain

theorem regular_of_isPlain : c.expr.Regular d := by
  obtain ⟨qualifier, name, same, hqualifier, hname⟩ := plain
  rw [same]
  exact ⟨hqualifier, hname⟩

theorem lex_column : lex d c.expr.pieces = [.name c.text] := by
  obtain ⟨qualifier, name, same, hqualifier, hname⟩ := plain
  rw [Column.text, same]
  exact lex_name d hqualifier hname

/-- A test is its column and the words behind it, with what follows these. -/
theorem lex_test {text : String} {tokens : List Token} (h : Spells d text tokens)
    (rest : List Piece) :
    lex d (words " " ++ (c.expr.pieces ++ (words text ++ rest))) =
      .name c.text :: (tokens ++ lex d rest) := by
  rw [spells_blank.append, h.fence, lex_column plain]
  rfl

end Leaves

theorem lex_last (text : String) : lex d (Literal.pieces ⟨d, text⟩ ++ words " ") =
    [.literal ⟨d, text⟩] := by
  rw [spells_blank.close, List.append_nil]
  exact lex_literal ⟨d, text⟩

theorem lex_values (texts : List String) :
    lex d ((words ",").intercalate ((texts.map (Literal.mk d)).map Literal.pieces)) =
      joined .comma ((texts.map (Literal.mk d)).map ([.literal ·])) := by
  rw [spells_comma.intercalate, List.map_map, List.map_map, List.map_map]
  exact congrArg _ (List.map_congr_left fun text _ => lex_literal ⟨d, text⟩)

theorem grouped_tokens (connective : Connective) (os : List Operand) :
    (grouped connective os).tokens =
      .opening :: (joined (.keyword connective.keyword) (os.map Operand.tokens) ++ [.closing]) := by
  cases connective with
  | and => simp [grouped, Operand.tokens, joined, conjunction, Connective.keyword]
  | or =>
    simp [grouped, Operand.tokens, Connective.keyword, Function.comp_def, conjunction_singleton]

theorem grouped_proper (connective : Connective) {os : List Operand} (some : os ≠ [])
    (members : ∀ o ∈ os, o.Proper) : (grouped connective os).Proper := by
  cases connective with
  | and =>
    apply Operand.Proper.grouped
    · simp
    · simpa using some
    · simpa using members
  | or =>
    apply Operand.Proper.grouped
    · simpa using some
    · simp
    · simpa using members

/-- What holds of all members, for their lists. -/
theorem allOperands_of_make {cs : List Criterion} {ps : List Predicate}
    (made : List.Forall₂ (fun c p => c.make d = .ok p) cs ps)
    (each : ∀ c ∈ cs, ∀ {p : Predicate}, c.make d = .ok p →
      ∃ o, c.operand d = .ok o ∧ o.Proper ∧ lex d p.pieces = o.tokens) :
    ∃ os, allOperands d cs = .ok os ∧
      (ps.map fun p => lex d p.pieces) = os.map Operand.tokens ∧ ∀ o ∈ os, o.Proper := by
  induction made with
  | nil => exact ⟨[], rfl, rfl, by simp⟩
  | cons first _ ih =>
    obtain ⟨eachFirst, eachOther⟩ := List.forall_mem_cons.1 each
    obtain ⟨o, given, proper, same⟩ := eachFirst first
    obtain ⟨os, others, sames, propers⟩ := ih eachOther
    refine ⟨o :: os, ?_, ?_, List.forall_mem_cons.2 ⟨proper, propers⟩⟩
    · rw [allOperands, given, others]
      rfl
    · rw [List.map_cons, List.map_cons, same, sames]

/-- The text of what is made has the tokens of the tree that the grammar gives it. -/
theorem operand_of_make {c : Criterion} {p : Predicate} (h : c.make d = .ok p)
    (plain : ∀ column ∈ c.columns, column.IsPlain) :
    ∃ o, c.operand d = .ok o ∧ o.Proper ∧ lex d p.pieces = o.tokens := by
  induction c generalizing p with
  | compare c comparison v =>
    obtain ⟨text, given, rfl⟩ := make_ok h
    have named : c.IsPlain := plain c List.mem_cons_self
    refine ⟨.test (.compare c.text comparison ⟨d, text⟩), ?_, .test trivial, ?_⟩
    · rw [operand, Literal.ofValue, given]
      rfl
    · rw [Predicate.pieces, lex_test named (spells_comparison comparison), lex_last]
      rfl
  | among c negated values =>
    obtain ⟨some, texts, given, rfl⟩ := make_ok h
    have named : c.IsPlain := plain c List.mem_cons_self
    have proper : (Test.among c.text negated (texts.map (Literal.mk d))).Proper := by
      intro none
      obtain rfl := List.map_eq_nil_iff.1 none
      exact some (List.forall₂_nil_right_iff.1 (mapM_eq_ok_iff.1 given))
    refine ⟨.test (.among c.text negated (texts.map (Literal.mk d))), ?_, .test proper, ?_⟩
    · rw [operand, ofValues_eq, given]
      rfl
    · rw [Predicate.pieces, lex_test named (spells_among negated), spells_closing.close, lex_values]
      simp [Operand.tokens, Test.tokens]
  | like c negated mode v =>
    obtain ⟨text, given, rfl⟩ := make_ok h
    have named : c.IsPlain := plain c List.mem_cons_self
    refine ⟨.test (.like c.text negated ⟨d, mode.pattern text⟩), ?_, .test trivial, ?_⟩
    · rw [operand, Literal.ofPattern, given]
      rfl
    · rw [Predicate.pieces, lex_test named (spells_like negated), lex_last]
      simp [Operand.tokens, Test.tokens]
  | between c low high =>
    obtain ⟨first, last, lower, upper, rfl⟩ := make_ok h
    have named : c.IsPlain := plain c List.mem_cons_self
    -- the `and` of the range is spelled like the one between the members of a group
    have both : Spells d " and " [.keyword .and] := spells_separator .and
    refine ⟨.test (.between c.text ⟨d, first⟩ ⟨d, last⟩), ?_, .test trivial, ?_⟩
    · rw [operand, Literal.ofValue, Literal.ofValue, lower, upper]
      rfl
    · rw [Predicate.pieces, lex_test named spells_between, both.fence, lex_literal ⟨d, first⟩,
        lex_last]
      rfl
  | isNull c negated =>
    have same : p = .isNull c.expr negated := make_ok h
    have named : c.IsPlain := plain c List.mem_cons_self
    refine ⟨.test (.isNull c.text negated), rfl, .test trivial, ?_⟩
    rw [same, Predicate.pieces, (spells_isNull negated).close, lex_column named]
    rfl
  | group connective members ih =>
    obtain ⟨some, ps, made, rfl⟩ := make_ok h
    have named : ∀ c ∈ members, ∀ column ∈ c.columns, column.IsPlain := by
      intro c mem column inside
      exact plain column (columns_of_mem mem inside)
    obtain ⟨os, given, same, proper⟩ :=
      allOperands_of_make made fun c mem _ given => ih c mem given (named c mem)
    have nonempty : os ≠ [] := by
      rintro rfl
      have none : ps = [] := by simpa using same
      exact some (List.length_eq_zero_iff.1 (made.length_eq.trans (by simp [none])))
    refine ⟨grouped connective os, ?_, grouped_proper connective nonempty proper, ?_⟩
    · rw [operand, given]
      rfl
    · rw [Predicate.pieces, Predicate.allPieces_eq_map, spells_opening.append,
        spells_closing.close, (spells_separator connective).intercalate, List.map_map,
        Function.comp_def, same, grouped_tokens]
      rfl

end Criterion

end SqlSelect
