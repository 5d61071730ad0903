import Mathlib
import SqlSelect.Proofs.Query.Criteria
import SqlSelect.Proofs.Query.Pieces

/-!
Lists as they can be read back. A separator can also stand inside of a literal or of a call, so a
list is split only where no literal and no parenthesis is open. Every item that builders make is
whole in this sense: it closes the parentheses it opens, and outside of them it holds no separator.
-/
namespace SqlSelect

/-- How many parentheses are open behind a piece. -/
def Piece.depth (before : Nat) : Piece → Nat
  | plain c => if c = '(' then before + 1 else if c = ')' then before - 1 else before
  | literal _ => before

/-- The items between the separators that stand outside of parentheses. -/
def splitPieces (separator : List Piece) (depth : Nat) : List Piece → List (List Piece)
  | [] => [[]]
  | p :: rest =>
    if depth = 0 ∧ separator <+: p :: rest then
      [] :: splitPieces separator 0 (rest.drop (separator.length - 1))
    else (splitPieces separator (p.depth depth) rest).modifyHead (p :: ·)
termination_by pieces => pieces.length
decreasing_by all_goals simp; try omega

/-- The depth behind the pieces, if they close nothing that is not open and hold the mark inside of
parentheses only. -/
def passage (mark : Char) : Nat → List Piece → Option Nat
  | depth, [] => some depth
  | depth, p :: rest =>
    if depth = 0 ∧ (p = .plain mark ∨ p = .plain ')') then none
    else passage mark (p.depth depth) rest

section Passages

variable {mark : Char}

theorem passage_append {depth between : Nat} {first : List Piece}
    (passed : passage mark depth first = some between) (others : List Piece) :
    passage mark depth (first ++ others) = passage mark between others := by
  fun_induction passage mark depth first with
  | case1 => exact Option.some.inj passed ▸ rfl
  | case2 => cases passed
  | case3 depth p rest outside ih =>
    rw [List.cons_append, passage, if_neg outside]
    exact ih passed

/-- No separator begins within pieces without its mark. -/
theorem splitPieces_append {depth last : Nat} {item : List Piece}
    (passed : passage mark depth item = some last) (tail rest : List Piece) :
    splitPieces (.plain mark :: tail) depth (item ++ rest) =
      (splitPieces (.plain mark :: tail) last rest).modifyHead (item ++ ·) := by
  fun_induction passage mark depth item with
  | case1 =>
    obtain rfl := Option.some.inj passed
    exact (congrFun List.modifyHead_id _).symm
  | case2 => cases passed
  | case3 depth p others outside ih =>
    have goesOn : ¬ (depth = 0 ∧ .plain mark :: tail <+: p :: (others ++ rest)) := by
      rintro ⟨top, begins⟩
      exact outside ⟨top, .inl (List.cons_prefix_cons.1 begins).1.symm⟩
    rw [List.cons_append, splitPieces, if_neg goesOn, ih passed, List.modifyHead_modifyHead]
    rfl

theorem splitPieces_intercalate (tail : List Piece) {items : List (List Piece)}
    (nonempty : items ≠ []) (whole : ∀ item ∈ items, passage mark 0 item = some 0) :
    splitPieces (.plain mark :: tail) 0 ((.plain mark :: tail).intercalate items) = items := by
  induction items with
  | nil => exact absurd rfl nonempty
  | cons item items ih =>
    obtain ⟨first, others⟩ := List.forall_mem_cons.1 whole
    cases items with
    | nil =>
      have alone := splitPieces_append first tail []
      simpa [splitPieces] using alone
    | cons second items =>
      have behind := ih (by simp) others
      rw [List.intercalate_cons_cons, List.append_assoc, splitPieces_append first, List.cons_append,
        splitPieces, if_pos ⟨rfl, by simp⟩, List.length_cons, Nat.add_sub_cancel, List.drop_left,
        behind]
      simp

/-- At every depth from the least on, the pieces can be passed and leave the depth as it was. -/
def Level (mark : Char) (least : Nat) (pieces : List Piece) : Prop :=
  ∀ depth, least ≤ depth → passage mark depth pieces = some depth

namespace Level

variable {least : Nat} {first others : List Piece}

theorem inside (h : Level mark 0 first) : Level mark 1 first := fun depth _ => h depth depth.zero_le

theorem append (hfirst : Level mark least first) (hothers : Level mark least others) :
    Level mark least (first ++ others) := fun depth deep => by
  rw [passage_append (hfirst depth deep), hothers depth deep]

theorem literal (mark : Char) (content : List Char) : Level mark 0 [.literal content] :=
  fun depth _ => by simp [passage, Piece.depth]

/-- A text without parentheses; the mark may stand in it if something is open. -/
theorem words {text : String} (plain : '(' ∉ text.toList ∧ ')' ∉ text.toList ∧
    (least = 0 → mark ∉ text.toList)) : Level mark least (words text) := by
  have each : ∀ c ∈ text.toList, c ≠ '(' ∧ c ≠ ')' ∧ (least = 0 → c ≠ mark) := fun _ mem =>
    ⟨fun same => plain.1 (same ▸ mem), fun same => plain.2.1 (same ▸ mem),
      fun outside same => plain.2.2 outside (same ▸ mem)⟩
  unfold SqlSelect.words
  generalize text.toList = chars at each
  induction chars with
  | nil => exact fun _ _ => rfl
  | cons c chars ih =>
    obtain ⟨⟨opening, closing, apart⟩, others⟩ := List.forall_mem_cons.1 each
    intro depth deep
    have goesOn : ¬ (depth = 0 ∧ (Piece.plain c = .plain mark ∨ Piece.plain c = .plain ')')) := by
      rintro ⟨rfl, same | same⟩
      · exact apart (Nat.le_zero.1 deep) (Piece.plain.inj same)
      · exact closing (Piece.plain.inj same)
    have level : (Piece.plain c).depth depth = depth := by simp [Piece.depth, opening, closing]
    rw [List.map_cons, passage, if_neg goesOn, level]
    exact ih others depth deep

theorem insideWords {text : String} (plain : '(' ∉ text.toList ∧ ')' ∉ text.toList) :
    Level mark 1 (SqlSelect.words text) :=
  words ⟨plain.1, plain.2, nofun⟩

theorem intercalate {items : List (List Piece)} (h : ∀ item ∈ items, Level mark least item)
    {separator : List Piece} (between : Level mark least separator) :
    Level mark least (separator.intercalate items) := by
  match items with
  | [] => exact fun _ _ => rfl
  | [item] => simpa using h
  | first :: second :: others =>
    obtain ⟨hfirst, hothers⟩ := List.forall_mem_cons.1 h
    rw [List.intercalate_cons_cons]
    exact (hfirst.append between).append (intercalate hothers between)

/-- What is put into parentheses is passed one level up. -/
theorem enclosed (opening : mark ≠ '(') (h : Level mark 1 first) :
    Level mark 0 (.plain '(' :: (first ++ [.plain ')'])) := fun depth _ => by
  have closes : passage mark (depth + 1) [.plain ')'] = some depth := by
    simp [passage, Piece.depth]
  have opens : ¬ (depth = 0 ∧ (Piece.plain '(' = .plain mark ∨ Piece.plain '(' = .plain ')')) := by
    simp [Ne.symm opening]
  rw [passage, if_neg opens]
  exact (passage_append (h (depth + 1) (by omega)) _).trans closes

end Level

end Passages

/-- A character that no name, and no column without its name, is written with. -/
def Foreign (c : Char) : Prop := Identifier.isPart c = false ∧ c ≠ '.' ∧ c ≠ '*'

instance (c : Char) : Decidable (Foreign c) := inferInstanceAs (Decidable (_ ∧ _))

namespace Level

variable {mark : Char} (foreign : Foreign mark)
include foreign

theorem ofName {text : String}
    (named : ∀ c ∈ text.toList, Identifier.isPart c = true ∨ c = '.' ∨ c = '*') :
    Level mark 0 (SqlSelect.words text) := by
  have apart : ∀ other, Foreign other → other ∉ text.toList := by
    rintro other ⟨part, dot, star⟩ mem
    rcases named other mem with isPart | same | same
    · simp [part] at isPart
    · exact dot same
    · exact star same
  exact words ⟨apart '(' (by decide), apart ')' (by decide), fun _ => apart mark foreign⟩

theorem call (name : String) (named : name.toList.all Identifier.isPart = true)
    {inner : List Piece} (h : Level mark 1 inner) (opening : mark ≠ '(') :
    Level mark 0 (SqlSelect.words (name ++ "(") ++ (inner ++ SqlSelect.words ")")) := by
  have begins := (ofName foreign (fun c mem => .inl (List.all_eq_true.1 named c mem))).append
    (h.enclosed opening)
  simpa [SqlSelect.words] using begins

theorem pieces {d : Database} {e : Expr} (opening : mark ≠ '(') (h : e.Regular d) :
    Level mark 0 e.pieces := by
  have comma : Level mark 1 (SqlSelect.words ", ") := insideWords (by decide)
  induction e with
  | raw => exact h.elim
  | column qualifier name =>
    refine ofName foreign fun c mem => ?_
    simp only [String.toList_append, List.mem_append] at mem
    rcases mem with (inside | dot) | inside
    · exact .inl (Identifier.isPart_of_mem h.1 inside)
    · exact .inr (.inl (List.mem_singleton.1 dot))
    · exact .inl (Identifier.isPart_of_mem h.2 inside)
  | all qualifier =>
    refine ofName foreign fun c mem => ?_
    rcases List.mem_append.1 (String.toList_append ▸ mem) with inside | star
    · exact .inl (Identifier.isPart_of_mem h inside)
    · exact .inr (by simpa using star)
  | literal content => exact literal mark _
  | lower argument ih => exact call foreign "LOWER" (by decide) (ih h).inside opening
  | upper argument ih => exact call foreign "UPPER" (by decide) (ih h).inside opening
  | count argument ih => exact call foreign "COUNT" (by decide) (ih h).inside opening
  | formatDate database argument pattern ih =>
    have named : database.dateFunction.toList.all Identifier.isPart = true := by
      cases database <;> decide
    have inner := ((ih h.2).inside.append comma).append (literal mark pattern.toList).inside
    have called := call foreign _ named inner opening
    simpa [Expr.pieces, Literal.pieces] using called
  | concat database parts ih =>
    have between : Level mark 1 (SqlSelect.words database.concatSeparator) :=
      insideWords (by cases database <;> decide)
    have inner : Level mark 1
        ((SqlSelect.words database.concatSeparator).intercalate (Expr.allPieces parts)) := by
      refine intercalate ?_ between
      simp only [Expr.allPieces_eq_map]
      exact List.forall_mem_map.2 fun e mem => (ih e mem (Expr.allRegular_iff.1 h.2 e mem)).inside
    exact call foreign "CONCAT" (by decide) inner opening

end Level

namespace Database

/-- Reads a text as a list of items, each as its pieces. -/
def readItems (d : Database) (separator text : String) : Option (List (List Piece)) :=
  (d.scan text.toList).map (splitPieces (words separator) 0)

/-- Reads a text as a list of items, each as its text. -/
def readList (d : Database) (separator text : String) : Option (List String) :=
  (d.readItems separator text).map fun items => items.map fun item => String.ofList (d.write item)

section Reading

variable {α : Type} {items : List α} {pieces : α → List Piece} {text : α → String}
  {separator : String} {d : Database}

theorem readItems_intercalate (mark : Char) (head : separator.toList.head? = some mark)
    (plain : quoteMark ∉ separator.toList) (nonempty : items ≠ [])
    (written : ∀ x ∈ items, d.write (pieces x) = (text x).toList)
    (separated : ∀ x ∈ items, Separated (pieces x))
    (whole : ∀ x ∈ items, Level mark 0 (pieces x)) :
    d.readItems separator (separator.intercalate (items.map text)) = some (items.map pieces) := by
  obtain ⟨tail, begins⟩ := List.head?_eq_some_iff.1 head
  have fence : Fence separator := ⟨by simp [begins], plain⟩
  have marked : words separator = .plain mark :: tail.map .plain := by simp [words, begins]
  have split := splitPieces_intercalate (tail.map .plain)
    (by simpa using nonempty) (List.forall_mem_map.2 fun x mem => whole x mem 0 (Nat.zero_le 0))
  rw [readItems, ← write_list separator written, scan_write d (.list separated separator fence),
    Option.map_some, marked, split]

theorem readList_intercalate (mark : Char) (head : separator.toList.head? = some mark)
    (plain : quoteMark ∉ separator.toList) (nonempty : items ≠ [])
    (written : ∀ x ∈ items, d.write (pieces x) = (text x).toList)
    (separated : ∀ x ∈ items, Separated (pieces x))
    (whole : ∀ x ∈ items, Level mark 0 (pieces x)) :
    d.readList separator (separator.intercalate (items.map text)) = some (items.map text) := by
  rw [readList, readItems_intercalate mark head plain nonempty written separated whole,
    Option.map_some, List.map_map]
  refine congrArg some (List.map_congr_left fun x mem => ?_)
  simp [written x mem]

end Reading

end Database

namespace Column

variable {d : Database} {c : Column}

theorem Built.isIdentifier_alias (h : c.Built d) :
    ∀ name ∈ c.alias?, Identifier.isIdentifier name.toList = true := by
  cases h with
  | column given | count given | formatDate _ given =>
    obtain ⟨e, -, given⟩ := Action.run_bind_eq_ok given
    rw [Action.run_lift] at given
    exact isIdentifier_ofExprAs given
  | all given =>
    obtain ⟨qualifier, -, rfl⟩ := except_map_eq_ok.1 given
    nofun
  | lower | upper => nofun
  | concat _ given =>
    obtain ⟨es, -, rfl⟩ := except_map_eq_ok.1 given
    nofun

theorem Built.expr_ne_literal (h : c.Built d) (l : Literal) : c.expr ≠ .literal l := by
  cases h with
  | column given | count given | formatDate _ given =>
    obtain ⟨e, there, given⟩ := Action.run_bind_eq_ok given
    obtain ⟨qualifier, name, rfl⟩ := columnExpr_ok there
    rw [Action.run_lift] at given
    rw [expr_ofExprAs given]
    nofun
  | all given =>
    obtain ⟨qualifier, -, rfl⟩ := except_map_eq_ok.1 given
    nofun
  | lower | upper => nofun
  | concat _ given =>
    obtain ⟨es, -, rfl⟩ := except_map_eq_ok.1 given
    nofun

/-- A column that was built over identifiers, with the name it was built with or another one. -/
structure Listed (d : Database) (c : Column) : Prop where
  named : c.expr.Named
  built : ∃ b : Column, b.Built d ∧ (c = b ∨ ∃ name, Column.named b.expr name = .ok c)

namespace Listed

theorem exists_built (h : c.Listed d) : ∃ b : Column, b.Built d ∧ b.expr = c.expr := by
  obtain ⟨b, built, rfl | ⟨name, given⟩⟩ := h.built
  · exact ⟨c, built, rfl⟩
  · have renamed : ofExprAs b.expr (some name) = .ok c := given
    exact ⟨b, built, (expr_ofExprAs renamed).symm⟩

theorem regular (h : c.Listed d) : c.expr.Regular d := by
  obtain ⟨b, built, same⟩ := h.exists_built
  exact same ▸ built.regular (same ▸ h.named)

theorem expr_ne_literal (h : c.Listed d) (l : Literal) : c.expr ≠ .literal l := by
  obtain ⟨b, built, same⟩ := h.exists_built
  exact same ▸ built.expr_ne_literal l

theorem isIdentifier_alias (h : c.Listed d) :
    ∀ name ∈ c.alias?, Identifier.isIdentifier name.toList = true := by
  obtain ⟨b, built, rfl | ⟨name, given⟩⟩ := h.built
  · exact built.isIdentifier_alias
  · have renamed : ofExprAs b.expr (some name) = .ok c := given
    exact isIdentifier_ofExprAs renamed

end Listed

/-- The pieces of a column with its name, as it stands in a projection. -/
def projectedPieces (c : Column) : List Piece :=
  c.expr.pieces ++ words ((c.alias?.map (" AS " ++ ·)).getD "")

theorem write_projectedPieces (h : c.Listed d) :
    d.write c.projectedPieces = c.projected.toList := by
  unfold projectedPieces projected
  cases c.alias? <;> simp [text, Expr.write_pieces h.regular]

theorem separated_projectedPieces (h : c.Listed d) : Separated c.projectedPieces := by
  refine (Expr.separated_pieces h.regular).append (follows_words _ ?_)
  cases named : c.alias? with
  | none => simp
  | some name =>
    have word : quoteMark ∉ " AS ".toList := by decide
    have plain := quoteMark_not_mem_of_isIdentifier (h.isIdentifier_alias name named)
    simpa [plain] using word

theorem level_projectedPieces (h : c.Listed d) : Level ',' 0 c.projectedPieces := by
  refine (Level.pieces (by decide) (by decide) h.regular).append (.words ?_)
  cases named : c.alias? with
  | none => decide
  | some name =>
    have apart (char : Char) (word : char ∉ " AS ".toList)
        (part : Identifier.isPart char = false) : char ∉ (" AS " ++ name).toList := fun mem => by
      rcases List.mem_append.1 (String.toList_append ▸ mem) with mem | mem
      · exact word mem
      · have isPart := Identifier.isPart_of_mem (h.isIdentifier_alias name named) mem
        simp [part] at isPart
    exact ⟨apart _ (by decide) (by decide), apart _ (by decide) (by decide),
      fun _ => apart _ (by decide) (by decide)⟩

end Column

/-! What a list of columns is written as by each of the operations that take one. -/

section Operations

variable {d : Database} {list : List Column}

theorem Column.readList_listText (nonempty : list ≠ []) (listed : ∀ c ∈ list, c.Listed d) :
    d.readList ", " (Column.listText list) = some (list.map Column.text) :=
  Database.readList_intercalate ',' rfl (by decide) nonempty
    (fun c mem => Expr.write_pieces (listed c mem).regular)
    (fun c mem => Expr.separated_pieces (listed c mem).regular)
    fun c mem => Level.pieces (by decide) (by decide) (listed c mem).regular

theorem Selection.ofColumns_reads_back (nonempty : list ≠ []) (listed : ∀ c ∈ list, c.Listed d) :
    ∃ s text, ofColumns list = .ok s ∧ s.text = "SELECT DISTINCT " ++ text ++ " FROM " ∧
      d.readList ", " text = some (list.map Column.projected) := by
  refine ⟨.columns list, ", ".intercalate (list.map Column.projected), ?_, ?_, ?_⟩
  · cases list with
    | nil => exact absurd rfl nonempty
    | cons => rfl
  · have opening : "SELECT " ++ distinctKeyword ++ " " = "SELECT DISTINCT " := by decide +kernel
    unfold Selection.text
    rw [opening]
  · exact Database.readList_intercalate ',' rfl (by decide) nonempty
      (fun c mem => Column.write_projectedPieces (listed c mem))
      (fun c mem => Column.separated_projectedPieces (listed c mem))
      fun c mem => Column.level_projectedPieces (listed c mem)

theorem DistinctOn.ofColumns_reads_back (supported : d.supportsDistinctOn = true)
    (nonempty : list ≠ []) (listed : ∀ c ∈ list, c.Listed d) :
    ∃ on text, ofColumns d list = .ok on ∧ on.text = "DISTINCT ON (" ++ text ++ ")" ∧
      d.readList ", " text = some (list.map Column.text) := by
  refine ⟨.columns list, Column.listText list, ?_, rfl, Column.readList_listText nonempty listed⟩
  unfold ofColumns
  rw [if_pos supported]
  cases list with
  | nil => exact absurd rfl nonempty
  | cons c others => rfl

/-- A list is not blank if its first item is not. -/
theorem isBlank_list {α : Type} {items : List α} {text : α → String} {separator : String}
    (nonempty : items ≠ []) (shown : ∀ x ∈ items, Text.isBlank (text x) = false) :
    Text.isBlank (separator.intercalate (items.map text)) = false := by
  cases items with
  | nil => exact absurd rfl nonempty
  | cons first others =>
    rw [List.map_cons]
    exact Text.isBlank_intercalate (shown first List.mem_cons_self) _ _

theorem Query.groupClause_reads_back (nonempty : list ≠ []) (listed : ∀ c ∈ list, c.Listed d)
    (q : Query) : ∃ text, (q.setGrouping list).groupClause = " GROUP BY " ++ text ∧
      d.readList ", " text = some (list.map Column.text) := by
  refine ⟨Column.listText list, ?_, Column.readList_listText nonempty listed⟩
  have shown : Text.isBlank (Column.listText list) = false :=
    isBlank_list nonempty fun c mem => Expr.isBlank_text (listed c mem).regular
  simp [groupClause, setGrouping, shown]

theorem OrderTerm.level_pieces {term : OrderTerm} (h : term.column.expr.Regular d) :
    Level ',' 0 term.pieces := by
  have blank : Level ',' 0 (words " ") := .words (by decide)
  have direction : Level ',' 0 (words (" " ++ term.direction.keyword)) :=
    .words (by cases term.direction <;> decide)
  exact blank.append ((Level.pieces (by decide) (by decide) h).append direction)

/-- The terms come in the order of the arguments, and it is enough that one argument has any. -/
theorem Query.orderClause_reads_back {arguments : List OrderArgument}
    (given : ∃ a ∈ arguments, a.terms ≠ [])
    (all : ∀ a ∈ arguments, ∀ term ∈ a.terms, term.column.Listed d) (q : Query) :
    ∃ text, (q.setOrder arguments).orderClause = " ORDER BY " ++ text ∧
      d.readList "," text = some (arguments.flatMap fun a => a.terms.map OrderTerm.text) := by
  have ordered : (q.setOrder arguments).order = arguments.flatMap OrderArgument.terms := rfl
  generalize terms_eq : arguments.flatMap OrderArgument.terms = terms at ordered
  have nonempty : terms ≠ [] := by
    obtain ⟨a, there, some⟩ := given
    obtain ⟨term, inside⟩ := List.exists_mem_of_ne_nil _ some
    exact List.ne_nil_of_mem (terms_eq ▸ List.mem_flatMap.2 ⟨a, there, inside⟩)
  have listed : ∀ term ∈ terms, term.column.Listed d := fun term mem => by
    obtain ⟨a, there, inside⟩ := List.mem_flatMap.1 (terms_eq ▸ mem)
    exact all a there term inside
  rw [← List.map_flatMap, terms_eq]
  refine ⟨",".intercalate (terms.map OrderTerm.text), ?_, ?_⟩
  · have shown : Text.isBlank (",".intercalate (terms.map OrderTerm.text)) = false := by
      refine isBlank_list nonempty fun term mem => ?_
      have column := Expr.isBlank_text (listed term mem).regular
      simp [OrderTerm.text, Text.isBlank_append, Column.text, column]
    simp [orderClause, ordered, shown]
  · exact Database.readList_intercalate ',' rfl (by decide) nonempty
      (fun term mem => OrderTerm.write_pieces (listed term mem).regular)
      (fun term mem => OrderTerm.separated_pieces (listed term mem).regular)
      fun term mem => OrderTerm.level_pieces (listed term mem).regular

end Operations

/-! Concatenations are read with their strings. -/

/-- An argument of a concatenation as it is read. -/
inductive PartText where
  | expression (text : String)
  | string (content : String)
deriving DecidableEq, Repr

def PartText.ofPieces (d : Database) : List Piece → PartText
  | [.literal content] => string (String.ofList content)
  | pieces => expression (String.ofList (d.write pieces))

def Database.readParts (d : Database) (text : String) : Option (List PartText) :=
  (d.readItems d.concatSeparator text).map (List.map (PartText.ofPieces d))

namespace Column.Part

/-- What is to be read of an argument. -/
def shown? : Part → Option PartText
  | column c => some (.expression c.text)
  | text content => some (.string content)
  | other => none

/-- Columns that were built, and strings. -/
def Listed (d : Database) : Part → Prop
  | column c => c.Listed d
  | text _ => True
  | other => False

end Column.Part

/-- An expression that is no literal is written with more than one. -/
theorem Expr.pieces_ne_literal {e : Expr} (h : ∀ l, e ≠ .literal l) (content : List Char) :
    e.pieces ≠ [.literal content] := by
  have plain (text : String) : words text ≠ [.literal content] := fun same => by
    have mem : .literal content ∈ words text := same ▸ List.mem_singleton_self _
    simp [words] at mem
  have begins {text : String} {c : Char} {rest : List Piece} (head : text.toList.head? = some c) :
      words text ++ rest ≠ [.literal content] := by
    obtain ⟨tail, same⟩ := List.head?_eq_some_iff.1 head
    simp [words, same]
  cases e with
  | literal l => exact absurd rfl (h l)
  | raw | column | all => exact plain _
  | lower | upper | count | concat => exact begins rfl
  | formatDate database => cases database <;> exact begins rfl

namespace Column

variable {d : Database}

theorem Part.shown_of_expr {part : Part} {e : Expr} (given : part.expr d = .ok e)
    (listed : part.Listed d) :
    e.Regular d ∧ part.shown? = some (PartText.ofPieces d e.pieces) := by
  cases part with
  | column c =>
    obtain rfl := Except.ok.inj given
    have several := Expr.pieces_ne_literal listed.expr_ne_literal
    refine ⟨listed.regular, ?_⟩
    unfold PartText.ofPieces
    split
    · next content single => exact absurd single (several content)
    · simp [shown?, Expr.write_pieces listed.regular, Column.text]
  | text content =>
    obtain rfl := Except.ok.inj given
    exact ⟨rfl, by simp [shown?, Expr.pieces, Literal.pieces, PartText.ofPieces]⟩
  | other => cases given

theorem concat_reads_back {parts : List Part} (nonempty : parts ≠ [])
    (listed : ∀ part ∈ parts, part.Listed d) :
    ∃ c text, concat d parts = .ok c ∧ c.text = "CONCAT(" ++ text ++ ")" ∧
      ∃ shown, parts.mapM Part.shown? = some shown ∧ d.readParts text = some shown := by
  have usable : ∀ part ∈ parts, ∃ e, part.expr d = .ok e := fun part mem => by
    cases part with
    | column | text => exact ⟨_, rfl⟩
    | other => exact (listed _ mem).elim
  obtain ⟨es, made⟩ := exists_mapM_eq_ok usable
  have each := mapM_eq_ok_iff.1 made
  have regular : ∀ e ∈ es, e.Regular d := fun e mem => by
    obtain ⟨part, there, given⟩ := exists_of_mem_right each mem
    exact (Part.shown_of_expr given (listed part there)).1
  have shown : parts.mapM Part.shown? =
      some (es.map fun e => PartText.ofPieces d e.pieces) := by
    clear made usable nonempty regular
    induction each with
    | nil => rfl
    | cons given _ ih =>
      obtain ⟨first, others⟩ := List.forall_mem_cons.1 listed
      rw [List.mapM_cons, (Part.shown_of_expr given first).2, ih others]
      rfl
  have present : es ≠ [] := by
    rintro rfl
    cases each
    exact nonempty rfl
  have read : d.readItems d.concatSeparator
      (d.concatSeparator.intercalate (es.map Expr.text)) = some (es.map Expr.pieces) := by
    obtain ⟨mark, head, foreign, opening⟩ : ∃ mark,
        d.concatSeparator.toList.head? = some mark ∧ Foreign mark ∧ mark ≠ '(' := by
      cases d with
      | postgresql => exact ⟨' ', rfl, by decide⟩
      | mysql => exact ⟨',', rfl, by decide⟩
    exact Database.readItems_intercalate mark head (by cases d <;> decide) present
      (fun e mem => Expr.write_pieces (regular e mem))
      (fun e mem => Expr.separated_pieces (regular e mem))
      fun e mem => Level.pieces foreign opening (regular e mem)
  refine ⟨ofExpr (.concat d es), d.concatSeparator.intercalate (es.map Expr.text), ?_, ?_, _,
    shown, ?_⟩
  · simp [concat, made, Except.map]
  · simp [Column.text, ofExpr, Expr.text]
  · simp [Database.readParts, read, Function.comp_def]

end Column

/-- Every list that is made of built columns is read back as the items it was made of, by a reader
that splits at the separators outside of literals and parentheses. -/
theorem lists_read_back (d : Database) :
    (∀ list : List Column, list ≠ [] → (∀ c ∈ list, c.Listed d) →
      (∃ s text, Selection.ofColumns list = .ok s ∧
        s.text = "SELECT DISTINCT " ++ text ++ " FROM " ∧
        d.readList ", " text = some (list.map Column.projected)) ∧
      (d.supportsDistinctOn = true → ∃ on text, DistinctOn.ofColumns d list = .ok on ∧
        on.text = "DISTINCT ON (" ++ text ++ ")" ∧
        d.readList ", " text = some (list.map Column.text)) ∧
      ∀ q : Query, ∃ text, (q.setGrouping list).groupClause = " GROUP BY " ++ text ∧
        d.readList ", " text = some (list.map Column.text)) ∧
    (∀ arguments : List OrderArgument, (∃ a ∈ arguments, a.terms ≠ []) →
      (∀ a ∈ arguments, ∀ term ∈ a.terms, term.column.Listed d) →
      ∀ q : Query, ∃ text, (q.setOrder arguments).orderClause = " ORDER BY " ++ text ∧
        d.readList "," text = some (arguments.flatMap fun a => a.terms.map OrderTerm.text)) ∧
    ∀ parts : List Column.Part, parts ≠ [] → (∀ part ∈ parts, part.Listed d) →
      ∃ c text, Column.concat d parts = .ok c ∧ c.text = "CONCAT(" ++ text ++ ")" ∧
        ∃ shown, parts.mapM Column.Part.shown? = some shown ∧ d.readParts text = some shown := by
  refine ⟨fun list nonempty listed => ⟨?_, fun supported => ?_, fun q => ?_⟩,
    fun arguments => Query.orderClause_reads_back, fun parts => Column.concat_reads_back⟩
  · exact Selection.ofColumns_reads_back nonempty listed
  · exact DistinctOn.ofColumns_reads_back supported nonempty listed
  · exact Query.groupClause_reads_back nonempty listed q

/-- Separators and parentheses in a string split no list. -/
theorem lists_with_separators_in_strings_read_back :
    let name := Column.ofExpr (.column "m" "name")
    let string := "), 'a' || ("
    let label : Column :=
      ⟨.concat .postgresql [name.expr, .literal ⟨.postgresql, string⟩], some "label"⟩
    let read := Database.postgresql.readList
    (∃ s text, Selection.ofColumns [label, name] = .ok s ∧
      s.text = "SELECT DISTINCT " ++ text ++ " FROM " ∧
      read ", " text = some ["CONCAT(m.name || '), ''a'' || (') AS label", "m.name"]) ∧
    (∃ text, ((Query.fresh none).setOrder
        [.several [⟨label, .descending⟩], .one ⟨name, .ascending⟩]).orderClause =
        " ORDER BY " ++ text ∧
      read "," text = some [" CONCAT(m.name || '), ''a'' || (') desc", " m.name asc"]) ∧
    ∃ c text, Column.concat .postgresql [.column label, .text string] = .ok c ∧
      c.text = "CONCAT(" ++ text ++ ")" ∧ Database.postgresql.readParts text =
        some [.expression "CONCAT(m.name || '), ''a'' || (')", .string string] := by
  intro name string label read
  let user : Entity := .base ⟨1, "User", some "users", [⟨"name", none⟩]⟩
  let root : TableRoot := ⟨user, ⟨0⟩, ⟨.postgresql, 0⟩, some "m", none⟩
  let names : Resolvers := Store.empty (Resolver.fresh false)
  have nameBuilt : name.Built .postgresql := by
    have given : ((root.column "name" none).run names).result = .ok name := by cbv
    exact .column given
  have nameListed : name.Listed .postgresql :=
    ⟨⟨by decide +kernel, by decide +kernel⟩, name, nameBuilt, .inl rfl⟩
  have labelBuilt : (Column.ofExpr label.expr).Built .postgresql := by
    apply @Column.Built.concat .postgresql [.column name, .text string] _ _ rfl
    intro part mem
    obtain rfl : part = name := by simpa using mem
    exact nameBuilt
  have labelListed : label.Listed .postgresql :=
    ⟨⟨nameListed.named, trivial, trivial⟩, _, labelBuilt, .inr ⟨"label", by cbv⟩⟩
  have both : ∀ c ∈ [label, name], c.Listed .postgresql := by
    simp [labelListed, nameListed]
  obtain ⟨ofLists, ofArguments, ofParts⟩ := lists_read_back .postgresql
  obtain ⟨s, text, made, written, projected⟩ := (ofLists [label, name] (by simp) both).1
  obtain ⟨order, begins, ordered⟩ := ofArguments
    [.several [⟨label, .descending⟩], .one ⟨name, .ascending⟩]
    (by simp [OrderArgument.terms])
    (by simp [OrderArgument.terms, labelListed, nameListed]) (Query.fresh none)
  obtain ⟨c, inner, joined, called, shown, each, parts⟩ :=
    ofParts [.column label, .text string] (by simp) (by simp [Column.Part.Listed, labelListed])
  refine ⟨⟨s, text, made, written, ?_⟩, ⟨order, begins, ?_⟩, c, inner, joined, called, ?_⟩
  · exact projected.trans (by decide +kernel)
  · exact ordered.trans (by decide +kernel)
  · rw [parts, ← each]
    decide +kernel

end SqlSelect
