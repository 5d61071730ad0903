import SqlSelect.Predicate
import SqlSelect.Proofs.Literal.Lexer
import SqlSelect.Text.Blank

/-!
The pieces of expressions and predicates. Expressions over identifiers print as separated pieces,
with a literal for every string they hold and nothing that depends on these strings around it.
-/
namespace SqlSelect

theorem quoteMark_not_mem_of_isIdentifier {name : List Char}
    (h : Identifier.isIdentifier name = true) : quoteMark ∉ name := fun mem =>
  absurd (Identifier.isPart_of_mem h mem) (by decide)

def Literal.pieces (l : Literal) : List Piece := [.literal l.content.toList]

namespace Literal

theorem write_pieces (l : Literal) : l.database.write l.pieces = l.text.toList := by
  simp [pieces, text, Database.quote]

theorem separated_pieces (l : Literal) : Separated l.pieces := ⟨by simp, trivial⟩

/-- The literal without its content. -/
def blank (l : Literal) : Literal := { l with content := "" }

@[simp] theorem contents_pieces (l : Literal) :
    l.pieces.filterMap Piece.content? = [l.content].map String.toList := rfl

@[simp] theorem pieces_blank (l : Literal) : l.blank.pieces = l.pieces.map Piece.blank := rfl

end Literal

namespace Expr

/-- Induction with a hypothesis for every argument of a concatenation. -/
@[induction_eliminator]
theorem ind {motive : Expr → Prop} (raw : ∀ text, motive (raw text))
    (column : ∀ qualifier name, motive (column qualifier name))
    (all : ∀ qualifier, motive (all qualifier)) (literal : ∀ content, motive (literal content))
    (lower : ∀ argument, motive argument → motive (lower argument))
    (upper : ∀ argument, motive argument → motive (upper argument))
    (count : ∀ argument, motive argument → motive (count argument))
    (formatDate : ∀ database argument pattern, motive argument →
      motive (formatDate database argument pattern))
    (concat : ∀ database parts, (∀ e ∈ parts, motive e) → motive (concat database parts))
    (e : Expr) : motive e :=
  @Expr.rec motive (fun parts => ∀ e ∈ parts, motive e) raw column all literal lower upper count
    formatDate concat (by simp) (fun _ _ first others => List.forall_mem_cons.2 ⟨first, others⟩) e

mutual

/-- No text taken as it is, only identifiers for names, and all literals for one database. -/
def Regular (d : Database) : Expr → Prop
  | raw _ => False
  | column qualifier name => Identifier.isIdentifier qualifier.toList = true ∧
      Identifier.isIdentifier name.toList = true
  | all qualifier => Identifier.isIdentifier qualifier.toList = true
  | literal content => content.database = d
  | lower argument => argument.Regular d
  | upper argument => argument.Regular d
  | count argument => argument.Regular d
  | formatDate database argument _ => database = d ∧ argument.Regular d
  | concat database parts => database = d ∧ AllRegular d parts

def AllRegular (d : Database) : List Expr → Prop
  | [] => True
  | e :: es => e.Regular d ∧ AllRegular d es

end

@[simp] theorem allRegular_iff {d : Database} {es : List Expr} :
    AllRegular d es ↔ ∀ e ∈ es, e.Regular d := by
  induction es with
  | nil => simp [AllRegular]
  | cons e es ih => simp [AllRegular, ih]

mutual

def pieces : Expr → List Piece
  | raw text => words text
  | column qualifier name => words (qualifier ++ "." ++ name)
  | all qualifier => words (qualifier ++ ".*")
  | literal content => content.pieces
  | lower argument => words "LOWER(" ++ (argument.pieces ++ words ")")
  | upper argument => words "UPPER(" ++ (argument.pieces ++ words ")")
  | count argument => words "COUNT(" ++ (argument.pieces ++ words ")")
  | formatDate database argument pattern => words (database.dateFunction ++ "(") ++
      (argument.pieces ++ (words ", " ++ (Literal.pieces ⟨database, pattern⟩ ++ words ")")))
  | concat database parts => words "CONCAT(" ++
      ((words database.concatSeparator).intercalate (allPieces parts) ++ words ")")

def allPieces : List Expr → List (List Piece)
  | [] => []
  | e :: es => e.pieces :: allPieces es

end

@[simp] theorem allPieces_eq_map (es : List Expr) : allPieces es = es.map pieces := by
  induction es with
  | nil => rfl
  | cons e es ih => simp [allPieces, ih]

variable {d : Database}

theorem write_pieces {e : Expr} (h : e.Regular d) : d.write e.pieces = e.text.toList := by
  induction e with
  | raw => exact h.elim
  | column | all => simp [pieces, text]
  | literal content =>
    obtain rfl : content.database = d := h
    exact content.write_pieces
  | lower argument ih | upper argument ih | count argument ih =>
    simp [pieces, text, ih h]
  | formatDate database argument pattern ih =>
    obtain ⟨rfl, h⟩ := h
    simp [pieces, text, ih h, Literal.pieces, Database.formatDate, Database.quote]
  | concat database parts ih =>
    obtain ⟨rfl, h⟩ := h
    have list := write_list database.concatSeparator fun e mem =>
      ih e mem (allRegular_iff.1 h e mem)
    simp [pieces, text, list]

theorem separated_pieces {e : Expr} (h : e.Regular d) : Separated e.pieces := by
  induction e with
  | raw => exact h.elim
  | column qualifier name =>
    have plain : quoteMark ∉ (qualifier ++ "." ++ name).toList := by
      have dot : quoteMark ≠ '.' := by decide
      simp [quoteMark_not_mem_of_isIdentifier h.1, quoteMark_not_mem_of_isIdentifier h.2, dot]
    simpa [pieces] using Separated.nil.words_append plain
  | all qualifier =>
    have plain : quoteMark ∉ (qualifier ++ ".*").toList := by
      have dot : quoteMark ≠ '.' := by decide
      have star : quoteMark ≠ '*' := by decide
      simp [quoteMark_not_mem_of_isIdentifier h, dot, star]
    simpa [pieces] using Separated.nil.words_append plain
  | literal content => exact content.separated_pieces
  | lower argument ih | upper argument ih | count argument ih =>
    exact ((ih h).close (by decide)).words_append (by decide)
  | formatDate database argument pattern ih =>
    obtain ⟨rfl, h⟩ := h
    apply Separated.words_append
    · cases database <;> decide
    · exact (ih h).fence ((Literal.separated_pieces _).close (by decide)) (by decide)
  | concat database parts ih =>
    obtain ⟨rfl, h⟩ := h
    have fence : Fence database.concatSeparator := by cases database <;> decide
    have list := Separated.list (fun e mem => ih e mem (allRegular_iff.1 h e mem)) _ fence
    rw [← allPieces_eq_map] at list
    exact Separated.words_append (by decide) (list.close (by decide))

theorem isBlank_text {e : Expr} (h : e.Regular d) : Text.isBlank e.text = false := by
  cases e with
  | raw => exact h.elim
  | column | all => exact Text.isBlank_of_mem (c := '.') (by simp [text]) (by decide)
  | literal content =>
    exact Text.isBlank_of_mem (c := quoteMark)
      (by simp [text, Literal.text, Database.quote, Database.quoteChars]) (by decide)
  | lower | upper | count | concat =>
    exact Text.isBlank_of_mem (c := ')') (by simp [text]) (by decide)
  | formatDate =>
    exact Text.isBlank_of_mem (c := ')') (by simp [text, Database.formatDate]) (by decide)

mutual

/-- The strings that an expression holds, in the order of its text. -/
def strings : Expr → List String
  | raw _ => []
  | column _ _ => []
  | all _ => []
  | literal content => [content.content]
  | lower argument => argument.strings
  | upper argument => argument.strings
  | count argument => argument.strings
  | formatDate _ argument pattern => argument.strings ++ [pattern]
  | concat _ parts => allStrings parts

def allStrings : List Expr → List String
  | [] => []
  | e :: es => e.strings ++ allStrings es

end

@[simp] theorem allStrings_eq_flatMap (es : List Expr) : allStrings es = es.flatMap strings := by
  induction es with
  | nil => rfl
  | cons e es ih => simp [allStrings, ih]

mutual

/-- The expression without its strings. -/
def blank : Expr → Expr
  | raw text => raw text
  | column qualifier name => column qualifier name
  | all qualifier => all qualifier
  | literal content => literal content.blank
  | lower argument => lower argument.blank
  | upper argument => upper argument.blank
  | count argument => count argument.blank
  | formatDate database argument _ => formatDate database argument.blank ""
  | concat database parts => concat database (allBlank parts)

def allBlank : List Expr → List Expr
  | [] => []
  | e :: es => e.blank :: allBlank es

end

@[simp] theorem allBlank_eq_map (es : List Expr) : allBlank es = es.map blank := by
  induction es with
  | nil => rfl
  | cons e es ih => simp [allBlank, ih]

@[simp] theorem blank_blank (e : Expr) : e.blank.blank = e.blank := by
  induction e with
  | raw | column | all | literal => simp [blank, Literal.blank]
  | lower argument ih | upper argument ih | count argument ih | formatDate _ argument _ ih =>
    simp [blank, ih]
  | concat database parts ih => simpa [blank] using ih

theorem contents_pieces (e : Expr) :
    e.pieces.filterMap Piece.content? = e.strings.map String.toList := by
  induction e with
  | raw | column | all => simp [pieces, strings]
  | literal content => simp [pieces, strings]
  | lower argument ih | upper argument ih | count argument ih => simp [pieces, strings, ih]
  | formatDate database argument pattern ih =>
    simp [pieces, strings, ih]
  | concat database parts ih =>
    simp [pieces, strings, contents_list database.concatSeparator ih]

theorem pieces_blank (e : Expr) : e.blank.pieces = e.pieces.map Piece.blank := by
  induction e with
  | raw | column | all => simp [pieces, blank]
  | literal content => simp [pieces, blank]
  | lower argument ih | upper argument ih | count argument ih => simp [pieces, blank, ih]
  | formatDate database argument pattern ih =>
    simp [pieces, blank, ih, ← Literal.pieces_blank, Literal.blank]
  | concat database parts ih =>
    have list := blank_list database.concatSeparator ih
    simpa [pieces, blank] using list

end Expr

/-- The column without the strings of its expression. -/
def Column.blank (c : Column) : Column := { c with expr := c.expr.blank }

namespace Predicate

/-- Induction with a hypothesis for every member of a group. -/
@[induction_eliminator]
theorem ind {motive : Predicate → Prop} (raw : ∀ text, motive (raw text))
    (compare : ∀ left comparison right, motive (compare left comparison right))
    (among : ∀ left negated values, motive (among left negated values))
    (like : ∀ left negated pattern, motive (like left negated pattern))
    (between : ∀ left low high, motive (between left low high))
    (isNull : ∀ left negated, motive (isNull left negated))
    (group : ∀ connective members, (∀ p ∈ members, motive p) → motive (group connective members))
    (p : Predicate) : motive p :=
  @Predicate.rec motive (fun members => ∀ p ∈ members, motive p) raw compare among like between
    isNull group (by simp) (fun _ _ first others => List.forall_mem_cons.2 ⟨first, others⟩) p

mutual

def Regular (d : Database) : Predicate → Prop
  | raw _ => False
  | compare left _ right => left.Regular d ∧ right.database = d
  | among left _ values => left.Regular d ∧ ∀ v ∈ values, v.database = d
  | like left _ pattern => left.Regular d ∧ pattern.database = d
  | between left low high => left.Regular d ∧ low.database = d ∧ high.database = d
  | isNull left _ => left.Regular d
  | group _ members => AllRegular d members

def AllRegular (d : Database) : List Predicate → Prop
  | [] => True
  | p :: ps => p.Regular d ∧ AllRegular d ps

end

@[simp] theorem allRegular_iff {d : Database} {ps : List Predicate} :
    AllRegular d ps ↔ ∀ p ∈ ps, p.Regular d := by
  induction ps with
  | nil => simp [AllRegular]
  | cons p ps ih => simp [AllRegular, ih]

mutual

def pieces : Predicate → List Piece
  | raw text => words text
  | compare left comparison right => words " " ++ (left.pieces ++
      (words (" " ++ comparison.symbol ++ " ") ++ (right.pieces ++ words " ")))
  | among left negated values => words " " ++ (left.pieces ++
      (words (if negated then " NOT IN (" else " IN (") ++
        ((words ",").intercalate (values.map Literal.pieces) ++ words ") ")))
  | like left negated pattern => words " " ++ (left.pieces ++
      (words (if negated then " NOT LIKE " else " LIKE ") ++ (pattern.pieces ++ words " ")))
  | between left low high => words " " ++ (left.pieces ++ (words " BETWEEN " ++
      (low.pieces ++ (words " and " ++ (high.pieces ++ words " ")))))
  | isNull left negated => left.pieces ++ words (if negated then " IS NOT NULL " else " IS NULL ")
  | group connective members => words " (" ++
      ((words connective.separator).intercalate (allPieces members) ++ words ") ")

def allPieces : List Predicate → List (List Piece)
  | [] => []
  | p :: ps => p.pieces :: allPieces ps

end

@[simp] theorem allPieces_eq_map (ps : List Predicate) : allPieces ps = ps.map pieces := by
  induction ps with
  | nil => rfl
  | cons p ps ih => simp [allPieces, ih]

variable {d : Database}

theorem write_pieces {p : Predicate} (h : p.Regular d) : d.write p.pieces = p.text.toList := by
  induction p with
  | raw => exact h.elim
  | compare left comparison right =>
    obtain ⟨h, rfl⟩ := h
    simp [pieces, text, left.write_pieces h, right.write_pieces]
  | among left negated values =>
    obtain ⟨h, same⟩ := h
    have list := write_list "," fun (v : Literal) mem => same v mem ▸ v.write_pieces
    simp [pieces, text, left.write_pieces h, list]
  | like left negated pattern =>
    obtain ⟨h, rfl⟩ := h
    simp [pieces, text, left.write_pieces h, pattern.write_pieces]
  | between left low high =>
    obtain ⟨h, rfl, same⟩ := h
    simp [pieces, text, left.write_pieces h, low.write_pieces, same ▸ high.write_pieces]
  | isNull left negated => simp [pieces, text, left.write_pieces h]
  | group connective members ih =>
    have list := write_list connective.separator fun p mem => ih p mem (allRegular_iff.1 h p mem)
    simp [pieces, text, list]

theorem separated_pieces {p : Predicate} (h : p.Regular d) : Separated p.pieces := by
  have literal (l : Literal) {text : String} (behind : Fence text) :
      Separated (l.pieces ++ words text) := l.separated_pieces.close behind
  induction p with
  | raw => exact h.elim
  | compare left comparison right =>
    have fence : Fence (" " ++ comparison.symbol ++ " ") := by cases comparison <;> decide
    apply Separated.words_append (by decide)
    exact (left.separated_pieces h.1).fence (literal right (by decide)) fence
  | among left negated values =>
    have list := Separated.list (fun v (_ : v ∈ values) => v.separated_pieces) "," (by decide)
    have fence : Fence (if negated then " NOT IN (" else " IN (") := by cases negated <;> decide
    apply Separated.words_append (by decide)
    exact (left.separated_pieces h.1).fence (list.close (by decide)) fence
  | like left negated pattern =>
    have fence : Fence (if negated then " NOT LIKE " else " LIKE ") := by cases negated <;> decide
    apply Separated.words_append (by decide)
    exact (left.separated_pieces h.1).fence (literal pattern (by decide)) fence
  | between left low high =>
    apply Separated.words_append (by decide)
    apply (left.separated_pieces h.1).fence _ (by decide)
    exact low.separated_pieces.fence (literal high (by decide)) (by decide)
  | isNull left negated =>
    have fence : Fence (if negated then " IS NOT NULL " else " IS NULL ") := by
      cases negated <;> decide
    exact (left.separated_pieces h).close fence
  | group connective members ih =>
    have fence : Fence connective.separator := by cases connective <;> decide
    have list := Separated.list (fun p mem => ih p mem (allRegular_iff.1 h p mem)) _ fence
    rw [← allPieces_eq_map] at list
    exact Separated.words_append (by decide) (list.close (by decide))

mutual

/-- The strings that a predicate holds, in the order of its text. -/
def strings : Predicate → List String
  | raw _ => []
  | compare left _ right => left.strings ++ [right.content]
  | among left _ values => left.strings ++ values.map Literal.content
  | like left _ pattern => left.strings ++ [pattern.content]
  | between left low high => left.strings ++ [low.content, high.content]
  | isNull left _ => left.strings
  | group _ members => allStrings members

def allStrings : List Predicate → List String
  | [] => []
  | p :: ps => p.strings ++ allStrings ps

end

@[simp] theorem allStrings_eq_flatMap (ps : List Predicate) :
    allStrings ps = ps.flatMap strings := by
  induction ps with
  | nil => rfl
  | cons p ps ih => simp [allStrings, ih]

mutual

/-- The predicate without its strings. -/
def blank : Predicate → Predicate
  | raw text => raw text
  | compare left comparison right => compare left.blank comparison right.blank
  | among left negated values => among left.blank negated (values.map Literal.blank)
  | like left negated pattern => like left.blank negated pattern.blank
  | between left low high => between left.blank low.blank high.blank
  | isNull left negated => isNull left.blank negated
  | group connective members => group connective (allBlank members)

def allBlank : List Predicate → List Predicate
  | [] => []
  | p :: ps => p.blank :: allBlank ps

end

@[simp] theorem allBlank_eq_map (ps : List Predicate) : allBlank ps = ps.map blank := by
  induction ps with
  | nil => rfl
  | cons p ps ih => simp [allBlank, ih]

theorem contents_pieces (p : Predicate) :
    p.pieces.filterMap Piece.content? = p.strings.map String.toList := by
  induction p with
  | raw => simp [pieces, strings]
  | compare left | like left | between left | isNull left =>
    simp [pieces, strings, left.contents_pieces]
  | among left negated values =>
    have list := contents_list "," fun (v : Literal) (_ : v ∈ values) => v.contents_pieces
    rw [← List.map_eq_flatMap] at list
    simp [pieces, strings, left.contents_pieces, list]
  | group connective members ih =>
    simp [pieces, strings, contents_list connective.separator ih]

theorem pieces_blank (p : Predicate) : p.blank.pieces = p.pieces.map Piece.blank := by
  induction p with
  | raw => simp [pieces, blank]
  | compare left | like left | between left | isNull left =>
    simp [pieces, blank, left.pieces_blank]
  | among left negated values =>
    have list := blank_list "," fun (v : Literal) (_ : v ∈ values) => v.pieces_blank
    simpa [pieces, blank, left.pieces_blank] using list
  | group connective members ih =>
    have list := blank_list connective.separator ih
    simpa [pieces, blank] using list

end Predicate

end SqlSelect
