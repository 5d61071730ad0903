import SqlSelect.Proofs.Condition.Precedence
import SqlSelect.Proofs.Condition.ReadBack

/-!
The outlines of texts. What a builder makes of columns and criteria is always one factor, and so is
a comparison of two such columns; a condition that is written behind it with `AND` keeps its
outline, except that the comparison joins its first conjunction.
-/
namespace SqlSelect

open Condition

namespace Database

/-- Marks that open other quotes than those of literals or a comment, or end the statement. -/
def foreignMarks : Database → List String
  | mysql => ["\"", "\x60", "#", ";", ":"]
  | postgresql => ["\"", "$", ";"]

/-- Marks that open a comment together, and the connectives that MySQL writes with two marks. -/
def foreignPairs : Database → List (String × String)
  | mysql => [("-", "-"), ("/", "*"), ("|", "|"), ("&", "&")]
  | postgresql => [("-", "-"), ("/", "*")]

/-- PostgreSQL reads a literal behind an `e` with other escapes. -/
def isForeign (d : Database) : Token → Bool
  | .stray text => d.foreignMarks.contains text
  | .name text => d == postgresql && text.toLower == "e"
  | _ => false

def clash (d : Database) : Token → Token → Bool
  | .stray first, .stray second => d.foreignPairs.contains (first, second)
  | _, _ => false

/-- Tokens that say the same to the database as they do here. -/
def Familiar (d : Database) (tokens : List Token) : Prop :=
  (∀ t ∈ tokens, d.isForeign t = false) ∧ tokens.IsChain fun t next => d.clash t next = false

instance (d : Database) (tokens : List Token) : Decidable (d.Familiar tokens) :=
  inferInstanceAs (Decidable (_ ∧ _))

/-- White space other than a blank. -/
def isSpace : Token → Bool
  | .stray text => ["\t", "\n", "\r", "\x0b", "\x0c"].contains text
  | _ => false

/-- The tokens of a text, if the database reads them in the same way. -/
def familiarTokens (d : Database) (text : String) : Option (List Token) :=
  ((d.conditionTokens text).map (List.filter fun t => !isSpace t)).filter (d.Familiar ·)

/-- The outline of a text that is a condition. -/
def outline? (d : Database) (text : String) : Option Outline :=
  (d.familiarTokens text).bind outline

/-- The tokens of a text without connectives of its own. -/
def factor? (d : Database) (text : String) : Option Factor :=
  (d.familiarTokens text).filter fun tokens => Passes .top tokens ∧ tokens ≠ []

variable {d : Database}

theorem familiarTokens_eq_some {text : String} {tokens : List Token} :
    d.familiarTokens text = some tokens ↔
      ∃ pieces, d.scan text.toList = some pieces ∧
        (lex d pieces).filter (fun t => !isSpace t) = tokens ∧ d.Familiar tokens := by
  simp only [familiarTokens, conditionTokens, Option.filter_eq_some_iff, Option.map_eq_some_iff,
    decide_eq_true_eq]
  grind

theorem factor?_eq_some {text : String} {f : Factor} :
    d.factor? text = some f ↔ d.familiarTokens text = some f ∧ Passes .top f ∧ f ≠ [] := by
  simp [factor?, Option.filter_eq_some_iff]

/-- A token that says the same to the database as it does here, whatever follows. -/
structure Calm (d : Database) (t : Token) : Prop where
  known : d.isForeign t = false
  visible : isSpace t = false
  apart : ∀ u, d.clash t u = false

/-- The words and operators of conditions. -/
def isFixed : Token → Bool
  | .stray _ | .name _ => false
  | _ => true

theorem calm_of_isFixed {t : Token} (fixed : isFixed t = true) : d.Calm t := by
  cases t with
  | stray | name => cases fixed
  | _ => exact ⟨rfl, rfl, fun _ => rfl⟩

theorem Familiar.append {first others : List Token} {t : Token} (fixed : isFixed t = true)
    (hfirst : d.Familiar first) (hothers : d.Familiar others) :
    d.Familiar (first ++ t :: others) := by
  have calm : d.Calm t := calm_of_isFixed fixed
  have before (u : Token) : d.clash u t = false := by
    cases t with
    | stray => cases fixed
    | _ => cases u <;> rfl
  refine ⟨?_, List.isChain_append.2 ⟨hfirst.2, ?_, ?_⟩⟩
  · exact List.forall_mem_append.2 ⟨hfirst.1, List.forall_mem_cons.2 ⟨calm.known, hothers.1⟩⟩
  · exact hothers.2.cons fun u _ => calm.apart u
  · intro u _ w mem
    obtain rfl := Option.some.inj mem
    exact before u

/-- Two texts around a word that no mark can spoil. -/
theorem familiarTokens_fence {first others between : String} {before behind : List Token}
    {t : Token} (hfirst : d.familiarTokens first = some before)
    (hothers : d.familiarTokens others = some behind) (fence : Fence between)
    (spells : Spells d between [t]) (fixed : isFixed t = true) :
    d.familiarTokens (first ++ between ++ others) = some (before ++ t :: behind) := by
  obtain ⟨pieces, scanned, rfl, familiar⟩ := familiarTokens_eq_some.1 hfirst
  obtain ⟨more, taken, rfl, known⟩ := familiarTokens_eq_some.1 hothers
  have apart : ∀ c ∈ (between.toList ++ others.toList).head?, c ≠ quoteMark := by
    intro c mem same
    rw [List.head?_append_of_ne_nil _ fence.1] at mem
    exact fence.2 (same ▸ List.mem_of_mem_head? mem)
  have whole : d.scan (first ++ between ++ others).toList =
      some (pieces ++ (words between ++ more)) := by
    rw [String.toList_append, String.toList_append, List.append_assoc,
      d.scan_append scanned apart, scan_words_append d fence.2, taken]
    rfl
  have visible : isSpace t = false := (calm_of_isFixed (d := d) fixed).visible
  refine familiarTokens_eq_some.2 ⟨_, whole, ?_, familiar.append fixed known⟩
  rw [spells.fence, List.filter_append, List.singleton_append,
    List.filter_cons_of_pos (by simp [visible])]

/-- A factor alone is a condition. -/
theorem outline?_of_factor? {text : String} {f : Factor} (h : d.factor? text = some f) :
    d.outline? text = some [[f]] := by
  obtain ⟨familiar, passes, some⟩ := factor?_eq_some.1 h
  rw [outline?, familiar, Option.bind_some, outline_of_passes passes some]

/-- Two factors with an equality sign between them are one factor. -/
theorem factor?_equal {left right : String} {f g : Factor} (hleft : d.factor? left = some f)
    (hright : d.factor? right = some g) :
    d.factor? (left ++ " = " ++ right) = some (f ++ .comparison .equal :: g) := by
  obtain ⟨first, passes, -⟩ := factor?_eq_some.1 hleft
  obtain ⟨second, others, -⟩ := factor?_eq_some.1 hright
  refine factor?_eq_some.2 ⟨?_, passes.append (others.cons rfl), by simp⟩
  exact familiarTokens_fence first second (by decide) (Criterion.spells_comparison .equal) rfl

theorem spells_conjunction : Spells d " AND " [.keyword .and] := by
  cases d <;> exact ⟨by decide, by decide +kernel⟩

/-- A factor joins the first conjunction of a condition that is written behind it with `AND`. -/
theorem outline?_and {text condition : String} {f : Factor} {o : Outline}
    (hfactor : d.factor? text = some f) (hcondition : d.outline? condition = some o) :
    d.outline? (text ++ " AND " ++ condition) = some (o.modifyHead (f :: ·)) := by
  obtain ⟨first, passes, some⟩ := factor?_eq_some.1 hfactor
  obtain ⟨tokens, second, outlined⟩ := Option.bind_eq_some_iff.1 hcondition
  rw [outline?, familiarTokens_fence first second (by decide) spells_conjunction rfl,
    Option.bind_some, outline_and passes some outlined]

end Database

/-- Tokens of one factor that the database reads in the same way. -/
structure Steady (d : Database) (place : Place) (tokens : List Token) : Prop where
  passes : Passes place tokens
  calm : ∀ t ∈ tokens, d.Calm t

namespace Steady

variable {d : Database} {place : Place} {first others : List Token}

theorem nil : Steady d place [] := ⟨rfl, by simp⟩

theorem append (hfirst : Steady d place first) (hothers : Steady d place others) :
    Steady d place (first ++ others) :=
  ⟨hfirst.passes.append hothers.passes, List.forall_mem_append.2 ⟨hfirst.calm, hothers.calm⟩⟩

theorem cons {t : Token} (plain : t.sign = .plain) (calm : d.Calm t)
    (hothers : Steady d place others) : Steady d place (t :: others) :=
  ⟨hothers.passes.cons plain, List.forall_mem_cons.2 ⟨calm, hothers.calm⟩⟩

theorem fixed {t : Token} (plain : t.sign = .plain) (fixed : Database.isFixed t = true)
    (hothers : Steady d place others) : Steady d place (t :: others) :=
  hothers.cons plain (Database.calm_of_isFixed fixed)

theorem enclosed (inner : Steady d ⟨place.depth + 1, place.ranged⟩ first) :
    Steady d place (.opening :: (first ++ [.closing])) := by
  have closing : ∀ t ∈ [Token.closing], d.Calm t := by
    simpa using Database.calm_of_isFixed rfl
  exact ⟨inner.passes.enclosed, List.forall_mem_cons.2
    ⟨Database.calm_of_isFixed rfl, List.forall_mem_append.2 ⟨inner.calm, closing⟩⟩⟩

theorem familiar (h : Steady d place first) : d.Familiar first := by
  refine ⟨fun t mem => (h.calm t mem).known, List.Pairwise.isChain ?_⟩
  exact List.pairwise_of_forall_mem_list fun t mem u _ => (h.calm t mem).apart u

theorem filter_eq (h : Steady d place first) :
    first.filter (fun t => !Database.isSpace t) = first :=
  List.filter_eq_self.2 fun t mem => by simp [(h.calm t mem).visible]

theorem intercalate {separator : List Token} (between : Steady d place separator)
    {items : List (List Token)} (each : ∀ item ∈ items, Steady d place item) :
    Steady d place (separator.intercalate items) := by
  match items with
  | [] => exact nil
  | [item] => simpa using each
  | item :: next :: items =>
    obtain ⟨head, behind⟩ := List.forall_mem_cons.1 each
    rw [List.intercalate_cons_cons, List.append_assoc]
    exact head.append (between.append (between.intercalate behind))

/-- A text with a dot is no mark and no word of the language. -/
theorem dotted {text : String} (dot : '.' ∈ text.toList) :
    Steady d place [.name text] ∧ Steady d place [.stray text] := by
  have lower : '.' ∈ text.toLower.toList := dot_mem_toLower dot
  have sign : wordSign text.toLower = .plain := by
    unfold wordSign
    rw [if_neg (ne_of_dot lower (by decide)), if_neg (ne_of_dot lower (by decide)),
      if_neg (ne_of_dot lower (by decide))]
  have bracket : markSign text = .plain := by
    unfold markSign
    rw [if_neg (ne_of_dot dot (by decide)), if_neg (ne_of_dot dot (by decide))]
  have marks : text ∉ d.foreignMarks := by
    intro mem
    have without : ∀ mark ∈ d.foreignMarks, '.' ∉ mark.toList := by cases d <;> decide
    exact without text mem dot
  have pairs (u : String) : (text, u) ∉ d.foreignPairs := by
    intro mem
    have without : ∀ pair ∈ d.foreignPairs, '.' ∉ pair.1.toList := by cases d <;> decide
    exact without _ mem dot
  have named : d.isForeign (.name text) = false := by
    simp [Database.isForeign, ne_of_dot lower (by decide : '.' ∉ "e".toList)]
  have visible : Database.isSpace (.stray text) = false := by
    have without : ∀ space ∈ ["\t", "\n", "\r", "\x0b", "\x0c"], '.' ∉ space.toList := by decide
    have apart : text ∉ ["\t", "\n", "\r", "\x0b", "\x0c"] := fun mem => without text mem dot
    simpa [Database.isSpace] using apart
  refine ⟨nil.cons sign ⟨named, rfl, fun u => rfl⟩, nil.cons bracket ⟨?_, visible, fun u => ?_⟩⟩
  · simpa [Database.isForeign] using marks
  · cases u with
    | stray u => simpa [Database.clash] using pairs u
    | _ => rfl

theorem literal (content : Literal) : Steady d place [.literal content] :=
  nil.fixed rfl rfl

end Steady

theorem lex_pieces (d : Database) (l : Literal) : lex d l.pieces = [.literal ⟨d, l.content⟩] :=
  lex_literal ⟨d, l.content⟩

section Spelling

variable {d : Database}

/-- The tokens between the arguments of a concatenation. -/
def separatorTokens : Database → List Token
  | .postgresql => [.stray "|", .stray "|"]
  | .mysql => [.comma]

theorem spells_concat : Spells d d.concatSeparator (separatorTokens d) := by
  cases d <;> exact ⟨by decide, by decide +kernel⟩

theorem spells_end : Spells d ")" [.closing] := by
  cases d <;> exact ⟨by decide, by decide +kernel⟩

theorem spells_argument : Spells d ", " [.comma] := by
  cases d <;> exact ⟨by decide, by decide +kernel⟩

theorem steady_separator {place : Place} : Steady d place (separatorTokens d) := by
  cases d with
  | postgresql =>
    have calm : Database.postgresql.Calm (.stray "|") :=
      ⟨by decide, by decide, fun u => by cases u <;> simp [Database.clash, Database.foreignPairs]⟩
    exact (Steady.nil.cons rfl calm).cons rfl calm
  | mysql => exact Steady.nil.fixed rfl rfl

/-- The functions that are called, with the text that opens a call. -/
def calls : List (String × String) :=
  [("LOWER", "LOWER("), ("UPPER", "UPPER("), ("COUNT", "COUNT("), ("CONCAT", "CONCAT("),
    ("TO_CHAR", "TO_CHAR("), ("DATE_FORMAT", "DATE_FORMAT(")]

theorem lex_call (call : String × String) (mem : call ∈ calls) (rest : List Piece) :
    lex d (words call.2 ++ rest) = .name call.1 :: .opening :: lex d rest := by
  have spelled : ∀ call ∈ calls, lex d (words call.2) = [.name call.1, .opening] := by
    cases d <;> decide +kernel
  have ends : ∀ call ∈ calls, call.2.toList.getLast?.any (!isRun ·) := by decide
  rw [lex_words_append d (ends call mem), spelled call mem]
  rfl

theorem steady_call (call : String × String) (mem : call ∈ calls) {place : Place}
    {arguments : List Piece}
    (inner : Steady d ⟨place.depth + 1, place.ranged⟩ (lex d arguments)) :
    Steady d place (lex d (words call.2 ++ (arguments ++ words ")"))) := by
  have plain : ∀ call ∈ calls, wordSign call.1.toLower = .plain := by decide +kernel
  have known : ∀ call ∈ calls, d.isForeign (.name call.1) = false := by cases d <;> decide +kernel
  rw [lex_call call mem, spells_end.close]
  exact inner.enclosed.cons (plain call mem) ⟨known call mem, rfl, fun _ => rfl⟩

/-- All columns of a table are two tokens. -/
theorem lex_all {qualifier : String} (h : Identifier.isIdentifier qualifier.toList = true) :
    lex d (words (qualifier ++ ".*")) =
      [if Identifier.isQualified (qualifier ++ ".").toList then .name (qualifier ++ ".")
        else .stray (qualifier ++ "."), .stray "*"] := by
  have all : ∀ c ∈ (qualifier ++ ".").toList, isWord c = true := by
    intro c mem
    rw [String.toList_append, List.mem_append] at mem
    rcases mem with before | dot
    · exact isWord_of_isIdentifier h before
    · obtain rfl : c = '.' := by simpa using dot
      decide
  have star : lex d (words "*") = [.stray "*"] := by cases d <;> decide +kernel
  have shape : words (qualifier ++ ".*") = words (qualifier ++ ".") ++ words "*" := by
    simp [words]
  have last : (words (qualifier ++ ".")).getLast? = some (.plain '.') := by simp [words]
  have apart : ∀ p ∈ (words (qualifier ++ ".")).getLast?, ∀ q ∈ (words "*").head?,
      joins p q = false := by
    rw [last]
    decide
  rw [shape, lex_append d apart, lex_dotted d (by simp) all, star]
  rfl

end Spelling

namespace Expr

variable {d : Database}

/-- What factories make of columns stands in one factor, at every place. -/
theorem steady_pieces {e : Expr} (h : e.Regular d) (place : Place) :
    Steady d place (lex d e.pieces) := by
  induction e generalizing place with
  | raw => exact h.elim
  | column qualifier name =>
    rw [pieces, lex_name d h.1 h.2]
    exact (Steady.dotted (by simp)).1
  | all qualifier =>
    have calm : d.Calm (.stray "*") :=
      ⟨by cases d <;> decide, by decide, fun u => by
        cases d <;> cases u <;> simp [Database.clash, Database.foreignPairs]⟩
    have star : Steady d place [.stray "*"] := Steady.nil.cons rfl calm
    rw [pieces, lex_all h]
    split
    · exact (Steady.dotted (by simp)).1.append star
    · exact (Steady.dotted (by simp)).2.append star
  | literal content =>
    rw [pieces, lex_pieces]
    exact .literal _
  | lower argument ih => exact steady_call ("LOWER", "LOWER(") (by decide) (ih h _)
  | upper argument ih => exact steady_call ("UPPER", "UPPER(") (by decide) (ih h _)
  | count argument ih => exact steady_call ("COUNT", "COUNT(") (by decide) (ih h _)
  | formatDate database argument pattern ih =>
    obtain ⟨rfl, h⟩ := h
    have isCall : (database.dateFunction, database.dateFunction ++ "(") ∈ calls := by
      cases database <;> decide
    have shape : (formatDate database argument pattern).pieces =
        words (database.dateFunction ++ "(") ++ ((argument.pieces ++
          (words ", " ++ Literal.pieces ⟨database, pattern⟩)) ++ words ")") := by
      simp [pieces]
    rw [shape]
    refine steady_call _ isCall ?_
    rw [spells_argument.fence, lex_pieces]
    exact (ih h _).append ((Steady.literal _).fixed rfl rfl)
  | concat database parts ih =>
    obtain ⟨rfl, h⟩ := h
    have each (inner : Place) :
        ∀ item ∈ (parts.map pieces).map (lex database), Steady database inner item := by
      rw [List.map_map]
      exact List.forall_mem_map.2 fun e mem => ih e mem (allRegular_iff.1 h e mem) inner
    refine steady_call ("CONCAT", "CONCAT(") (by decide) ?_
    rw [allPieces_eq_map, spells_concat.intercalate]
    exact steady_separator.intercalate (each _)

theorem lex_ne_nil {e : Expr} (h : e.Regular d) : lex d e.pieces ≠ [] := by
  cases e with
  | raw => exact h.elim
  | column qualifier name => simp [pieces, lex_name d h.1 h.2]
  | all qualifier => simp [pieces, lex_all (d := d) h]
  | literal content => simp [pieces, lex_pieces]
  | lower argument => simp [pieces, lex_call ("LOWER", "LOWER(") (by decide)]
  | upper argument => simp [pieces, lex_call ("UPPER", "UPPER(") (by decide)]
  | count argument => simp [pieces, lex_call ("COUNT", "COUNT(") (by decide)]
  | formatDate database argument pattern =>
    cases database with
    | postgresql =>
      simp [pieces, Database.dateFunction, lex_call ("TO_CHAR", "TO_CHAR(") (by decide)]
    | mysql =>
      simp [pieces, Database.dateFunction, lex_call ("DATE_FORMAT", "DATE_FORMAT(") (by decide)]
  | concat database parts => simp [pieces, lex_call ("CONCAT", "CONCAT(") (by decide)]

/-- The text of a column from factories is one factor. -/
theorem factor?_text {e : Expr} (h : e.Regular d) : d.factor? e.text = some (lex d e.pieces) := by
  have scanned : d.scan e.text.toList = some e.pieces := by
    rw [← write_pieces h]
    exact scan_write d (separated_pieces h)
  have steady := steady_pieces h .top
  exact Database.factor?_eq_some.2 ⟨Database.familiarTokens_eq_some.2
    ⟨_, scanned, steady.filter_eq, steady.familiar⟩, steady.passes, lex_ne_nil h⟩

end Expr

namespace Predicate

variable {d : Database}

/-- What factories make of values stands in one factor, where no range is open. -/
theorem steady_pieces {p : Predicate} (h : p.Regular d) (depth : Nat) :
    Steady d ⟨depth, false⟩ (lex d p.pieces) := by
  have keyword {word : Keyword} {place : Place} {tokens : List Token}
      (plain : (Token.keyword word).sign = .plain) (others : Steady d place tokens) :
      Steady d place (.keyword word :: tokens) := others.fixed plain rfl
  have column {left : Expr} (regular : left.Regular d) {text : String} {tokens : List Token}
      (spells : Spells d text tokens) {rest : List Piece} {place : Place}
      (others : Steady d place (tokens ++ lex d rest)) :
      Steady d place (lex d (words " " ++ (left.pieces ++ (words text ++ rest)))) := by
    rw [Criterion.spells_blank.append, spells.fence]
    exact (left.steady_pieces regular _).append others
  have last (l : Literal) : lex d (l.pieces ++ words " ") = [.literal ⟨d, l.content⟩] := by
    rw [Criterion.spells_blank.close, lex_pieces]
    rfl
  induction p generalizing depth with
  | raw => exact h.elim
  | compare left comparison right =>
    refine column h.1 (Criterion.spells_comparison comparison) ?_
    rw [last]
    exact (Steady.literal _).fixed rfl rfl
  | among left negated values =>
    have each (place : Place) :
        ∀ item ∈ (values.map Literal.pieces).map (lex d), Steady d place item := by
      rw [List.map_map]
      refine List.forall_mem_map.2 fun v _ => ?_
      rw [Function.comp_apply, lex_pieces]
      exact .literal _
    have comma {place : Place} : Steady d place [.comma] := Steady.nil.fixed rfl rfl
    have list : Steady d ⟨depth, false⟩ _ := (comma.intercalate (each _)).enclosed
    refine column h.1 (Criterion.spells_among negated) ?_
    rw [Criterion.spells_closing.close, Criterion.spells_comma.intercalate]
    cases negated with
    | false => exact keyword rfl list
    | true => exact keyword rfl (keyword rfl list)
  | like left negated pattern =>
    refine column h.1 (Criterion.spells_like negated) ?_
    rw [last]
    cases negated with
    | false => exact keyword rfl (.literal _)
    | true => exact keyword rfl (keyword rfl (.literal _))
  | between left low high =>
    have conjunction : Spells d " and " [.keyword .and] := Criterion.spells_separator .and
    refine column h.1 Criterion.spells_between ?_
    rw [conjunction.fence, last, lex_pieces]
    -- the `and` of the range ends what the word before opened
    refine ⟨by cases depth <;> rfl, fun t mem => Database.calm_of_isFixed ?_⟩
    revert t
    simp [Database.isFixed]
  | isNull left negated =>
    rw [pieces, (Criterion.spells_isNull negated).close]
    refine (left.steady_pieces h _).append ?_
    cases negated with
    | false => exact keyword rfl (keyword rfl .nil)
    | true => exact keyword rfl (keyword rfl (keyword rfl .nil))
  | group connective members ih =>
    have each (depth : Nat) :
        ∀ item ∈ (members.map pieces).map (lex d), Steady d ⟨depth, false⟩ item := by
      rw [List.map_map]
      exact List.forall_mem_map.2 fun p mem => ih p mem (allRegular_iff.1 h p mem) depth
    have inside : Steady d ⟨depth + 1, false⟩ [.keyword connective.keyword] := by
      refine ⟨by cases connective <;> rfl, ?_⟩
      exact List.forall_mem_singleton.2 (Database.calm_of_isFixed rfl)
    rw [pieces, allPieces_eq_map, Criterion.spells_opening.append, Criterion.spells_closing.close,
      (Criterion.spells_separator connective).intercalate]
    exact (inside.intercalate (each _)).enclosed

theorem lex_ne_nil {p : Predicate} (h : p.Regular d) : lex d p.pieces ≠ [] := by
  have column {left : Expr} (regular : left.Regular d) {text : String} {tokens : List Token}
      (spells : Spells d text tokens) (rest : List Piece) :
      lex d (words " " ++ (left.pieces ++ (words text ++ rest))) ≠ [] := by
    rw [Criterion.spells_blank.append, spells.fence]
    simp [left.lex_ne_nil regular]
  cases p with
  | raw => exact h.elim
  | compare left comparison right => exact column h.1 (Criterion.spells_comparison comparison) _
  | among left negated values => exact column h.1 (Criterion.spells_among negated) _
  | like left negated pattern => exact column h.1 (Criterion.spells_like negated) _
  | between left low high => exact column h.1 Criterion.spells_between _
  | isNull left negated => simp [pieces, (Criterion.spells_isNull negated).close]
  | group connective members => simp [pieces, Criterion.spells_opening.append]

/-- The text of a predicate from factories is one factor: the connective of a group stands in its
parentheses, and that of a range belongs to the range. -/
theorem factor?_text {p : Predicate} (h : p.Regular d) :
    d.factor? p.text = some (lex d p.pieces) := by
  have scanned : d.scan p.text.toList = some p.pieces := by
    rw [← write_pieces h]
    exact scan_write d (separated_pieces h)
  have steady := steady_pieces h 0
  exact Database.factor?_eq_some.2 ⟨Database.familiarTokens_eq_some.2
    ⟨_, scanned, steady.filter_eq, steady.familiar⟩, steady.passes, lex_ne_nil h⟩

end Predicate

/-- A condition from factories, over columns from factories, has no connective that is seen from
outside. -/
theorem Criterion.outline?_of_make {d : Database} {c : Criterion} {p : Predicate}
    (made : c.make d = .ok p) (columns : ∀ column ∈ c.columns, column.expr.Regular d) :
    d.outline? p.text = some [[lex d p.pieces]] :=
  Database.outline?_of_factor? (Predicate.factor?_text (regular_of_make made columns))

end SqlSelect
