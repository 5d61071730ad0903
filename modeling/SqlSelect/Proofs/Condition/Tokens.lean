import Mathlib.Data.List.SplitBy
import SqlSelect.Proofs.Condition.Grammar
import SqlSelect.Proofs.Literal.Pieces

/-!
The tokens of a condition's text. Word characters and the characters of operators make up runs as
long as they can be; any other character stands alone, and so does a quoted literal. Keywords are
recognised in upper and lower case.
-/
namespace SqlSelect.Condition

def Keyword.name : Keyword → String
  | and => "and"
  | or => "or"
  | not => "not"
  | among => "in"
  | like => "like"
  | between => "between"
  | is => "is"
  | null => "null"

def Keyword.ofName? (text : String) : Option Keyword :=
  [and, or, not, among, like, between, is, null].find? (·.name == text)

def comparisonOf? (text : String) : Option Comparison :=
  [.equal, .greater, .less, .greaterOrEqual, .lessOrEqual].find? (·.symbol == text)

def isWord (c : Char) : Bool := Identifier.isPart c || c == '.'

def isOperator (c : Char) : Bool := c ∈ ['=', '<', '>', '!']

/-- The two belong to one run. -/
def joins : Piece → Piece → Bool
  | .plain c, .plain next => isWord c && isWord next || isOperator c && isOperator next
  | _, _ => false

/-- The token of a word: a keyword, or the name of a column. -/
def wordToken (text : String) : Token :=
  match Keyword.ofName? text.toLower with
  | some word => .keyword word
  | none => if Identifier.isQualified text.toList then .name text else .stray text

/-- The tokens of a run without literals; a blank is no token. -/
def plainTokens (text : String) : List Token :=
  if text = " " then []
  else if text = "(" then [.opening]
  else if text = ")" then [.closing]
  else if text = "," then [.comma]
  else
    match comparisonOf? text with
    | some comparison => [.comparison comparison]
    | none => [wordToken text]

def runTokens (d : Database) : List Piece → List Token
  | [.literal content] => [.literal ⟨d, String.ofList content⟩]
  | run => plainTokens (String.ofList (run.filterMap Piece.char?))

def lex (d : Database) (pieces : List Piece) : List Token :=
  (pieces.splitBy joins).flatMap (runTokens d)

def isRun (c : Char) : Bool := isWord c || isOperator c

/-- A text that ends the run before it and starts no run. -/
def Delimits (text : String) : Prop :=
  text.toList.head?.any (!isRun ·) ∧ text.toList.getLast?.any (!isRun ·)

instance (text : String) : Decidable (Delimits text) := inferInstanceAs (Decidable (_ ∧ _))

theorem Delimits.head {text : String} (h : Delimits text) :
    ∃ c, text.toList.head? = some c ∧ isRun c = false := by
  simpa [Option.any_eq_true] using h.1

variable (d : Database)

theorem lex_append {first others : List Piece}
    (apart : ∀ p ∈ first.getLast?, ∀ q ∈ others.head?, joins p q = false) :
    lex d (first ++ others) = lex d first ++ lex d others := by
  rw [lex, List.splitBy_append apart, List.flatMap_append]
  rfl

theorem joins_left {c : Char} (h : isRun c = false) (p : Piece) : joins (.plain c) p = false := by
  obtain ⟨word, operator⟩ := Bool.or_eq_false_iff.1 h
  cases p <;> simp [joins, word, operator]

theorem joins_right {c : Char} (h : isRun c = false) (p : Piece) : joins p (.plain c) = false := by
  obtain ⟨word, operator⟩ := Bool.or_eq_false_iff.1 h
  cases p <;> simp [joins, word, operator]

/-- A text that ends no run within what follows is taken apart by itself. -/
theorem lex_words_append {text : String} (ends : text.toList.getLast?.any (!isRun ·))
    (others : List Piece) :
    lex d (words text ++ others) = lex d (words text) ++ lex d others := by
  obtain ⟨c, there, outside⟩ : ∃ c, text.toList.getLast? = some c ∧ isRun c = false := by
    simpa [Option.any_eq_true] using ends
  apply lex_append
  intro p last q _
  obtain rfl : .plain c = p := by simpa [words, there] using last
  exact joins_left outside q

theorem runTokens_words (text : String) : runTokens d (words text) = plainTokens text := by
  have chars : (words text).filterMap Piece.char? = text.toList := by
    rw [words, List.filterMap_map]
    exact List.filterMap_some
  rw [runTokens, chars, String.ofList_toList]
  intro content same
  cases there : text.toList <;> simp [words, there] at same

/-- The text ends the run before it, starts none, and has these tokens. -/
structure Spells (text : String) (tokens : List Token) : Prop where
  delimits : Delimits text
  tokens : lex d (words text) = tokens

namespace Spells

variable {d} {text : String} {tokens : List Token} (h : Spells d text tokens)
include h

theorem append (others : List Piece) : lex d (words text ++ others) = tokens ++ lex d others := by
  rw [lex_words_append d h.delimits.2, h.tokens]

theorem fence (first others : List Piece) :
    lex d (first ++ (words text ++ others)) = lex d first ++ (tokens ++ lex d others) := by
  rw [lex_append, h.append]
  intro p _ q next
  obtain ⟨c, there, outside⟩ := h.delimits.head
  obtain rfl : .plain c = q := by simpa [words, there] using next
  exact joins_right outside p

theorem close (first : List Piece) : lex d (first ++ words text) = lex d first ++ tokens := by
  have fenced := h.fence first []
  rwa [List.append_nil, show lex d [] = [] from rfl, List.append_nil] at fenced

theorem intercalate (items : List (List Piece)) :
    lex d ((words text).intercalate items) = tokens.intercalate (items.map (lex d)) := by
  match items with
  | [] => rfl
  | [item] => simp
  | first :: second :: others =>
    have behind := intercalate (second :: others)
    rw [List.intercalate_cons_cons, List.append_assoc, h.fence, behind]
    simp [List.intercalate_cons_cons]

end Spells

theorem lex_literal (l : Literal) : lex l.database l.pieces = [.literal l] := by
  simp [lex, Literal.pieces, List.splitBy, List.splitBy.loop, runTokens]

section Dotted

/-! A text with a dot is no keyword and no operator. -/

variable {text : String} (dot : '.' ∈ text.toList)
include dot

theorem ne_of_dot {other : String} (without : '.' ∉ other.toList) : text ≠ other := by
  rintro rfl
  exact without dot

theorem dot_mem_toLower : '.' ∈ text.toLower.toList := by
  show '.' ∈ (text.map Char.toLower).toList
  rw [String.toList_map]
  exact List.mem_map.2 ⟨'.', dot, by decide⟩

theorem comparisonOf?_dotted : comparisonOf? text = none := by
  cases found : comparisonOf? text with
  | none => rfl
  | some comparison =>
    have same : comparison.symbol = text := by
      simpa using List.find?_some found
    exact absurd same.symm (ne_of_dot dot (by cases comparison <;> decide))

theorem keywordOf?_dotted : Keyword.ofName? text.toLower = none := by
  cases found : Keyword.ofName? text.toLower with
  | none => rfl
  | some word =>
    have same : word.name = text.toLower := by
      simpa using List.find?_some found
    have without : '.' ∉ word.name.toList := by cases word <;> decide
    exact absurd (dot_mem_toLower dot) (same ▸ without)

theorem plainTokens_dotted : plainTokens text =
    [if Identifier.isQualified text.toList then .name text else .stray text] := by
  rw [plainTokens, if_neg (ne_of_dot dot (by decide)), if_neg (ne_of_dot dot (by decide)),
    if_neg (ne_of_dot dot (by decide)), if_neg (ne_of_dot dot (by decide)),
    comparisonOf?_dotted dot, wordToken, keywordOf?_dotted dot]

/-- Word characters with a dot among them are one token. -/
theorem lex_dotted (all : ∀ c ∈ text.toList, isWord c = true) :
    lex d (words text) =
      [if Identifier.isQualified text.toList then .name text else .stray text] := by
  have chained : (words text).IsChain fun p q => joins p q = true := by
    apply List.Pairwise.isChain
    apply List.pairwise_of_forall_mem_list
    intro p first q second
    obtain ⟨c, inside, rfl⟩ := List.mem_map.1 first
    obtain ⟨next, within, rfl⟩ := List.mem_map.1 second
    simp [joins, all c inside, all next within]
  have some : words text ≠ [] := by
    intro none
    rw [List.map_eq_nil_iff.1 none] at dot
    cases dot
  rw [lex, List.splitBy_of_isChain some chained, List.flatMap_singleton, runTokens_words,
    plainTokens_dotted dot]

end Dotted

theorem isWord_of_isIdentifier {name : List Char} (h : Identifier.isIdentifier name = true)
    {c : Char} (mem : c ∈ name) : isWord c = true := by
  simp [isWord, Identifier.isPart_of_mem h mem]

section Names

variable {qualifier name : String} (hqualifier : Identifier.isIdentifier qualifier.toList = true)
  (hname : Identifier.isIdentifier name.toList = true)

include hqualifier hname

theorem isQualified_name :
    Identifier.isQualified (qualifier ++ "." ++ name).toList = true := by
  have before : ∀ c ∈ qualifier.toList, (c != '.') = true := by
    intro c mem
    have part := Identifier.isPart_of_mem hqualifier mem
    have dot : Identifier.isPart '.' = false := by decide
    exact bne_iff_ne.2 fun same => by simp [same, dot] at part
  have shape : (qualifier ++ "." ++ name).toList = qualifier.toList ++ '.' :: name.toList := by
    simp
  rw [shape, Identifier.isQualified, List.dropWhile_append_of_pos before,
    List.takeWhile_append_of_pos before]
  simp [hqualifier, hname]

/-- A qualified name is one token. -/
theorem lex_name :
    lex d (words (qualifier ++ "." ++ name)) = [.name (qualifier ++ "." ++ name)] := by
  have all : ∀ c ∈ (qualifier ++ "." ++ name).toList, isWord c = true := by
    intro c mem
    simp only [String.toList_append, List.mem_append] at mem
    rcases mem with (before | dot) | behind
    · exact isWord_of_isIdentifier hqualifier before
    · obtain rfl : c = '.' := by simpa using dot
      decide
    · exact isWord_of_isIdentifier hname behind
  rw [lex_dotted d (by simp) all, if_pos (isQualified_name hqualifier hname)]

end Names

end SqlSelect.Condition
