import SqlSelect.Literal

/-!
String literals as the databases read them. A literal that was quoted is read back as it was and
ends where its closing quote stands, whatever it holds; so a text put together from plain
characters and quoted literals is taken apart into the same pieces.
-/
namespace SqlSelect

namespace Database

/-- MySQL takes the character after a backslash as it is; PostgreSQL knows no such escape. -/
def escapes (d : Database) (c : Char) : Bool := d == mysql && c == '\\'

/-- Reads a literal from behind its opening quote: its content, and what follows the closing one.
A quote written twice stands for one. -/
def readLiteral (d : Database) : List Char → Option (List Char × List Char)
  | [] => none
  | [c] => if c = quoteMark then some ([], []) else none
  | c :: next :: rest =>
    if c = quoteMark then
      if next = quoteMark then (d.readLiteral rest).map fun read => (quoteMark :: read.1, read.2)
      else some ([], next :: rest)
    else if d.escapes c then (d.readLiteral rest).map fun read => (next :: read.1, read.2)
    else (d.readLiteral (next :: rest)).map fun read => (c :: read.1, read.2)

variable (d : Database)

theorem readLiteral_closed {rest : List Char} (following : ∀ c ∈ rest.head?, c ≠ quoteMark) :
    d.readLiteral (quoteMark :: rest) = some ([], rest) := by
  cases rest with
  | nil => simp [readLiteral]
  | cons c rest => simpa [readLiteral] using following

theorem readLiteral_plain {c : Char} (plain : c ≠ quoteMark) (unescaped : d.escapes c = false)
    (rest : List Char) :
    d.readLiteral (c :: rest) = (d.readLiteral rest).map fun read => (c :: read.1, read.2) := by
  cases rest with
  | nil => simp [readLiteral, plain]
  | cons next rest => simp [readLiteral, plain, unescaped]

theorem readLiteral_escapeChar (c : Char) (rest : List Char) :
    d.readLiteral (d.escapeChar c ++ rest) =
      (d.readLiteral rest).map fun read => (c :: read.1, read.2) := by
  cases d with
  | postgresql =>
    by_cases quote : c = quoteMark
    · simp [escapeChar, quote, readLiteral]
    · simpa [escapeChar, quote] using readLiteral_plain postgresql quote rfl rest
  | mysql =>
    by_cases special : c = '\\' ∨ c = quoteMark
    · have different : '\\' ≠ quoteMark := by decide
      simp [escapeChar, special, readLiteral, different, escapes]
    · obtain ⟨slash, quote⟩ := not_or.1 special
      simpa [escapeChar, special] using
        readLiteral_plain mysql quote (by simpa [escapes] using slash) rest

/-- What was quoted is read back and leaves what follows, unless another quote follows. -/
theorem readLiteral_quoted (content : List Char) {rest : List Char}
    (following : ∀ c ∈ rest.head?, c ≠ quoteMark) :
    d.readLiteral (content.flatMap d.escapeChar ++ quoteMark :: rest) = some (content, rest) := by
  induction content with
  | nil => exact d.readLiteral_closed following
  | cons c content ih =>
    rw [List.flatMap_cons, List.append_assoc, readLiteral_escapeChar, ih]
    rfl

theorem length_readLiteral {chars : List Char} {read : List Char × List Char}
    (h : d.readLiteral chars = some read) : read.2.length < chars.length := by
  fun_induction readLiteral d chars generalizing read with
  | case1 => simp at h
  | case2 =>
    obtain rfl := Option.some.inj h
    simp
  | case3 => simp at h
  | case5 =>
    obtain rfl := Option.some.inj h
    simp
  | case4 | case6 | case7 =>
    rename_i ih
    obtain ⟨inner, there, rfl⟩ := Option.map_eq_some_iff.1 h
    have := ih there
    simp only [List.length_cons] at this ⊢
    omega

end Database

/-- A character outside of literals, or the content of one. -/
inductive Piece where
  | plain (c : Char)
  | literal (content : List Char)
deriving DecidableEq, Repr

namespace Piece

def chars (d : Database) : Piece → List Char
  | plain c => [c]
  | literal content => d.quoteChars content

/-- The piece without what a literal holds. -/
def blank : Piece → Piece
  | plain c => plain c
  | literal _ => literal []

def content? : Piece → Option (List Char)
  | plain _ => none
  | literal content => some content

def char? : Piece → Option Char
  | plain c => some c
  | literal _ => none

end Piece

/-- Takes a text apart; there is no answer if it ends within a literal. -/
def Database.scan (d : Database) : List Char → Option (List Piece)
  | [] => some []
  | c :: rest =>
    if c = quoteMark then
      match h : d.readLiteral rest with
      | none => none
      | some (content, after) =>
        have := d.length_readLiteral h
        (scan d after).map (.literal content :: ·)
    else (scan d rest).map (.plain c :: ·)
termination_by chars => chars.length
decreasing_by all_goals simp_all <;> omega

example : Database.postgresql.scan "a='O''Brien'".toList =
    some [.plain 'a', .plain '=', .literal "O'Brien".toList] := by cbv

namespace Database

variable (d : Database)

theorem scan_plain {c : Char} (plain : c ≠ quoteMark) (rest : List Char) :
    d.scan (c :: rest) = (d.scan rest).map (.plain c :: ·) := by
  rw [scan, if_neg plain]

theorem scan_literal {content rest after : List Char}
    (read : d.readLiteral rest = some (content, after)) :
    d.scan (quoteMark :: rest) = (d.scan after).map (.literal content :: ·) := by
  rw [scan, if_pos rfl]
  split
  · next none => simp [read] at none
  · next other =>
    rw [read] at other
    obtain ⟨rfl, rfl⟩ := Prod.mk.inj (Option.some.inj other)
    rfl

/-- A literal is read the same whatever follows, but for another quote. -/
theorem readLiteral_append {chars content after more : List Char}
    (read : d.readLiteral chars = some (content, after))
    (following : ∀ c ∈ more.head?, c ≠ quoteMark) :
    d.readLiteral (chars ++ more) = some (content, after ++ more) := by
  fun_induction readLiteral d chars generalizing content after with
  | case1 => cases read
  | case2 =>
    obtain ⟨rfl, rfl⟩ := Prod.mk.inj (Option.some.inj read)
    exact d.readLiteral_closed following
  | case3 => cases read
  | case5 next rest other =>
    obtain ⟨rfl, rfl⟩ := Prod.mk.inj (Option.some.inj read)
    simp [readLiteral, other]
  | case4 rest ih =>
    obtain ⟨inner, there, same⟩ := Option.map_eq_some_iff.1 read
    obtain ⟨rfl, rfl⟩ := Prod.mk.inj same
    simp [readLiteral, ih there]
  | case6 c next rest plain escaped ih =>
    obtain ⟨inner, there, same⟩ := Option.map_eq_some_iff.1 read
    obtain ⟨rfl, rfl⟩ := Prod.mk.inj same
    simp [readLiteral, plain, escaped, ih there]
  | case7 c next rest plain unescaped ih =>
    obtain ⟨inner, there, same⟩ := Option.map_eq_some_iff.1 read
    obtain ⟨rfl, rfl⟩ := Prod.mk.inj same
    have behind := ih there
    rw [List.cons_append] at behind
    simp [readLiteral, plain, unescaped, behind]

/-- Two texts are taken apart one after the other, unless a quote stands where they meet. -/
theorem scan_append {chars more : List Char} {pieces : List Piece}
    (scanned : d.scan chars = some pieces) (following : ∀ c ∈ more.head?, c ≠ quoteMark) :
    d.scan (chars ++ more) = (d.scan more).map (pieces ++ ·) := by
  fun_induction scan d chars generalizing pieces with
  | case1 =>
    obtain rfl := Option.some.inj scanned
    simp
  | case2 => cases scanned
  | case3 rest content after read _ ih =>
    obtain ⟨others, there, rfl⟩ := Option.map_eq_some_iff.1 scanned
    rw [List.cons_append, d.scan_literal (d.readLiteral_append read following), ih there,
      Option.map_map]
    rfl
  | case4 c rest plain ih =>
    obtain ⟨others, there, rfl⟩ := Option.map_eq_some_iff.1 scanned
    rw [List.cons_append, d.scan_plain plain, ih there, Option.map_map]
    rfl

end Database

/-- The text that the pieces make up. -/
def Database.write (d : Database) (pieces : List Piece) : List Char :=
  pieces.flatMap (Piece.chars d)

@[simp] theorem write_nil (d : Database) : d.write [] = [] := rfl

@[simp] theorem write_plain (d : Database) (c : Char) (pieces : List Piece) :
    d.write (.plain c :: pieces) = c :: d.write pieces := rfl

@[simp] theorem write_literal (d : Database) (content : List Char) (pieces : List Piece) :
    d.write (.literal content :: pieces) = d.quoteChars content ++ d.write pieces := rfl

@[simp] theorem write_append (d : Database) (first others : List Piece) :
    d.write (first ++ others) = d.write first ++ d.write others := List.flatMap_append

/-- Pieces that can be told apart in their text: quotes stand in literals only, and no literal
follows directly on another. -/
def Separated : List Piece → Prop
  | [] => True
  | .plain c :: rest => c ≠ quoteMark ∧ Separated rest
  | .literal _ :: rest => (∀ content, .literal content ∉ rest.head?) ∧ Separated rest

theorem scan_write (d : Database) {pieces : List Piece} (h : Separated pieces) :
    d.scan (d.write pieces) = some pieces := by
  induction pieces with
  | nil => simp [Database.scan]
  | cons p pieces ih =>
    cases p with
    | plain c =>
      obtain ⟨plain, rest⟩ := h
      rw [write_plain, d.scan_plain plain, ih rest]
      rfl
    | literal content =>
      obtain ⟨apart, rest⟩ := h
      have following : ∀ c ∈ (d.write pieces).head?, c ≠ quoteMark := by
        rcases pieces with - | ⟨c | _, pieces⟩
        · simp
        · simpa using rest.1
        · simp at apart
      have read := d.readLiteral_quoted content following
      rw [write_literal, Database.quoteChars, List.cons_append, List.append_assoc,
        List.singleton_append, d.scan_literal read, ih rest]
      rfl

/-- A text without literals, as pieces. -/
def words (text : String) : List Piece := text.toList.map .plain

@[simp] theorem write_words (d : Database) (text : String) :
    d.write (words text) = text.toList := by
  unfold words
  induction text.toList with
  | nil => rfl
  | cons c chars ih => simp [ih]

theorem scan_words_append (d : Database) {text : String} (plain : quoteMark ∉ text.toList)
    (rest : List Char) : d.scan (text.toList ++ rest) = (d.scan rest).map (words text ++ ·) := by
  unfold words
  generalize text.toList = chars at plain ⊢
  induction chars with
  | nil => simp
  | cons c chars ih =>
    rw [List.mem_cons, not_or] at plain
    rw [List.cons_append, d.scan_plain (Ne.symm plain.1), ih plain.2, Option.map_map]
    rfl

private theorem write_intercalate (d : Database) (separator : String) (items : List (List Piece)) :
    d.write ((words separator).intercalate items) =
      separator.toList.intercalate (items.map d.write) := by
  match items with
  | [] => rfl
  | [item] => simp
  | first :: second :: others =>
    simp only [List.intercalate_cons_cons, List.map_cons, write_append, write_words]
    rw [write_intercalate d separator (second :: others), List.map_cons]

@[simp] theorem contents_words (text : String) : (words text).filterMap Piece.content? = [] := by
  simp [words, Piece.content?]

@[simp] theorem blank_words (text : String) : (words text).map Piece.blank = words text := by
  simp [words, Piece.blank]

private theorem contents_intercalate (separator : String) (items : List (List Piece)) :
    ((words separator).intercalate items).filterMap Piece.content? =
      items.flatMap (List.filterMap Piece.content?) := by
  match items with
  | [] => rfl
  | [item] => simp
  | first :: second :: others =>
    rw [List.intercalate_cons_cons, List.filterMap_append, List.filterMap_append, contents_words,
      contents_intercalate separator (second :: others), List.append_nil]
    rfl

private theorem blank_intercalate (separator : String) (items : List (List Piece)) :
    ((words separator).intercalate items).map Piece.blank =
      (words separator).intercalate (items.map (List.map Piece.blank)) := by
  match items with
  | [] => rfl
  | [item] => simp
  | first :: second :: others =>
    rw [List.intercalate_cons_cons, List.map_append, List.map_append, blank_words,
      blank_intercalate separator (second :: others)]
    simp only [List.map_cons, List.intercalate_cons_cons]

section Lists

/-! Lists of items that are written with a separator between them. -/

variable {α : Type} {items : List α} {pieces : α → List Piece} (separator : String)

theorem write_list {d : Database} {text : α → String}
    (h : ∀ x ∈ items, d.write (pieces x) = (text x).toList) :
    d.write ((words separator).intercalate (items.map pieces)) =
      (separator.intercalate (items.map text)).toList := by
  rw [write_intercalate, String.toList_intercalate, List.map_map, List.map_map]
  exact congrArg _ (List.map_congr_left h)

theorem contents_list {strings : α → List String}
    (h : ∀ x ∈ items, (pieces x).filterMap Piece.content? = (strings x).map String.toList) :
    ((words separator).intercalate (items.map pieces)).filterMap Piece.content? =
      (items.flatMap strings).map String.toList := by
  rw [contents_intercalate, List.flatMap_map, List.map_flatMap, List.flatMap_def, List.flatMap_def,
    List.map_congr_left h]

theorem blank_list {blank : α → α}
    (h : ∀ x ∈ items, pieces (blank x) = (pieces x).map Piece.blank) :
    (words separator).intercalate ((items.map blank).map pieces) =
      ((words separator).intercalate (items.map pieces)).map Piece.blank := by
  rw [blank_intercalate, List.map_map, List.map_map]
  exact congrArg _ (List.map_congr_left h)

end Lists

/-- A text that can stand between any two pieces. -/
def Fence (text : String) : Prop := text.toList ≠ [] ∧ quoteMark ∉ text.toList

instance (text : String) : Decidable (Fence text) := inferInstanceAs (Decidable (_ ∧ _))

namespace Separated

theorem nil : Separated [] := trivial

theorem words_append {text : String} (plain : quoteMark ∉ text.toList) {pieces : List Piece}
    (h : Separated pieces) : Separated (words text ++ pieces) := by
  unfold words
  generalize text.toList = chars at plain ⊢
  induction chars with
  | nil => exact h
  | cons c chars ih =>
    rw [List.mem_cons, not_or] at plain
    exact ⟨Ne.symm plain.1, ih plain.2⟩

end Separated

/-- Pieces that can follow any others. -/
structure Follows (pieces : List Piece) : Prop where
  separated : Separated pieces
  plain : ∀ content, .literal content ∉ pieces.head?

theorem follows_nil : Follows [] := ⟨Separated.nil, by simp⟩

theorem follows_words (text : String) (plain : quoteMark ∉ text.toList) : Follows (words text) := by
  refine ⟨by simpa using Separated.nil.words_append plain, ?_⟩
  cases chars : text.toList <;> simp [words, chars]

/-- Behind a fence there can be a literal. -/
theorem Fence.follows {text : String} (h : Fence text) {pieces : List Piece}
    (separated : Separated pieces) : Follows (words text ++ pieces) := by
  refine ⟨separated.words_append h.2, ?_⟩
  cases chars : text.toList with
  | nil => exact absurd chars h.1
  | cons c chars => simp [words, *]

namespace Separated

theorem append {first others : List Piece} (hfirst : Separated first) (hothers : Follows others) :
    Separated (first ++ others) := by
  induction first with
  | nil => exact hothers.separated
  | cons p first ih =>
    cases p with
    | plain c => exact ⟨hfirst.1, ih hfirst.2⟩
    | literal content =>
      refine ⟨?_, ih hfirst.2⟩
      cases first with
      | nil => exact hothers.plain
      | cons q first => simpa using hfirst.1

/-- Pieces stay separated around a fence. -/
theorem fence {first others : List Piece} (hfirst : Separated first) (hothers : Separated others)
    {text : String} (between : Fence text) : Separated (first ++ (words text ++ others)) :=
  hfirst.append (between.follows hothers)

theorem close {pieces : List Piece} (h : Separated pieces) {text : String} (behind : Fence text) :
    Separated (pieces ++ words text) := by
  simpa using h.fence Separated.nil behind

private theorem intercalate {items : List (List Piece)} (h : ∀ item ∈ items, Separated item)
    {text : String} (between : Fence text) : Separated ((words text).intercalate items) := by
  match items with
  | [] => exact trivial
  | [item] => simpa using h
  | first :: second :: others =>
    rw [List.intercalate_cons_cons, List.append_assoc]
    refine (h first List.mem_cons_self).fence ?_ between
    exact intercalate (fun item mem => h item (List.mem_cons_of_mem _ mem)) between

theorem list {α : Type} {items : List α} {pieces : α → List Piece}
    (h : ∀ x ∈ items, Separated (pieces x)) (separator : String) (between : Fence separator) :
    Separated ((words separator).intercalate (items.map pieces)) :=
  Separated.intercalate (List.forall_mem_map.2 h) between

end Separated

theorem Follows.append {first others : List Piece} (hfirst : Follows first)
    (hothers : Follows others) : Follows (first ++ others) := by
  refine ⟨hfirst.separated.append hothers, ?_⟩
  cases first with
  | nil => exact hothers.plain
  | cons p first => simpa using hfirst.plain

end SqlSelect
