import Mathlib
import SqlSelect.Proofs.Literal.Pieces

/-!
What the patterns of LIKE match. A pattern is a value with wildcards put around it, and nothing
marks the characters of the value that a pattern does not take as they are. So a mode matches what
it says, that the value is contained in a word, begins it or ends it, exactly for values without
such characters.
-/
namespace SqlSelect

/-- What stands in a pattern: a character, a place for any one character, or for any run of them. -/
inductive LikeToken where
  | char (c : Char)
  | one
  | run
deriving DecidableEq, Repr

namespace LikeToken

def matches? : List LikeToken → List Char → Bool
  | [], word => word.isEmpty
  | char c :: tokens, word =>
    match word with
    | [] => false
    | first :: others => first == c && matches? tokens others
  | one :: tokens, word =>
    match word with
    | [] => false
    | _ :: others => matches? tokens others
  | run :: tokens, word => word.tails.any (matches? tokens)

variable {tokens : List LikeToken} {word : List Char}

theorem matches_nil_iff : matches? [] word = true ↔ word = [] := List.isEmpty_iff

theorem matches_run_iff :
    matches? (run :: tokens) word = true ↔ ∃ others, others <:+ word ∧ matches? tokens others := by
  simp [matches?]

theorem matches_chars_iff {chars : List Char} : matches? (chars.map char ++ tokens) word = true ↔
    ∃ others, word = chars ++ others ∧ matches? tokens others = true := by
  induction chars generalizing word with
  | nil => simp
  | cons c chars ih =>
    cases word with
    | nil => simp [matches?]
    | cons first word =>
      have next := @ih word
      simp only [List.map_cons, List.cons_append, matches?, Bool.and_eq_true, beq_iff_eq, next]
      constructor
      · rintro ⟨rfl, others, rfl, rest⟩
        exact ⟨others, rfl, rest⟩
      · rintro ⟨others, same, rest⟩
        obtain ⟨rfl, rfl⟩ := List.cons.inj same
        exact ⟨rfl, others, rfl, rest⟩

/-- The shortest word that the tokens match, with the same character in every free place. -/
def filled (free : Char) (tokens : List LikeToken) : List Char :=
  tokens.flatMap fun
    | char c => [c]
    | one => [free]
    | run => []

@[simp] theorem filled_nil (free : Char) : filled free [] = [] := rfl

@[simp] theorem filled_char (free c : Char) :
    filled free (char c :: tokens) = c :: filled free tokens := rfl

@[simp] theorem filled_one (free : Char) :
    filled free (one :: tokens) = free :: filled free tokens := rfl

@[simp] theorem filled_run (free : Char) : filled free (run :: tokens) = filled free tokens := rfl

theorem matches_filled (free : Char) (tokens : List LikeToken) :
    matches? tokens (filled free tokens) = true := by
  induction tokens with
  | nil => rfl
  | cons token tokens ih =>
    cases token with
    | char c | one => simp [matches?, ih]
    | run => exact matches_run_iff.2 ⟨_, List.suffix_rfl, ih⟩

end LikeToken

open LikeToken

/-- What a backslash at the end of a pattern stands for: itself, for MySQL. PostgreSQL refuses the
pattern. -/
def Database.lastEscape : Database → Option (List LikeToken)
  | postgresql => none
  | mysql => some [char '\\']

/-- Reads a pattern; the character after a backslash stands for itself. -/
def Database.readPattern (d : Database) : List Char → Option (List LikeToken)
  | [] => some []
  | ['\\'] => d.lastEscape
  | '\\' :: c :: rest => (d.readPattern rest).map (char c :: ·)
  | '%' :: rest => (d.readPattern rest).map (run :: ·)
  | '_' :: rest => (d.readPattern rest).map (one :: ·)
  | c :: rest => (d.readPattern rest).map (char c :: ·)

/-- Whether a word is like a pattern, if the pattern can be read. -/
def Database.like? (d : Database) (pattern word : List Char) : Option Bool :=
  (d.readPattern pattern).map (matches? · word)

/-- What a mode says of a value and a word. -/
def LikeMode.Describes (mode : LikeMode) (value word : List Char) : Prop :=
  match mode with
  | anywhere => value <:+: word
  | start => value <+: word
  | finish => value <:+ word

/-- A character that a pattern takes as it is. -/
def Verbatim (c : Char) : Prop := c ≠ '%' ∧ c ≠ '_' ∧ c ≠ '\\'

instance (c : Char) : Decidable (Verbatim c) := inferInstanceAs (Decidable (_ ∧ _))

/-- Values that a pattern of the mode takes as they are: those without a character that it does not,
and for MySQL a backslash that ends the pattern. -/
def LikeMode.Keeps (mode : LikeMode) (d : Database) (value : List Char) : Prop :=
  (∀ c ∈ value, Verbatim c) ∨ (d = .mysql ∧ mode = .finish ∧
    ∃ before, (∀ c ∈ before, Verbatim c) ∧ value = before ++ ['\\'])

namespace LikeMode

/-- What a pattern has in front of the value. -/
def opening : LikeMode → List Char
  | start => []
  | _ => ['%']

/-- What a pattern has behind the value. -/
def closing : LikeMode → List Char
  | finish => []
  | _ => ['%']

theorem toList_pattern (mode : LikeMode) (content : String) :
    (mode.pattern content).toList = mode.opening ++ (content.toList ++ mode.closing) := by
  cases mode <;> simp [pattern, wildcard, opening, closing]

/-- The pattern of a mode, with every character of the value taken as it is. -/
def tokens (mode : LikeMode) (value : List Char) : List LikeToken :=
  match mode with
  | anywhere => run :: (value.map char ++ [run])
  | start => value.map char ++ [run]
  | finish => run :: (value.map char ++ [])

theorem matches_tokens_iff (mode : LikeMode) (value word : List Char) :
    matches? (mode.tokens value) word = true ↔ mode.Describes value word := by
  have all (word : List Char) : matches? [run] word = true :=
    matches_run_iff.2 ⟨[], List.nil_suffix, rfl⟩
  have begins (word : List Char) :
      matches? (value.map char ++ [run]) word = true ↔ value <+: word := by
    rw [matches_chars_iff]
    exact ⟨fun ⟨others, same, _⟩ => ⟨others, same.symm⟩,
      fun ⟨others, same⟩ => ⟨others, same.symm, all others⟩⟩
  cases mode with
  | anywhere =>
    rw [tokens, matches_run_iff, Describes, List.infix_iff_prefix_suffix]
    simp only [begins, and_comm]
  | start => exact begins word
  | finish =>
    rw [tokens, matches_run_iff]
    simp only [matches_chars_iff, matches_nil_iff]
    constructor
    · rintro ⟨_, suffix, _, rfl, rfl⟩
      rw [List.append_nil] at suffix
      exact suffix
    · intro suffix
      exact ⟨value, suffix, [], by simp, rfl⟩

theorem Describes.refl (mode : LikeMode) (value : List Char) : mode.Describes value value := by
  cases mode
  · exact List.infix_rfl
  · exact List.prefix_rfl
  · exact List.suffix_rfl

theorem Describes.eq {mode : LikeMode} {value word : List Char} (h : mode.Describes value word)
    (short : word.length ≤ value.length) : word = value := by
  have inside : value <:+: word := by
    cases mode
    · exact h
    · exact List.IsPrefix.isInfix h
    · exact List.IsSuffix.isInfix h
  exact (inside.eq_of_length (Nat.le_antisymm inside.length_le short)).symm

end LikeMode

namespace Database

variable {d : Database}

theorem readPattern_verbatim {c : Char} (h : Verbatim c) (rest : List Char) :
    d.readPattern (c :: rest) = (d.readPattern rest).map (char c :: ·) := by
  rw [readPattern] <;> simp_all [Verbatim]

/-- What is left when no other case of the reading applies. -/
theorem verbatim_of_read {c : Char} {rest : List Char} (lone : c = '\\' → rest = [] → False)
    (escape : ∀ next others, c = '\\' → rest = next :: others → False)
    (run : c = '%' → False) (one : c = '_' → False) : Verbatim c := by
  refine ⟨run, one, fun slash => ?_⟩
  cases rest with
  | nil => exact lone slash rfl
  | cons next others => exact escape next others slash rfl

theorem lastEscape_eq_some_iff {tokens : List LikeToken} :
    d.lastEscape = some tokens ↔ d = mysql ∧ tokens = [char '\\'] := by
  cases d <;> simp [lastEscape, eq_comm]

theorem readPattern_append {value : List Char} (h : ∀ c ∈ value, Verbatim c) (rest : List Char) :
    d.readPattern (value ++ rest) = (d.readPattern rest).map (value.map char ++ ·) := by
  induction value with
  | nil => simp
  | cons c value ih =>
    obtain ⟨first, others⟩ := List.forall_mem_cons.1 h
    rw [List.cons_append, readPattern_verbatim first, ih others, Option.map_map]
    rfl

section Filled

variable {mode : LikeMode} {value : List Char} {tokens : List LikeToken}

/-- The induction is on the reading of the value. Each token takes a character of it at least; the
wildcard behind it is read as a character only together with a backslash. -/
theorem length_filled_le (free : Char)
    (read : d.readPattern (value ++ mode.closing) = some tokens) :
    (filled free tokens).length ≤ value.length := by
  fun_induction d.readPattern value generalizing tokens with
  | case1 => cases mode <;> cases read <;> simp
  | case2 =>
    cases mode with
    | anywhere | start =>
      cases read
      simp
    | finish =>
      obtain ⟨-, rfl⟩ := lastEscape_eq_some_iff.1 read
      simp
  | case3 c rest ih | case4 rest ih | case5 rest ih =>
    obtain ⟨others, there, rfl⟩ := Option.map_eq_some_iff.1 read
    have := ih there
    simp
    omega
  | case6 c rest lone escape run one ih =>
    rw [List.cons_append, readPattern_verbatim (verbatim_of_read lone escape run one)] at read
    obtain ⟨others, there, rfl⟩ := Option.map_eq_some_iff.1 read
    simpa using ih there

/-- A value that every filling of its pattern gives back is one that the pattern keeps. -/
theorem keeps_of_filled (read : d.readPattern (value ++ mode.closing) = some tokens)
    (same : ∀ free, filled free tokens = value) : mode.Keeps d value := by
  fun_induction d.readPattern value generalizing tokens with
  | case1 => exact .inl (by simp)
  | case2 =>
    cases mode with
    | anywhere | start =>
      cases read
      exact absurd (same 'a') (by decide)
    | finish =>
      obtain ⟨mysql, -⟩ := lastEscape_eq_some_iff.1 read
      exact .inr ⟨mysql, rfl, [], by simp, rfl⟩
  | case3 c rest ih | case4 rest ih =>
    obtain ⟨others, there, rfl⟩ := Option.map_eq_some_iff.1 read
    have short := length_filled_le 'a' there
    have long := congrArg List.length (same 'a')
    simp at long
    omega
  | case5 rest ih =>
    obtain ⟨others, there, rfl⟩ := Option.map_eq_some_iff.1 read
    exact absurd (List.cons.inj (same 'a')).1 (by decide)
  | case6 c rest lone escape run one ih =>
    have first := verbatim_of_read lone escape run one
    rw [List.cons_append, readPattern_verbatim first] at read
    obtain ⟨others, there, rfl⟩ := Option.map_eq_some_iff.1 read
    rcases ih there fun free => (List.cons.inj (same free)).2 with plain | ⟨mysql, last, kept⟩
    · exact .inl (List.forall_mem_cons.2 ⟨first, plain⟩)
    · obtain ⟨before, plain, rfl⟩ := kept
      exact .inr ⟨mysql, last, c :: before, List.forall_mem_cons.2 ⟨first, plain⟩, rfl⟩

end Filled

/-- The wildcard in front of a value adds nothing to the shortest words. -/
theorem filled_opening {mode : LikeMode} {rest : List Char} {tokens : List LikeToken}
    (read : d.readPattern (mode.opening ++ rest) = some tokens) :
    ∃ others, d.readPattern rest = some others ∧
      ∀ free, filled free tokens = filled free others := by
  cases mode with
  | anywhere | finish =>
    obtain ⟨others, there, rfl⟩ := Option.map_eq_some_iff.1 read
    exact ⟨others, there, fun _ => rfl⟩
  | start => exact ⟨tokens, read, fun _ => rfl⟩

theorem readPattern_of_keeps {mode : LikeMode} {value : List Char} (h : mode.Keeps d value) :
    d.readPattern (mode.opening ++ (value ++ mode.closing)) = some (mode.tokens value) := by
  rcases h with plain | ⟨rfl, rfl, before, plain, rfl⟩
  · have whole := readPattern_append (d := d) plain []
    rw [List.append_nil] at whole
    cases mode <;>
      simp [LikeMode.opening, LikeMode.closing, LikeMode.tokens, readPattern,
        readPattern_append plain, whole]
  · simp [LikeMode.opening, LikeMode.closing, LikeMode.tokens, readPattern,
      readPattern_append plain, lastEscape]

/-- A pattern says of every word what its mode does, exactly if it keeps its value. -/
theorem like_eq_describes_iff (d : Database) (mode : LikeMode) (value : List Char) :
    let pattern := mode.opening ++ (value ++ mode.closing)
    (∀ word, (d.like? pattern word = some true ↔ mode.Describes value word) ∧
      (d.like? pattern word = some false ↔ ¬ mode.Describes value word)) ↔
    mode.Keeps d value := by
  intro pattern
  constructor
  · intro accurate
    -- The value itself is one of the words, so the pattern can be read.
    have there := (accurate value).1.2 (.refl mode value)
    obtain ⟨tokens, read, -⟩ := Option.map_eq_some_iff.1 there
    obtain ⟨others, behind, same⟩ := filled_opening read
    refine keeps_of_filled behind fun free => ?_
    have matched : d.like? pattern (filled free tokens) = some true := by
      simp [like?, pattern, read, matches_filled]
    rw [← same]
    apply LikeMode.Describes.eq ((accurate _).1.1 matched)
    rw [same]
    exact length_filled_le free behind
  · intro kept word
    simp [like?, pattern, readPattern_of_keeps kept, ← mode.matches_tokens_iff value word]

end Database

namespace Predicate

/-- What a condition on likeness says: it is written with a literal that is read back as the
pattern, and whatever the value, words satisfy the condition or its negation as the mode has it
exactly if the pattern keeps the text of the value. -/
theorem like_describes_iff (d : Database) (c : Column) (mode : LikeMode) {v : Value}
    (valid : v ≠ .date none) :
    ∃ text, d.valueText v = .ok text ∧ ∃ pattern,
      (∀ negated, ∃ p shown, ofPattern d c negated mode v = .ok p ∧
        p.text.toList =
          (" " ++ c.text ++ if negated then " NOT LIKE " else " LIKE ").toList ++ shown ∧
        d.scan shown = some [.literal pattern, .plain ' ']) ∧
      ((∀ word, (d.like? pattern word = some true ↔ mode.Describes text.toList word) ∧
          (d.like? pattern word = some false ↔ ¬ mode.Describes text.toList word)) ↔
        mode.Keeps d text.toList) := by
  obtain ⟨text, given⟩ : ∃ text, d.valueText v = .ok text := by
    cases v with
    | date instant? =>
      cases instant? with
      | none => exact absurd rfl valid
      | some t => exact ⟨_, rfl⟩
    | text | boolean | number | integer => exact ⟨_, rfl⟩
  refine ⟨text, given, (mode.pattern text).toList, fun negated => ?_, ?_⟩
  · let literal : Literal := ⟨d, mode.pattern text⟩
    have written : d.write literal.pieces = literal.text.toList := literal.write_pieces
    refine ⟨.like c.expr negated literal, (literal.text ++ " ").toList, ?_, ?_, ?_⟩
    · simp [ofPattern, Literal.ofPattern, given, Except.map, literal]
    · simp [Predicate.text, Column.text]
    · have fence : Fence " " := by decide
      have closed := scan_write d (literal.separated_pieces.close fence)
      rw [write_append, written, write_words, ← String.toList_append] at closed
      exact closed
  · rw [LikeMode.toList_pattern]
    exact d.like_eq_describes_iff mode text.toList

/-- Text without a wildcard or a backslash is kept, quotes and all. -/
theorem like_finds_name :
    ∃ pattern, (∀ negated, ∃ p shown,
      ofPattern .mysql (.ofExpr (.column "m" "name")) negated .start (.text "O'Brien") = .ok p ∧
      p.text.toList = (" m.name" ++ if negated then " NOT LIKE " else " LIKE ").toList ++ shown ∧
      Database.mysql.scan shown = some [.literal pattern, .plain ' ']) ∧
    ∀ word, (Database.mysql.like? pattern word = some true ↔ "O'Brien".toList <+: word) ∧
      (Database.mysql.like? pattern word = some false ↔ ¬ "O'Brien".toList <+: word) := by
  obtain ⟨text, given, pattern, written, accurate⟩ := like_describes_iff .mysql
    (.ofExpr (.column "m" "name")) .start (v := .text "O'Brien") (by decide)
  obtain rfl := Except.ok.inj given
  have plain : ∀ c ∈ "O'Brien".toList, Verbatim c := by simp [Verbatim]
  exact ⟨pattern, written, accurate.2 (.inl plain)⟩

/-- A percent sign in the value is a wildcard too: what does not start with the value is found. -/
theorem like_finds_more_than_start :
    ofPattern .postgresql (.ofExpr (.column "m" "name")) false .start (.text "50%") =
        .ok (.like (.column "m" "name") false ⟨.postgresql, "50%%"⟩) ∧
      (like (.column "m" "name") false ⟨.postgresql, "50%%"⟩).text = " m.name LIKE '50%%' " ∧
      Database.postgresql.scan "'50%%'".toList = some [.literal "50%%".toList] ∧
      Database.postgresql.like? "50%%".toList "500".toList = some true ∧
      ¬ "50%".toList <+: "500".toList :=
  ⟨rfl, by decide +kernel, by cbv, by cbv, by decide⟩

end Predicate

end SqlSelect
