import SqlSelect.Proofs.Literal.Lexer
import SqlSelect.Proofs.Text.Occurrences

/-!
One quoted string at the start of a text. Replacing the special characters one kind after the other
over the whole string comes to the same as writing each character for itself, and reading takes all
of the string and nothing of what stands behind it.
-/
namespace SqlSelect

/-- A template without dollar signs stands in the place of every occurrence of a character. -/
theorem Text.toList_replaceAll_char {template : String} (plain : '$' ∉ template.toList) (c : Char)
    (text : String) : (replaceAll (String.singleton c) template text).toList =
      text.toList.flatMap fun x => if x = c then template.toList else [x] := by
  have scanned (passed rest : List Char) : replaceFrom [c] template.toList 0 passed rest =
      rest.flatMap fun x => if x = c then template.toList else [x] := by
    induction rest generalizing passed with
    | nil => rfl
    | cons x rest ih =>
      rw [List.flatMap_cons]
      by_cases here : x = c
      · subst here
        have replaced := @replaceFrom_word [x] template.toList (List.cons_ne_nil x []) passed rest
        rw [expand_of_not_mem _ plain, ih] at replaced
        simpa using replaced
      · have other : ¬ [c] <+: x :: rest := fun begins =>
          here (List.cons_prefix_cons.1 begins).1.symm
        rw [replaceFrom_cons other, ih]
        simp [here]
  simpa [replaceAll] using scanned [] text.toList

namespace Database

/-- The special characters with what is written for them, in the order in which they are replaced:
backslashes come first, so that one that is put before a quote is not doubled. -/
def replacements : Database → List (Char × String)
  | postgresql => [(quoteMark, "''")]
  | mysql => [('\\', "\\\\"), (quoteMark, "\\'")]

/-- Replaces one kind of special characters after the other, each in the whole text. -/
def replaceSpecial (d : Database) (content : String) : String :=
  d.replacements.foldl
    (fun text change => Text.replaceAll (String.singleton change.1) change.2 text) content

variable (d : Database)

/-- No replacement meets what an earlier one has written. -/
theorem toList_replaceSpecial (content : String) :
    (d.replaceSpecial content).toList = content.toList.flatMap d.escapeChar := by
  cases d with
  | postgresql => exact Text.toList_replaceAll_char (by decide) quoteMark content
  | mysql =>
    have slashes := Text.toList_replaceAll_char (by decide : '$' ∉ "\\\\".toList) '\\' content
    have quotes := Text.toList_replaceAll_char (by decide : '$' ∉ "\\'".toList) quoteMark
      (Text.replaceAll (String.singleton '\\') "\\\\" content)
    have both : (fun x => (if x = '\\' then "\\\\".toList else [x]).flatMap fun y =>
        if y = quoteMark then "\\'".toList else [y]) = mysql.escapeChar := by
      funext x
      by_cases slash : x = '\\'
      · subst slash
        decide
      · by_cases quote : x = quoteMark
        · subst quote
          decide
        · simp [escapeChar, slash, quote]
    rw [slashes, List.flatMap_assoc, both] at quotes
    exact quotes

theorem quote_eq_replaced (content : String) :
    d.quote content = "'" ++ d.replaceSpecial content ++ "'" := by
  rw [← String.toList_inj]
  simp only [quote, String.toList_ofList, quoteChars, String.toList_append, toList_replaceSpecial]
  rfl

/-- Reads a quoted literal at the start of a text: its content, and what follows it. -/
def readQuoted (d : Database) : List Char → Option (List Char × List Char)
  | [] => none
  | c :: rest => if c = quoteMark then d.readLiteral rest else none

theorem readLiteral_escaped (content rest : List Char) :
    d.readLiteral (content.flatMap d.escapeChar ++ rest) =
      (d.readLiteral rest).map fun read => (content ++ read.1, read.2) := by
  induction content with
  | nil => simp
  | cons c content ih =>
    rw [List.flatMap_cons, List.append_assoc, readLiteral_escapeChar, ih, Option.map_map]
    rfl

/-- Reading comes to the closing quote with the whole string, whatever stands behind it. -/
theorem readQuoted_quote (content behind : String) :
    d.readQuoted (d.quote content ++ behind).toList =
      (d.readLiteral (quoteMark :: behind.toList)).map fun read =>
        (content.toList ++ read.1, read.2) := by
  rw [String.toList_append, quote, String.toList_ofList, quoteChars, List.cons_append,
    List.append_assoc, readQuoted, if_pos rfl]
  exact d.readLiteral_escaped _ _

theorem suffix_readLiteral {chars : List Char} {read : List Char × List Char}
    (h : d.readLiteral chars = some read) : read.2 <:+ chars := by
  fun_induction readLiteral d chars generalizing read with
  | case1 => simp at h
  | case2 =>
    obtain rfl := Option.some.inj h
    exact List.nil_suffix
  | case3 => simp at h
  | case5 =>
    obtain rfl := Option.some.inj h
    exact List.suffix_cons _ _
  | case4 | case6 =>
    rename_i ih
    obtain ⟨inner, there, rfl⟩ := Option.map_eq_some_iff.1 h
    exact (ih there).trans ((List.suffix_cons _ _).trans (List.suffix_cons _ _))
  | case7 =>
    rename_i ih
    obtain ⟨inner, there, rfl⟩ := Option.map_eq_some_iff.1 h
    exact (ih there).trans (List.suffix_cons _ _)

/-- What stands behind a quoted string that is not followed by a quote is not touched. -/
theorem readQuoted_quote_of_plain (content : String) {behind : String}
    (following : ∀ c ∈ behind.toList.head?, c ≠ quoteMark) :
    d.readQuoted (d.quote content ++ behind).toList = some (content.toList, behind.toList) := by
  rw [readQuoted_quote, d.readLiteral_closed following]
  simp

/-- A quoted string is read back whole, and what follows it is left as it is unless that begins with
a quote; even then the literal does not end within the string, and takes nothing but characters
that do follow. So different strings are written differently. The special characters are those
that are replaced in the whole string, one kind after the other. -/
theorem quote_reads_back :
    (∀ content behind : String, (∀ c ∈ behind.toList.head?, c ≠ quoteMark) →
      d.readQuoted (d.quote content ++ behind).toList =
        some (content.toList, behind.toList)) ∧
    (∀ content behind : String, ∀ read ∈ d.readQuoted (d.quote content ++ behind).toList,
      content.toList <+: read.1 ∧ read.2 <:+ behind.toList) ∧
    Function.Injective d.quote ∧
    ∀ content, d.quote content = "'" ++ d.replaceSpecial content ++ "'" := by
  refine ⟨fun content behind => d.readQuoted_quote_of_plain content,
    fun content behind read mem => ?_, fun first second same => ?_, d.quote_eq_replaced⟩
  · rw [readQuoted_quote] at mem
    obtain ⟨rest, there, rfl⟩ := Option.map_eq_some_iff.1 mem
    have shorter := d.length_readLiteral there
    refine ⟨List.prefix_append _ _, ?_⟩
    rcases List.suffix_cons_iff.1 (d.suffix_readLiteral there) with all | behind
    · simp [all] at shorter
    · exact behind
  · have read (content : String) := d.readQuoted_quote_of_plain content
      (by simp : ∀ c ∈ "".toList.head?, c ≠ quoteMark)
    have both := (read first).symm.trans (same ▸ read second)
    exact String.toList_inj.1 (Prod.mk.inj (Option.some.inj both)).1

/-- A string of backslashes and quotes with a comparison behind it. -/
theorem slashes_before_quote_read_back :
    (∀ c ∈ " or 'a' = 'a'".toList.head?, c ≠ quoteMark) ∧
      mysql.quote "\\'\\\\" = "'\\\\\\'\\\\\\\\'" ∧
      mysql.readQuoted (mysql.quote "\\'\\\\" ++ " or 'a' = 'a'").toList =
        some ("\\'\\\\".toList, " or 'a' = 'a'".toList) := by
  have first : " or 'a' = 'a'".toList.head? = some ' ' := by decide +kernel
  have following : ∀ c ∈ " or 'a' = 'a'".toList.head?, c ≠ quoteMark := by
    intro c mem
    rw [first] at mem
    obtain rfl := Option.some.inj mem
    decide
  exact ⟨following, by decide +kernel, mysql.quote_reads_back.1 _ _ following⟩

end Database

end SqlSelect
