/-! Replacing every occurrence of a word in a text. The replacement is a template, in which a
dollar sign can stand for the word itself or for the text on one side of the occurrence. -/
namespace SqlSelect.Text

/-- The places of an occurrence: the text before it, the word, and the text after it. -/
structure Occurrence where
  before : List Char
  word : List Char
  after : List Char
deriving DecidableEq, Repr

/-- Writes a template at an occurrence. `$$` is one dollar sign, `$&` the word, a dollar sign
with a backquote the text before it, and a dollar sign with a quote the text after it; any
other dollar sign stays. -/
def expand (place : Occurrence) : List Char → List Char
  | '$' :: '$' :: rest => '$' :: expand place rest
  | '$' :: '&' :: rest => place.word ++ expand place rest
  | '$' :: '\x60' :: rest => place.before ++ expand place rest
  | '$' :: '\x27' :: rest => place.after ++ expand place rest
  | c :: rest => c :: expand place rest
  | [] => []

/-- Scans the rest of a text. The first argument after the template counts the characters of
an occurrence that are still to be skipped, the next is the text already passed. -/
def replaceFrom (word template : List Char) : Nat → List Char → List Char → List Char
  | _, _, [] => []
  | skip + 1, passed, c :: rest => replaceFrom word template skip (passed ++ [c]) rest
  | 0, passed, c :: rest =>
    if word.isPrefixOf (c :: rest) then
      expand ⟨passed, word, (c :: rest).drop word.length⟩ template ++
        replaceFrom word template (word.length - 1) (passed ++ [c]) rest
    else c :: replaceFrom word template 0 (passed ++ [c]) rest

/-- Replaces every occurrence of a non-empty word, from the left and without overlap. -/
def replaceAll (word template text : String) : String :=
  String.ofList (replaceFrom word.toList template.toList 0 [] text.toList)

example : replaceAll "ab" "[$&|$'|$1]" "xabyab" = "x[ab|yab|$1]y[ab||$1]" := by decide +kernel

@[simp] theorem expand_nil (place : Occurrence) : expand place [] = [] := by simp [expand]

theorem expand_of_not_mem (place : Occurrence) {template : List Char} (h : '$' ∉ template) :
    expand place template = template := by
  fun_induction expand place template with
  | case1 rest ih => simp at h
  | case2 rest ih => simp at h
  | case3 rest ih => simp at h
  | case4 rest ih => simp at h
  | case5 c rest _ _ _ _ ih => simp_all
  | case6 => rfl

end SqlSelect.Text
