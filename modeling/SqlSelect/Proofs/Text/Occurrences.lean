import Mathlib.Data.List.Infix
import SqlSelect.Text.Replace

/-!
Where a word occurs in a text, and what becomes of the text when the word is replaced. A text
without the word stays. Taking a word out leaves all other characters; so what is left begins like
the text only if the word was not there. A template is written as it stands exactly if none of its
dollar signs has a meaning.
-/
namespace SqlSelect.Text

section Occurrences

variable {word a b : List Char} {c : Char}

theorem infix_of_suffix_append (b : List Char) (h : word <:+ a) : word ++ b <:+: a ++ b := by
  obtain ⟨before, rfl⟩ := h
  exact ⟨before, [], by simp⟩

theorem infix_cons_of_not_mem (lacks : c ∉ word) : word <:+: c :: b ↔ word <:+: b := by
  constructor
  · intro h
    rcases List.infix_cons_iff.1 h with starts | behind
    · rcases List.prefix_cons_iff.1 starts with rfl | ⟨rest, rfl, -⟩
      · exact List.nil_infix
      · exact absurd List.mem_cons_self lacks
    · exact behind
  · exact fun h => List.infix_cons_iff.2 (.inr h)

/-- A word does not reach over a character that it lacks. -/
theorem infix_append_cons (lacks : c ∉ word) :
    word <:+: a ++ c :: b ↔ word <:+: a ∨ word <:+: b := by
  constructor
  · intro h
    rcases List.infix_append_iff.1 h with left | right | ⟨first, last, rfl, ends, starts⟩
    · exact .inl left
    · exact .inr ((infix_cons_of_not_mem lacks).1 right)
    · rcases List.prefix_cons_iff.1 starts with rfl | ⟨rest, rfl, -⟩
      · exact .inl (by simpa using ends.isInfix)
      · simp at lacks
  · rintro (⟨before, after, rfl⟩ | ⟨before, after, rfl⟩)
    · exact ⟨before, after ++ c :: b, by simp⟩
    · exact ⟨a ++ c :: before, after, by simp⟩

/-- Where a word ends in a character that it holds nowhere else, it can end there. -/
theorem infix_append_cons_last (lacks : c ∉ word) :
    word ++ [c] <:+: a ++ c :: b ↔ word ++ [c] <:+: a ∨ word <:+ a ∨ word ++ [c] <:+: b := by
  constructor
  · intro h
    rcases List.infix_append_iff.1 h with left | right | ⟨first, last, same, ends, starts⟩
    · exact .inl left
    · rcases List.infix_cons_iff.1 right with starts | right
      · cases word with
        | nil => exact .inr (.inl (List.nil_suffix))
        | cons x word =>
          obtain ⟨rfl, -⟩ := List.cons_prefix_cons.1 starts
          exact absurd List.mem_cons_self lacks
      · exact .inr (.inr right)
    · rcases List.eq_nil_or_concat last with rfl | ⟨others, x, rfl⟩
      · exact .inl (by simpa [same] using ends.isInfix)
      · rw [List.concat_eq_append, ← List.append_assoc] at same
        obtain ⟨rfl, last⟩ := List.append_inj' same rfl
        obtain rfl := List.singleton_inj.1 last
        rcases others with - | ⟨y, others⟩
        · exact .inr (.inl (by simpa using ends))
        · obtain ⟨rfl, -⟩ := List.cons_prefix_cons.1 (by simpa using starts)
          simp at lacks
  · rintro (⟨before, after, rfl⟩ | ends | ⟨before, after, rfl⟩)
    · exact ⟨before, after ++ c :: b, by simp⟩
    · have here := infix_of_suffix_append [c] ends
      have apart : a ++ c :: b = a ++ [c] ++ b := by simp
      exact apart ▸ here.trans (List.prefix_append _ b).isInfix
    · exact ⟨a ++ c :: before, after, by simp⟩

end Occurrences

section Replacing

variable {word template : List Char}

theorem replaceFrom_cons {c : Char} {rest : List Char} (h : ¬ word <+: c :: rest)
    (passed : List Char) :
    replaceFrom word template 0 passed (c :: rest) =
      c :: replaceFrom word template 0 (passed ++ [c]) rest := by
  rw [replaceFrom, if_neg (by simpa [List.isPrefixOf_iff_prefix] using h)]

/-- A text without the first character of the word is passed over. -/
theorem replaceFrom_append {first : Char} (starts : word.head? = some first) {before : List Char}
    (lacks : first ∉ before) (passed rest : List Char) :
    replaceFrom word template 0 passed (before ++ rest) =
      before ++ replaceFrom word template 0 (passed ++ before) rest := by
  obtain ⟨others, rfl⟩ := List.head?_eq_some_iff.1 starts
  induction before generalizing passed with
  | nil => simp
  | cons c before ih =>
    obtain ⟨other, lacks⟩ := List.ne_and_not_mem_of_not_mem_cons lacks
    have here : ¬ first :: others <+: c :: (before ++ rest) := fun begins =>
      other (List.cons_prefix_cons.1 begins).1
    rw [List.cons_append, replaceFrom_cons here, ih lacks, List.append_assoc]
    rfl

theorem replaceFrom_of_absent {rest : List Char} (absent : ¬ word <:+: rest)
    (passed : List Char) : replaceFrom word template 0 passed rest = rest := by
  induction rest generalizing passed with
  | nil => rfl
  | cons c rest ih =>
    obtain ⟨here, behind⟩ := not_or.1 fun h => absent (List.infix_cons_iff.2 h)
    rw [replaceFrom_cons here, ih behind]

theorem replaceFrom_skip (word template skipped rest passed : List Char) :
    replaceFrom word template skipped.length passed (skipped ++ rest) =
      replaceFrom word template 0 (passed ++ skipped) rest := by
  induction skipped generalizing passed with
  | nil => simp
  | cons c skipped ih =>
    rw [List.length_cons, List.cons_append, replaceFrom, ih, List.append_assoc]
    rfl

theorem replaceFrom_word (some : word ≠ []) (passed rest : List Char) :
    replaceFrom word template 0 passed (word ++ rest) =
      expand ⟨passed, word, rest⟩ template ++
        replaceFrom word template 0 (passed ++ word) rest := by
  obtain ⟨c, others, rfl⟩ := List.exists_cons_of_ne_nil some
  have here : (c :: others).isPrefixOf (c :: (others ++ rest)) = true :=
    List.isPrefixOf_iff_prefix.2 (List.prefix_append (c :: others) rest)
  have skip := replaceFrom_skip (c :: others) template others rest (passed ++ [c])
  rw [List.cons_append, replaceFrom, if_pos here]
  simpa using skip

/-- The first occurrence of a word is replaced, and what stands before it is kept. -/
theorem replaceFrom_of_infix (some : word ≠ []) (template : List Char) {text : List Char}
    (h : word <:+: text) (passed : List Char) : ∃ before after, text = before ++ (word ++ after) ∧
      replaceFrom word template 0 passed text =
        before ++ (expand ⟨passed ++ before, word, after⟩ template ++
          replaceFrom word template 0 (passed ++ before ++ word) after) := by
  induction text generalizing passed with
  | nil => exact absurd (List.infix_nil.1 h) some
  | cons c rest ih =>
    by_cases here : word <+: c :: rest
    · obtain ⟨after, same⟩ := here
      refine ⟨[], after, same.symm, ?_⟩
      rw [← same, replaceFrom_word some, List.append_nil, List.nil_append]
    · have behind := (List.infix_cons_iff.1 h).resolve_left here
      obtain ⟨before, after, rfl, replaced⟩ := ih behind (passed ++ [c])
      refine ⟨c :: before, after, rfl, ?_⟩
      rw [replaceFrom_cons here, replaced]
      simp

end Replacing

section Removing

/-! A word that is replaced by nothing. -/

variable {word : List Char}

theorem removed_congr (skip : Nat) (passed passed' rest : List Char) :
    replaceFrom word [] skip passed rest = replaceFrom word [] skip passed' rest := by
  induction rest generalizing skip passed passed' with
  | nil => rfl
  | cons c rest ih =>
    cases skip with
    | zero =>
      simp only [replaceFrom, expand_nil, ih _ (passed ++ [c]) (passed' ++ [c])]
    | succ skip => simp only [replaceFrom, ih _ (passed ++ [c]) (passed' ++ [c])]

variable (some : word ≠ [])
include some

theorem length_behind {text before after : List Char} (same : text = before ++ (word ++ after)) :
    after.length < text.length := by
  have := List.length_pos_iff.2 some
  rw [same, List.length_append, List.length_append]
  omega

theorem length_removed (passed text : List Char) :
    (replaceFrom word [] 0 passed text).length ≤ text.length := by
  by_cases h : word <:+: text
  · obtain ⟨before, after, same, removed⟩ := replaceFrom_of_infix some [] h passed
    have shorter := length_behind some same
    have := length_removed (passed ++ before ++ word) after
    rw [removed, expand_nil, same]
    simp only [List.length_append, List.nil_append]
    omega
  · exact Nat.le_of_eq (by rw [replaceFrom_of_absent h])
termination_by text.length

theorem length_removed_of_infix {text : List Char} (h : word <:+: text) (passed : List Char) :
    (replaceFrom word [] 0 passed text).length + word.length ≤ text.length := by
  obtain ⟨before, after, rfl, removed⟩ := replaceFrom_of_infix some [] h passed
  have := length_removed some (passed ++ before ++ word) after
  rw [removed, expand_nil]
  simp only [List.length_append, List.nil_append]
  omega

/-- Characters that the word lacks all stay. -/
theorem count_removed {c : Char} (lacks : c ∉ word) (passed text : List Char) :
    (replaceFrom word [] 0 passed text).count c = text.count c := by
  by_cases h : word <:+: text
  · obtain ⟨before, after, same, removed⟩ := replaceFrom_of_infix some [] h passed
    have shorter := length_behind some same
    have rest := count_removed lacks (passed ++ before ++ word) after
    rw [removed, expand_nil, List.nil_append, List.count_append, rest, same, List.count_append,
      List.count_append, List.count_eq_zero_of_not_mem lacks, Nat.zero_add]
  · rw [replaceFrom_of_absent h]
termination_by text.length

/-- A text near whose end stands a character that the word lacks: without the word, and whatever is
written behind, it begins as before only if the word was not there. The character would have to
stand too early. -/
theorem prefix_removed_iff {c : Char} (lacks : c ∉ word) {start rest : List Char}
    (short : rest.length < word.length) (passed behind : List Char) :
    start ++ c :: rest <+: replaceFrom word [] 0 passed (start ++ c :: rest) ++ behind ↔
      ¬ word <:+: start ++ c :: rest := by
  constructor
  · intro begins there
    have shorter := length_removed_of_infix some there passed
    have counted := count_removed some lacks passed (start ++ c :: rest)
    generalize replaceFrom word [] 0 passed (start ++ c :: rest) = removed at *
    have fits : removed.length ≤ start.length := by
      simp only [List.length_append, List.length_cons] at shorter
      omega
    have early : removed <+: start ++ c :: rest :=
      List.prefix_of_prefix_length_le (List.prefix_append removed behind) begins (by simp; omega)
    have inside : removed <+: start :=
      List.prefix_of_prefix_length_le early (List.prefix_append start _) fits
    have fewer := inside.count_le c
    rw [counted] at fewer
    simp only [List.count_append, List.count_cons_self] at fewer
    omega
  · intro absent
    rw [replaceFrom_of_absent absent]
    exact List.prefix_append _ _

end Removing

/-! Templates whose dollar signs have no meaning. -/

/-- No dollar sign has one of the characters behind it that give it a meaning. -/
def Inert (template : List Char) : Prop :=
  ∀ c ∈ ['$', '&', '\x60', '\x27'], ¬ ['$', c] <:+: template

instance (template : List Char) : Decidable (Inert template) := List.decidableBAll _ _

theorem inert_of_not_mem {template : List Char} (h : '$' ∉ template) : Inert template :=
  fun _ _ inside => h (inside.subset List.mem_cons_self)

theorem inert_cons {c : Char} {rest : List Char} : Inert (c :: rest) ↔
    (c = '$' → ∀ x ∈ ['$', '&', '\x60', '\x27'], ¬ [x] <+: rest) ∧ Inert rest := by
  simp only [Inert, List.infix_cons_iff, List.cons_prefix_cons, not_or, not_and]
  constructor
  · intro h
    exact ⟨fun same x mem => (h x mem).1 same.symm, fun x mem => (h x mem).2⟩
  · rintro ⟨head, tail⟩ x mem
    exact ⟨fun same => head same.symm x mem, tail x mem⟩

theorem Inert.head {c : Char} {rest : List Char} (h : Inert ('$' :: c :: rest)) :
    c ∉ ['$', '&', '\x60', '\x27'] :=
  fun mem => (inert_cons.1 h).1 rfl c mem ⟨rest, rfl⟩

/-- A character that takes part in no meaning. -/
theorem inert_append_cons {c : Char} (plain : c ∉ ['$', '&', '\x60', '\x27'])
    {a b : List Char} : Inert (a ++ c :: b) ↔ Inert a ∧ Inert b := by
  have apart (x : Char) (mem : x ∈ ['$', '&', '\x60', '\x27']) :
      ['$', x] <:+: a ++ c :: b ↔ ['$', x] <:+: a ∨ ['$', x] <:+: b := by
    apply infix_append_cons
    rw [List.mem_cons, List.mem_singleton]
    rintro (rfl | rfl)
    · exact plain List.mem_cons_self
    · exact plain mem
  constructor
  · intro h
    exact ⟨fun x mem inside => h x mem ((apart x mem).2 (.inl inside)),
      fun x mem inside => h x mem ((apart x mem).2 (.inr inside))⟩
  · rintro ⟨left, right⟩ x mem inside
    exact ((apart x mem).1 inside).elim (left x mem) (right x mem)

theorem expand_of_inert (place : Occurrence) {template : List Char} (h : Inert template) :
    expand place template = template := by
  fun_induction expand place template with
  | case1 | case2 | case3 | case4 => exact absurd h.head (by simp)
  | case5 c rest _ _ _ _ ih => rw [ih (inert_cons.1 h).2]
  | case6 => rfl

section Expanding

/-- What the meanings of a dollar sign write begins with something else. -/
structure Occurrence.Plain (place : Occurrence) : Prop where
  before : ∃ c ∈ place.before.head?, c ≠ '$'
  word : ∃ c ∈ place.word.head?, c ≠ '$'
  after : ∃ c ∈ place.after.head?, c ≠ '$'

private theorem not_prefix_written {written : List Char} (h : ∃ c ∈ written.head?, c ≠ '$')
    (rest behind : List Char) : ¬ '$' :: rest <+: written ++ behind := by
  obtain ⟨c, starts, other⟩ := h
  obtain ⟨others, rfl⟩ := List.head?_eq_some_iff.1 starts
  exact fun begins => other (List.cons_prefix_cons.1 begins).1.symm

private theorem getLast?_tail {c last : Char} {rest : List Char} (h : last ≠ c)
    (ends : (c :: rest).getLast? = some last) : rest.getLast? = some last := by
  rw [List.getLast?_cons] at ends
  cases same : rest.getLast? with
  | none => simp [same, h.symm] at ends
  | some x => simpa [same] using ends

private theorem replicate_append_cons (n : Nat) (c : Char) (rest : List Char) :
    List.replicate n c ++ c :: rest = c :: (List.replicate n c ++ rest) := by
  rw [← List.cons_append, ← List.replicate_succ, List.replicate_succ', List.append_assoc]
  rfl

variable {place : Occurrence} (plain : place.Plain)
include plain

/-- A dollar sign that is lost is not made up for: what is written for a template never begins with
more of them than the template, followed by what the template goes on with. -/
theorem not_prefix_expand {template : List Char} {last : Char} (h : last ≠ '$')
    (ends : template.getLast? = some last) (more : Nat) (behind : List Char) :
    ¬ List.replicate (more + 1) '$' ++ template <+: expand place template ++ behind := by
  fun_induction expand place template generalizing more with
  | case1 rest ih =>
    intro begins
    have ends := getLast?_tail h (getLast?_tail h ends)
    refine ih ends (more + 1) ?_
    rw [replicate_append_cons, replicate_append_cons, List.cons_append] at begins
    exact (List.cons_prefix_cons.1 begins).2
  | case2 rest ih =>
    rw [List.append_assoc]
    exact not_prefix_written plain.word _ _
  | case3 rest ih =>
    rw [List.append_assoc]
    exact not_prefix_written plain.before _ _
  | case4 rest ih =>
    rw [List.append_assoc]
    exact not_prefix_written plain.after _ _
  | case5 c rest _ _ _ _ ih =>
    intro begins
    obtain ⟨rfl, -⟩ := List.cons_prefix_cons.1 begins
    rw [replicate_append_cons, List.cons_append] at begins
    exact ih (getLast?_tail h ends) more (List.cons_prefix_cons.1 begins).2
  | case6 => simp at ends

/-- A template is written as it stands only if its dollar signs have no meaning. -/
theorem prefix_expand_iff {template : List Char} {last : Char} (h : last ≠ '$')
    (ends : template.getLast? = some last) (behind : List Char) :
    template <+: expand place template ++ behind ↔ Inert template := by
  constructor
  · intro begins
    fun_induction expand place template with
    | case1 rest ih =>
      have begins := (List.cons_prefix_cons.1 begins).2
      exact absurd begins
        (not_prefix_expand plain h (getLast?_tail h (getLast?_tail h ends)) 0 behind)
    | case2 rest ih =>
      rw [List.append_assoc] at begins
      exact absurd begins (not_prefix_written plain.word _ _)
    | case3 rest ih =>
      rw [List.append_assoc] at begins
      exact absurd begins (not_prefix_written plain.before _ _)
    | case4 rest ih =>
      rw [List.append_assoc] at begins
      exact absurd begins (not_prefix_written plain.after _ _)
    | case5 c rest dollar word before after ih =>
      obtain ⟨-, begins⟩ := List.cons_prefix_cons.1 begins
      refine inert_cons.2 ⟨?_, ?_⟩
      · rintro rfl x mem ⟨others, rfl⟩
        simp only [List.mem_cons, List.not_mem_nil, or_false] at mem
        rcases mem with rfl | rfl | rfl | rfl
        · exact dollar _ rfl rfl
        · exact word _ rfl rfl
        · exact before _ rfl rfl
        · exact after _ rfl rfl
      · cases rest with
        | nil => exact inert_of_not_mem (by simp)
        | cons x others => exact ih (by rwa [List.getLast?_cons_cons] at ends) begins
    | case6 => exact inert_of_not_mem (by simp)
  · intro inert
    rw [expand_of_inert place inert]
    exact List.prefix_append _ _

end Expanding

end SqlSelect.Text
