import SqlSelect.Proofs.Query.Wording
import SqlSelect.Proofs.Session.Rendering

/-!
What becomes of the keyword for distinct rows when a statement is rendered. The keyword is taken out
of the text of the whole selection, and the columns that rows are distinct on are put in its place
as a template. So a name or a string that looks like the keyword is taken out as well, and a dollar
sign in a column can have a meaning; without such names and strings both clauses are as written.
-/
namespace SqlSelect

/-! The parts of a selection -/

namespace Selection

/-- What stands before the keyword for distinct rows. -/
def opening : Selection → String
  | countAll _ | countColumns _ => "SELECT COUNT("
  | raw _ | all _ | columns _ => "SELECT "

/-- What stands behind the keyword and the blank after it, up to the tables. -/
def projection : Selection → String
  | raw _ => ""
  | all qualifier => qualifier ++ ".*"
  | columns list => ", ".intercalate (list.map Column.projected)
  | countAll qualifier => qualifier ++ ".*)"
  | countColumns list => Column.listText list ++ ")"

def body (s : Selection) : String := s.projection ++ " FROM "

/-- The names in a selection, those of its results included. -/
def names : Selection → List String
  | raw _ => []
  | all qualifier | countAll qualifier => [qualifier]
  | columns list => list.flatMap fun c => c.expr.names ++ c.alias?.toList
  | countColumns list => list.flatMap (·.expr.names)

def strings : Selection → List String
  | raw _ | all _ | countAll _ => []
  | columns list | countColumns list => list.flatMap (·.expr.strings)

variable {s : Selection}

/-- Builders give no selection that is taken as it is. -/
theorem ne_raw_of_make {f : Session.Fragment} {d : Database} {rootAt : RootRef → TableRoot}
    (made : f.make d rootAt = .ok (.selection s)) : ∀ text, s ≠ raw text := by
  rintro text rfl
  cases f with
  | columns list =>
    obtain ⟨selection, given, same⟩ := except_map_eq_ok.1 made
    obtain rfl := Session.Answer.selection.inj same
    cases list <;> simp [ofColumns] at given
  | all r =>
    obtain ⟨selection, given, same⟩ := except_map_eq_ok.1 made
    obtain rfl := Session.Answer.selection.inj same
    obtain ⟨name, -, same⟩ := except_map_eq_ok.1 given
    cases same
  | count items =>
    obtain ⟨selection, given, same⟩ := except_map_eq_ok.1 made
    obtain rfl := Session.Answer.selection.inj same
    unfold ofCount at given
    split at given
    · obtain ⟨name, -, same⟩ := except_map_eq_ok.1 given
      cases same
    · dsimp only at given
      split at given
      · cases given
      · split at given <;> cases given
  | lower | upper | order => cases made
  | criterion | group | concat | distinctOn =>
    obtain ⟨_, _, same⟩ := except_map_eq_ok.1 made
    cases same

omit s in
theorem opening_mem (s : Selection) : s.opening ∈ ["SELECT ", "SELECT COUNT("] := by
  cases s <;> simp [opening]

theorem text_eq (made : ∀ text, s ≠ raw text) :
    s.text = s.opening ++ (distinctKeyword ++ (" " ++ s.body)) := by
  cases s with
  | raw text => exact absurd rfl (made text)
  | all | columns | countAll | countColumns =>
    unfold text opening body projection
    simp only [String.append_assoc, String.reduceAppend]

end Selection

namespace Composable

variable {P : List Char → Prop} (h : Composable P)
include h

private theorem from_behind {a : List Char} (inside : P a) : P (a ++ " FROM ".toList) := by
  have closed := h.glue ' ' (by decide) (h.word "FROM" (by decide)) (h.word "" (by decide))
  simpa using h.glue ' ' (by decide) inside closed

private theorem projected {c : Column}
    (names : ∀ name ∈ c.expr.names ++ c.alias?.toList, P name.toList)
    (strings : ∀ s ∈ c.expr.strings, ∀ d : Database, P (d.quote s).toList) :
    P c.projected.toList := by
  have expr := h.text (fun name mem => names name (List.mem_append_left _ mem)) strings
  unfold Column.projected
  cases named : c.alias? with
  | none => exact expr
  | some name =>
    have behind := h.glue ' ' (by decide) (h.word "AS" (by decide)) (names name (by simp [named]))
    simpa [Column.text] using h.glue ' ' (by decide) expr behind

/-- What a selection is written with behind its keyword has a property if its names and its strings
do. -/
theorem body {s : Selection} (names : ∀ name ∈ s.names, P name.toList)
    (strings : ∀ string ∈ s.strings, ∀ d : Database, P (d.quote string).toList) :
    P s.body.toList := by
  have star {qualifier : String} (named : P qualifier.toList) : P (qualifier ++ ".*").toList := by
    simpa using h.glue '.' (by decide) named (h.word "*" (by decide))
  have closing {a : String} (inside : P a.toList) : P (a ++ ")").toList := by
    simpa using h.glue ')' (by decide) inside (h.word "" (by decide))
  rw [Selection.body, String.toList_append]
  apply h.from_behind
  cases s with
  | raw text => exact h.word "" (by decide)
  | all qualifier => exact star (names qualifier List.mem_cons_self)
  | columns list =>
    have each : ∀ item ∈ list.map fun c => c.projected.toList, P item := by
      refine List.forall_mem_map.2 fun c mem => h.projected ?_ ?_
      · exact fun name inside => names name (List.mem_flatMap.2 ⟨c, mem, inside⟩)
      · exact fun s inside => strings s (List.mem_flatMap.2 ⟨c, mem, inside⟩)
    simpa [Selection.projection, String.toList_intercalate, Function.comp_def] using h.list each
  | countAll qualifier =>
    simpa [Selection.projection, String.append_assoc] using
      closing (star (names qualifier List.mem_cons_self))
  | countColumns list =>
    apply closing
    exact h.listText (fun c mem name inside => names name (List.mem_flatMap.2 ⟨c, mem, inside⟩))
      fun c mem s inside => strings s (List.mem_flatMap.2 ⟨c, mem, inside⟩)

end Composable

/-! Statements -/

/-- The text does not hold the keyword with a blank, not even if a blank follows the text. -/
def Unmarked (text : List Char) : Prop :=
  ¬ distinctKeyword.toList ++ [' '] <:+: text ++ [' ']

instance (text : List Char) : Decidable (Unmarked text) := inferInstanceAs (Decidable (¬ _))

theorem composable_unmarked : Composable Unmarked := by
  constructor
  · have lacks : ∀ text ∈ expressionWords, 'I' ∉ text.toList ++ [' '] := by decide +kernel
    exact fun text known inside => lacks text known (inside.subset (by decide))
  · intro c separates a b left right
    unfold Unmarked at *
    rw [List.append_assoc, List.cons_append]
    have before : ¬ distinctKeyword.toList ++ [' '] <:+: a := fun inside =>
      left (inside.trans (List.prefix_append _ _).isInfix)
    have apart : c = ' ' ∨ c ∉ distinctKeyword.toList ++ [' '] := by
      simp only [separators, List.mem_cons, List.not_mem_nil, or_false] at separates
      rcases separates with rfl | rfl | rfl | rfl | rfl <;> decide
    rcases apart with rfl | lacks
    · rw [Text.infix_append_cons_last (by decide)]
      have ends : ¬ distinctKeyword.toList <:+ a := fun ends =>
        left (Text.infix_of_suffix_append _ ends)
      exact not_or.2 ⟨before, not_or.2 ⟨ends, right⟩⟩
    · rw [Text.infix_append_cons lacks]
      exact not_or.2 ⟨before, right⟩

theorem unmarked_quote {string : String}
    (h : ¬ distinctKeyword.toList ++ [' '] <:+: string.toList) (d : Database) :
    Unmarked (d.quote string).toList := by
  have quoted : ¬ distinctKeyword.toList ++ [' '] <:+: (d.quote string).toList := fun inside =>
    h (infix_of_infix_quote (by decide) (by decide) d inside)
  have closed : (d.quote string).toList =
      quoteMark :: string.toList.flatMap d.escapeChar ++ quoteMark :: [] := by
    simp [Database.quote, Database.quoteChars]
  unfold Unmarked
  rw [closed] at quoted ⊢
  rw [List.append_assoc, List.singleton_append, Text.infix_append_cons (by decide)]
  rw [Text.infix_append_cons (by decide)] at quoted
  have blank : ¬ distinctKeyword.toList ++ [' '] <:+: [' '] := fun inside => by
    simpa [distinctKeyword] using inside.length_le
  exact not_or.2 ⟨fun inside => quoted (.inl inside), blank⟩

theorem Query.render_ok {q : Query} {sources? : Option Sources} {names : Resolvers} {sql : String}
    (rendered : ((q.render sources?).run names).result = .ok sql) :
    ∃ selected rest, q.selectClause = .ok selected ∧ sql = selected ++ rest := by
  unfold render at rendered
  cases sources? with
  | none => cases rendered
  | some sources =>
    cases begins : sources.start? with
    | none =>
      simp only [begins] at rendered
      cases rendered
    | some start =>
      simp only [begins] at rendered
      obtain ⟨selected, chosen, rendered⟩ := Action.run_bind_eq_ok rendered
      obtain ⟨table, -, rendered⟩ := Action.run_bind_eq_ok rendered
      obtain ⟨joined, -, rendered⟩ := Action.run_bind_eq_ok rendered
      obtain ⟨skipped, -, rendered⟩ := Action.run_bind_eq_ok rendered
      obtain ⟨-, -, rendered⟩ := Action.run_bind_eq_ok rendered
      obtain rfl := Except.ok.inj rendered
      rw [Action.run_lift] at chosen
      exact ⟨selected, table ++ joined ++ q.whereClause ++ q.groupClause ++ q.orderClause ++
        q.limitClause ++ skipped, chosen, by simp only [String.append_assoc]⟩

namespace Selection

/-- The text without the keyword is the text without the one that the factory has put only if
there is no other one. -/
theorem prefix_removed_iff (s : Selection) (rest : List Char) :
    s.body.toList <+: (Text.replaceAll (distinctKeyword ++ " ") "" s.body).toList ++ rest ↔
      ¬ (distinctKeyword ++ " ").toList <:+: s.body.toList := by
  have parts : s.body.toList = (s.projection ++ " ").toList ++ 'F' :: "ROM ".toList := by
    simp [body]
  rw [Text.replaceAll, String.toList_ofList, parts]
  exact Text.prefix_removed_iff (by decide) (by decide) (by decide) [] rest

variable {s : Selection} (made : ∀ text, s ≠ raw text)
include made

/-- A word that begins like the keyword is first found where the factory has put it. -/
theorem replaceFrom_text (word template rest : List Char) (starts : word.head? = some 'D')
    (there : distinctKeyword.toList ++ (' ' :: s.body.toList) = word ++ rest) :
    Text.replaceFrom word template 0 [] s.text.toList =
      s.opening.toList ++ (Text.expand ⟨s.opening.toList, word, rest⟩ template ++
        Text.replaceFrom word template 0 (s.opening.toList ++ word) rest) := by
  have lacks : ∀ opening ∈ ["SELECT ", "SELECT COUNT("], 'D' ∉ opening.toList := by decide +kernel
  have some : word ≠ [] := by
    rintro rfl
    cases starts
  have parts : s.text.toList = s.opening.toList ++ (word ++ rest) := by
    rw [← there, text_eq made]
    simp
  rw [parts, Text.replaceFrom_append starts (lacks _ s.opening_mem), List.nil_append,
    Text.replaceFrom_word some]

/-- Put in the place of the only keyword, a template is written with the text around it. -/
theorem replaced_text (template : String)
    (only : ¬ distinctKeyword.toList <:+: ' ' :: s.body.toList) :
    (Text.replaceAll distinctKeyword template s.text).toList = s.opening.toList ++
      (Text.expand ⟨s.opening.toList, distinctKeyword.toList, ' ' :: s.body.toList⟩
        template.toList ++ ' ' :: s.body.toList) := by
  have parts := replaceFrom_text made distinctKeyword.toList template.toList (' ' :: s.body.toList)
    (by decide) rfl
  rw [Text.replaceAll, String.toList_ofList, parts, Text.replaceFrom_of_absent only]

/-- Taken out of the text, the keyword goes, and so does everything that looks like it behind. -/
theorem removed_text : Text.replaceAll (distinctKeyword ++ " ") "" s.text =
    s.opening ++ Text.replaceAll (distinctKeyword ++ " ") "" s.body := by
  rw [← String.toList_inj]
  have parts := replaceFrom_text made (distinctKeyword ++ " ").toList [] s.body.toList (by decide)
    (by simp)
  simp only [Text.replaceAll, String.toList_append, String.toList_ofList] at parts ⊢
  rw [String.toList_empty, parts, Text.expand_nil, List.nil_append, Text.removed_congr _ _ []]

end Selection

namespace DistinctOn

theorem eq_columns_of_make {d : Database} {rootAt : RootRef → TableRoot} {list : List Column}
    {on : DistinctOn}
    (made : (Session.Fragment.distinctOn list).make d rootAt = .ok (.distinctOn on)) :
    on = columns list := by
  obtain ⟨given, supported, same⟩ := except_map_eq_ok.1 made
  obtain rfl := Session.Answer.distinctOn.inj same
  unfold ofColumns at supported
  split at supported
  · cases list with
    | nil => cases supported
    | cons c list => exact (Except.ok.inj supported).symm
  · cases supported

variable (list : List Column)

theorem isBlank_columns : Text.isBlank (columns list).text = false :=
  Text.isBlank_of_mem (c := 'D') (by simp [text, distinctKeyword]) (by decide)

theorem getLast?_columns : (columns list).text.toList.getLast? = some ')' := by
  rw [text, String.toList_append]
  exact List.getLast?_concat

/-- Parentheses take part in no meaning of a dollar sign. -/
theorem inert_columns :
    Text.Inert (columns list).text.toList ↔ Text.Inert (Column.listText list).toList := by
  have parts : (columns list).text.toList = (distinctKeyword ++ " ON ").toList ++
      '(' :: ((Column.listText list).toList ++ ')' :: []) := by
    simp [text]
  have opening : Text.Inert (distinctKeyword ++ " ON ").toList :=
    Text.inert_of_not_mem (by decide +kernel)
  have closing : Text.Inert [] := Text.inert_of_not_mem List.not_mem_nil
  rw [parts, Text.inert_append_cons (by decide), Text.inert_append_cons (by decide)]
  exact ⟨fun inert => inert.2.1, fun inert => ⟨opening, inert, closing⟩⟩

end DistinctOn

namespace Session

section Rendering

variable {s : Session} {h : Handle .query} {d : Database} {rootAt : RootRef → TableRoot}
  {f : Fragment} {selection : Selection} {sql : String}

/-- A query without distinct rows keeps its selection as it was made, but for the keyword, if and
only if the keyword with a blank stands nowhere else in it: wherever it does, it is taken out too.
No selection is changed whose names do not end in the keyword and whose strings do not hold it with
a blank. -/
theorem projection_kept_iff (made : f.make d rootAt = .ok (.selection selection))
    (selected : (s.queries.get h).selection? = some selection)
    (plain : (s.queries.get h).distinct = false) (unset : (s.queries.get h).distinctOn? = none)
    (rendered : ((render h).run s).result = .ok sql) :
    let keyword := distinctKeyword ++ " "
    let kept := selection.opening ++ selection.body
    selection.text = selection.opening ++ keyword ++ selection.body ∧
    (∃ rest, sql = selection.opening ++ Text.replaceAll keyword "" selection.body ++ rest) ∧
    (kept.toList <+: sql.toList ↔ ¬ keyword.toList <:+: selection.body.toList) ∧
    ((∀ name ∈ selection.names, Unmarked name.toList) →
      (∀ string ∈ selection.strings, ¬ keyword.toList <:+: string.toList) →
      kept.toList <+: sql.toList) := by
  intro keyword kept
  have given := Selection.ne_raw_of_make made
  rw [run_render] at rendered
  obtain ⟨head, rest, chosen, rfl⟩ := Query.render_ok rendered
  obtain rfl : selection.opening ++ Text.replaceAll keyword "" selection.body = head := by
    rw [← Selection.removed_text given]
    simpa [Query.selectClause, selected, plain, unset] using chosen
  have begins : kept.toList <+: (selection.opening ++ Text.replaceAll keyword "" selection.body ++
      rest).toList ↔ ¬ keyword.toList <:+: selection.body.toList := by
    rw [← Selection.prefix_removed_iff selection rest.toList, String.toList_append,
      String.toList_append, String.toList_append, List.append_assoc, List.prefix_append_right_inj]
  refine ⟨?_, ⟨rest, rfl⟩, begins, fun names strings => begins.2 fun there => ?_⟩
  · rw [Selection.text_eq given]
    simp only [keyword, String.append_assoc]
  · have unmarked := composable_unmarked.body names fun string mem d =>
      unmarked_quote (by simpa [keyword] using strings string mem) d
    have marked : distinctKeyword.toList ++ [' '] <:+: selection.body.toList := by
      simpa [keyword] using there
    exact unmarked (marked.trans (List.prefix_append _ _).isInfix)

/-- An alias and a string that hold the keyword, but without a blank behind it. -/
theorem projection_kept_near_keyword :
    let user : Entity := .base ⟨1, "User", some "users", [⟨"id", none⟩]⟩
    let label : Column := ⟨.concat .mysql [.column "m" "id", .literal ⟨.mysql, "'DISTINCT'"⟩],
      some "DISTINCT_id"⟩
    let selection := Selection.columns [label]
    let options : BuilderOptions := ⟨.named "mysql", sharedResolver, false, "m", "j", none⟩
    let calls : List Call := [.newBuilder options, .start ⟨0⟩ user, .newQuery (some ⟨0⟩),
      .set ⟨0⟩ (.selection selection)]
    let s := initial.after calls
    (Fragment.columns [label]).make .mysql s.root = .ok (.selection selection) ∧
      (s.queries.get ⟨0⟩).selection? = some selection ∧ (s.queries.get ⟨0⟩).distinct = false ∧
      (s.queries.get ⟨0⟩).distinctOn? = none ∧ ∃ sql, ((render ⟨0⟩).run s).result = .ok sql ∧
        "SELECT CONCAT(m.id, '\\'DISTINCT\\'') AS DISTINCT_id FROM ".toList <+: sql.toList := by
  intro user label selection options calls s
  let q : Query := { Query.fresh (some ⟨0⟩) with selection? := some selection }
  let b : Builder := ⟨⟨.mysql, 0⟩, sharedResolver, false, "m", "j",
    some ⟨user, sharedResolver, ⟨.mysql, 0⟩, some "m", none⟩, [], none⟩
  have query : s.queries.get ⟨0⟩ = q := by
    show (initial.after calls).queries.get ⟨0⟩ = q
    cbv
  have builder : s.builders.get ⟨0⟩ = b := by
    show (initial.after calls).builders.get ⟨0⟩ = b
    cbv
  have selected := congrArg Query.selection? query
  have plain := congrArg Query.distinct query
  have unset := congrArg Query.distinctOn? query
  have rendered : ((render ⟨0⟩).run s).result = .ok
      "SELECT CONCAT(m.id, '\\'DISTINCT\\'') AS DISTINCT_id FROM users m" := by
    rw [result_render_after (by simp [calls, Call.Quiet]) query rfl builder rfl]
    decide +kernel
  have made : (Fragment.columns [label]).make .mysql s.root = .ok (.selection selection) := rfl
  obtain ⟨-, -, -, kept⟩ := projection_kept_iff made selected plain unset rendered
  have names : ∀ name ∈ selection.names, Unmarked name.toList := by
    show ∀ name ∈ ["m", "id", "DISTINCT_id"], Unmarked name.toList
    decide +kernel
  have strings : ∀ string ∈ selection.strings,
      ¬ (distinctKeyword ++ " ").toList <:+: string.toList := by
    show ∀ string ∈ ["'DISTINCT'"], ¬ (distinctKeyword ++ " ").toList <:+: string.toList
    decide +kernel
  exact ⟨made, selected, plain, unset, _, rendered, kept names strings⟩

/-- A string that begins with the keyword and a blank loses both. -/
theorem keyword_in_string_is_lost :
    let user : Entity := .base ⟨1, "User", some "users", [⟨"id", none⟩]⟩
    let label := Column.ofExpr (.concat .postgresql [.literal ⟨.postgresql, "DISTINCT value"⟩])
    let selection := Selection.columns [label]
    let options : BuilderOptions := ⟨.named "postgresql", sharedResolver, false, "m", "j", none⟩
    let calls : List Call := [.newBuilder options, .start ⟨0⟩ user, .newQuery (some ⟨0⟩),
      .set ⟨0⟩ (.selection selection)]
    let s := initial.after calls
    Column.concat .postgresql [.text "DISTINCT value"] = .ok label ∧
      (Fragment.columns [label]).make .postgresql s.root = .ok (.selection selection) ∧
      (s.queries.get ⟨0⟩).distinct = false ∧ (s.queries.get ⟨0⟩).distinctOn? = none ∧
      selection.text = "SELECT DISTINCT CONCAT('DISTINCT value') FROM " ∧
      ((render ⟨0⟩).run s).result = .ok "SELECT CONCAT('value') FROM users m" ∧
      ¬ "SELECT CONCAT('DISTINCT value') FROM ".toList <+:
        "SELECT CONCAT('value') FROM users m".toList := by
  intro user label selection options calls s
  let q : Query := { Query.fresh (some ⟨0⟩) with selection? := some selection }
  let b : Builder := ⟨⟨.postgresql, 0⟩, sharedResolver, false, "m", "j",
    some ⟨user, sharedResolver, ⟨.postgresql, 0⟩, some "m", none⟩, [], none⟩
  have query : s.queries.get ⟨0⟩ = q := by
    show (initial.after calls).queries.get ⟨0⟩ = q
    cbv
  have builder : s.builders.get ⟨0⟩ = b := by
    show (initial.after calls).builders.get ⟨0⟩ = b
    cbv
  have rendered : ((render ⟨0⟩).run s).result = .ok "SELECT CONCAT('value') FROM users m" := by
    rw [result_render_after (by simp [calls, Call.Quiet]) query rfl builder rfl]
    decide +kernel
  exact ⟨rfl, rfl, congrArg Query.distinct query, congrArg Query.distinctOn? query,
    by decide +kernel, rendered, by decide +kernel⟩

/-- A selection that has the keyword at its start only, with the rows distinct on some columns: the
columns stand in place of the keyword as a template that is written out there. They stand as they
are if and only if no dollar sign in them has a meaning, and so they do if no name and no string in
them has a dollar sign at all. -/
theorem distinctOn_kept_iff {list : List Column} {on : DistinctOn}
    (made : f.make d rootAt = .ok (.selection selection))
    (only : ∀ before behind, selection.text = before ++ distinctKeyword ++ behind →
      before = "SELECT ")
    (columns : (Fragment.distinctOn list).make d rootAt = .ok (.distinctOn on))
    (selected : (s.queries.get h).selection? = some selection)
    (set : (s.queries.get h).distinctOn? = some on) (plain : (s.queries.get h).distinct = false)
    (rendered : ((render h).run s).result = .ok sql) :
    let kept := "SELECT DISTINCT ON (" ++ Column.listText list ++ ") " ++ selection.body
    selection.text = "SELECT " ++ distinctKeyword ++ " " ++ selection.body ∧
    (∃ rest, sql.toList = "SELECT ".toList ++
      Text.expand ⟨"SELECT ".toList, distinctKeyword.toList, ' ' :: selection.body.toList⟩
        on.text.toList ++ ' ' :: selection.body.toList ++ rest) ∧
    (kept.toList <+: sql.toList ↔ Text.Inert (Column.listText list).toList) ∧
    ((∀ c ∈ list, ∀ text ∈ c.expr.names ++ c.expr.strings, '$' ∉ text.toList) →
      kept.toList <+: sql.toList) := by
  intro kept
  have given := Selection.ne_raw_of_make made
  have written : selection.text =
      selection.opening ++ distinctKeyword ++ (" " ++ selection.body) := by
    rw [Selection.text_eq given, String.append_assoc]
  have opening := only _ _ written
  have once : ¬ distinctKeyword.toList <:+: ' ' :: selection.body.toList := by
    rintro ⟨before, behind, same⟩
    have again : selection.text = "SELECT " ++ distinctKeyword ++ String.ofList before ++
        distinctKeyword ++ String.ofList behind := by
      rw [written, opening, ← String.toList_inj]
      simp [← same]
    simpa [distinctKeyword] using congrArg (fun text => text.toList.length) (only _ _ again)
  obtain rfl := DistinctOn.eq_columns_of_make columns
  rw [run_render] at rendered
  obtain ⟨head, rest, chosen, rfl⟩ := Query.render_ok rendered
  obtain rfl : Text.replaceAll distinctKeyword (DistinctOn.columns list).text selection.text =
      head := by
    simpa [Query.selectClause, selected, plain, set, DistinctOn.isBlank_columns] using chosen
  have replaced := Selection.replaced_text given (DistinctOn.columns list).text once
  rw [opening] at replaced
  have place : (Text.Occurrence.mk "SELECT ".toList distinctKeyword.toList
      (' ' :: selection.body.toList)).Plain :=
    ⟨⟨'S', rfl, by decide⟩, ⟨'D', rfl, by decide⟩, ⟨' ', rfl, by decide⟩⟩
  have begins : kept.toList <+: (Text.replaceAll distinctKeyword (DistinctOn.columns list).text
      selection.text ++ rest).toList ↔ Text.Inert (Column.listText list).toList := by
    have parts : kept.toList = "SELECT ".toList ++ ((DistinctOn.columns list).text.toList ++
        ' ' :: selection.body.toList) := by
      simp [kept, DistinctOn.text, distinctKeyword]
    rw [← DistinctOn.inert_columns, parts, String.toList_append, replaced, List.append_assoc,
      List.prefix_append_right_inj, List.append_assoc]
    constructor
    · intro whole
      exact (Text.prefix_expand_iff place (by decide) (DistinctOn.getLast?_columns list) _).1
        ((List.prefix_append _ _).trans whole)
    · intro inert
      rw [Text.expand_of_inert _ inert, List.prefix_append_right_inj]
      exact List.prefix_append _ _
  refine ⟨?_, ⟨rest.toList, ?_⟩, begins, fun lacks => begins.2 (Text.inert_of_not_mem ?_)⟩
  · rw [written, opening]
    simp only [String.append_assoc]
  · rw [String.toList_append, replaced]
    simp only [List.append_assoc]
  · have dollar : Composable ('$' ∉ ·) := composable_not_mem (by decide) (by decide +kernel)
    refine dollar.listText (fun c mem name inside => ?_) fun c mem string there d quoted => ?_
    · exact lacks c mem name (List.mem_append_left _ inside)
    · have held := infix_of_infix_quote (by decide) (by decide) d
        ((List.singleton_infix_iff _ _).2 quoted)
      exact lacks c mem string (List.mem_append_right _ there)
        ((List.singleton_infix_iff _ _).1 held)

/-- A dollar sign before a blank has no meaning. -/
theorem distinctOn_kept_at_blank :
    let user : Entity := .base ⟨1, "User", some "users", [⟨"id", none⟩]⟩
    let parts := [.literal ⟨.postgresql, "$ "⟩, .column "m" "id"]
    let price := Column.ofExpr (.concat .postgresql parts)
    let selection := Selection.all "m"
    let on := DistinctOn.columns [price]
    let options : BuilderOptions := ⟨.named "postgresql", sharedResolver, false, "m", "j", none⟩
    let calls : List Call := [.newBuilder options, .start ⟨0⟩ user, .newQuery (some ⟨0⟩),
      .set ⟨0⟩ (.selection selection), .set ⟨0⟩ (.distinctOn on)]
    let s := initial.after calls
    (Fragment.all (.here (.start ⟨0⟩))).make .postgresql s.root = .ok (.selection selection) ∧
      (∀ before behind, selection.text = before ++ distinctKeyword ++ behind →
        before = "SELECT ") ∧
      (Fragment.distinctOn [price]).make .postgresql s.root = .ok (.distinctOn on) ∧
      (s.queries.get ⟨0⟩).selection? = some selection ∧
      (s.queries.get ⟨0⟩).distinctOn? = some on ∧ (s.queries.get ⟨0⟩).distinct = false ∧
      ∃ sql, ((render ⟨0⟩).run s).result = .ok sql ∧
        "SELECT DISTINCT ON (CONCAT('$ ' || m.id)) m.* FROM ".toList <+: sql.toList := by
  intro user parts price selection on options calls s
  let q : Query := { Query.fresh (some ⟨0⟩) with
    selection? := some selection
    distinctOn? := some on }
  let b : Builder := ⟨⟨.postgresql, 0⟩, sharedResolver, false, "m", "j",
    some ⟨user, sharedResolver, ⟨.postgresql, 0⟩, some "m", none⟩, [], none⟩
  have query : s.queries.get ⟨0⟩ = q := by
    show (initial.after calls).queries.get ⟨0⟩ = q
    cbv
  have builder : s.builders.get ⟨0⟩ = b := by
    show (initial.after calls).builders.get ⟨0⟩ = b
    cbv
  have made : (Fragment.all (.here (.start ⟨0⟩))).make .postgresql s.root =
      .ok (.selection selection) := by
    have start : s.root (.start ⟨0⟩) =
        ⟨user, sharedResolver, ⟨.postgresql, 0⟩, some "m", none⟩ := by
      rw [Session.root, builder]
      rfl
    show (Selection.ofRoot (s.root (.start ⟨0⟩))).map Answer.selection = .ok (.selection selection)
    rw [start]
    rfl
  have columns : (Fragment.distinctOn [price]).make .postgresql s.root = .ok (.distinctOn on) := rfl
  have only (before behind : String)
      (same : selection.text = before ++ distinctKeyword ++ behind) : before = "SELECT " := by
    have first : ∀ n ≤ "SELECT DISTINCT m.* FROM ".toList.length,
        distinctKeyword.toList <+: "SELECT DISTINCT m.* FROM ".toList.drop n →
        "SELECT DISTINCT m.* FROM ".toList.take n = "SELECT ".toList := by decide +kernel
    have parts : "SELECT DISTINCT m.* FROM ".toList =
        before.toList ++ (distinctKeyword.toList ++ behind.toList) := by
      rw [← List.append_assoc, ← String.toList_append, ← String.toList_append, ← same]
      decide +kernel
    have begins := first before.toList.length (by simp [parts]) (by simp [parts])
    rw [parts, List.take_left] at begins
    exact String.toList_inj.1 begins
  have selected := congrArg Query.selection? query
  have set := congrArg Query.distinctOn? query
  have plain := congrArg Query.distinct query
  have rendered : ((render ⟨0⟩).run s).result = .ok
      "SELECT DISTINCT ON (CONCAT('$ ' || m.id)) m.* FROM users m" := by
    rw [result_render_after (by simp [calls, Call.Quiet]) query rfl builder rfl]
    decide +kernel
  obtain ⟨-, -, kept, -⟩ := distinctOn_kept_iff made only columns selected set plain rendered
  have inert : Text.Inert (Column.listText [price]).toList := by
    show Text.Inert "CONCAT('$ ' || m.id)".toList
    decide +kernel
  exact ⟨made, only, columns, selected, set, plain, _, rendered, kept.2 inert⟩

/-- A string that ends in a dollar sign: with the quote behind it, it stands for the text after the
keyword. -/
theorem dollar_at_end_of_string_is_written_out :
    let user : Entity := .base ⟨1, "User", some "users", [⟨"id", none⟩]⟩
    let parts := [.literal ⟨.postgresql, "US$"⟩, .column "m" "id"]
    let price := Column.ofExpr (.concat .postgresql parts)
    let selection := Selection.all "m"
    let on := DistinctOn.columns [price]
    let options : BuilderOptions := ⟨.named "postgresql", sharedResolver, false, "m", "j", none⟩
    let calls : List Call := [.newBuilder options, .start ⟨0⟩ user, .newQuery (some ⟨0⟩),
      .set ⟨0⟩ (.selection selection), .set ⟨0⟩ (.distinctOn on)]
    let s := initial.after calls
    selection.text = "SELECT DISTINCT m.* FROM " ∧
      (Fragment.distinctOn [price]).make .postgresql s.root = .ok (.distinctOn on) ∧
      on.text = "DISTINCT ON (CONCAT('US$' || m.id))" ∧
      (s.queries.get ⟨0⟩).distinct = false ∧
      ((render ⟨0⟩).run s).result = .ok
        "SELECT DISTINCT ON (CONCAT('US m.* FROM  || m.id)) m.* FROM users m" ∧
      ¬ "SELECT DISTINCT ON (CONCAT('US$' || m.id)) m.* FROM ".toList <+:
        "SELECT DISTINCT ON (CONCAT('US m.* FROM  || m.id)) m.* FROM users m".toList := by
  intro user parts price selection on options calls s
  let q : Query := { Query.fresh (some ⟨0⟩) with
    selection? := some selection
    distinctOn? := some on }
  let b : Builder := ⟨⟨.postgresql, 0⟩, sharedResolver, false, "m", "j",
    some ⟨user, sharedResolver, ⟨.postgresql, 0⟩, some "m", none⟩, [], none⟩
  have query : s.queries.get ⟨0⟩ = q := by
    show (initial.after calls).queries.get ⟨0⟩ = q
    cbv
  have builder : s.builders.get ⟨0⟩ = b := by
    show (initial.after calls).builders.get ⟨0⟩ = b
    cbv
  have rendered : ((render ⟨0⟩).run s).result = .ok
      "SELECT DISTINCT ON (CONCAT('US m.* FROM  || m.id)) m.* FROM users m" := by
    rw [result_render_after (by simp [calls, Call.Quiet]) query rfl builder rfl]
    decide +kernel
  exact ⟨by decide +kernel, rfl, by decide +kernel, congrArg Query.distinct query, rendered,
    by decide +kernel⟩

end Rendering

end Session

end SqlSelect
