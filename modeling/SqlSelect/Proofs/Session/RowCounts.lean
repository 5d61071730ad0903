import SqlSelect.Proofs.Number.Whole
import SqlSelect.Proofs.Session.Settings

/-!
The counts of rows in a statement. Every count that is accepted is a whole number from zero on, and
is written in full as long as it is below `10 ^ 21`; a greater one is written with an exponent.
-/
namespace SqlSelect

/-- The counts of a query are such as are accepted. -/
structure Query.Counted (q : Query) : Prop where
  limit : checkRowCount .limit q.limit = .ok ()
  offset : ∀ k ∈ q.offset?, checkRowCount .offset k = .ok ()

theorem isNumeral_text_of_accepted {clause : RowClause} {count : Double}
    (accepted : checkRowCount clause count = .ok ()) :
    Double.IsNumeral count.text count ↔ count.lessThan .exponentBound = true := by
  obtain ⟨whole, natural⟩ := checkRowCount_eq_ok.1 accepted
  exact Double.isNumeral_text_iff whole natural

namespace Session

theorem Setting.counted_apply {c : Setting} {q next : Query} (ok : c.apply q = .ok next)
    (counted : q.Counted) : next.Counted := by
  obtain ⟨limit, offset⟩ := Setting.counts_apply ok
  exact ⟨limit.elim (fun same => same ▸ counted.limit) id,
    offset.elim (fun same => same ▸ counted.offset) id⟩

theorem counted_after (calls : List Call) (h : Handle .query) :
    ((initial.after calls).queries.get h).Counted := by
  have zero : Double.zero.isInteger = true ∧ Double.zero.lessThan .zero = false := by
    decide +kernel
  have new (builder? : Option (Handle .builder)) : (Query.fresh builder?).Counted :=
    ⟨checkRowCount_eq_ok.2 zero, fun k mem => by cases mem⟩
  refine (after_induction (P := fun s => s.Sound ∧ ∀ h, (s.queries.get h).Counted)
    ⟨sound_initial, fun _ => new none⟩ (fun s c kept => ⟨kept.1.next c, ?_⟩) calls).2 h
  change ∀ h, ((s.next c).bare.queries.get h).Counted
  rcases next_cases kept.1 c with ⟨a, -, meant⟩ | ⟨e, -, left⟩
  · exact queries_of_meaning new (fun _ _ counted => ⟨counted.limit, counted.offset⟩)
      Setting.counted_apply meant kept.2
  · rw [left]
    exact kept.2

/-- In any session, a statement ends in the clauses for the limit and the offset of its query. The
clause for a limit above zero consists of the word and the text of the number, and so does the one
for an offset. This text is a numeral that reads back as the number exactly if the number is below
`10 ^ 21`. -/
theorem row_counts_plain_iff {calls : List Call} {h : Handle .query} {q : Query} {sql : String}
    (query : (initial.after calls).queries.get h = q)
    (rendered : ((render h).run (initial.after calls)).result = .ok sql) :
    (∃ front, sql = front ++ q.limitClause ++ q.offsetText) ∧
      (Double.zero.lessThan q.limit = true → ∃ numeral, q.limitClause = " LIMIT " ++ numeral ∧
        (Double.IsNumeral numeral q.limit ↔ q.limit.lessThan .exponentBound = true)) ∧
      ∀ k ∈ q.offset?, ∃ numeral, q.offsetText = " OFFSET " ++ numeral ∧
        (Double.IsNumeral numeral k ↔ k.lessThan .exponentBound = true) := by
  have counted : q.Counted := query ▸ counted_after calls h
  have text := statement_of_render (sound_after calls) rendered
  rw [query] at text
  obtain ⟨sources, start, selected, -, -, -, rfl⟩ := Query.statement_ok text
  refine ⟨⟨selected ++ start.tableClause ++ String.join (sources.joins.map TableRoot.joinClause) ++
    q.whereClause ++ q.groupClause ++ q.orderClause, ?_⟩, fun positive => ?_, fun k set => ?_⟩
  · simp only [Query.tail, String.append_assoc]
  · refine ⟨q.limit.text, ?_, isNumeral_text_of_accepted counted.limit⟩
    rw [Query.limitClause, if_pos positive]
  · refine ⟨k.text, ?_, isNumeral_text_of_accepted (counted.offset k set)⟩
    rw [Query.offsetText, show q.offset? = some k from set]
    rfl

/-- A limit far beyond the numbers that are exact up to the unit, with a negative zero as the
offset. -/
theorem row_counts_plain_at_extremes :
    let user : Entity := .base ⟨1, "User", some "users", [⟨"id", none⟩]⟩
    let options : BuilderOptions := ⟨.named "postgresql", sharedResolver, false, "m", "j", none⟩
    let limit : Double := .ofNat (10 ^ 20)
    let offset : Double := .ofDecimal true 0 0
    let setup : List Call := [.newBuilder options, .start ⟨0⟩ user, .newQuery (some ⟨0⟩)]
    let settings : List SetCall := [.selection (.all "m"), .limit limit, .offset offset]
    let calls := setup ++ settings.map (SetCall.call ⟨0⟩)
    let q := SetCall.putAll settings (Query.fresh (some ⟨0⟩))
    (initial.after calls).queries.get ⟨0⟩ = q ∧ q.limit = limit ∧ q.offset? = some offset ∧
      ((render ⟨0⟩).run (initial.after calls)).result = .ok
        "SELECT m.* FROM users m LIMIT 100000000000000000000 OFFSET 0" ∧
      (∃ numeral, q.limitClause = " LIMIT " ++ numeral ∧ Double.IsNumeral numeral limit) ∧
      ∃ numeral, q.offsetText = " OFFSET " ++ numeral ∧ Double.IsNumeral numeral offset := by
  intro user options limit offset setup settings calls q
  have accepted : settings.filter SetCall.valid = settings := by
    have limited : (SetCall.limit limit).valid = true := by decide +kernel
    have skipped : (SetCall.offset offset).valid = true := by decide +kernel
    have selected : (SetCall.selection (.all "m")).valid = true := rfl
    simp [settings, limited, skipped, selected]
  have new : (initial.after setup).queries.get ⟨0⟩ = .fresh (some ⟨0⟩) := by cbv
  let b : Builder := ⟨⟨.postgresql, 0⟩, sharedResolver, false, "m", "j",
    some ⟨user, sharedResolver, ⟨.postgresql, 0⟩, some "m", none⟩, [], none⟩
  have builder : (initial.after setup).builders.get ⟨0⟩ = b := by cbv
  have made : SetCall.putAll (settings.filter SetCall.valid)
      ((initial.after setup).queries.get ⟨0⟩) = SetCall.putAll settings (.fresh (some ⟨0⟩)) := by
    rw [accepted, new]
  have query : (initial.after calls).queries.get ⟨0⟩ = q := by
    simp only [calls, q]
    exact get_after_setup made
  have rendered : ((render ⟨0⟩).run (initial.after calls)).result = .ok
      "SELECT m.* FROM users m LIMIT 100000000000000000000 OFFSET 0" := by
    rw [result_render_settings made (by simp [setup, Call.Quiet]) rfl builder rfl]
    decide +kernel
  obtain ⟨-, limitClause, offsetClause⟩ := row_counts_plain_iff query rendered
  obtain ⟨numeral, clause, plain⟩ := limitClause (by decide +kernel)
  obtain ⟨numeral', clause', plain'⟩ := offsetClause offset rfl
  have limitBelow : limit.lessThan .exponentBound = true := by decide +kernel
  have offsetBelow : offset.lessThan .exponentBound = true := by decide +kernel
  exact ⟨query, rfl, rfl, rendered, ⟨numeral, clause, plain.2 limitBelow⟩, numeral', clause',
    plain'.2 offsetBelow⟩

/-- At the bound itself: the limit is accepted, and written with an exponent. -/
theorem limit_with_exponent :
    let user : Entity := .base ⟨1, "User", some "users", [⟨"id", none⟩]⟩
    let options : BuilderOptions := ⟨.named "postgresql", sharedResolver, false, "m", "j", none⟩
    let limit : Double := .ofDecimal false 1 21
    let setup : List Call := [.newBuilder options, .start ⟨0⟩ user, .newQuery (some ⟨0⟩)]
    let settings : List SetCall := [.selection (.all "m"), .limit limit]
    let calls := setup ++ settings.map (SetCall.call ⟨0⟩)
    let q := SetCall.putAll settings (Query.fresh (some ⟨0⟩))
    checkRowCount .limit limit = .ok () ∧ Double.zero.lessThan limit = true ∧
      (initial.after calls).queries.get ⟨0⟩ = q ∧ q.limit = limit ∧
      ((render ⟨0⟩).run (initial.after calls)).result = .ok "SELECT m.* FROM users m LIMIT 1e+21" ∧
      q.limitClause = " LIMIT 1e+21" ∧ ¬ Double.IsNumeral "1e+21" limit := by
  intro user options limit setup settings calls q
  have allowed : checkRowCount .limit limit = .ok () :=
    checkRowCount_eq_ok.2 (by decide +kernel)
  have accepted : settings.filter SetCall.valid = settings := by
    have limited : (SetCall.limit limit).valid = true := by decide +kernel
    have selected : (SetCall.selection (.all "m")).valid = true := rfl
    simp [settings, limited, selected]
  have new : (initial.after setup).queries.get ⟨0⟩ = .fresh (some ⟨0⟩) := by cbv
  let b : Builder := ⟨⟨.postgresql, 0⟩, sharedResolver, false, "m", "j",
    some ⟨user, sharedResolver, ⟨.postgresql, 0⟩, some "m", none⟩, [], none⟩
  have builder : (initial.after setup).builders.get ⟨0⟩ = b := by cbv
  have made : SetCall.putAll (settings.filter SetCall.valid)
      ((initial.after setup).queries.get ⟨0⟩) = SetCall.putAll settings (.fresh (some ⟨0⟩)) := by
    rw [accepted, new]
  have query : (initial.after calls).queries.get ⟨0⟩ = q := by
    simp only [calls, q]
    exact get_after_setup made
  have rendered : ((render ⟨0⟩).run (initial.after calls)).result = .ok
      "SELECT m.* FROM users m LIMIT 1e+21" := by
    rw [result_render_settings made (by simp [setup, Call.Quiet]) rfl builder rfl]
    decide +kernel
  refine ⟨allowed, by decide +kernel, query, rfl, rendered, by decide +kernel, fun numeral => ?_⟩
  exact absurd (numeral.digits 'e' (by decide +kernel)) (by decide)

end Session
end SqlSelect
