import SqlSelect.Diagnostic
import SqlSelect.Proofs.Session.Aliases
import SqlSelect.Proofs.Session.Builders

/-!
When a query can be rendered. Five things are asked of it, in one order; nothing else can go wrong,
since every root that a builder owns has its alias and every joined root its join.
-/
namespace SqlSelect

/-- The error of the first condition that does not hold. -/
def firstError : List (Bool × QueryError) → Except QueryError Unit
  | [] => .ok ()
  | (holds, e) :: conditions => if holds then firstError conditions else .error e

theorem firstError_eq_ok {conditions : List (Bool × QueryError)} :
    firstError conditions = .ok () ↔ ∀ c ∈ conditions, c.1 = true := by
  induction conditions with
  | nil => simp [firstError]
  | cons c conditions ih =>
    obtain ⟨holds, e⟩ := c
    cases holds <;> simp [firstError, ih]

theorem mem_of_firstError {conditions : List (Bool × QueryError)} {e : QueryError}
    (failed : firstError conditions = .error e) : e ∈ conditions.map Prod.snd := by
  induction conditions with
  | nil => cases failed
  | cons c conditions ih =>
    obtain ⟨holds, e'⟩ := c
    cases holds with
    | false => exact Except.error.inj failed ▸ List.mem_cons_self
    | true => exact List.mem_cons_of_mem _ (ih failed)

theorem firstError_append (conditions more : List (Bool × QueryError)) :
    firstError (conditions ++ more) = firstError conditions >>= fun _ => firstError more := by
  induction conditions with
  | nil => rfl
  | cons c conditions ih =>
    obtain ⟨holds, e⟩ := c
    cases holds
    · rfl
    · exact ih

theorem TableRoot.checkJoined_of_wired {r : TableRoot} (named : r.alias?.isSome = true)
    (wired : r.join?.isSome = true) : r.checkJoined = .ok () := by
  obtain ⟨name, hasName⟩ := Option.isSome_iff_exists.1 named
  obtain ⟨join, hasJoin⟩ := Option.isSome_iff_exists.1 wired
  simp [checkJoined, aliasName, hasName, hasJoin, Except.map]

namespace Query

/-- What is asked of a query and its tables, in order: a builder, a start, a selection, one way of
taking rows as equal at most, and a limit where there is an offset. -/
def requirements (q : Query) (sources? : Option Sources) : List (Bool × QueryError) :=
  [(sources?.isSome, .unbound),
    (sources?.any (·.start?.isSome), .fromMissing),
    (q.selection?.isSome, .selectionMissing),
    (!(q.distinct && q.distinctOn?.any fun d => !Text.isBlank d.text), .distinctTwice),
    (q.offset?.isNone || (Double.ofNat 1).atMost q.limit, .offsetWithoutLimit)]

theorem selectClause_requirements (q : Query) : q.selectClause.map (fun _ => ()) =
    firstError [(q.selection?.isSome, .selectionMissing),
      (!(q.distinct && q.distinctOn?.any fun d => !Text.isBlank d.text), .distinctTwice)] := by
  have blank : Text.isBlank ((q.distinctOn?.map DistinctOn.text).getD "") =
      !q.distinctOn?.any fun d => !Text.isBlank d.text := by
    cases q.distinctOn? with
    | none => rfl
    | some d => simp
  unfold selectClause
  simp only [blank]
  cases q.selection? with
  | none => rfl
  | some selection =>
    cases q.distinct <;> cases q.distinctOn?.any fun d => !Text.isBlank d.text <;> rfl

theorem offsetClause_requirements {q : Query} (number : q.limit ≠ .nan) :
    q.offsetClause.map (fun _ => ()) =
      firstError [(q.offset?.isNone || (Double.ofNat 1).atMost q.limit, .offsetWithoutLimit)] := by
  have one : Double.ofNat 1 ≠ .nan := by decide +kernel
  unfold offsetClause
  cases q.offset? with
  | none => rfl
  | some count =>
    simp only [Double.atMost, bne_iff_ne.2 one, bne_iff_ne.2 number]
    cases q.limit.lessThan (.ofNat 1) <;> rfl

/-- Over tables with all their aliases and joins, the conditions decide how rendering ends. -/
theorem statement_requirements {q : Query} {sources? : Option Sources} (number : q.limit ≠ .nan)
    (named : ∀ sources ∈ sources?, ∀ r ∈ sources.start?, r.alias?.isSome = true)
    (wired : ∀ sources ∈ sources?, ∀ r ∈ sources.joins, r.alias?.isSome = true ∧
      r.join?.isSome = true) :
    (q.statement sources?).map (fun _ => ()) = firstError (q.requirements sources?) := by
  cases sources? with
  | none => rfl
  | some sources =>
    cases begins : sources.start? with
    | none => simp [statement, requirements, begins, firstError, Except.map]
    | some start =>
      obtain ⟨name, hasName⟩ := Option.isSome_iff_exists.1 (named sources rfl start begins)
      have aliased : start.aliasName = .ok name := by simp [TableRoot.aliasName, hasName]
      obtain ⟨checked, joined⟩ := exists_mapM_eq_ok fun r mem =>
        ⟨_, TableRoot.checkJoined_of_wired (wired sources rfl r mem).1 (wired sources rfl r mem).2⟩
      -- With all names and joins there, only the selection and the offset can still go wrong.
      have parts : firstError (q.requirements (some sources)) =
          q.selectClause.map (fun _ => ()) >>= fun _ => q.offsetClause.map fun _ => () := by
        rw [selectClause_requirements, offsetClause_requirements number, ← firstError_append]
        simp [requirements, begins, firstError]
      rw [parts]
      simp only [statement, begins, aliased, joined]
      cases q.selectClause with
      | error e => rfl
      | ok selected => cases q.offsetClause <;> rfl

end Query

/-- Every root of the builder has an alias, and each that it joins has its join. -/
structure Builder.Furnished (b : Builder) : Prop where
  start : ∀ r ∈ b.start?, r.alias?.isSome = true
  joins : ∀ r ∈ b.joins, r.alias?.isSome = true ∧ r.join?.isSome = true

namespace Session

theorem RootChange.keeps {c : RootChange} {r next : TableRoot} (ok : c.apply r = .ok next) :
    (r.alias?.isSome = true → next.alias?.isSome = true) ∧
      (r.join?.isSome = true → next.join?.isSome = true) := by
  rcases RootChange.apply_ok ok with
    ⟨_, -, -, rfl⟩ | ⟨_, _, _, -, -, rfl⟩ | ⟨_, _, -, -, -, rfl⟩ <;> simp

theorem Call.Alters.furnished {h : Handle .builder} {b next : Builder} {c : Call}
    (alters : c.Alters h b next) (before : b.Furnished) : next.Furnished := by
  cases alters with
  | started plain =>
    obtain ⟨-, rfl⟩ := Builder.plainStart_ok plain
    refine ⟨?_, before.joins⟩
    simp [Builder.aliasedRoot]
  | joined plain =>
    obtain ⟨-, _, _, -, -, rfl⟩ := Builder.plainJoin_ok plain
    refine ⟨before.start, fun r mem => ?_⟩
    rcases List.mem_append.1 mem with mem | mem
    · exact before.joins r mem
    · rw [List.mem_singleton.1 mem]
      simp [Builder.aliasedRoot]
  | startRoot changed =>
    refine ⟨fun r mem => ?_, before.joins⟩
    obtain ⟨old, begins, rfl⟩ := Option.map_eq_some_iff.1 mem
    exact (RootChange.keeps (changed old begins)).1 (before.start old begins)
  | @joinedRoot i c r changed =>
    refine ⟨before.start, fun k mem => ?_⟩
    cases there : b.joins[i]? with
    | none =>
      rw [List.set_eq_of_length_le (List.getElem?_eq_none_iff.1 there)] at mem
      exact before.joins k mem
    | some old =>
      obtain ⟨named, wired⟩ := before.joins old (List.mem_of_getElem? there)
      rcases List.mem_or_eq_of_mem_set mem with mem | rfl
      · exact before.joins k mem
      · have kept := RootChange.keeps (changed old there)
        exact ⟨kept.1 named, kept.2 wired⟩
  | spared => exact before

theorem furnished_make {dialect : Dialect} {resolver : Handle .resolver} {logs : Bool}
    {startAlias joinAlias : String} {listed? : Option (List RootRef)} {b : Builder}
    (made : Builder.make dialect resolver logs startAlias joinAlias listed? = .ok b) :
    b.Furnished := by
  obtain ⟨-, -, rfl⟩ := Builder.make_eq_ok.1 made
  constructor <;> simp

/-- What holds of every session that is reached: its builders are furnished, and each query's limit
is a number. -/
structure Furnished (s : Session) : Prop where
  builders : ∀ h, (s.builders.get h).Furnished
  limits : ∀ h, (s.queries.get h).limit ≠ .nan

/-- The counts of a query change only to such as are accepted. -/
theorem Setting.counts_apply {c : Setting} {q next : Query} (ok : c.apply q = .ok next) :
    (next.limit = q.limit ∨ checkRowCount .limit next.limit = .ok ()) ∧
      (next.offset? = q.offset? ∨ ∀ k ∈ next.offset?, checkRowCount .offset k = .ok ()) := by
  cases c with
  | selection | distinctOn | distinct | order | grouping =>
    obtain rfl := Except.ok.inj ok
    exact ⟨.inl rfl, .inl rfl⟩
  | condition p =>
    have ok : q.withCondition p = .ok next := ok
    unfold Query.withCondition at ok
    split at ok
    · cases ok
    · obtain rfl := Except.ok.inj ok
      exact ⟨.inl rfl, .inl rfl⟩
  | limit count =>
    obtain ⟨⟨⟩, accepted, rfl⟩ := except_map_eq_ok.1 ok
    exact ⟨.inr accepted, .inl rfl⟩
  | offset count =>
    obtain ⟨⟨⟩, accepted, rfl⟩ := except_map_eq_ok.1 ok
    exact ⟨.inl rfl, .inr fun k mem => Option.some.inj mem ▸ accepted⟩

theorem Setting.limit_apply {c : Setting} {q next : Query} (ok : c.apply q = .ok next)
    (number : q.limit ≠ .nan) : next.limit ≠ .nan := by
  rcases (Setting.counts_apply ok).1 with same | accepted
  · rwa [same]
  · intro nan
    rw [nan] at accepted
    cases (checkRowCount_eq_ok.1 accepted).1

/-- What holds of new queries and outlives each way to change one holds of the queries that a call
leaves. -/
theorem queries_of_meaning {P : Query → Prop} (new : ∀ builder?, P (.fresh builder?))
    (bind : ∀ q b, P q → P (q.setBuilder b))
    (set : ∀ {c : Setting} {q next : Query}, c.apply q = .ok next → P q → P next)
    {s t : Session} {c : Call} {a : Answer} (meant : c.meaning s = .ok (a, t))
    (before : ∀ h, P (s.queries.get h)) (h : Handle .query) : P (t.queries.get h) := by
  have changed {k : Handle .query} {q : Query} (holds : P q) :
      P ((s.queries.set k q).get h) := by
    by_cases same : h = k
    · rw [same, Store.get_set_self]
      exact holds
    · rw [Store.get_set_of_ne _ same]
      exact before h
  cases leaves_of_meaning meant with
  | newQuery => exact changed (new _)
  | bind k => exact changed (bind _ _ (before k))
  | @set k c q applied => exact changed (set applied (before k))
  | @change ref => cases ref <;> exact before h
  | _ => exact before h

theorem limit_of_meaning {s t : Session} {c : Call} {a : Answer}
    (meant : c.meaning s = .ok (a, t)) (numbers : ∀ h, (s.queries.get h).limit ≠ .nan)
    (h : Handle .query) : (t.queries.get h).limit ≠ .nan :=
  queries_of_meaning (P := fun q => q.limit ≠ .nan) (fun _ => nofun) (fun _ _ number => number)
    Setting.limit_apply meant numbers h

theorem Furnished.meaning {s t : Session} {c : Call} {a : Answer} (before : s.Furnished)
    (meant : c.meaning s = .ok (a, t)) : t.Furnished := by
  refine ⟨fun h => ?_, limit_of_meaning meant before.limits⟩
  rcases alters_of_meaning meant h with ⟨-, _, _, -, made⟩ | alters
  · exact furnished_make made
  · exact alters.furnished (before.builders h)

theorem furnished_of_bare {s : Session} (furnished : s.bare.Furnished) : s.Furnished := by
  refine ⟨fun h => ⟨fun r begins => ?_, fun r mem => ?_⟩, furnished.limits⟩
  · exact (furnished.builders h).start r.bare (Option.map_eq_some_iff.2 ⟨r, begins, rfl⟩)
  · exact (furnished.builders h).joins r.bare (List.mem_map.2 ⟨r, mem, rfl⟩)

theorem furnished_after (calls : List Call) : (initial.after calls).Furnished := by
  have start : initial.bare.Furnished := ⟨fun h => ⟨nofun, nofun⟩, fun h => nofun⟩
  refine furnished_of_bare (after_induction (P := fun s => s.Sound ∧ s.bare.Furnished)
    ⟨sound_initial, start⟩ (fun s c kept => ⟨kept.1.next c, ?_⟩) calls).2
  rcases next_cases kept.1 c with ⟨a, -, meant⟩ | ⟨e, -, left⟩
  · exact kept.2.meaning meant
  · rw [left]
    exact kept.2

/-- What a query is rendered to is its statement, whatever listeners do. -/
theorem statement_of_render {s : Session} (sound : s.Sound) {h : Handle .query} {sql : String}
    (rendered : ((render h).run s).result = .ok sql) :
    (s.queries.get h).statement ((s.queries.get h).builder?.map s.sources) = .ok sql := by
  rw [run_render] at rendered
  exact ((s.queries.get h).computes_render _).eq_ok sound.names rendered

theorem sources_of_unlisted {s : Session} {h : Handle .builder}
    (unlisted : (s.builders.get h).listed? = none) :
    s.sources h = (s.builders.get h).sources := by
  unfold sources
  rw [map_root_joinRoots unlisted]
  rfl

section Unlisted

variable {s : Session} {h : Handle .query}
  (unlisted : ∀ b ∈ (s.queries.get h).builder?, (s.builders.get b).listed? = none)

include unlisted

theorem run_render_unlisted : (render h).run s = (onResolvers ((s.queries.get h).render
    ((s.queries.get h).builder?.map fun b => (s.builders.get b).sources))).run s := by
  rw [run_render]
  congr 3
  cases bound : (s.queries.get h).builder? with
  | none => rfl
  | some b => exact congrArg some (sources_of_unlisted (unlisted b bound))

/-- Where no listener refuses, rendering gives the statement over the builder's own tables. -/
theorem result_render (sound : s.Sound) (quiet : s.Quiet) :
    ((render h).run s).result = (s.queries.get h).statement
      ((s.queries.get h).builder?.map fun b => (s.builders.get b).sources) := by
  rw [run_render_unlisted unlisted]
  exact ((s.queries.get h).computes_render _).result_of_quiet sound.names quiet

end Unlisted

/-- A run without refusals, and the query and the builder that it leaves. -/
theorem result_render_after {calls : List Call} (harmless : ∀ c ∈ calls, c.Quiet)
    {h : Handle .query} {k : Handle .builder} {q : Query} {b : Builder}
    (query : (initial.after calls).queries.get h = q) (bound : q.builder? = some k)
    (builder : (initial.after calls).builders.get k = b) (unlisted : b.listed? = none) :
    ((render h).run (initial.after calls)).result = q.statement (some b.sources) := by
  subst query builder
  have plain : ∀ b ∈ ((initial.after calls).queries.get h).builder?,
      ((initial.after calls).builders.get b).listed? = none := by
    intro b mem
    obtain rfl := Option.some.inj (bound.symm.trans mem)
    exact unlisted
  rw [result_render plain (sound_after calls) (quiet_after harmless), bound]
  rfl

/-- The line that reports a statement. -/
def reportLine (sql : String) : LogLine (List (String × String)) :=
  ⟨.debug, "Rendered query", [[("sql", shorten sql (.ofNat loggedLength))]]⟩

theorem statementLines_reports (logs : Bool) (result : Except QueryError String) :
    statementLines (Query.reports logs result) = match result with
      | .ok sql => if logs then [reportLine sql] else []
      | .error _ => [] := by
  cases result with
  | error e => rfl
  | ok sql =>
    cases logs with
    | false => rfl
    | true => simp [Query.reports, statementLines, Entry.line?, LogEvent.line, reportLine]

theorem requirements_all {q : Query} {sources? : Option Sources} :
    (∀ c ∈ q.requirements sources?, c.1 = true) ↔
      (∃ sources ∈ sources?, sources.start?.isSome = true) ∧ q.selection?.isSome = true ∧
      ¬ (q.distinct = true ∧ ∃ d ∈ q.distinctOn?, Text.isBlank d.text = false) ∧
      ∀ count ∈ q.offset?, (Double.ofNat 1).atMost q.limit = true := by
  have bound : (sources?.isSome = true ∧ (sources?.any (·.start?.isSome)) = true) ↔
      ∃ sources ∈ sources?, sources.start?.isSome = true := by
    cases sources? <;> simp
  have distinct : (!(q.distinct && q.distinctOn?.any fun d => !Text.isBlank d.text)) = true ↔
      ¬ (q.distinct = true ∧ ∃ d ∈ q.distinctOn?, Text.isBlank d.text = false) := by
    cases q.distinct <;> cases q.distinctOn? <;> simp
  have paged : (q.offset?.isNone || (Double.ofNat 1).atMost q.limit) = true ↔
      ∀ count ∈ q.offset?, (Double.ofNat 1).atMost q.limit = true := by
    cases q.offset? <;> simp
  simp only [Query.requirements, List.forall_mem_cons, List.not_mem_nil, false_implies,
    implies_true, and_true, distinct, paged, ← bound, and_assoc]

/-- In any session without listeners that refuse, a query on a builder's own roots, or on none, is
rendered exactly if it is bound, its builder has a start, it has a selection, it does not ask
for distinct rows in two ways, and it has a limit of at least one if it has an offset. Else it
fails with the error of the first of these conditions that is violated; an alias or a join is
never what is missing. What is rendered is reported in one line if the builder logs, and nothing
else is. -/
theorem render_follows_requirements (calls : List Call) (h : Handle .query)
    (quiet : (initial.after calls).Quiet)
    (unlisted : ∀ b ∈ ((initial.after calls).queries.get h).builder?,
      ((initial.after calls).builders.get b).listed? = none) :
    let s := initial.after calls
    let q := s.queries.get h
    let conditions := q.requirements (q.builder?.map fun b => (s.builders.get b).sources)
    let o := (render h).run s
    ((∃ sql, o.result = .ok sql) ↔
      (∃ b ∈ q.builder?, (s.builders.get b).start?.isSome = true) ∧ q.selection?.isSome = true ∧
      ¬ (q.distinct = true ∧ ∃ d ∈ q.distinctOn?, Text.isBlank d.text = false) ∧
      ∀ count ∈ q.offset?, (Double.ofNat 1).atMost q.limit = true) ∧
    o.result.map (fun _ => ()) = firstError conditions ∧
    conditions.map (fun c => (c.2.diagnostic.kind, c.2.diagnostic.field?)) =
      [(.state, none), (.state, none), (.validation, some "select"),
        (.validation, some "distinct"), (.validation, some "offset")] ∧
    (∀ entity name, o.result ≠ .error (.wiringMissing entity name) ∧
      o.result ≠ .error (.aliasMissing entity)) ∧
    statementLines o.journal = match o.result with
      | .ok sql =>
        if q.builder?.any (fun b => (s.builders.get b).logs) then [reportLine sql] else []
      | .error _ => [] := by
  intro s q conditions o
  have furnished := furnished_after calls
  have decides : o.result.map (fun _ => ()) = firstError conditions := by
    rw [result_render unlisted (sound_after calls) quiet]
    refine Query.statement_requirements (furnished.limits h) ?_ ?_
    · intro sources mem
      obtain ⟨b, -, rfl⟩ := Option.map_eq_some_iff.1 mem
      exact (furnished.builders b).start
    · intro sources mem
      obtain ⟨b, -, rfl⟩ := Option.map_eq_some_iff.1 mem
      exact (furnished.builders b).joins
  have among {e : QueryError} (failed : o.result = .error e) : e ∈ conditions.map Prod.snd := by
    rw [failed] at decides
    exact mem_of_firstError decides.symm
  refine ⟨?_, decides, rfl, fun entity name => ⟨fun failed => ?_, fun failed => ?_⟩, ?_⟩
  · have ok : (∃ sql, o.result = .ok sql) ↔ firstError conditions = .ok () := by
      rw [← decides]
      cases o.result <;> simp [Except.map]
    rw [ok, firstError_eq_ok, requirements_all]
    simp [Builder.sources]
  · simpa [conditions, Query.requirements] using among failed
  · simpa [conditions, Query.requirements] using among failed
  · have lines := q.statementLines_render
      (q.builder?.map fun b => (s.builders.get b).sources) s.resolvers
    dsimp only at lines
    have logged : (q.builder?.map fun b => (s.builders.get b).sources).any (·.logs) =
        q.builder?.any fun b => (s.builders.get b).logs := by
      cases q.builder? <;> rfl
    rw [logged, statementLines_reports] at lines
    have run : o = (onResolvers (q.render
        (q.builder?.map fun b => (s.builders.get b).sources))).run s := run_render_unlisted unlisted
    rw [run]
    exact lines

/-- A page of one user cannot be asked for by its offset alone; with a limit the same query is
rendered, and reported once. -/
theorem page_needs_limit :
    let user : Entity := .base ⟨1, "User", none, [⟨"id", none⟩]⟩
    let offset : List Call := [.newBuilder ⟨.standard, sharedResolver, true, "m", "j", none⟩,
      .start ⟨0⟩ user, .newQuery (some ⟨0⟩), .set ⟨0⟩ (.selection (.all "m")),
      .set ⟨0⟩ (.offset (.ofNat 5))]
    let page : List Call := offset ++ [.set ⟨0⟩ (.limit (.ofNat 1))]
    let failed := (render ⟨0⟩).run (initial.after offset)
    let done := (render ⟨0⟩).run (initial.after page)
    (initial.after page).Quiet ∧
      (∀ b ∈ ((initial.after page).queries.get ⟨0⟩).builder?,
        ((initial.after page).builders.get b).listed? = none) ∧
      failed.result = .error .offsetWithoutLimit ∧ statementLines failed.journal = [] ∧
      ∃ sql, done.result = .ok sql ∧ statementLines done.journal = [reportLine sql] := by
  intro user offset page failed done
  have unlisted {calls : List Call}
      (bound : ((initial.after calls).queries.get ⟨0⟩).builder? = some ⟨0⟩)
      (plain : ((initial.after calls).builders.get ⟨0⟩).listed? = none) :
      ∀ b ∈ ((initial.after calls).queries.get ⟨0⟩).builder?,
        ((initial.after calls).builders.get b).listed? = none := by
    intro b mem
    rw [bound] at mem
    exact Option.some.inj mem ▸ plain
  have quiet {calls : List Call} (among : calls ⊆ page) : (initial.after calls).Quiet := by
    have harmless : ∀ c ∈ page, c.Quiet := by simp [page, offset, Call.Quiet]
    exact quiet_after fun c mem => harmless c (among mem)
  have plain : ∀ b ∈ ((initial.after page).queries.get ⟨0⟩).builder?,
      ((initial.after page).builders.get b).listed? = none :=
    unlisted (by decide +kernel) (by decide +kernel)
  obtain ⟨-, violated, -, -, silent⟩ := render_follows_requirements offset ⟨0⟩
    (quiet (List.subset_append_left _ _)) (unlisted (by decide +kernel) (by decide +kernel))
  obtain ⟨-, holds, -, -, reported⟩ := render_follows_requirements page ⟨0⟩
    (quiet (List.Subset.refl _)) plain
  have offsetAlone : failed.result.map (fun _ => ()) = .error .offsetWithoutLimit :=
    violated.trans (by decide +kernel)
  have complete : done.result.map (fun _ => ()) = .ok () := holds.trans (by decide +kernel)
  have logs : ((initial.after page).queries.get ⟨0⟩).builder?.any
      (fun b => ((initial.after page).builders.get b).logs) = true := by decide +kernel
  have ends : failed.result = .error .offsetWithoutLimit := by
    rcases result : failed.result with e | sql
    · rw [result] at offsetAlone
      exact congrArg _ (Except.error.inj offsetAlone)
    · rw [result] at offsetAlone
      cases offsetAlone
  obtain ⟨sql, result⟩ : ∃ sql, done.result = .ok sql := by
    rcases result : done.result with e | sql
    · rw [result] at complete
      cases complete
    · exact ⟨sql, rfl⟩
  refine ⟨quiet (List.Subset.refl _), plain, ends, ?_, sql, result, ?_⟩
  · refine silent.trans ?_
    rw [ends]
  · refine reported.trans ?_
    rw [result, logs]
    rfl

end Session
end SqlSelect
