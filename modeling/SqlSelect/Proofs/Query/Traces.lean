import SqlSelect.Proofs.Builder.Declarations

/-!
What roots, builders and queries leave behind when they ask for names: resolvers that have grown,
and a journal in which one line reports the statement, if there is one, and no line does before.
-/
namespace SqlSelect

def Entry.line? : Entry → Option (LogLine (List (String × String)))
  | log event => some event.line
  | notice _ => none

/-- The lines of a journal that report a statement. -/
def statementLines (journal : List Entry) : List (LogLine (List (String × String))) :=
  (journal.filterMap Entry.line?).filter (·.message = "Rendered query")

@[simp] theorem statementLines_nil : statementLines [] = [] := rfl

@[simp] theorem statementLines_append (journal more : List Entry) :
    statementLines (journal ++ more) = statementLines journal ++ statementLines more := by
  simp [statementLines]

namespace Resolver

theorem statementLines_logged (r : Resolver) {event : LogEvent}
    (other : event.line.message ≠ "Rendered query") : statementLines (r.logged event) = [] := by
  unfold logged
  split
  · simp [statementLines, Entry.line?, other]
  · rfl

theorem statementLines_logThen {loggers : Loggers} {r : Resolver} {event : LogEvent}
    (other : event.line.message ≠ "Rendered query") {rest : Unit → Outcome Resolver Unit}
    (later : statementLines (rest ()).journal = []) :
    statementLines (r.logThen loggers event rest).journal = [] := by
  obtain ⟨message, thrown⟩ | taken := logThen_cases loggers r event rest
  · rw [thrown]
    exact r.statementLines_logged other
  · rw [taken, Outcome.journal_after, statementLines_append, r.statementLines_logged other, later,
      List.append_nil]

theorem statementLines_deliver (loggers : Loggers) (r : Resolver) (tasks : List Task) :
    statementLines (r.deliver loggers tasks).journal = [] := by
  fun_induction deliver loggers r tasks with
  | case1 r => rfl
  | case2 r notice rest ih => exact ih
  | case3 r l event rest _ ih => exact ih
  | case4 r l event rest message _ => rfl
  | case5 r l event rest e _ name _ ih => exact ih
  | case6 r l event rest e _ _ name learnt ih =>
    exact statementLines_logThen (by simp [LogEvent.line]) ih

theorem statementLines_announce (loggers : Loggers) (r : Resolver) {log : LogEvent}
    (event : ResolveEvent) (other : log.line.message ≠ "Rendered query") :
    statementLines (r.announce loggers log event).journal = [] :=
  statementLines_logThen other (statementLines_deliver loggers r _)

theorem statementLines_resolveTable (loggers : Loggers) (e : Entity) (r : Resolver) :
    statementLines ((resolveTable e).runWith loggers r).journal = [] := by
  obtain ⟨name, -, run⟩ | ⟨-, run⟩ := runWith_resolveTable_cases loggers e r
  · rw [run]
    rfl
  · rw [run]
    exact statementLines_announce loggers _ _ (by simp [LogEvent.line])

theorem statementLines_resolveColumn (loggers : Loggers) (e : Entity) (field : String)
    (r : Resolver) : statementLines ((resolveColumn e field).runWith loggers r).journal = [] := by
  obtain ⟨name, -, run⟩ | ⟨-, -, run⟩ | ⟨name, -, -, run⟩ :=
    runWith_resolveColumn_cases loggers e field r
  · rw [run]
    rfl
  · rw [run]
    rfl
  · rw [run]
    exact statementLines_announce loggers _ _ (by simp [LogEvent.line])

end Resolver

/-- What is left of resolvers by asking for names: they have grown, and one that remembered only
names that entities give still does. -/
structure Resolvers.Grown (names : Resolvers) (_ : List Entry) (left : Resolvers) : Prop where
  grows : ∀ h, (names.get h).Grows (left.get h)
  coherent : ∀ h, (names.get h).Coherent → (left.get h).Coherent

theorem Resolvers.Grown.refl (names : Resolvers) (journal : List Entry) :
    names.Grown journal names := ⟨fun h => .refl (names.get h), fun _ coherent => coherent⟩

instance : Action.Composes Resolvers.Grown where
  refl names := .refl names []
  trans first second := ⟨fun h => (first.grows h).trans (second.grows h),
    fun h coherent => second.coherent h (first.coherent h coherent)⟩

/-- What is left of resolvers by asking for names, and what is written meanwhile. -/
structure Resolvers.Asked (names : Resolvers) (journal : List Entry) (left : Resolvers) : Prop where
  grown : names.Grown journal left
  lines : statementLines journal = []

abbrev Asks {α : Type} (a : Action Resolvers α) : Prop := a.Ensures Resolvers.Asked

instance : Action.Composes Resolvers.Asked where
  refl names := ⟨.refl names [], rfl⟩
  trans first second := ⟨Action.Composes.trans first.grown second.grown, by
    rw [statementLines_append, first.lines, second.lines, List.append_nil]⟩

namespace Resolvers.Asked

theorem act {α : Type} (h : Handle .resolver) {a : Action Resolver α}
    (grows : ∀ loggers (r : Resolver), r.Grows (a.runWith loggers r).state)
    (coherent : ∀ loggers {r : Resolver}, r.Coherent → (a.runWith loggers r).state.Coherent)
    (lines : ∀ loggers r, statementLines (a.runWith loggers r).journal = []) :
    Asks (Resolvers.act h a) := by
  refine fun loggers names => ⟨?_, lines loggers (names.get h)⟩
  have asked (k : Handle .resolver) :
      ((Resolvers.act h a).runWith loggers names).state.get k =
        if k = h then (a.runWith loggers (names.get k)).state else names.get k := by
    split
    · next same =>
      subst same
      exact Store.get_set_self _ _ _
    · next other => exact Store.get_set_of_ne _ other _
  constructor <;> intro k
  · rw [asked]
    split
    · exact grows loggers _
    · exact .refl _
  · rw [asked]
    intro here
    split
    · exact coherent loggers here
    · exact here

theorem resolveTable (h : Handle .resolver) (e : Entity) :
    Asks (Resolvers.act h (Resolver.resolveTable e)) :=
  act h (fun loggers => .resolveTable loggers e) (fun loggers _ here => here.resolveTable loggers e)
    fun loggers => Resolver.statementLines_resolveTable loggers e

theorem resolveColumn (h : Handle .resolver) (e : Entity) (field : String) :
    Asks (Resolvers.act h (Resolver.resolveColumn e field)) :=
  act h (fun loggers => .resolveColumn loggers e field)
    (fun loggers _ here => here.resolveColumn loggers e field)
    fun loggers => Resolver.statementLines_resolveColumn loggers e field

end Resolvers.Asked

namespace TableRoot

variable (r : TableRoot)

theorem asks_tableName : Asks r.tableName := .resolveTable r.resolver r.entity

theorem asks_columnExpr (field : String) : Asks (r.columnExpr field) :=
  .bind (.resolveColumn r.resolver r.entity field) fun _ => .bind (.lift _) fun _ => .pure _

theorem asks_column (field : String) (name? : Option String) : Asks (r.column field name?) :=
  .bind (r.asks_columnExpr field) fun _ => .lift _

theorem asks_count (field : String) (name? : Option String) : Asks (r.count field name?) :=
  .bind (r.asks_columnExpr field) fun _ => .lift _

theorem asks_formatDate (field pattern : String) (name? : Option String) :
    Asks (r.formatDate field pattern name?) :=
  .bind (r.asks_columnExpr field) fun _ => .lift _

end TableRoot

namespace Workbench

def Asked (w : Workbench) (journal : List Entry) (left : Workbench) : Prop :=
  w.resolvers.Asked journal left.resolvers

instance : Action.Composes Asked where
  refl w := Action.Composes.refl w.resolvers
  trans first second := Action.Composes.trans (R := Resolvers.Asked) first second

namespace Asked

theorem onResolvers {α : Type} {a : Action Resolvers α} (h : Asks a) :
    (Workbench.onResolvers a).Ensures Asked := fun loggers w => h loggers w.resolvers

theorem changeBuilder (f : Builder → Builder) : (Workbench.changeBuilder f).Ensures Asked :=
  fun _ w => Action.Composes.refl w.resolvers

theorem report (logs : Bool) {event : LogEvent} (declares : event.Declares) :
    (Action.log logs event).Ensures Asked := fun loggers w => by
  refine ⟨.refl w.resolvers _, ?_⟩
  cases logs with
  | false => rfl
  | true =>
    cases event with
    | fromDeclared | joinDeclared => simp [Action.log, Action.runWith, statementLines, Entry.line?,
        LogEvent.line]
    | tableResolved | columnResolved | rendered => exact declares.elim

end Asked

end Workbench

namespace Builder

open Workbench

theorem asks_declareStart (e : Entity) : (declareStart e).Ensures Asked :=
  declareStart_ensures e (fun _ => .changeBuilder _) fun logs _ => .report logs

theorem asks_declareJoin (e : Entity) (source : Column) (targetField typeName : String) :
    (declareJoin e source targetField typeName).Ensures Asked :=
  declareJoin_ensures e source targetField typeName
    (fun root => .onResolvers (root.asks_column targetField none)) (fun _ => .changeBuilder _)
    fun logs _ => .report logs

end Builder

namespace Query

variable (q : Query)

/-- The text of a statement before it is reported. -/
def compose (start : TableRoot) (joins : List TableRoot) : Action Resolvers String := do
  let selected ← q.selectClause
  let table ← tableText start
  let joined ← joinTexts joins
  let skipped ← q.offsetClause
  return selected ++ table ++ joined ++ q.whereClause ++ q.groupClause ++ q.orderClause ++
    q.limitClause ++ skipped

theorem asks_tableText (r : TableRoot) : Asks (tableText r) :=
  .bind r.asks_tableName fun _ => .bind (.lift _) fun _ => .pure _

theorem asks_joinText (r : TableRoot) : Asks (joinText r) := by
  unfold joinText
  split
  · exact .bind (.lift _) fun _ => .fail _
  · refine .bind (asks_tableText r) fun _ => ?_
    dsimp only
    split
    · exact .pure _
    · exact .pure _

theorem asks_joinTexts (joins : List TableRoot) : Asks (joinTexts joins) := by
  induction joins with
  | nil => exact .pure _
  | cons r joins ih => exact .bind (asks_joinText r) fun _ => .bind ih fun _ => .pure _

theorem asks_compose (start : TableRoot) (joins : List TableRoot) : Asks (q.compose start joins) :=
  .bind (.lift _) fun _ => .bind (asks_tableText start) fun _ => .bind (asks_joinTexts joins)
    fun _ => .bind (.lift _) fun _ => .pure _

/-- The entries that report a statement. -/
def reports (logs : Bool) : Except QueryError String → List Entry
  | .ok sql => if logs then [.log (.rendered sql)] else []
  | .error _ => []

theorem render_started {sources : Sources} {start : TableRoot}
    (begins : sources.start? = some start) :
    q.render (some sources) = q.compose start sources.joins >>= fun sql => do
      Action.log sources.logs (.rendered sql)
      return sql := by
  simp only [render, begins, compose, bind_assoc, pure_bind]

theorem run_render_started {sources : Sources} {start : TableRoot}
    (begins : sources.start? = some start) (names : Resolvers) :
    (q.render (some sources)).run names =
      let o := (q.compose start sources.joins).run names
      { o with journal := o.journal ++ reports sources.logs o.result } := by
  rw [q.render_started begins]
  rcases o : (q.compose start sources.joins).run names with ⟨left, journal, e | sql⟩
  · rw [Action.run_bind_error o]
    simp [reports]
  · have reported : (Action.log sources.logs (.rendered sql) : Action Resolvers Unit).run left =
        ⟨left, reports sources.logs (.ok sql), .ok ()⟩ := rfl
    rw [Action.run_bind_ok o, Action.run_bind_ok reported]
    simp [Outcome.after]

/-- A query that succeeds reports its text if its builder logs; nothing else of what it writes is
about a statement. -/
theorem statementLines_render (sources? : Option Sources) (names : Resolvers) :
    let o := (q.render sources?).run names
    statementLines o.journal = statementLines (reports (sources?.any (·.logs)) o.result) := by
  cases sources? with
  | none => rfl
  | some sources =>
    cases begins : sources.start? with
    | none =>
      simp only [render, begins]
      rfl
    | some start =>
      have asked := (q.asks_compose start sources.joins).run names
      rw [run_render_started q begins]
      dsimp only
      rw [statementLines_append, asked.lines, List.nil_append]
      rfl

theorem grows_render (sources? : Option Sources) : (q.render sources?).Ensures Resolvers.Grown := by
  cases sources? with
  | none => exact .fail _
  | some sources =>
    cases begins : sources.start? with
    | none =>
      simp only [render, begins]
      exact .fail _
    | some start =>
      have reported (sql : String) :
          (Action.log sources.logs (.rendered sql)).Ensures Resolvers.Grown := fun _ names =>
        .refl names _
      rw [q.render_started begins]
      exact .bind (.mono (q.asks_compose start sources.joins) fun asked => asked.grown)
        fun sql => .bind (reported sql) fun _ => .pure _

end Query

end SqlSelect
