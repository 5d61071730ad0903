import SqlSelect.Proofs.Builder.InPlace
import SqlSelect.Proofs.Resolver.Announcements
import SqlSelect.Proofs.Resolver.Growth

/-!
Declarations step by step. A declaration makes all its checks and asks for all its names before it
writes the builder, and reports the new root after that. So an error leaves the builder as it was
unless the logger throws at the report: by then all that the declaration does is done.
-/
namespace SqlSelect

/-- The lines that report a root that was declared. -/
def LogEvent.Declares : LogEvent → Prop
  | fromDeclared _ _ | joinDeclared _ _ _ => True
  | tableResolved _ _ | columnResolved _ _ _ | rendered _ => False

namespace Loggers

/-- Loggers that take these lines, whatever they do with others. -/
def TakeReports (loggers : Loggers) : Prop :=
  ∀ event : LogEvent, event.Declares → loggers event = none

/-- There is a logger, and it throws this error when it is to report a root that was declared. -/
def ThrowAtReport (loggers : Loggers) (logs : Bool) (e : QueryError) : Prop :=
  logs = true ∧
    ∃ (event : LogEvent) (message : String),
      event.Declares ∧ loggers event = some message ∧ e = .refused message

theorem TakeReports.not_throwAtReport {loggers : Loggers} (take : loggers.TakeReports) {logs : Bool}
    {e : QueryError} : ¬ loggers.ThrowAtReport logs e := by
  rintro ⟨-, event, message, declares, threw, -⟩
  rw [take event declares] at threw
  cases threw

end Loggers

theorem TableRoot.patient_column (r : TableRoot) (field : String) (name? : Option String) :
    (r.column field name?).Patient :=
  have resolved : (Resolvers.act r.resolver (Resolver.resolveColumn r.entity field)).Patient :=
    .onPart (Resolver.patient_resolveColumn r.entity field)
  .bind (.bind resolved fun _ => .bind (.lift _) fun _ => .pure _) fun _ => .lift _

namespace Builder

/-- An action that fails leaves the builder as it was, or it is the report of what it has done that
fails. -/
def Commits (b : Builder) (a : Action Workbench Unit) : Prop :=
  ∀ loggers names e, (a.runWith loggers ⟨b, names⟩).result = .error e →
    (a.runWith loggers ⟨b, names⟩).state.builder = b ∨
    loggers.ThrowAtReport b.logs e ∧ (a.run ⟨b, names⟩).result = .ok () ∧
      (a.runWith loggers ⟨b, names⟩).state = (a.run ⟨b, names⟩).state

namespace Commits

variable {b : Builder} {α : Type}

theorem get {f : Workbench → Action Workbench Unit} (h : ∀ names, b.Commits (f ⟨b, names⟩)) :
    b.Commits (Action.get >>= f) := fun loggers names e failed => by
  have read (loggers : Loggers) : Action.get.runWith loggers (Workbench.mk b names) =
      ⟨⟨b, names⟩, [], .ok ⟨b, names⟩⟩ := Action.runWith_get _
  rw [Action.runWith_bind_ok (read loggers)] at failed ⊢
  rw [Action.run_bind_ok (read .sink)]
  exact h names _ _ _ failed

theorem fail (e : QueryError) (f : α → Action Workbench Unit) : b.Commits (Action.fail e >>= f) :=
  fun _ _ _ _ => .inl rfl

theorem lift {x : Except QueryError α} {f : α → Action Workbench Unit}
    (h : ∀ y, b.Commits (f y)) : b.Commits (liftM x >>= f) := fun loggers names e failed => by
  cases x with
  | error e =>
    rw [Action.runWith_bind_error (Action.runWith_lift (.error e) _)]
    exact .inl rfl
  | ok y =>
    rw [Action.runWith_bind_ok (Action.runWith_lift (.ok y) _)] at failed ⊢
    rw [Action.run_bind_ok (Action.run_lift (.ok y) _)]
    exact h y _ _ _ failed

/-- Names are asked for before anything is written, so a look-up that fails is harmless, and one
that succeeds is the look-up that there is with loggers that take every line. -/
theorem ask {a : Action Resolvers α} (patient : a.Patient) {f : α → Action Workbench Unit}
    (h : ∀ y, b.Commits (f y)) : b.Commits (Workbench.onResolvers a >>= f) :=
  fun loggers names e failed => by
  have asked := Workbench.runWith_onResolvers a loggers b names
  rcases o : a.runWith loggers names with ⟨left, journal, e' | y⟩
  · rw [o] at asked
    rw [Action.runWith_bind_error asked]
    exact .inl rfl
  · have same : a.run names = ⟨left, journal, .ok y⟩ :=
      (patient _ _ y (congrArg Outcome.result o)).symm.trans o
    have taken : (Workbench.onResolvers a).run ⟨b, names⟩ = ⟨⟨b, left⟩, journal, .ok y⟩ := by
      rw [Action.run, Workbench.runWith_onResolvers, ← Action.run, same]
    rw [o] at asked
    rw [Action.runWith_bind_ok asked] at failed ⊢
    rw [Action.run_bind_ok taken]
    exact h y _ _ _ failed

theorem store (f : Builder → Builder) {event : LogEvent} (declares : event.Declares) :
    b.Commits (do Workbench.changeBuilder f; Action.log b.logs event) :=
  fun loggers names e failed => by
  have run : (do Workbench.changeBuilder f; Action.log b.logs event).runWith loggers ⟨b, names⟩ =
      (Action.log b.logs event).runWith loggers ⟨f b, names⟩ :=
    Action.runWith_bind_ok (Action.runWith_modify _ _)
  rw [run] at failed ⊢
  obtain ⟨logs, message, threw, same⟩ := Action.runWith_log_eq_error.1 failed
  exact .inr ⟨⟨logs, event, message, declares, threw, same⟩, rfl, rfl⟩

end Commits

section Ensures

variable {R : Workbench → List Entry → Workbench → Prop} [Action.Composes R]

theorem declareStart_ensures (e : Entity)
    (write : ∀ root, (Workbench.changeBuilder fun b => { b with start? := some root }).Ensures R)
    (report : ∀ logs event, event.Declares → (Action.log logs event).Ensures R) :
    (declareStart e).Ensures R := by
  refine .bind .get fun w => ?_
  dsimp only
  rw [(TableRoot.assignAlias_makes w.builder.startAlias).onNew_eq]
  split
  · exact .fail_bind _ _
  · exact .bind (.lift _) fun root => .bind (write root) fun _ => report _ _ trivial

theorem declareJoin_ensures (e : Entity) (source : Column) (targetField typeName : String)
    (ask : ∀ root : TableRoot, (Workbench.onResolvers (root.column targetField none)).Ensures R)
    (write : ∀ root,
      (Workbench.changeBuilder fun b => { b with joins := b.joins ++ [root] }).Ensures R)
    (report : ∀ logs event, event.Declares → (Action.log logs event).Ensures R) :
    (declareJoin e source targetField typeName).Ensures R := by
  refine .bind .get fun w => ?_
  dsimp only
  simp only [(TableRoot.assignAlias_makes _).onNew_eq, (TableRoot.attachJoin_makes _ _ _).onNew_eq]
  split
  · exact .fail_bind _ _
  · exact .bind (.lift _) fun _ => .bind (.lift _) fun root => .bind (ask root) fun _ =>
      .bind (.lift _) fun root => .bind (write root) fun _ => report _ _ trivial

end Ensures

theorem declareStart_commits (b : Builder) (e : Entity) : b.Commits (declareStart e) := by
  refine .get fun names => ?_
  dsimp only
  rw [(TableRoot.assignAlias_makes b.startAlias).onNew_eq]
  split
  · exact .fail _ _
  · exact .lift fun root => .store _ trivial

theorem declareJoin_commits (b : Builder) (e : Entity) (source : Column)
    (targetField typeName : String) :
    b.Commits (declareJoin e source targetField typeName) := by
  refine .get fun names => ?_
  dsimp only
  simp only [(TableRoot.assignAlias_makes _).onNew_eq, (TableRoot.attachJoin_makes _ _ _).onNew_eq]
  split
  · exact .fail _ _
  · exact .lift fun type => .lift fun root => .ask (root.patient_column targetField none)
      fun target => .lift fun root => .store _ trivial

end Builder

end SqlSelect
