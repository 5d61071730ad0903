import SqlSelect.Proofs.Builder.Steps
import SqlSelect.Session

/-!
What is left of a session after a change of one object. Changes that are made in place come to the
replacement of the object by what is made of it: of a root or a query always, and of a builder when
loggers take every line. A replacement comes about only if all of it succeeds; names that were asked
for stay.
-/
namespace SqlSelect.Session

variable {α : Type}

theorem run_onResolvers (a : Action Resolvers α) (s : Session) :
    (onResolvers a).run s = ⟨{ s with resolvers := (a.run s.resolvers).state },
      (a.run s.resolvers).journal, (a.run s.resolvers).result⟩ := rfl

@[simp] theorem run_builder (h : Handle .builder) (s : Session) :
    (builder h).run s = ⟨s, [], .ok (s.builders.get h)⟩ := rfl

def changeBuilder (h : Handle .builder) (f : Builder → Action Resolvers Builder) :
    Action Session Unit := do
  let changed ← onResolvers (f (← builder h))
  Action.modify fun s => { s with builders := s.builders.set h changed }

theorem run_changeBuilder (h : Handle .builder) (f : Builder → Action Resolvers Builder)
    (s : Session) :
    (changeBuilder h f).run s =
      let o := (f (s.builders.get h)).run s.resolvers
      match o.result with
      | .ok b =>
        ⟨{ s with resolvers := o.state, builders := s.builders.set h b }, o.journal, .ok ()⟩
      | .error e => ⟨{ s with resolvers := o.state }, o.journal, .error e⟩ := by
  have start : (changeBuilder h f).run s = ((onResolvers (f (s.builders.get h)) >>= fun changed =>
      Action.modify fun s => { s with builders := s.builders.set h changed }).run s) :=
    Action.run_bind_ok (run_builder h s)
  rw [start]
  rcases o : (f (s.builders.get h)).run s.resolvers with ⟨names, journal, e | b⟩
  · rw [Action.run_bind_error (by rw [run_onResolvers, o])]
  · rw [Action.run_bind_ok (by rw [run_onResolvers, o])]
    simp [Outcome.after]

theorem run_onBuilder {h : Handle .builder} {a : Action Workbench Unit}
    {f : Builder → Action Resolvers Builder} {s : Session}
    (replaces : (s.builders.get h).Replaces a (f (s.builders.get h))) :
    (onBuilder h a).run s = (changeBuilder h f).run s := by
  have run : (onBuilder h a).run s =
      let o := a.run ⟨s.builders.get h, s.resolvers⟩
      ⟨{ s with resolvers := o.state.resolvers, builders := s.builders.set h o.state.builder },
        o.journal, o.result⟩ := rfl
  rw [run, replaces s.resolvers, run_changeBuilder]
  rcases (f (s.builders.get h)).run s.resolvers with ⟨names, journal, e | b⟩
  · simp only [Store.set_get_self]
  · rfl

/-- A builder that was just made lies under a handle of its own, as it was asked for and with the
dialect that was chosen for it. -/
theorem newBuilder_ok {options : BuilderOptions} {s : Session} {h : Handle .builder}
    (made : ((newBuilder options).run s).result = .ok h) :
    Identifier.isIdentifier options.startAlias.toList = true ∧
    Identifier.isIdentifier options.joinAlias.toList = true ∧
    h.index < ((newBuilder options).run s).state.builders.size ∧
    ((newBuilder options).run s).state.pool = ((chooseDialect options.dialect).run s).state.pool ∧
    ∃ dialect, ((chooseDialect options.dialect).run s).result = .ok dialect ∧
      ((newBuilder options).run s).state.builders.get h =
        ⟨dialect, options.resolver, options.logs, options.startAlias, options.joinAlias, none, [],
          options.listed?⟩ := by
  unfold newBuilder at made ⊢
  obtain ⟨dialect, chosen, made⟩ := Action.run_bind_eq_ok made
  obtain ⟨b, make, made⟩ := Action.run_bind_eq_ok made
  rw [Action.run_bind_of_ok chosen, Outcome.state_after, Action.run_bind_of_ok make]
  rw [Action.run_lift] at make made ⊢
  obtain ⟨start, join, rfl⟩ := Builder.make_eq_ok.1 make
  obtain rfl := Except.ok.inj made
  exact ⟨start, join, Nat.lt_succ_self _, rfl, dialect, chosen, Store.get_add_self _ _⟩

@[simp] theorem run_rootAt (ref : RootRef) (s : Session) :
    (rootAt ref).run s = ⟨s, [], .ok (s.root ref)⟩ := rfl

@[simp] theorem run_query (h : Handle .query) (s : Session) :
    (query h).run s = ⟨s, [], .ok (s.queries.get h)⟩ := rfl

theorem run_askRoot (ref : RootRef) (a : TableRoot → Action Resolvers α) (s : Session) :
    (rootAt ref >>= fun r => onResolvers (a r)).run s = (onResolvers (a (s.root ref))).run s :=
  Action.run_bind_ok (run_rootAt ref s)

theorem run_render (h : Handle .query) (s : Session) :
    (render h).run s = (onResolvers ((s.queries.get h).render
      ((s.queries.get h).builder?.map s.sources))).run s := by
  unfold render
  rw [Action.run_bind_ok (run_query h s), Action.run_bind_ok (Action.run_get s)]
  rfl

def changeRoot (ref : RootRef) (f : TableRoot → Except QueryError TableRoot) :
    Action Session Unit := do
  let changed ← f (← rootAt ref)
  Action.modify (·.setRoot ref changed)

theorem runWith_changeRoot (loggers : Loggers) (ref : RootRef)
    (f : TableRoot → Except QueryError TableRoot) (s : Session) :
    (changeRoot ref f).runWith loggers s =
      match f (s.root ref) with
      | .ok r => ⟨s.setRoot ref r, [], .ok ()⟩
      | .error e => ⟨s, [], .error e⟩ := by
  have read : (rootAt ref).runWith loggers s = ⟨s, [], .ok (s.root ref)⟩ := rfl
  unfold changeRoot
  rw [Action.runWith_bind_ok read]
  cases changed : f (s.root ref) with
  | error e => rw [Action.runWith_bind_error (by rw [Action.runWith_lift])]; rfl
  | ok r => rw [Action.runWith_bind_ok (by rw [Action.runWith_lift])]; rfl

theorem run_changeRoot (ref : RootRef) (f : TableRoot → Except QueryError TableRoot)
    (s : Session) :
    (changeRoot ref f).run s =
      match f (s.root ref) with
      | .ok r => ⟨s.setRoot ref r, [], .ok ()⟩
      | .error e => ⟨s, [], .error e⟩ := runWith_changeRoot .sink ref f s

@[simp] theorem setRoot_root (s : Session) (ref : RootRef) : s.setRoot ref (s.root ref) = s := by
  have kept (h : Handle .builder) :
      { s with builders := s.builders.set h (s.builders.get h) } = s :=
    congrArg (fun builders => { s with builders := builders }) (s.builders.set_get_self h)
  cases ref with
  | start h =>
    have same : ((s.builders.get h).start?.map fun _ => s.root (.start h)) =
        (s.builders.get h).start? := by
      cases begins : (s.builders.get h).start? <;> simp [root, begins]
    rw [setRoot, same]
    exact kept h
  | joined h i =>
    have same : (s.builders.get h).joins.set i (s.root (.joined h i)) =
        (s.builders.get h).joins := by
      by_cases there : i < (s.builders.get h).joins.length
      · simp [root, there]
      · exact List.set_eq_of_length_le (Nat.le_of_not_lt there)
    rw [setRoot, same]
    exact kept h
  | loose h => rw [setRoot, root, Store.set_get_self]

theorem onRoot_eq {a : Action TableRoot Unit} {f : TableRoot → Except QueryError TableRoot}
    (makes : a.Makes f) (ref : RootRef) : onRoot ref a = changeRoot ref f := by
  funext loggers s
  have made : a loggers (s.root ref) = _ := makes loggers (s.root ref)
  refine Eq.trans ?_ (runWith_changeRoot loggers ref f s).symm
  unfold onRoot Action.onPart
  rw [made]
  cases f (s.root ref) with
  | error e => simp only [setRoot_root]
  | ok r => rfl

def changeQuery (h : Handle .query) (f : Query → Except QueryError Query) :
    Action Session Unit := do
  let changed ← f (← query h)
  Action.modify fun s => { s with queries := s.queries.set h changed }

theorem runWith_changeQuery (loggers : Loggers) (h : Handle .query)
    (f : Query → Except QueryError Query) (s : Session) :
    (changeQuery h f).runWith loggers s =
      match f (s.queries.get h) with
      | .ok q => ⟨{ s with queries := s.queries.set h q }, [], .ok ()⟩
      | .error e => ⟨s, [], .error e⟩ := by
  have read : (query h).runWith loggers s = ⟨s, [], .ok (s.queries.get h)⟩ := rfl
  unfold changeQuery
  rw [Action.runWith_bind_ok read]
  cases changed : f (s.queries.get h) with
  | error e => rw [Action.runWith_bind_error (by rw [Action.runWith_lift])]; rfl
  | ok q => rw [Action.runWith_bind_ok (by rw [Action.runWith_lift])]; rfl

theorem run_changeQuery (h : Handle .query) (f : Query → Except QueryError Query) (s : Session) :
    (changeQuery h f).run s =
      match f (s.queries.get h) with
      | .ok q => ⟨{ s with queries := s.queries.set h q }, [], .ok ()⟩
      | .error e => ⟨s, [], .error e⟩ := runWith_changeQuery .sink h f s

theorem onQuery_eq {a : Action Query Unit} {f : Query → Except QueryError Query}
    (makes : a.Makes f) (h : Handle .query) : onQuery h a = changeQuery h f := by
  funext loggers s
  have made : a loggers (s.queries.get h) = _ := makes loggers (s.queries.get h)
  refine Eq.trans ?_ (runWith_changeQuery loggers h f s).symm
  unfold onQuery Action.onPart
  rw [made]
  cases f (s.queries.get h) with
  | error e => simp only [Store.set_get_self]
  | ok q => rfl

end SqlSelect.Session
