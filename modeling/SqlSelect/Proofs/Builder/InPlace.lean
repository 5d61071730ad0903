import SqlSelect.Query

/-!
Changes that are written in place, told by the object that they make. A change of a root or a query
is made as a whole or not at all, whatever loggers do. A declaration writes the builder before its
line is logged: with loggers that take every line it comes to a builder that is replaced at the end.
-/
namespace SqlSelect

namespace Action

variable {σ τ : Type} {a : Action τ Unit} {f : τ → Except QueryError τ}

/-- The action makes the change if it can be made, and else leaves the object as it was. -/
def Makes (a : Action τ Unit) (f : τ → Except QueryError τ) : Prop :=
  ∀ loggers t, a.runWith loggers t = match f t with
    | .ok u => ⟨u, [], .ok ()⟩
    | .error e => ⟨t, [], .error e⟩

theorem makes_modify (g : τ → τ) : (modify g).Makes fun t => .ok (g t) := fun _ _ => rfl

/-- A failure leaves the object as it was. -/
theorem Makes.unchanged (h : a.Makes f) {loggers : Loggers} {t : τ} {e : QueryError}
    (failed : (a.runWith loggers t).result = .error e) : (a.runWith loggers t).state = t := by
  rw [h loggers t] at failed ⊢
  cases made : f t with
  | error e => rfl
  | ok u => rw [made] at failed; cases failed

theorem Makes.onNew_eq (h : a.Makes f) (t : τ) : (onNew t a : Action σ τ) = liftM (f t) := by
  funext loggers s
  have made := h loggers t
  unfold runWith at made
  unfold onNew
  rw [made]
  cases f t <;> rfl

end Action

namespace TableRoot

variable (r : TableRoot)

def withAlias (name : String) : Except QueryError TableRoot :=
  match r.alias? with
  | some given => .error (.aliasAssigned r.entity.name given)
  | none => (checkAlias name).map fun _ => { r with alias? := some name }

def withJoin (type : JoinType) (source target : Column) : Except QueryError TableRoot :=
  match r.join? with
  | some _ => r.aliasName >>= fun name => .error (.alreadyJoined r.entity.name name)
  | none => .ok { r with join? := some ⟨type, source, target, none⟩ }

def withCondition (p : Predicate) : Except QueryError TableRoot :=
  match r.join? with
  | none => .error (.notJoined r.entity.name)
  | some join =>
    if join.type = .cross then .error .crossJoinCondition
    else .ok { r with join? := some { join with condition? := some p } }

theorem assignAlias_makes (name : String) : (assignAlias name).Makes (·.withAlias name) := by
  intro loggers r
  refine (Action.runWith_bind_ok (Action.runWith_get r)).trans ?_
  dsimp only [withAlias]
  cases r.alias? with
  | some given => rfl
  | none => cases checkAlias name <;> rfl

theorem attachJoin_makes (type : JoinType) (source target : Column) :
    (attachJoin type source target).Makes (·.withJoin type source target) := by
  intro loggers r
  refine (Action.runWith_bind_ok (Action.runWith_get r)).trans ?_
  dsimp only [withJoin]
  cases r.join? with
  | some join => cases r.aliasName <;> rfl
  | none => rfl

theorem addJoinCondition_makes (p : Predicate) :
    (addJoinCondition p).Makes (·.withCondition p) := by
  intro loggers r
  refine (Action.runWith_bind_ok (Action.runWith_get r)).trans ?_
  dsimp only [withCondition]
  cases r.join? with
  | none => rfl
  | some join =>
    dsimp only
    split <;> rfl

end TableRoot

namespace Query

variable (q : Query)

def withCondition (p : Predicate) : Except QueryError Query :=
  if Text.isBlank p.text then .error .conditionBlank else .ok { q with condition? := some p }

def withLimit (count : Double) : Except QueryError Query :=
  (checkRowCount .limit count).map fun _ => { q with limit := count }

def withOffset (count : Double) : Except QueryError Query :=
  (checkRowCount .offset count).map fun _ => { q with offset? := some count }

theorem setCondition_makes (p : Predicate) : (setCondition p).Makes (·.withCondition p) := by
  intro loggers q
  unfold setCondition withCondition
  cases Text.isBlank p.text <;> rfl

theorem setLimit_makes (count : Double) : (setLimit count).Makes (·.withLimit count) := by
  intro loggers q
  unfold setLimit withLimit
  cases checkRowCount .limit count <;> rfl

theorem setOffset_makes (count : Double) : (setOffset count).Makes (·.withOffset count) := by
  intro loggers q
  unfold setOffset withOffset
  cases checkRowCount .offset count <;> rfl

end Query

/-- Asking for names leaves the builder alone. -/
theorem Workbench.runWith_onResolvers {α : Type} (a : Action Resolvers α) (loggers : Loggers)
    (b : Builder) (names : Resolvers) :
    (onResolvers a).runWith loggers ⟨b, names⟩ =
      let o := a.runWith loggers names
      ⟨⟨b, o.state⟩, o.journal, o.result⟩ := rfl

namespace Builder

variable (b : Builder)

def withStart (e : Entity) : Action Resolvers Builder := do
  if b.start?.isSome then Action.fail .fromDeclared
  let root ← (b.newRoot e).withAlias b.startAlias
  Action.log b.logs (.fromDeclared e.name b.startAlias)
  return { b with start? := some root }

def withJoin (e : Entity) (source : Column) (targetField typeName : String) :
    Action Resolvers Builder := do
  if b.start?.isNone then Action.fail .joinBeforeFrom
  let type ← b.joinType typeName
  let aliasName := Alias.firstFree b.taken b.joinAlias
  let root ← (b.newRoot e).withAlias aliasName
  let target ← root.column targetField none
  let root ← root.withJoin type source target
  Action.log b.logs (.joinDeclared e.name aliasName type)
  return { b with joins := b.joins ++ [root] }

/-- An action on a builder and its resolvers comes to one that gives the builder to put there, if
loggers take every line. -/
def Replaces (a : Action Workbench Unit) (next : Action Resolvers Builder) : Prop :=
  ∀ names, a.run ⟨b, names⟩ =
    let o := next.run names
    match o.result with
    | .ok changed => ⟨⟨changed, o.state⟩, o.journal, .ok ()⟩
    | .error e => ⟨⟨b, o.state⟩, o.journal, .error e⟩

namespace Replaces

variable {b : Builder} {α : Type}

theorem get {f : Workbench → Action Workbench Unit} {next : Action Resolvers Builder}
    (h : ∀ names, b.Replaces (f ⟨b, names⟩) next) : b.Replaces (Action.get >>= f) next :=
  fun names => (Action.run_bind_ok (Action.run_get _)).trans (h names names)

theorem fail (e : QueryError) (f : α → Action Workbench Unit) (g : α → Action Resolvers Builder) :
    b.Replaces (Action.fail e >>= f) (Action.fail e >>= g) := fun _ => rfl

theorem lift {x : Except QueryError α} {f : α → Action Workbench Unit}
    {g : α → Action Resolvers Builder} (h : ∀ y, b.Replaces (f y) (g y)) :
    b.Replaces (liftM x >>= f) (liftM x >>= g) := fun names => by
  cases x with
  | error e => rfl
  | ok y =>
    rw [Action.run_bind_ok (Action.run_lift (.ok y) _),
      Action.run_bind_ok (Action.run_lift (.ok y) _)]
    exact h y names

theorem ask {a : Action Resolvers α} {f : α → Action Workbench Unit}
    {g : α → Action Resolvers Builder} (h : ∀ y, b.Replaces (f y) (g y)) :
    b.Replaces (Workbench.onResolvers a >>= f) (a >>= g) := fun names => by
  have asked := Workbench.runWith_onResolvers a .sink b names
  rcases o : a.runWith .sink names with ⟨left, journal, e | y⟩
  · rw [o] at asked
    rw [Action.run_bind_error asked, Action.run_bind_error o]
  · rw [o] at asked
    rw [Action.run_bind_ok asked, Action.run_bind_ok o, h y left]
    dsimp only [Outcome.result_after, Outcome.state_after, Outcome.journal_after]
    split <;> rfl

theorem store (f : Builder → Builder) (logs : Bool) (event : LogEvent) :
    b.Replaces (do Workbench.changeBuilder f; Action.log logs event)
      (do Action.log logs event; return f b) := fun names => by
  rw [Action.run_bind_ok (Action.run_log logs event names)]
  simp only [Action.run_pure, Outcome.after, List.append_nil]
  rfl

end Replaces

theorem declareStart_replaces (e : Entity) : b.Replaces (declareStart e) (b.withStart e) := by
  refine .get fun names => ?_
  unfold withStart
  dsimp only
  rw [(TableRoot.assignAlias_makes b.startAlias).onNew_eq]
  split
  · exact .fail _ _ _
  · exact .lift fun root => .store _ _ _

theorem declareJoin_replaces (e : Entity) (source : Column) (targetField typeName : String) :
    b.Replaces (declareJoin e source targetField typeName)
      (b.withJoin e source targetField typeName) := by
  refine .get fun names => ?_
  unfold withJoin
  dsimp only
  simp only [(TableRoot.assignAlias_makes _).onNew_eq, (TableRoot.attachJoin_makes _ _ _).onNew_eq]
  split
  · exact .fail _ _ _
  · exact .lift fun type => .lift fun root => .ask fun target => .lift fun root => .store _ _ _

end Builder

end SqlSelect
