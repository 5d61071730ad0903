import SqlSelect.Proofs.Builder.Plain
import SqlSelect.Proofs.Query.Render
import SqlSelect.Proofs.Session.Calls

/-!
What is left of a session when all that looks names up, and all that only tells dialects for one
database apart, is put aside. Whatever can be answered from names that entities give can be
answered from the bare session.
-/
namespace SqlSelect

theorem except_map_bind {α β γ : Type} (x : Except QueryError α)
    (f : α → Except QueryError β) (g : β → γ) :
    (x >>= f).map g = x >>= fun a => (f a).map g := by
  cases x <;> rfl

theorem except_bind_map {α β γ : Type} (x : Except QueryError α) (f : α → β)
    (g : β → Except QueryError γ) : x.map f >>= g = x >>= fun a => g (f a) := by
  cases x <;> rfl

namespace Store

variable {kind : ObjectKind} {α β : Type}

def map (f : α → β) (s : Store kind α) : Store kind β := ⟨s.size, fun h => f (s.get h)⟩

@[simp] theorem get_map (f : α → β) (s : Store kind α) (h : Handle kind) :
    (s.map f).get h = f (s.get h) := rfl

theorem map_set (f : α → β) (s : Store kind α) (h : Handle kind) (x : α) :
    (s.set h x).map f = (s.map f).set h (f x) := by
  unfold map set
  congr
  funext k
  dsimp only
  split <;> rfl

theorem map_add (f : α → β) (s : Store kind α) (x : α) :
    (s.add x).2.map f = ((s.map f).add (f x)).2 := by
  have added := congrArg (fun t => { t with size := s.size + 1 }) (s.map_set f ⟨s.size⟩ x)
  exact added

end Store

def Dialect.bare (d : Dialect) : Dialect := { d with serial := 0 }

namespace TableRoot

variable (r : TableRoot)

def bare : TableRoot :=
  { r with resolver := Session.sharedResolver, dialect := r.dialect.bare }

@[simp] theorem bare_alias? : r.bare.alias? = r.alias? := rfl

@[simp] theorem bare_join? : r.bare.join? = r.join? := rfl

@[simp] theorem aliasName_bare : r.bare.aliasName = r.aliasName := rfl

theorem plainColumn_bare (field : String) (name? : Option String) :
    r.bare.plainColumn field name? = r.plainColumn field name? := rfl

@[simp] theorem shown_bare : r.bare.shown = r.shown := rfl

theorem withAlias_bare (name : String) :
    r.bare.withAlias name = (r.withAlias name).map bare := by
  unfold withAlias
  rw [bare_alias?]
  cases r.alias? with
  | some given => rfl
  | none => cases checkAlias name <;> rfl

theorem withJoin_bare (type : JoinType) (source target : Column) :
    r.bare.withJoin type source target = (r.withJoin type source target).map bare := by
  unfold withJoin
  rw [bare_join?, aliasName_bare]
  cases r.join? with
  | none => rfl
  | some join => cases r.aliasName <;> rfl

theorem withCondition_bare (p : Predicate) :
    r.bare.withCondition p = (r.withCondition p).map bare := by
  unfold withCondition
  rw [bare_join?]
  cases r.join? with
  | none => rfl
  | some join => dsimp only; split <;> rfl

end TableRoot

namespace Builder

variable (b : Builder)

def bare : Builder :=
  { b with
    dialect := b.dialect.bare
    resolver := Session.sharedResolver
    start? := b.start?.map TableRoot.bare
    joins := b.joins.map TableRoot.bare }

theorem newRoot_bare (e : Entity) : b.bare.newRoot e = (b.newRoot e).bare := rfl

theorem startAlias_bare : b.bare.startAlias = b.startAlias := rfl

theorem joinAlias_bare : b.bare.joinAlias = b.joinAlias := rfl

theorem joinType_bare (name : String) : b.bare.joinType name = b.joinType name := rfl

theorem recasts_bare : Recasts TableRoot.bare bare :=
  ⟨fun _ _ => rfl, fun _ _ => rfl, fun _ => rfl, fun _ => rfl, fun _ => rfl⟩

theorem taken_bare : b.bare.taken = b.taken := recasts_bare.taken_eq b

theorem plainStart_bare (e : Entity) : b.bare.plainStart e = (b.plainStart e).map bare := by
  unfold plainStart
  have declared : b.bare.start?.isSome = b.start?.isSome := Option.isSome_map
  simp only [declared, newRoot_bare, startAlias_bare, TableRoot.withAlias_bare]
  split
  · rfl
  · simp only [except_map_bind, except_bind_map]
    rfl

theorem plainJoin_bare (e : Entity) (source : Column) (targetField typeName : String) :
    b.bare.plainJoin e source targetField typeName =
      (b.plainJoin e source targetField typeName).map bare := by
  unfold plainJoin
  have declared : b.bare.start?.isNone = b.start?.isNone := Option.isNone_map
  simp only [declared, newRoot_bare, joinAlias_bare, joinType_bare, taken_bare,
    TableRoot.withAlias_bare]
  split
  · rfl
  · simp only [except_map_bind, except_bind_map, TableRoot.plainColumn_bare,
      TableRoot.withJoin_bare]
    simp [bare, Except.map, pure, Except.pure]

end Builder

def Sources.bare (sources : Sources) : Sources :=
  { sources with
    start? := sources.start?.map TableRoot.bare
    joins := sources.joins.map TableRoot.bare }

theorem Query.statement_bare (q : Query) (sources : Sources) :
    q.statement (some sources.bare) = q.statement (some sources) := by
  have checked : (sources.joins.map TableRoot.bare).mapM TableRoot.checkJoined =
      sources.joins.mapM TableRoot.checkJoined := by
    rw [List.mapM_map]
    rfl
  have clauses : (sources.joins.map TableRoot.bare).map TableRoot.joinClause =
      sources.joins.map TableRoot.joinClause := by
    rw [List.map_map]
    rfl
  cases begins : sources.start? with
  | none => simp [statement, Sources.bare, begins]
  | some start =>
    simp only [statement, Sources.bare, begins, Option.map_some, checked, tail, clauses]
    rfl

namespace Session

/-- The session with its roots under `f` and its builders under `g`. -/
def recast (f : TableRoot → TableRoot) (g : Builder → Builder) (s : Session) : Session :=
  { s with builders := s.builders.map g, roots := s.roots.map f }

section Recast

variable {f : TableRoot → TableRoot} {g : Builder → Builder} (fits : Builder.Recasts f g)
include fits

/-- A root that is not there is a blank one. -/
theorem root_recast (blank : f (initial.root (.loose ⟨0⟩)) = initial.root (.loose ⟨0⟩))
    (s : Session) (ref : RootRef) : (s.recast f g).root ref = f (s.root ref) := by
  cases ref with
  | start h =>
    simp only [root, recast, Store.get_map, fits.start?_eq]
    cases (s.builders.get h).start? with
    | none => exact blank.symm
    | some r => rfl
  | joined h i =>
    simp only [root, recast, Store.get_map, fits.joins_eq, List.getElem?_map]
    cases (s.builders.get h).joins[i]? with
    | none => exact blank.symm
    | some r => rfl
  | loose h => rfl

theorem setRoot_recast (s : Session) (ref : RootRef) (r : TableRoot) :
    (s.setRoot ref r).recast f g = (s.recast f g).setRoot ref (f r) := by
  cases ref with
  | start h =>
    have changed := fits.start (s.builders.get h) ((s.builders.get h).start?.map fun _ => r)
    simp only [setRoot, recast, Store.map_set, Store.get_map, changed, fits.start?_eq,
      Option.map_map]
    rfl
  | joined h i =>
    have changed := fits.joins (s.builders.get h) ((s.builders.get h).joins.set i r)
    simp only [setRoot, recast, Store.map_set, Store.get_map, changed, fits.joins_eq, List.map_set]
  | loose h => simp only [setRoot, recast, Store.map_set]

theorem startRoot?_recast (s : Session) (h : Handle .builder) :
    (s.recast f g).startRoot? h = s.startRoot? h := by
  simp only [startRoot?, recast, Store.get_map, fits.start?_eq, Option.map_map]
  rfl

theorem joinRoots_recast (s : Session) (h : Handle .builder) :
    (s.recast f g).joinRoots h = s.joinRoots h := by
  simp only [joinRoots, recast, Store.get_map, fits.listed, fits.joins_eq, List.length_map]

theorem sources_recast (blank : f (initial.root (.loose ⟨0⟩)) = initial.root (.loose ⟨0⟩))
    (s : Session) (h : Handle .builder) :
    (s.recast f g).sources h =
      { s.sources h with
        start? := (s.sources h).start?.map f
        joins := (s.sources h).joins.map f } := by
  have joined : (s.joinRoots h).map (s.recast f g).root = ((s.joinRoots h).map s.root).map f := by
    rw [List.map_map]
    exact List.map_congr_left fun ref _ => root_recast fits blank s ref
  unfold sources
  rw [joinRoots_recast fits, joined]
  simp only [recast, Store.get_map, Builder.sources, fits.start?_eq, fits.logs]

end Recast

/-- The session without names, counts and listeners, dialects known by their databases only. -/
def bare (s : Session) : Session :=
  { initial with
    builders := s.builders.map Builder.bare
    roots := s.roots.map TableRoot.bare
    queries := s.queries }

theorem root_bare (s : Session) (ref : RootRef) : s.bare.root ref = (s.root ref).bare :=
  root_recast Builder.recasts_bare rfl s ref

theorem setRoot_bare (s : Session) (ref : RootRef) (r : TableRoot) :
    (s.setRoot ref r).bare = s.bare.setRoot ref r.bare := by
  have changed := congrArg (fun t : Session =>
    { initial with builders := t.builders, roots := t.roots, queries := s.queries })
    (setRoot_recast Builder.recasts_bare s ref r)
  cases ref <;> exact changed

theorem startRoot?_bare (s : Session) (h : Handle .builder) :
    s.bare.startRoot? h = s.startRoot? h := startRoot?_recast Builder.recasts_bare s h

theorem joinRoots_bare (s : Session) (h : Handle .builder) :
    s.bare.joinRoots h = s.joinRoots h := joinRoots_recast Builder.recasts_bare s h

theorem sources_bare (s : Session) (h : Handle .builder) :
    s.bare.sources h = (s.sources h).bare := sources_recast Builder.recasts_bare rfl s h

theorem statement_bare (s : Session) (q : Query) :
    q.statement (q.builder?.map s.bare.sources) = q.statement (q.builder?.map s.sources) := by
  cases q.builder? with
  | none => rfl
  | some h => rw [Option.map_some, sources_bare, Query.statement_bare, Option.map_some]

theorem bare_setBuilder (s : Session) (h : Handle .builder) (b : Builder) :
    { s with builders := s.builders.set h b }.bare =
      { s.bare with builders := s.bare.builders.set h b.bare } := by
  simp only [bare, Store.map_set]

theorem bare_addBuilder (s : Session) (b : Builder) :
    { s with builders := (s.builders.add b).2 }.bare =
      { s.bare with builders := (s.bare.builders.add b.bare).2 } := by
  simp only [bare, Store.map_add]

theorem bare_addRoot (s : Session) (r : TableRoot) :
    { s with roots := (s.roots.add r).2 }.bare =
      { s.bare with roots := (s.bare.roots.add r.bare).2 } := by
  simp only [bare, Store.map_add]

end Session

end SqlSelect
