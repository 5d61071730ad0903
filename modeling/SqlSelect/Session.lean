import SqlSelect.Query

/-! Sessions: all the objects that a caller works with, each under its handle. What an operation has
written stays when it fails, so it checks and asks for names before it writes. -/
namespace SqlSelect

structure Session where
  resolvers : Resolvers
  builders : Store .builder Builder
  /-- The roots that no builder owns. -/
  roots : Store .root TableRoot
  queries : Store .query Query
  pool : DialectPool
  /-- How many entities and listeners have been given a number. -/
  issued : Nat

/-- Where a new builder takes its dialect from. -/
inductive DialectChoice where
  | standard
  | named (name : String)
  | given (dialect : Dialect)

structure BuilderOptions where
  dialect : DialectChoice
  resolver : Handle .resolver
  logs : Bool
  startAlias : String
  joinAlias : String
  listed? : Option (List RootRef)

namespace Session

/-- The resolver of builders that are not given one of their own. -/
def sharedResolver : Handle .resolver := ⟨0⟩

private def blankDialect : Dialect := ⟨Builder.defaultDatabase, 0⟩

private def blankBuilder : Builder :=
  ⟨blankDialect, sharedResolver, false, Builder.defaultStartAlias, Builder.defaultJoinAlias, none,
    [], none⟩

private def blankRoot : TableRoot := .fresh (.base ⟨0, "", none, []⟩) sharedResolver blankDialect

/-- Nothing but the shared resolver, without names, counts or listeners. -/
def initial : Session where
  resolvers := ((Store.empty (Resolver.fresh false)).add (Resolver.fresh false)).2
  builders := Store.empty blankBuilder
  roots := Store.empty blankRoot
  queries := Store.empty (Query.fresh none)
  pool := DialectPool.empty
  issued := 0

def root (s : Session) : RootRef → TableRoot
  | .start b => (s.builders.get b).start?.getD blankRoot
  | .joined b i => (s.builders.get b).joins[i]?.getD blankRoot
  | .loose h => s.roots.get h

def setRoot (s : Session) (ref : RootRef) (r : TableRoot) : Session :=
  match ref with
  | .start b =>
    let builder := s.builders.get b
    { s with builders := s.builders.set b { builder with start? := builder.start?.map fun _ => r } }
  | .joined b i =>
    let builder := s.builders.get b
    { s with builders := s.builders.set b { builder with joins := builder.joins.set i r } }
  | .loose h => { s with roots := s.roots.set h r }

def startRoot? (s : Session) (b : Handle .builder) : Option RootRef :=
  (s.builders.get b).start?.map fun _ => .start b

/-- The roots that the statements of a builder join, in order. -/
def joinRoots (s : Session) (b : Handle .builder) : List RootRef :=
  match (s.builders.get b).listed? with
  | some refs => refs
  | none => (List.range (s.builders.get b).joins.length).map (.joined b)

def sources (s : Session) (b : Handle .builder) : Sources :=
  { (s.builders.get b).sources with joins := (s.joinRoots b).map s.root }

def onResolvers {α : Type} (a : Action Resolvers α) : Action Session α :=
  a.onPart (·.resolvers) fun resolvers s => { s with resolvers := resolvers }

def onPool {α : Type} (a : Action DialectPool α) : Action Session α :=
  a.onPart (·.pool) fun pool s => { s with pool := pool }

/-- Takes the next serial number. -/
def number : Action Session Nat := do
  let s ← Action.get
  Action.modify fun s => { s with issued := s.issued + 1 }
  return s.issued

/-! Entities and resolvers -/

def defineEntity (name : String) (table? : Option String) (definitions : List Field)
    (parent? : Option Entity) : Action Session Entity := do
  Entity.define (← number) name table? definitions parent?

def newResolver (logs : Bool) : Action Session (Handle .resolver) := do
  let (h, resolvers) := (← Action.get).resolvers.add (.fresh logs)
  Action.modify fun s => { s with resolvers := resolvers }
  return h

def resolveTable (h : Handle .resolver) (e : Entity) : Action Session String :=
  onResolvers (Resolvers.act h (Resolver.resolveTable e))

def resolveColumn (h : Handle .resolver) (e : Entity) (field : String) : Action Session String :=
  onResolvers (Resolvers.act h (Resolver.resolveColumn e field))

def changeResolver (h : Handle .resolver) (f : Resolver → Resolver) : Action Session Unit :=
  onResolvers (Resolvers.act h (Action.modify f))

def clearResolver (h : Handle .resolver) : Action Session Unit := changeResolver h Resolver.clear

/-- Adds a listener and gives its key. -/
def listen (h : Handle .resolver) (label : String) (once : Bool) (reaction : Reaction) :
    Action Session Nat := do
  let key ← number
  changeResolver h (·.listen ⟨key, label, once, reaction⟩)
  return key

def unlisten (h : Handle .resolver) (key : Nat) : Action Session Unit :=
  changeResolver h (·.unlisten key)

def resolver (h : Handle .resolver) : Action Session Resolver :=
  return (← Action.get).resolvers.get h

/-! Dialects -/

def sharedDialect (name : String) : Action Session Dialect := onPool (DialectPool.sharedNamed name)

def freshDialect (name : String) : Action Session Dialect := onPool (DialectPool.freshNamed name)

def clearDialects : Action Session Unit := onPool (Action.modify DialectPool.clear)

def chooseDialect : DialectChoice → Action Session Dialect
  | .standard => onPool (DialectPool.sharedDialect Builder.defaultDatabase)
  | .named name => sharedDialect name
  | .given dialect => pure dialect

/-! Builders and roots -/

/-- The dialect is chosen before the alias names are checked. -/
def newBuilder (options : BuilderOptions) : Action Session (Handle .builder) := do
  let dialect ← chooseDialect options.dialect
  let builder ← Builder.make dialect options.resolver options.logs options.startAlias
    options.joinAlias options.listed?
  let (h, builders) := (← Action.get).builders.add builder
  Action.modify fun s => { s with builders := builders }
  return h

def builder (h : Handle .builder) : Action Session Builder :=
  return (← Action.get).builders.get h

def onBuilder {α : Type} (h : Handle .builder) (a : Action Workbench α) : Action Session α :=
  a.onPart (fun s => ⟨s.builders.get h, s.resolvers⟩) fun w s =>
    { s with resolvers := w.resolvers, builders := s.builders.set h w.builder }

def declareStart (h : Handle .builder) (e : Entity) : Action Session RootRef := do
  onBuilder h (Builder.declareStart e)
  return .start h

def declareJoin (h : Handle .builder) (e : Entity) (source : Column)
    (targetField typeName : String) : Action Session RootRef := do
  let index := (← builder h).joins.length
  onBuilder h (Builder.declareJoin e source targetField typeName)
  return .joined h index

def newRoot (e : Entity) (h : Handle .resolver) (dialect : Dialect) : Action Session RootRef := do
  let (root, roots) := (← Action.get).roots.add (.fresh e h dialect)
  Action.modify fun s => { s with roots := roots }
  return .loose root

def rootAt (ref : RootRef) : Action Session TableRoot :=
  return (← Action.get).root ref

def onRoot {α : Type} (ref : RootRef) (a : Action TableRoot α) : Action Session α :=
  a.onPart (·.root ref) fun r s => s.setRoot ref r

def assignAlias (ref : RootRef) (name : String) : Action Session Unit :=
  onRoot ref (TableRoot.assignAlias name)

def attachJoin (ref : RootRef) (type : JoinType) (source target : Column) : Action Session Unit :=
  onRoot ref (TableRoot.attachJoin type source target)

def addJoinCondition (ref : RootRef) (p : Predicate) : Action Session Unit :=
  onRoot ref (TableRoot.addJoinCondition p)

def tableName (ref : RootRef) : Action Session String := do
  onResolvers (← rootAt ref).tableName

def column (ref : RootRef) (field : String) (name? : Option String) : Action Session Column := do
  onResolvers ((← rootAt ref).column field name?)

def count (ref : RootRef) (field : String) (name? : Option String) : Action Session Column := do
  onResolvers ((← rootAt ref).count field name?)

def formatDate (ref : RootRef) (field pattern : String) (name? : Option String) :
    Action Session Column := do
  onResolvers ((← rootAt ref).formatDate field pattern name?)

/-! Queries -/

def newQuery (builder? : Option (Handle .builder)) : Action Session (Handle .query) := do
  let (h, queries) := (← Action.get).queries.add (.fresh builder?)
  Action.modify fun s => { s with queries := queries }
  return h

def query (h : Handle .query) : Action Session Query :=
  return (← Action.get).queries.get h

def onQuery {α : Type} (h : Handle .query) (a : Action Query α) : Action Session α :=
  a.onPart (·.queries.get h) fun q s => { s with queries := s.queries.set h q }

def render (h : Handle .query) : Action Session String := do
  let q ← query h
  let s ← Action.get
  onResolvers (q.render (q.builder?.map s.sources))

end Session

end SqlSelect
