import SqlSelect.Alias
import SqlSelect.TableRoot

/-! Builders: the tables of one statement. A builder owns the root that the statement starts from
and the roots joined to it, and gives each of them its alias. -/
namespace SqlSelect

/-- A root that a builder owns, or one that nobody does. -/
inductive RootRef where
  | start (builder : Handle .builder)
  | joined (builder : Handle .builder) (index : Nat)
  | loose (root : Handle .root)
deriving DecidableEq, Repr

/-- A builder that lists roots has these joined in its statements, in place of its own. -/
structure Builder where
  dialect : Dialect
  resolver : Handle .resolver
  logs : Bool
  startAlias : String
  joinAlias : String
  start? : Option TableRoot
  joins : List TableRoot
  listed? : Option (List RootRef)

namespace Builder

def defaultStartAlias : String := "m"

def defaultJoinAlias : String := "j"

def defaultDatabase : Database := .postgresql

/-- A builder without roots; both of its alias names have to be identifiers. -/
def make (dialect : Dialect) (resolver : Handle .resolver) (logs : Bool)
    (startAlias joinAlias : String) (listed? : Option (List RootRef)) :
    Except QueryError Builder := do
  checkAlias startAlias
  checkAlias joinAlias
  return ⟨dialect, resolver, logs, startAlias, joinAlias, none, [], listed?⟩

def database (b : Builder) : Database := b.dialect.database

/-- Aliases of the roots that the builder owns. -/
def taken (b : Builder) : List String := (b.start?.toList ++ b.joins).filterMap TableRoot.alias?

def newRoot (b : Builder) (e : Entity) : TableRoot := .fresh e b.resolver b.dialect

/-- The type of a join by its name, if the database can run it. -/
def joinType (b : Builder) (name : String) : Except QueryError JoinType :=
  match b.database.join? name with
  | some type => .ok type
  | none => .error (.joinUnsupported name b.database)

end Builder

/-- A builder and the resolvers that it asks for names. -/
structure Workbench where
  builder : Builder
  resolvers : Resolvers

namespace Workbench

def changeBuilder (f : Builder → Builder) : Action Workbench Unit :=
  Action.modify fun w => { w with builder := f w.builder }

def onResolvers {α : Type} (a : Action Resolvers α) : Action Workbench α :=
  a.onPart (·.resolvers) fun resolvers w => { w with resolvers := resolvers }

end Workbench

namespace Builder

open Workbench

/-- The builder owns the root before the declaration is logged. -/
def declareStart (e : Entity) : Action Workbench Unit := do
  let b := (← Action.get).builder
  if b.start?.isSome then Action.fail .fromDeclared
  let root ← Action.onNew (b.newRoot e) (TableRoot.assignAlias b.startAlias)
  changeBuilder fun b => { b with start? := some root }
  Action.log b.logs (.fromDeclared e.name b.startAlias)

/-- Joins an entity where the source equals its target field. The new root is owned by the builder
only if its target could be resolved, and then before the join is logged. -/
def declareJoin (e : Entity) (source : Column) (targetField typeName : String) :
    Action Workbench Unit := do
  let b := (← Action.get).builder
  if b.start?.isNone then Action.fail .joinBeforeFrom
  let type ← b.joinType typeName
  let aliasName := Alias.firstFree b.taken b.joinAlias
  let root ← Action.onNew (b.newRoot e) (TableRoot.assignAlias aliasName)
  let target ← onResolvers (root.column targetField none)
  let root ← Action.onNew root (TableRoot.attachJoin type source target)
  changeBuilder fun b => { b with joins := b.joins ++ [root] }
  Action.log b.logs (.joinDeclared e.name aliasName type)

end Builder

end SqlSelect
