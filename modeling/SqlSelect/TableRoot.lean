import SqlSelect.Dialect
import SqlSelect.Predicate
import SqlSelect.Resolver.Lookup

/-! Table roots: entities in the place they have in one statement, under an alias that is given
once. A root that is joined to the others also holds its join. -/
namespace SqlSelect

structure Join where
  type : JoinType
  source : Column
  target : Column
  condition? : Option Predicate

structure TableRoot where
  entity : Entity
  resolver : Handle .resolver
  dialect : Dialect
  alias? : Option String
  join? : Option Join

namespace TableRoot

def fresh (entity : Entity) (resolver : Handle .resolver) (dialect : Dialect) : TableRoot :=
  ⟨entity, resolver, dialect, none, none⟩

def aliasName (r : TableRoot) : Except QueryError String :=
  match r.alias? with
  | some name => .ok name
  | none => .error (.aliasMissing r.entity.name)

def assignAlias (name : String) : Action TableRoot Unit := do
  let r ← Action.get
  match r.alias? with
  | some given => Action.fail (.aliasAssigned r.entity.name given)
  | none =>
    checkAlias name
    Action.modify fun r => { r with alias? := some name }

def attachJoin (type : JoinType) (source target : Column) : Action TableRoot Unit := do
  let r ← Action.get
  match r.join? with
  | some _ =>
    let name ← r.aliasName
    Action.fail (.alreadyJoined r.entity.name name)
  | none => Action.modify fun r => { r with join? := some ⟨type, source, target, none⟩ }

/-- The condition takes the place of one that was added before. -/
def addJoinCondition (p : Predicate) : Action TableRoot Unit := do
  let r ← Action.get
  match r.join? with
  | none => Action.fail (.notJoined r.entity.name)
  | some join =>
    if join.type = .cross then Action.fail .crossJoinCondition
    else Action.modify fun r => { r with join? := some { join with condition? := some p } }

def tableName (r : TableRoot) : Action Resolvers String :=
  Resolvers.act r.resolver (Resolver.resolveTable r.entity)

/-- The name of the column is looked up before the alias is. -/
def columnExpr (r : TableRoot) (field : String) : Action Resolvers Expr := do
  let name ← Resolvers.act r.resolver (Resolver.resolveColumn r.entity field)
  let qualifier ← r.aliasName
  return .column qualifier name

def column (r : TableRoot) (field : String) (name? : Option String) : Action Resolvers Column := do
  let e ← r.columnExpr field
  Column.ofExprAs e name?

def count (r : TableRoot) (field : String) (name? : Option String) : Action Resolvers Column := do
  let e ← r.columnExpr field
  Column.ofExprAs (.count e) name?

def formatDate (r : TableRoot) (field pattern : String) (name? : Option String) :
    Action Resolvers Column := do
  let e ← r.columnExpr field
  Column.ofExprAs (.formatDate r.dialect.database e pattern) name?

def all (r : TableRoot) : Except QueryError Column :=
  r.aliasName.map fun qualifier => .ofExpr (.all qualifier)

end TableRoot

end SqlSelect
