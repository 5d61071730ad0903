import SqlSelect.Resolver.Agenda
import SqlSelect.Store

/-! Looking names up: what is known counts as a hit, and what is not is taken from the entity,
remembered, logged and announced. -/
namespace SqlSelect

namespace Resolver

/-- Logs a name that was just learnt and announces it to the listeners there are. -/
def announce (loggers : Loggers) (r : Resolver) (log : LogEvent) (event : ResolveEvent) :
    Outcome Resolver Unit :=
  r.logThen loggers log fun _ => r.deliver loggers (r.calls event)

def resolveTable (e : Entity) : Action Resolver String := fun loggers r =>
  match r.tables.lookup e with
  | some name => ⟨r.hit, [], .ok name⟩
  | none =>
    let name := e.tableName
    ((r.learnTable e name).announce loggers (.tableResolved e.name name)
      (.table e.name name)).map fun _ => name

/-- A field that is not there leaves the resolver as it was. -/
def resolveColumn (e : Entity) (field : String) : Action Resolver String := fun loggers r =>
  match r.columns.lookup (e, field) with
  | some name => ⟨r.hit, [], .ok name⟩
  | none =>
    match e.columnName? field with
    | none => ⟨r, [], .error (.fieldMissing e.name field)⟩
    | some name =>
      ((r.learnColumn e field name).announce loggers (.columnResolved e.name field name)
        (.column e.name field name)).map fun _ => name

end Resolver

abbrev Resolvers := Store .resolver Resolver

namespace Resolvers

/-- An action on one resolver out of many. -/
def act {α : Type} (h : Handle .resolver) (a : Action Resolver α) : Action Resolvers α :=
  a.onPart (·.get h) fun r s => s.set h r

end Resolvers

end SqlSelect
