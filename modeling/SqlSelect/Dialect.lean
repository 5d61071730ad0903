import SqlSelect.Action

/-! Dialects: objects that stand for a database. Two dialects for one database are still two
objects; a pool hands out one shared dialect for each database until it is emptied. -/
namespace SqlSelect

/-- The serial number tells apart dialects for the same database. -/
structure Dialect where
  database : Database
  serial : Nat
deriving DecidableEq, Repr

structure DialectPool where
  issued : Nat
  shared? : Database → Option Dialect

namespace DialectPool

def empty : DialectPool := ⟨0, fun _ => none⟩

def issue (p : DialectPool) (database : Database) : Dialect × DialectPool :=
  (⟨database, p.issued⟩, { p with issued := p.issued + 1 })

def share (p : DialectPool) (d : Dialect) : DialectPool :=
  { p with shared? := fun database => if database = d.database then some d else p.shared? database }

/-- The numbers already issued stay issued. -/
def clear (p : DialectPool) : DialectPool := { p with shared? := fun _ => none }

def database (name : String) : Except QueryError Database :=
  match Database.ofName? name with
  | some database => .ok database
  | none => .error (.databaseUnknown name)

/-- The shared dialect for a database; the first call makes it. -/
def sharedDialect (database : Database) : Action DialectPool Dialect := fun _ p =>
  match p.shared? database with
  | some d => ⟨p, [], .ok d⟩
  | none =>
    let (d, p) := p.issue database
    ⟨p.share d, [], .ok d⟩

def freshDialect (database : Database) : Action DialectPool Dialect := fun _ p =>
  let (d, p) := p.issue database
  ⟨p, [], .ok d⟩

def sharedNamed (name : String) : Action DialectPool Dialect := do
  sharedDialect (← database name)

def freshNamed (name : String) : Action DialectPool Dialect := do
  freshDialect (← database name)

end DialectPool

end SqlSelect
