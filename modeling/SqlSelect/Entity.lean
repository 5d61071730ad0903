import SqlSelect.Identifier
import SqlSelect.Naming
import SqlSelect.Text.Blank

/-! Entities: the types a query is built from, with the names they declare for their table and
columns. An entity can extend one other, whose own fields it then has too. -/
namespace SqlSelect

structure Field where
  name : String
  column? : Option String
deriving DecidableEq, Repr

namespace Field

/-- The name of an array index: the numeral of a number below the greatest one of 32 bits. -/
def index? (name : String) : Option Nat :=
  let n := Nat.ofDigitChars 10 name.toList 0
  if name.toList = Nat.toDigits 10 n ∧ n < 4294967295 then some n else none

example : index? "10" = some 10 ∧ index? "01" = none := by decide +kernel

/-- Adds a field at the end, or replaces the one of that name in its place. -/
def put (field : Field) : List Field → List Field
  | [] => [field]
  | f :: fs => if f.name = field.name then field :: fs else f :: put field fs

/-- Array indices come first in ascending order, then all other names in the order given. -/
def arrange (fields : List Field) : List Field :=
  let indexed := fields.filterMap fun f => (index? f.name).map fun n => (n, f)
  (indexed.mergeSort fun a b => a.1 ≤ b.1).map Prod.snd ++
    fields.filter fun f => (index? f.name).isNone

/-- The fields that a list of definitions leaves, one for each name. -/
def ofDefinitions (definitions : List Field) : List Field :=
  arrange (definitions.foldl (fun fields f => put f fields) [])

end Field

/-- What one definition says of an entity. The serial number tells apart entities that say the
same. -/
structure Declaration where
  serial : Nat
  name : String
  table? : Option String
  fields : List Field
deriving DecidableEq, Repr

inductive Entity where
  | base (own : Declaration)
  | derived (own : Declaration) (parent : Entity)
deriving DecidableEq, Repr

namespace Entity

def own : Entity → Declaration
  | base own => own
  | derived own _ => own

def parent? : Entity → Option Entity
  | base _ => none
  | derived _ parent => some parent

def name (e : Entity) : String := e.own.name

/-- A declared name counts unless it is empty. -/
def declaredOr (declared? : Option String) (convention : String) : String :=
  match declared? with
  | none => convention
  | some declared => if declared = "" then convention else declared

def tableName (e : Entity) : String := declaredOr e.own.table? (Naming.snakeCase e.name)

def ownField? (e : Entity) (name : String) : Option Field := e.own.fields.find? (·.name = name)

/-- A field of the entity itself, or else of the entity it extends, but of none further up. -/
def field? (e : Entity) (name : String) : Option Field :=
  e.ownField? name <|> e.parent?.bind (·.ownField? name)

def columnName? (e : Entity) (name : String) : Option String :=
  (e.field? name).map fun f => declaredOr f.column? (Naming.snakeCase name)

/-- A name that is left out or empty needs no check. -/
def checkDeclared (check : String → Except QueryError Unit) :
    Option String → Except QueryError Unit
  | none => .ok ()
  | some name => if name = "" then .ok () else check name

def checkFields : List Field → Except QueryError Unit
  | [] => .ok ()
  | f :: fs => checkDeclared checkColumnName f.column? >>= fun _ => checkFields fs

def extend (own : Declaration) : Option Entity → Entity
  | none => base own
  | some parent => derived own parent

/-- Checks the name, then the table, then the columns in the order of the fields. The entity that
is extended has passed its own checks and is taken as it is. -/
def define (serial : Nat) (name : String) (table? : Option String) (definitions : List Field)
    (parent? : Option Entity) : Except QueryError Entity := do
  if Text.isBlank name then throw .entityNameBlank
  checkDeclared checkTableName table?
  let fields := Field.ofDefinitions definitions
  checkFields fields
  return extend ⟨serial, name, table?, fields⟩ parent?

end Entity

end SqlSelect
