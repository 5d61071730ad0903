import SqlSelect.Identifier
import SqlSelect.Time.Instant

/-! The values that a statement can hold as literals, and their text before quoting. -/
namespace SqlSelect

inductive Value where
  | text (content : String)
  | boolean (value : Bool)
  | number (value : Double)
  | integer (value : Int)
  /-- A date that names no instant is kept, and refused when its text is wanted. -/
  | date (instant? : Option Instant)
deriving DecidableEq

/-- Decimal digits, with a minus sign in front of a negative number. -/
def integerText (n : Int) : String :=
  String.ofList ((if n < 0 then ['-'] else []) ++ Nat.toDigits 10 n.natAbs)

namespace Database

/-- PostgreSQL takes the whole text of an instant; MySQL takes its first 19 characters, with a
space between date and time of day. -/
def dateText (database : Database) (t : Instant) : String :=
  match database with
  | postgresql => String.ofList t.isoChars
  | mysql => String.ofList ((t.isoChars.take 19).replace 'T' ' ')

def valueText (database : Database) : Value → Except QueryError String
  | .text content => .ok content
  | .boolean value => .ok (if value then "true" else "false")
  | .number value => .ok value.text
  | .integer value => .ok (integerText value)
  | .date (some t) => .ok (database.dateText t)
  | .date none => .error .dateInvalid

end Database

/-- Only text can be a name; any other value, or none, counts as a missing name. -/
def checkTableValue : Option Value → Except QueryError Unit
  | some (.text name) => checkTableName name
  | _ => .error (.nameMissing .table)

def checkColumnValue : Option Value → Except QueryError Unit
  | some (.text name) => checkColumnName name
  | _ => .error (.nameMissing .column)

end SqlSelect
