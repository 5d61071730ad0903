import SqlSelect.Database
import SqlSelect.Number.Numeral
import SqlSelect.Text.Units

/-! Log lines: what the library reports while it works, how a console shows it, and what a logger
can do with a line. -/
namespace SqlSelect

inductive LogLevel where
  | debug
  | info
  | warn
  | error
deriving DecidableEq, Repr

namespace LogLevel

def name : LogLevel → String
  | debug => "debug"
  | info => "info"
  | warn => "warn"
  | error => "error"

def ofName? : String → Option LogLevel
  | "debug" => some debug
  | "info" => some info
  | "warn" => some warn
  | "error" => some error
  | _ => none

end LogLevel

structure LogLine (α : Type) where
  level : LogLevel
  message : String
  details : List α
deriving DecidableEq, Repr

def consoleTag : String := "[criteria-sql]"

/-- A console puts a tag before each message. -/
def LogLine.tagged {α : Type} (line : LogLine α) (tag : String) : LogLine α :=
  { line with message := tag ++ " " ++ line.message }

/-- Statements with more units than this are cut in log lines. -/
def loggedLength : Nat := 200

/-- The text itself if it is no longer than the limit, else its start up to the limit and three
dots. A limit that is not a finite number cuts all of it. -/
def shorten (sql : String) (limit : Double) : String :=
  if (Double.ofNat (Text.units sql)).atMost limit then sql
  else
    (match limit.truncated? with
      | some stop => Text.sliceTo sql stop
      | none => "") ++ "..."

inductive LogEvent where
  | tableResolved (entity name : String)
  | columnResolved (entity field name : String)
  | fromDeclared (entity aliasName : String)
  | joinDeclared (entity aliasName : String) (joinType : JoinType)
  | rendered (sql : String)
deriving DecidableEq, Repr

/-- Every event is a line at the lowest level, with named details. -/
def LogEvent.line : LogEvent → LogLine (List (String × String))
  | tableResolved entity name =>
    ⟨.debug, "Resolved table name", [[("entity", entity), ("name", name)]]⟩
  | columnResolved entity field name =>
    ⟨.debug, "Resolved column name", [[("entity", entity), ("field", field), ("name", name)]]⟩
  | fromDeclared entity aliasName =>
    ⟨.debug, "Declared FROM root", [[("entity", entity), ("alias", aliasName)]]⟩
  | joinDeclared entity aliasName joinType =>
    ⟨.debug, "Declared JOIN root",
      [[("entity", entity), ("alias", aliasName), ("joinType", joinType.name)]]⟩
  | rendered sql =>
    ⟨.debug, "Rendered query", [[("sql", shorten sql (.ofNat loggedLength))]]⟩

/-- The loggers of a caller, who can pass any of their own: what they throw at each line, or nothing
where they take it. -/
def Loggers := LogEvent → Option String

namespace Loggers

/-- Loggers that take every line, as a console does. -/
def sink : Loggers := fun _ => none

/-- A logger gives nothing back for a line, and is expected to take it. -/
def Take (loggers : Loggers) : Prop := ∀ event, loggers event = none

theorem Take.eq_sink {loggers : Loggers} (takes : loggers.Take) : loggers = sink := funext takes

/-- What is thrown at a line, if there is a logger for it at all. -/
def refusal? (loggers : Loggers) (logs : Bool) (event : LogEvent) : Option String :=
  (loggers event).filter fun _ => logs

@[simp] theorem refusal?_sink (logs : Bool) (event : LogEvent) :
    sink.refusal? logs event = none := rfl

end Loggers

end SqlSelect
