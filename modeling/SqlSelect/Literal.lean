import SqlSelect.Value

/-! Quoted literals. PostgreSQL writes a quote inside a literal twice; MySQL puts a backslash
before a quote and before a backslash. -/
namespace SqlSelect

def quoteMark : Char := '\x27'

namespace Database

def escapeChar (database : Database) (c : Char) : List Char :=
  match database with
  | postgresql => if c = quoteMark then [quoteMark, quoteMark] else [c]
  | mysql => if c = '\\' ∨ c = quoteMark then ['\\', c] else [c]

def quoteChars (database : Database) (content : List Char) : List Char :=
  quoteMark :: (content.flatMap database.escapeChar ++ [quoteMark])

def quote (database : Database) (content : String) : String :=
  String.ofList (database.quoteChars content.toList)

example : postgresql.quote "O'Brien" = "'O''Brien'" := by decide +kernel

/-- The call that formats a date expression by a pattern. -/
def formatDate (database : Database) (expression pattern : String) : String :=
  database.dateFunction ++ "(" ++ expression ++ ", " ++ database.quote pattern ++ ")"

end Database

/-- A literal for one database, by its content before quoting. -/
structure Literal where
  database : Database
  content : String
deriving DecidableEq, Repr

namespace Literal

def text (l : Literal) : String := l.database.quote l.content

/-- Numbers and truth values are quoted like text and left to the database to convert. -/
def ofValue (database : Database) (v : Value) : Except QueryError Literal :=
  (database.valueText v).map (Literal.mk database)

def ofValues (database : Database) (vs : List Value) : Except QueryError (List Literal) :=
  vs.mapM (ofValue database)

end Literal

/-- Which part of a string a pattern has to match. -/
inductive LikeMode where
  | anywhere
  | start
  | finish
deriving DecidableEq, Repr

namespace LikeMode

def ofName? : String → Option LikeMode
  | "ALL" => some anywhere
  | "START" => some start
  | "END" => some finish
  | _ => none

/-- Matches any run of characters in a pattern. -/
def wildcard : String := "%"

def pattern (mode : LikeMode) (content : String) : String :=
  match mode with
  | anywhere => wildcard ++ content ++ wildcard
  | start => content ++ wildcard
  | finish => wildcard ++ content

end LikeMode

def Literal.ofPattern (database : Database) (mode : LikeMode) (v : Value) :
    Except QueryError Literal :=
  (database.valueText v).map fun content => ⟨database, mode.pattern content⟩

end SqlSelect
