import SqlSelect.Database
import SqlSelect.Number.Numeral

/-! Why an operation is refused: one constructor per cause, and the wording of each. -/
namespace SqlSelect

inductive NameRole where
  | table
  | column
deriving DecidableEq, Repr

/-- The clauses that count rows. -/
inductive RowClause where
  | limit
  | offset
deriving DecidableEq, Repr

def RowClause.name : RowClause → String
  | .limit => "limit"
  | .offset => "offset"

inductive Connective where
  | and
  | or
deriving DecidableEq, Repr

/-- The fragments that are made from a list of columns. -/
inductive ColumnList where
  | projection
  | count
  | distinctOn
deriving DecidableEq, Repr

def ColumnList.name : ColumnList → String
  | .projection => "multiSelect"
  | .count => "count"
  | .distinctOn => "selectDistinctOn"

inductive QueryError where
  | entityNameBlank
  | nameMissing (role : NameRole)
  | nameMalformed (role : NameRole) (name : String)
  | aliasMalformed (name : String)
  | rowCountMalformed (clause : RowClause) (count : Double)
  | databaseUnknown (name : String)
  | joinUnsupported (joinType : String) (database : Database)
  | distinctOnUnsupported (database : Database)
  | membersMissing (connective : Connective)
  | valuesMissing (negated : Bool)
  | columnsMissing (list : ColumnList)
  | countMixed
  | partUnusable
  | dateInvalid
  | conditionBlank
  | selectionMissing
  | distinctTwice
  | offsetWithoutLimit
  | crossJoinCondition
  | fromDeclared
  | joinBeforeFrom
  | unbound
  | fromMissing
  | aliasMissing (entity : String)
  | aliasAssigned (entity aliasName : String)
  | alreadyJoined (entity aliasName : String)
  | notJoined (entity : String)
  | wiringMissing (entity aliasName : String)
  | fieldMissing (entity field : String)
  /-- A listener refused a name that had just been resolved, or a logger its line. -/
  | refused (message : String)
deriving DecidableEq

namespace QueryError

private def grammar : String :=
  ": must start with a letter or underscore and contain only letters, numbers, and underscores"

def message : QueryError → String
  | entityNameBlank => "Entity name must be a non-empty string"
  | nameMissing .table => "Table name must be a non-empty string"
  | nameMissing .column => "Column name must be a non-empty string"
  | nameMalformed .table name => "Invalid table name \"" ++ name ++ "\"" ++ grammar
  | nameMalformed .column name => "Invalid column name \"" ++ name ++ "\"" ++ grammar
  | aliasMalformed name => "Invalid alias \"" ++ name ++ "\""
  | rowCountMalformed clause count =>
    clause.name ++ " must be a non-negative integer, got " ++ count.text
  | databaseUnknown name => "Unknown database type: " ++ name
  | joinUnsupported joinType database =>
    joinType ++ " JOIN is not supported by " ++ database.name
  | distinctOnUnsupported database => "DISTINCT ON is not supported by " ++ database.name
  | membersMissing .and => "Predicates is empty in AND"
  | membersMissing .or => "Predicates is empty in OR"
  | valuesMissing false => "in() requires at least one value"
  | valuesMissing true => "notIn() requires at least one value"
  | columnsMissing list => list.name ++ "() requires at least one column"
  | countMixed => "count() takes either one root or column expressions"
  | partUnusable => "Only column expressions or strings can be the input to concat()"
  | dateInvalid => "Invalid date literal"
  | conditionBlank => "Predicates is empty in WHERE"
  | selectionMissing => "SELECT clause is not set"
  | distinctTwice => "Either DISTINCT or DISTINCT ON can be used"
  | offsetWithoutLimit => "LIMIT must be at least 1 when OFFSET is set"
  | crossJoinCondition => "CROSS JOIN takes no ON condition"
  | fromDeclared => "FROM entity is already declared"
  | joinBeforeFrom => "FROM entity must be declared before a JOIN"
  | unbound => "QueryAssembler is not bound to a CriteriaBuilder"
  | fromMissing => "FROM entity is not declared"
  | aliasMissing entity => "Root for " ++ entity ++ " has no alias yet"
  | aliasAssigned entity aliasName =>
    "Alias of " ++ entity ++ " is already \"" ++ aliasName ++ "\""
  | alreadyJoined entity aliasName => entity ++ " (" ++ aliasName ++ ") is already joined"
  | notJoined entity => entity ++ " is not a joined table"
  | wiringMissing entity aliasName => entity ++ " (" ++ aliasName ++ ") has no join wiring"
  | fieldMissing entity field => "No such field: " ++ field ++ " on " ++ entity
  | refused message => message

end QueryError

end SqlSelect
