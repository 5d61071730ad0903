import SqlSelect.TableRoot

/-! What a statement selects, and which of its rows it takes as equal. -/
namespace SqlSelect

def distinctKeyword : String := "DISTINCT"

/-- Expressions as they stand side by side in a list. -/
def Column.listText (columns : List Column) : String :=
  ", ".intercalate (columns.map Column.text)

/-- The start of a statement up to the first table. A selection is written with the keyword for
distinct rows; the query decides what becomes of it. -/
inductive Selection where
  /-- Text taken as it is. -/
  | raw (text : String)
  | all (qualifier : String)
  | columns (list : List Column)
  | countAll (qualifier : String)
  | countColumns (list : List Column)

namespace Selection

def text : Selection → String
  | raw text => text
  | all qualifier => "SELECT " ++ distinctKeyword ++ " " ++ qualifier ++ ".* FROM "
  | columns list =>
    "SELECT " ++ distinctKeyword ++ " " ++ ", ".intercalate (list.map Column.projected) ++
      " FROM "
  | countAll qualifier =>
    "SELECT COUNT(" ++ distinctKeyword ++ " " ++ qualifier ++ ".*) FROM "
  | countColumns list =>
    "SELECT COUNT(" ++ distinctKeyword ++ " " ++ Column.listText list ++ ") FROM "

def ofColumns (list : List Column) : Except QueryError Selection :=
  match list with
  | [] => .error (.columnsMissing .projection)
  | list => .ok (.columns list)

def ofRoot (r : TableRoot) : Except QueryError Selection := r.aliasName.map Selection.all

/-- What a count can be taken of. -/
inductive Countable where
  | root (r : TableRoot)
  | column (c : Column)
  | other

def Countable.column? : Countable → Option Column
  | column c => some c
  | _ => none

/-- Counts the rows of one root, or the distinct values of columns. -/
def ofCount : List Countable → Except QueryError Selection
  | [.root r] => r.aliasName.map countAll
  | items =>
    let columns := items.filterMap Countable.column?
    if columns.length ≠ items.length then .error .countMixed
    else
      match columns with
      | [] => .error (.columnsMissing .count)
      | columns => .ok (.countColumns columns)

end Selection

/-- The rows of which one is kept for each value of the given columns. -/
inductive DistinctOn where
  /-- Text taken as it is. -/
  | raw (text : String)
  | columns (list : List Column)

namespace DistinctOn

def text : DistinctOn → String
  | raw text => text
  | columns list => distinctKeyword ++ " ON (" ++ Column.listText list ++ ")"

def ofColumns (database : Database) (list : List Column) : Except QueryError DistinctOn :=
  if database.supportsDistinctOn then
    match list with
    | [] => .error (.columnsMissing .distinctOn)
    | list => .ok (.columns list)
  else .error (.distinctOnUnsupported database)

end DistinctOn

end SqlSelect
