import SqlSelect.Builder
import SqlSelect.Order
import SqlSelect.Selection
import SqlSelect.Text.Blank
import SqlSelect.Text.Replace

/-! Queries: the clauses of one statement, set in any order, and their text in the order that the
language wants. -/
namespace SqlSelect

structure Query where
  builder? : Option (Handle .builder)
  selection? : Option Selection
  condition? : Option Predicate
  distinctOn? : Option DistinctOn
  distinct : Bool
  order : List OrderTerm
  grouping : List Column
  /-- Zero leaves the clause out. -/
  limit : Double
  offset? : Option Double

/-- The tables of a statement: where it starts, what is joined, and whether it is logged. -/
structure Sources where
  logs : Bool
  start? : Option TableRoot
  joins : List TableRoot

def Builder.sources (b : Builder) : Sources := ⟨b.logs, b.start?, b.joins⟩

namespace Query

def fresh (builder? : Option (Handle .builder)) : Query :=
  ⟨builder?, none, none, none, false, [], [], .zero, none⟩

def setBuilder (q : Query) (builder : Handle .builder) : Query :=
  { q with builder? := some builder }

def setSelection (q : Query) (selection : Selection) : Query :=
  { q with selection? := some selection }

def setCondition (p : Predicate) : Action Query Unit := do
  if Text.isBlank p.text then Action.fail .conditionBlank
  Action.modify fun q => { q with condition? := some p }

def setDistinctOn (q : Query) (d : DistinctOn) : Query := { q with distinctOn? := some d }

def setDistinct (q : Query) (distinct : Bool) : Query := { q with distinct := distinct }

def setOrder (q : Query) (arguments : List OrderArgument) : Query :=
  { q with order := OrderArgument.flatten arguments }

def setGrouping (q : Query) (columns : List Column) : Query := { q with grouping := columns }

def setLimit (count : Double) : Action Query Unit := do
  checkRowCount .limit count
  Action.modify fun q => { q with limit := count }

def setOffset (count : Double) : Action Query Unit := do
  checkRowCount .offset count
  Action.modify fun q => { q with offset? := some count }

/-- The selection without its keyword for distinct rows, with the list of columns in place of the
keyword, or as it is. -/
def selectClause (q : Query) : Except QueryError String :=
  match q.selection? with
  | none => .error .selectionMissing
  | some selection =>
    let distinctOn := (q.distinctOn?.map DistinctOn.text).getD ""
    match q.distinct, Text.isBlank distinctOn with
    | true, false => .error .distinctTwice
    | true, true => .ok selection.text
    | false, true => .ok (Text.replaceAll (distinctKeyword ++ " ") "" selection.text)
    | false, false => .ok (Text.replaceAll distinctKeyword distinctOn selection.text)

/-- The table of a root with its alias. -/
def tableText (r : TableRoot) : Action Resolvers String := do
  let table ← r.tableName
  let qualifier ← r.aliasName
  return table ++ " " ++ qualifier

def joinText (r : TableRoot) : Action Resolvers String :=
  match r.join? with
  | none => do
    let qualifier ← r.aliasName
    Action.fail (.wiringMissing r.entity.name qualifier)
  | some join => do
    let table ← tableText r
    let opening := " " ++ join.type.keyword ++ " " ++ table ++ " "
    if join.type = .cross then return opening
    let extra := (join.condition?.map fun p => " AND " ++ p.text).getD ""
    return opening ++ "ON " ++ join.source.text ++ " = " ++ join.target.text ++ extra ++ " "

def joinTexts : List TableRoot → Action Resolvers String
  | [] => pure ""
  | r :: rs => do
    let first ← joinText r
    let others ← joinTexts rs
    return first ++ others

def whereClause (q : Query) : String := (q.condition?.map fun p => " WHERE " ++ p.text).getD ""

def groupClause (q : Query) : String :=
  let list := Column.listText q.grouping
  if Text.isBlank list then "" else " GROUP BY " ++ list

def orderClause (q : Query) : String :=
  let list := ",".intercalate (q.order.map OrderTerm.text)
  if Text.isBlank list then "" else " ORDER BY " ++ list

def limitClause (q : Query) : String :=
  if Double.zero.lessThan q.limit then " LIMIT " ++ q.limit.text else ""

def offsetClause (q : Query) : Except QueryError String :=
  match q.offset? with
  | none => .ok ""
  | some count =>
    if q.limit.lessThan (.ofNat 1) then .error .offsetWithoutLimit
    else .ok (" OFFSET " ++ count.text)

/-- The text of the statement over the given tables. The clauses are made in the order in which
they stand, and the first that cannot be made decides the error. -/
def render (q : Query) (sources? : Option Sources) : Action Resolvers String :=
  match sources? with
  | none => Action.fail .unbound
  | some sources =>
    match sources.start? with
    | none => Action.fail .fromMissing
    | some start => do
      let selected ← q.selectClause
      let table ← tableText start
      let joined ← joinTexts sources.joins
      let skipped ← q.offsetClause
      let sql := selected ++ table ++ joined ++ q.whereClause ++ q.groupClause ++
        q.orderClause ++ q.limitClause ++ skipped
      Action.log sources.logs (.rendered sql)
      return sql

end Query

end SqlSelect
