import SqlSelect.Expr

/-! The order in which a statement gives its rows. -/
namespace SqlSelect

inductive Direction where
  | ascending
  | descending
deriving DecidableEq, Repr

namespace Direction

def name : Direction → String
  | ascending => "ASC"
  | descending => "DESC"

def keyword : Direction → String
  | ascending => "asc"
  | descending => "desc"

end Direction

structure OrderTerm where
  column : Column
  direction : Direction

def OrderTerm.text (term : OrderTerm) : String :=
  " " ++ term.column.text ++ " " ++ term.direction.keyword

/-- What a caller orders by: one term, or several that are given together. -/
inductive OrderArgument where
  | one (term : OrderTerm)
  | several (terms : List OrderTerm)

namespace OrderArgument

def terms : OrderArgument → List OrderTerm
  | one term => [term]
  | several terms => terms

/-- All terms in the order of the arguments. -/
def flatten (arguments : List OrderArgument) : List OrderTerm := arguments.flatMap terms

end OrderArgument

end SqlSelect
