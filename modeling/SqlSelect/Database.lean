/-! The two databases that statements are written for, and what differs between them apart from
quoting. -/
namespace SqlSelect

inductive JoinType where
  | inner
  | left
  | right
  | full
  | cross
deriving DecidableEq, Repr

namespace JoinType

def name : JoinType → String
  | inner => "INNER"
  | left => "LEFT"
  | right => "RIGHT"
  | full => "FULL"
  | cross => "CROSS"

def ofName? : String → Option JoinType
  | "INNER" => some inner
  | "LEFT" => some left
  | "RIGHT" => some right
  | "FULL" => some full
  | "CROSS" => some cross
  | _ => none

/-- The words that open a clause with this join. -/
def keyword : JoinType → String
  | inner => "JOIN"
  | left => "LEFT OUTER JOIN"
  | right => "RIGHT OUTER JOIN"
  | full => "FULL OUTER JOIN"
  | cross => "CROSS JOIN"

@[simp] theorem ofName?_name (t : JoinType) : ofName? t.name = some t := by cases t <;> rfl

end JoinType

inductive Database where
  | postgresql
  | mysql
deriving DecidableEq, Repr

namespace Database

def name : Database → String
  | postgresql => "postgresql"
  | mysql => "mysql"

/-- Each database has a second name. -/
def ofName? : String → Option Database
  | "postgresql" | "postgres" => some postgresql
  | "mysql" | "mariadb" => some mysql
  | _ => none

/-- Written between the arguments of a concatenation. -/
def concatSeparator : Database → String
  | postgresql => " || "
  | mysql => ", "

def dateFunction : Database → String
  | postgresql => "TO_CHAR"
  | mysql => "DATE_FORMAT"

def supportsDistinctOn : Database → Bool
  | postgresql => true
  | mysql => false

def joinTypes : Database → List JoinType
  | postgresql => [.inner, .left, .right, .full, .cross]
  | mysql => [.inner, .left, .right, .cross]

/-- The join of that name, if the database can run it. -/
def join? (database : Database) (name : String) : Option JoinType :=
  (JoinType.ofName? name).filter (database.joinTypes.contains ·)

@[simp] theorem ofName?_name (database : Database) : ofName? database.name = some database := by
  cases database <;> rfl

theorem join?_mem {database : Database} {name : String} {t : JoinType}
    (h : database.join? name = some t) : t ∈ database.joinTypes := by
  simp [join?, Option.filter_eq_some_iff] at h
  exact h.2

end Database

end SqlSelect
