import SqlSelect.Expr

/-! Conditions on rows. Each one prints with blanks around it, and a group with parentheses. -/
namespace SqlSelect

inductive Comparison where
  | equal
  | greater
  | less
  | greaterOrEqual
  | lessOrEqual
deriving DecidableEq, Repr

def Comparison.symbol : Comparison → String
  | equal => "="
  | greater => ">"
  | less => "<"
  | greaterOrEqual => ">="
  | lessOrEqual => "<="

/-- The word that joins the members of a group, with its blanks. -/
def Connective.separator : Connective → String
  | .and => " and "
  | .or => " or "

inductive Predicate where
  /-- Text taken as it is. -/
  | raw (text : String)
  | compare (left : Expr) (comparison : Comparison) (right : Literal)
  | among (left : Expr) (negated : Bool) (values : List Literal)
  | like (left : Expr) (negated : Bool) (pattern : Literal)
  | between (left : Expr) (low high : Literal)
  | isNull (left : Expr) (negated : Bool)
  | group (connective : Connective) (members : List Predicate)

namespace Predicate

mutual

def text : Predicate → String
  | raw text => text
  | compare left comparison right =>
    " " ++ left.text ++ " " ++ comparison.symbol ++ " " ++ right.text ++ " "
  | among left negated values =>
    " " ++ left.text ++ (if negated then " NOT IN (" else " IN (") ++
      ",".intercalate (values.map Literal.text) ++ ") "
  | like left negated pattern =>
    " " ++ left.text ++ (if negated then " NOT LIKE " else " LIKE ") ++ pattern.text ++ " "
  | between left low high =>
    " " ++ left.text ++ " BETWEEN " ++ low.text ++ " and " ++ high.text ++ " "
  | isNull left negated => left.text ++ (if negated then " IS NOT NULL " else " IS NULL ")
  | group connective members => " (" ++ connective.separator.intercalate (texts members) ++ ") "

def texts : List Predicate → List String
  | [] => []
  | p :: ps => p.text :: texts ps

end

@[simp] theorem texts_eq_map (ps : List Predicate) : texts ps = ps.map text := by
  induction ps with
  | nil => rfl
  | cons p ps ih => simp [texts, ih]

section Making

variable (database : Database) (c : Column)

def ofComparison (comparison : Comparison) (v : Value) : Except QueryError Predicate :=
  (Literal.ofValue database v).map (compare c.expr comparison)

/-- The column has one of the values, or none of them. -/
def ofValues (negated : Bool) (vs : List Value) : Except QueryError Predicate :=
  if vs = [] then .error (.valuesMissing negated)
  else (Literal.ofValues database vs).map (among c.expr negated)

def ofPattern (negated : Bool) (mode : LikeMode) (v : Value) : Except QueryError Predicate :=
  (Literal.ofPattern database mode v).map (like c.expr negated)

def ofRange (low high : Value) : Except QueryError Predicate := do
  let low ← Literal.ofValue database low
  let high ← Literal.ofValue database high
  return between c.expr low high

end Making

def nullTest (c : Column) (negated : Bool) : Predicate := isNull c.expr negated

/-- A group has at least one member. -/
def ofMembers (connective : Connective) (members : List Predicate) : Except QueryError Predicate :=
  match members with
  | [] => .error (.membersMissing connective)
  | members => .ok (group connective members)

end Predicate

end SqlSelect
