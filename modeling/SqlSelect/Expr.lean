import SqlSelect.Literal

/-! Expressions over the columns of aliased tables, and columns: expressions with the name they
have in a result. -/
namespace SqlSelect

inductive Expr where
  /-- Text taken as it is. -/
  | raw (text : String)
  | column (qualifier name : String)
  | all (qualifier : String)
  | literal (content : Literal)
  | lower (argument : Expr)
  | upper (argument : Expr)
  | count (argument : Expr)
  | formatDate (database : Database) (argument : Expr) (pattern : String)
  | concat (database : Database) (parts : List Expr)

namespace Expr

mutual

def text : Expr → String
  | raw text => text
  | column qualifier name => qualifier ++ "." ++ name
  | all qualifier => qualifier ++ ".*"
  | literal content => content.text
  | lower argument => "LOWER(" ++ argument.text ++ ")"
  | upper argument => "UPPER(" ++ argument.text ++ ")"
  | count argument => "COUNT(" ++ argument.text ++ ")"
  | formatDate database argument pattern => database.formatDate argument.text pattern
  | concat database parts =>
    "CONCAT(" ++ database.concatSeparator.intercalate (texts parts) ++ ")"

def texts : List Expr → List String
  | [] => []
  | e :: es => e.text :: texts es

end

@[simp] theorem texts_eq_map (es : List Expr) : texts es = es.map text := by
  induction es with
  | nil => rfl
  | cons e es ih => simp [texts, ih]

end Expr

structure Column where
  expr : Expr
  alias? : Option String

namespace Column

def ofExpr (expr : Expr) : Column := ⟨expr, none⟩

def text (c : Column) : String := c.expr.text

/-- A column with a name for the result, if that name is an identifier. -/
def named (expr : Expr) (name : String) : Except QueryError Column :=
  (checkAlias name).map fun _ => ⟨expr, some name⟩

def ofExprAs (expr : Expr) : Option String → Except QueryError Column
  | none => .ok (ofExpr expr)
  | some name => named expr name

/-- How the column stands in a projection. -/
def projected (c : Column) : String :=
  match c.alias? with
  | none => c.text
  | some name => c.text ++ " AS " ++ name

def lower (c : Column) : Column := ofExpr (.lower c.expr)

def upper (c : Column) : Column := ofExpr (.upper c.expr)

/-- An argument of a concatenation, as a caller gives it. -/
inductive Part where
  | column (c : Column)
  | text (content : String)
  | other

def Part.expr (database : Database) : Part → Except QueryError Expr
  | .column c => .ok c.expr
  | .text content => .ok (.literal ⟨database, content⟩)
  | .other => .error .partUnusable

def concat (database : Database) (parts : List Part) : Except QueryError Column :=
  (parts.mapM (Part.expr database)).map fun es => ofExpr (.concat database es)

end Column

end SqlSelect
