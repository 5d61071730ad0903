import SqlSelect.Error

/-! What a caller is shown of an error: its kind, its message, and what it is about. -/
namespace SqlSelect

inductive ErrorKind where
  | general
  | validation
  | state
  | fieldNotFound
deriving DecidableEq, Repr

namespace ErrorKind

def name : ErrorKind → String
  | general => "CriteriaError"
  | validation => "ValidationError"
  | state => "QueryStateError"
  | fieldNotFound => "FieldNotFoundError"

/-- The kind itself, and before it the general kind that each of them is. -/
def lineage : ErrorKind → List ErrorKind
  | general => [general]
  | kind => [general, kind]

end ErrorKind

structure Diagnostic where
  kind : ErrorKind
  message : String
  code? : Option String
  field? : Option String
  entity? : Option String
  cause? : Option String
deriving DecidableEq, Repr

namespace Diagnostic

def general (message : String) (code? cause? : Option String) : Diagnostic :=
  ⟨.general, message, code?, none, none, cause?⟩

def validation (message : String) (field? cause? : Option String) : Diagnostic :=
  ⟨.validation, message, some "VALIDATION_ERROR", field?, none, cause?⟩

def state (message : String) (cause? : Option String) : Diagnostic :=
  ⟨.state, message, some "QUERY_STATE_ERROR", none, none, cause?⟩

def fieldNotFound (entity field : String) : Diagnostic :=
  ⟨.fieldNotFound, (QueryError.fieldMissing entity field).message, some "FIELD_NOT_FOUND",
    some field, some entity, none⟩

/-- The name of the kind and the message, without a colon when there is no message. -/
def text (d : Diagnostic) : String :=
  if d.message = "" then d.kind.name else d.kind.name ++ ": " ++ d.message

end Diagnostic

namespace QueryError

open Diagnostic in
def diagnostic (e : QueryError) : Diagnostic :=
  match e with
  | entityNameBlank => validation e.message (some "name") none
  | nameMissing .table | nameMalformed .table _ => validation e.message (some "tableName") none
  | nameMissing .column | nameMalformed .column _ =>
    validation e.message (some "columnName") none
  | aliasMalformed _ => validation e.message (some "alias") none
  | rowCountMalformed clause _ => validation e.message (some clause.name) none
  | databaseUnknown _ => validation e.message (some "dialect") none
  | joinUnsupported _ _ | crossJoinCondition => validation e.message (some "joinType") none
  | valuesMissing _ => validation e.message (some "values") none
  | distinctOnUnsupported _ | membersMissing _ | columnsMissing _ | countMixed | partUnusable =>
    validation e.message none none
  | dateInvalid => validation e.message (some "value") none
  | conditionBlank => validation e.message (some "where") none
  | selectionMissing => validation e.message (some "select") none
  | distinctTwice => validation e.message (some "distinct") none
  | offsetWithoutLimit => validation e.message (some "offset") none
  | fromDeclared | joinBeforeFrom | unbound | fromMissing | aliasMissing _ | aliasAssigned _ _
  | alreadyJoined _ _ | notJoined _ | wiringMissing _ _ => state e.message none
  | fieldMissing entity field => fieldNotFound entity field
  | refused message => general message none none

@[simp] theorem diagnostic_message (e : QueryError) : e.diagnostic.message = e.message := by
  unfold diagnostic
  split <;> rfl

end QueryError

end SqlSelect
