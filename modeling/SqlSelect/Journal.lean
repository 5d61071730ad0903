import SqlSelect.Log

/-! The journal of what can be seen while an action runs: log lines, and what listeners note of
the names that are resolved. -/
namespace SqlSelect

/-- A name that has just been resolved. -/
inductive ResolveEvent where
  | table (entity name : String)
  | column (entity field name : String)
deriving DecidableEq, Repr

/-- What a listener has seen, and the table that it resolved in reply, if it did. -/
structure Notice where
  listener : String
  event : ResolveEvent
  table? : Option String
deriving DecidableEq, Repr

inductive Entry where
  | log (event : LogEvent)
  | notice (notice : Notice)
deriving DecidableEq, Repr

end SqlSelect
