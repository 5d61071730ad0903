import SqlSelect.Resolver.Lookup

/-!
The names a resolver remembers against the rules by which entities name their tables and
columns. The rules are relations of their own; a coherent resolver holds only names that the
rules give, and stays coherent through look-ups, also those that listeners start or end.
-/
namespace SqlSelect

namespace Entity

/-- A table is named by its declaration, or else by the naming convention. -/
inductive NamesTable (e : Entity) : String → Prop
  | declared {table : String} (given : e.own.table? = some table) (nonempty : table ≠ "") :
      NamesTable e table
  | derived (silent : ∀ table, e.own.table? = some table → table = "") :
      NamesTable e (Naming.snakeCase e.own.name)

/-- The definition that counts for a field: the entity's own, or else that of the entity it
extends. -/
inductive Defines (e : Entity) (field : String) : Field → Prop
  | own {f : Field} (given : e.ownField? field = some f) : Defines e field f
  | inherited {parent : Entity} {f : Field} (extended : e.parent? = some parent)
      (hidden : e.ownField? field = none) (given : parent.ownField? field = some f) :
      Defines e field f

inductive NamesColumn (e : Entity) (field : String) : String → Prop
  | declared {f : Field} {column : String} (defined : e.Defines field f)
      (given : f.column? = some column) (nonempty : column ≠ "") : NamesColumn e field column
  | derived {f : Field} (defined : e.Defines field f)
      (silent : ∀ column, f.column? = some column → column = "") :
      NamesColumn e field (Naming.snakeCase field)

theorem namesTable_iff {e : Entity} {name : String} : e.NamesTable name ↔ name = e.tableName := by
  unfold tableName
  constructor
  · rintro (⟨given, nonempty⟩ | ⟨silent⟩)
    · simp [declaredOr, given, nonempty]
    · cases h : e.own.table? with
      | none => rfl
      | some table => simp [declaredOr, silent table h, Entity.name]
  · rintro rfl
    cases h : e.own.table? with
    | none => exact .derived (by simp [h])
    | some table =>
      by_cases empty : table = ""
      · subst empty
        exact .derived (by simp [h])
      · simpa [declaredOr, empty] using NamesTable.declared h empty

theorem defines_iff {e : Entity} {field : String} {f : Field} :
    e.Defines field f ↔ e.field? field = some f := by
  constructor
  · rintro (given | ⟨extended, hidden, given⟩)
    · simp [field?, given]
    · simp [field?, extended, hidden, given]
  · intro found
    cases own : e.ownField? field with
    | some g =>
      have same : g = f := by simpa [field?, own] using found
      exact .own (same ▸ own)
    | none =>
      cases extended : e.parent? with
      | none => simp [field?, own, extended] at found
      | some parent => exact .inherited extended own (by simpa [field?, own, extended] using found)

theorem namesColumn_iff {e : Entity} {field name : String} :
    e.NamesColumn field name ↔ e.columnName? field = some name := by
  constructor
  · rintro (⟨defined, given, nonempty⟩ | ⟨defined, silent⟩)
    · simp [columnName?, defines_iff.1 defined, declaredOr, given, nonempty]
    · rename_i f
      cases h : f.column? with
      | none => simp [columnName?, defines_iff.1 defined, declaredOr, h]
      | some column => simp [columnName?, defines_iff.1 defined, declaredOr, h, silent column h]
  · intro named
    obtain ⟨f, found, rfl⟩ := Option.map_eq_some_iff.1 named
    have defined := defines_iff.2 found
    cases h : f.column? with
    | none => exact .derived defined (by simp [h])
    | some column =>
      by_cases empty : column = ""
      · subst empty
        exact .derived defined (by simp [h])
      · simpa [declaredOr, empty] using NamesColumn.declared defined h empty

theorem columnName?_eq_none_iff {e : Entity} {field : String} :
    e.columnName? field = none ↔ ¬ ∃ f, e.Defines field f := by
  simp [columnName?, defines_iff, Option.eq_none_iff_forall_ne_some]

end Entity

namespace Resolver

/-! The ways in which a look-up can go. -/

theorem runWith_resolveTable_cases (loggers : Loggers) (e : Entity) (r : Resolver) :
    (∃ name, r.tables.lookup e = some name ∧
      (resolveTable e).runWith loggers r = ⟨r.hit, [], .ok name⟩) ∨
    (r.tables.lookup e = none ∧ (resolveTable e).runWith loggers r =
      ((r.learnTable e e.tableName).announce loggers (.tableResolved e.name e.tableName)
        (.table e.name e.tableName)).map fun _ => e.tableName) := by
  cases found : r.tables.lookup e with
  | some name => exact .inl ⟨name, rfl, by simp [Action.runWith, resolveTable, found]⟩
  | none => exact .inr ⟨rfl, by simp [Action.runWith, resolveTable, found]⟩

theorem runWith_resolveColumn_cases (loggers : Loggers) (e : Entity) (field : String)
    (r : Resolver) :
    (∃ name, r.columns.lookup (e, field) = some name ∧
      (resolveColumn e field).runWith loggers r = ⟨r.hit, [], .ok name⟩) ∨
    (r.columns.lookup (e, field) = none ∧ e.columnName? field = none ∧
      (resolveColumn e field).runWith loggers r = ⟨r, [], .error (.fieldMissing e.name field)⟩) ∨
    ∃ name, r.columns.lookup (e, field) = none ∧ e.columnName? field = some name ∧
      (resolveColumn e field).runWith loggers r = ((r.learnColumn e field name).announce loggers
        (.columnResolved e.name field name) (.column e.name field name)).map fun _ => name := by
  cases found : r.columns.lookup (e, field) with
  | some name => exact .inl ⟨name, rfl, by simp [Action.runWith, resolveColumn, found]⟩
  | none =>
    cases named : e.columnName? field with
    | none => exact .inr (.inl ⟨rfl, rfl, by simp [Action.runWith, resolveColumn, found, named]⟩)
    | some name =>
      exact .inr (.inr ⟨name, rfl, rfl, by simp [Action.runWith, resolveColumn, found, named]⟩)

theorem resolveTable_cases (e : Entity) (r : Resolver) :
    (∃ name, r.tables.lookup e = some name ∧ (resolveTable e).run r = ⟨r.hit, [], .ok name⟩) ∨
    (r.tables.lookup e = none ∧ (resolveTable e).run r =
      ((r.learnTable e e.tableName).announce .sink (.tableResolved e.name e.tableName)
        (.table e.name e.tableName)).map fun _ => e.tableName) :=
  runWith_resolveTable_cases .sink e r

theorem resolveColumn_cases (e : Entity) (field : String) (r : Resolver) :
    (∃ name, r.columns.lookup (e, field) = some name ∧
      (resolveColumn e field).run r = ⟨r.hit, [], .ok name⟩) ∨
    (r.columns.lookup (e, field) = none ∧ e.columnName? field = none ∧
      (resolveColumn e field).run r = ⟨r, [], .error (.fieldMissing e.name field)⟩) ∨
    ∃ name, r.columns.lookup (e, field) = none ∧ e.columnName? field = some name ∧
      (resolveColumn e field).run r = ((r.learnColumn e field name).announce .sink
        (.columnResolved e.name field name) (.column e.name field name)).map fun _ => name :=
  runWith_resolveColumn_cases .sink e field r

/-- Every name that is remembered is one that its entity gives. -/
structure Coherent (r : Resolver) : Prop where
  tables : ∀ {e name}, r.tables.lookup e = some name → e.NamesTable name
  columns : ∀ {e field name}, r.columns.lookup (e, field) = some name → e.NamesColumn field name

theorem coherent_fresh (logs : Bool) : (fresh logs).Coherent := by
  constructor <;> simp [fresh]

/-- What is found after an addition was there before, or is what was added. -/
private theorem lookup_learnt {α β : Type} [BEq α] [LawfulBEq α] {known : List (α × β)}
    {key k : α} {value v : β} (found : (known ++ [(key, value)]).lookup k = some v) :
    known.lookup k = some v ∨ k = key ∧ v = value := by
  rw [List.lookup_append, Option.or_eq_some_iff] at found
  rcases found with old | ⟨-, new⟩
  · exact .inl old
  · by_cases same : k = key
    · simp_all
    · have different : (k == key) = false := by simpa using same
      simp [List.lookup_cons, different] at new

namespace Coherent

variable {r : Resolver}

theorem congr {s : Resolver} (h : r.Coherent) (tables : s.tables = r.tables)
    (columns : s.columns = r.columns) : s.Coherent :=
  ⟨fun found => h.tables (tables ▸ found), fun found => h.columns (columns ▸ found)⟩

theorem hit (h : r.Coherent) : r.hit.Coherent := h.congr rfl rfl

theorem clear (r : Resolver) : r.clear.Coherent := by
  constructor <;> simp [Resolver.clear]

theorem release (h : r.Coherent) (l : Listener) : (r.release l).Coherent := by
  unfold Resolver.release
  split <;> exact h.congr rfl rfl

theorem learnTable (h : r.Coherent) {e : Entity} {name : String} (named : e.NamesTable name) :
    (r.learnTable e name).Coherent where
  tables found := by
    rcases lookup_learnt found with known | ⟨rfl, rfl⟩
    · exact h.tables known
    · exact named
  columns found := h.columns found

theorem learnColumn (h : r.Coherent) {e : Entity} {field name : String}
    (named : e.NamesColumn field name) : (r.learnColumn e field name).Coherent where
  tables found := h.tables found
  columns found := by
    rcases lookup_learnt found with known | ⟨same, rfl⟩
    · exact h.columns known
    · obtain ⟨rfl, rfl⟩ := Prod.mk.inj same
      exact named

/-- The induction is on the agenda: a task either leaves the names alone, ends everything, or adds
the table that its entity names and goes on with a longer agenda. -/
theorem deliver (h : r.Coherent) (loggers : Loggers) (tasks : List Task) :
    (r.deliver loggers tasks).state.Coherent := by
  fun_induction Resolver.deliver loggers r tasks with
  | case1 r => exact h
  | case2 r notice rest ih => exact ih h
  | case3 r l event rest _ ih => exact ih (h.release l)
  | case4 r l event rest message _ => exact h.release l
  | case5 r l event rest e _ name _ ih => exact ih (h.release l).hit
  | case6 r l event rest e _ _ name learnt ih =>
    have named : learnt.Coherent := (h.release l).learnTable (Entity.namesTable_iff.2 rfl)
    exact state_logThen named (ih named)

theorem announce (h : r.Coherent) (loggers : Loggers) (log : LogEvent) (event : ResolveEvent) :
    (r.announce loggers log event).state.Coherent := state_logThen h (h.deliver loggers _)

theorem resolveTable (h : r.Coherent) (loggers : Loggers) (e : Entity) :
    ((resolveTable e).runWith loggers r).state.Coherent := by
  obtain ⟨name, -, run⟩ | ⟨-, run⟩ := runWith_resolveTable_cases loggers e r
  · rw [run]
    exact h.hit
  · rw [run]
    exact (h.learnTable (Entity.namesTable_iff.2 rfl)).announce loggers _ _

theorem resolveColumn (h : r.Coherent) (loggers : Loggers) (e : Entity) (field : String) :
    ((resolveColumn e field).runWith loggers r).state.Coherent := by
  obtain ⟨name, -, run⟩ | ⟨-, -, run⟩ | ⟨name, -, named, run⟩ :=
    runWith_resolveColumn_cases loggers e field r
  · rw [run]
    exact h.hit
  · rw [run]
    exact h
  · rw [run]
    exact (h.learnColumn (Entity.namesColumn_iff.2 named)).announce loggers _ _

end Coherent

end Resolver

end SqlSelect
