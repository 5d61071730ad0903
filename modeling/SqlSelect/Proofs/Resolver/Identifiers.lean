import SqlSelect.Proofs.Naming.Shape
import SqlSelect.Proofs.Resolver.Runs

/-!
Which names of tables and columns are identifiers. What an entity declares is checked when it is
defined, so a declared name always is one. A name that is left to the convention is not checked: it
is an identifier exactly if the name of the entity or of the field was one.
-/
namespace SqlSelect

open Identifier

theorem Field.ofDefinitions_singleton (f : Field) : ofDefinitions [f] = [f] := by
  show arrange [f] = [f]
  unfold arrange
  cases numeral : index? f.name <;> simp [numeral]

namespace Entity

/-- Entities that have passed their checks, and so has every entity that they extend. -/
inductive Accepted : Entity → Prop
  | define {serial : Nat} {name : String} {table? : Option String} {definitions : List Field}
      {parent? : Option Entity} {e : Entity} (parent : ∀ p, parent? = some p → Accepted p)
      (defined : Entity.define serial name table? definitions parent? = .ok e) : Accepted e

/-- A name is declared, and not left empty. -/
def Declares (declared? : Option String) : Prop := ∃ name ∈ declared?, name ≠ ""

theorem checkDeclared_eq_ok {check : String → Except QueryError Unit} {declared? : Option String} :
    checkDeclared check declared? = .ok () ↔
      ∀ name ∈ declared?, name ≠ "" → check name = .ok () := by
  cases declared? with
  | none => simp [checkDeclared]
  | some name =>
    by_cases empty : name = ""
    · simp [checkDeclared, empty]
    · simp [checkDeclared, empty]

theorem checkFields_eq_ok {fields : List Field} : checkFields fields = .ok () ↔
    ∀ f ∈ fields, checkDeclared checkColumnName f.column? = .ok () := by
  induction fields with
  | nil => simp [checkFields]
  | cons f fields ih =>
    rw [checkFields, List.forall_mem_cons, ← ih, except_bind_eq_ok]
    constructor
    · rintro ⟨⟨⟩, first, others⟩
      exact ⟨first, others⟩
    · rintro ⟨first, others⟩
      exact ⟨(), first, others⟩

theorem checkTableName_eq_ok {name : String} (nonempty : name ≠ "") :
    checkTableName name = .ok () ↔ isQualified name.toList = true := by
  simp [checkTableName, nonempty]

theorem checkColumnName_eq_ok {name : String} (nonempty : name ≠ "") :
    checkColumnName name = .ok () ↔ isIdentifier name.toList = true := by
  simp [checkColumnName, nonempty]

theorem own_extend (own : Declaration) (parent? : Option Entity) :
    (extend own parent?).own = own := by
  cases parent? <;> rfl

theorem parent?_extend (own : Declaration) (parent? : Option Entity) :
    (extend own parent?).parent? = parent? := by
  cases parent? <;> rfl

/-- What a definition has checked, and the entity that it leaves. -/
theorem define_eq_ok {serial : Nat} {name : String} {table? : Option String}
    {definitions : List Field} {parent? : Option Entity} {e : Entity} :
    define serial name table? definitions parent? = .ok e ↔ Text.isBlank name = false ∧
      checkDeclared checkTableName table? = .ok () ∧
      checkFields (Field.ofDefinitions definitions) = .ok () ∧
      e = extend ⟨serial, name, table?, Field.ofDefinitions definitions⟩ parent? := by
  unfold define
  constructor
  · intro defined
    dsimp only at defined
    split at defined
    · cases defined
    · next blank =>
      obtain ⟨⟨⟩, table, defined⟩ := except_bind_eq_ok.1 defined
      obtain ⟨⟨⟩, fields, defined⟩ := except_bind_eq_ok.1 defined
      exact ⟨Bool.eq_false_iff.2 blank, table, fields, (Except.ok.inj defined).symm⟩
  · rintro ⟨blank, table, fields, rfl⟩
    dsimp only
    rw [if_neg (by simp [blank]), table, fields]
    rfl

namespace Accepted

variable {e : Entity} (accepted : e.Accepted)
include accepted

theorem parent {p : Entity} (extended : e.parent? = some p) : p.Accepted := by
  obtain ⟨parents, defined⟩ := accepted
  obtain ⟨-, -, -, rfl⟩ := define_eq_ok.1 defined
  apply parents p
  rw [← extended, parent?_extend]

theorem table {name : String} (given : e.own.table? = some name) (nonempty : name ≠ "") :
    isQualified name.toList = true := by
  obtain ⟨-, defined⟩ := accepted
  obtain ⟨-, checked, -, rfl⟩ := define_eq_ok.1 defined
  rw [own_extend] at given
  exact (checkTableName_eq_ok nonempty).1 (checkDeclared_eq_ok.1 checked name given nonempty)

theorem ownColumn {field : String} {f : Field} (own : e.ownField? field = some f) {name : String}
    (given : f.column? = some name) (nonempty : name ≠ "") : isIdentifier name.toList = true := by
  obtain ⟨-, defined⟩ := accepted
  obtain ⟨-, -, checked, rfl⟩ := define_eq_ok.1 defined
  rw [ownField?, own_extend] at own
  have field := checkFields_eq_ok.1 checked f (List.mem_of_find?_eq_some own)
  exact (checkColumnName_eq_ok nonempty).1 (checkDeclared_eq_ok.1 field name given nonempty)

theorem column {field : String} {f : Field} (defined : e.Defines field f) {name : String}
    (given : f.column? = some name) (nonempty : name ≠ "") : isIdentifier name.toList = true := by
  cases defined with
  | own own => exact accepted.ownColumn own given nonempty
  | inherited extended _ own => exact (accepted.parent extended).ownColumn own given nonempty

theorem isQualified_iff {name : String} (named : e.NamesTable name) :
    isQualified name.toList = true ↔
      Declares e.own.table? ∨ isQualified (e.name.toList.map Text.fold) = true := by
  cases named with
  | declared given nonempty =>
    exact ⟨fun _ => .inl ⟨name, given, nonempty⟩, fun _ => accepted.table given nonempty⟩
  | derived silent =>
    have undeclared : ¬ Declares e.own.table? := fun ⟨table, given, nonempty⟩ =>
      nonempty (silent table given)
    rw [Naming.isQualified_snakeCase, or_iff_right undeclared]
    rfl

theorem isIdentifier_iff {field name : String} {f : Field} (defined : e.Defines field f)
    (named : e.NamesColumn field name) : isIdentifier name.toList = true ↔
      Declares f.column? ∨ isIdentifier (field.toList.map Text.fold) = true := by
  have same {g : Field} (other : e.Defines field g) : g = f :=
    Option.some.inj ((defines_iff.1 other).symm.trans (defines_iff.1 defined))
  cases named with
  | declared defined given nonempty =>
    obtain rfl := same defined
    exact ⟨fun _ => .inl ⟨name, given, nonempty⟩, fun _ => accepted.column defined given nonempty⟩
  | derived defined silent =>
    obtain rfl := same defined
    rw [Naming.isIdentifier_snakeCase, or_iff_right]
    exact fun ⟨column, given, nonempty⟩ => nonempty (silent column given)

end Accepted

end Entity

namespace Resolver

/-- After any run a look-up on an accepted entity that no listener ends gives a table name of one
identifier, or of two with a dot between them, exactly if a table is declared or the entity's own
name has that shape, and an identifier for the column of a field exactly if a column is declared or
the field's name is one. The Kelvin sign counts as the letter that it is lower-cased to. -/
theorem identifiers_iff_declared_or_named (logs : Bool) (calls : List Call) {e : Entity}
    (accepted : e.Accepted) :
    let r := (fresh logs).after calls
    Ends (· ∈ r.listeners) (fun name => isQualified name.toList = true ↔
      Entity.Declares e.own.table? ∨ isQualified (e.name.toList.map Text.fold) = true)
      ((resolveTable e).run r).result ∧
    ∀ field f, e.Defines field f →
      Ends (· ∈ r.listeners) (fun name => isIdentifier name.toList = true ↔
        Entity.Declares f.column? ∨ isIdentifier (field.toList.map Text.fold) = true)
        ((resolveColumn e field).run r).result := by
  intro r
  have h : r.Coherent := (coherent_fresh logs).after calls
  refine ⟨?_, fun field f defined => ?_⟩
  · exact (ends_resolveTable h e).imp fun _ => accepted.isQualified_iff
  · exact (ends_resolveColumn h defined).imp fun _ => accepted.isIdentifier_iff defined

/-- A declared table of two identifiers, and a column of the entity that is extended. -/
theorem qualified_table_and_inherited_column :
    let entry : Entity := .base ⟨1, "Entry", none, [⟨"createdAt", none⟩]⟩
    let total : Field := ⟨"total", some "order_total"⟩
    let invoice : Entity := .derived ⟨2, "Invoice", some "billing.invoices", [total]⟩ entry
    invoice.Accepted ∧ ∃ table column,
      ((resolveTable invoice).run (fresh false)).result = .ok table ∧
      isQualified table.toList = true ∧
      ((resolveColumn invoice "createdAt").run (fresh false)).result = .ok column ∧
      isIdentifier column.toList = true := by
  intro entry total invoice
  have base : entry.Accepted := by
    have defined : Entity.define 1 "Entry" none [⟨"createdAt", none⟩] none = .ok entry := by
      rw [Entity.define_eq_ok, Field.ofDefinitions_singleton]
      exact ⟨by decide +kernel, rfl, rfl, rfl⟩
    refine .define ?_ defined
    exact nofun
  have accepted : invoice.Accepted := by
    have defined : Entity.define 2 "Invoice" (some "billing.invoices") [total] (some entry) =
        .ok invoice := by
      rw [Entity.define_eq_ok, Field.ofDefinitions_singleton]
      exact ⟨by decide +kernel, by cbv, by cbv, rfl⟩
    exact .define (fun _ extended => Option.some.inj extended ▸ base) defined
  have inherited : invoice.Defines "createdAt" ⟨"createdAt", none⟩ := .inherited rfl rfl rfl
  obtain ⟨tables, columns⟩ := identifiers_iff_declared_or_named false [] accepted
  have named : isIdentifier ("createdAt".toList.map Text.fold) = true := by decide +kernel
  have unheard {α : Type} {good : α → Prop} {result : Except QueryError α}
      (ends : Ends (· ∈ (fresh false).listeners) good result) : ∃ x, good x ∧ result = .ok x := by
    rcases ends.eq with returned | ⟨l, there, -⟩
    · exact returned
    · cases there
  obtain ⟨table, isTable, foundTable⟩ := unheard tables
  obtain ⟨column, isColumn, foundColumn⟩ := unheard (columns "createdAt" _ inherited)
  exact ⟨accepted, table, column, foundTable, isTable.2 (.inl ⟨_, rfl, by decide⟩), foundColumn,
    isColumn.2 (.inr named)⟩

/-- A name with a blank is accepted, and it gets into the statement. -/
theorem blank_in_name_is_kept :
    let items : Entity := .base ⟨1, "order items", none, [⟨"unit price", some ""⟩]⟩
    Entity.define 1 "order items" none [⟨"unit price", some ""⟩] none = .ok items ∧
      ((resolveTable items).run (fresh false)).result = .ok "order items" ∧
      isQualified "order items".toList = false ∧
      ((resolveColumn items "unit price").run (fresh false)).result = .ok "unit price" ∧
      isIdentifier "unit price".toList = false := by
  intro items
  have defined : Entity.define 1 "order items" none [⟨"unit price", some ""⟩] none = .ok items := by
    rw [Entity.define_eq_ok, Field.ofDefinitions_singleton]
    exact ⟨by decide +kernel, rfl, rfl, rfl⟩
  exact ⟨defined, by cbv, by decide +kernel, by cbv, by decide +kernel⟩

end Resolver

end SqlSelect
