import SqlSelect.Proofs.Builder.Steps
import SqlSelect.Proofs.Resolver.Names

/-!
What roots and builders give and become when every name is read from its entity. Asking a resolver
comes to the same, whichever names it remembers.
-/
namespace SqlSelect

namespace TableRoot

variable (r : TableRoot)

def plainExpr (field : String) : Except QueryError Expr := do
  let name ← r.entity.columnOf field
  let qualifier ← r.aliasName
  return .column qualifier name

def plainColumn (field : String) (name? : Option String) : Except QueryError Column := do
  Column.ofExprAs (← r.plainExpr field) name?

def plainCount (field : String) (name? : Option String) : Except QueryError Column := do
  Column.ofExprAs (.count (← r.plainExpr field)) name?

def plainFormatDate (field pattern : String) (name? : Option String) :
    Except QueryError Column := do
  Column.ofExprAs (.formatDate r.dialect.database (← r.plainExpr field) pattern) name?

theorem computes_column (field : String) (name? : Option String) :
    Computes (r.column field name?) (r.plainColumn field name?) :=
  (r.computes_columnExpr field).bind fun _ _ => Computes.lift _

theorem computes_count (field : String) (name? : Option String) :
    Computes (r.count field name?) (r.plainCount field name?) :=
  (r.computes_columnExpr field).bind fun _ _ => Computes.lift _

theorem computes_formatDate (field pattern : String) (name? : Option String) :
    Computes (r.formatDate field pattern name?) (r.plainFormatDate field pattern name?) :=
  (r.computes_columnExpr field).bind fun _ _ => Computes.lift _

theorem aliasName_eq_ok {name : String} : r.aliasName = .ok name ↔ r.alias? = some name := by
  unfold aliasName
  cases r.alias? <;> simp

theorem plainExpr_ok {field : String} {e : Expr} (h : r.plainExpr field = .ok e) :
    ∃ name qualifier, r.entity.columnName? field = some name ∧ r.alias? = some qualifier ∧
      e = .column qualifier name := by
  obtain ⟨name, named, h⟩ := except_bind_eq_ok.1 h
  obtain ⟨qualifier, aliased, h⟩ := except_bind_eq_ok.1 h
  exact ⟨name, qualifier, Entity.columnOf_eq_ok.1 named, r.aliasName_eq_ok.1 aliased,
    (Except.ok.inj h).symm⟩

/-- A column that is asked for without a name of its own is what its field is called under the
alias of the root. -/
theorem plainColumn_ok {field : String} {c : Column} (h : r.plainColumn field none = .ok c) :
    ∃ name qualifier, r.entity.columnName? field = some name ∧ r.alias? = some qualifier ∧
      c = .ofExpr (.column qualifier name) := by
  obtain ⟨e, given, h⟩ := except_bind_eq_ok.1 h
  obtain ⟨name, qualifier, named, aliased, rfl⟩ := r.plainExpr_ok given
  exact ⟨name, qualifier, named, aliased, (Except.ok.inj h).symm⟩

end TableRoot

namespace Builder

variable (b : Builder)

def plainStart (e : Entity) : Except QueryError Builder := do
  if b.start?.isSome then throw .fromDeclared
  let root ← (b.newRoot e).withAlias b.startAlias
  return { b with start? := some root }

def plainJoin (e : Entity) (source : Column) (targetField typeName : String) :
    Except QueryError Builder := do
  if b.start?.isNone then throw .joinBeforeFrom
  let type ← b.joinType typeName
  let root ← (b.newRoot e).withAlias (Alias.firstFree b.taken b.joinAlias)
  let target ← root.plainColumn targetField none
  let root ← root.withJoin type source target
  return { b with joins := b.joins ++ [root] }

theorem plainStart_checked {b next : Builder} {e : Entity} (h : b.plainStart e = .ok next) :
    b.start? = none ∧ Identifier.isIdentifier b.startAlias.toList = true ∧
      next = { b with start? := some (b.aliasedRoot e b.startAlias) } := by
  unfold plainStart at h
  dsimp only at h
  split at h
  · cases h
  · next unset =>
    obtain ⟨root, assigned, h⟩ := except_bind_eq_ok.1 h
    obtain ⟨-, named, rfl⟩ := TableRoot.withAlias_eq_ok.1 assigned
    exact ⟨by simpa using unset, named, (Except.ok.inj h).symm⟩

theorem plainStart_ok {b next : Builder} {e : Entity} (h : b.plainStart e = .ok next) :
    b.start? = none ∧ next = { b with start? := some (b.aliasedRoot e b.startAlias) } := by
  obtain ⟨unset, -, same⟩ := plainStart_checked h
  exact ⟨unset, same⟩

theorem plainJoin_checked {b next : Builder} {e : Entity} {source : Column}
    {targetField typeName : String} (h : b.plainJoin e source targetField typeName = .ok next) :
    let name := Alias.firstFree b.taken b.joinAlias
    b.start?.isSome = true ∧ Identifier.isIdentifier name.toList = true ∧
      ∃ type column, b.database.join? typeName = some type ∧
        e.columnName? targetField = some column ∧
        next = { b with
          joins := b.joins ++ [{ b.aliasedRoot e name with
            join? := some ⟨type, source, .ofExpr (.column name column), none⟩ }] } := by
  unfold plainJoin at h
  dsimp only at h
  split at h
  · cases h
  · next declared =>
    obtain ⟨type, supported, h⟩ := except_bind_eq_ok.1 h
    obtain ⟨root, assigned, h⟩ := except_bind_eq_ok.1 h
    obtain ⟨target, resolved, h⟩ := except_bind_eq_ok.1 h
    obtain ⟨joined, attached, h⟩ := except_bind_eq_ok.1 h
    obtain ⟨-, valid, rfl⟩ := TableRoot.withAlias_eq_ok.1 assigned
    obtain ⟨-, rfl⟩ := TableRoot.withJoin_eq_ok.1 attached
    obtain ⟨column, qualifier, named, aliased, rfl⟩ := TableRoot.plainColumn_ok _ resolved
    obtain rfl := Option.some.inj aliased
    exact ⟨by simpa [Option.isSome_iff_ne_none] using declared, valid, type, column,
      joinType_eq_ok.1 supported, named, (Except.ok.inj h).symm⟩

theorem plainJoin_ok {b next : Builder} {e : Entity} {source : Column}
    {targetField typeName : String} (h : b.plainJoin e source targetField typeName = .ok next) :
    let name := Alias.firstFree b.taken b.joinAlias
    b.start?.isSome = true ∧ ∃ type column, b.database.join? typeName = some type ∧
      e.columnName? targetField = some column ∧
      next = { b with
        joins := b.joins ++ [{ b.aliasedRoot e name with
          join? := some ⟨type, source, .ofExpr (.column name column), none⟩ }] } := by
  obtain ⟨declared, -, made⟩ := plainJoin_checked h
  exact ⟨declared, made⟩

theorem computes_withStart (e : Entity) : Computes (b.withStart e) (b.plainStart e) := by
  unfold withStart plainStart
  dsimp only
  split
  · exact (Computes.fail _).bind fun _ given => nomatch given
  · exact (Computes.lift _).bind fun _ _ => (Computes.log _ _).bind fun _ _ => Computes.pure _

theorem computes_withJoin (e : Entity) (source : Column) (targetField typeName : String) :
    Computes (b.withJoin e source targetField typeName)
      (b.plainJoin e source targetField typeName) := by
  unfold withJoin plainJoin
  dsimp only
  split
  · exact (Computes.fail _).bind fun _ given => nomatch given
  · exact (Computes.lift _).bind fun _ _ => (Computes.lift _).bind fun root _ =>
      (root.computes_column targetField none).bind fun _ _ => (Computes.lift _).bind fun _ _ =>
      (Computes.log _ _).bind fun _ _ => Computes.pure _

end Builder

end SqlSelect
