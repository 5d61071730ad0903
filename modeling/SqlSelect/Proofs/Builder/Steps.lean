import SqlSelect.Proofs.Builder.InPlace

/-!
What a builder is after a declaration that succeeds, and what the declaration has checked before.
-/
namespace SqlSelect

namespace TableRoot

theorem withAlias_eq_ok {r assigned : TableRoot} {name : String} :
    r.withAlias name = .ok assigned ↔ r.alias? = none ∧
      Identifier.isIdentifier name.toList = true ∧ assigned = { r with alias? := some name } := by
  unfold withAlias
  cases r.alias? with
  | some given => simp
  | none =>
    by_cases valid : Identifier.isIdentifier name.toList = true
    · simp [checkAlias, valid, Except.map, eq_comm]
    · simp [checkAlias, valid, Except.map]

theorem withJoin_eq_ok {r attached : TableRoot} {type : JoinType} {source target : Column} :
    r.withJoin type source target = .ok attached ↔
      r.join? = none ∧ attached = { r with join? := some ⟨type, source, target, none⟩ } := by
  unfold withJoin
  cases r.join? with
  | none => simp [eq_comm]
  | some join => cases r.aliasName <;> simp [bind, Except.bind]

end TableRoot

namespace Builder

/-- The root of an entity under an alias, before it is joined. -/
def aliasedRoot (b : Builder) (e : Entity) (name : String) : TableRoot :=
  { b.newRoot e with alias? := some name }

theorem make_eq_ok {dialect : Dialect} {resolver : Handle .resolver} {logs : Bool}
    {startAlias joinAlias : String} {listed? : Option (List RootRef)} {b : Builder} :
    make dialect resolver logs startAlias joinAlias listed? = .ok b ↔
      Identifier.isIdentifier startAlias.toList = true ∧
      Identifier.isIdentifier joinAlias.toList = true ∧
      b = ⟨dialect, resolver, logs, startAlias, joinAlias, none, [], listed?⟩ := by
  by_cases first : Identifier.isIdentifier startAlias.toList = true
  · by_cases second : Identifier.isIdentifier joinAlias.toList = true
    · simp only [make, checkAlias, first, second, ↓reduceIte, bind, Except.bind, pure, Except.pure,
        Except.ok.injEq, true_and]
      exact eq_comm
    · simp [make, checkAlias, first, second, bind, Except.bind]
  · simp [make, checkAlias, first, bind, Except.bind]

theorem joinType_eq_ok {b : Builder} {name : String} {type : JoinType} :
    b.joinType name = .ok type ↔ b.database.join? name = some type := by
  unfold joinType
  cases b.database.join? name <;> simp

theorem withStart_ok {b next : Builder} {e : Entity} {names : Resolvers}
    (h : ((b.withStart e).run names).result = .ok next) :
    b.start? = none ∧ next = { b with start? := some (b.aliasedRoot e b.startAlias) } := by
  unfold withStart at h
  dsimp only at h
  split at h
  · simp [Action.run_fail_bind] at h
  · next unset =>
    obtain ⟨root, assigned, h⟩ := Action.run_bind_eq_ok h
    obtain ⟨-, -, h⟩ := Action.run_bind_eq_ok h
    simp only [Action.run_lift] at assigned
    obtain ⟨-, -, rfl⟩ := TableRoot.withAlias_eq_ok.1 assigned
    exact ⟨by simpa using unset, (Except.ok.inj h).symm⟩

/-- A join starts from a declared root, has a type the database can run, and takes the first free
alias; its target is a column that the new root gives. -/
theorem withJoin_ok {b next : Builder} {e : Entity} {source : Column}
    {targetField typeName : String} {names : Resolvers}
    (h : ((b.withJoin e source targetField typeName).run names).result = .ok next) :
    let root := b.aliasedRoot e (Alias.firstFree b.taken b.joinAlias)
    b.start?.isSome = true ∧ ∃ type target, b.database.join? typeName = some type ∧
      ((root.column targetField none).run names).result = .ok target ∧
      next = { b with
        joins := b.joins ++ [{ root with join? := some ⟨type, source, target, none⟩ }] } := by
  unfold withJoin at h
  dsimp only at h
  split at h
  · simp [Action.run_fail_bind] at h
  · next declared =>
    obtain ⟨type, supported, h⟩ := Action.run_bind_eq_ok h
    obtain ⟨root, assigned, h⟩ := Action.run_bind_eq_ok h
    obtain ⟨target, resolved, h⟩ := Action.run_bind_eq_ok h
    obtain ⟨joined, attached, h⟩ := Action.run_bind_eq_ok h
    obtain ⟨-, -, h⟩ := Action.run_bind_eq_ok h
    simp only [Action.run_lift] at supported assigned resolved attached
    obtain ⟨-, -, rfl⟩ := TableRoot.withAlias_eq_ok.1 assigned
    obtain ⟨-, rfl⟩ := TableRoot.withJoin_eq_ok.1 attached
    exact ⟨by simpa [Option.isSome_iff_ne_none] using declared, type, target,
      joinType_eq_ok.1 supported, resolved, (Except.ok.inj h).symm⟩

/-! Changes of all roots of a builder. -/

/-- Roots under `f` stay where they are in a builder under `g`, and keep their aliases. -/
structure Recasts (f : TableRoot → TableRoot) (g : Builder → Builder) : Prop where
  start : ∀ b start?, g { b with start? := start? } = { g b with start? := start?.map f }
  joins : ∀ b joins, g { b with joins := joins } = { g b with joins := joins.map f }
  listed : ∀ b, (g b).listed? = b.listed?
  logs : ∀ b, (g b).logs = b.logs
  named : ∀ r, (f r).alias? = r.alias?

namespace Recasts

variable {f : TableRoot → TableRoot} {g : Builder → Builder} (fits : Recasts f g) (b : Builder)
include fits

theorem start?_eq : (g b).start? = b.start?.map f := congrArg Builder.start? (fits.start b b.start?)

theorem joins_eq : (g b).joins = b.joins.map f := congrArg Builder.joins (fits.joins b b.joins)

theorem taken_eq : (g b).taken = b.taken := by
  have same (roots : List TableRoot) :
      (roots.map f).filterMap TableRoot.alias? = roots.filterMap TableRoot.alias? := by
    rw [List.filterMap_map]
    exact congrArg (List.filterMap · roots) (funext fits.named)
  unfold taken
  rw [fits.start?_eq, fits.joins_eq]
  cases b.start? with
  | none => exact same b.joins
  | some root => exact same (root :: b.joins)

end Recasts

end Builder

end SqlSelect
