import SqlSelect.Proofs.Resolver.Runs
import SqlSelect.TableRoot

/-!
Actions that ask for names. From coherent resolvers such an action ends as if every name were read
from its entity, unless a listener refuses one; it leaves coherent resolvers behind and no listener
that was not there before. Loggers take their lines here.
-/
namespace SqlSelect

namespace Resolvers

def Coherent (names : Resolvers) : Prop := ∀ h, (names.get h).Coherent

/-- Resolvers of which each has only been through calls are coherent. -/
theorem coherent_of_after {names : Resolvers}
    (reached : ∀ h, ∃ logs calls, names.get h = (Resolver.fresh logs).after calls) :
    names.Coherent := fun h => by
  obtain ⟨logs, calls, same⟩ := reached h
  exact same ▸ (Resolver.coherent_fresh logs).after calls

def Refuses (names : Resolvers) (message : String) : Prop :=
  ∃ h, ∃ l ∈ (names.get h).listeners, l.reaction = .refuse message

end Resolvers

/-- How an action ends that would give `x` if it only read names from entities. -/
structure Settles {α : Type} (names : Resolvers) (o : Outcome Resolvers α)
    (x : Except QueryError α) : Prop where
  coherent : o.state.Coherent
  listeners : ∀ h, (o.state.get h).listeners ⊆ (names.get h).listeners
  result : o.result = x ∨ ∃ message, names.Refuses message ∧ o.result = .error (.refused message)

def Computes {α : Type} (a : Action Resolvers α) (x : Except QueryError α) : Prop :=
  ∀ names, names.Coherent → Settles names (a.run names) x

namespace Computes

variable {α β : Type} {a : Action Resolvers α} {x : Except QueryError α}

theorem congr (h : Computes a x) {y : Except QueryError α} (same : x = y) : Computes a y := same ▸ h

/-- A result can only be the one that is computed. -/
theorem eq_ok (h : Computes a x) {names : Resolvers} (coherent : names.Coherent) {y : α}
    (ok : (a.run names).result = .ok y) : x = .ok y := by
  rcases (h names coherent).result with same | ⟨message, -, refused⟩
  · exact same.symm.trans ok
  · rw [refused] at ok
    cases ok

theorem result_of_quiet (h : Computes a x) {names : Resolvers} (coherent : names.Coherent)
    (quiet : ∀ message, ¬ names.Refuses message) : (a.run names).result = x := by
  rcases (h names coherent).result with same | ⟨message, refuses, -⟩
  · exact same
  · exact absurd refuses (quiet message)

theorem lift (x : Except QueryError α) : Computes (liftM x) x := fun names coherent => by
  rw [Action.run_lift]
  exact ⟨coherent, fun _ => List.Subset.refl _, .inl rfl⟩

theorem pure (x : α) : Computes (Pure.pure x) (.ok x) := fun _ coherent =>
  ⟨coherent, fun _ => List.Subset.refl _, .inl rfl⟩

theorem fail (e : QueryError) : Computes (Action.fail e : Action Resolvers α) (.error e) :=
  fun _ coherent => ⟨coherent, fun _ => List.Subset.refl _, .inl rfl⟩

theorem log (logs : Bool) (event : LogEvent) : Computes (Action.log logs event) (.ok ()) :=
  fun _ coherent => ⟨coherent, fun _ => List.Subset.refl _, .inl rfl⟩

/-- What is computed by a chain is the chain of what is computed. -/
theorem bind {f : α → Action Resolvers β} {g : α → Except QueryError β} (h : Computes a x)
    (next : ∀ y, x = .ok y → Computes (f y) (g y)) : Computes (a >>= f) (x >>= g) := by
  intro names coherent
  obtain ⟨kept, released, ends⟩ := h names coherent
  cases result : (a.run names).result with
  | error e =>
    have run : a.run names = ⟨(a.run names).state, (a.run names).journal, .error e⟩ := by
      rw [← result]
    rw [Action.run_bind_error run]
    refine ⟨kept, released, ?_⟩
    rcases ends with same | ⟨message, refuses, refused⟩
    · exact .inl (by rw [← same, result]; rfl)
    · have same : e = .refused message := Except.error.inj (result.symm.trans refused)
      exact .inr ⟨message, refuses, congrArg Except.error same⟩
  | ok y =>
    have same := h.eq_ok coherent result
    obtain ⟨kept', released', ends'⟩ := next y same _ kept
    rw [Action.run_bind_of_ok result]
    refine ⟨kept', fun k => List.Subset.trans (released' k) (released k), ?_⟩
    rcases ends' with same' | ⟨message, ⟨k, l, there, refuses⟩, refused⟩
    · exact .inl (by rw [Outcome.result_after, same', same]; rfl)
    · exact .inr ⟨message, ⟨k, l, released k there, refuses⟩, refused⟩

/-- An action on one resolver that keeps it coherent and adds no listener. -/
theorem act {h : Handle .resolver} {a : Action Resolver α}
    (kept : ∀ r : Resolver, r.Coherent → (a.run r).state.Coherent)
    (released : ∀ r : Resolver, (a.run r).state.listeners ⊆ r.listeners)
    (ends : ∀ r : Resolver, r.Coherent → (a.run r).result = x ∨ ∃ l ∈ r.listeners, ∃ message,
      l.reaction = .refuse message ∧ (a.run r).result = .error (.refused message)) :
    Computes (Resolvers.act h a) x := fun names coherent => by
  have others {k : Handle .resolver} (different : k ≠ h) :
      ((Resolvers.act h a).run names).state.get k = names.get k := by
    simp [Resolvers.act, Action.run, Action.runWith, Action.onPart, Store.get_set_of_ne _ different]
  have own : ((Resolvers.act h a).run names).state.get h = (a.run (names.get h)).state := by
    simp [Resolvers.act, Action.run, Action.runWith, Action.onPart]
  refine ⟨?_, ?_, ?_⟩
  · intro k
    by_cases same : k = h
    · rw [same, own]
      exact kept _ (coherent h)
    · rw [others same]
      exact coherent k
  · intro k
    by_cases same : k = h
    · rw [same, own]
      exact released _
    · rw [others same]
      exact List.Subset.refl _
  · rcases ends _ (coherent h) with same | ⟨l, there, message, refuses, refused⟩
    · exact .inl same
    · exact .inr ⟨message, ⟨h, l, there, refuses⟩, refused⟩

end Computes

/-- The column for a field by the rules alone. -/
def Entity.columnOf (e : Entity) (field : String) : Except QueryError String :=
  match e.columnName? field with
  | some name => .ok name
  | none => .error (.fieldMissing e.name field)

theorem Entity.columnOf_eq_ok {e : Entity} {field name : String} :
    e.columnOf field = .ok name ↔ e.columnName? field = some name := by
  unfold columnOf
  cases e.columnName? field <;> simp

namespace TableRoot

variable (r : TableRoot)

theorem computes_tableName : Computes r.tableName (.ok r.entity.tableName) := by
  apply Computes.act
  · exact fun _ h => h.resolveTable .sink r.entity
  · exact fun names => names.listeners_resolveTable_subset .sink r.entity
  · intro names h
    apply (Resolver.ends_resolveTable h r.entity).eq.imp_left
    rintro ⟨name, named, result⟩
    rw [result, Entity.namesTable_iff.1 named]

theorem computes_columnName (field : String) :
    Computes (Resolvers.act r.resolver (Resolver.resolveColumn r.entity field))
      (r.entity.columnOf field) := by
  apply Computes.act
  · exact fun _ h => h.resolveColumn .sink r.entity field
  · exact fun names => names.listeners_resolveColumn_subset .sink r.entity field
  · intro names h
    unfold Entity.columnOf
    cases named : r.entity.columnName? field with
    | none =>
      rw [Resolver.resolveColumn_undefined h (Entity.columnName?_eq_none_iff.1 named)]
      exact .inl rfl
    | some name =>
      obtain ⟨f, found, -⟩ := Option.map_eq_some_iff.1 named
      have ends := Resolver.ends_resolveColumn h (Entity.defines_iff.2 found)
      apply ends.eq.imp_left
      rintro ⟨given, isName, result⟩
      obtain rfl := Option.some.inj (named.symm.trans (Entity.namesColumn_iff.1 isName))
      exact result

/-- A root's expression for a field is the one that the rules and its alias give, whatever its
resolver was asked before. -/
theorem computes_columnExpr (field : String) :
    Computes (r.columnExpr field) (do
      let name ← r.entity.columnOf field
      let qualifier ← r.aliasName
      return .column qualifier name) := by
  apply (r.computes_columnName field).bind
  intro name _
  exact (Computes.lift r.aliasName).bind fun _ _ => Computes.pure _

end TableRoot

end SqlSelect
