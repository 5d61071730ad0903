import SqlSelect.Proofs.Session.Reach

/-!
What a call that succeeds can do to a session, said once for all calls, and what that makes of one
builder: the builder is new, declares its start, joins a root, has one of its roots changed, or is
left alone.
-/
namespace SqlSelect.Session

/-- A name is only given to a root that has none, a join only to one that has none, and a condition
only to a join that takes one. -/
theorem RootChange.apply_ok {c : RootChange} {r next : TableRoot} (ok : c.apply r = .ok next) :
    (∃ name, c = .assign name ∧ r.alias? = none ∧ next = { r with alias? := some name }) ∨
    (∃ type source target, c = .attach type source target ∧ r.join? = none ∧
      next = { r with join? := some ⟨type, source, target, none⟩ }) ∨
    ∃ p join, c = .condition p ∧ r.join? = some join ∧ join.type ≠ .cross ∧
      next = { r with join? := some { join with condition? := some p } } := by
  cases c with
  | assign name =>
    obtain ⟨unnamed, -, next⟩ := TableRoot.withAlias_eq_ok.1 ok
    exact .inl ⟨name, rfl, unnamed, next⟩
  | attach type source target =>
    obtain ⟨apart, next⟩ := TableRoot.withJoin_eq_ok.1 ok
    exact .inr (.inl ⟨type, source, target, rfl, apart, next⟩)
  | condition p =>
    unfold apply TableRoot.withCondition at ok
    cases wired : r.join? with
    | none => simp [wired] at ok
    | some join =>
      simp only [wired] at ok
      split at ok
      · cases ok
      · next other => exact .inr (.inr ⟨p, join, rfl, rfl, other, (Except.ok.inj ok).symm⟩)

/-- Calls that change no builder, root or query. -/
def Call.Looks : Call → Prop
  | aside _ | roots _ | make _ _ | ask _ _ | render _ => True
  | _ => False

/-- What a call that succeeds leaves of a bare session. -/
inductive Call.Leaves (s : Session) : Call → Session → Prop
  | newBuilder {options : BuilderOptions} {database : Database} {b : Builder}
      (make : Builder.make ⟨database, 0⟩ sharedResolver options.logs options.startAlias
        options.joinAlias options.listed? = .ok b) :
      Leaves s (.newBuilder options) { s with builders := (s.builders.add b).2 }
  | start {h : Handle .builder} {e : Entity} {b : Builder}
      (plain : (s.builders.get h).plainStart e = .ok b) :
      Leaves s (.start h e) (s.setBuilder h b)
  | join {h : Handle .builder} {e : Entity} {source : Column} {targetField typeName : String}
      {b : Builder}
      (plain : (s.builders.get h).plainJoin e source targetField typeName = .ok b) :
      Leaves s (.join h e source targetField typeName) (s.setBuilder h b)
  | newRoot {e : Entity} {h : Handle .resolver} {dialect : Dialect} (r : TableRoot) :
      Leaves s (.newRoot e h dialect) { s with roots := (s.roots.add r).2 }
  | change {ref : RootRef} {c : RootChange} {r : TableRoot}
      (changed : c.apply (s.root ref) = .ok r) : Leaves s (.change ref c) (s.setRoot ref r)
  | newQuery (builder? : Option (Handle .builder)) :
      Leaves s (.newQuery builder?) { s with queries := (s.queries.add (.fresh builder?)).2 }
  | bind (h : Handle .query) (builder : Handle .builder) :
      Leaves s (.bind h builder) (s.setQuery h ((s.queries.get h).setBuilder builder))
  | set {h : Handle .query} {c : Setting} {q : Query}
      (applied : c.apply (s.queries.get h) = .ok q) : Leaves s (.set h c) (s.setQuery h q)
  | same {c : Call} (looks : c.Looks) : Leaves s c s

/-- The call is not one on this builder or on a root that it owns. -/
def Call.Spares (h : Handle .builder) : Call → Prop
  | start k _ | join k _ _ _ _ | change (.start k) _ | change (.joined k _) _ => k ≠ h
  | _ => True

/-- What a call that succeeds can make of a builder that is there. -/
inductive Call.Alters (h : Handle .builder) (b : Builder) : Call → Builder → Prop
  | started {e : Entity} {next : Builder} (plain : b.plainStart e = .ok next) :
      Alters h b (.start h e) next
  | joined {e : Entity} {source : Column} {targetField typeName : String} {next : Builder}
      (plain : b.plainJoin e source targetField typeName = .ok next) :
      Alters h b (.join h e source targetField typeName) next
  | startRoot {c : RootChange} {r : TableRoot} (changed : ∀ old ∈ b.start?, c.apply old = .ok r) :
      Alters h b (.change (.start h) c) { b with start? := b.start?.map fun _ => r }
  | joinedRoot {i : Nat} {c : RootChange} {r : TableRoot}
      (changed : ∀ old ∈ b.joins[i]?, c.apply old = .ok r) :
      Alters h b (.change (.joined h i) c) { b with joins := b.joins.set i r }
  | spared {c : Call} (spares : c.Spares h) : Alters h b c b

theorem Call.Looks.spares {c : Call} (looks : c.Looks) (h : Handle .builder) : c.Spares h := by
  cases c with
  | aside | roots | make | ask | render => trivial
  | _ => exact looks.elim

variable {s t : Session} {c : Call} {a : Answer}

theorem leaves_of_meaning (meant : c.meaning s = .ok (a, t)) : c.Leaves s t := by
  cases c with
  | newBuilder options =>
    obtain ⟨database, -, meant⟩ := except_bind_eq_ok.1 meant
    obtain ⟨b, make, meant⟩ := except_bind_eq_ok.1 meant
    obtain ⟨-, rfl⟩ := Prod.mk.inj (Except.ok.inj meant)
    exact .newBuilder make
  | start h e =>
    obtain ⟨b, plain, meant⟩ := except_map_eq_ok.1 meant
    obtain ⟨-, rfl⟩ := Prod.mk.inj meant
    exact .start plain
  | join h e source targetField typeName =>
    obtain ⟨b, plain, meant⟩ := except_map_eq_ok.1 meant
    obtain ⟨-, rfl⟩ := Prod.mk.inj meant
    exact .join plain
  | change ref c =>
    obtain ⟨r, changed, meant⟩ := except_map_eq_ok.1 meant
    obtain ⟨-, rfl⟩ := Prod.mk.inj meant
    exact .change changed
  | set h c =>
    obtain ⟨q, applied, meant⟩ := except_map_eq_ok.1 meant
    obtain ⟨-, rfl⟩ := Prod.mk.inj meant
    exact .set applied
  | newRoot =>
    obtain ⟨-, rfl⟩ := Prod.mk.inj (Except.ok.inj meant)
    exact .newRoot _
  | newQuery builder? =>
    obtain ⟨-, rfl⟩ := Prod.mk.inj (Except.ok.inj meant)
    exact .newQuery builder?
  | bind h builder =>
    obtain ⟨-, rfl⟩ := Prod.mk.inj (Except.ok.inj meant)
    exact .bind h builder
  | roots =>
    obtain ⟨-, rfl⟩ := Prod.mk.inj (Except.ok.inj meant)
    exact .same trivial
  | aside | make | ask | render =>
    obtain ⟨_, -, meant⟩ := except_map_eq_ok.1 meant
    obtain ⟨-, rfl⟩ := Prod.mk.inj meant
    exact .same trivial

theorem Call.alters_set {next : Builder} {h k : Handle .builder}
    (own : c.Alters k (s.builders.get k) next) (spares : k ≠ h → c.Spares h) :
    c.Alters h (s.builders.get h) ((s.builders.set k next).get h) := by
  by_cases same : h = k
  · subst same
    rwa [Store.get_set_self]
  · rw [Store.get_set_of_ne _ same]
    exact .spared (spares (Ne.symm same))

/-- After a call that succeeds a builder is a new one or an altered one. -/
theorem alters_of_meaning (meant : c.meaning s = .ok (a, t)) (h : Handle .builder) :
    (h = ⟨s.builders.size⟩ ∧ ∃ options database, c = .newBuilder options ∧
      Builder.make ⟨database, 0⟩ sharedResolver options.logs options.startAlias options.joinAlias
        options.listed? = .ok (t.builders.get h)) ∨
      c.Alters h (s.builders.get h) (t.builders.get h) := by
  cases leaves_of_meaning meant with
  | @newBuilder options database b make =>
    by_cases new : h = ⟨s.builders.size⟩
    · subst new
      have held : (s.builders.add b).2.get ⟨s.builders.size⟩ = b := Store.get_add_self _ b
      exact .inl ⟨rfl, options, database, rfl, make.trans (congrArg _ held.symm)⟩
    · have old : (s.builders.add b).2.get h = s.builders.get h := Store.get_set_of_ne _ new b
      exact .inr (old ▸ .spared trivial)
  | start plain => exact .inr (Call.alters_set (.started plain) id)
  | join plain => exact .inr (Call.alters_set (.joined plain) id)
  | @change ref c r changed =>
    cases ref with
    | start k =>
      refine .inr (Call.alters_set (.startRoot fun old begins => ?_) id)
      rwa [root, begins] at changed
    | joined k i =>
      refine .inr (Call.alters_set (.joinedRoot fun old there => ?_) id)
      rwa [root, there] at changed
    | loose k => exact .inr (.spared trivial)
  | newRoot | newQuery | bind | set => exact .inr (.spared trivial)
  | same looks => exact .inr (.spared (looks.spares h))

/-- Handles that were given out stay so. -/
theorem size_builders_of_meaning (meant : c.meaning s = .ok (a, t)) :
    s.builders.size ≤ t.builders.size := by
  cases leaves_of_meaning meant with
  | newBuilder => exact Nat.le_succ _
  | @change ref => cases ref <;> exact Nat.le_refl _
  | _ => exact Nat.le_refl _

end SqlSelect.Session
