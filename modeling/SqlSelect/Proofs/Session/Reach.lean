import SqlSelect.Proofs.Query.Traces
import SqlSelect.Proofs.Session.Meaning

/-!
Sessions that calls can reach from the first one. Their resolvers remember only names that entities
give, no two listeners of a resolver have one key, and a listener refuses names only if it was
added to do so.
-/
namespace SqlSelect.Session

/-- A session after which no number is free that was not, and resolvers have only grown. -/
structure Grown (s : Session) (journal : List Entry) (t : Session) : Prop where
  issued : s.issued ≤ t.issued
  resolvers : s.resolvers.Grown journal t.resolvers

instance : Action.Composes Grown where
  refl s := ⟨Nat.le_refl _, .refl s.resolvers _⟩
  trans first second := ⟨Nat.le_trans first.issued second.issued,
    Action.Composes.trans first.resolvers second.resolvers⟩

namespace Grown

variable {α : Type}

theorem onResolvers {a : Action Resolvers α} (asks : Asks a) :
    (Session.onResolvers a).Ensures Grown := fun loggers s =>
  ⟨Nat.le_refl _, (asks loggers s.resolvers).grown⟩

theorem onBuilder (h : Handle .builder) {a : Action Workbench α}
    (asks : a.Ensures Workbench.Asked) : (Session.onBuilder h a).Ensures Grown := fun loggers s =>
  ⟨Nat.le_refl _, (asks loggers ⟨s.builders.get h, s.resolvers⟩).grown⟩

theorem onPool (a : Action DialectPool α) : (Session.onPool a).Ensures Grown := fun _ s =>
  ⟨Nat.le_refl _, .refl s.resolvers _⟩

theorem modify {f : Session → Session} (resolvers : ∀ s, (f s).resolvers = s.resolvers)
    (issued : ∀ s, s.issued ≤ (f s).issued) : (Action.modify f).Ensures Grown := fun _ s =>
  ⟨issued s, by
    rw [Action.runWith_modify, resolvers]
    exact .refl s.resolvers _⟩

theorem chooseDialect (choice : DialectChoice) : (Session.chooseDialect choice).Ensures Grown := by
  cases choice with
  | standard => exact onPool _
  | named name => exact onPool _
  | given d => exact .pure d

theorem newBuilder (options : BuilderOptions) : (Session.newBuilder options).Ensures Grown :=
  .bind (chooseDialect _) fun _ => .bind (.lift _) fun _ => .bind .get fun _ =>
    .bind (modify (fun _ => rfl) fun _ => Nat.le_refl _) fun _ => .pure _

theorem showRoot (ref : RootRef) : (Session.showRoot ref).Ensures Grown :=
  .map (.bind .get fun _ => .pure _) _

theorem changeRoot (ref : RootRef) (f : TableRoot → Except QueryError TableRoot) :
    (Session.changeRoot ref f).Ensures Grown :=
  .bind (.bind .get fun _ => .pure _) fun _ => .bind (.lift _) fun _ =>
    modify (fun _ => by cases ref <;> rfl) fun _ => by cases ref <;> exact Nat.le_refl _

theorem changeQuery (h : Handle .query) (f : Query → Except QueryError Query) :
    (Session.changeQuery h f).Ensures Grown :=
  .bind (.bind .get fun _ => .pure _) fun _ => .bind (.lift _) fun _ =>
    modify (fun _ => rfl) fun _ => Nat.le_refl _

theorem askRoot (ref : RootRef) {a : TableRoot → Action Resolvers α} (asks : ∀ r, Asks (a r)) :
    (rootAt ref >>= fun r => Session.onResolvers (a r)).Ensures Grown :=
  .bind (.bind .get fun _ => .pure _) fun r => onResolvers (asks r)

theorem question (ref : RootRef) (question : Question) : (question.act ref).Ensures Grown := by
  cases question with
  | shown => exact showRoot ref
  | aliasName => exact .bind (.bind .get fun _ => .pure _) fun _ => .bind (.lift _) fun _ => .pure _
  | table => exact .map (askRoot ref fun r => r.asks_tableName) _
  | all => exact .bind (.bind .get fun _ => .pure _) fun _ => .bind (.lift _) fun _ => .pure _
  | column field name? => exact .map (askRoot ref fun r => r.asks_column field name?) _
  | count field name? => exact .map (askRoot ref fun r => r.asks_count field name?) _
  | formatDate field pattern name? =>
    exact .map (askRoot ref fun r => r.asks_formatDate field pattern name?) _

theorem render (h : Handle .query) : (Session.render h).Ensures Grown :=
  .bind (.bind .get fun _ => .pure _) fun q => .bind .get fun s => fun loggers t =>
    ⟨Nat.le_refl _, q.grows_render (q.builder?.map s.sources) loggers t.resolvers⟩

end Grown

/-- Calls that change what a resolver holds otherwise than by asking it. -/
def Aside.Tends : Aside → Prop
  | newResolver _ | clear _ | listen _ _ _ _ | unlisten _ _ => True
  | _ => False

def Call.Tends : Call → Prop
  | aside a => a.Tends
  | _ => False

theorem Grown.aside {a : Aside} (plain : ¬ a.Tends) : a.act.Ensures Grown := by
  cases a with
  | entity name table? definitions parent? =>
    have number : Session.number.Ensures Grown :=
      .bind .get fun _ => .bind (modify (fun _ => rfl) fun _ => Nat.le_succ _) fun _ => .pure _
    exact .map (.bind number fun _ => .lift _) _
  | table h e => exact .map (onResolvers (.resolveTable h e)) _
  | column h e field => exact .map (onResolvers (.resolveColumn h e field)) _
  | sharedDialect name => exact .map (onPool _) _
  | freshDialect name => exact .map (onPool _) _
  | clearDialects => exact .map (onPool _) _
  | newResolver | clear | listen | unlisten => exact absurd trivial plain

theorem Grown.call {c : Call} (plain : ¬ c.Tends) : c.act.Ensures Grown := by
  cases c with
  | aside a => exact aside plain
  | newBuilder options => exact .map (newBuilder options) _
  | start h e =>
    exact .bind (.bind (onBuilder h (Builder.asks_declareStart e)) fun _ => .pure _) showRoot
  | join h e source targetField typeName =>
    exact .bind (.bind (.bind .get fun _ => .pure _) fun _ => .bind
      (onBuilder h (Builder.asks_declareJoin e source targetField typeName)) fun _ => .pure _)
      showRoot
  | roots h => exact .bind .get fun _ => .pure _
  | make h f => exact .bind (.bind .get fun _ => .pure _) fun _ => .bind .get fun _ => .lift _
  | newRoot e h dialect =>
    exact fun _ s => ⟨Nat.le_refl _, .refl s.resolvers _⟩
  | change ref c => exact .map (c.act_eq ref ▸ changeRoot ref c.apply) _
  | ask ref q => exact question ref q
  | newQuery builder? => exact fun _ s => ⟨Nat.le_refl _, .refl s.resolvers _⟩
  | bind h builder => exact act_bind h builder ▸ .map (changeQuery h _) _
  | set h c => exact act_set h c ▸ .map (changeQuery h c.apply) _
  | render h => exact .map (render h) _

/-! What holds of every session that is reached. -/

/-- No two listeners of a resolver have one key, and no listener has a key still to be given. -/
structure Keyed (s : Session) : Prop where
  distinct : ∀ h, ((s.resolvers.get h).listeners.map Listener.key).Nodup
  issued : ∀ h, ∀ l ∈ (s.resolvers.get h).listeners, l.key < s.issued

/-- A call either adds a listener under the next key, or it adds none. -/
theorem listeners_nextWith (loggers : Loggers) (s : Session) (c : Call) :
    s.issued ≤ (s.nextWith loggers c).issued ∧
    ((∃ h label once reaction, c = .aside (.listen h label once reaction) ∧
        s.nextWith loggers c = { s with
          resolvers := s.resolvers.set h
            ((s.resolvers.get h).listen ⟨s.issued, label, once, reaction⟩)
          issued := s.issued + 1 }) ∨
      ∀ h, ((s.nextWith loggers c).resolvers.get h).listeners.Sublist
        (s.resolvers.get h).listeners) := by
  have changed {h : Handle .resolver} {r : Resolver}
      (sub : r.listeners.Sublist (s.resolvers.get h).listeners) (k : Handle .resolver) :
      ((s.resolvers.set h r).get k).listeners.Sublist (s.resolvers.get k).listeners := by
    by_cases same : k = h
    · subst same
      rwa [Store.get_set_self]
    · rw [Store.get_set_of_ne _ same]
  by_cases tends : c.Tends
  · cases c with
    | aside a =>
      cases a with
      | newResolver logs =>
        have next : s.nextWith loggers (.aside (.newResolver logs)) =
            { s with resolvers := (s.resolvers.add (.fresh logs)).2 } := rfl
        rw [next]
        exact ⟨Nat.le_refl _, .inr (changed (List.nil_sublist _))⟩
      | clear h =>
        have next : s.nextWith loggers (.aside (.clear h)) =
            { s with resolvers := s.resolvers.set h (s.resolvers.get h).clear } := rfl
        rw [next]
        exact ⟨Nat.le_refl _, .inr (changed (List.Sublist.refl _))⟩
      | unlisten h key =>
        have next : s.nextWith loggers (.aside (.unlisten h key)) =
            { s with resolvers := s.resolvers.set h ((s.resolvers.get h).unlisten key) } := rfl
        rw [next]
        exact ⟨Nat.le_refl _, .inr (changed List.filter_sublist)⟩
      | listen h label once reaction =>
        exact ⟨Nat.le_succ _, .inl ⟨h, label, once, reaction, rfl, rfl⟩⟩
      | _ => exact tends.elim
    | _ => exact tends.elim
  · have grown := Grown.call tends loggers s
    exact ⟨grown.issued, .inr fun h => (grown.resolvers.grows h).listeners⟩

theorem Keyed.nextWith {s : Session} (keyed : s.Keyed) (loggers : Loggers) (c : Call) :
    (s.nextWith loggers c).Keyed := by
  obtain ⟨issued, ⟨h, label, once, reaction, -, next⟩ | sub⟩ := listeners_nextWith loggers s c
  · rw [next]
    have unused : s.issued ∉ (s.resolvers.get h).listeners.map Listener.key := by
      intro mem
      obtain ⟨l, there, same⟩ := List.mem_map.1 mem
      exact absurd (keyed.issued h l there) (same ▸ Nat.lt_irrefl _)
    refine ⟨fun k => ?_, fun k l there => ?_⟩
    · by_cases same : k = h
      · subst same
        simpa [Resolver.listen, List.nodup_append, keyed.distinct k] using
          fun l there same => unused (List.mem_map.2 ⟨l, there, same⟩)
      · simpa [Store.get_set_of_ne _ same] using keyed.distinct k
    · by_cases same : k = h
      · subst same
        simp only [Store.get_set_self, Resolver.listen, List.mem_append,
          List.mem_singleton] at there
        rcases there with there | rfl
        · exact Nat.lt_succ_of_lt (keyed.issued k l there)
        · exact Nat.lt_succ_self _
      · rw [Store.get_set_of_ne _ same] at there
        exact Nat.lt_succ_of_lt (keyed.issued k l there)
  · exact ⟨fun h => ((sub h).map _).nodup (keyed.distinct h), fun h l there =>
      Nat.lt_of_lt_of_le (keyed.issued h l ((sub h).subset there)) issued⟩

/-- Whatever loggers throw, resolvers remember only names that entities give. -/
theorem coherent_nextWith {s : Session} (coherent : s.resolvers.Coherent) (loggers : Loggers)
    (c : Call) : (s.nextWith loggers c).resolvers.Coherent := by
  have changed {h : Handle .resolver} {r : Resolver} (here : r.Coherent) :
      Resolvers.Coherent (s.resolvers.set h r) := fun k => by
    by_cases same : k = h
    · subst same
      rwa [Store.get_set_self]
    · rw [Store.get_set_of_ne _ same]
      exact coherent k
  by_cases tends : c.Tends
  · cases c with
    | aside a =>
      cases a with
      | newResolver logs => exact changed (Resolver.coherent_fresh logs)
      | clear h => exact changed (Resolver.Coherent.clear (s.resolvers.get h))
      | unlisten h key => exact changed ((coherent h).congr rfl rfl)
      | listen h label once reaction => exact changed ((coherent h).congr rfl rfl)
      | _ => exact tends.elim
    | _ => exact tends.elim
  · exact fun h => (Grown.call tends loggers s).resolvers.coherent h (coherent h)

/-- No listener refuses names. -/
def Quiet (s : Session) : Prop := ∀ message, ¬ s.resolvers.Refuses message

/-- All calls but those that add a listener who refuses names. -/
def Call.Quiet : Call → Prop
  | aside (.listen _ _ _ (.refuse _)) => False
  | _ => True

theorem Quiet.nextWith {s : Session} (quiet : s.Quiet) (loggers : Loggers) {c : Call}
    (harmless : c.Quiet) : (s.nextWith loggers c).Quiet := by
  rintro message ⟨k, l, there, refuses⟩
  obtain ⟨-, ⟨h, label, once, reaction, rfl, next⟩ | sub⟩ := listeners_nextWith loggers s c
  · rw [next] at there
    by_cases same : k = h
    · subst same
      simp only [Store.get_set_self, Resolver.listen, List.mem_append, List.mem_singleton] at there
      rcases there with there | rfl
      · exact quiet message ⟨k, l, there, refuses⟩
      · dsimp only at refuses
        subst refuses
        exact harmless
    · rw [Store.get_set_of_ne _ same] at there
      exact quiet message ⟨k, l, there, refuses⟩
  · exact quiet message ⟨k, l, (sub k).subset there, refuses⟩

theorem Quiet.next {s : Session} (quiet : s.Quiet) {c : Call} (harmless : c.Quiet) :
    (s.next c).Quiet := quiet.nextWith .sink harmless

theorem Sound.next {s : Session} (sound : s.Sound) (c : Call) : (s.next c).Sound :=
  (refines_act sound c).sound

/-- What every call keeps holds of every session that is reached. -/
theorem afterWith_induction {P : Session → Prop} {loggers : Loggers} {s : Session} (start : P s)
    (step : ∀ s c, P s → P (s.nextWith loggers c)) (calls : List Call) :
    P (s.afterWith loggers calls) := by
  induction calls generalizing s with
  | nil => exact start
  | cons c calls ih => exact ih (step s c start)

theorem after_induction {P : Session → Prop} {s : Session} (start : P s)
    (step : ∀ s c, P s → P (s.next c)) (calls : List Call) : P (s.after calls) :=
  @afterWith_induction P .sink s start step calls

theorem Quiet.after {s : Session} (quiet : s.Quiet) {calls : List Call}
    (harmless : ∀ c ∈ calls, c.Quiet) : (s.after calls).Quiet := by
  induction calls generalizing s with
  | nil => exact quiet
  | cons c calls ih =>
    obtain ⟨first, rest⟩ := List.forall_mem_cons.1 harmless
    exact ih (quiet.next first) rest

theorem resolver_initial (h : Handle .resolver) :
    initial.resolvers.get h = Resolver.fresh false := by
  unfold initial Store.add Store.set Store.empty
  dsimp only
  split <;> rfl

theorem sound_initial : initial.Sound :=
  ⟨fun h => resolver_initial h ▸ Resolver.coherent_fresh false, fun _ _ shared => nomatch shared⟩

theorem keyed_initial : initial.Keyed := by
  constructor <;> simp [resolver_initial, Resolver.fresh]

theorem quiet_initial : initial.Quiet := by
  rintro message ⟨h, l, there, -⟩
  simp [resolver_initial, Resolver.fresh] at there

theorem Sound.after {s : Session} (sound : s.Sound) (calls : List Call) : (s.after calls).Sound :=
  after_induction sound (fun _ c sound => sound.next c) calls

theorem sound_after (calls : List Call) : (initial.after calls).Sound := sound_initial.after calls

theorem coherent_afterWith (loggers : Loggers) (calls : List Call) :
    (initial.afterWith loggers calls).resolvers.Coherent :=
  @afterWith_induction (·.resolvers.Coherent) loggers _ sound_initial.names
    (fun _ c names => coherent_nextWith names loggers c) calls

theorem keyed_afterWith (loggers : Loggers) (calls : List Call) :
    (initial.afterWith loggers calls).Keyed :=
  afterWith_induction keyed_initial (fun _ c keyed => keyed.nextWith loggers c) calls

theorem quiet_after {calls : List Call} (harmless : ∀ c ∈ calls, c.Quiet) :
    (initial.after calls).Quiet := quiet_initial.after harmless

/-! Answers depend on the bare session only. -/

/-- A call that succeeds does what it means, and one that fails leaves the bare session alone. -/
theorem next_cases {s : Session} (sound : s.Sound) (c : Call) :
    (∃ a, s.answer c = .ok a ∧ c.meaning s.bare = .ok (a, (s.next c).bare)) ∨
      ∃ e, s.answer c = .error e ∧ (s.next c).bare = s.bare := by
  have follows := (refines_act sound c).follows
  generalize meant : c.meaning s.bare = x at follows
  cases follows with
  | done result left => exact .inl ⟨_, result, by rw [← left]; rfl⟩
  | failed result left => exact .inr ⟨_, result, left⟩
  | refused _ result left => exact .inr ⟨_, result, left⟩

section Quiet

variable {s : Session} {c : Call} (sound : s.Sound) (quiet : s.Quiet)

include sound quiet

theorem next_ok {a : Answer} {t : Session} (meant : c.meaning s.bare = .ok (a, t)) :
    s.answer c = .ok a ∧ (s.next c).bare = t := by
  have follows := (refines_act sound c).follows
  rw [meant] at follows
  cases follows with
  | done result left => exact ⟨result, left⟩
  | refused refuses => exact absurd refuses (quiet _)

theorem next_error {e : QueryError} (meant : c.meaning s.bare = .error e) :
    s.answer c = .error e ∧ (s.next c).bare = s.bare := by
  have follows := (refines_act sound c).follows
  rw [meant] at follows
  cases follows with
  | failed result left => exact ⟨result, left⟩
  | refused refuses => exact absurd refuses (quiet _)

end Quiet

/-- Without refusals, sessions that agree but for their resolvers give the same answer and agree
again behind it. -/
theorem agree_next {s t : Session} (soundS : s.Sound) (soundT : t.Sound) (quietS : s.Quiet)
    (quietT : t.Quiet) (agree : s.bare = t.bare) (c : Call) :
    s.answer c = t.answer c ∧ (s.next c).bare = (t.next c).bare := by
  cases meant : c.meaning s.bare with
  | error e =>
    obtain ⟨failed, left⟩ := next_error soundS quietS meant
    obtain ⟨failed', left'⟩ := next_error soundT quietT (agree ▸ meant)
    exact ⟨failed.trans failed'.symm, left.trans (agree.trans left'.symm)⟩
  | ok next =>
    obtain ⟨given, left⟩ := next_ok soundS quietS meant
    obtain ⟨given', left'⟩ := next_ok soundT quietT (agree ▸ meant)
    exact ⟨given.trans given'.symm, left.trans left'.symm⟩

theorem agree_answers {s t : Session} (soundS : s.Sound) (soundT : t.Sound) (quietS : s.Quiet)
    (quietT : t.Quiet) (agree : s.bare = t.bare) {calls : List Call}
    (harmless : ∀ c ∈ calls, c.Quiet) : s.answers calls = t.answers calls := by
  induction calls generalizing s t with
  | nil => rfl
  | cons c calls ih =>
    obtain ⟨first, rest⟩ := List.forall_mem_cons.1 harmless
    obtain ⟨same, left⟩ := agree_next soundS soundT quietS quietT agree c
    rw [answers, answers, same, ih (soundS.next c) (soundT.next c) (quietS.next first)
      (quietT.next first) left rest]

end SqlSelect.Session
