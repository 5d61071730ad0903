import SqlSelect.Proofs.Resolver.Coherence

/-!
Runs of a resolver: look-ups, statistics, clearing, and listeners that come and go, in any order
and with any of the look-ups ended by a listener. Whatever such a run has left in the memo, a
look-up follows the naming rules of the entity it is asked for and touches no other entity,
unless a listener asks for that one itself.
-/
namespace SqlSelect.Resolver

inductive Call where
  | table (e : Entity)
  | column (e : Entity) (field : String)
  | statistics
  | clear
  | listen (l : Listener)
  | unlisten (key : Nat)

inductive Answer where
  | name (name : String)
  | statistics (s : Statistics)
  | done

def Call.act : Call → Action Resolver Answer
  | table e => Answer.name <$> resolveTable e
  | column e field => Answer.name <$> resolveColumn e field
  | statistics => (Answer.statistics ·.statistics) <$> Action.get
  | clear => (fun _ => Answer.done) <$> Action.modify Resolver.clear
  | listen l => (fun _ => Answer.done) <$> Action.modify (·.listen l)
  | unlisten key => (fun _ => Answer.done) <$> Action.modify (·.unlisten key)

/-- A call that fails does not end the run; what it has changed stays. -/
def after (r : Resolver) (calls : List Call) : Resolver :=
  calls.foldl (fun r c => (c.act.run r).state) r

/-- Each kind of call keeps the memo coherent. -/
theorem Coherent.act {r : Resolver} (h : r.Coherent) (c : Call) :
    (c.act.run r).state.Coherent := by
  cases c with
  | table e =>
    rw [Call.act, Action.run_map]
    exact h.resolveTable .sink e
  | column e field =>
    rw [Call.act, Action.run_map]
    exact h.resolveColumn .sink e field
  | statistics => simpa [Call.act] using h
  | clear => exact .clear r
  | listen l => exact h.congr rfl rfl
  | unlisten key => exact h.congr rfl rfl

theorem Coherent.after {r : Resolver} (h : r.Coherent) (calls : List Call) :
    (r.after calls).Coherent := by
  induction calls generalizing r with
  | nil => exact h
  | cons c calls ih => exact ih (h.act c)

/-! What an announcement leaves alone, and how it can end. -/

variable (loggers : Loggers)

theorem columns_deliver (r : Resolver) (tasks : List Task) :
    (r.deliver loggers tasks).state.columns = r.columns := by
  have released (r : Resolver) (l : Listener) : (r.release l).columns = r.columns := by
    unfold release
    split <;> rfl
  fun_induction deliver loggers r tasks with
  | case1 r => rfl
  | case2 r notice rest ih => exact ih
  | case3 r l event rest _ ih => exact ih.trans (released r l)
  | case4 r l event rest message _ => exact released r l
  | case5 r l event rest e _ name _ ih => exact ih.trans (released r l)
  | case6 r l event rest e _ _ name learnt ih =>
    exact state_logThen (P := (·.columns = r.columns)) (released r l) (ih.trans (released r l))

theorem columns_announce (r : Resolver) (log : LogEvent) (event : ResolveEvent) :
    (r.announce loggers log event).state.columns = r.columns :=
  state_logThen (P := (·.columns = r.columns)) rfl (columns_deliver loggers r _)

/-- Listeners are only ever released. -/
theorem listeners_deliver_subset (r : Resolver) (tasks : List Task) :
    (r.deliver loggers tasks).state.listeners ⊆ r.listeners := by
  fun_induction deliver loggers r tasks with
  | case1 r => exact List.Subset.refl _
  | case2 r notice rest ih => exact ih
  | case4 r l event rest message _ => exact r.listeners_release_subset l
  | case3 r l event rest _ ih => exact List.Subset.trans ih (r.listeners_release_subset l)
  | case5 r l event rest e _ name _ ih =>
    exact List.Subset.trans ih (r.listeners_release_subset l)
  | case6 r l event rest e =>
    rename_i ih
    exact state_logThen (P := (·.listeners ⊆ r.listeners)) (r.listeners_release_subset l)
      (List.Subset.trans ih (r.listeners_release_subset l))

theorem listeners_announce_subset (r : Resolver) (log : LogEvent) (event : ResolveEvent) :
    (r.announce loggers log event).state.listeners ⊆ r.listeners :=
  state_logThen (P := (·.listeners ⊆ r.listeners)) (List.Subset.refl _)
    (listeners_deliver_subset loggers r _)

theorem listeners_resolveTable_subset (r : Resolver) (e : Entity) :
    ((resolveTable e).runWith loggers r).state.listeners ⊆ r.listeners := by
  obtain ⟨name, -, run⟩ | ⟨-, run⟩ := runWith_resolveTable_cases loggers e r
  · rw [run]
    exact List.Subset.refl _
  · rw [run]
    exact listeners_announce_subset loggers (r.learnTable e e.tableName) _ _

theorem listeners_resolveColumn_subset (r : Resolver) (e : Entity) (field : String) :
    ((resolveColumn e field).runWith loggers r).state.listeners ⊆ r.listeners := by
  obtain ⟨name, -, run⟩ | ⟨-, -, run⟩ | ⟨name, -, -, run⟩ :=
    runWith_resolveColumn_cases loggers e field r
  · rw [run]
    exact List.Subset.refl _
  · rw [run]
    exact List.Subset.refl _
  · rw [run]
    exact listeners_announce_subset loggers (r.learnColumn e field name) _ _

/-- Only the tables that listeners ask for can become known. -/
theorem lookup_deliver (r : Resolver) (tasks : List Task) {other : Entity}
    (h : other ∉ r.targets tasks) :
    (r.deliver loggers tasks).state.tables.lookup other = r.tables.lookup other := by
  have released (r : Resolver) (l : Listener) : (r.release l).tables = r.tables := by
    unfold release
    split <;> rfl
  have rest_of {r : Resolver} {l : Listener} {t : Task} {rest : List Task}
      (h : other ∉ r.targets (t :: rest)) : other ∉ (r.release l).targets rest := by
    intro mem
    exact h (mem_targets_cons.2 (.inr (r.targets_release_subset l rest mem)))
  fun_induction deliver loggers r tasks with
  | case1 r => rfl
  | case2 r notice rest ih => exact ih fun mem => h (mem_targets_cons.2 (.inr mem))
  | case3 r l event rest _ ih => exact (ih (rest_of h)).trans (by rw [released])
  | case4 r l event rest message _ => simp only [released]
  | case5 r l event rest e _ name _ ih =>
    rw [ih]
    · simp only [hit, released]
    · intro mem
      rcases mem_targets_cons.1 mem with asked | mem
      · simp [Task.target?] at asked
      · exact rest_of h mem
  | case6 r l event rest e asked _ name learnt ih =>
    have different : other ≠ e := by
      rintro rfl
      exact h (mem_targets_cons.2 (.inl (by simp [Task.target?, Listener.target?, asked])))
    have learntOther : learnt.tables.lookup other = r.tables.lookup other := by
      have : (other == e) = false := by simpa using different
      simp [learnt, learnTable, List.lookup_append, List.lookup_cons, this, released]
    refine state_logThen (P := (·.tables.lookup other = r.tables.lookup other)) learntOther ?_
    rw [ih]
    · exact learntOther
    · intro mem
      rcases mem_targets_cons.1 (targets_calls _ _ _ mem) with asked | mem
      · simp [Task.target?] at asked
      · exact rest_of h mem

/-- How something ends that listeners can end: with a good result, or refused by one of them. -/
inductive Ends {α : Type} (among : Listener → Prop) (good : α → Prop) :
    Except QueryError α → Prop
  | returned {x : α} (h : good x) : Ends among good (.ok x)
  | refused {l : Listener} {message : String} (h : among l)
      (refuses : l.reaction = .refuse message) : Ends among good (.error (.refused message))

theorem Ends.eq {α : Type} {among : Listener → Prop} {good : α → Prop}
    {result : Except QueryError α} (h : Ends among good result) :
    (∃ x, good x ∧ result = .ok x) ∨ ∃ l, among l ∧ ∃ message, l.reaction = .refuse message ∧
      result = .error (.refused message) := by
  cases h with
  | returned h => exact .inl ⟨_, h, rfl⟩
  | refused h refuses => exact .inr ⟨_, h, _, refuses, rfl⟩

theorem Ends.mono {α : Type} {among more : Listener → Prop} {good : α → Prop}
    {result : Except QueryError α} (h : Ends among good result) (imp : ∀ l, among l → more l) :
    Ends more good result := by
  cases h with
  | returned h => exact .returned h
  | refused h refuses => exact .refused (imp _ h) refuses

theorem Ends.imp {α : Type} {among : Listener → Prop} {good better : α → Prop}
    {result : Except QueryError α} (h : Ends among good result) (imp : ∀ x, good x → better x) :
    Ends among better result := by
  cases h with
  | returned h => exact .returned (imp _ h)
  | refused h refuses => exact .refused h refuses

theorem Ends.map {α β : Type} {among : Listener → Prop} {good : α → Prop} {better : β → Prop}
    {result : Except QueryError α} (h : Ends among good result) {f : α → β}
    (imp : ∀ x, better (f x)) : Ends among better (result.map f) := by
  cases h with
  | returned h => exact .returned (imp _)
  | refused h refuses => exact .refused h refuses

/-- A listener that is still to be called, or that a further announcement would call. -/
def Awaits (r : Resolver) (tasks : List Task) (l : Listener) : Prop :=
  l ∈ r.listeners ∨ ∃ event, .call l event ∈ tasks

theorem ends_deliver (r : Resolver) (tasks : List Task) :
    Ends (r.Awaits tasks) (fun _ => True) (r.deliver .sink tasks).result := by
  have rest_of {r : Resolver} {l k : Listener} {t : Task} (rest : List Task)
      (h : (r.release k).Awaits rest l) : r.Awaits (t :: rest) l := by
    rcases h with there | ⟨event, waiting⟩
    · exact .inl (r.listeners_release_subset k there)
    · exact .inr ⟨event, List.mem_cons_of_mem _ waiting⟩
  fun_induction deliver Loggers.sink r tasks with
  | case1 r => exact .returned trivial
  | case2 r notice rest ih =>
    apply ih.mono
    rintro l (there | ⟨event, waiting⟩)
    · exact .inl there
    · exact .inr ⟨event, List.mem_cons_of_mem _ waiting⟩
  | case3 r l event rest _ ih => exact ih.mono fun _ => rest_of rest
  | case4 r l event rest message refuses =>
    exact .refused (.inr ⟨event, List.mem_cons_self⟩) refuses
  | case5 r l event rest e _ name _ ih =>
    apply ih.mono
    rintro k (there | ⟨announced, waiting⟩)
    · exact rest_of rest (.inl there)
    · exact rest_of (k := l) rest (.inr ⟨announced, by simpa using waiting⟩)
  | case6 r l event rest e _ _ name learnt ih =>
    apply ih.mono
    rintro k (there | ⟨announced, waiting⟩)
    · exact rest_of rest (.inl there)
    · rcases List.mem_append.1 waiting with called | waiting
      · have there : k ∈ learnt.listeners := by
          obtain ⟨j, there, same⟩ := List.mem_map.1 called
          exact (Task.call.inj same).1 ▸ there
        exact rest_of rest (.inl there)
      · exact rest_of (k := l) rest (.inr ⟨announced, by simpa using waiting⟩)

/-- An announcement starts from the listeners there are and ends only through one of them. -/
theorem ends_announce (r : Resolver) (log : LogEvent) (event : ResolveEvent) :
    Ends (· ∈ r.listeners) (fun _ => True) (r.announce .sink log event).result := by
  apply (ends_deliver r (r.calls event)).mono
  rintro l (there | ⟨announced, waiting⟩)
  · exact there
  · obtain ⟨j, there, same⟩ := List.mem_map.1 waiting
    exact (Task.call.inj same).1 ▸ there

/-- An announcement leaves the tables alone that no listener asks for. -/
theorem lookup_announce (r : Resolver) (log : LogEvent) (event : ResolveEvent) {other : Entity}
    (unasked : ∀ l ∈ r.listeners, l.reaction ≠ .resolveTable other) :
    (r.announce loggers log event).state.tables.lookup other = r.tables.lookup other := by
  refine state_logThen (P := (·.tables.lookup other = r.tables.lookup other)) rfl ?_
  apply lookup_deliver loggers r (r.calls event)
  intro mem
  have asked := r.targets_calls event [] (by simpa using mem)
  obtain ⟨l, there, target⟩ := List.mem_filterMap.1 (by simpa [targets] using asked)
  apply unasked l there
  unfold Listener.target? at target
  split at target
  · next reaction => exact Option.some.inj target ▸ reaction
  · simp at target

theorem ends_resolveTable {r : Resolver} (h : r.Coherent) (e : Entity) :
    Ends (· ∈ r.listeners) e.NamesTable ((resolveTable e).run r).result := by
  obtain ⟨name, found, run⟩ | ⟨-, run⟩ := resolveTable_cases e r
  · rw [run]
    exact .returned (h.tables found)
  · rw [run]
    exact (ends_announce (r.learnTable e e.tableName) _ _).map fun _ => Entity.namesTable_iff.2 rfl

theorem ends_resolveColumn {r : Resolver} (h : r.Coherent) {e : Entity} {field : String}
    {f : Field} (defined : e.Defines field f) :
    Ends (· ∈ r.listeners) (e.NamesColumn field) ((resolveColumn e field).run r).result := by
  obtain ⟨name, found, run⟩ | ⟨-, unnamed, -⟩ | ⟨name, -, named, run⟩ :=
    resolveColumn_cases e field r
  · rw [run]
    exact .returned (h.columns found)
  · exact absurd ⟨f, defined⟩ (Entity.columnName?_eq_none_iff.1 unnamed)
  · rw [run]
    exact (ends_announce (r.learnColumn e field name) _ _).map
      fun _ => Entity.namesColumn_iff.2 named

/-- A field that nobody defines is never remembered, and so it is missing at every call. -/
theorem resolveColumn_undefined {r : Resolver} (h : r.Coherent) {e : Entity} {field : String}
    (undefined : ¬ ∃ f, e.Defines field f) :
    (resolveColumn e field).run r = ⟨r, [], .error (.fieldMissing e.name field)⟩ := by
  have unnamed := Entity.columnName?_eq_none_iff.2 undefined
  obtain ⟨name, found, -⟩ | ⟨-, -, run⟩ | ⟨name, -, named, -⟩ := resolveColumn_cases e field r
  · have named := Entity.namesColumn_iff.1 (h.columns found)
    rw [unnamed] at named
    cases named
  · exact run
  · rw [unnamed] at named
    cases named

section Others

variable {r : Resolver} {e other : Entity} (different : other ≠ e)

include different in
theorem columns_resolveColumn (field f : String) :
    ((resolveColumn e field).run r).state.columns.lookup (other, f) =
      r.columns.lookup (other, f) := by
  obtain ⟨name, -, run⟩ | ⟨-, -, run⟩ | ⟨name, -, -, run⟩ := resolveColumn_cases e field r
  · rw [run]
    rfl
  · rw [run]
  · have key : ((other, f) == (e, field)) = false := by simp [different]
    rw [run]
    simp [columns_announce, learnColumn, List.lookup_append, List.lookup_cons, key]

theorem columns_resolveTable (e : Entity) :
    ((resolveTable e).run r).state.columns = r.columns := by
  obtain ⟨name, -, run⟩ | ⟨-, run⟩ := resolveTable_cases e r
  · rw [run]
    rfl
  · rw [run]
    simp [columns_announce, learnTable]

variable (unasked : ∀ l ∈ r.listeners, l.reaction ≠ .resolveTable other)

include different unasked in
theorem tables_resolveTable :
    ((resolveTable e).run r).state.tables.lookup other = r.tables.lookup other := by
  obtain ⟨name, -, run⟩ | ⟨-, run⟩ := resolveTable_cases e r
  · rw [run]
    rfl
  · have key : (other == e) = false := by simpa using different
    rw [run, Outcome.state_map]
    refine (lookup_announce .sink (r.learnTable e e.tableName) _ _ unasked).trans ?_
    simp [learnTable, List.lookup_append, List.lookup_cons, key]

include unasked in
theorem tables_resolveColumn (field : String) :
    ((resolveColumn e field).run r).state.tables.lookup other = r.tables.lookup other := by
  obtain ⟨name, -, run⟩ | ⟨-, -, run⟩ | ⟨name, -, -, run⟩ := resolveColumn_cases e field r
  · rw [run]
    rfl
  · rw [run]
  · rw [run, Outcome.state_map]
    exact lookup_announce .sink (r.learnColumn e field name) _ _ unasked

end Others

/-- After any run a look-up gives the name that the entity itself gives, or is ended by a listener
that refuses; a field is missing exactly when neither the entity nor the one it extends has it.
What is remembered of other entities is theirs, and a look-up leaves it alone but for the tables
that listeners ask for. -/
theorem lookup_follows_naming (logs : Bool) (calls : List Call) (e : Entity) (field : String) :
    let r := (fresh logs).after calls
    let table := (resolveTable e).run r
    let column := (resolveColumn e field).run r
    Ends (· ∈ r.listeners) e.NamesTable table.result ∧
    ((∃ f, e.Defines field f) → Ends (· ∈ r.listeners) (e.NamesColumn field) column.result) ∧
    (column.result = .error (.fieldMissing e.name field) ↔ ¬ ∃ f, e.Defines field f) ∧
    table.state.Coherent ∧ column.state.Coherent ∧
    ∀ other, other ≠ e →
      (table.state.columns = r.columns ∧
        ∀ f, column.state.columns.lookup (other, f) = r.columns.lookup (other, f)) ∧
      ((∀ l ∈ r.listeners, l.reaction ≠ .resolveTable other) →
        table.state.tables.lookup other = r.tables.lookup other ∧
          column.state.tables.lookup other = r.tables.lookup other) := by
  intro r table column
  have h : r.Coherent := (coherent_fresh logs).after calls
  refine ⟨ends_resolveTable h e, fun ⟨f, defined⟩ => ends_resolveColumn h defined, ?_,
    h.resolveTable .sink e, h.resolveColumn .sink e field, fun other different => ?_⟩
  · constructor
    · rintro missing ⟨f, defined⟩
      have ends := ends_resolveColumn h defined
      rw [show ((resolveColumn e field).run r).result = _ from missing] at ends
      nomatch ends
    · intro undefined
      exact congrArg Outcome.result (resolveColumn_undefined h undefined)
  · exact ⟨⟨columns_resolveTable e, columns_resolveColumn different field⟩, fun unasked =>
      ⟨tables_resolveTable different unasked, tables_resolveColumn unasked field⟩⟩

end SqlSelect.Resolver
