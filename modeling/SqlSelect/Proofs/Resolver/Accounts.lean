import Mathlib.Data.Finset.Card
import Mathlib.Data.Finset.Dedup
import SqlSelect.Proofs.Resolver.Growth
import SqlSelect.Proofs.Resolver.Runs

/-!
The accounts of a resolver. A traced run does what a run does and notes every look-up, also those
that listeners make, and every announcement. Between two clearings the counters of the resolver, the
names it remembers, its log lines and the trace stay in step, also when a listener ends an
announcement and all the look-ups around it.
-/
namespace SqlSelect

/-- The event of a log line. -/
def Entry.event? : Entry → Option LogEvent
  | log event => some event
  | notice _ => none

namespace Resolver

/-- What a name is remembered under. -/
inductive Key where
  | table (e : Entity)
  | column (e : Entity) (field : String)
deriving DecidableEq

/-- The log line for a new name. -/
def Key.line (name : String) : Key → LogEvent
  | table e => .tableResolved e.name name
  | column e field => .columnResolved e.name field name

def keys (r : Resolver) : List Key :=
  r.tables.map (fun entry => .table entry.1) ++
    r.columns.map fun entry => .column entry.1.1 entry.1.2

/-- What can be noted of a run. -/
inductive Step where
  /-- A name is looked up, and there is one. -/
  | asked (key : Key)
  /-- The listeners are told of a new name. -/
  | announced (key : Key) (name : String)

namespace Step

def asked? : Step → Option Key
  | asked key => some key
  | announced _ _ => none

def announced? : Step → Option Key
  | asked _ => none
  | announced key _ => some key

end Step

/-- An outcome, and the steps on the way to it. -/
structure Traced (α : Type) where
  outcome : Outcome Resolver α
  steps : List Step

namespace Traced

variable {α β : Type}

def map (f : α → β) (t : Traced α) : Traced β := ⟨t.outcome.map f, t.steps⟩

def after (steps : List Step) (entries : List Entry) (t : Traced α) : Traced α :=
  ⟨t.outcome.after entries, steps ++ t.steps⟩

end Traced

/-- Works off an agenda and notes the look-ups of the listeners and the announcements. -/
def traceDelivery (r : Resolver) : List Task → Traced Unit
  | [] => ⟨⟨r, [], .ok ()⟩, []⟩
  | .report notice :: rest => (traceDelivery r rest).after [] [.notice notice]
  | .call l event :: rest =>
    match _ : l.reaction with
    | .observe => (traceDelivery (r.release l) rest).after [] [.notice ⟨l.label, event, none⟩]
    | .refuse message => ⟨⟨r.release l, [], .error (.refused message)⟩, []⟩
    | .resolveTable e =>
      match _ : (r.release l).tables.lookup e with
      | some name =>
        (traceDelivery (r.release l).hit (.report ⟨l.label, event, some name⟩ :: rest)).after
          [.asked (.table e)] []
      | none =>
        let name := e.tableName
        let learnt := (r.release l).learnTable e name
        (traceDelivery learnt (learnt.calls (.table e.name name) ++
          .report ⟨l.label, event, some name⟩ :: rest)).after
          [.asked (.table e), .announced (.table e) name]
          (learnt.logged (.tableResolved e.name name))
termination_by tasks => ((r.pending tasks).length, Task.totalWeight tasks)
decreasing_by
  · refine Prod.Lex.right' _ ?_ ?_
    · exact pending_length_le fun e he => by
        rw [mem_pending] at he ⊢
        exact ⟨mem_targets_cons.2 (.inr he.1), he.2⟩
    · simp [Task.totalWeight, Task.weight]
  · refine Prod.Lex.right' _ (pending_release_le r l _ rest) ?_
    simp [Task.totalWeight, Task.weight]
  · refine Prod.Lex.right' _ ?_ ?_
    · refine Nat.le_trans (Nat.le_of_eq ?_) (pending_release_le r l (.call l event) rest)
      rfl
    · simp [Task.totalWeight, Task.weight]
  · exact Prod.Lex.left _ _ (pending_learnTable_lt r _ _ _ ‹_› ‹_›)

theorem outcome_traceDelivery (r : Resolver) (tasks : List Task) :
    (r.traceDelivery tasks).outcome = r.deliver .sink tasks := by
  fun_induction traceDelivery r tasks with
  | case1 r => simp [deliver]
  | case2 r notice rest ih => rw [deliver, ← ih, Traced.after]
  | case3 r l event rest reaction ih => rw [deliver_observe reaction, ← ih, Traced.after]
  | case4 r l event rest message reaction => rw [deliver_refuse reaction]
  | case5 r l event rest e reaction name known ih =>
    rw [deliver_known reaction known, ← ih]
    rfl
  | case6 r l event rest e reaction new name learnt ih =>
    rw [deliver_new reaction new]
    exact congrArg (Outcome.after _) ih

/-- A new name is learnt, logged and announced. -/
def traceLearning (learnt : Resolver) (key : Key) (name : String) (event : ResolveEvent) :
    Traced String :=
  ((learnt.traceDelivery (learnt.calls event)).map fun _ => name).after
    [.asked key, .announced key name] (learnt.logged (key.line name))

def traceTable (e : Entity) (r : Resolver) : Traced String :=
  match r.tables.lookup e with
  | some name => ⟨⟨r.hit, [], .ok name⟩, [.asked (.table e)]⟩
  | none =>
    traceLearning (r.learnTable e e.tableName) (.table e) e.tableName (.table e.name e.tableName)

/-- A field that is missing is no step. -/
def traceColumn (e : Entity) (field : String) (r : Resolver) : Traced String :=
  match r.columns.lookup (e, field) with
  | some name => ⟨⟨r.hit, [], .ok name⟩, [.asked (.column e field)]⟩
  | none =>
    match e.columnName? field with
    | none => ⟨⟨r, [], .error (.fieldMissing e.name field)⟩, []⟩
    | some name =>
      traceLearning (r.learnColumn e field name) (.column e field) name (.column e.name field name)

theorem outcome_traceLearning (learnt : Resolver) (key : Key) (name : String)
    (event : ResolveEvent) : (learnt.traceLearning key name event).outcome =
      (learnt.announce .sink (key.line name) event).map fun _ => name := by
  simp only [traceLearning, Traced.after, Traced.map, outcome_traceDelivery, announce]
  rfl

theorem outcome_traceTable (e : Entity) (r : Resolver) :
    (traceTable e r).outcome = (resolveTable e).run r := by
  obtain ⟨name, found, run⟩ | ⟨found, run⟩ := resolveTable_cases e r
  · rw [traceTable, found, run]
  · rw [traceTable, found, run]
    exact outcome_traceLearning _ _ _ _

theorem outcome_traceColumn (e : Entity) (field : String) (r : Resolver) :
    (traceColumn e field r).outcome = (resolveColumn e field).run r := by
  obtain ⟨name, found, run⟩ | ⟨found, named, run⟩ | ⟨name, found, named, run⟩ :=
    resolveColumn_cases e field r
  · rw [traceColumn, found, run]
  · simp only [traceColumn, found, named, run]
  · simp only [traceColumn, found, named, run]
    exact outcome_traceLearning _ _ _ _

/-- A call of a run with its steps; only look-ups have any. -/
def Call.trace (r : Resolver) (c : Call) : Traced Answer :=
  match c with
  | table e => (traceTable e r).map .name
  | column e field => (traceColumn e field r).map .name
  | _ => ⟨c.act.run r, []⟩

theorem Call.outcome_trace (r : Resolver) (c : Call) : (c.trace r).outcome = c.act.run r := by
  cases c with
  | table e => simp [trace, Traced.map, outcome_traceTable, act]
  | column e field => simp [trace, Traced.map, outcome_traceColumn, act]
  | statistics | clear | listen l | unlisten key => rfl

/-- What has been noted, and written to the journal, since the names were last cleared. -/
structure Period where
  steps : List Step
  journal : List Entry

namespace Period

def start : Period := ⟨[], []⟩

def note (p : Period) (steps : List Step) (entries : List Entry) : Period :=
  ⟨p.steps ++ steps, p.journal ++ entries⟩

/-- The keys of the look-ups that had a name to find. -/
def asked (p : Period) : List Key := p.steps.filterMap Step.asked?

def announced (p : Period) : List Key := p.steps.filterMap Step.announced?

/-- The events of the log lines. -/
def lines (p : Period) : List LogEvent := p.journal.filterMap Entry.event?

def through {α : Type} (p : Period) (t : Traced α) : Period := p.note t.steps t.outcome.journal

def next (p : Period) (r : Resolver) (c : Call) : Period :=
  match c with
  | .clear => start
  | c => p.through (c.trace r)

variable (p : Period) (steps : List Step) (entries : List Entry)

theorem through_after {α : Type} (t : Traced α) :
    p.through (t.after steps entries) = (p.note steps entries).through t := by
  simp [through, note, Traced.after]

@[simp] theorem note_nil : p.note [] [] = p := by simp [note]

@[simp] theorem asked_note :
    (p.note steps entries).asked = p.asked ++ steps.filterMap Step.asked? :=
  List.filterMap_append

@[simp] theorem announced_note :
    (p.note steps entries).announced = p.announced ++ steps.filterMap Step.announced? :=
  List.filterMap_append

@[simp] theorem lines_note :
    (p.note steps entries).lines = p.lines ++ entries.filterMap Entry.event? :=
  List.filterMap_append

end Period

/-- The period that a run ends in. -/
def period (r : Resolver) (p : Period) : List Call → Period
  | [] => p
  | c :: calls => period (c.act.run r).state (p.next r c) calls

/-- The accounts of a period are those of the resolver at its end. -/
structure Balanced (r : Resolver) (p : Period) : Prop where
  nodup : r.keys.Nodup
  announced : p.announced.Perm r.keys
  asked : ∀ key, key ∈ p.asked ↔ key ∈ r.keys
  misses : r.misses = r.keys.length
  calls : r.hits + r.misses = p.asked.length
  lines : p.lines.length = if r.logs then p.announced.length else 0

theorem mem_keys_table {r : Resolver} {e : Entity} :
    .table e ∈ r.keys ↔ (r.tables.lookup e).isSome = true := by
  rw [Option.isSome_iff_ne_none, Ne, List.lookup_eq_none_iff]
  simp [keys]

theorem mem_keys_column {r : Resolver} {e : Entity} {field : String} :
    .column e field ∈ r.keys ↔ (r.columns.lookup (e, field)).isSome = true := by
  rw [Option.isSome_iff_ne_none, Ne, List.lookup_eq_none_iff]
  simp [keys]

theorem keys_learnTable (r : Resolver) (e : Entity) (name : String) :
    (r.learnTable e name).keys.Perm (r.keys ++ [.table e]) := by
  simp only [keys, learnTable, List.map_append, List.append_assoc]
  exact (List.perm_append_comm).append_left _

theorem keys_learnColumn (r : Resolver) (e : Entity) (field name : String) :
    (r.learnColumn e field name).keys = r.keys ++ [.column e field] := by
  simp [keys, learnColumn]

namespace Balanced

variable {r s : Resolver} {p : Period}

/-- Changes that leave names, counts and the logger alone. -/
theorem congr (h : r.Balanced p) (tables : s.tables = r.tables) (columns : s.columns = r.columns)
    (hits : s.hits = r.hits) (misses : s.misses = r.misses) (logs : s.logs = r.logs) :
    s.Balanced p := by
  have same : s.keys = r.keys := by rw [keys, keys, tables, columns]
  exact ⟨same ▸ h.nodup, same ▸ h.announced, same ▸ h.asked, by rw [misses, same, h.misses],
    by rw [hits, misses, h.calls], logs ▸ h.lines⟩

theorem release (h : r.Balanced p) (l : Listener) : (r.release l).Balanced p := by
  unfold Resolver.release
  split <;> exact h.congr rfl rfl rfl rfl rfl

section Steps

attribute [local simp] List.filterMap_cons Step.asked? Step.announced? Entry.event?

theorem notice (h : r.Balanced p) (notice : Notice) : r.Balanced (p.note [] [.notice notice]) where
  nodup := h.nodup
  announced := by simpa using h.announced
  asked := by simpa using h.asked
  misses := h.misses
  calls := by simpa using h.calls
  lines := by simpa using h.lines

theorem hit (h : r.Balanced p) {key : Key} (known : key ∈ r.keys) :
    r.hit.Balanced (p.note [.asked key] []) := by
  have keys : r.hit.keys = r.keys := rfl
  have logs : r.hit.logs = r.logs := rfl
  have hits : r.hit.hits = r.hits + 1 := rfl
  have misses : r.hit.misses = r.misses := rfl
  refine ⟨h.nodup, ?_, fun other => ?_, h.misses, ?_, ?_⟩
  · simpa [keys] using h.announced
  · have again : other = key → other ∈ r.keys := fun same => same ▸ known
    simpa [keys, h.asked] using again
  · have := h.calls
    simp [hits, misses]
    omega
  · simpa [logs] using h.lines

/-- A name is learnt under a key that is new. -/
theorem learn (h : r.Balanced p) {key : Key} (new : key ∉ r.keys)
    (keys : s.keys.Perm (r.keys ++ [key])) (hits : s.hits = r.hits)
    (misses : s.misses = r.misses + 1) (logs : s.logs = r.logs) (name : String) :
    s.Balanced (p.note [.asked key, .announced key name] (s.logged (key.line name))) := by
  refine ⟨?_, ?_, fun other => ?_, ?_, ?_, ?_⟩
  · rw [keys.nodup_iff, List.nodup_append_comm]
    exact List.nodup_cons.2 ⟨new, h.nodup⟩
  · simpa using (h.announced.append_right [key]).trans keys.symm
  · simp [keys.mem_iff, h.asked]
  · simp [keys.length_eq, misses, h.misses]
  · have := h.calls
    simp [hits, misses]
    omega
  · have := h.lines
    cases logging : r.logs <;> simp_all [Resolver.logged]

end Steps

/-- The induction is on the agenda: a task either leaves the accounts alone, or ends everything with
the accounts as they are, or looks a table up that is known, or one that is new. -/
theorem traceDelivery (h : r.Balanced p) (tasks : List Task) :
    (r.traceDelivery tasks).outcome.state.Balanced (p.through (r.traceDelivery tasks)) := by
  fun_induction Resolver.traceDelivery r tasks generalizing p with
  | case1 r =>
    rw [Period.through, Period.note_nil]
    exact h
  | case2 r notice rest ih =>
    rw [Period.through_after]
    exact ih (h.notice notice)
  | case3 r l event rest reaction ih =>
    rw [Period.through_after]
    exact ih ((h.release l).notice _)
  | case4 r l event rest message reaction =>
    rw [Period.through, Period.note_nil]
    exact h.release l
  | case5 r l event rest e reaction name known ih =>
    have there : .table e ∈ (r.release l).keys := by rw [mem_keys_table, known]; rfl
    rw [Period.through_after]
    exact ih ((h.release l).hit there)
  | case6 r l event rest e reaction new name learnt =>
    rename_i ih
    have there : .table e ∉ (r.release l).keys := by rw [mem_keys_table, new]; simp
    rw [Period.through_after]
    exact ih ((h.release l).learn there (keys_learnTable _ e name) rfl rfl rfl name)

theorem traceLearning {learnt : Resolver} {key : Key} {name : String}
    (h : learnt.Balanced (p.note [.asked key, .announced key name] (learnt.logged (key.line name))))
    (event : ResolveEvent) :
    (learnt.traceLearning key name event).outcome.state.Balanced
      (p.through (learnt.traceLearning key name event)) := by
  rw [Resolver.traceLearning, Period.through_after]
  exact h.traceDelivery (learnt.calls event)

theorem traceTable (h : r.Balanced p) (e : Entity) :
    (traceTable e r).outcome.state.Balanced (p.through (Resolver.traceTable e r)) := by
  unfold Resolver.traceTable
  cases found : r.tables.lookup e with
  | some name =>
    have known : .table e ∈ r.keys := by rw [mem_keys_table, found]; rfl
    exact h.hit known
  | none =>
    have new : .table e ∉ r.keys := by rw [mem_keys_table, found]; simp
    exact (h.learn new (keys_learnTable r e _) rfl rfl rfl _).traceLearning _

theorem traceColumn (h : r.Balanced p) (e : Entity) (field : String) :
    (traceColumn e field r).outcome.state.Balanced
      (p.through (Resolver.traceColumn e field r)) := by
  unfold Resolver.traceColumn
  cases found : r.columns.lookup (e, field) with
  | some name =>
    have known : .column e field ∈ r.keys := by rw [mem_keys_column, found]; rfl
    exact h.hit known
  | none =>
    dsimp only
    cases named : e.columnName? field with
    | none =>
      rw [Period.through, Period.note_nil]
      exact h
    | some name =>
      have new : .column e field ∉ r.keys := by rw [mem_keys_column, found]; simp
      have keys := List.Perm.of_eq (keys_learnColumn r e field name)
      exact (h.learn new keys rfl rfl rfl _).traceLearning _

theorem start (h : r.keys = []) (hits : r.hits = 0) (misses : r.misses = 0) :
    r.Balanced Period.start := by
  constructor <;> simp [h, hits, misses, Period.start, Period.asked, Period.announced, Period.lines]

theorem fresh (logs : Bool) : (Resolver.fresh logs).Balanced Period.start := start rfl rfl rfl

theorem next (h : r.Balanced p) (c : Call) : (c.act.run r).state.Balanced (p.next r c) := by
  have silent {α : Type} {t : Traced α} (steps : t.steps = [])
      (journal : t.outcome.journal = []) : p.through t = p := by
    rw [Period.through, steps, journal, Period.note_nil]
  rw [← c.outcome_trace]
  cases c with
  | table e => exact h.traceTable e
  | column e field => exact h.traceColumn e field
  | clear => exact start rfl rfl rfl
  | statistics =>
    change Resolver.Balanced _ (p.through _)
    rw [silent rfl rfl]
    exact h
  | listen l =>
    change Resolver.Balanced _ (p.through _)
    rw [silent rfl rfl]
    exact h.congr rfl rfl rfl rfl rfl
  | unlisten key =>
    change Resolver.Balanced _ (p.through _)
    rw [silent rfl rfl]
    exact h.congr rfl rfl rfl rfl rfl

theorem after (h : r.Balanced p) (calls : List Call) :
    (r.after calls).Balanced (r.period p calls) := by
  induction calls generalizing r p with
  | nil => exact h
  | cons c calls ih => exact ih (h.next c)

end Balanced

theorem logs_after (r : Resolver) (calls : List Call) : (r.after calls).logs = r.logs := by
  have step (r : Resolver) (c : Call) : (c.act.run r).state.logs = r.logs := by
    cases c with
    | table e =>
      rw [Call.act, Action.run_map]
      exact (Grows.resolveTable .sink e r).logs
    | column e field =>
      rw [Call.act, Action.run_map]
      exact (Grows.resolveColumn .sink e field r).logs
    | statistics | clear | listen l | unlisten key => rfl
  induction calls generalizing r with
  | nil => rfl
  | cons c calls ih => exact (ih _).trans (step r c)

/-- The error of a look-up for a field that nobody declares. -/
def FieldMissing {α : Type} (result : Except QueryError α) : Prop :=
  ∃ entity field, result = .error (.fieldMissing entity field)

theorem not_fieldMissing_of_ends {α : Type} {among : Listener → Prop} {good : α → Prop}
    {result : Except QueryError α} (h : Ends among good result) : ¬ FieldMissing result := by
  rintro ⟨entity, field, missing⟩
  rw [missing] at h
  cases h

/-- A look-up for a field is no step exactly if the field is missing, and then it changes
nothing. -/
theorem steps_column_eq_nil_iff (e : Entity) (field : String) (r : Resolver) :
    let o := (resolveColumn e field).run r
    (((Call.column e field).trace r).steps = [] ↔ FieldMissing o.result) ∧
      (FieldMissing o.result → o.state = r) := by
  dsimp only
  have steps : ((Call.column e field).trace r).steps = (traceColumn e field r).steps := rfl
  rw [steps]
  obtain ⟨name, found, run⟩ | ⟨found, named, run⟩ | ⟨name, found, named, run⟩ :=
    resolveColumn_cases e field r
  · rw [run, traceColumn, found]
    simp [FieldMissing]
  · rw [run, traceColumn, found]
    simp [FieldMissing, named]
  · let told := (r.learnColumn e field name).announce .sink (.columnResolved e.name field name)
      (.column e.name field name)
    have ends : Ends (· ∈ (r.learnColumn e field name).listeners) (fun _ => True)
        (told.result.map fun _ => name) := (ends_announce _ _ _).map fun _ => trivial
    have there : ¬ FieldMissing ((resolveColumn e field).run r).result := by
      rw [run]
      exact not_fieldMissing_of_ends ends
    simp [there, traceColumn, found, named, traceLearning, Traced.after]

/-- The accounts of a resolver, whichever way its run went: misses are the names it remembers, the
different keys asked for, and the announcements, of which no key has two; a logger has one line for
each of them. Hits and misses are the look-ups, listeners' included, that had a name to find. A call
goes as its trace does, and a look-up for a missing field changes nothing and is not counted. -/
theorem counters_follow_trace (logs : Bool) (calls : List Call) :
    let r := (fresh logs).after calls
    let p := (fresh logs).period Period.start calls
    let s := r.statistics
    s.misses = s.tables + s.columns ∧ s.misses = p.asked.toFinset.card ∧
    s.misses = p.announced.length ∧ p.announced.Nodup ∧
    p.lines.length = (if logs then s.misses else 0) ∧
    s.hits + s.misses = p.asked.length ∧
    (∀ c : Call, (c.trace r).outcome = c.act.run r) ∧
    ∀ e field, let o := (resolveColumn e field).run r
      (((Call.column e field).trace r).steps = [] ↔ FieldMissing o.result) ∧
        (FieldMissing o.result → o.state = r) := by
  intro r p s
  have h : r.Balanced p := (Balanced.fresh logs).after calls
  have logging : r.logs = logs := logs_after _ calls
  have misses : s.misses = p.announced.length := h.misses.trans h.announced.length_eq.symm
  refine ⟨?_, ?_, misses, h.announced.nodup_iff.2 h.nodup, ?_, h.calls,
    Call.outcome_trace r, fun e field => steps_column_eq_nil_iff e field r⟩
  · simp [s, statistics, h.misses, keys]
  · have same : p.asked.toFinset = r.keys.toFinset := by
      ext key
      simp [h.asked]
    rw [same, List.toFinset_card_of_nodup h.nodup]
    exact h.misses
  · rw [h.lines, logging, misses]

end Resolver

end SqlSelect
