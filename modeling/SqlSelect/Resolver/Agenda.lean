import SqlSelect.Resolver.Basic

/-! How a new name is announced. A listener can resolve a table in its turn, so the announcements
form an agenda of tasks: one that needs a new name puts the calls that announce it before the
tasks still waiting. Each new name shortens the list of tables that a listener could still ask
for, and so every agenda comes to its end. -/
namespace SqlSelect.Resolver

/-- A step that is still to be done for an announcement. -/
inductive Task where
  | call (listener : Listener) (event : ResolveEvent)
  /-- The listener has its table and notes it. -/
  | report (notice : Notice)

def Task.target? : Task → Option Entity
  | call listener _ => listener.target?
  | report _ => none

def Task.weight : Task → Nat
  | call _ _ => 2
  | report _ => 1

def Task.totalWeight : List Task → Nat
  | [] => 0
  | t :: tasks => t.weight + totalWeight tasks

/-- The calls that announce an event: one for each listener there is at that moment. -/
def calls (r : Resolver) (event : ResolveEvent) : List Task := r.listeners.map (.call · event)

def logged (r : Resolver) (event : LogEvent) : List Entry :=
  if r.logs then [.log event] else []

/-- What listeners could ask for: the tables of the waiting calls and of the listeners to come. -/
def targets (r : Resolver) (tasks : List Task) : List Entity :=
  tasks.filterMap Task.target? ++ r.listeners.filterMap Listener.target?

/-- The tables that could still be asked for and are not known, each of them once. -/
def pending (r : Resolver) (tasks : List Task) : List Entity :=
  ((r.targets tasks).filter fun e => !r.known e).eraseDups

private theorem nodup_eraseDups (n : Nat) (l : List Entity) (h : l.length ≤ n) :
    l.eraseDups.Nodup := by
  induction n generalizing l with
  | zero => simp_all
  | succ n ih =>
    cases l with
    | nil => simp
    | cons a l =>
      rw [List.eraseDups_cons, List.nodup_cons]
      refine ⟨by simp [List.mem_eraseDups], ih _ ?_⟩
      have := List.length_filter_le (fun b => !b == a) l
      simp only [List.length_cons] at h
      omega

theorem mem_pending {r : Resolver} {tasks : List Task} {e : Entity} :
    e ∈ r.pending tasks ↔ e ∈ r.targets tasks ∧ r.known e = false := by
  simp [pending, List.mem_eraseDups]

theorem nodup_pending (r : Resolver) (tasks : List Task) : (r.pending tasks).Nodup :=
  nodup_eraseDups _ _ (Nat.le_refl _)

theorem pending_length_le {r s : Resolver} {tasks more : List Task}
    (h : r.pending tasks ⊆ s.pending more) :
    (r.pending tasks).length ≤ (s.pending more).length :=
  (r.nodup_pending tasks).length_le_of_subset h

theorem pending_length_lt {r s : Resolver} {tasks more : List Task} {e : Entity}
    (h : r.pending tasks ⊆ s.pending more) (mem : e ∈ s.pending more)
    (notMem : e ∉ r.pending tasks) : (r.pending tasks).length < (s.pending more).length := by
  have := (List.nodup_cons.2 ⟨notMem, r.nodup_pending tasks⟩).length_le_of_subset
    (List.cons_subset.2 ⟨mem, h⟩)
  simpa [Nat.succ_le_iff] using this

theorem mem_targets_cons {r : Resolver} {t : Task} {tasks : List Task} {e : Entity} :
    e ∈ r.targets (t :: tasks) ↔ t.target? = some e ∨ e ∈ r.targets tasks := by
  cases h : t.target? <;> simp [targets, h, eq_comm]

theorem targets_release_subset (r : Resolver) (l : Listener) (tasks : List Task) :
    (r.release l).targets tasks ⊆ r.targets tasks := by
  intro e he
  simp only [targets, List.mem_append, List.mem_filterMap] at he ⊢
  rcases he with he | ⟨k, hk, hke⟩
  · exact .inl he
  · exact .inr ⟨k, r.listeners_release_subset l hk, hke⟩

theorem pending_release_subset (r : Resolver) (l : Listener) (t : Task) (tasks : List Task) :
    (r.release l).pending tasks ⊆ r.pending (t :: tasks) := by
  intro e he
  rw [mem_pending] at he ⊢
  exact ⟨mem_targets_cons.2 (.inr (r.targets_release_subset l tasks he.1)), by simpa using he.2⟩

theorem pending_release_le (r : Resolver) (l : Listener) (t : Task) (tasks : List Task) :
    ((r.release l).pending tasks).length ≤ (r.pending (t :: tasks)).length :=
  pending_length_le (r.pending_release_subset l t tasks)

theorem targets_calls (r : Resolver) (event : ResolveEvent) (tasks : List Task) :
    r.targets (r.calls event ++ tasks) ⊆ r.targets tasks := by
  intro e he
  simp only [targets, calls, List.filterMap_append, List.mem_append, List.filterMap_map] at he
  simp only [targets, List.mem_append]
  rcases he with (he | he) | he
  · exact .inr he
  · exact .inl he
  · exact .inr he

theorem mem_pending_call {r : Resolver} {l : Listener} {event : ResolveEvent} {rest : List Task}
    {e : Entity} (reaction : l.reaction = .resolveTable e)
    (new : (r.release l).tables.lookup e = none) : e ∈ r.pending (.call l event :: rest) := by
  have unknown : r.known e = false := by
    rw [← known_release r l]
    simp [known, new]
  have target : (Task.call l event).target? = some e := by
    simp [Task.target?, Listener.target?, reaction]
  exact mem_pending.2 ⟨mem_targets_cons.2 (.inl target), unknown⟩

theorem not_mem_pending_learnTable (r : Resolver) (e : Entity) (name : String)
    (tasks : List Task) : e ∉ (r.learnTable e name).pending tasks := by
  rw [mem_pending, known_learnTable]
  simp

/-- Announcing a table that a listener asks for gives rise to no new questions. -/
theorem pending_learnTable_subset (r : Resolver) (l : Listener) (event : ResolveEvent)
    (rest : List Task) (e : Entity) (name : String) (announced : ResolveEvent) (notice : Notice) :
    ((r.release l).learnTable e name).pending
      (((r.release l).learnTable e name).calls announced ++ .report notice :: rest) ⊆
      r.pending (.call l event :: rest) := by
  intro f hf
  rw [mem_pending, known_learnTable, known_release] at hf
  simp only [Bool.or_eq_false_iff] at hf
  have asked := targets_calls _ _ _ hf.1
  rw [mem_targets_cons] at asked
  rcases asked with reported | asked
  · simp [Task.target?] at reported
  · refine mem_pending.2 ⟨mem_targets_cons.2 (.inr ?_), hf.2.1⟩
    exact r.targets_release_subset l rest asked

/-- A listener that needs a new name shortens the list of the tables still to be asked for. -/
theorem pending_learnTable_lt (r : Resolver) {l : Listener} {event : ResolveEvent}
    {rest : List Task} {e : Entity} (name : String) (announced : ResolveEvent) (notice : Notice)
    (reaction : l.reaction = .resolveTable e) (new : (r.release l).tables.lookup e = none) :
    (((r.release l).learnTable e name).pending
      (((r.release l).learnTable e name).calls announced ++ .report notice :: rest)).length <
      (r.pending (.call l event :: rest)).length :=
  pending_length_lt (r.pending_learnTable_subset l event rest e name announced notice)
    (mem_pending_call reaction new) ((r.release l).not_mem_pending_learnTable e name _)

/-- What is done after a line is logged, which a logger that throws prevents. -/
def logThen (loggers : Loggers) (r : Resolver) (event : LogEvent)
    (rest : Unit → Outcome Resolver Unit) : Outcome Resolver Unit :=
  match loggers.refusal? r.logs event with
  | some message => ⟨r, r.logged event, .error (.refused message)⟩
  | none => (rest ()).after (r.logged event)

@[simp] theorem logThen_sink (r : Resolver) (event : LogEvent)
    (rest : Unit → Outcome Resolver Unit) :
    r.logThen .sink event rest = (rest ()).after (r.logged event) := rfl

theorem logThen_cases (loggers : Loggers) (r : Resolver) (event : LogEvent)
    (rest : Unit → Outcome Resolver Unit) :
    (∃ message, r.logThen loggers event rest =
      ⟨r, r.logged event, .error (.refused message)⟩) ∨
    r.logThen loggers event rest = (rest ()).after (r.logged event) := by
  unfold logThen
  split
  · next message _ => exact .inl ⟨message, rfl⟩
  · exact .inr rfl

/-- Where a logger throws, the resolver is left as it is. -/
theorem state_logThen {P : Resolver → Prop} {loggers : Loggers} {r : Resolver} {event : LogEvent}
    {rest : Unit → Outcome Resolver Unit} (here : P r) (later : P (rest ()).state) :
    P (r.logThen loggers event rest).state := by
  obtain ⟨message, thrown⟩ | taken := logThen_cases loggers r event rest
  · exact thrown ▸ here
  · exact taken ▸ later

/-- Works off an agenda. A listener or a logger that throws ends all of it; what was learnt
stays. -/
def deliver (loggers : Loggers) (r : Resolver) : List Task → Outcome Resolver Unit
  | [] => ⟨r, [], .ok ()⟩
  | .report notice :: rest => (deliver loggers r rest).after [.notice notice]
  | .call l event :: rest =>
    match _ : l.reaction with
    | .observe => (deliver loggers (r.release l) rest).after [.notice ⟨l.label, event, none⟩]
    | .refuse message => ⟨r.release l, [], .error (.refused message)⟩
    | .resolveTable e =>
      match _ : (r.release l).tables.lookup e with
      | some name =>
        deliver loggers (r.release l).hit (.report ⟨l.label, event, some name⟩ :: rest)
      | none =>
        let name := e.tableName
        let learnt := (r.release l).learnTable e name
        learnt.logThen loggers (.tableResolved e.name name) fun _ =>
          deliver loggers learnt (learnt.calls (.table e.name name) ++
            .report ⟨l.label, event, some name⟩ :: rest)
termination_by tasks => ((r.pending tasks).length, Task.totalWeight tasks)
decreasing_by
  · refine Prod.Lex.right' _ ?_ ?_
    · exact pending_length_le fun e he => by
        rw [mem_pending] at he ⊢
        exact ⟨mem_targets_cons.2 (.inr he.1), he.2⟩
    · simp [Task.totalWeight, Task.weight]
  · refine Prod.Lex.right' _ (pending_release_le r l _ rest) ?_
    simp [Task.totalWeight, Task.weight]
  · refine Prod.Lex.right' _ ?_ ?_
    · refine Nat.le_trans (Nat.le_of_eq ?_) (pending_release_le r l (.call l event) rest)
      rfl
    · simp [Task.totalWeight, Task.weight]
  · exact Prod.Lex.left _ _ (pending_learnTable_lt r _ _ _ ‹_› ‹_›)

section Calls

variable {loggers : Loggers} {r : Resolver} {l : Listener} {event : ResolveEvent}
  {rest : List Task}

theorem deliver_observe (reaction : l.reaction = .observe) :
    r.deliver loggers (.call l event :: rest) =
      ((r.release l).deliver loggers rest).after [.notice ⟨l.label, event, none⟩] := by
  conv => lhs; rw [deliver]
  split
  · rfl
  all_goals simp_all

theorem deliver_refuse {message : String} (reaction : l.reaction = .refuse message) :
    r.deliver loggers (.call l event :: rest) = ⟨r.release l, [], .error (.refused message)⟩ := by
  conv => lhs; rw [deliver]
  split <;> simp_all

theorem deliver_known {e : Entity} {name : String} (reaction : l.reaction = .resolveTable e)
    (known : (r.release l).tables.lookup e = some name) :
    r.deliver loggers (.call l event :: rest) =
      (r.release l).hit.deliver loggers (.report ⟨l.label, event, some name⟩ :: rest) := by
  conv => lhs; rw [deliver]
  split
  case h_3 other =>
    obtain rfl := Reaction.resolveTable.inj (other.symm.trans reaction)
    split <;> simp_all
  all_goals simp_all

theorem deliver_new {e : Entity} (reaction : l.reaction = .resolveTable e)
    (new : (r.release l).tables.lookup e = none) :
    r.deliver loggers (.call l event :: rest) =
      (let learnt := (r.release l).learnTable e e.tableName
      learnt.logThen loggers (.tableResolved e.name e.tableName) fun _ =>
        learnt.deliver loggers (learnt.calls (.table e.name e.tableName) ++
          .report ⟨l.label, event, some e.tableName⟩ :: rest)) := by
  conv => lhs; rw [deliver]
  split
  case h_3 other =>
    obtain rfl := Reaction.resolveTable.inj (other.symm.trans reaction)
    split
    · next other => simp [new] at other
    · rfl
  all_goals simp_all

end Calls

end SqlSelect.Resolver
