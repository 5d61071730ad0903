import SqlSelect.Proofs.Resolver.Accounts

/-!
Look-ups one step at a time. A listener that asks for a new table has it announced while the
announcement that it was called for is still under way, and so on; no single step shows an end of
this. There is one: what is announced has been remembered before, so nothing is announced twice, and
listeners bring about announcements only of the tables that they ask for.
-/
namespace SqlSelect.Resolver

theorem Task.totalWeight_append (tasks more : List Task) :
    totalWeight (tasks ++ more) = totalWeight tasks + totalWeight more := by
  induction tasks with
  | nil => simp [totalWeight]
  | cons t tasks ih => rw [List.cons_append, totalWeight, totalWeight, ih, Nat.add_assoc]

theorem totalWeight_calls (r : Resolver) (event : ResolveEvent) :
    Task.totalWeight (r.calls event) = 2 * r.listeners.length := by
  unfold calls
  induction r.listeners with
  | nil => rfl
  | cons l listeners ih =>
    rw [List.map_cons, Task.totalWeight, ih, List.length_cons]
    simp only [Task.weight]
    omega

theorem length_listeners_release_le (r : Resolver) (l : Listener) :
    (r.release l).listeners.length ≤ r.listeners.length := by
  unfold release
  split
  · exact List.length_filter_le _ _
  · exact Nat.le_refl _

namespace Key

/-- The name that is remembered under the key. -/
def found? (r : Resolver) : Key → Option String
  | table e => r.tables.lookup e
  | column e field => r.columns.lookup (e, field)

/-- The name that the entity itself gives. -/
def named : Key → Except QueryError String
  | table e => .ok e.tableName
  | column e field =>
    match e.columnName? field with
    | some name => .ok name
    | none => .error (.fieldMissing e.name field)

def event (name : String) : Key → ResolveEvent
  | table e => .table e.name name
  | column e field => .column e.name field name

/-- The call that looks the key up. -/
def lookUp : Key → Action Resolver String
  | table e => resolveTable e
  | column e field => resolveColumn e field

end Key

def learn (r : Resolver) (name : String) : Key → Resolver
  | .table e => r.learnTable e name
  | .column e field => r.learnColumn e field name

theorem keys_release (r : Resolver) (l : Listener) : (r.release l).keys = r.keys := by
  unfold release
  split <;> rfl

theorem mem_keys_learn {r : Resolver} {name : String} {key k : Key} :
    k ∈ (r.learn name key).keys ↔ k ∈ r.keys ∨ k = key := by
  cases key with
  | table e => simp [learn, (keys_learnTable r e name).mem_iff]
  | column e field => simp [learn, keys_learnColumn]

theorem Key.found?_eq_none {r : Resolver} {key : Key} : key.found? r = none ↔ key ∉ r.keys := by
  cases key with
  | table e =>
    rw [mem_keys_table, found?, Bool.not_eq_true, Option.isSome_eq_false_iff,
      Option.isNone_iff_eq_none]
  | column e field =>
    rw [mem_keys_column, found?, Bool.not_eq_true, Option.isSome_eq_false_iff,
      Option.isNone_iff_eq_none]

/-- The ways in which a look-up can go, for tables and columns alike. -/
theorem Key.run_lookUp (key : Key) (r : Resolver) : key.lookUp.run r =
    match key.found? r with
    | some name => ⟨r.hit, [], .ok name⟩
    | none =>
      match key.named with
      | .error e => ⟨r, [], .error e⟩
      | .ok name =>
        ((r.learn name key).announce .sink (key.line name) (key.event name)).map fun _ => name := by
  cases key with
  | table e =>
    obtain ⟨name, found, run⟩ | ⟨found, run⟩ := resolveTable_cases e r
    · simp only [lookUp, found?, found, run]
    · simp only [lookUp, found?, found, run, named]
      rfl
  | column e field =>
    obtain ⟨name, found, run⟩ | ⟨found, given, run⟩ | ⟨name, found, given, run⟩ :=
      resolveColumn_cases e field r
    · simp only [lookUp, found?, found, run]
    · simp only [lookUp, found?, found, run, named, given]
    · simp only [lookUp, found?, found, run, named, given]
      rfl

theorem Key.fieldMissing_of_named {key : Key} {e : QueryError} (h : key.named = .error e) :
    ∃ entity field, e = .fieldMissing entity field := by
  cases key with
  | table entity => cases h
  | column entity field =>
    cases given : entity.columnName? field with
    | some name => simp [named, given] at h
    | none => exact ⟨entity.name, field, by simpa [named, given] using h.symm⟩

/-- A look-up returns a name, or leaves through a listener that refuses it, or lacks its field. -/
theorem Key.ends_lookUp (key : Key) (r : Resolver) :
    Ends (· ∈ r.listeners) (fun _ => True) (key.lookUp.run r).result ∨
      FieldMissing (key.lookUp.run r).result := by
  rw [key.run_lookUp]
  split
  · exact .inl (.returned trivial)
  · split
    · next e missing =>
      obtain ⟨entity, field, rfl⟩ := fieldMissing_of_named missing
      exact .inr ⟨entity, field, rfl⟩
    · next name named =>
      have same : (r.learn name key).listeners = r.listeners := by cases key <;> rfl
      refine .inl ?_
      rw [← same]
      exact (ends_announce _ _ _).map fun _ => trivial

/-- An announcement under way, with what is still to be done for it. -/
structure Announcement where
  key : Key
  tasks : List Task

/-- A look-up that has found nothing remembered. An announcement that a listener brought about lies
above the one that the listener was called for. -/
structure Progress where
  key : Key
  name : String
  resolver : Resolver
  journal : List Entry
  stack : List Announcement
  /-- The tables that were announced because listeners asked for them. -/
  nested : List Entity

inductive Stage where
  | running (p : Progress)
  | ended (o : Outcome Resolver String)

namespace Progress

/-- A new name is remembered and logged; then the calls of the listeners there are lie ahead. -/
def announce (p : Progress) (key : Key) (name : String) : Progress :=
  let learnt := p.resolver.learn name key
  { p with
    resolver := learnt
    journal := p.journal ++ learnt.logged (key.line name)
    stack := ⟨key, learnt.calls (key.event name)⟩ :: p.stack }

/-- Does the next task of the announcement on top, or goes back to the one below. -/
def advance (p : Progress) : Stage :=
  match p.stack with
  | [] => .ended ⟨p.resolver, p.journal, .ok p.name⟩
  | ⟨_, []⟩ :: below => .running { p with stack := below }
  | ⟨key, .report notice :: rest⟩ :: below =>
    .running { p with
      journal := p.journal ++ [.notice notice]
      stack := ⟨key, rest⟩ :: below }
  | ⟨key, .call l event :: rest⟩ :: below =>
    let r := p.resolver.release l
    match l.reaction with
    | .observe =>
      .running { p with
        resolver := r
        journal := p.journal ++ [.notice ⟨l.label, event, none⟩]
        stack := ⟨key, rest⟩ :: below }
    | .refuse message => .ended ⟨r, p.journal, .error (.refused message)⟩
    | .resolveTable e =>
      match r.tables.lookup e with
      | some name =>
        .running { p with
          resolver := r.hit
          stack := ⟨key, .report ⟨l.label, event, some name⟩ :: rest⟩ :: below }
      | none =>
        let asking := { p with
          resolver := r
          stack := ⟨key, .report ⟨l.label, event, some e.tableName⟩ :: rest⟩ :: below
          nested := p.nested ++ [e] }
        .running (asking.announce (.table e) e.tableName)

end Progress

/-- What a look-up does before any listener is called. -/
def Key.start (key : Key) (r : Resolver) : Stage :=
  match key.found? r with
  | some name => .ended ⟨r.hit, [], .ok name⟩
  | none =>
    match key.named with
    | .error e => .ended ⟨r, [], .error e⟩
    | .ok name => .running (Progress.announce ⟨key, name, r, [], [], []⟩ key name)

namespace Stage

def next : Stage → Stage
  | running p => p.advance
  | ended o => ended o

def after (stage : Stage) (steps : Nat) : Stage := next^[steps] stage

theorem after_succ (stage : Stage) (steps : Nat) :
    stage.after (steps + 1) = stage.next.after steps := rfl

@[simp] theorem after_ended (o : Outcome Resolver String) (steps : Nat) :
    (ended o).after steps = ended o := by
  induction steps with
  | zero => rfl
  | succ steps ih => rw [after_succ]; exact ih

end Stage

namespace Progress

variable {p q : Progress}

/-- All that lies ahead. -/
def tasks (p : Progress) : List Task := p.stack.flatMap Announcement.tasks

/-- The tables that can still be announced. -/
def pending (p : Progress) : List Entity := p.resolver.pending p.tasks

/-- How the look-up will end. -/
def outcome (p : Progress) : Outcome Resolver String :=
  ((p.resolver.deliver .sink p.tasks).after p.journal).map fun _ => p.name

/-- What is left to do for the announcements under way. -/
def work (p : Progress) : Nat := Task.totalWeight p.tasks + p.stack.length

/-- More steps than this do not follow: an announcement still to come has two for each listener and
one for going back. -/
def potential (p : Progress) : Nat :=
  p.work + p.pending.length * (2 * p.resolver.listeners.length + 1)

/-- The steps that do not end a look-up. -/
inductive Takes (p : Progress) : Progress → Prop
  | back {key : Key} {below : List Announcement} (top : p.stack = ⟨key, []⟩ :: below) :
      Takes p { p with stack := below }
  | report {key : Key} {notice : Notice} {rest : List Task} {below : List Announcement}
      (top : p.stack = ⟨key, .report notice :: rest⟩ :: below) :
      Takes p { p with
        journal := p.journal ++ [.notice notice]
        stack := ⟨key, rest⟩ :: below }
  | observe {key : Key} {l : Listener} {event : ResolveEvent} {rest : List Task}
      {below : List Announcement} (top : p.stack = ⟨key, .call l event :: rest⟩ :: below)
      (reaction : l.reaction = .observe) :
      Takes p { p with
        resolver := p.resolver.release l
        journal := p.journal ++ [.notice ⟨l.label, event, none⟩]
        stack := ⟨key, rest⟩ :: below }
  | known {key : Key} {l : Listener} {event : ResolveEvent} {rest : List Task}
      {below : List Announcement} {e : Entity} {name : String}
      (top : p.stack = ⟨key, .call l event :: rest⟩ :: below)
      (reaction : l.reaction = .resolveTable e)
      (found : (p.resolver.release l).tables.lookup e = some name) :
      Takes p { p with
        resolver := (p.resolver.release l).hit
        stack := ⟨key, .report ⟨l.label, event, some name⟩ :: rest⟩ :: below }
  | new {key : Key} {l : Listener} {event : ResolveEvent} {rest : List Task}
      {below : List Announcement} {e : Entity}
      (top : p.stack = ⟨key, .call l event :: rest⟩ :: below)
      (reaction : l.reaction = .resolveTable e)
      (new : (p.resolver.release l).tables.lookup e = none) :
      Takes p (announce { p with
        resolver := p.resolver.release l
        stack := ⟨key, .report ⟨l.label, event, some e.tableName⟩ :: rest⟩ :: below
        nested := p.nested ++ [e] } (.table e) e.tableName)

/-- A step is one of these, or ends the look-up as all that lies ahead would. -/
theorem advance_cases (p : Progress) :
    (∃ q, p.advance = .running q ∧ p.Takes q) ∨ p.advance = .ended p.outcome := by
  unfold advance
  split
  · next top => exact .inr (by simp [outcome, tasks, top, deliver, Outcome.map, Except.map])
  · next key below top => exact .inl ⟨_, rfl, .back top⟩
  · next key notice rest below top => exact .inl ⟨_, rfl, .report top⟩
  · next key l event rest below top =>
    dsimp only
    split
    · next reaction => exact .inl ⟨_, rfl, .observe top reaction⟩
    · next message reaction =>
      refine .inr ?_
      simp [outcome, tasks, top, deliver_refuse reaction, Outcome.map, Except.map]
    · next e reaction =>
      split
      · next name found => exact .inl ⟨_, rfl, .known top reaction found⟩
      · next new => exact .inl ⟨_, rfl, .new top reaction new⟩

namespace Takes

theorem outcome (h : p.Takes q) : q.outcome = p.outcome := by
  cases h with
  | back top => simp [Progress.outcome, tasks, top]
  | report top => simp [Progress.outcome, tasks, top, deliver]
  | observe top reaction => simp [Progress.outcome, tasks, top, deliver_observe reaction]
  | known top reaction found => simp [Progress.outcome, tasks, top, deliver_known reaction found]
  | new top reaction new =>
    simp [Progress.outcome, tasks, top, deliver_new reaction new, announce, learn, Key.event,
      Key.line]

/-- No step gives rise to new questions. -/
theorem pending_subset (h : p.Takes q) : q.pending ⊆ p.pending := by
  cases h with
  | back top => simp [Progress.pending, tasks, top]
  | @report key notice rest below top =>
    intro e he
    simp only [Progress.pending, tasks, top, List.flatMap_cons, List.cons_append, mem_pending,
      mem_targets_cons] at he ⊢
    exact ⟨.inr he.1, he.2⟩
  | observe top reaction =>
    simp only [Progress.pending, tasks, top, List.flatMap_cons, List.cons_append]
    exact pending_release_subset _ _ _ _
  | @known key l event rest below e name top reaction found =>
    simp only [Progress.pending, tasks, top, List.flatMap_cons, List.cons_append]
    exact pending_release_subset p.resolver l (.call l event) _
  | @new key l event rest below e top reaction new =>
    simp only [Progress.pending, tasks, top, List.flatMap_cons, List.cons_append, announce]
    exact pending_learnTable_subset p.resolver l event _ e _ _ _

theorem key (h : p.Takes q) : q.key = p.key := by cases h <;> rfl

theorem listeners_le (h : p.Takes q) :
    q.resolver.listeners.length ≤ p.resolver.listeners.length := by
  cases h with
  | back top => exact Nat.le_refl _
  | report top => exact Nat.le_refl _
  | observe top reaction => exact length_listeners_release_le _ _
  | known top reaction found => exact length_listeners_release_le p.resolver _
  | new top reaction new => exact length_listeners_release_le p.resolver _

/-- There is less to do after a step, or one table less that can still be announced. -/
theorem work_lt (h : p.Takes q) : q.work < p.work ∨ q.pending.length < p.pending.length ∧
    q.work < p.work + (2 * q.resolver.listeners.length + 1) := by
  cases h with
  | back top => exact .inl (by simp [work, tasks, top])
  | report top => exact .inl (by simp [work, tasks, top, Task.totalWeight, Task.weight])
  | observe top reaction => exact .inl (by simp [work, tasks, top, Task.totalWeight, Task.weight])
  | known top reaction found =>
    refine .inl ?_
    simp [work, tasks, top, Task.totalWeight, Task.weight]
  | @new key l event rest below e top reaction new =>
    refine .inr ⟨?_, ?_⟩
    · simp only [Progress.pending, tasks, top, List.flatMap_cons, List.cons_append, announce]
      exact pending_learnTable_lt p.resolver _ _ _ reaction new
    · simp only [work, tasks, top, announce, List.flatMap_cons, Task.totalWeight_append,
        totalWeight_calls, List.length_cons, Task.totalWeight, Task.weight]
      omega

theorem potential_lt (h : p.Takes q) : q.potential < p.potential := by
  have rounds : 2 * q.resolver.listeners.length + 1 ≤ 2 * p.resolver.listeners.length + 1 := by
    have := h.listeners_le
    omega
  rcases h.work_lt with less | ⟨fewer, less⟩
  · exact Nat.add_lt_add_of_lt_of_le less
      (Nat.mul_le_mul (pending_length_le h.pending_subset) rounds)
  · calc q.potential
        < p.work + (2 * q.resolver.listeners.length + 1) +
          q.pending.length * (2 * q.resolver.listeners.length + 1) :=
            Nat.add_lt_add_right less _
      _ = p.work + (q.pending.length + 1) * (2 * q.resolver.listeners.length + 1) := by
            rw [Nat.add_mul q.pending.length, Nat.one_mul]
            omega
      _ ≤ p.potential := Nat.add_le_add_left (Nat.mul_le_mul fewer rounds) _

end Takes

/-- A look-up ends as all that lies ahead of it does, and soon. -/
theorem after_eq_ended {steps : Nat} (enough : p.potential < steps) :
    (Stage.running p).after steps = .ended p.outcome := by
  induction steps generalizing p with
  | zero => omega
  | succ steps ih =>
    rw [Stage.after_succ, Stage.next]
    rcases p.advance_cases with ⟨q, advanced, takes⟩ | ended
    · have := takes.potential_lt
      rw [advanced, ih (by omega), takes.outcome]
    · rw [ended, Stage.after_ended]

/-- The keys that have been announced, each before those that listeners brought about. -/
def announced (p : Progress) : List Key := p.key :: p.nested.map Key.table

/-- What holds of every look-up under way, if the resolver was `r` when it began. -/
structure Orderly (r : Resolver) (p : Progress) : Prop where
  /-- Nothing is announced twice. -/
  nodup : p.announced.Nodup
  /-- What is announced was not known, and is remembered by then. -/
  remembered : ∀ key ∈ p.announced, key ∉ r.keys ∧ key ∈ p.resolver.keys
  grown : r.keys ⊆ p.resolver.keys
  asked : p.nested ⊆ r.pending []
  ahead : p.pending ⊆ r.pending []
  stack : p.stack.map Announcement.key ⊆ p.announced
  distinct : (p.stack.map Announcement.key).Nodup

namespace Orderly

variable {r : Resolver}

/-- Steps that announce nothing. -/
theorem congr (h : p.Orderly r) (takes : p.Takes q) (nested : q.nested = p.nested)
    (keys : q.resolver.keys = p.resolver.keys)
    (stack : (q.stack.map Announcement.key).Sublist (p.stack.map Announcement.key)) :
    q.Orderly r := by
  have announced : q.announced = p.announced := by
    rw [Progress.announced, takes.key, nested]
    rfl
  refine ⟨announced ▸ h.nodup, ?_, keys ▸ h.grown, nested ▸ h.asked,
    List.Subset.trans takes.pending_subset h.ahead, ?_, h.distinct.sublist stack⟩
  · rw [announced, keys]
    exact h.remembered
  · rw [announced]
    exact List.Subset.trans stack.subset h.stack

theorem next (h : p.Orderly r) (takes : p.Takes q) : q.Orderly r := by
  cases takes with
  | back top =>
    refine h.congr (.back top) rfl rfl ?_
    rw [top]
    exact List.sublist_cons_self _ _
  | report top =>
    refine h.congr (.report top) rfl rfl ?_
    rw [top]
    exact List.Sublist.refl _
  | observe top reaction =>
    refine h.congr (.observe top reaction) rfl (keys_release _ _) ?_
    rw [top]
    exact List.Sublist.refl _
  | known top reaction found =>
    refine h.congr (.known top reaction found) rfl (keys_release _ _) ?_
    rw [top]
    exact List.Sublist.refl _
  | @new key l event rest below e top reaction new =>
    have ahead := (Takes.new top reaction new).pending_subset
    have asked : e ∈ p.pending := by
      rw [Progress.pending, tasks, top]
      exact mem_pending_call reaction new
    have unknown : .table e ∉ p.resolver.keys := by
      rw [← keys_release p.resolver l, mem_keys_table, new]
      simp
    have keys {k : Key} : k ∈ ((p.resolver.release l).learn e.tableName (.table e)).keys ↔
        k ∈ p.resolver.keys ∨ k = .table e := by
      rw [mem_keys_learn, keys_release]
    have unannounced : .table e ∉ p.announced := fun mem => unknown (h.remembered _ mem).2
    have stack : .table e :: key :: below.map Announcement.key =
        .table e :: p.stack.map Announcement.key := by rw [top]; rfl
    have announced : p.key :: (p.nested ++ [e]).map Key.table = p.announced ++ [.table e] := by
      rw [List.map_append]
      rfl
    refine ⟨?_, ?_, fun k mem => keys.2 (.inl (h.grown mem)), ?_,
      List.Subset.trans ahead h.ahead, ?_, ?_⟩
    · show (p.key :: (p.nested ++ [e]).map Key.table).Nodup
      rw [announced, List.nodup_append_comm]
      exact List.nodup_cons.2 ⟨unannounced, h.nodup⟩
    · show ∀ k ∈ p.key :: (p.nested ++ [e]).map Key.table, _
      rw [announced]
      intro k mem
      rcases List.mem_append.1 mem with mem | mem
      · exact (h.remembered k mem).imp_right fun known => keys.2 (.inl known)
      · obtain rfl := List.mem_singleton.1 mem
        exact ⟨fun known => unknown (h.grown known), keys.2 (.inr rfl)⟩
    · exact List.append_subset.2 ⟨h.asked, List.cons_subset.2 ⟨h.ahead asked, List.nil_subset _⟩⟩
    · show .table e :: key :: below.map Announcement.key ⊆
        p.key :: (p.nested ++ [e]).map Key.table
      rw [announced, stack]
      refine List.cons_subset.2 ⟨by simp, List.Subset.trans h.stack (List.subset_append_left _ _)⟩
    · show (.table e :: key :: below.map Announcement.key).Nodup
      rw [stack]
      exact List.nodup_cons.2 ⟨fun mem => unannounced (h.stack mem), h.distinct⟩

end Orderly

end Progress

/-- What lies ahead of a look-up for a new key, when it begins. -/
theorem pending_start_subset (r : Resolver) (key : Key) (name : String) :
    (Progress.announce ⟨key, name, r, [], [], []⟩ key name).pending ⊆ r.pending [] := by
  intro e mem
  obtain ⟨target, unknown⟩ := mem_pending.1 mem
  have asked := targets_calls _ _ _ target
  cases key with
  | table other =>
    have unknown : (r.learnTable other name).known e = false := unknown
    rw [known_learnTable, Bool.or_eq_false_iff] at unknown
    exact mem_pending.2 ⟨asked, unknown.1⟩
  | column other field => exact mem_pending.2 ⟨asked, unknown⟩

theorem orderly_start {r : Resolver} {key : Key} (new : key ∉ r.keys) (name : String) :
    (Progress.announce ⟨key, name, r, [], [], []⟩ key name).Orderly r where
  nodup := List.nodup_singleton _
  remembered k mem := by
    obtain rfl := List.mem_singleton.1 mem
    exact ⟨new, mem_keys_learn.2 (.inr rfl)⟩
  grown k mem := mem_keys_learn.2 (.inl mem)
  asked := List.nil_subset _
  ahead := r.pending_start_subset key name
  stack := List.Subset.refl _
  distinct := List.nodup_singleton _

theorem potential_start_le (r : Resolver) (key : Key) (name : String) :
    (Progress.announce ⟨key, name, r, [], [], []⟩ key name).potential ≤
      ((r.pending []).length + 1) * (2 * r.listeners.length + 1) := by
  have listeners : (r.learn name key).listeners = r.listeners := by cases key <;> rfl
  have work : (Progress.announce ⟨key, name, r, [], [], []⟩ key name).work =
      2 * r.listeners.length + 1 := by
    simp [Progress.work, Progress.tasks, Progress.announce, totalWeight_calls, listeners]
  have fewer := pending_length_le (r.pending_start_subset key name)
  rw [Progress.potential, work, Nat.add_mul, Nat.one_mul, Nat.add_comm]
  refine Nat.add_le_add_right (Nat.mul_le_mul fewer (Nat.le_of_eq ?_)) _
  exact congrArg (fun listeners => 2 * List.length listeners + 1) listeners

/-- A look-up is over at once, or begins with the announcement of its own key. -/
theorem Key.start_cases (key : Key) (r : Resolver) :
    key.start r = .ended (key.lookUp.run r) ∨ ∃ p, key.start r = .running p ∧ p.key = key ∧
      p.outcome = key.lookUp.run r ∧ p.Orderly r ∧
      p.potential ≤ ((r.pending []).length + 1) * (2 * r.listeners.length + 1) := by
  rw [key.run_lookUp, start]
  split
  · exact .inl rfl
  · next unknown =>
    split
    · exact .inl rfl
    · next name named =>
      refine .inr ⟨_, rfl, rfl, ?_, orderly_start (found?_eq_none.1 unknown) name,
        r.potential_start_le key name⟩
      simp [Progress.outcome, Progress.tasks, Progress.announce, announce]

/-- What holds when a look-up begins and is kept by every step holds on all the way. -/
theorem Stage.after_induction {P : Progress → Prop} {stage : Stage}
    (begins : ∀ p, stage = .running p → P p) (step : ∀ p q, p.Takes q → P p → P q) (steps : Nat)
    {p : Progress} (there : stage.after steps = .running p) : P p := by
  induction steps generalizing stage with
  | zero => exact begins p there
  | succ steps ih =>
    refine ih (fun q advanced => ?_) there
    cases stage with
    | ended o => cases advanced
    | running before =>
      rcases before.advance_cases with ⟨q', stepped, takes⟩ | ended
      · obtain rfl := Stage.running.inj (stepped.symm.trans advanced)
        exact step before q' takes (begins before rfl)
      · cases ended.symm.trans advanced

/-- Wherever a look-up has got to, it is orderly and still the one for its key. -/
theorem orderly_after {r : Resolver} {key : Key} {steps : Nat} {p : Progress}
    (there : (key.start r).after steps = .running p) : p.key = key ∧ p.Orderly r := by
  refine Stage.after_induction (P := fun p => p.key = key ∧ p.Orderly r) (fun p begins => ?_)
    (fun p q takes kept => ⟨takes.key.trans kept.1, kept.2.next takes⟩) steps there
  rcases key.start_cases r with ended | ⟨q, started, same, -, orderly, -⟩
  · cases ended.symm.trans begins
  · obtain rfl := Stage.running.inj (started.symm.trans begins)
    exact ⟨same, orderly⟩

/-- Every look-up ends, whatever the resolver remembers and whatever its listeners ask for: it
returns a name, or leaves through a listener that refuses one, or lacks its field. It takes no more
steps than two for each listener and one for going back, once for its own key and once for each
table that a listener asks for and that is not known. On the way nothing is announced twice, what
is announced has just been remembered and was not known before, and all but the first are such
tables; the announcements that are under way at one time are among them. -/
theorem lookup_comes_to_end (r : Resolver) (key : Key) :
    let asked := r.pending []
    (∃ steps ≤ (asked.length + 1) * (2 * r.listeners.length + 1) + 1,
      (key.start r).after steps = .ended (key.lookUp.run r)) ∧
    (Ends (· ∈ r.listeners) (fun _ => True) (key.lookUp.run r).result ∨
      FieldMissing (key.lookUp.run r).result) ∧
    ∀ steps p, (key.start r).after steps = .running p →
      p.announced.head? = some key ∧ p.announced.Nodup ∧
      (∀ k ∈ p.announced, k ∉ r.keys ∧ k ∈ p.resolver.keys) ∧
      p.nested ⊆ asked ∧ p.nested.length ≤ asked.length ∧
      (p.stack.map Announcement.key) ⊆ p.announced ∧ p.stack.length ≤ p.nested.length + 1 := by
  intro asked
  refine ⟨⟨_, Nat.le_refl _, ?_⟩, key.ends_lookUp r, fun steps p there => ?_⟩
  · rcases key.start_cases r with ended | ⟨p, started, -, outcome, -, potential⟩
    · rw [ended, Stage.after_ended]
    · rw [started, p.after_eq_ended (Nat.lt_succ_of_le potential), outcome]
  · obtain ⟨same, orderly⟩ := orderly_after there
    have nested : p.nested.Nodup := ((List.nodup_cons.1 orderly.nodup).2).of_map _
    have depth := orderly.distinct.length_le_of_subset orderly.stack
    refine ⟨congrArg some same, orderly.nodup, orderly.remembered, orderly.asked,
      nested.length_le_of_subset orderly.asked, orderly.stack, ?_⟩
    simpa [Progress.announced] using depth

/-- Two listeners that ask for each other's table, and one of them for the table looked up. -/
theorem cycle_comes_to_end :
    let user : Entity := .base ⟨1, "User", some "users", []⟩
    let order : Entity := .base ⟨2, "Order", some "orders", []⟩
    let listeners : List Listener :=
      [⟨1, "first", false, .resolveTable user⟩, ⟨2, "second", false, .resolveTable order⟩]
    let r : Resolver := { fresh false with listeners := listeners }
    let key := Key.table user
    ∃ p, (key.start r).after 3 = .running p ∧ p.nested = [order] ∧
      p.stack.map Announcement.key = [.table order, .table user] ∧
      (∀ k ∈ p.announced, k ∉ r.keys ∧ k ∈ p.resolver.keys) ∧
      p.stack.length ≤ p.nested.length + 1 ∧
      ∃ steps ≤ 16, (key.start r).after steps = .ended (key.lookUp.run r) := by
  intro user order listeners r key
  obtain ⟨p, there, nested, stack⟩ : ∃ p, (key.start r).after 3 = .running p ∧
      p.nested = [order] ∧ p.stack.map Announcement.key = [.table order, .table user] :=
    ⟨_, rfl, rfl, rfl⟩
  obtain ⟨⟨steps, few, ended⟩, -, way⟩ := lookup_comes_to_end r key
  obtain ⟨-, -, remembered, -, -, -, depth⟩ := way 3 p there
  exact ⟨p, there, nested, stack, remembered, depth, steps, few, ended⟩

end SqlSelect.Resolver
