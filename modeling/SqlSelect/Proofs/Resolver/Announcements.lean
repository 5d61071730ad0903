import SqlSelect.Proofs.Resolver.Coherence

/-!
Announcements as actions. An agenda is worked off one task after the other, and a listener that asks
for a table makes the look-up that any caller makes. Loggers matter only where they throw: a look-up
that gives a name gives it as with loggers that take every line.
-/
namespace SqlSelect

namespace Outcome

variable {σ α β : Type}

/-- What is done after an outcome, unless it is an error. -/
def followedBy (o : Outcome σ α) (f : α → σ → Outcome σ β) : Outcome σ β :=
  match o.result with
  | .ok x => (f x o.state).after o.journal
  | .error e => ⟨o.state, o.journal, .error e⟩

theorem after_followedBy (entries : List Entry) (o : Outcome σ α) (f : α → σ → Outcome σ β) :
    (o.after entries).followedBy f = (o.followedBy f).after entries := by
  rcases o with ⟨s, journal, e | x⟩
  · rfl
  · simp [followedBy]

theorem map_followedBy {γ : Type} (o : Outcome σ α) (g : α → γ) (f : γ → σ → Outcome σ β) :
    (o.map g).followedBy f = o.followedBy fun x => f (g x) := by
  rcases o with ⟨s, journal, e | x⟩ <;> rfl

end Outcome

namespace Action

variable {σ τ α β : Type}

theorem runWith_bind (loggers : Loggers) (a : Action σ α) (f : α → Action σ β) (s : σ) :
    (a >>= f).runWith loggers s =
      (a.runWith loggers s).followedBy fun x => (f x).runWith loggers := by
  rcases o : a.runWith loggers s with ⟨t, journal, e | x⟩
  · exact runWith_bind_error o
  · exact runWith_bind_ok o

/-- Where the action ends well, it has run as with loggers that take every line. -/
def Patient (a : Action σ α) : Prop :=
  ∀ loggers s x, (a.runWith loggers s).result = .ok x → a.runWith loggers s = a.run s

namespace Patient

theorem pure (x : α) : (Pure.pure x : Action σ α).Patient := fun _ _ _ _ => rfl

theorem lift (x : Except QueryError α) : (liftM x : Action σ α).Patient := fun _ _ _ _ => by
  rw [runWith_lift, run_lift]

theorem bind {a : Action σ α} {f : α → Action σ β} (h : a.Patient) (next : ∀ x, (f x).Patient) :
    (a >>= f).Patient := fun loggers s y ok => by
  rcases o : a.runWith loggers s with ⟨t, journal, e | x⟩
  · rw [runWith_bind_error o] at ok
    cases ok
  · have same : a.run s = ⟨t, journal, .ok x⟩ := (h _ _ x (congrArg Outcome.result o)).symm.trans o
    rw [runWith_bind_ok o] at ok ⊢
    rw [run_bind_ok same, next x _ _ _ ok]

theorem onPart {part : τ → σ} {replace : σ → τ → τ} {a : Action σ α} (h : a.Patient) :
    (a.onPart part replace).Patient := fun loggers t x ok => by
  have same : a loggers (part t) = a .sink (part t) := h loggers (part t) x ok
  unfold Action.run Action.runWith Action.onPart
  rw [same]

end Patient

end Action

namespace Resolver

theorem logThen_followedBy (loggers : Loggers) (r : Resolver) (event : LogEvent)
    (rest : Unit → Outcome Resolver Unit) (f : Unit → Resolver → Outcome Resolver Unit) :
    (r.logThen loggers event rest).followedBy f =
      r.logThen loggers event fun _ => (rest ()).followedBy f := by
  cases thrown : loggers.refusal? r.logs event with
  | some message =>
    simp only [logThen, thrown]
    rfl
  | none =>
    simp only [logThen, thrown]
    exact Outcome.after_followedBy _ _ _

/-- The induction is on the first agenda; what a new name brings about comes before both. -/
theorem deliver_append (loggers : Loggers) (r : Resolver) (first more : List Task) :
    r.deliver loggers (first ++ more) =
      (r.deliver loggers first).followedBy fun _ s => s.deliver loggers more := by
  fun_induction deliver loggers r first with
  | case1 r => rfl
  | case2 r notice rest ih => rw [List.cons_append, deliver, ih, Outcome.after_followedBy]
  | case3 r l event rest reaction ih =>
    rw [List.cons_append, deliver_observe reaction, ih, Outcome.after_followedBy]
  | case4 r l event rest message reaction =>
    rw [List.cons_append, deliver_refuse reaction]
    rfl
  | case5 r l event rest e reaction name known ih =>
    rw [List.cons_append, deliver_known reaction known, ← ih, List.cons_append]
  | case6 r l event rest e reaction new name learnt ih =>
    rw [List.cons_append, deliver_new reaction new, logThen_followedBy, ← ih, List.append_assoc,
      List.cons_append]

/-- Works off an agenda with the loggers there are. -/
def work (tasks : List Task) : Action Resolver Unit := fun loggers r => r.deliver loggers tasks

/-- A listener notes what it has seen. -/
def note (notice : Notice) : Action Resolver Unit := fun _ r => ⟨r, [.notice notice], .ok ()⟩

theorem work_report (notice : Notice) (rest : List Task) :
    work (.report notice :: rest) = (do note notice; work rest) := by
  funext loggers r
  show r.deliver loggers (.report notice :: rest) = _
  rw [deliver]
  rfl

/-- A listener that asks for a table, once it is released where it is to be called once, makes the
look-up of that table, and notes the name if it is given one. -/
theorem work_call {l : Listener} {e : Entity} (reaction : l.reaction = .resolveTable e)
    (event : ResolveEvent) (rest : List Task) :
    work (.call l event :: rest) = (do
      Action.modify (·.release l)
      let name ← resolveTable e
      note ⟨l.label, event, some name⟩
      work rest) := by
  simp only [← work_report]
  funext loggers r
  refine Eq.trans ?_ (Action.runWith_bind_ok (Action.runWith_modify _ _)).symm
  refine Eq.trans ?_ (Action.runWith_bind loggers _ _ (r.release l)).symm
  obtain ⟨name, known, run⟩ | ⟨new, run⟩ := runWith_resolveTable_cases loggers e (r.release l)
  · rw [run]
    exact deliver_known reaction known
  · rw [run]
    refine (deliver_new reaction new).trans ?_
    rw [Outcome.map_followedBy, announce, logThen_followedBy]
    exact congrArg (logThen loggers _ _) (funext fun _ => deliver_append loggers _ _ _)

theorem patient_deliver (loggers : Loggers) (r : Resolver) (tasks : List Task)
    (ok : (r.deliver loggers tasks).result = .ok ()) :
    r.deliver loggers tasks = r.deliver .sink tasks := by
  fun_induction deliver loggers r tasks with
  | case1 r => simp [deliver]
  | case2 r notice rest ih => rw [deliver, ih ok]
  | case3 r l event rest reaction ih => rw [deliver_observe reaction, ih ok]
  | case4 => cases ok
  | case5 r l event rest e reaction name known ih => rw [deliver_known reaction known, ih ok]
  | case6 r l event rest e reaction new name learnt ih =>
    obtain ⟨message, thrown⟩ | taken := logThen_cases loggers learnt (.tableResolved e.name name)
      fun _ => learnt.deliver loggers (learnt.calls (.table e.name name) ++
        .report ⟨l.label, event, some name⟩ :: rest)
    · rw [thrown] at ok
      cases ok
    · rw [taken] at ok ⊢
      rw [deliver_new reaction new, ih ok]
      rfl

theorem patient_announce (r : Resolver) (loggers : Loggers) (log : LogEvent) (event : ResolveEvent)
    (ok : (r.announce loggers log event).result = .ok ()) :
    r.announce loggers log event = r.announce .sink log event := by
  obtain ⟨message, thrown⟩ | taken := logThen_cases loggers r log
    fun _ => r.deliver loggers (r.calls event)
  · have refused : r.announce loggers log event = _ := thrown
    rw [refused] at ok
    cases ok
  · have told : r.announce loggers log event = _ := taken
    rw [told] at ok ⊢
    rw [patient_deliver loggers r _ ok]
    rfl

theorem patient_resolveColumn (e : Entity) (field : String) :
    (resolveColumn e field).Patient := fun loggers r x ok => by
  cases known : r.columns.lookup (e, field) with
  | some name => simp only [Action.run, Action.runWith, resolveColumn, known]
  | none =>
    cases named : e.columnName? field with
    | none => simp only [Action.run, Action.runWith, resolveColumn, known, named]
    | some name =>
      simp only [Action.run, Action.runWith, resolveColumn, known, named] at ok ⊢
      obtain ⟨⟨⟩, told, -⟩ := except_map_eq_ok.1 ok
      rw [patient_announce _ loggers _ _ told]

end Resolver

end SqlSelect
