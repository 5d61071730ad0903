import SqlSelect.Error
import SqlSelect.Journal

/-! Actions on a state. An action can fail, but what it has changed and written to the journal
before that stays. What the loggers make of their lines is up to the caller. -/
namespace SqlSelect

theorem except_map_eq_ok {α β : Type} {x : Except QueryError α} {f : α → β} {y : β} :
    x.map f = .ok y ↔ ∃ a, x = .ok a ∧ f a = y := by
  cases x <;> simp [Except.map]

theorem except_bind_eq_ok {α β : Type} {x : Except QueryError α} {f : α → Except QueryError β}
    {y : β} : x >>= f = .ok y ↔ ∃ a, x = .ok a ∧ f a = .ok y := by
  cases x <;> simp [bind, Except.bind]

structure Outcome (σ α : Type) where
  state : σ
  journal : List Entry
  result : Except QueryError α

namespace Outcome

variable {σ τ α β : Type}

def map (f : α → β) (o : Outcome σ α) : Outcome σ β := ⟨o.state, o.journal, o.result.map f⟩

/-- The same outcome with entries that were written first. -/
def after (entries : List Entry) (o : Outcome σ α) : Outcome σ α :=
  { o with journal := entries ++ o.journal }

@[simp] theorem state_map (f : α → β) (o : Outcome σ α) : (o.map f).state = o.state := rfl

@[simp] theorem journal_map (f : α → β) (o : Outcome σ α) : (o.map f).journal = o.journal := rfl

@[simp] theorem result_map (f : α → β) (o : Outcome σ α) :
    (o.map f).result = o.result.map f := rfl

@[simp] theorem state_after (entries : List Entry) (o : Outcome σ α) :
    (o.after entries).state = o.state := rfl

@[simp] theorem journal_after (entries : List Entry) (o : Outcome σ α) :
    (o.after entries).journal = entries ++ o.journal := rfl

@[simp] theorem result_after (entries : List Entry) (o : Outcome σ α) :
    (o.after entries).result = o.result := rfl

@[simp] theorem after_nil (o : Outcome σ α) : o.after [] = o := rfl

@[simp] theorem after_after (a b : List Entry) (o : Outcome σ α) :
    (o.after b).after a = o.after (a ++ b) := by
  simp [after]

end Outcome

def Action (σ α : Type) := Loggers → σ → Outcome σ α

namespace Action

variable {σ τ α β : Type}

def runWith (loggers : Loggers) (a : Action σ α) (s : σ) : Outcome σ α := a loggers s

/-- The outcome with loggers that take every line. -/
def run (a : Action σ α) (s : σ) : Outcome σ α := a.runWith .sink s

protected def pure (x : α) : Action σ α := fun _ s => ⟨s, [], .ok x⟩

protected def bind (a : Action σ α) (f : α → Action σ β) : Action σ β := fun loggers s =>
  match a loggers s with
  | ⟨s, journal, .ok x⟩ => (f x loggers s).after journal
  | ⟨s, journal, .error e⟩ => ⟨s, journal, .error e⟩

instance : Monad (Action σ) where
  pure := Action.pure
  bind := Action.bind

def fail (e : QueryError) : Action σ α := fun _ s => ⟨s, [], .error e⟩

def ofExcept : Except QueryError α → Action σ α
  | .ok x => Action.pure x
  | .error e => fail e

instance : MonadLift (Except QueryError) (Action σ) := ⟨ofExcept⟩

def get : Action σ σ := fun _ s => ⟨s, [], .ok s⟩

def modify (f : σ → σ) : Action σ Unit := fun _ s => ⟨f s, [], .ok ()⟩

/-- Logs an event if there is a logger. One that throws ends the action; the line was given to it
all the same. -/
def log (logs : Bool) (event : LogEvent) : Action σ Unit := fun loggers s =>
  ⟨s, if logs then [.log event] else [],
    match loggers.refusal? logs event with
    | some message => .error (.refused message)
    | none => .ok ()⟩

/-- An action on a part of the state. -/
def onPart (part : τ → σ) (replace : σ → τ → τ) (a : Action σ α) : Action τ α := fun loggers t =>
  let o := a loggers (part t)
  ⟨replace o.state t, o.journal, o.result⟩

/-- An action on an object that is not part of the state yet; gives what has become of it. -/
def onNew (t : τ) (a : Action τ Unit) : Action σ τ := fun loggers s =>
  let o := a loggers t
  ⟨s, o.journal, o.result.map fun _ => o.state⟩

section RunWith

variable {loggers : Loggers}

@[simp] theorem runWith_pure (x : α) (s : σ) :
    (pure x : Action σ α).runWith loggers s = ⟨s, [], .ok x⟩ := rfl

@[simp] theorem runWith_fail (e : QueryError) (s : σ) :
    (fail e : Action σ α).runWith loggers s = ⟨s, [], .error e⟩ := rfl

@[simp] theorem runWith_get (s : σ) :
    (get : Action σ σ).runWith loggers s = ⟨s, [], .ok s⟩ := rfl

@[simp] theorem runWith_modify (f : σ → σ) (s : σ) :
    (modify f).runWith loggers s = ⟨f s, [], .ok ()⟩ := rfl

@[simp] theorem runWith_lift (x : Except QueryError α) (s : σ) :
    (liftM x : Action σ α).runWith loggers s = ⟨s, [], x⟩ := by
  cases x <;> rfl

/-- Logging fails only where there is a logger that throws. -/
theorem runWith_log_eq_error {logs : Bool} {event : LogEvent} {s : σ} {e : QueryError} :
    ((log logs event : Action σ Unit).runWith loggers s).result = .error e ↔
      logs = true ∧ ∃ message, loggers event = some message ∧ e = .refused message := by
  cases logs <;> cases thrown : loggers event <;>
    simp [runWith, log, Loggers.refusal?, Option.filter, thrown, eq_comm]

theorem runWith_bind_ok {a : Action σ α} {f : α → Action σ β} {s t : σ} {j : List Entry} {x : α}
    (h : a.runWith loggers s = ⟨t, j, .ok x⟩) :
    (a >>= f).runWith loggers s = ((f x).runWith loggers t).after j := by
  simp only [runWith] at h ⊢
  simp only [bind, Action.bind, h]

theorem runWith_bind_error {a : Action σ α} {f : α → Action σ β} {s t : σ} {j : List Entry}
    {e : QueryError} (h : a.runWith loggers s = ⟨t, j, .error e⟩) :
    (a >>= f).runWith loggers s = ⟨t, j, .error e⟩ := by
  simp only [runWith] at h ⊢
  simp only [bind, Action.bind, h]

@[simp] theorem runWith_map (f : α → β) (a : Action σ α) (s : σ) :
    (f <$> a).runWith loggers s = (a.runWith loggers s).map f := by
  simp only [runWith, Functor.map, Action.bind, Function.comp_def, Action.pure, Outcome.map]
  rcases a loggers s with ⟨t, j, e | x⟩ <;> simp [Outcome.after, Except.map]

end RunWith

@[simp] theorem run_pure (x : α) (s : σ) : (pure x : Action σ α).run s = ⟨s, [], .ok x⟩ := rfl

@[simp] theorem run_fail (e : QueryError) (s : σ) :
    (fail e : Action σ α).run s = ⟨s, [], .error e⟩ := rfl

@[simp] theorem run_get (s : σ) : (get : Action σ σ).run s = ⟨s, [], .ok s⟩ := rfl

@[simp] theorem run_modify (f : σ → σ) (s : σ) : (modify f).run s = ⟨f s, [], .ok ()⟩ := rfl

@[simp] theorem run_lift (x : Except QueryError α) (s : σ) :
    (liftM x : Action σ α).run s = ⟨s, [], x⟩ := runWith_lift x s

theorem run_log (logs : Bool) (event : LogEvent) (s : σ) :
    (log logs event : Action σ Unit).run s = ⟨s, if logs then [.log event] else [], .ok ()⟩ := rfl

theorem run_fail_bind (e : QueryError) (f : α → Action σ β) (s : σ) :
    ((fail e : Action σ α) >>= f).run s = ⟨s, [], .error e⟩ := rfl

theorem run_bind_ok {a : Action σ α} {f : α → Action σ β} {s t : σ} {j : List Entry} {x : α}
    (h : a.run s = ⟨t, j, .ok x⟩) : (a >>= f).run s = ((f x).run t).after j := runWith_bind_ok h

theorem run_bind_error {a : Action σ α} {f : α → Action σ β} {s t : σ} {j : List Entry}
    {e : QueryError} (h : a.run s = ⟨t, j, .error e⟩) :
    (a >>= f).run s = ⟨t, j, .error e⟩ := runWith_bind_error h

/-- A chain of two actions gives a result only through a result of the first. -/
theorem run_bind_eq_ok {a : Action σ α} {f : α → Action σ β} {s : σ} {y : β}
    (h : ((a >>= f).run s).result = .ok y) :
    ∃ x, (a.run s).result = .ok x ∧ ((f x).run (a.run s).state).result = .ok y := by
  rcases ha : a.run s with ⟨t, j, e | x⟩
  · rw [run_bind_error ha] at h
    simp at h
  · rw [run_bind_ok ha] at h
    exact ⟨x, rfl, h⟩

theorem run_bind_of_ok {a : Action σ α} {f : α → Action σ β} {s : σ} {x : α}
    (h : (a.run s).result = .ok x) :
    (a >>= f).run s = ((f x).run (a.run s).state).after (a.run s).journal :=
  run_bind_ok (by rw [← h])

theorem run_bind_congr {a b : Action σ α} {s : σ} (h : a.run s = b.run s) (f : α → Action σ β) :
    (a >>= f).run s = (b >>= f).run s := by
  rcases o : b.run s with ⟨t, j, e | x⟩
  · rw [run_bind_error o, run_bind_error (h.trans o)]
  · rw [run_bind_ok o, run_bind_ok (h.trans o)]

@[simp] theorem run_map (f : α → β) (a : Action σ α) (s : σ) :
    (f <$> a).run s = (a.run s).map f := runWith_map f a s

private theorem id_map (a : Action σ α) : id <$> a = a := by
  funext loggers s
  simp only [Functor.map, Action.bind, Function.comp_def, Action.pure, id]
  rcases a loggers s with ⟨t, j, _ | x⟩ <;> simp [Outcome.after]

private theorem bind_assoc {γ : Type} (a : Action σ α) (f : α → Action σ β)
    (g : β → Action σ γ) : a >>= f >>= g = a >>= fun x => f x >>= g := by
  funext loggers s
  simp only [bind, Action.bind]
  rcases a loggers s with ⟨t, j, _ | x⟩
  · rfl
  · simp only [Outcome.after]
    rcases f x loggers t with ⟨u, k, _ | y⟩
    · rfl
    · simp

instance : LawfulMonad (Action σ) :=
  LawfulMonad.mk' (Action σ) id_map (fun _ _ => rfl) bind_assoc

end Action

end SqlSelect
