import Mathlib.Data.List.Nodup
import SqlSelect.Proofs.Resolver.Coherence

/-!
What looking names up can make of a resolver. Names and counts are only added, and a listener
leaves only when it, or one with its key, was to be called once.
-/
namespace SqlSelect

namespace Action

variable {σ α β : Type} {R : σ → List Entry → σ → Prop}

/-- Wherever the action starts, and whatever loggers throw, the relation holds from there, over what
the action writes, to where it ends. -/
def Ensures (R : σ → List Entry → σ → Prop) (a : Action σ α) : Prop :=
  ∀ loggers s, R s (a.runWith loggers s).journal (a.runWith loggers s).state

/-- Relations that hold over a chain of actions if they hold over each of them. -/
class Composes (R : σ → List Entry → σ → Prop) : Prop where
  refl : ∀ s, R s [] s
  trans : ∀ {s t u j k}, R s j t → R t k u → R s (j ++ k) u

namespace Ensures

theorem run {a : Action σ α} (h : Ensures R a) (s : σ) : R s (a.run s).journal (a.run s).state :=
  h .sink s

theorem mono {a : Action σ α} {R' : σ → List Entry → σ → Prop} (h : Ensures R a)
    (imp : ∀ {s j t}, R s j t → R' s j t) : Ensures R' a := fun loggers s => imp (h loggers s)

theorem map {a : Action σ α} (h : Ensures R a) (f : α → β) : Ensures R (f <$> a) :=
  fun loggers s => by
    rw [runWith_map]
    exact h loggers s

variable [Composes R]

theorem pure (x : α) : Ensures R (Pure.pure x : Action σ α) := fun _ => Composes.refl

theorem fail (e : QueryError) : Ensures R (Action.fail e : Action σ α) := fun _ => Composes.refl

theorem fail_bind (e : QueryError) (f : α → Action σ β) : Ensures R (Action.fail e >>= f) :=
  fun _ => Composes.refl

theorem lift (x : Except QueryError α) : Ensures R (liftM x : Action σ α) := fun loggers s => by
  rw [runWith_lift]
  exact Composes.refl s

theorem get : Ensures R (Action.get : Action σ σ) := fun _ => Composes.refl

theorem bind {a : Action σ α} {f : α → Action σ β} (h : Ensures R a)
    (next : ∀ x, Ensures R (f x)) : Ensures R (a >>= f) := fun loggers s => by
  have first := h loggers s
  rcases o : a.runWith loggers s with ⟨t, journal, e | x⟩
  · rw [runWith_bind_error o]
    rwa [o] at first
  · rw [runWith_bind_ok o]
    rw [o] at first
    exact Composes.trans first (next x loggers t)

end Ensures

end Action

namespace Resolver

/-- What asking for names can make of a resolver while no listeners but `among` are called. -/
structure GrowsAmong (among : List Listener) (r t : Resolver) : Prop where
  logs : t.logs = r.logs
  tables : r.tables <+: t.tables
  columns : r.columns <+: t.columns
  hits : r.hits ≤ t.hits
  misses : r.misses ≤ t.misses
  listeners : t.listeners.Sublist r.listeners
  released : ∀ l ∈ r.listeners, l ∈ t.listeners ∨ ∃ k ∈ among, k.once = true ∧ k.key = l.key

def Grows (r t : Resolver) : Prop := r.GrowsAmong r.listeners t

namespace GrowsAmong

variable {among : List Listener} {r t u : Resolver}

theorem refl (among : List Listener) (r : Resolver) : r.GrowsAmong among r where
  logs := rfl
  tables := List.prefix_refl _
  columns := List.prefix_refl _
  hits := Nat.le_refl _
  misses := Nat.le_refl _
  listeners := List.Sublist.refl _
  released _ there := .inl there

theorem trans (first : r.GrowsAmong among t) (second : t.GrowsAmong among u) :
    r.GrowsAmong among u where
  logs := second.logs.trans first.logs
  tables := first.tables.trans second.tables
  columns := first.columns.trans second.columns
  hits := Nat.le_trans first.hits second.hits
  misses := Nat.le_trans first.misses second.misses
  listeners := second.listeners.trans first.listeners
  released l there := (first.released l there).elim (second.released l) .inr

theorem mono (h : r.GrowsAmong among t) {more : List Listener} (sub : among ⊆ more) :
    r.GrowsAmong more t where
  logs := h.logs
  tables := h.tables
  columns := h.columns
  hits := h.hits
  misses := h.misses
  listeners := h.listeners
  released l there := (h.released l there).imp_right fun ⟨k, called, same⟩ => ⟨k, sub called, same⟩

theorem hit (among : List Listener) (r : Resolver) : r.GrowsAmong among r.hit :=
  { refl among r with hits := Nat.le_succ _ }

theorem learnTable (among : List Listener) (r : Resolver) (e : Entity) (name : String) :
    r.GrowsAmong among (r.learnTable e name) :=
  { refl among r with misses := Nat.le_succ _, tables := List.prefix_append _ _ }

theorem learnColumn (among : List Listener) (r : Resolver) (e : Entity) (field name : String) :
    r.GrowsAmong among (r.learnColumn e field name) :=
  { refl among r with misses := Nat.le_succ _, columns := List.prefix_append _ _ }

theorem release {l : Listener} (called : l ∈ among) (r : Resolver) :
    r.GrowsAmong among (r.release l) := by
  unfold Resolver.release
  split
  · next once =>
    refine { refl among r with listeners := List.filter_sublist, released := fun k there => ?_ }
    by_cases same : k.key = l.key
    · exact .inr ⟨l, called, once, same.symm⟩
    · exact .inl (List.mem_filter.2 ⟨there, by simpa using same⟩)
  · exact refl among r

/-- The induction is on the agenda: a call can release its listener, and a listener that needs a
new name has it announced to listeners that are there. -/
theorem deliver (loggers : Loggers) (r : Resolver) (tasks : List Task)
    (there : r.listeners ⊆ among) (called : ∀ l event, .call l event ∈ tasks → l ∈ among) :
    r.GrowsAmong among (r.deliver loggers tasks).state := by
  have released (r : Resolver) (l : Listener) (there : r.listeners ⊆ among) :
      (r.release l).listeners ⊆ among := List.Subset.trans (r.listeners_release_subset l) there
  fun_induction Resolver.deliver loggers r tasks with
  | case1 r => exact refl among r
  | case2 r notice rest ih =>
    exact ih there fun l event waiting => called l event (List.mem_cons_of_mem _ waiting)
  | case3 r l event rest _ ih =>
    exact (release (called l event List.mem_cons_self) r).trans (ih (released r l there)
      fun k event waiting => called k event (List.mem_cons_of_mem _ waiting))
  | case4 r l event rest message _ => exact release (called l event List.mem_cons_self) r
  | case5 r l event rest e _ name _ ih =>
    refine (release (called l event List.mem_cons_self) r).trans ((hit among _).trans
      (ih (released r l there) fun k event waiting => ?_))
    exact called k event (List.mem_cons_of_mem _ (by simpa using waiting))
  | case6 r l event rest e _ _ name learnt ih =>
    have learns : r.GrowsAmong among learnt :=
      (release (called l event List.mem_cons_self) r).trans (learnTable among _ e name)
    refine state_logThen learns (learns.trans (ih (released r l there) fun k event waiting => ?_))
    rcases List.mem_append.1 waiting with announced | waiting
    · obtain ⟨j, present, same⟩ := List.mem_map.1 announced
      exact (Task.call.inj same).1 ▸ released r l there present
    · exact called k event (List.mem_cons_of_mem _ (by simpa using waiting))

theorem announce (loggers : Loggers) (r : Resolver) (log : LogEvent) (event : ResolveEvent) :
    r.Grows (r.announce loggers log event).state := by
  have told := deliver loggers r (r.calls event) (List.Subset.refl _) fun l announced waiting => by
    obtain ⟨j, present, same⟩ := List.mem_map.1 waiting
    exact (Task.call.inj same).1 ▸ present
  exact state_logThen (refl _ r) told

end GrowsAmong

namespace Grows

variable {r t u : Resolver}

theorem refl (r : Resolver) : r.Grows r := GrowsAmong.refl _ r

theorem trans (first : r.Grows t) (second : t.Grows u) : r.Grows u :=
  GrowsAmong.trans first (second.mono first.listeners.subset)

theorem resolveTable (loggers : Loggers) (e : Entity) (r : Resolver) :
    r.Grows ((resolveTable e).runWith loggers r).state := by
  obtain ⟨name, -, run⟩ | ⟨-, run⟩ := runWith_resolveTable_cases loggers e r
  · rw [run]
    exact .hit _ r
  · rw [run]
    exact (GrowsAmong.learnTable _ r e e.tableName).trans
      (.announce loggers (r.learnTable e e.tableName) _ _)

theorem resolveColumn (loggers : Loggers) (e : Entity) (field : String) (r : Resolver) :
    r.Grows ((resolveColumn e field).runWith loggers r).state := by
  obtain ⟨name, -, run⟩ | ⟨-, -, run⟩ | ⟨name, -, -, run⟩ :=
    runWith_resolveColumn_cases loggers e field r
  · rw [run]
    exact .hit _ r
  · rw [run]
    exact refl r
  · rw [run]
    exact (GrowsAmong.learnColumn _ r e field name).trans
      (.announce loggers (r.learnColumn e field name) _ _)

/-- If no two listeners have one key, only listeners that were to be called once are gone. -/
theorem once_of_gone (h : r.Grows t) (distinct : (r.listeners.map Listener.key).Nodup)
    {l : Listener} (there : l ∈ r.listeners) (gone : l ∉ t.listeners) : l.once = true := by
  obtain ⟨k, present, once, same⟩ := (h.released l there).resolve_left gone
  exact List.inj_on_of_nodup_map distinct present there same ▸ once

end Grows

end Resolver

end SqlSelect
