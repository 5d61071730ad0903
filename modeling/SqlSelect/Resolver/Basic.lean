import SqlSelect.Action
import SqlSelect.Entity

/-! Resolvers: the names of tables and columns that have been looked up so far, with a count of
how often that was needed, and the listeners who are told of each new name. -/
namespace SqlSelect

/-- What a listener does with an event. It does the same with every event; where it ends a look-up
it throws one message; and it calls nothing but `resolveTable`, on the resolver that it listens to
and for one entity. Listeners that choose by the event, make entities, clear the resolver, or
declare roots on a builder are outside the model. -/
inductive Reaction where
  | observe
  | refuse (message : String)
  | resolveTable (entity : Entity)
deriving DecidableEq

/-- The key tells apart listeners that say the same; a `once` listener is called for one event. -/
structure Listener where
  key : Nat
  label : String
  once : Bool
  reaction : Reaction
deriving DecidableEq

def Listener.target? (l : Listener) : Option Entity :=
  match l.reaction with
  | .resolveTable entity => some entity
  | _ => none

structure Resolver where
  logs : Bool
  tables : List (Entity × String)
  columns : List ((Entity × String) × String)
  hits : Nat
  misses : Nat
  listeners : List Listener
deriving DecidableEq

namespace Resolver

def fresh (logs : Bool) : Resolver := ⟨logs, [], [], 0, 0, []⟩

def hit (r : Resolver) : Resolver := { r with hits := r.hits + 1 }

def learnTable (r : Resolver) (e : Entity) (name : String) : Resolver :=
  { r with misses := r.misses + 1, tables := r.tables ++ [(e, name)] }

def learnColumn (r : Resolver) (e : Entity) (field name : String) : Resolver :=
  { r with misses := r.misses + 1, columns := r.columns ++ [((e, field), name)] }

/-- A `once` listener leaves the list before it is called. -/
def release (r : Resolver) (l : Listener) : Resolver :=
  if l.once then { r with listeners := r.listeners.filter (·.key ≠ l.key) } else r

/-- Forgets all names and counts; the listeners stay. -/
def clear (r : Resolver) : Resolver :=
  { r with tables := [], columns := [], hits := 0, misses := 0 }

def listen (r : Resolver) (l : Listener) : Resolver :=
  { r with listeners := r.listeners ++ [l] }

def unlisten (r : Resolver) (key : Nat) : Resolver :=
  { r with listeners := r.listeners.filter (·.key ≠ key) }

def known (r : Resolver) (e : Entity) : Bool := (r.tables.lookup e).isSome

@[simp] theorem known_release (r : Resolver) (l : Listener) (e : Entity) :
    (r.release l).known e = r.known e := by
  unfold release
  split <;> rfl

theorem listeners_release_subset (r : Resolver) (l : Listener) :
    (r.release l).listeners ⊆ r.listeners := by
  unfold release
  split
  · exact List.filter_sublist.subset
  · exact List.Subset.refl _

theorem known_learnTable (r : Resolver) (e f : Entity) (name : String) :
    (r.learnTable e name).known f = (r.known f || f == e) := by
  simp only [known, learnTable, List.lookup_append, List.lookup_cons, List.lookup_nil]
  cases r.tables.lookup f <;> cases f == e <;> rfl

end Resolver

structure Statistics where
  hits : Nat
  misses : Nat
  tables : Nat
  columns : Nat
deriving DecidableEq, Repr

/-- The share of hits, and zero before the first look-up. -/
def Statistics.hitRate (s : Statistics) : Double :=
  if s.hits + s.misses = 0 then .zero else .ofQuotient false s.hits (s.hits + s.misses)

def Resolver.statistics (r : Resolver) : Statistics :=
  ⟨r.hits, r.misses, r.tables.length, r.columns.length⟩

end SqlSelect
