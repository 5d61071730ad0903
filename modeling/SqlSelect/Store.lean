/-! Stores of objects that are reached by handles. A handle that was never given out reaches a
blank object, so that looking up is total. -/
namespace SqlSelect

inductive ObjectKind where
  | resolver
  | builder
  | root
  | query
deriving DecidableEq, Repr

structure Handle (kind : ObjectKind) where
  index : Nat
deriving DecidableEq, Repr

structure Store (kind : ObjectKind) (α : Type) where
  size : Nat
  get : Handle kind → α

namespace Store

variable {kind : ObjectKind} {α : Type}

def empty (blank : α) : Store kind α := ⟨0, fun _ => blank⟩

def set (s : Store kind α) (h : Handle kind) (x : α) : Store kind α :=
  { s with get := fun k => if k = h then x else s.get k }

/-- Adds an object under a handle that no earlier object has. -/
def add (s : Store kind α) (x : α) : Handle kind × Store kind α :=
  (⟨s.size⟩, { s.set ⟨s.size⟩ x with size := s.size + 1 })

@[simp] theorem get_set_self (s : Store kind α) (h : Handle kind) (x : α) :
    (s.set h x).get h = x := by
  simp [set]

theorem get_set_of_ne (s : Store kind α) {h k : Handle kind} (ne : k ≠ h) (x : α) :
    (s.set h x).get k = s.get k := by
  simp [set, ne]

@[simp] theorem get_add_self (s : Store kind α) (x : α) : (s.add x).2.get (s.add x).1 = x := by
  simp [add, set]

@[simp] theorem set_get_self (s : Store kind α) (h : Handle kind) : s.set h (s.get h) = s := by
  unfold set
  congr
  funext k
  split
  · next e => rw [e]
  · rfl

end Store

end SqlSelect
