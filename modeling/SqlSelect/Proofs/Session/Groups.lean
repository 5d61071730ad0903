import SqlSelect.Proofs.Session.Calls

/-!
Groups of builders, roots and queries, and the calls that work on them. Taken out of a session, the
objects of a group keep their order but get handles of their own, counted from zero.
-/
namespace SqlSelect

/-! A handle among its own: the number of own handles before it. -/

namespace Handle

variable {kind : ObjectKind} (own : Handle kind → Bool)

def rank (h : Handle kind) : Handle kind := ⟨(List.range h.index).countP fun i => own ⟨i⟩⟩

theorem rank_succ (n : Nat) :
    (rank own ⟨n + 1⟩).index = (rank own ⟨n⟩).index + if own ⟨n⟩ then 1 else 0 := by
  simp [rank, List.range_succ, List.countP_append, List.countP_cons]

theorem rank_mono {m n : Nat} (le : m ≤ n) : (rank own ⟨m⟩).index ≤ (rank own ⟨n⟩).index :=
  List.Sublist.countP_le (List.range_sublist.2 le)

variable {own}

theorem rank_lt {h k : Handle kind} (isOwn : own h = true) (before : h.index < k.index) :
    (rank own h).index < (rank own k).index := by
  calc
    (rank own h).index < (rank own ⟨h.index + 1⟩).index := by
      rw [rank_succ, if_pos isOwn]
      exact Nat.lt_succ_self _
    _ ≤ (rank own k).index := rank_mono own before

theorem rank_injective {h k : Handle kind} (ownH : own h = true) (ownK : own k = true)
    (same : rank own h = rank own k) : h = k := by
  have index := congrArg Handle.index same
  rcases Nat.lt_trichotomy h.index k.index with before | equal | behind
  · exact absurd index (Nat.ne_of_lt (rank_lt ownH before))
  · cases h; cases k; exact congrArg _ equal
  · exact absurd index (Nat.ne_of_gt (rank_lt ownK behind))

end Handle

namespace Store

variable {kind : ObjectKind} {α : Type}

/-- The second store holds the own objects of the first, in their order and as `R` says. -/
structure Mirrors (own : Handle kind → Bool) (R : α → α → Prop) (s t : Store kind α) : Prop where
  size : t.size = (Handle.rank own ⟨s.size⟩).index
  get : ∀ h, own h = true → R (s.get h) (t.get (h.rank own))

namespace Mirrors

variable {own : Handle kind → Bool} {R : α → α → Prop} {s t : Store kind α} {x y : α}

theorem set_own (m : Mirrors own R s t) {h : Handle kind} (isOwn : own h = true)
    (related : R x y) : Mirrors own R (s.set h x) (t.set (h.rank own) y) := by
  refine ⟨m.size, fun k ownK => ?_⟩
  by_cases same : k = h
  · subst same
    rw [Store.get_set_self, Store.get_set_self]
    exact related
  · have apart : k.rank own ≠ h.rank own := fun equal =>
      same (Handle.rank_injective ownK isOwn equal)
    rw [Store.get_set_of_ne _ same, Store.get_set_of_ne _ apart]
    exact m.get k ownK

theorem set_other (m : Mirrors own R s t) {h : Handle kind} (other : own h = false) (x : α) :
    Mirrors own R (s.set h x) t := by
  refine ⟨m.size, fun k ownK => ?_⟩
  have apart : k ≠ h := by
    rintro rfl
    rw [other] at ownK
    cases ownK
  rw [Store.get_set_of_ne _ apart]
  exact m.get k ownK

theorem add_own (m : Mirrors own R s t) (isOwn : own ⟨s.size⟩ = true) (related : R x y) :
    Mirrors own R (s.add x).2 (t.add y).2 := by
  -- The rank of the next handle of `s` is the next handle of `t`.
  have place : (Handle.rank own ⟨s.size⟩) = ⟨t.size⟩ := congrArg Handle.mk m.size.symm
  have set := m.set_own isOwn related
  rw [place] at set
  refine ⟨?_, set.get⟩
  have next := Handle.rank_succ own s.size
  rw [if_pos isOwn, ← m.size] at next
  exact next.symm

theorem add_other (m : Mirrors own R s t) (other : own ⟨s.size⟩ = false) (x : α) :
    Mirrors own R (s.add x).2 t := by
  refine ⟨?_, (m.set_other other x).get⟩
  have next := Handle.rank_succ own s.size
  rw [if_neg (by simp [other]), ← m.size] at next
  exact next.symm

end Mirrors

end Store

namespace Session

/-- Builders, roots that no builder owns, and queries, by their handles. A root of a builder
belongs to the group of its builder. -/
structure Group where
  builders : Handle .builder → Bool
  roots : Handle .root → Bool
  queries : Handle .query → Bool

def RootArgument.replace (f : RootRef → RootArgument) : RootArgument → RootArgument
  | here ref => f ref
  | given r => given r

def CountArgument.replace (f : RootRef → RootArgument) : CountArgument → CountArgument
  | root r => root (r.replace f)
  | column c => column c
  | other => other

def Fragment.replace (f : RootRef → RootArgument) : Fragment → Fragment
  | all r => all (r.replace f)
  | count items => count (items.map (CountArgument.replace f))
  | fragment => fragment

theorem RootArgument.root_replace (f : RootRef → RootArgument) (rootAt : RootRef → TableRoot)
    (r : RootArgument) : (r.replace f).root rootAt = r.root fun ref => (f ref).root rootAt := by
  cases r <;> rfl

theorem Fragment.make_replace (f : RootRef → RootArgument) (d : Database)
    (rootAt : RootRef → TableRoot) (fragment : Fragment) :
    (fragment.replace f).make d rootAt = fragment.make d fun ref => (f ref).root rootAt := by
  cases fragment with
  | all r => simp only [replace, make, RootArgument.root_replace]
  | count items =>
    have same : CountArgument.countable rootAt ∘ CountArgument.replace f =
        CountArgument.countable fun ref => (f ref).root rootAt := by
      funext item
      cases item with
      | root r => exact congrArg _ (r.root_replace f rootAt)
      | column | other => rfl
    simp only [replace, make, List.map_map, same]
  | _ => rfl

namespace Group

variable (g : Group)

def hasRoot : RootRef → Bool
  | .start h | .joined h _ => g.builders h
  | .loose h => g.roots h

def ref : RootRef → RootRef
  | .start h => .start (h.rank g.builders)
  | .joined h i => .joined (h.rank g.builders) i
  | .loose h => .loose (h.rank g.roots)

/-- The call works on an object of the group, or creates one. -/
def owns (s : Session) : Call → Bool
  | .aside _ => false
  | .newBuilder _ => g.builders ⟨s.builders.size⟩
  | .start h _ | .join h _ _ _ _ | .roots h | .make h _ => g.builders h
  | .newRoot _ _ _ => g.roots ⟨s.roots.size⟩
  | .change ref _ | .ask ref _ => g.hasRoot ref
  | .newQuery _ => g.queries ⟨s.queries.size⟩
  | .bind h _ | .set h _ | .render h => g.queries h

/-- The objects that the call leaves for later calls to read are of the group. -/
def Closed : Call → Prop
  | .newBuilder options => ∀ refs ∈ options.listed?, ∀ ref ∈ refs, g.hasRoot ref = true
  | .newQuery builder? => ∀ b ∈ builder?, g.builders b = true
  | .bind _ b => g.builders b = true
  | _ => True

/-- A root among the roots of the group, or as the value that it has elsewhere. -/
def argument (rootAt : RootRef → TableRoot) (ref : RootRef) : RootArgument :=
  if g.hasRoot ref then .here (g.ref ref) else .given (rootAt ref)

/-- The call as it is made on the group alone, over one fresh resolver. -/
def call (rootAt : RootRef → TableRoot) : Call → Call
  | .aside a => .aside a
  | .newBuilder options => .newBuilder { options with
      resolver := sharedResolver
      listed? := options.listed?.map (List.map g.ref) }
  | .start h e => .start (h.rank g.builders) e
  | .join h e source targetField typeName =>
    .join (h.rank g.builders) e source targetField typeName
  | .roots h => .roots (h.rank g.builders)
  | .make h f => .make (h.rank g.builders) (f.replace (g.argument rootAt))
  | .newRoot e _ dialect => .newRoot e sharedResolver dialect
  | .change ref c => .change (g.ref ref) c
  | .ask ref question => .ask (g.ref ref) question
  | .newQuery builder? => .newQuery (builder?.map (Handle.rank g.builders))
  | .bind h b => .bind (h.rank g.queries) (b.rank g.builders)
  | .set h c => .set (h.rank g.queries) c
  | .render h => .render (h.rank g.queries)

/-- The calls of a run that the group owns, as they are made on it alone. -/
def alone : Session → List Call → List Call
  | _, [] => []
  | s, c :: calls =>
    let rest := alone (s.next c) calls
    if g.owns s c then g.call s.root c :: rest else rest

/-- The answers to the calls of a run that the group owns. -/
def answers : Session → List Call → List (Except QueryError Answer)
  | _, [] => []
  | s, c :: calls =>
    let rest := answers (s.next c) calls
    if g.owns s c then s.answer c :: rest else rest

/-- The calls that the group owns leave it none but its own objects. -/
def Confined : Session → List Call → Prop
  | _, [] => True
  | s, c :: calls => (g.owns s c = true → g.Closed c) ∧ Confined (s.next c) calls

end Group

end Session

end SqlSelect
