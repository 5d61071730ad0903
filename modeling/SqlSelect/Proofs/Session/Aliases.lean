import Mathlib
import SqlSelect.Proofs.Alias.Search
import SqlSelect.Proofs.Builder.Steps
import SqlSelect.Proofs.Session.Changes

/-!
Aliases over whole runs of a builder. The joined roots have the first names of one sequence, as
many as there were joins that succeeded; calls that fail, for whatever reason, use up no name.
-/
namespace SqlSelect

namespace Builder

/-- What holds of a builder after `n` joins, with `start` and `base` for its alias names. -/
structure Allocated (start base : String) (n : Nat) (b : Builder) : Prop where
  startAlias : b.startAlias = start
  joinAlias : b.joinAlias = base
  unlisted : b.listed? = none
  startRoot : ∀ r ∈ b.start?, r.alias? = some start
  joinRoots : b.joins.map TableRoot.alias? = (Alias.sequenceWithout start base n).map some

namespace Allocated

variable {start base : String} {n : Nat} {b next : Builder} {e : Entity} {names : Resolvers}

theorem taken (h : b.Allocated start base n) (declared : b.start?.isSome = true) :
    b.taken = start :: Alias.sequenceWithout start base n := by
  obtain ⟨root, isRoot⟩ := Option.isSome_iff_exists.1 declared
  have joined : b.joins.filterMap TableRoot.alias? = Alias.sequenceWithout start base n := by
    simpa [List.filterMap_map] using congrArg (List.filterMap id) h.joinRoots
  simp [Builder.taken, isRoot, h.startRoot root isRoot, joined]

theorem withStart (h : b.Allocated start base n)
    (ok : ((b.withStart e).run names).result = .ok next) : next.Allocated start base n := by
  obtain ⟨-, rfl⟩ := withStart_ok ok
  refine ⟨h.startAlias, h.joinAlias, h.unlisted, ?_, h.joinRoots⟩
  simp [aliasedRoot, h.startAlias]

/-- A join that succeeds takes the next name of the sequence. -/
theorem withJoin (h : b.Allocated start base n) {source : Column}
    {targetField typeName : String}
    (ok : ((b.withJoin e source targetField typeName).run names).result = .ok next) :
    next.Allocated start base (n + 1) := by
  obtain ⟨declared, type, target, -, -, rfl⟩ := withJoin_ok ok
  refine ⟨h.startAlias, h.joinAlias, h.unlisted, h.startRoot, ?_⟩
  simp [aliasedRoot, h.joinRoots, h.taken declared, h.joinAlias, Alias.sequenceWithout_succ]

theorem distinct (h : b.Allocated start base n) : (b.joins.map TableRoot.alias?).Nodup := by
  rw [h.joinRoots]
  exact List.Pairwise.map _ (fun _ _ ne same => ne (Option.some.inj same))
    (List.nodup_cons.1 (Alias.nodup_sequenceWithout start base n)).2

end Allocated

/-- Files a root under its alias: in the place of the root that has this alias already, or else
at the end. -/
def file (roots : List TableRoot) (root : TableRoot) : List TableRoot :=
  if root.alias? ∈ roots.map TableRoot.alias? then
    roots.map fun old => if old.alias? = root.alias? then root else old
  else roots ++ [root]

theorem foldl_file {filed more : List TableRoot}
    (h : ((filed ++ more).map TableRoot.alias?).Nodup) : more.foldl file filed = filed ++ more := by
  induction more generalizing filed with
  | nil => simp
  | cons root more ih =>
    have new : root.alias? ∉ filed.map TableRoot.alias? := by
      rw [List.map_append, List.map_cons, List.nodup_append] at h
      exact fun mem => h.2.2 _ mem _ List.mem_cons_self rfl
    rw [List.foldl_cons, file, if_neg new, ih (by simpa using h), List.append_assoc,
      List.singleton_append]

end Builder

namespace Session

/-- Calls on one builder; between them the resolvers can come to know or to forget any names, and
listeners can come and go. -/
inductive RootCall where
  | start (e : Entity)
  | join (e : Entity) (source : Column) (targetField typeName : String)
  | meanwhile (names : Resolvers)

variable (h : Handle .builder)

def RootCall.act : RootCall → Action Session Unit
  | start e => (fun _ => ()) <$> declareStart h e
  | join e source targetField typeName =>
    (fun _ => ()) <$> declareJoin h e source targetField typeName
  | meanwhile names => Action.modify fun s => { s with resolvers := names }

/-- What a call makes of the builder. -/
def RootCall.change : RootCall → Builder → Action Resolvers Builder
  | start e, b => b.withStart e
  | join e source targetField typeName, b => b.withJoin e source targetField typeName
  | meanwhile names, b => (fun _ => b) <$> Action.modify fun _ => names

/-- One for a join that succeeds. -/
def RootCall.joins (s : Session) (c : RootCall) : Nat :=
  match ((c.act h).run s).result, c with
  | .ok _, join .. => 1
  | _, _ => 0

def afterCalls (s : Session) (calls : List RootCall) : Session :=
  calls.foldl (fun s c => ((c.act h).run s).state) s

def joinsMade : Session → List RootCall → Nat
  | _, [] => 0
  | s, c :: calls => c.joins h s + joinsMade ((c.act h).run s).state calls

variable {h} {s : Session}

theorem run_act (c : RootCall) (s : Session) :
    (c.act h).run s = (changeBuilder h c.change).run s := by
  have forget {α : Type} (a : Action Session Unit) (x : α) :
      (fun _ => ()) <$> (a >>= fun _ => pure x) = a := by
    simp
  cases c with
  | start e =>
    exact (congrArg (·.run s) (forget _ _)).trans
      (run_onBuilder (f := (·.withStart e)) ((s.builders.get h).declareStart_replaces e))
  | join e source targetField typeName =>
    have index : (RootCall.act h (.join e source targetField typeName)).run s =
        (onBuilder h (Builder.declareJoin e source targetField typeName)).run s := by
      refine Eq.trans ?_ (congrArg (·.run s)
        (forget _ (RootRef.joined h (s.builders.get h).joins.length)))
      simp only [RootCall.act, Action.run_map, declareJoin]
      rw [Action.run_bind_ok (run_builder h s)]
      rfl
    exact index.trans (run_onBuilder (f := (·.withJoin e source targetField typeName))
      ((s.builders.get h).declareJoin_replaces e source targetField typeName))
  | meanwhile names =>
    rw [run_changeBuilder]
    simp [RootCall.act, RootCall.change, Outcome.map, Except.map]

/-- A call that fails leaves all builders as they were, aliases included. -/
theorem builders_of_error {c : RootCall} {e : QueryError}
    (failed : ((c.act h).run s).result = .error e) :
    ((c.act h).run s).state.builders = s.builders := by
  rw [run_act, run_changeBuilder] at failed ⊢
  dsimp only at failed ⊢
  split at failed
  · simp at failed
  · rfl

/-- A call that succeeds turns the builder into the one that its change gives. -/
theorem change_of_ok {c : RootCall} {u : Unit} (ok : ((c.act h).run s).result = .ok u) :
    ((c.change (s.builders.get h)).run s.resolvers).result =
      .ok (((c.act h).run s).state.builders.get h) := by
  rw [run_act, run_changeBuilder] at ok ⊢
  dsimp only at ok ⊢
  split at ok
  · next b result => rw [result]; simp
  · simp at ok

/-- Each call keeps the roots that are joined already, and a join that succeeds adds one under the
next name. -/
theorem allocated_act {start base : String} {n : Nat}
    (before : (s.builders.get h).Allocated start base n) (c : RootCall) :
    (((c.act h).run s).state.builders.get h).Allocated start base (n + c.joins h s) ∧
      (s.builders.get h).joins <+: (((c.act h).run s).state.builders.get h).joins := by
  cases result : ((c.act h).run s).result with
  | error e =>
    have none : c.joins h s = 0 := by simp [RootCall.joins, result]
    rw [builders_of_error result, none]
    exact ⟨before, List.prefix_refl _⟩
  | ok u =>
    have ok := change_of_ok result
    unfold RootCall.joins
    rw [result]
    cases c with
    | start e =>
      obtain ⟨-, next⟩ := Builder.withStart_ok ok
      have unchanged := congrArg Builder.joins next
      exact ⟨before.withStart ok, unchanged ▸ List.prefix_refl _⟩
    | join e source targetField typeName =>
      refine ⟨before.withJoin ok, ?_⟩
      obtain ⟨-, _, _, -, -, next⟩ := Builder.withJoin_ok ok
      rw [next]
      exact List.prefix_append _ _
    | meanwhile names =>
      rw [RootCall.change, Action.run_map] at ok
      exact (Except.ok.inj ok) ▸ ⟨before, List.prefix_refl _⟩

theorem allocated_afterCalls {start base : String} {n : Nat}
    (before : (s.builders.get h).Allocated start base n) (calls : List RootCall) :
    ((s.afterCalls h calls).builders.get h).Allocated start base (n + joinsMade h s calls) ∧
      (s.builders.get h).joins <+: ((s.afterCalls h calls).builders.get h).joins := by
  induction calls generalizing s n with
  | nil => exact ⟨before, List.prefix_refl _⟩
  | cons c calls ih =>
    obtain ⟨stepped, kept⟩ := allocated_act before c
    obtain ⟨after, later⟩ := ih stepped
    exact ⟨Nat.add_assoc .. ▸ after, kept.trans later⟩

theorem map_root_joinRoots (unlisted : (s.builders.get h).listed? = none) :
    (s.joinRoots h).map s.root = (s.builders.get h).joins := by
  apply List.ext_getElem
  · simp [joinRoots, unlisted]
  · intro i there _
    simp [joinRoots, unlisted, root] at there ⊢
    simp [there]

/-- A builder that was just made has the alias names it was made with, both valid, and no roots. -/
theorem allocated_newBuilder {options : BuilderOptions}
    (made : ((newBuilder options).run s).result = .ok h) (unlisted : options.listed? = none) :
    Identifier.isIdentifier options.startAlias.toList = true ∧
      Identifier.isIdentifier options.joinAlias.toList = true ∧
      (((newBuilder options).run s).state.builders.get h).Allocated options.startAlias
        options.joinAlias 0 := by
  obtain ⟨start, join, -, -, dialect, -, held⟩ := newBuilder_ok made
  rw [held]
  exact ⟨start, join, rfl, rfl, unlisted, by simp, by simp⟩

/-- After any calls on a builder, failed ones among them, the joined roots have the first names of
the sequence in the order of their declaration, as many as there are joins that succeeded. So no
two roots share a name, filing a root under its alias replaces none, and roots once joined stay. -/
theorem aliases_follow_sequence {options : BuilderOptions} {s₀ : Session} {h : Handle .builder}
    (made : ((newBuilder options).run s₀).result = .ok h) (unlisted : options.listed? = none)
    (calls : List RootCall) :
    let s := ((newBuilder options).run s₀).state
    let t := s.afterCalls h calls
    let names := Alias.sequenceWithout options.startAlias options.joinAlias (joinsMade h s calls)
    (t.joinRoots h).map (fun ref => (t.root ref).alias?) = names.map some ∧
    (∀ r ∈ (t.builders.get h).start?, r.alias? = some options.startAlias) ∧
    (options.startAlias :: names).Nodup ∧
    (∀ name ∈ options.startAlias :: names, Identifier.isIdentifier name.toList = true) ∧
    (∀ (c : RootCall) e, ((c.act h).run t).result = .error e →
      ((c.act h).run t).state.builders = t.builders) ∧
    (t.builders.get h).joins.foldl Builder.file [] = (t.builders.get h).joins ∧
    ∀ more, (t.builders.get h).joins <+: ((t.afterCalls h more).builders.get h).joins := by
  intro s t names
  obtain ⟨validStart, validJoin, fresh⟩ := allocated_newBuilder made unlisted
  have after : (t.builders.get h).Allocated options.startAlias options.joinAlias
      (joinsMade h s calls) := by
    simpa using (allocated_afterCalls fresh calls).1
  refine ⟨?_, after.startRoot, Alias.nodup_sequenceWithout _ _ _, ?_,
    fun c e => builders_of_error, ?_, fun more => (allocated_afterCalls after more).2⟩
  · rw [← after.joinRoots, ← map_root_joinRoots after.unlisted, List.map_map]
    rfl
  · intro name mem
    rcases List.mem_cons.1 mem with rfl | mem
    · exact validStart
    · exact Alias.isIdentifier_of_mem_sequenceWithout validJoin mem
  · exact Builder.foldl_file (by simpa using after.distinct)

/-- Joins that come too early, ask for a field that is not there or are of a type that the database
lacks leave no gap; the name of the start is passed over. -/
theorem aliases_skip_start_alias :
    let options : BuilderOptions := ⟨.named "mysql", sharedResolver, false, "j1", "j", none⟩
    let order : Entity := .base ⟨1, "Order", some "orders", [⟨"userId", some "user_id"⟩]⟩
    let source := Column.ofExpr (.column "j1" "id")
    let calls := [.join order source "userId" "INNER", .start order, .start order,
      .join order source "userId" "INNER", .join order source "shippedAt" "INNER",
      .join order source "userId" "FULL", .join order source "userId" "LEFT"]
    let t := ((newBuilder options).run initial).state.afterCalls ⟨0⟩ calls
    ((newBuilder options).run initial).result = .ok ⟨0⟩ ∧ options.listed? = none ∧
      (t.joinRoots ⟨0⟩).map (fun ref => (t.root ref).alias?) = [some "j", some "j2"] := by
  intro options order source calls t
  have made : ((newBuilder options).run initial).result = .ok ⟨0⟩ := by cbv
  have joined : joinsMade ⟨0⟩ ((newBuilder options).run initial).state calls = 2 := by cbv
  have aliases := (aliases_follow_sequence made rfl calls).1
  rw [joined] at aliases
  refine ⟨made, rfl, aliases.trans ?_⟩
  decide +kernel

end Session

end SqlSelect
