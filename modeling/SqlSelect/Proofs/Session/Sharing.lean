import Mathlib
import SqlSelect.Proofs.Session.Builders
import SqlSelect.Proofs.Session.Groups

/-!
Builders that share resolvers. A group of builders, with their roots and queries, is answered in a
shared run as in a run of its own over one fresh resolver: beside each bare session of the shared
run stands one that holds the group alone.
-/
namespace SqlSelect.Session

namespace Group

variable (g : Group)

def builder (b : Builder) : Builder := { b with listed? := b.listed?.map (List.map g.ref) }

def query (q : Query) : Query := { q with builder? := q.builder?.map (Handle.rank g.builders) }

/-- The second builder is the first one among the builders of the group. -/
structure BuilderMirrors (b b' : Builder) : Prop where
  same : b' = g.builder b
  closed : ∀ refs ∈ b.listed?, ∀ ref ∈ refs, g.hasRoot ref = true

structure QueryMirrors (q q' : Query) : Prop where
  same : q' = g.query q
  closed : ∀ b ∈ q.builder?, g.builders b = true

/-- The second session holds the group and nothing else. -/
structure Mirrors (s t : Session) : Prop where
  builders : Store.Mirrors g.builders g.BuilderMirrors s.builders t.builders
  roots : Store.Mirrors g.roots Eq s.roots t.roots
  queries : Store.Mirrors g.queries g.QueryMirrors s.queries t.queries

variable {g} {s t : Session}

theorem mirrors_initial : g.Mirrors initial.bare initial.bare where
  builders := ⟨rfl, fun _ _ => ⟨rfl, nofun⟩⟩
  roots := ⟨rfl, fun _ _ => rfl⟩
  queries := ⟨rfl, fun _ _ => ⟨rfl, nofun⟩⟩

namespace Mirrors

theorem builder (m : g.Mirrors s t) {h : Handle .builder} (own : g.builders h = true) :
    t.builders.get (h.rank g.builders) = g.builder (s.builders.get h) := (m.builders.get h own).same

theorem query (m : g.Mirrors s t) {h : Handle .query} (own : g.queries h = true) :
    t.queries.get (h.rank g.queries) = g.query (s.queries.get h) := (m.queries.get h own).same

theorem root (m : g.Mirrors s t) {ref : RootRef} (own : g.hasRoot ref = true) :
    t.root (g.ref ref) = s.root ref := by
  cases ref with
  | start h =>
    have own : g.builders h = true := own
    rw [ref, Session.root, m.builder own]
    rfl
  | joined h i =>
    have own : g.builders h = true := own
    rw [ref, Session.root, m.builder own]
    rfl
  | loose h => exact (m.roots.get h own).symm

theorem aliasName_argument (m : g.Mirrors s t) {rootAt : RootRef → TableRoot}
    (named : ∀ ref, (rootAt ref).aliasName = (s.root ref).aliasName) (ref : RootRef) :
    ((g.argument rootAt ref).root t.root).aliasName = (s.root ref).aliasName := by
  unfold argument
  split
  · next own => exact congrArg TableRoot.aliasName (m.root own)
  · exact named ref

theorem setBuilder (m : g.Mirrors s t) {h : Handle .builder} (own : g.builders h = true)
    {b : Builder} (listed : b.listed? = (s.builders.get h).listed?) :
    g.Mirrors (s.setBuilder h b) (t.setBuilder (h.rank g.builders) (g.builder b)) :=
  ⟨m.builders.set_own own ⟨rfl, listed ▸ (m.builders.get h own).closed⟩, m.roots, m.queries⟩

theorem setQuery (m : g.Mirrors s t) {h : Handle .query} (own : g.queries h = true) {q : Query}
    (closed : ∀ b ∈ q.builder?, g.builders b = true) :
    g.Mirrors (s.setQuery h q) (t.setQuery (h.rank g.queries) (g.query q)) :=
  ⟨m.builders, m.roots, m.queries.set_own own ⟨rfl, closed⟩⟩

theorem setRoot (m : g.Mirrors s t) {ref : RootRef} (own : g.hasRoot ref = true) (r : TableRoot) :
    g.Mirrors (s.setRoot ref r) (t.setRoot (g.ref ref) r) := by
  cases ref with
  | start h =>
    have own : g.builders h = true := own
    simp only [ref, Session.setRoot, m.builder own]
    exact m.setBuilder own rfl
  | joined h i =>
    have own : g.builders h = true := own
    simp only [ref, Session.setRoot, m.builder own]
    exact m.setBuilder own rfl
  | loose h => exact ⟨m.builders, m.roots.set_own own rfl, m.queries⟩

theorem setRoot_other (m : g.Mirrors s t) {ref : RootRef} (other : g.hasRoot ref = false)
    (r : TableRoot) : g.Mirrors (s.setRoot ref r) t := by
  cases ref with
  | start h => exact ⟨m.builders.set_other other _, m.roots, m.queries⟩
  | joined h i => exact ⟨m.builders.set_other other _, m.roots, m.queries⟩
  | loose h => exact ⟨m.builders, m.roots.set_other other _, m.queries⟩

section Own

variable (m : g.Mirrors s t) {h : Handle .builder} (own : g.builders h = true)

include m own

theorem startRoot? : t.startRoot? (h.rank g.builders) = (s.startRoot? h).map g.ref := by
  simp only [Session.startRoot?, m.builder own, Group.builder, Option.map_map]
  rfl

omit m in
theorem hasRoot_startRoot? {ref : RootRef} (mem : s.startRoot? h = some ref) :
    g.hasRoot ref = true := by
  obtain ⟨_, -, rfl⟩ := Option.map_eq_some_iff.1 mem
  exact own

theorem joinRoots : t.joinRoots (h.rank g.builders) = (s.joinRoots h).map g.ref := by
  simp only [Session.joinRoots, m.builder own, Group.builder]
  cases (s.builders.get h).listed? with
  | none => simp [Group.ref, Function.comp_def]
  | some refs => rfl

theorem hasRoot_joinRoots {ref : RootRef} (mem : ref ∈ s.joinRoots h) : g.hasRoot ref = true := by
  unfold Session.joinRoots at mem
  cases listed : (s.builders.get h).listed? with
  | none =>
    rw [listed] at mem
    obtain ⟨i, -, rfl⟩ := List.mem_map.1 mem
    exact own
  | some refs =>
    rw [listed] at mem
    exact (m.builders.get h own).closed refs listed ref mem

theorem map_root_startRoot? :
    (t.startRoot? (h.rank g.builders)).map t.root = (s.startRoot? h).map s.root := by
  rw [m.startRoot? own, Option.map_map]
  exact Option.map_congr fun ref mem => m.root (hasRoot_startRoot? own mem)

theorem map_root_joinRoots :
    (t.joinRoots (h.rank g.builders)).map t.root = (s.joinRoots h).map s.root := by
  rw [m.joinRoots own, List.map_map]
  exact List.map_congr_left fun ref mem => m.root (m.hasRoot_joinRoots own mem)

theorem sources : t.sources (h.rank g.builders) = s.sources h := by
  unfold Session.sources
  rw [m.map_root_joinRoots own, m.builder own]
  rfl

end Own

/-! Calls that the group does not own. -/

theorem meaning_other (m : g.Mirrors s t) {c : Call} (other : g.owns s c = false) {a : Answer}
    {s' : Session} (meant : c.meaning s = .ok (a, s')) : g.Mirrors s' t := by
  cases leaves_of_meaning meant with
  | newBuilder => exact ⟨m.builders.add_other other _, m.roots, m.queries⟩
  | start | join => exact ⟨m.builders.set_other other _, m.roots, m.queries⟩
  | newRoot => exact ⟨m.builders, m.roots.add_other other _, m.queries⟩
  | change => exact m.setRoot_other other _
  | newQuery => exact ⟨m.builders, m.roots, m.queries.add_other other _⟩
  | bind | set => exact ⟨m.builders, m.roots, m.queries.set_other other _⟩
  | same => exact m

end Mirrors

/-! Calls that the group owns. -/

/-- Two calls mean the same: one error, or one answer and sessions that still mirror. -/
inductive Agrees (g : Group) : Except QueryError (Answer × Session) →
    Except QueryError (Answer × Session) → Prop
  | ok {a : Answer} {s t : Session} (m : g.Mirrors s t) : Agrees g (.ok (a, s)) (.ok (a, t))
  | error (e : QueryError) : Agrees g (.error e) (.error e)

theorem Agrees.map {α : Type} (x : Except QueryError α) {f f' : α → Answer × Session}
    (answer : ∀ y, x = .ok y → (f' y).1 = (f y).1)
    (m : ∀ y, x = .ok y → g.Mirrors (f y).2 (f' y).2) : Agrees g (x.map f) (x.map f') := by
  cases x with
  | error e => exact .error e
  | ok y =>
    have same : f' y = ((f y).1, (f' y).2) := by rw [← answer y rfl]
    show Agrees g (.ok (f y)) (.ok (f' y))
    rw [same]
    exact .ok (m y rfl)

section Builder

variable (g : Group) (b : Builder)

theorem start_builder : (g.builder b).start? = b.start? := rfl

theorem newRoot_builder (e : Entity) : (g.builder b).newRoot e = b.newRoot e := rfl

theorem plainStart_builder (e : Entity) :
    (g.builder b).plainStart e = (b.plainStart e).map g.builder := by
  unfold Builder.plainStart
  rw [start_builder, newRoot_builder]
  dsimp only
  split
  · rfl
  · rw [except_map_bind]
    rfl

theorem plainJoin_builder (e : Entity) (source : Column) (targetField typeName : String) :
    (g.builder b).plainJoin e source targetField typeName =
      (b.plainJoin e source targetField typeName).map g.builder := by
  unfold Builder.plainJoin
  rw [start_builder, newRoot_builder]
  dsimp only
  split
  · rfl
  · simp only [except_map_bind]
    rfl

end Builder

theorem apply_query (g : Group) (c : Setting) (q : Query) :
    c.apply (g.query q) = (c.apply q).map g.query := by
  cases c with
  | condition p =>
    simp only [Setting.apply, Query.withCondition]
    split <;> rfl
  | limit count =>
    rw [Setting.apply, Query.withLimit, Setting.apply, Query.withLimit, except_map_map]
    rfl
  | offset count =>
    rw [Setting.apply, Query.withOffset, Setting.apply, Query.withOffset, except_map_map]
    rfl
  | _ => rfl

theorem apply_builder? {c : Setting} {q q' : Query} (h : c.apply q = .ok q') :
    q'.builder? = q.builder? := by
  cases c with
  | condition p =>
    simp only [Setting.apply, Query.withCondition] at h
    split at h
    · cases h
    · exact Except.ok.inj h ▸ rfl
  | limit count | offset count =>
    obtain ⟨-, -, rfl⟩ := except_map_eq_ok.1 h
    rfl
  | _ => exact Except.ok.inj h ▸ rfl

namespace Mirrors

variable (m : g.Mirrors s t) {h : Handle .builder} (own : g.builders h = true)

include m own

/-- Changes of a builder that show one of its roots behind them. -/
theorem changeBuilder {f : Builder → Except QueryError Builder}
    (commutes : f (g.builder (s.builders.get h)) = (f (s.builders.get h)).map g.builder)
    (listed : ∀ b, f (s.builders.get h) = .ok b → b.listed? = (s.builders.get h).listed?)
    {r : RootRef} (ownRoot : g.hasRoot r = true) :
    Agrees g
      ((f (s.builders.get h)).map fun b =>
        let s := s.setBuilder h b
        (.root (s.root r).shown, s))
      ((f (t.builders.get (h.rank g.builders))).map fun b =>
        let t := t.setBuilder (h.rank g.builders) b
        (.root (t.root (g.ref r)).shown, t)) := by
  rw [m.builder own, commutes, except_map_map]
  have left (b : Builder) (changed : f (s.builders.get h) = .ok b) :=
    m.setBuilder own (listed b changed)
  refine .map _ (fun b changed => ?_) left
  dsimp only
  rw [(left b changed).root ownRoot]

end Mirrors

theorem make_builder (g : Group) (d : Dialect) (options : BuilderOptions) :
    Builder.make d sharedResolver options.logs options.startAlias options.joinAlias
        (options.listed?.map (List.map g.ref)) =
      (Builder.make d sharedResolver options.logs options.startAlias options.joinAlias
        options.listed?).map g.builder := by
  unfold Builder.make
  simp only [except_map_bind]
  rfl

variable {rootAt : RootRef → TableRoot}

theorem meaning_newBuilder (m : g.Mirrors s t) {options : BuilderOptions}
    (own : g.builders ⟨s.builders.size⟩ = true) (closed : g.Closed (.newBuilder options)) :
    Agrees g ((Call.newBuilder options).meaning s)
      ((g.call rootAt (.newBuilder options)).meaning t) := by
  simp only [call, Call.meaning, make_builder, except_bind_map]
  cases options.dialect.database with
  | error e => exact .error e
  | ok database =>
    cases make : Builder.make ⟨database, 0⟩ sharedResolver options.logs options.startAlias
      options.joinAlias options.listed? with
    | error e =>
      simp only [bind, Except.bind, make]
      exact .error e
    | ok b =>
      simp only [bind, Except.bind, make]
      obtain ⟨-, -, rfl⟩ := Builder.make_eq_ok.1 make
      exact .ok ⟨m.builders.add_own own ⟨rfl, closed⟩, m.roots, m.queries⟩

/-- A call that the group owns means the same in a session that holds the group alone, where roots
from elsewhere are handed over as values. -/
theorem meaning_own (m : g.Mirrors s t) {c : Call} (own : g.owns s c = true)
    (closed : g.Closed c) (named : ∀ ref, (rootAt ref).aliasName = (s.root ref).aliasName) :
    Agrees g (c.meaning s) ((g.call rootAt c).meaning t) := by
  cases c with
  | aside => cases own
  | newBuilder options => exact meaning_newBuilder m own closed
  | start h e =>
    have own : g.builders h = true := own
    exact m.changeBuilder own (f := fun b => b.plainStart e) (g.plainStart_builder _ e)
      (fun b changed => (Builder.plainStart_ok changed).2 ▸ rfl) (r := .start h) own
  | join h e source targetField typeName =>
    have own : g.builders h = true := own
    have agrees := m.changeBuilder own
      (f := fun b => b.plainJoin e source targetField typeName)
      (g.plainJoin_builder _ e source targetField typeName)
      (fun b changed => by
        obtain ⟨-, _, _, -, -, rfl⟩ := Builder.plainJoin_ok changed
        rfl)
      (r := .joined h (s.builders.get h).joins.length) own
    have joins : (t.builders.get (h.rank g.builders)).joins = (s.builders.get h).joins := by
      rw [m.builder own]
      rfl
    simp only [call, Call.meaning, joins]
    exact agrees
  | roots h =>
    have own : g.builders h = true := own
    have joined : (t.joinRoots (h.rank g.builders)).map (fun ref => (t.root ref).shown) =
        (s.joinRoots h).map fun ref => (s.root ref).shown := by
      simpa [Function.comp_def] using
        congrArg (List.map TableRoot.shown) (m.map_root_joinRoots own)
    have started : (t.startRoot? (h.rank g.builders)).map (fun ref => (t.root ref).shown) =
        (s.startRoot? h).map fun ref => (s.root ref).shown := by
      simpa [Function.comp_def] using
        congrArg (Option.map TableRoot.shown) (m.map_root_startRoot? own)
    simp only [call, Call.meaning, joined, started]
    exact .ok m
  | make h f =>
    have own : g.builders h = true := own
    have made : (f.replace (g.argument rootAt)).make (t.builders.get (h.rank g.builders)).database
        t.root = f.make (s.builders.get h).database s.root := by
      rw [f.make_replace, m.builder own]
      exact f.make_congr _ fun ref _ => m.aliasName_argument named ref
    simp only [call, Call.meaning, made]
    exact .map _ (fun _ _ => rfl) fun _ _ => m
  | newRoot e h dialect => exact .ok ⟨m.builders, m.roots.add_own own rfl, m.queries⟩
  | change ref c =>
    have same := m.root own
    simp only [call, Call.meaning, same]
    exact .map _ (fun _ _ => rfl) fun r _ => m.setRoot own r
  | ask ref question =>
    have same := m.root own
    simp only [call, Call.meaning, same]
    exact .map _ (fun _ _ => rfl) fun _ _ => m
  | newQuery builder? => exact .ok ⟨m.builders, m.roots, m.queries.add_own own ⟨rfl, closed⟩⟩
  | bind h b =>
    have bound : g.Mirrors (s.setQuery h ((s.queries.get h).setBuilder b))
        (t.setQuery (h.rank g.queries) (g.query ((s.queries.get h).setBuilder b))) :=
      m.setQuery own fun _ given => Option.some.inj given ▸ closed
    simp only [call, Call.meaning, m.query own]
    exact .ok bound
  | set h c =>
    simp only [call, Call.meaning, m.query own, apply_query, except_map_map]
    exact .map _ (fun _ _ => rfl) fun q changed => m.setQuery own fun b given =>
      (m.queries.get h own).closed b (apply_builder? changed ▸ given)
  | render h =>
    have read : (g.query (s.queries.get h)).builder?.map t.sources =
        (s.queries.get h).builder?.map s.sources := by
      unfold query
      cases bound : (s.queries.get h).builder? with
      | none => rfl
      | some b => exact congrArg some (m.sources ((m.queries.get h own).closed b bound))
    simp only [call, Call.meaning, m.query own, read]
    exact .map ((s.queries.get h).statement _) (fun _ _ => rfl) fun _ _ => m

/-! Whole runs. -/

theorem owns_bare (s : Session) (c : Call) : g.owns s.bare c = g.owns s c := by
  cases c <;> rfl

theorem quiet_call {c : Call} (own : g.owns s c = true) : (g.call rootAt c).Quiet := by
  cases c with
  | aside => cases own
  | _ => trivial

theorem quiet_alone (s : Session) (calls : List Call) : ∀ c ∈ g.alone s calls, c.Quiet := by
  induction calls generalizing s with
  | nil => exact List.forall_mem_nil _
  | cons c calls ih =>
    dsimp only [alone]
    split
    · next own => exact List.forall_mem_cons.2 ⟨quiet_call own, ih _⟩
    · exact ih _

theorem next_other (sound : s.Sound) (m : g.Mirrors s.bare t.bare) {c : Call}
    (other : g.owns s c = false) : g.Mirrors (s.next c).bare t.bare := by
  rcases next_cases sound c with ⟨a, -, meant⟩ | ⟨e, -, left⟩
  · exact m.meaning_other ((owns_bare s c).trans other) meant
  · exact left ▸ m

theorem after_others (sound : s.Sound) (m : g.Mirrors s.bare t.bare) {calls : List Call}
    (others : g.alone s calls = []) : g.Mirrors (s.after calls).bare t.bare := by
  induction calls generalizing s with
  | nil => exact m
  | cons c calls ih =>
    unfold alone at others
    split at others
    · cases others
    · next other => exact ih (sound.next c) (next_other sound m (by simpa using other)) others

section Runs

variable (soundS : s.Sound) (soundT : t.Sound) (quietS : s.Quiet) (quietT : t.Quiet)
  (m : g.Mirrors s.bare t.bare)

include soundS soundT quietS quietT m

theorem next_own {c : Call} (own : g.owns s c = true) (closed : g.Closed c) :
    s.answer c = t.answer (g.call s.root c) ∧
      g.Mirrors (s.next c).bare (t.next (g.call s.root c)).bare := by
  have named (ref : RootRef) : (s.root ref).aliasName = (s.bare.root ref).aliasName := by
    rw [root_bare, TableRoot.aliasName_bare]
  have agrees := meaning_own m ((owns_bare s c).trans own) closed named
  generalize shared : c.meaning s.bare = x, alone : (g.call s.root c).meaning t.bare = y at agrees
  cases agrees with
  | ok m =>
    obtain ⟨given, left⟩ := next_ok soundS quietS shared
    obtain ⟨given', left'⟩ := next_ok soundT quietT alone
    exact ⟨given.trans given'.symm, left ▸ left' ▸ m⟩
  | error e =>
    obtain ⟨failed, left⟩ := next_error soundS quietS shared
    obtain ⟨failed', left'⟩ := next_error soundT quietT alone
    exact ⟨failed.trans failed'.symm, left ▸ left' ▸ m⟩

theorem after_confined {calls : List Call} (harmless : ∀ c ∈ calls, c.Quiet)
    (confined : g.Confined s calls) :
    g.answers s calls = t.answers (g.alone s calls) ∧
      g.Mirrors (s.after calls).bare (t.after (g.alone s calls)).bare := by
  -- `t` takes a step with `s` at each call of the group, and rests at every other.
  induction calls generalizing s t with
  | nil => exact ⟨rfl, m⟩
  | cons c calls ih =>
    obtain ⟨first, rest⟩ := List.forall_mem_cons.1 harmless
    obtain ⟨closed, confined⟩ := confined
    unfold Group.answers alone
    by_cases own : g.owns s c = true
    · obtain ⟨same, m⟩ := next_own soundS soundT quietS quietT m own (closed own)
      obtain ⟨others, left⟩ := ih (soundS.next c) (soundT.next _) (quietS.next first)
        (quietT.next (quiet_call own)) m rest confined
      rw [if_pos own, if_pos own, Session.answers, same, others]
      exact ⟨rfl, left⟩
    · have other : g.owns s c = false := by simpa using own
      rw [if_neg own, if_neg own]
      exact ih (soundS.next c) soundT (quietS.next first) quietT (next_other soundS m other) rest
        confined

end Runs

theorem bare_render (sound : s.Sound) (k : Handle .query) :
    (s.next (.render k)).bare = s.bare := by
  rcases next_cases sound (.render k) with ⟨a, -, meant⟩ | ⟨e, -, left⟩
  · obtain ⟨sql, -, same⟩ := except_map_eq_ok.1 meant
    exact (Prod.mk.inj same).2.symm
  · exact left

/-- Objects that share resolvers do not interfere. Over any run without a listener who refuses
names, the calls that work on a group of builders, roots and queries are answered as when they are
made alone and in the same order over one fresh resolver. Two statements of a query of the group
are the same, or fail with the same error, if no call on the group lies between them. -/
theorem answers_shared_eq_alone (g : Group) (calls : List Call) (harmless : ∀ c ∈ calls, c.Quiet)
    (confined : g.Confined initial calls) :
    let s := initial.after calls
    g.answers initial calls = initial.answers (g.alone initial calls) ∧
    ∀ (k : Handle .query) (between : List Call), g.queries k = true →
      (∀ c ∈ between, c.Quiet) → g.alone (s.next (.render k)) between = [] →
      ((s.next (.render k)).after between).answer (.render k) = s.answer (.render k) := by
  intro s
  obtain ⟨same, m⟩ := after_confined sound_initial sound_initial quiet_initial quiet_initial
    mirrors_initial harmless confined
  refine ⟨same, fun k between own harmlessBetween others => ?_⟩
  have sound : s.Sound := sound_after calls
  have quiet : s.Quiet := quiet_after harmless
  let t := initial.after (g.alone initial calls)
  have soundT : t.Sound := sound_after _
  have quietT : t.Quiet := quiet_after (quiet_alone initial calls)
  -- Both statements are compared with the one that the group would get alone at this point.
  have rendered : g.Mirrors (s.next (.render k)).bare t.bare := bare_render sound k ▸ m
  have later := after_others (sound.next _) rendered others
  have quietLater := (quiet.next (c := .render k) trivial).after harmlessBetween
  have first := (next_own sound soundT quiet quietT m (c := .render k) own trivial).1
  have second := (next_own ((sound.next _).after between) soundT quietLater quietT later
    (c := .render k) own trivial).1
  calc
    ((s.next (.render k)).after between).answer (.render k) =
        t.answer (.render (k.rank g.queries)) := second
    _ = s.answer (.render k) := first.symm

/-- Of two builders on one resolver the second is handed the root of the first and has a query. The
names and the dialects are cleared while it works and between two statements of its query. -/
theorem second_builder_unaffected :
    let options : BuilderOptions := ⟨.named "mysql", sharedResolver, false, "m", "j", none⟩
    let user : Entity := .base ⟨1, "User", some "users", [⟨"id", none⟩]⟩
    let order : Entity := .base ⟨2, "Order", none, [⟨"userId", none⟩]⟩
    let first : TableRoot := ⟨order, sharedResolver, ⟨.mysql, 0⟩, some "m", none⟩
    let g : Group := ⟨fun h => h = ⟨1⟩, fun _ => false, fun h => h = ⟨0⟩⟩
    let calls : List Call := [.newBuilder options, .newBuilder options, .start ⟨0⟩ order,
      .start ⟨1⟩ user, .aside (.column sharedResolver user "id"), .ask (.start ⟨1⟩) .table,
      .aside (.clear sharedResolver), .ask (.start ⟨1⟩) (.column "id" none), .aside .clearDialects,
      .make ⟨1⟩ (.all (.here (.start ⟨0⟩))), .newQuery (some ⟨1⟩),
      .set ⟨0⟩ (.selection (.raw "SELECT m.id FROM "))]
    let alone : List Call := [.newBuilder options, .start ⟨0⟩ user, .ask (.start ⟨0⟩) .table,
      .ask (.start ⟨0⟩) (.column "id" none), .make ⟨0⟩ (.all (.given first)), .newQuery (some ⟨0⟩),
      .set ⟨0⟩ (.selection (.raw "SELECT m.id FROM "))]
    let between : List Call := [.ask (.start ⟨0⟩) .table, .aside (.clear sharedResolver),
      .aside (.table sharedResolver order), .aside .clearDialects]
    let s := initial.after calls
    g.alone initial calls = alone ∧ g.Confined initial calls ∧
      g.answers initial calls = initial.answers alone ∧
      g.alone (s.next (.render ⟨0⟩)) between = [] ∧
      ((s.next (.render ⟨0⟩)).after between).answer (.render ⟨0⟩) = s.answer (.render ⟨0⟩) := by
  intro options user order first g calls alone between s
  have own : g.alone initial calls = alone := by cbv
  have confined : g.Confined initial calls := by simp [Confined, Closed, calls, options, g]
  have others : g.alone ((initial.after calls).next (.render ⟨0⟩)) between = [] := rfl
  obtain ⟨same, renders⟩ :=
    answers_shared_eq_alone g calls (by simp [calls, Call.Quiet]) confined
  exact ⟨own, confined, own ▸ same, others,
    renders ⟨0⟩ between rfl (by simp [between, Call.Quiet]) others⟩

end Group

end SqlSelect.Session
