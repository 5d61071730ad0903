import SqlSelect.Proofs.Dialect.Pool
import SqlSelect.Proofs.Session.Failures

/-!
Dialects as objects over the runs of a session. Calls that ask for the shared dialect of a database
get the same one until the pool is cleared, a dialect that is made for one call is never handed out
again, and a builder keeps the dialect that it was made with.
-/
namespace SqlSelect

/-- What a choice that is left to the pool chooses. -/
inductive DialectChoice.Chooses : DialectChoice → Database → Prop
  | standard : Chooses .standard .postgresql
  | named {name : String} {database : Database} (named : database.Named name) :
      Chooses (.named name) database

/-- The builder keeps the dialect that it was made with. -/
def Workbench.KeepsDialect (w : Workbench) (_ : List Entry) (left : Workbench) : Prop :=
  left.builder.dialect = w.builder.dialect

instance : Action.Composes Workbench.KeepsDialect where
  refl _ := rfl
  trans first second := second.trans first

theorem Builder.keepsDialect_declareStart (e : Entity) :
    (declareStart e).Ensures Workbench.KeepsDialect :=
  declareStart_ensures e (fun _ _ _ => rfl) fun _ _ _ _ _ => rfl

theorem Builder.keepsDialect_declareJoin (e : Entity) (source : Column)
    (targetField typeName : String) :
    (declareJoin e source targetField typeName).Ensures Workbench.KeepsDialect :=
  declareJoin_ensures e source targetField typeName (fun _ _ _ => rfl) (fun _ _ _ => rfl)
    fun _ _ _ _ _ => rfl

namespace Session

/-- The call gets the dialect that the pool shares for the database. -/
inductive Shares (s : Session) : Call → Database → Dialect → Prop
  | get {name : String} {database : Database} {d : Dialect} (named : database.Named name)
      (result : ((sharedDialect name).run s).result = .ok d) :
      Shares s (.aside (.sharedDialect name)) database d
  | build {options : BuilderOptions} {database : Database} {h : Handle .builder}
      (chosen : options.dialect.Chooses database)
      (made : ((newBuilder options).run s).result = .ok h) :
      Shares s (.newBuilder options) database
        ((s.next (.newBuilder options)).builders.get h).dialect

/-- The call gets a dialect for the database that is made for it. -/
inductive Creates (s : Session) : Call → Database → Dialect → Prop
  | intro {name : String} {database : Database} {d : Dialect} (named : database.Named name)
      (result : ((freshDialect name).run s).result = .ok d) :
      Creates s (.aside (.freshDialect name)) database d

/-- The name of the database that a call asks for. -/
def Call.typeName? : Call → Option String
  | aside (.sharedDialect name) | aside (.freshDialect name) => some name
  | newBuilder options =>
    match options.dialect with
    | .named name => some name
    | .standard | .given _ => none
  | _ => none

/-- What can happen to dialects while the pool is not cleared. -/
structure KeepsDialects (s : Session) (_ : List Entry) (t : Session) : Prop where
  pool : s.pool.Grows t.pool
  size : s.builders.size ≤ t.builders.size
  builders : ∀ h : Handle .builder, h.index < s.builders.size →
    (t.builders.get h).dialect = (s.builders.get h).dialect

instance : Action.Composes KeepsDialects where
  refl s := ⟨.refl s.pool, Nat.le_refl _, fun _ _ => rfl⟩
  trans first second := ⟨first.pool.trans second.pool, Nat.le_trans first.size second.size,
    fun h given => (second.builders h (Nat.lt_of_lt_of_le given first.size)).trans
      (first.builders h given)⟩

namespace KeepsDialects

variable {α : Type}

theorem of_eq {s t : Session} {journal : List Entry} (pool : t.pool = s.pool)
    (builders : t.builders = s.builders) : KeepsDialects s journal t :=
  ⟨pool ▸ .refl _, builders ▸ Nat.le_refl _, fun _ _ => by rw [builders]⟩

theorem of_onlyResolvers {s t : Session} {journal : List Entry}
    (only : OnlyResolvers s journal t) : KeepsDialects s journal t :=
  of_eq (by rw [only]) (by rw [only])

theorem onPool {a : Action DialectPool α}
    (grows : ∀ loggers (p : DialectPool), p.Grows (a.runWith loggers p).state) :
    (Session.onPool a).Ensures KeepsDialects :=
  fun loggers s => ⟨grows loggers s.pool, Nat.le_refl _, fun _ _ => rfl⟩

theorem onResolvers (a : Action Resolvers α) : (Session.onResolvers a).Ensures KeepsDialects :=
  fun _ _ => of_eq rfl rfl

theorem sharedDialect (name : String) : (Session.sharedDialect name).Ensures KeepsDialects :=
  onPool fun loggers p => p.grows_named (p.grows_sharedDialect loggers) name

theorem freshDialect (name : String) : (Session.freshDialect name).Ensures KeepsDialects :=
  onPool fun loggers p => p.grows_named (p.grows_freshDialect loggers) name

theorem aside {a : Aside} (keeps : a ≠ .clearDialects) : a.act.Ensures KeepsDialects := by
  have number : Session.number.Ensures KeepsDialects := fun _ _ => of_eq rfl rfl
  cases a with
  | entity => exact .map (.bind number fun _ => .lift _) _
  | newResolver => exact fun _ _ => of_eq rfl rfl
  | table | column | clear | unlisten => exact .map (onResolvers _) _
  | listen => exact .map (.bind number fun _ => .bind (onResolvers _) fun _ => .pure _) _
  | sharedDialect name => exact .map (sharedDialect name) _
  | freshDialect name => exact .map (freshDialect name) _
  | clearDialects => exact absurd rfl keeps

theorem chooseDialect (choice : DialectChoice) :
    (Session.chooseDialect choice).Ensures KeepsDialects := by
  cases choice with
  | standard => exact onPool fun loggers p => p.grows_sharedDialect loggers _
  | named name => exact sharedDialect name
  | given d => exact .pure d

theorem addBuilder (b : Builder) : (do
    let (h, builders) := (← Action.get).builders.add b
    Action.modify fun s => { s with builders := builders }
    return h : Action Session (Handle .builder)).Ensures KeepsDialects := by
  intro loggers s
  refine ⟨.refl _, Nat.le_succ _, fun h given => ?_⟩
  have old : h ≠ ⟨s.builders.size⟩ := by
    rintro rfl
    exact Nat.lt_irrefl _ given
  exact congrArg Builder.dialect (Store.get_set_of_ne _ old b)

theorem of_set {s t : Session} {journal : List Entry} {h : Handle .builder} {b : Builder}
    (pool : t.pool = s.pool) (builders : t.builders = s.builders.set h b)
    (same : b.dialect = (s.builders.get h).dialect) : KeepsDialects s journal t := by
  refine ⟨pool ▸ .refl _, builders ▸ Nat.le_refl _, fun k _ => ?_⟩
  rw [builders]
  by_cases own : k = h
  · subst own
    rw [Store.get_set_self]
    exact same
  · rw [Store.get_set_of_ne _ own]

theorem onBuilder (h : Handle .builder) {a : Action Workbench α}
    (keeps : a.Ensures Workbench.KeepsDialect) : (Session.onBuilder h a).Ensures KeepsDialects :=
  fun loggers s => of_set rfl rfl (keeps loggers ⟨s.builders.get h, s.resolvers⟩)

theorem changeRoot (ref : RootRef) (f : TableRoot → Except QueryError TableRoot) :
    (Session.changeRoot ref f).Ensures KeepsDialects := by
  intro loggers s
  rw [runWith_changeRoot]
  split
  · cases ref with
    | start h => exact of_set rfl rfl rfl
    | joined h i => exact of_set rfl rfl rfl
    | loose h => exact of_eq rfl rfl
  · exact of_eq rfl rfl

theorem call {c : Call} (keeps : c ≠ .aside .clearDialects) : c.act.Ensures KeepsDialects := by
  have root (ref : RootRef) : (rootAt ref).Ensures KeepsDialects := fun _ _ => of_eq rfl rfl
  have shown (ref : RootRef) : (showRoot ref).Ensures KeepsDialects := .map (root ref) _
  have builder (h : Handle .builder) : (Session.builder h).Ensures KeepsDialects :=
    fun _ _ => of_eq rfl rfl
  have changeQuery (h : Handle .query) (f : Query → Except QueryError Query) :
      (Session.changeQuery h f).Ensures KeepsDialects :=
    .bind (fun _ _ => of_eq rfl rfl) fun _ => .bind (.lift _) fun _ _ _ => of_eq rfl rfl
  cases c with
  | aside a => exact aside fun same => keeps (congrArg Call.aside same)
  | newBuilder options =>
    exact .map (.bind (chooseDialect _) fun _ => .bind (.lift _) fun b => addBuilder b) _
  | start h e =>
    rw [act_start]
    exact .bind (onBuilder h (Builder.keepsDialect_declareStart e)) fun _ => shown _
  | join h e source targetField typeName =>
    exact .bind (.bind (builder h) fun _ => .bind
      (onBuilder h (Builder.keepsDialect_declareJoin e source targetField typeName))
      fun _ => .pure _) shown
  | roots h => exact .bind .get fun _ => .pure _
  | make h f => exact .bind (builder h) fun _ => .bind .get fun _ => .lift _
  | newRoot e h dialect => exact fun _ _ => of_eq rfl rfl
  | change ref c => exact .map (c.act_eq ref ▸ changeRoot ref c.apply) _
  | ask ref question => exact .mono (OnlyResolvers.question ref question) of_onlyResolvers
  | newQuery builder? => exact fun _ _ => of_eq rfl rfl
  | bind h builder => exact act_bind h builder ▸ .map (changeQuery h _) _
  | set h c => exact act_set h c ▸ .map (changeQuery h c.apply) _
  | render h => exact .map (.mono (OnlyResolvers.render h) of_onlyResolvers) _

end KeepsDialects

section Runs

variable {s : Session}

theorem later_next (s : Session) (c : Call) : s.pool.Later (s.next c).pool := by
  by_cases clears : c = .aside .clearDialects
  · subst clears
    exact s.pool.later_clear
  · exact ((KeepsDialects.call clears).run s).pool.toLater

theorem later_after (s : Session) (calls : List Call) : s.pool.Later (s.after calls).pool :=
  after_induction (P := fun t => s.pool.Later t.pool) (DialectPool.Grows.refl s.pool).toLater
    (fun t c later => later.trans (later_next t c)) calls

/-- Without a call that clears it the pool goes on sharing what it shares. -/
theorem grows_after {calls : List Call} (kept : .aside .clearDialects ∉ calls) :
    s.pool.Grows (s.after calls).pool := by
  induction calls generalizing s with
  | nil => exact .refl _
  | cons c calls ih =>
    obtain ⟨keeps, rest⟩ := not_or.1 (mt List.mem_cons.2 kept)
    exact ((KeepsDialects.call (Ne.symm keeps)).run s).pool.trans (ih rest)

theorem numbered_after (calls : List Call) : (initial.after calls).pool.Numbered := by
  have start : initial.pool.Numbered := fun _ _ shared => nomatch shared
  exact start.later (later_after initial calls)

/-- Once the pool has been cleared, what it shared before is gone. -/
theorem gone_after_clear {calls : List Call} {d : Dialect} (numbered : s.pool.Numbered)
    (shared : s.pool.shared? d.database = some d) (cleared : .aside .clearDialects ∈ calls) :
    (s.after calls).pool.Gone d := by
  induction calls generalizing s with
  | nil => cases cleared
  | cons c calls ih =>
    by_cases clears : c = .aside .clearDialects
    · subst clears
      have later := later_after (s.next (.aside .clearDialects)) calls
      exact (numbered.gone_clear shared).later later
    · have grows := ((KeepsDialects.call clears).run s).pool
      have rest := (List.mem_cons.1 cleared).resolve_left (Ne.symm clears)
      exact ih (numbered.later grows.toLater) (grows.kept _ _ shared) rest

theorem run_chosen {choice : DialectChoice} {database : Database}
    (chosen : choice.Chooses database) :
    (chooseDialect choice).run s = (onPool (DialectPool.sharedDialect database)).run s := by
  cases chosen with
  | standard => rfl
  | named named =>
    rw [chooseDialect, sharedDialect, DialectPool.sharedNamed_of_named named]

theorem Shares.shared {c : Call} {database : Database} {d : Dialect} (sound : s.pool.Sound)
    (shares : Shares s c database d) :
    d.database = database ∧ (s.next c).pool.shared? database = some d := by
  cases shares with
  | @get name _ _ named result =>
    have run := run_chosen (s := s) (.named named)
    rw [chooseDialect] at run
    rw [run] at result
    obtain ⟨shared, same⟩ := DialectPool.shared_of_result sound result
    refine ⟨same, ?_⟩
    rw [next, Call.act, Aside.act, done, Action.run_map, Outcome.state_map, run]
    exact shared
  | @build options _ h chosen made =>
    obtain ⟨-, -, -, pool, dialect, result, held⟩ := newBuilder_ok made
    rw [run_chosen chosen] at result pool
    obtain ⟨shared, same⟩ := DialectPool.shared_of_result sound result
    rw [next_newBuilder, pool, held]
    exact ⟨same, shared⟩

theorem Shares.keeps {c : Call} {database : Database} {d : Dialect}
    (shares : Shares s c database d) : c ≠ .aside .clearDialects := by
  cases shares <;> exact nofun

/-- A dialect that is made for a call has the next number and is not shared. -/
theorem Creates.created {c : Call} {database : Database} {d : Dialect}
    (numbered : s.pool.Numbered) (creates : Creates s c database d) :
    d = ⟨database, s.pool.issued⟩ ∧ (s.next c).pool.Gone d := by
  obtain @⟨name, _, _, named, result⟩ := creates
  have run : (freshDialect name).run s = (onPool (DialectPool.freshDialect database)).run s := by
    rw [freshDialect, DialectPool.freshNamed_of_named named]
  rw [run] at result
  obtain rfl := Except.ok.inj result
  rw [next, Call.act, Aside.act, done, Action.run_map, Outcome.state_map, run]
  refine ⟨rfl, Nat.lt_succ_self _, fun other shared => ?_⟩
  exact Nat.lt_irrefl _ (numbered other _ shared)

/-- A call that asks for a database by a name that none has changes nothing. -/
theorem run_unnamed {c : Call} {name : String} (asks : c.typeName? = some name)
    (unnamed : ∀ database : Database, ¬ database.Named name) :
    c.act.run s = ⟨s, [], .error (.databaseUnknown name)⟩ := by
  have shared : (sharedDialect name).run s = ⟨s, [], .error (.databaseUnknown name)⟩ := by
    rw [sharedDialect, DialectPool.sharedNamed, DialectPool.database_of_unnamed unnamed]
    rfl
  cases c with
  | aside a =>
    cases a with
    | sharedDialect other =>
      cases asks
      rw [Call.act, Aside.act, done, Action.run_map, shared]
      rfl
    | freshDialect other =>
      cases asks
      have fresh : (freshDialect name).run s = ⟨s, [], .error (.databaseUnknown name)⟩ := by
        rw [freshDialect, DialectPool.freshNamed, DialectPool.database_of_unnamed unnamed]
        rfl
      rw [Call.act, Aside.act, done, Action.run_map, fresh]
      rfl
    | _ => cases asks
  | newBuilder options =>
    rw [Call.typeName?] at asks
    split at asks
    · next other choice =>
      cases asks
      have chosen : (chooseDialect options.dialect).run s = (sharedDialect name).run s := by
        rw [choice]
        rfl
      rw [Call.act, done, Action.run_map, newBuilder, Action.run_bind_error (chosen.trans shared)]
      rfl
    · cases asks
    · cases asks
  | _ => cases asks

/-- A builder keeps its dialect, also while the pool is cleared. -/
theorem dialect_after {h : Handle .builder} (given : h.index < s.builders.size)
    (calls : List Call) :
    ((s.after calls).builders.get h).dialect = (s.builders.get h).dialect := by
  induction calls generalizing s with
  | nil => rfl
  | cons c calls ih =>
    by_cases clears : c = .aside .clearDialects
    · subst clears
      exact ih given
    · have kept := (KeepsDialects.call clears).run s
      exact (ih (Nat.lt_of_lt_of_le given kept.size)).trans (kept.builders h given)

end Runs

/-- Calls that ask for the shared dialect of a database, or build from it, get the same one exactly
if they ask for the same database and the pool is not cleared between them. A dialect that is made
for one call is handed out by no other, before or later. Every dialect is for the database that was
asked for, by any of its names; under a name that no database has nothing is handed out and nothing
changes. A builder has the dialect that was chosen for it, whatever becomes of the pool. -/
theorem dialects_shared_until_cleared (before between : List Call) (c c' : Call) :
    let s := initial.after before
    let t := (s.next c).after between
    (∀ database database' d d', Shares s c database d → Shares t c' database' d' →
      (d = d' ↔ database = database' ∧ .aside .clearDialects ∉ between)) ∧
    (∀ database database' d d', Creates s c database d →
      Shares t c' database' d' ∨ Creates t c' database' d' → d ≠ d') ∧
    (∀ database database' d d', Shares s c database d → Creates t c' database' d' → d ≠ d') ∧
    (∀ database d, Shares s c database d ∨ Creates s c database d → d.database = database) ∧
    (∀ (database : Database) name, database.Named name →
      (∃ d, Shares s (.aside (.sharedDialect name)) database d) ∧
        ∃ d, Creates s (.aside (.freshDialect name)) database d) ∧
    (∀ name, (∀ database : Database, ¬ database.Named name) → c.typeName? = some name →
      s.answer c = .error (.databaseUnknown name) ∧ s.next c = s) ∧
    ∀ options h, c = .newBuilder options → ((newBuilder options).run s).result = .ok h →
      ((chooseDialect options.dialect).run s).result = .ok (t.builders.get h).dialect := by
  intro s t
  have sound : s.Sound := sound_after before
  have soundT : t.Sound := (sound.next c).after between
  have numbered : s.pool.Numbered := numbered_after before
  have numberedNext := numbered.later (later_next s c)
  have later : (s.next c).pool.Later t.pool := later_after _ between
  have numberedT := numberedNext.later later
  refine ⟨?_, ?_, ?_, ?_, ?_, ?_, ?_⟩
  · intro _ _ d d' first second
    obtain ⟨rfl, shared⟩ := first.shared sound.pool
    obtain ⟨rfl, shared'⟩ := second.shared soundT.pool
    constructor
    · rintro rfl
      refine ⟨rfl, fun cleared => ?_⟩
      have gone := gone_after_clear numberedNext shared cleared
      exact (gone.later (later_next t c')).unshared _ shared'
    · rintro ⟨same, kept⟩
      have grows := (grows_after kept).trans ((KeepsDialects.call second.keeps).run t).pool
      have still := grows.kept _ _ shared
      rw [same] at still
      exact Option.some.inj (still.symm.trans shared')
  · rintro _ _ d d' first (second | second) rfl
    · obtain ⟨-, gone⟩ := first.created numbered
      obtain ⟨-, shared⟩ := second.shared soundT.pool
      exact ((gone.later later).later (later_next t c')).unshared _ shared
    · obtain ⟨-, gone⟩ := first.created numbered
      obtain ⟨rfl, -⟩ := second.created numberedT
      exact Nat.lt_irrefl _ (gone.later later).made
  · rintro _ _ d d' first second rfl
    obtain ⟨-, shared⟩ := first.shared sound.pool
    obtain ⟨rfl, -⟩ := second.created numberedT
    exact Nat.lt_irrefl _ (Nat.lt_of_lt_of_le (numberedNext _ _ shared) later.issued)
  · rintro _ d (shares | creates)
    · exact (shares.shared sound.pool).1
    · obtain ⟨rfl, -⟩ := creates.created numbered
      rfl
  · intro database name named
    obtain ⟨-, d, result, -⟩ := sound.pool.sharedDialect database
    refine ⟨⟨d, .get named ?_⟩, ⟨database, s.pool.issued⟩, .intro named ?_⟩
    · rw [sharedDialect, DialectPool.sharedNamed_of_named named]
      exact result
    · rw [freshDialect, DialectPool.freshNamed_of_named named]
      rfl
  · intro name unnamed asks
    have run := run_unnamed (s := s) asks unnamed
    exact ⟨congrArg Outcome.result run, congrArg Outcome.state run⟩
  · rintro options h rfl made
    obtain ⟨-, -, given, -, dialect, chosen, held⟩ := newBuilder_ok made
    rw [← next_newBuilder] at given held
    rw [chosen, dialect_after given between, held]

end Session

end SqlSelect
