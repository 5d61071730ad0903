import SqlSelect.Proofs.Session.Bare
import SqlSelect.Proofs.Session.Changes

/-!
What each call means on a bare session: its answer and the session behind it when every name is
read from its entity, or the one error it ends with. A call on a session does what it means, with
whatever the resolvers remember, unless a listener refuses a name; then, as after every error, the
bare session is the one before the call.
-/
namespace SqlSelect

theorem except_map_map {α β γ : Type} (x : Except QueryError α) (f : α → β) (g : β → γ) :
    (x.map f).map g = x.map fun a => g (f a) := by
  cases x <;> rfl

def DialectChoice.database : DialectChoice → Except QueryError Database
  | standard => .ok Builder.defaultDatabase
  | named name => DialectPool.database name
  | given d => .ok d.database

namespace Session

def setBuilder (s : Session) (h : Handle .builder) (b : Builder) : Session :=
  { s with builders := s.builders.set h b }

def setQuery (s : Session) (h : Handle .query) (q : Query) : Session :=
  { s with queries := s.queries.set h q }

def Aside.reply : Aside → Except QueryError Answer
  | entity name table? definitions parent? =>
    (Entity.define 0 name table? definitions parent?).map fun _ => .done
  | table _ e => .ok (.text e.tableName)
  | column _ e field => (e.columnOf field).map .text
  | sharedDialect name | freshDialect name => (DialectPool.database name).map fun _ => .done
  | newResolver _ | clear _ | listen _ _ _ _ | unlisten _ _ | clearDialects => .ok .done

def Question.reply (r : TableRoot) : Question → Except QueryError Answer
  | shown => .ok (.root r.shown)
  | aliasName => r.aliasName.map .text
  | table => .ok (.text r.entity.tableName)
  | all => r.all.map .column
  | column field name? => (r.plainColumn field name?).map .column
  | count field name? => (r.plainCount field name?).map .column
  | formatDate field pattern name? => (r.plainFormatDate field pattern name?).map .column

def Call.meaning (s : Session) : Call → Except QueryError (Answer × Session)
  | aside a => a.reply.map (·, s)
  | newBuilder options => do
    let database ← options.dialect.database
    let b ← Builder.make ⟨database, 0⟩ sharedResolver options.logs options.startAlias
      options.joinAlias options.listed?
    return (.done, { s with builders := (s.builders.add b).2 })
  | start h e => ((s.builders.get h).plainStart e).map fun b =>
    let t := s.setBuilder h b
    (.root (t.root (.start h)).shown, t)
  | join h e source targetField typeName =>
    ((s.builders.get h).plainJoin e source targetField typeName).map fun b =>
      let t := s.setBuilder h b
      (.root (t.root (.joined h (s.builders.get h).joins.length)).shown, t)
  | roots h => .ok (.roots ((s.startRoot? h).map fun ref => (s.root ref).shown)
      ((s.joinRoots h).map fun ref => (s.root ref).shown), s)
  | make h f => (f.make (s.builders.get h).database s.root).map (·, s)
  | newRoot e h dialect =>
    .ok (.done, { s with roots := (s.roots.add (TableRoot.fresh e h dialect).bare).2 })
  | change ref c => (c.apply (s.root ref)).map fun r => (.done, s.setRoot ref r)
  | ask ref question => (question.reply (s.root ref)).map (·, s)
  | newQuery builder? => .ok (.done, { s with queries := (s.queries.add (.fresh builder?)).2 })
  | bind h builder => .ok (.done, s.setQuery h ((s.queries.get h).setBuilder builder))
  | set h c => (c.apply (s.queries.get h)).map fun q => (.done, s.setQuery h q)
  | render h => ((s.queries.get h).statement ((s.queries.get h).builder?.map s.sources)).map
      fun sql => (.text sql, s)

end Session

namespace DialectPool

/-- The pool gives out for each database a dialect of that database. -/
def Sound (p : DialectPool) : Prop :=
  ∀ database d, p.shared? database = some d → d.database = database

theorem sound_clear (p : DialectPool) : p.clear.Sound := by
  intro database d shared
  cases shared

theorem Sound.sharedDialect {p : DialectPool} (sound : p.Sound) (database : Database) :
    let o := (DialectPool.sharedDialect database).run p
    o.state.Sound ∧ ∃ d, o.result = .ok d ∧ d.database = database := by
  simp only [DialectPool.sharedDialect, Action.run, Action.runWith]
  cases known : p.shared? database with
  | some d => exact ⟨sound, d, rfl, sound _ _ known⟩
  | none =>
    refine ⟨?_, ⟨database, p.issued⟩, rfl, rfl⟩
    intro other d shared
    dsimp only [share, issue] at shared
    split at shared
    · next same => exact Option.some.inj shared ▸ same.symm
    · exact sound _ _ shared

theorem Sound.sharedNamed {p : DialectPool} (sound : p.Sound) (name : String) :
    let o := (DialectPool.sharedNamed name).run p
    o.state.Sound ∧ o.result.map Dialect.database = DialectPool.database name := by
  unfold DialectPool.sharedNamed
  cases DialectPool.database name with
  | error e => exact ⟨sound, rfl⟩
  | ok database =>
    obtain ⟨kept, d, result, same⟩ := sound.sharedDialect database
    exact ⟨kept, (congrArg _ result).trans (congrArg _ same)⟩

end DialectPool

namespace Session

structure Sound (s : Session) : Prop where
  names : s.resolvers.Coherent
  pool : s.pool.Sound

/-- How an outcome on `s` agrees with what is meant by its call. -/
inductive Follows (s : Session) (o : Outcome Session Answer) :
    Except QueryError (Answer × Session) → Prop
  | done {a : Answer} {t : Session} (result : o.result = .ok a) (left : o.state.bare = t) :
      Follows s o (.ok (a, t))
  | failed {e : QueryError} (result : o.result = .error e) (left : o.state.bare = s.bare) :
      Follows s o (.error e)
  | refused {x : Except QueryError (Answer × Session)} {message : String}
      (refuses : s.resolvers.Refuses message) (result : o.result = .error (.refused message))
      (left : o.state.bare = s.bare) : Follows s o x

structure Refines (s : Session) (o : Outcome Session Answer)
    (x : Except QueryError (Answer × Session)) : Prop where
  sound : o.state.Sound
  follows : Follows s o x

namespace Refines

variable {s : Session} {α : Type}

/-- Calls that change no object. -/
theorem still {o : Outcome Session Answer} {x : Except QueryError Answer}
    (sound : o.state.Sound) (left : o.state.bare = s.bare) (result : o.result = x) :
    Refines s o (x.map (·, s.bare)) := by
  refine ⟨sound, ?_⟩
  cases x with
  | error e => exact .failed result left
  | ok a => exact .done result left

/-- Calls that look names up for their answers and change no object. -/
theorem look (sound : s.Sound) {a : Action Resolvers α} {x : Except QueryError α}
    (h : Computes a x) (f : α → Answer) {asked : Action Session α}
    (run : asked.run s = (onResolvers a).run s) :
    Refines s ((f <$> asked).run s) (x.map fun y => (f y, s.bare)) := by
  obtain ⟨coherent, -, ends⟩ := h s.resolvers sound.names
  rw [Action.run_map, run, run_onResolvers]
  refine ⟨⟨coherent, sound.pool⟩, ?_⟩
  rcases ends with same | ⟨message, refuses, refused⟩
  · cases x with
    | error e => exact .failed (by rw [Outcome.result_map, same]; rfl) rfl
    | ok y => exact .done (by rw [Outcome.result_map, same]; rfl) rfl
  · exact .refused refuses (by rw [Outcome.result_map, refused]; rfl) rfl

/-- Calls that change a builder and show a root of the session behind them. -/
theorem changeBuilder (sound : s.Sound) (h : Handle .builder)
    (f : Builder → Action Resolvers Builder) {x : Except QueryError Builder}
    (computes : Computes (f (s.builders.get h)) x) (ref : RootRef) :
    Refines s ((Session.changeBuilder h f >>= fun _ => showRoot ref).run s)
      ((x.map Builder.bare).map fun b =>
        let t := s.bare.setBuilder h b
        (.root (t.root ref).shown, t)) := by
  obtain ⟨coherent, -, ends⟩ := computes s.resolvers sound.names
  have run := run_changeBuilder h f s
  rcases o : (f (s.builders.get h)).run s.resolvers with ⟨names, journal, result⟩
  rw [o] at run coherent ends
  have bare (b : Builder) : { s with resolvers := names, builders := s.builders.set h b }.bare =
      s.bare.setBuilder h b.bare := bare_setBuilder s h b
  cases result with
  | error e =>
    rw [Action.run_bind_error run]
    refine ⟨⟨coherent, sound.pool⟩, ?_⟩
    rcases ends with same | ⟨message, refuses, refused⟩
    · exact same ▸ .failed rfl rfl
    · exact .refused refuses (congrArg _ (Except.error.inj refused)) rfl
  | ok b =>
    rw [Action.run_bind_ok run]
    refine ⟨⟨coherent, sound.pool⟩, ?_⟩
    rcases ends with same | ⟨message, -, refused⟩
    · dsimp only at same
      rw [← same]
      refine .done ?_ (bare b)
      rw [← bare, root_bare, TableRoot.shown_bare]
      rfl
    · cases refused

theorem changeRoot (sound : s.Sound) (ref : RootRef)
    {f : TableRoot → Except QueryError TableRoot}
    (commutes : f (s.root ref).bare = (f (s.root ref)).map TableRoot.bare) :
    Refines s ((Session.done (Session.changeRoot ref f)).run s)
      ((f (s.bare.root ref)).map fun r => (.done, s.bare.setRoot ref r)) := by
  rw [Session.done, Action.run_map, run_changeRoot, root_bare, commutes]
  cases f (s.root ref) with
  | error e => exact ⟨sound, .failed rfl rfl⟩
  | ok r =>
    refine ⟨?_, .done rfl (s.setRoot_bare ref r)⟩
    cases ref <;> exact ⟨sound.names, sound.pool⟩

theorem changeQuery (sound : s.Sound) (h : Handle .query) (f : Query → Except QueryError Query) :
    Refines s ((Session.done (Session.changeQuery h f)).run s)
      ((f (s.bare.queries.get h)).map fun q => (.done, s.bare.setQuery h q)) := by
  have same : s.bare.queries = s.queries := rfl
  rw [Session.done, Action.run_map, run_changeQuery, same]
  cases f (s.queries.get h) with
  | error e => exact ⟨sound, .failed rfl rfl⟩
  | ok q => exact ⟨⟨sound.names, sound.pool⟩, .done rfl rfl⟩

end Refines

/-! Creation of objects, and calls that have none. -/

theorem run_onPool {α : Type} (a : Action DialectPool α) (s : Session) :
    (onPool a).run s = ⟨{ s with pool := (a.run s.pool).state }, (a.run s.pool).journal,
      (a.run s.pool).result⟩ := rfl

theorem run_chooseDialect {s : Session} (sound : s.pool.Sound) (choice : DialectChoice) :
    let o := (chooseDialect choice).run s
    o.state = { s with pool := o.state.pool } ∧ o.state.pool.Sound ∧
      o.result.map Dialect.database = choice.database := by
  cases choice with
  | standard =>
    obtain ⟨kept, d, result, same⟩ := sound.sharedDialect Builder.defaultDatabase
    exact ⟨rfl, kept, (congrArg _ result).trans (congrArg _ same)⟩
  | named name => exact ⟨rfl, sound.sharedNamed name⟩
  | given d => exact ⟨rfl, sound, rfl⟩

theorem map_define (serial : Nat) (name : String) (table? : Option String)
    (definitions : List Field) (parent? : Option Entity) :
    (Entity.define serial name table? definitions parent?).map (fun _ => Answer.done) =
      (Entity.define 0 name table? definitions parent?).map fun _ => .done := by
  unfold Entity.define
  dsimp only
  split
  · rfl
  · simp only [except_map_bind]
    rfl

theorem Sound.setResolver {s : Session} (sound : s.Sound) (h : Handle .resolver) {r : Resolver}
    (coherent : r.Coherent) : { s with resolvers := s.resolvers.set h r }.Sound := by
  refine ⟨fun k => ?_, sound.pool⟩
  by_cases same : k = h
  · rw [same, Store.get_set_self]
    exact coherent
  · rw [Store.get_set_of_ne _ same]
    exact sound.names k

theorem Aside.refines {s : Session} (sound : s.Sound) (a : Aside) :
    Refines s (a.act.run s) (a.reply.map (·, s.bare)) := by
  cases a with
  | entity name table? definitions parent? =>
    have run : (defineEntity name table? definitions parent?).run s =
        ⟨{ s with issued := s.issued + 1 }, [],
          Entity.define s.issued name table? definitions parent?⟩ := Action.run_lift _ _
    simp only [Aside.act, done, Action.run_map, run]
    exact .still ⟨sound.names, sound.pool⟩ rfl (map_define _ _ _ _ _)
  | newResolver logs =>
    have added := sound.setResolver ⟨s.resolvers.size⟩ (Resolver.coherent_fresh logs)
    exact .still ⟨added.names, sound.pool⟩ rfl rfl
  | table h e =>
    exact .look sound (TableRoot.fresh e h ⟨.mysql, 0⟩).computes_tableName Answer.text rfl
  | column h e field =>
    rw [Aside.reply, except_map_map]
    exact .look sound ((TableRoot.fresh e h ⟨.mysql, 0⟩).computes_columnName field) Answer.text rfl
  | clear h =>
    have forgotten : (s.resolvers.get h).clear.Coherent := by
      constructor <;> simp [Resolver.clear]
    exact .still (sound.setResolver h forgotten) rfl rfl
  | listen h label once reaction =>
    have listened : ((s.resolvers.get h).listen ⟨s.issued, label, once, reaction⟩).Coherent :=
      (sound.names h).congr rfl rfl
    exact .still ⟨(sound.setResolver h listened).names, sound.pool⟩ rfl rfl
  | unlisten h key =>
    have left : ((s.resolvers.get h).unlisten key).Coherent := (sound.names h).congr rfl rfl
    exact .still (sound.setResolver h left) rfl rfl
  | sharedDialect name =>
    obtain ⟨kept, result⟩ := sound.pool.sharedNamed name
    have answer := congrArg (Except.map fun _ => Answer.done) result
    rw [except_map_map] at answer
    simp only [Aside.act, done, Action.run_map]
    exact .still ⟨sound.names, kept⟩ rfl answer
  | freshDialect name =>
    simp only [Aside.act, done, Action.run_map, Session.freshDialect, run_onPool,
      DialectPool.freshNamed, Aside.reply]
    cases DialectPool.database name with
    | error e => exact .still sound rfl rfl
    | ok database => exact .still ⟨sound.names, sound.pool⟩ rfl rfl
  | clearDialects => exact .still ⟨sound.names, DialectPool.sound_clear s.pool⟩ rfl rfl

theorem make_bare (options : BuilderOptions) (d : Dialect) :
    Builder.make d.bare sharedResolver options.logs options.startAlias options.joinAlias
      options.listed? = (Builder.make d options.resolver options.logs options.startAlias
        options.joinAlias options.listed?).map Builder.bare := by
  unfold Builder.make
  simp only [except_map_bind]
  rfl

theorem refines_newBuilder {s : Session} (sound : s.Sound) (options : BuilderOptions) :
    Refines s ((Call.newBuilder options).act.run s)
      ((Call.newBuilder options).meaning s.bare) := by
  obtain ⟨left, kept, chosen⟩ := run_chooseDialect sound.pool options.dialect
  simp only [Call.act, done, Action.run_map, newBuilder, Call.meaning, ← chosen, except_bind_map]
  rcases o : (chooseDialect options.dialect).run s with ⟨t, journal, e | d⟩
  · rw [o] at left kept
    rw [Action.run_bind_error o]
    exact ⟨⟨left ▸ sound.names, kept⟩, .failed rfl (left ▸ rfl)⟩
  · rw [o] at left kept
    dsimp only at left kept
    rw [Action.run_bind_ok o, left]
    have made := make_bare options d
    unfold Dialect.bare at made
    dsimp only [Except.bind, bind]
    rw [made]
    cases Builder.make d options.resolver options.logs options.startAlias options.joinAlias
      options.listed? with
    | error e => exact ⟨⟨sound.names, kept⟩, .failed rfl rfl⟩
    | ok b =>
      exact ⟨⟨sound.names, kept⟩, .done rfl (bare_addBuilder s b)⟩

theorem Question.refines {s : Session} (sound : s.Sound) (ref : RootRef) (question : Question) :
    Refines s ((question.act ref).run s)
      ((question.reply (s.bare.root ref)).map (·, s.bare)) := by
  have read {α : Type} (x : Except QueryError α) (f : α → Answer) : Refines s
      ((do return f (← (liftM x : Action Session α)) : Action Session Answer).run s)
      ((x.map f).map (·, s.bare)) := by
    cases x <;> exact .still sound rfl rfl
  rw [root_bare]
  cases question with
  | shown => exact .still sound rfl rfl
  | aliasName => exact read (s.root ref).aliasName Answer.text
  | table => exact .look sound (s.root ref).computes_tableName Answer.text (run_askRoot ref _ s)
  | all => exact read (s.root ref).all Answer.column
  | column field name? =>
    rw [Question.reply, except_map_map]
    exact .look sound ((s.root ref).computes_column field name?) Answer.column
      (run_askRoot ref _ s)
  | count field name? =>
    rw [Question.reply, except_map_map]
    exact .look sound ((s.root ref).computes_count field name?) Answer.column
      (run_askRoot ref _ s)
  | formatDate field pattern name? =>
    rw [Question.reply, except_map_map]
    exact .look sound ((s.root ref).computes_formatDate field pattern name?) Answer.column
      (run_askRoot ref _ s)

theorem act_start (h : Handle .builder) (e : Entity) :
    (Call.start h e).act =
      onBuilder h (Builder.declareStart e) >>= fun _ => showRoot (.start h) := by
  simp [Call.act, declareStart]

theorem runWith_join (loggers : Loggers) (h : Handle .builder) (e : Entity) (source : Column)
    (targetField typeName : String) (s : Session) :
    (Call.join h e source targetField typeName).act.runWith loggers s =
      (onBuilder h (Builder.declareJoin e source targetField typeName) >>= fun _ =>
        showRoot (.joined h (s.builders.get h).joins.length)).runWith loggers s := by
  have read : (builder h).runWith loggers s = ⟨s, [], .ok (s.builders.get h)⟩ := rfl
  simp only [Call.act, declareJoin, bind_assoc, pure_bind]
  rw [Action.runWith_bind_ok read, Outcome.after_nil]

theorem run_start (h : Handle .builder) (e : Entity) (s : Session) :
    (Call.start h e).act.run s =
      (changeBuilder h (·.withStart e) >>= fun _ => showRoot (.start h)).run s := by
  have stored := run_onBuilder (f := (·.withStart e)) ((s.builders.get h).declareStart_replaces e)
  rw [act_start, Action.run_bind_congr stored]

theorem run_join (h : Handle .builder) (e : Entity) (source : Column)
    (targetField typeName : String) (s : Session) :
    (Call.join h e source targetField typeName).act.run s =
      (changeBuilder h (·.withJoin e source targetField typeName) >>= fun _ =>
        showRoot (.joined h (s.builders.get h).joins.length)).run s := by
  have stored := run_onBuilder (f := (·.withJoin e source targetField typeName))
    ((s.builders.get h).declareJoin_replaces e source targetField typeName)
  exact (runWith_join .sink h e source targetField typeName s).trans
    (Action.run_bind_congr stored _)

theorem RootChange.apply_bare (c : RootChange) (r : TableRoot) :
    c.apply r.bare = (c.apply r).map TableRoot.bare := by
  cases c with
  | assign name => exact r.withAlias_bare name
  | attach type source target => exact r.withJoin_bare type source target
  | condition p => exact r.withCondition_bare p

theorem RootChange.act_onRoot (c : RootChange) (ref : RootRef) : c.act ref = onRoot ref c.step := by
  cases c <;> rfl

theorem RootChange.act_eq (c : RootChange) (ref : RootRef) :
    c.act ref = changeRoot ref c.apply := (c.act_onRoot ref).trans (onRoot_eq c.step_makes ref)

theorem act_bind (h : Handle .query) (builder : Handle .builder) :
    (Call.bind h builder).act = done (changeQuery h fun q => .ok (q.setBuilder builder)) :=
  congrArg done (onQuery_eq (Action.makes_modify _) h)

theorem act_set (h : Handle .query) (c : Setting) :
    (Call.set h c).act = done (changeQuery h c.apply) := congrArg done (onQuery_eq c.act_makes h)

/-- Every call does what it means, unless a listener refuses a name. -/
theorem refines_act {s : Session} (sound : s.Sound) (c : Call) :
    Refines s (c.act.run s) (c.meaning s.bare) := by
  cases c with
  | aside a => exact a.refines sound
  | newBuilder options => exact refines_newBuilder sound options
  | start h e =>
    have refined := Refines.changeBuilder sound h (·.withStart e)
      ((s.builders.get h).computes_withStart e) (.start h)
    rw [← Builder.plainStart_bare, ← run_start] at refined
    exact refined
  | join h e source targetField typeName =>
    have refined := Refines.changeBuilder sound h
      (·.withJoin e source targetField typeName)
      ((s.builders.get h).computes_withJoin e source targetField typeName)
      (.joined h (s.builders.get h).joins.length)
    have joins : (s.bare.builders.get h).joins.length = (s.builders.get h).joins.length :=
      List.length_map _
    rw [← Builder.plainJoin_bare, ← run_join] at refined
    rw [Call.meaning, joins]
    exact refined
  | roots h =>
    have shown (ref : RootRef) : (s.bare.root ref).shown = (s.root ref).shown := by
      rw [root_bare, TableRoot.shown_bare]
    simp only [Call.meaning, startRoot?_bare, joinRoots_bare, shown]
    exact ⟨sound, .done rfl rfl⟩
  | make h f =>
    have named (ref : RootRef) : (s.bare.root ref).aliasName = (s.root ref).aliasName := by
      rw [root_bare, TableRoot.aliasName_bare]
    have made : f.make (s.bare.builders.get h).database s.bare.root =
        f.make (s.builders.get h).database s.root := f.make_congr _ fun ref _ => named ref
    have run : (Call.make h f).act.run s =
        ⟨s, [], f.make (s.builders.get h).database s.root⟩ := Action.run_lift _ _
    rw [Call.meaning, made, run]
    exact .still sound rfl rfl
  | newRoot e h dialect =>
    exact ⟨⟨sound.names, sound.pool⟩, .done rfl (bare_addRoot s (.fresh e h dialect))⟩
  | change ref c =>
    rw [Call.act, c.act_eq]
    exact Refines.changeRoot sound ref (c.apply_bare _)
  | ask ref question => exact question.refines sound ref
  | newQuery builder? => exact ⟨⟨sound.names, sound.pool⟩, .done rfl rfl⟩
  | bind h builder =>
    rw [act_bind]
    exact Refines.changeQuery sound h _
  | set h c =>
    rw [act_set]
    exact Refines.changeQuery sound h c.apply
  | render h =>
    have computes := (s.queries.get h).computes_render ((s.queries.get h).builder?.map s.sources)
    have same : s.bare.queries = s.queries := rfl
    rw [Call.meaning, same, statement_bare]
    exact .look sound computes Answer.text (run_render h s)

end Session

end SqlSelect
