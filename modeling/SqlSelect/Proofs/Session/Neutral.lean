import SqlSelect.Proofs.Query.Neutral
import SqlSelect.Proofs.Session.Bare
import SqlSelect.Proofs.Session.Meaning
import SqlSelect.Proofs.Session.Portable

/-!
Sessions that know of no database but the default one. A call on a session, and its neutral form on
the neutral session, change the two alike and answer alike, listeners and all; a statement may
come out as another text, but it comes out of both or of none.
-/
namespace SqlSelect

namespace Session

def neutral (s : Session) : Session :=
  { s with
    builders := s.builders.map Builder.neutral
    roots := s.roots.map TableRoot.neutral
    queries := s.queries.map Query.neutral
    pool := DialectPool.empty }

theorem root_neutral (s : Session) (ref : RootRef) :
    s.neutral.root ref = (s.root ref).neutral := root_recast Builder.recasts_neutral rfl s ref

theorem setRoot_neutral (s : Session) (ref : RootRef) (r : TableRoot) :
    (s.setRoot ref r).neutral = s.neutral.setRoot ref r.neutral := by
  have changed := congrArg
    (fun t : Session => { t with queries := s.queries.map Query.neutral, pool := .empty })
    (setRoot_recast Builder.recasts_neutral s ref r)
  cases ref <;> exact changed

theorem startRoot?_neutral (s : Session) (h : Handle .builder) :
    s.neutral.startRoot? h = s.startRoot? h := startRoot?_recast Builder.recasts_neutral s h

theorem joinRoots_neutral (s : Session) (h : Handle .builder) :
    s.neutral.joinRoots h = s.joinRoots h := joinRoots_recast Builder.recasts_neutral s h

theorem sources_neutral (s : Session) (h : Handle .builder) :
    s.neutral.sources h = (s.sources h).neutral := sources_recast Builder.recasts_neutral rfl s h

/-! Actions that do on a neutral session what others do on any. -/

/-- On the neutral session `b` does as `a` does on the session itself, and gives the answer of `a`
as `f` has it. -/
def Reflects {α β : Type} (f : α → β) (b : Action Session β) (a : Action Session α) : Prop :=
  ∀ s : Session, b.run s.neutral =
    ⟨(a.run s).state.neutral, (a.run s).journal, (a.run s).result.map f⟩

namespace Reflects

variable {α β γ δ : Type} {f : α → β} {g : γ → δ} {a : Action Session α} {b : Action Session β}

theorem pure {x : α} {y : β} (same : y = f x) : Reflects f (Pure.pure y) (Pure.pure x) := fun _ =>
  same ▸ rfl

theorem lift {x : Except QueryError α} {y : Except QueryError β} (same : y = x.map f) :
    Reflects f (liftM y) (liftM x) := fun s => by
  rw [same, Action.run_lift, Action.run_lift]

theorem same (x : Except QueryError α) :
    Reflects id (liftM x : Action Session α) (liftM x) := lift (by cases x <;> rfl)

theorem get : Reflects Session.neutral Action.get Action.get := fun _ => rfl

theorem modify {change change' : Session → Session}
    (same : ∀ s : Session, change' s.neutral = (change s).neutral) :
    Reflects id (Action.modify change') (Action.modify change) := fun s => by
  rw [Action.run_modify, Action.run_modify, same]
  rfl

theorem bind {k : α → Action Session γ} {k' : β → Action Session δ} (first : Reflects f b a)
    (next : ∀ x, Reflects g (k' (f x)) (k x)) : Reflects g (b >>= k') (a >>= k) := fun s => by
  have first := first s
  rcases o : a.run s with ⟨t, journal, e | x⟩
  · rw [o] at first
    rw [Action.run_bind_error o, Action.run_bind_error first]
    rfl
  · rw [o] at first
    rw [Action.run_bind_ok o, Action.run_bind_ok first, next x t]
    rfl

theorem map (h : Reflects f b a) {m : α → γ} {m' : β → δ} (same : ∀ x, m' (f x) = g (m x)) :
    Reflects g (m' <$> b) (m <$> a) := fun s => by
  rw [Action.run_map, Action.run_map, h s]
  rcases a.run s with ⟨t, journal, e | x⟩
  · rfl
  · exact congrArg (fun y => Outcome.mk t.neutral journal (.ok y)) (same x)

theorem onResolvers {x : Action Resolvers α} {y : Action Resolvers β} (same : y = f <$> x) :
    Reflects f (Session.onResolvers y) (Session.onResolvers x) := fun s => by
  rw [same, run_onResolvers, Action.run_map, run_onResolvers]
  rfl

theorem ask {x : Action Resolvers α} : Reflects id (Session.onResolvers x)
    (Session.onResolvers x) := onResolvers (id_map x).symm

theorem builder (h : Handle .builder) :
    Reflects Builder.neutral (Session.builder h) (Session.builder h) := fun _ => rfl

theorem query (h : Handle .query) :
    Reflects Query.neutral (Session.query h) (Session.query h) := fun _ => rfl

theorem rootAt (ref : RootRef) :
    Reflects TableRoot.neutral (Session.rootAt ref) (Session.rootAt ref) := fun s => by
  rw [run_rootAt, run_rootAt, root_neutral]
  rfl

theorem changeBuilder (h : Handle .builder) {change : Builder → Action Resolvers Builder}
    (same : ∀ b : Builder, change b.neutral = Builder.neutral <$> change b) :
    Reflects id (Session.changeBuilder h change) (Session.changeBuilder h change) :=
  .bind (builder h) fun b => .bind (.onResolvers (same b)) fun _ => .modify fun _ => by
    simp only [neutral, Store.map_set]

theorem changeRoot (ref : RootRef) {change change' : TableRoot → Except QueryError TableRoot}
    (same : ∀ r : TableRoot, change' r.neutral = (change r).map TableRoot.neutral) :
    Reflects id (Session.changeRoot ref change') (Session.changeRoot ref change) :=
  .bind (rootAt ref) fun r => .bind (.lift (same r)) fun changed => .modify fun s =>
    (s.setRoot_neutral ref changed).symm

theorem changeQuery (h : Handle .query) {change change' : Query → Except QueryError Query}
    (same : ∀ q : Query, change' q.neutral = (change q).map Query.neutral) :
    Reflects id (Session.changeQuery h change') (Session.changeQuery h change) :=
  .bind (query h) fun q => .bind (.lift (same q)) fun _ => .modify fun _ => by
    simp only [neutral, Store.map_set]

theorem askRoot (ref : RootRef) {question : TableRoot → Action Resolvers α}
    (same : ∀ r : TableRoot, question r.neutral = question r) :
    Reflects id (Session.rootAt ref >>= fun r => Session.onResolvers (question r))
      (Session.rootAt ref >>= fun r => Session.onResolvers (question r)) :=
  .bind (rootAt ref) fun r => (same r).symm ▸ ask

end Reflects

end Session

theorem Action.lift_map {σ α β : Type} (x : Except QueryError α) (f : α → β) :
    (liftM (x.map f) : Action σ β) = f <$> (liftM x : Action σ α) := by
  cases x <;> rfl

namespace Builder

variable (b : Builder)

theorem withStart_neutral (e : Entity) :
    b.neutral.withStart e = neutral <$> b.withStart e := by
  unfold withStart
  rw [isSome_start?_neutral, newRoot_neutral]
  dsimp only
  split
  · rfl
  · rw [TableRoot.withAlias_neutral, Action.lift_map]
    simp only [map_bind, map_pure, bind_map_left]
    rfl

/-- The one join that not all databases can run is left out. -/
theorem withJoin_neutral (e : Entity) (source : Column) (targetField : String)
    {type : JoinType} (portable : type ≠ .full) :
    b.neutral.withJoin e source targetField type.name =
      neutral <$> b.withJoin e source targetField type.name := by
  unfold withJoin
  rw [isNone_start?_neutral, newRoot_neutral, joinType_name _ portable, joinType_name _ portable,
    taken_neutral]
  dsimp only
  split
  · rfl
  · rw [TableRoot.withAlias_neutral]
    simp only [Action.lift_map, map_bind, map_pure, bind_map_left, TableRoot.withJoin_neutral]
    simp [neutral]
    rfl

end Builder

/-! Calls and answers. -/

def ShownRoot.neutral (r : ShownRoot) : ShownRoot :=
  { r with join? := r.join?.map Join.neutral }

namespace Session

def Answer.neutral : Answer → Answer
  | predicate p => predicate p.neutral
  | root shown => root shown.neutral
  | roots start? joins => roots (start?.map ShownRoot.neutral) (joins.map ShownRoot.neutral)
  | a => a

def Fragment.neutral : Fragment → Fragment
  | group connective members => group connective (members.map Predicate.neutral)
  | f => f

def RootChange.neutral : RootChange → RootChange
  | condition p => condition p.neutral
  | c => c

def Setting.neutral : Setting → Setting
  | condition p => condition p.neutral
  | c => c

def Call.neutral : Call → Call
  | newBuilder options => newBuilder { options with dialect := .given Dialect.neutral }
  | make h f => make h f.neutral
  | newRoot e h _ => newRoot e h Dialect.neutral
  | change ref c => change ref c.neutral
  | set h c => set h c.neutral
  | c => c

variable {d : Database}

/-- For whichever database a portable fragment is made, it is made from the same contents. -/
theorem Fragment.make_neutral {f : Fragment} (h : f.Portable d) (database : Database)
    (rootAt : RootRef → TableRoot) :
    f.neutral.make Builder.defaultDatabase (fun ref => (rootAt ref).neutral) =
      (f.make database rootAt).map Answer.neutral := by
  have named {f : Fragment} {database : Database} :
      f.make database (fun ref => (rootAt ref).neutral) = f.make database rootAt :=
    f.make_congr database fun ref _ => rfl
  rw [named]
  cases f with
  | criterion c =>
    simp only [neutral, make, ← Criterion.make_neutral h.1 database]
    cases c.make database <;> rfl
  | group connective members =>
    simp only [neutral, make, Predicate.ofMembers_neutral]
    cases Predicate.ofMembers connective members <;> rfl
  | lower | upper | order => rfl
  | columns list => cases list <;> rfl
  | all r =>
    simp only [neutral, make]
    cases Selection.ofRoot (r.root rootAt) <;> rfl
  | count items =>
    simp only [neutral, make]
    cases Selection.ofCount (items.map (CountArgument.countable rootAt)) <;> rfl
  | concat | distinctOn => exact h.elim

theorem RootChange.apply_neutral (c : RootChange) (r : TableRoot) :
    c.neutral.apply r.neutral = (c.apply r).map TableRoot.neutral := by
  cases c with
  | assign name => exact r.withAlias_neutral name
  | attach type source target => exact r.withJoin_neutral type source target
  | condition p => exact r.withCondition_neutral p

theorem Setting.apply_neutral (c : Setting) (q : Query) :
    c.neutral.apply q.neutral = (c.apply q).map Query.neutral := by
  cases c with
  | condition p => exact q.withCondition_neutral p
  | limit count | offset count =>
    simp only [neutral, apply, Query.withLimit, Query.withOffset]
    cases checkRowCount _ count <;> rfl
  | selection | distinctOn | distinct | order | grouping => rfl

namespace Reflects

theorem finish {α β : Type} {f : α → β} {b : Action Session β} {a : Action Session α}
    (h : Reflects f b a) : Reflects Answer.neutral (done b) (done a) := h.map fun _ => rfl

theorem showRoot (ref : RootRef) :
    Reflects Answer.neutral (Session.showRoot ref) (Session.showRoot ref) :=
  (rootAt ref).map fun _ => rfl

theorem number : Reflects id Session.number Session.number := fun _ => rfl

/-- Whichever dialect is shared, it is for a database that is known. -/
theorem chooseDialect (d : Database) : Reflects (fun _ => Dialect.neutral)
    (Session.chooseDialect (.given Dialect.neutral)) (Session.chooseDialect (.named d.name)) := by
  intro s
  have known : DialectPool.sharedNamed d.name = DialectPool.sharedDialect d := by
    cases d <;> rfl
  obtain ⟨pool, dialect, shares⟩ : ∃ pool dialect,
      (DialectPool.sharedDialect d).run s.pool = ⟨pool, [], .ok dialect⟩ := by
    unfold DialectPool.sharedDialect Action.run Action.runWith
    dsimp only
    split <;> exact ⟨_, _, rfl⟩
  rw [Session.chooseDialect, Session.chooseDialect, sharedDialect, known, run_onPool, shares]
  rfl

theorem newBuilder {options : BuilderOptions} (named : options.dialect = .named d.name) :
    Reflects id (Session.newBuilder { options with dialect := .given Dialect.neutral })
      (Session.newBuilder options) := by
  unfold Session.newBuilder
  rw [named]
  exact .bind (chooseDialect d) fun dialect =>
    .bind (.lift (Builder.make_neutral dialect _ _ _ _ _)) fun b => fun s => by
      simp only [Action.run_bind_ok (Action.run_get _)]
      exact congrArg (fun builders => Outcome.mk { s.neutral with builders := builders } []
        (.ok (⟨s.builders.size⟩ : Handle .builder))) (s.builders.map_add Builder.neutral b).symm

theorem aside {a : Aside} (h : a.Portable) : Reflects Answer.neutral a.act a.act := by
  cases a with
  | entity name table? definitions parent? =>
    exact finish (f := id) (.bind number fun n => .same _)
  | newResolver logs => exact fun _ => rfl
  | table k e => exact ask.map fun _ => rfl
  | column k e field => exact ask.map fun _ => rfl
  | clear k => exact ask.finish
  | listen k label once reaction =>
    exact finish (f := id) (.bind number fun key => .bind ask fun _ => .pure rfl)
  | unlisten k key => exact ask.finish
  | sharedDialect | freshDialect | clearDialects => exact h.elim

theorem question {question : Question} (h : question.Portable) (ref : RootRef) :
    Reflects Answer.neutral (question.act ref) (question.act ref) := by
  cases question with
  | shown => exact showRoot ref
  | aliasName => exact .bind (rootAt ref) fun r => .bind (.same r.aliasName) fun _ => .pure rfl
  | table => exact (askRoot ref fun _ => rfl).map fun _ => rfl
  | all => exact .bind (rootAt ref) fun r => .bind (.same r.all) fun _ => .pure rfl
  | column field name? => exact (askRoot ref fun _ => rfl).map fun _ => rfl
  | count field name? => exact (askRoot ref fun _ => rfl).map fun _ => rfl
  | formatDate => exact h.elim

/-- All calls but those that render a statement. -/
theorem call {c : Call} (h : c.Portable d) (silent : ¬ ∃ k, c = .render k) :
    Reflects Answer.neutral c.neutral.act c.act := by
  cases c with
  | aside a => exact aside h
  | newBuilder options => exact (newBuilder h).finish
  | start k e =>
    have reflects : Reflects Answer.neutral
        (Session.changeBuilder k (·.withStart e) >>= fun _ => Session.showRoot (.start k))
        (Session.changeBuilder k (·.withStart e) >>= fun _ => Session.showRoot (.start k)) :=
      .bind (changeBuilder k fun b => b.withStart_neutral e) fun _ => showRoot (.start k)
    intro s
    have same : (Call.start k e).neutral = .start k e := rfl
    rw [same, run_start, run_start]
    exact reflects s
  | join k e source targetField typeName =>
    obtain ⟨-, -, type, portable, rfl⟩ := h
    intro s
    have joins : (s.neutral.builders.get k).joins.length = (s.builders.get k).joins.length :=
      List.length_map _
    have reflects (ref : RootRef) : Reflects Answer.neutral
        (Session.changeBuilder k (·.withJoin e source targetField type.name) >>= fun _ =>
          Session.showRoot ref)
        (Session.changeBuilder k (·.withJoin e source targetField type.name) >>= fun _ =>
          Session.showRoot ref) :=
      .bind (changeBuilder k fun b => b.withJoin_neutral e source targetField portable)
        fun _ => showRoot ref
    have same : (Call.join k e source targetField type.name).neutral =
        .join k e source targetField type.name := rfl
    rw [same, run_join, run_join, joins]
    exact reflects _ s
  | roots k =>
    refine .bind get fun s => .pure ?_
    have shown (ref : RootRef) : (s.neutral.root ref).shown = (s.root ref).shown.neutral := by
      rw [root_neutral]
      rfl
    simp only [Answer.neutral, startRoot?_neutral, joinRoots_neutral, shown, Option.map_map,
      List.map_map, Function.comp_def]
  | make k f =>
    refine .bind (builder k) fun b => .bind get fun s => .lift ?_
    rw [← f.make_neutral h b.database s.root, ← funext s.root_neutral]
    rfl
  | newRoot e k dialect =>
    exact finish (f := id) (a := Session.newRoot e k dialect) fun s =>
      congrArg (fun roots => Outcome.mk { s.neutral with roots := roots } []
        (.ok (RootRef.loose ⟨s.roots.size⟩)))
        (s.roots.map_add TableRoot.neutral (.fresh e k dialect)).symm
  | change ref c =>
    exact (c.act_eq ref ▸ c.neutral.act_eq ref ▸ changeRoot ref c.apply_neutral).finish
  | ask ref question => exact Reflects.question h ref
  | newQuery builder? =>
    exact finish (f := id) (a := Session.newQuery builder?) fun s =>
      congrArg (fun queries => Outcome.mk { s.neutral with queries := queries } []
        (.ok (⟨s.queries.size⟩ : Handle .query)))
        (s.queries.map_add Query.neutral (.fresh builder?)).symm
  | bind k builder =>
    have same : (Call.bind k builder).neutral = .bind k builder := rfl
    rw [same, act_bind]
    exact (changeQuery k fun _ => rfl).finish
  | set k c =>
    rw [Call.neutral, act_set, act_set]
    exact (changeQuery k c.apply_neutral).finish
  | render k => exact absurd ⟨k, rfl⟩ silent

end Reflects

end Session

/-! Statements. -/

namespace Action

variable {σ α β γ δ : Type}

/-- The two actions leave the same state, and both succeed or both fail with the same error. -/
def Alike (b : Action σ β) (a : Action σ α) : Prop :=
  ∀ s, (b.run s).state = (a.run s).state ∧
    (b.run s).result.map (fun _ => ()) = (a.run s).result.map fun _ => ()

namespace Alike

theorem refl (a : Action σ α) : Alike a a := fun _ => ⟨rfl, rfl⟩

theorem pure (x : α) (y : β) : Alike (Pure.pure y : Action σ β) (Pure.pure x) := fun _ => ⟨rfl, rfl⟩

theorem log (logs : Bool) (event event' : LogEvent) :
    Alike (Action.log logs event' : Action σ Unit) (Action.log logs event) := fun _ => ⟨rfl, rfl⟩

theorem bind {a : Action σ α} {b : Action σ β} {k : α → Action σ γ} {k' : β → Action σ δ}
    (first : Alike b a) (next : ∀ x y, Alike (k' y) (k x)) : Alike (b >>= k') (a >>= k) := by
  intro s
  obtain ⟨left, ends⟩ := first s
  rcases oa : a.run s with ⟨t, journal, e | x⟩ <;>
    rcases ob : b.run s with ⟨u, journal', e' | y⟩ <;> rw [oa, ob] at left ends
  · obtain rfl := Except.error.inj ends
    rw [run_bind_error oa, run_bind_error ob]
    exact ⟨left, rfl⟩
  · cases ends
  · cases ends
  · rw [run_bind_ok oa, run_bind_ok ob]
    dsimp only at left
    subst left
    exact next x y _

end Alike

end Action

namespace Query

theorem joinText_neutral (r : TableRoot) : (joinText r.neutral).Alike (joinText r) := by
  unfold joinText
  rw [TableRoot.neutral_join?]
  cases r.join? with
  | none => exact .refl _
  | some join =>
    refine .bind (.refl (tableText r)) fun _ _ => ?_
    have sameType : join.neutral.type = join.type := rfl
    by_cases cross : join.type = .cross
    · rw [if_pos (sameType.trans cross), if_pos cross]
      exact .pure _ _
    · rw [if_neg (sameType ▸ cross), if_neg cross]
      exact .pure _ _

theorem joinTexts_neutral (rs : List TableRoot) :
    (joinTexts (rs.map TableRoot.neutral)).Alike (joinTexts rs) := by
  induction rs with
  | nil => exact .refl _
  | cons r rs ih =>
    exact .bind (joinText_neutral r) fun _ _ => .bind ih fun _ _ => .pure _ _

/-- Which strings a statement holds does not decide whether it comes out. -/
theorem render_neutral (q : Query) (sources? : Option Sources) :
    (q.neutral.render (sources?.map Sources.neutral)).Alike (q.render sources?) := by
  unfold render
  cases sources? with
  | none => exact .refl _
  | some sources =>
    simp only [Option.map_some, Sources.neutral]
    cases sources.start? with
    | none => exact .refl _
    | some start =>
      exact .bind (.refl q.selectClause) fun _ _ => .bind (.refl (tableText start)) fun _ _ =>
        .bind (joinTexts_neutral sources.joins) fun _ _ => .bind (.refl q.offsetClause) fun _ _ =>
        .bind (.log _ _ _) fun _ _ => .pure _ _

end Query

namespace Session

theorem render_neutral (s : Session) (h : Handle .query) :
    s.neutral.next (.render h) = (s.next (.render h)).neutral ∧
      (s.neutral.answer (.render h)).map (fun _ => ()) =
        (s.answer (.render h)).map fun _ => () := by
  have sources : (s.queries.get h).neutral.builder?.map s.neutral.sources =
      ((s.queries.get h).builder?.map s.sources).map Sources.neutral := by
    rw [Option.map_map]
    exact congrArg (Option.map · _) (funext s.sources_neutral)
  have run (s : Session) : (Call.render h).act.run s =
      ((onResolvers ((s.queries.get h).render ((s.queries.get h).builder?.map s.sources))).run
        s).map .text := by
    rw [Call.act, Action.run_map, run_render]
  obtain ⟨left, ends⟩ := (s.queries.get h).render_neutral
    ((s.queries.get h).builder?.map s.sources) s.resolvers
  rw [next, next, answer, answer, run, run]
  rw [← sources] at left ends
  simp only [run_onResolvers, Outcome.state_map, Outcome.result_map, except_map_map]
  exact ⟨congrArg (fun names => { s.neutral with resolvers := names }) left, ends⟩

end Session

end SqlSelect
