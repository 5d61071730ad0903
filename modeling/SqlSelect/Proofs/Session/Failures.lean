import Mathlib
import SqlSelect.Proofs.Builder.Declarations
import SqlSelect.Proofs.Session.Reach

/-!
Calls that fail. They leave all builders, roots and queries as they were, however far they got,
unless a logger throws at the report of a root that was declared; and so a run without them gives
the same answers as long as no listener refuses a name and no logger throws.
-/
namespace SqlSelect.Session

/-- Nothing but what resolvers hold has changed. -/
def OnlyResolvers (s : Session) (_ : List Entry) (t : Session) : Prop :=
  t = { s with resolvers := t.resolvers }

instance : Action.Composes OnlyResolvers where
  refl _ := rfl
  trans first second := by
    unfold OnlyResolvers at first second ⊢
    rw [second, first]

theorem OnlyResolvers.onResolvers {α : Type} (a : Action Resolvers α) :
    (Session.onResolvers a).Ensures OnlyResolvers := fun _ _ => rfl

theorem OnlyResolvers.rootAt (ref : RootRef) : (Session.rootAt ref).Ensures OnlyResolvers :=
  fun _ _ => rfl

theorem OnlyResolvers.question (ref : RootRef) (question : Question) :
    (question.act ref).Ensures OnlyResolvers := by
  have asked {α : Type} (a : TableRoot → Action Resolvers α) (f : α → Answer) :
      (f <$> (Session.rootAt ref >>= fun r => Session.onResolvers (a r))).Ensures OnlyResolvers :=
    .map (.bind (rootAt ref) fun r => onResolvers (a r)) f
  cases question with
  | shown => exact .map (rootAt ref) _
  | aliasName => exact .bind (rootAt ref) fun _ => .bind (.lift _) fun _ => .pure _
  | table => exact asked TableRoot.tableName Answer.text
  | all => exact .bind (rootAt ref) fun _ => .bind (.lift _) fun _ => .pure _
  | column field name? => exact asked (·.column field name?) Answer.column
  | count field name? => exact asked (·.count field name?) Answer.column
  | formatDate field pattern name? => exact asked (·.formatDate field pattern name?) Answer.column

theorem OnlyResolvers.render (h : Handle .query) :
    (Session.render h).Ensures OnlyResolvers :=
  .bind (.bind .get fun _ => .pure _) fun _ => .bind .get fun _ => onResolvers _

/-- Calls on builders, roots and queries. -/
def Call.OnObjects : Call → Prop
  | aside _ | newBuilder _ => False
  | _ => True

/-- The builder that a call declares a root on. -/
def Call.declares? : Call → Option (Handle .builder)
  | start h _ | join h _ _ _ _ => some h
  | _ => none

/-- A call that declares a root fails only because its logger throws when the root is reported. By
then all is done that the call does with loggers that take every line. -/
def ReportThrows (loggers : Loggers) (s : Session) (c : Call) (e : QueryError) : Prop :=
  ∃ h, c.declares? = some h ∧ loggers.ThrowAtReport (s.builders.get h).logs e ∧
    (s.answer c).isOk = true ∧ s.nextWith loggers c = s.next c

variable {loggers : Loggers} {s : Session} {e : QueryError}

theorem declared_of_error {h : Handle .builder} {a : Action Workbench Unit} {ref : RootRef}
    (commits : (s.builders.get h).Commits a)
    (failed : ((onBuilder h a >>= fun _ => showRoot ref).runWith loggers s).result = .error e) :
    OnlyResolvers s [] ((onBuilder h a >>= fun _ => showRoot ref).runWith loggers s).state ∨
    loggers.ThrowAtReport (s.builders.get h).logs e ∧
      ((onBuilder h a >>= fun _ => showRoot ref).run s).result.isOk = true ∧
      ((onBuilder h a >>= fun _ => showRoot ref).runWith loggers s).state =
        ((onBuilder h a >>= fun _ => showRoot ref).run s).state := by
  have settle (loggers : Loggers) : (onBuilder h a).runWith loggers s =
      let o := a.runWith loggers ⟨s.builders.get h, s.resolvers⟩
      ⟨{ s with resolvers := o.state.resolvers, builders := s.builders.set h o.state.builder },
        o.journal, o.result⟩ := rfl
  have run := settle loggers
  rcases o : a.runWith loggers ⟨s.builders.get h, s.resolvers⟩ with ⟨w, journal, e' | ⟨⟨⟩⟩⟩
  · rw [o] at run
    rw [Action.runWith_bind_error run] at failed ⊢
    obtain rfl := Except.error.inj failed
    have left := commits loggers s.resolvers e' (congrArg Outcome.result o)
    rw [o] at left
    rcases left with kept | ⟨threw, taken, same⟩
    · left
      dsimp only at kept ⊢
      rw [kept, Store.set_get_self]
      rfl
    · have done := settle .sink
      have all : a.runWith .sink ⟨s.builders.get h, s.resolvers⟩ =
          ⟨w, (a.run ⟨s.builders.get h, s.resolvers⟩).journal, .ok ()⟩ := by
        rw [← taken, show w = _ from same]
        rfl
      rw [all] at done
      rw [Action.run_bind_ok done]
      exact .inr ⟨threw, rfl, rfl⟩
  · rw [o] at run
    rw [Action.runWith_bind_ok run] at failed
    cases failed

theorem unchanged_onRoot {ref : RootRef} {a : Action TableRoot Unit}
    {f : TableRoot → Except QueryError TableRoot} (makes : a.Makes f)
    (failed : ((onRoot ref a).runWith loggers s).result = .error e) :
    ((onRoot ref a).runWith loggers s).state = s := by
  have changed : ((onRoot ref a).runWith loggers s).state =
      s.setRoot ref (a.runWith loggers (s.root ref)).state := rfl
  rw [changed, makes.unchanged failed, setRoot_root]

theorem unchanged_onQuery {h : Handle .query} {a : Action Query Unit}
    {f : Query → Except QueryError Query} (makes : a.Makes f)
    (failed : ((onQuery h a).runWith loggers s).result = .error e) :
    ((onQuery h a).runWith loggers s).state = s := by
  have changed : ((onQuery h a).runWith loggers s).state = { s with
      queries := s.queries.set h (a.runWith loggers (s.queries.get h)).state } := rfl
  rw [changed, makes.unchanged failed, Store.set_get_self]

theorem error_of_done {α : Type} {a : Action Session α}
    (failed : ((done a).runWith loggers s).result = .error e) :
    (a.runWith loggers s).result = .error e := by
  rw [done, Action.runWith_map, Outcome.result_map] at failed
  cases result : (a.runWith loggers s).result with
  | error e' => rw [result] at failed; exact congrArg _ (Except.error.inj failed)
  | ok x => rw [result] at failed; cases failed

/-- Whatever was done before a call failed, only resolvers show it, unless it was a report that
failed. -/
theorem onlyResolvers_of_error {c : Call} (failed : s.answerWith loggers c = .error e)
    (onObjects : c.OnObjects) :
    OnlyResolvers s [] (s.nextWith loggers c) ∨ s.ReportThrows loggers c e := by
  have still {α : Type} {a : Action Session α} (same : (a.runWith loggers s).state = s) :
      OnlyResolvers s [] ((done a).runWith loggers s).state := by
    rw [done, Action.runWith_map, Outcome.state_map, same]
    rfl
  unfold answerWith at failed
  unfold ReportThrows answer nextWith next
  cases c with
  | start h e =>
    rw [act_start] at failed ⊢
    exact (declared_of_error ((s.builders.get h).declareStart_commits e) failed).imp id
      fun threw => ⟨h, rfl, threw⟩
  | join h e source targetField typeName =>
    unfold Action.run
    rw [runWith_join] at failed
    rw [runWith_join, runWith_join]
    exact (declared_of_error
      ((s.builders.get h).declareJoin_commits e source targetField typeName) failed).imp id
      fun threw => ⟨h, rfl, threw⟩
  | change ref c =>
    rw [Call.act, c.act_onRoot] at failed ⊢
    exact .inl (still (unchanged_onRoot c.step_makes (error_of_done failed)))
  | bind h builder =>
    exact .inl (still (unchanged_onQuery (Action.makes_modify _) (error_of_done failed)))
  | set h c => exact .inl (still (unchanged_onQuery c.act_makes (error_of_done failed)))
  | ask ref question => exact .inl (OnlyResolvers.question ref question loggers s)
  | render h => exact .inl (Action.Ensures.map (OnlyResolvers.render h) _ loggers s)
  | make h f =>
    have run : (Call.make h f).act.runWith loggers s =
        ⟨s, [], f.make (s.builders.get h).database s.root⟩ := Action.runWith_lift _ _
    rw [run]
    exact .inl rfl
  | roots h => exact .inl rfl
  | newRoot e h dialect => cases failed
  | newQuery builder? => cases failed
  | aside | newBuilder => exact onObjects.elim

/-- All builders, roots and queries are as they were. -/
def KeepsObjects (s : Session) (_ : List Entry) (t : Session) : Prop :=
  t.builders = s.builders ∧ t.roots = s.roots ∧ t.queries = s.queries

instance : Action.Composes KeepsObjects where
  refl _ := ⟨rfl, rfl, rfl⟩
  trans first second := ⟨second.1.trans first.1, second.2.1.trans first.2.1,
    second.2.2.trans first.2.2⟩

namespace KeepsObjects

variable {α : Type}

theorem onPool (a : Action DialectPool α) : (Session.onPool a).Ensures KeepsObjects :=
  fun _ _ => ⟨rfl, rfl, rfl⟩

theorem onResolvers (a : Action Resolvers α) : (Session.onResolvers a).Ensures KeepsObjects :=
  fun _ _ => ⟨rfl, rfl, rfl⟩

theorem number : Session.number.Ensures KeepsObjects := fun _ _ => ⟨rfl, rfl, rfl⟩

theorem aside (a : Aside) : a.act.Ensures KeepsObjects := by
  cases a with
  | entity => exact .map (.bind number fun _ => .lift _) _
  | newResolver => exact .map (fun _ _ => ⟨rfl, rfl, rfl⟩) _
  | table | column | clear | unlisten => exact .map (onResolvers _) _
  | listen => exact .map (.bind number fun _ => .bind (onResolvers _) fun _ => .pure _) _
  | sharedDialect | freshDialect | clearDialects => exact .map (onPool _) _

theorem chooseDialect (choice : DialectChoice) :
    (Session.chooseDialect choice).Ensures KeepsObjects := by
  cases choice with
  | standard | named => exact onPool _
  | given d => exact .pure d

theorem newBuilder {options : BuilderOptions}
    (failed : ((Session.newBuilder options).runWith loggers s).result = .error e) :
    KeepsObjects s [] ((Session.newBuilder options).runWith loggers s).state := by
  have chosen := chooseDialect options.dialect loggers s
  unfold Session.newBuilder at failed ⊢
  rcases o : (Session.chooseDialect options.dialect).runWith loggers s with ⟨t, journal, e' | d⟩
  · rw [o] at chosen
    rw [Action.runWith_bind_error o]
    exact chosen
  · rw [o] at chosen
    rw [Action.runWith_bind_ok o] at failed ⊢
    cases made : Builder.make d options.resolver options.logs options.startAlias
      options.joinAlias options.listed? with
    | error e' => exact chosen
    | ok b => rw [made] at failed; cases failed

end KeepsObjects

theorem keepsObjects_of_error {c : Call} (failed : s.answerWith loggers c = .error e) :
    KeepsObjects s [] (s.nextWith loggers c) ∨ s.ReportThrows loggers c e := by
  by_cases onObjects : c.OnObjects
  · refine (onlyResolvers_of_error failed onObjects).imp (fun left => ?_) id
    rw [left]
    exact ⟨rfl, rfl, rfl⟩
  · left
    cases c with
    | aside a => exact KeepsObjects.aside a loggers s
    | newBuilder options =>
      have kept := KeepsObjects.newBuilder (error_of_done failed)
      unfold nextWith
      rw [Call.act, done, Action.runWith_map]
      exact kept
    | _ => exact absurd trivial onObjects

theorem not_reportThrows (take : loggers.TakeReports) {c : Call} : ¬ s.ReportThrows loggers c e :=
  fun ⟨_, _, threw, _⟩ => take.not_throwAtReport threw

theorem keepsObjects_next {c : Call} (failed : s.answer c = .error e) :
    KeepsObjects s [] (s.next c) :=
  (keepsObjects_of_error failed).resolve_right (not_reportThrows fun _ _ => rfl)

theorem not_tends_of_error {c : Call} (failed : s.answerWith loggers c = .error e) :
    ¬ c.Tends := by
  intro tends
  cases c with
  | aside a => cases a <;> first | exact tends | cases failed
  | _ => exact tends

/-- A run without the calls that fail in it. -/
def succeeding (loggers : Loggers) : Session → List Call → List Call
  | _, [] => []
  | s, c :: calls =>
    let rest := succeeding loggers (s.nextWith loggers c) calls
    if (s.answerWith loggers c).isOk then c :: rest else rest

theorem succeeding_sublist (loggers : Loggers) (s : Session) (calls : List Call) :
    (succeeding loggers s calls).Sublist calls := by
  induction calls generalizing s with
  | nil => exact List.Sublist.refl _
  | cons c calls ih =>
    rw [succeeding]
    split
    · exact (ih _).cons_cons c
    · exact (ih _).cons c

theorem answers_succeeding {s t : Session} (soundS : s.Sound) (soundT : t.Sound)
    (quietS : s.Quiet) (quietT : t.Quiet) (agree : s.bare = t.bare) {calls : List Call}
    (harmless : ∀ c ∈ calls, c.Quiet) :
    t.answers (succeeding .sink s calls) = (s.answers calls).filter Except.isOk ∧
      (s.after calls).bare = (t.after (succeeding .sink s calls)).bare := by
  -- A call that fails moves `s` only, and not its bare session, so `t` can wait for the next.
  induction calls generalizing s t with
  | nil => exact ⟨rfl, agree⟩
  | cons c calls ih =>
    obtain ⟨first, rest⟩ := List.forall_mem_cons.1 harmless
    obtain ⟨same, left⟩ := agree_next soundS soundT quietS quietT agree c
    have unfolded : succeeding .sink s (c :: calls) =
      if (s.answer c).isOk then c :: succeeding .sink (s.next c) calls
        else succeeding .sink (s.next c) calls := rfl
    rw [unfolded, answers, after_cons]
    rcases next_cases soundS c with ⟨a, given, -⟩ | ⟨e, failed, unchanged⟩
    · obtain ⟨later, after⟩ := ih (soundS.next c) (soundT.next c) (quietS.next first)
        (quietT.next first) left rest
      rw [given, List.filter_cons, ← later]
      exact ⟨congrArg (· :: _) (same.symm.trans given), after⟩
    · obtain ⟨later, after⟩ := ih (soundS.next c) soundT (quietS.next first) quietT
        (unchanged.trans agree) rest
      rw [failed, List.filter_cons]
      exact ⟨later, after⟩

/-- Where no listener refuses names, a run can do without its failed calls. -/
theorem succeeding_suffices {calls : List Call} (harmless : ∀ c ∈ calls, c.Quiet) :
    let kept := succeeding .sink initial calls
    initial.answers kept = (initial.answers calls).filter Except.isOk ∧
      ∀ more : List Call, (∀ c ∈ more, c.Quiet) →
        (initial.after kept).answers more = (initial.after calls).answers more := by
  obtain ⟨same, agree⟩ := answers_succeeding sound_initial sound_initial quiet_initial
    quiet_initial rfl harmless
  refine ⟨same, fun more harmlessMore => ?_⟩
  have harmlessKept : ∀ c ∈ succeeding .sink initial calls, c.Quiet := fun c mem =>
    harmless c ((succeeding_sublist _ _ _).subset mem)
  exact (agree_answers (sound_after _) (sound_after _) (quiet_after harmless)
    (quiet_after harmlessKept) agree harmlessMore).symm

end SqlSelect.Session
