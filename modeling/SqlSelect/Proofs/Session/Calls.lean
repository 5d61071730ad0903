import SqlSelect.Proofs.Builder.InPlace
import SqlSelect.Proofs.Query.Criteria
import SqlSelect.Session

/-!
The calls that callers make on a session and the answers they get. A call names the objects it
works on by their handles; columns, predicates and all other fragments are handed over as values.
A call that fails does not end a run, and what it has changed stays. Runs are told for loggers that
are a parameter, and by themselves for loggers that take every line, as `Loggers.Take` says.
-/
namespace SqlSelect

/-- What can be seen of a root without looking its names up. -/
structure ShownRoot where
  entity : String
  alias? : Option String
  join? : Option Join

def TableRoot.shown (r : TableRoot) : ShownRoot := ⟨r.entity.name, r.alias?, r.join?⟩

/-- A count of anything but one root is a count of columns. -/
theorem Selection.ofCount_many {items : List Countable} (many : ∀ r, items ≠ [.root r]) :
    ofCount items =
      if (items.filterMap Countable.column?).length ≠ items.length then .error .countMixed
      else match items.filterMap Countable.column? with
        | [] => .error (.columnsMissing .count)
        | chosen => .ok (.countColumns chosen) := by
  unfold ofCount
  split
  · exact absurd rfl (many _)
  · rfl

namespace Session

inductive Answer where
  | done
  | text (content : String)
  | root (shown : ShownRoot)
  | roots (start? : Option ShownRoot) (joins : List ShownRoot)
  | column (c : Column)
  | predicate (p : Predicate)
  | selection (s : Selection)
  | distinctOn (d : DistinctOn)
  | order (term : OrderTerm)

/-- Calls that work on no builder, root or query. -/
inductive Aside where
  | entity (name : String) (table? : Option String) (definitions : List Field)
      (parent? : Option Entity)
  | newResolver (logs : Bool)
  | table (h : Handle .resolver) (e : Entity)
  | column (h : Handle .resolver) (e : Entity) (field : String)
  | clear (h : Handle .resolver)
  | listen (h : Handle .resolver) (label : String) (once : Bool) (reaction : Reaction)
  | unlisten (h : Handle .resolver) (key : Nat)
  | sharedDialect (name : String)
  | freshDialect (name : String)
  | clearDialects

/-- A root as an argument: one of the session, or one that comes from elsewhere. -/
inductive RootArgument where
  | here (ref : RootRef)
  | given (r : TableRoot)

def RootArgument.root (rootAt : RootRef → TableRoot) : RootArgument → TableRoot
  | here ref => rootAt ref
  | given r => r

inductive CountArgument where
  | root (r : RootArgument)
  | column (c : Column)
  | other

def CountArgument.countable (rootAt : RootRef → TableRoot) :
    CountArgument → Selection.Countable
  | root r => .root (r.root rootAt)
  | column c => .column c
  | other => .other

/-- The fragments that a builder makes; predicates that are no groups are made as criteria. -/
inductive Fragment where
  | criterion (c : Criterion)
  | group (connective : Connective) (members : List Predicate)
  | lower (c : Column)
  | upper (c : Column)
  | concat (parts : List Column.Part)
  | order (c : Column) (direction : Direction)
  | columns (list : List Column)
  | distinctOn (list : List Column)
  | all (r : RootArgument)
  | count (items : List CountArgument)

def Fragment.make (d : Database) (rootAt : RootRef → TableRoot) :
    Fragment → Except QueryError Answer
  | criterion c => (c.make d).map .predicate
  | group connective members => (Predicate.ofMembers connective members).map .predicate
  | lower c => .ok (.column c.lower)
  | upper c => .ok (.column c.upper)
  | concat parts => (Column.concat d parts).map .column
  | order c direction => .ok (.order ⟨c, direction⟩)
  | columns list => (Selection.ofColumns list).map .selection
  | distinctOn list => (DistinctOn.ofColumns d list).map .distinctOn
  | all r => (Selection.ofRoot (r.root rootAt)).map .selection
  | count items =>
    (Selection.ofCount (items.map (CountArgument.countable rootAt))).map .selection

def RootArgument.refs : RootArgument → List RootRef
  | here ref => [ref]
  | given _ => []

def CountArgument.refs : CountArgument → List RootRef
  | root r => r.refs
  | column _ | other => []

/-- The roots of the session that a fragment is made from. -/
def Fragment.refs : Fragment → List RootRef
  | all r => r.refs
  | count items => items.flatMap CountArgument.refs
  | criterion _ | group _ _ | lower _ | upper _ | concat _ | order _ _ | columns _
  | distinctOn _ => []

section Roots

variable {rootAt rootAt' : RootRef → TableRoot}

theorem RootArgument.aliasName_congr {r : RootArgument}
    (same : ∀ ref ∈ r.refs, (rootAt' ref).aliasName = (rootAt ref).aliasName) :
    (r.root rootAt').aliasName = (r.root rootAt).aliasName := by
  cases r with
  | here ref => exact same ref List.mem_cons_self
  | given r => rfl

theorem ofCount_congr {items : List CountArgument}
    (same : ∀ ref ∈ items.flatMap CountArgument.refs,
      (rootAt' ref).aliasName = (rootAt ref).aliasName) :
    Selection.ofCount (items.map (CountArgument.countable rootAt')) =
      Selection.ofCount (items.map (CountArgument.countable rootAt)) := by
  have columns : (items.map (CountArgument.countable rootAt')).filterMap
      Selection.Countable.column? =
      (items.map (CountArgument.countable rootAt)).filterMap Selection.Countable.column? := by
    rw [List.filterMap_map, List.filterMap_map]
    congr 1
    funext item
    cases item <;> rfl
  have only {rootAt : RootRef → TableRoot} {r : TableRoot}
      (h : items.map (CountArgument.countable rootAt) = [.root r]) : ∃ r, items = [.root r] := by
    match items, h with
    | [.root r], _ => exact ⟨r, rfl⟩
  by_cases single : ∃ r, items = [.root r]
  · obtain ⟨r, rfl⟩ := single
    have named := RootArgument.aliasName_congr (r := r) fun ref mem =>
      same ref (by simpa [CountArgument.refs] using mem)
    exact congrArg (Except.map Selection.countAll) named
  · rw [Selection.ofCount_many fun r h => single (only h),
      Selection.ofCount_many fun r h => single (only h), columns, List.length_map, List.length_map]

/-- A fragment depends on roots by their aliases only. -/
theorem Fragment.make_congr {f : Fragment} (d : Database)
    (same : ∀ ref ∈ f.refs, (rootAt' ref).aliasName = (rootAt ref).aliasName) :
    f.make d rootAt' = f.make d rootAt := by
  cases f with
  | all r =>
    simp only [make, Selection.ofRoot]
    rw [RootArgument.aliasName_congr same]
  | count items => rw [make, ofCount_congr same, make]
  | _ => rfl

end Roots

inductive RootChange where
  | assign (name : String)
  | attach (type : JoinType) (source target : Column)
  | condition (p : Predicate)

def RootChange.apply : RootChange → TableRoot → Except QueryError TableRoot
  | assign name, r => r.withAlias name
  | attach type source target, r => r.withJoin type source target
  | condition p, r => r.withCondition p

def RootChange.step : RootChange → Action TableRoot Unit
  | assign name => TableRoot.assignAlias name
  | attach type source target => TableRoot.attachJoin type source target
  | condition p => TableRoot.addJoinCondition p

/-- A root is changed as a whole or not at all. -/
theorem RootChange.step_makes (c : RootChange) : c.step.Makes c.apply := by
  cases c with
  | assign name => exact TableRoot.assignAlias_makes name
  | attach type source target => exact TableRoot.attachJoin_makes type source target
  | condition p => exact TableRoot.addJoinCondition_makes p

inductive Question where
  | shown
  | aliasName
  | table
  | all
  | column (field : String) (name? : Option String)
  | count (field : String) (name? : Option String)
  | formatDate (field pattern : String) (name? : Option String)

inductive Setting where
  | selection (s : Selection)
  | condition (p : Predicate)
  | distinctOn (d : DistinctOn)
  | distinct (value : Bool)
  | order (arguments : List OrderArgument)
  | grouping (columns : List Column)
  | limit (count : Double)
  | offset (count : Double)

def Setting.apply : Setting → Query → Except QueryError Query
  | selection s, q => .ok (q.setSelection s)
  | condition p, q => q.withCondition p
  | distinctOn d, q => .ok (q.setDistinctOn d)
  | distinct value, q => .ok (q.setDistinct value)
  | order arguments, q => .ok (q.setOrder arguments)
  | grouping columns, q => .ok (q.setGrouping columns)
  | limit count, q => q.withLimit count
  | offset count, q => q.withOffset count

def Setting.act : Setting → Action Query Unit
  | selection s => Action.modify (·.setSelection s)
  | condition p => Query.setCondition p
  | distinctOn d => Action.modify (·.setDistinctOn d)
  | distinct value => Action.modify (·.setDistinct value)
  | order arguments => Action.modify (·.setOrder arguments)
  | grouping columns => Action.modify (·.setGrouping columns)
  | limit count => Query.setLimit count
  | offset count => Query.setOffset count

/-- A setting is made as a whole or not at all. -/
theorem Setting.act_makes (c : Setting) : c.act.Makes c.apply := by
  cases c with
  | condition p => exact Query.setCondition_makes p
  | limit count => exact Query.setLimit_makes count
  | offset count => exact Query.setOffset_makes count
  | selection | distinctOn | distinct | order | grouping => exact Action.makes_modify _

inductive Call where
  | aside (a : Aside)
  | newBuilder (options : BuilderOptions)
  | start (h : Handle .builder) (e : Entity)
  | join (h : Handle .builder) (e : Entity) (source : Column) (targetField typeName : String)
  | roots (h : Handle .builder)
  | make (h : Handle .builder) (f : Fragment)
  | newRoot (e : Entity) (h : Handle .resolver) (dialect : Dialect)
  | change (ref : RootRef) (c : RootChange)
  | ask (ref : RootRef) (question : Question)
  | newQuery (builder? : Option (Handle .builder))
  | bind (h : Handle .query) (builder : Handle .builder)
  | set (h : Handle .query) (c : Setting)
  | render (h : Handle .query)

def done {α : Type} (a : Action Session α) : Action Session Answer := (fun _ => .done) <$> a

def showRoot (ref : RootRef) : Action Session Answer := (fun r => .root r.shown) <$> rootAt ref

def Aside.act : Aside → Action Session Answer
  | entity name table? definitions parent? => done (defineEntity name table? definitions parent?)
  | newResolver logs => done (Session.newResolver logs)
  | table h e => Answer.text <$> resolveTable h e
  | column h e field => Answer.text <$> resolveColumn h e field
  | clear h => done (clearResolver h)
  | listen h label once reaction => done (Session.listen h label once reaction)
  | unlisten h key => done (Session.unlisten h key)
  | sharedDialect name => done (Session.sharedDialect name)
  | freshDialect name => done (Session.freshDialect name)
  | clearDialects => done Session.clearDialects

def RootChange.act (ref : RootRef) : RootChange → Action Session Unit
  | assign name => assignAlias ref name
  | attach type source target => attachJoin ref type source target
  | condition p => addJoinCondition ref p

def Question.act (ref : RootRef) : Question → Action Session Answer
  | shown => showRoot ref
  | aliasName => do return .text (← (← rootAt ref).aliasName)
  | table => Answer.text <$> tableName ref
  | all => do return .column (← (← rootAt ref).all)
  | column field name? => Answer.column <$> Session.column ref field name?
  | count field name? => Answer.column <$> Session.count ref field name?
  | formatDate field pattern name? => Answer.column <$> Session.formatDate ref field pattern name?

def Call.act : Call → Action Session Answer
  | aside a => a.act
  | newBuilder options => done (Session.newBuilder options)
  | start h e => declareStart h e >>= showRoot
  | join h e source targetField typeName =>
    declareJoin h e source targetField typeName >>= showRoot
  | roots h => do
    let s ← Action.get
    return .roots ((s.startRoot? h).map fun ref => (s.root ref).shown)
      ((s.joinRoots h).map fun ref => (s.root ref).shown)
  | make h f => do
    let b ← builder h
    let s ← Action.get
    f.make b.database s.root
  | newRoot e h dialect => done (Session.newRoot e h dialect)
  | change ref c => done (c.act ref)
  | ask ref question => question.act ref
  | newQuery builder? => done (Session.newQuery builder?)
  | bind h builder => done (onQuery h (Action.modify (·.setBuilder builder)))
  | set h c => done (onQuery h c.act)
  | render h => Answer.text <$> Session.render h

section Loggers

variable (loggers : Loggers)

def nextWith (s : Session) (c : Call) : Session := (c.act.runWith loggers s).state

def afterWith (s : Session) (calls : List Call) : Session := calls.foldl (nextWith loggers) s

def answerWith (s : Session) (c : Call) : Except QueryError Answer :=
  (c.act.runWith loggers s).result

def answersWith : Session → List Call → List (Except QueryError Answer)
  | _, [] => []
  | s, c :: calls => answerWith loggers s c :: answersWith (nextWith loggers s c) calls

end Loggers

/-! The same with loggers that take every line. -/

def next (s : Session) (c : Call) : Session := (c.act.run s).state

def after (s : Session) (calls : List Call) : Session := calls.foldl next s

def answer (s : Session) (c : Call) : Except QueryError Answer := (c.act.run s).result

/-- The answers to the calls of a run. -/
def answers : Session → List Call → List (Except QueryError Answer)
  | _, [] => []
  | s, c :: calls => s.answer c :: (s.next c).answers calls

@[simp] theorem after_nil (s : Session) : s.after [] = s := rfl

@[simp] theorem after_cons (s : Session) (c : Call) (calls : List Call) :
    s.after (c :: calls) = (s.next c).after calls := rfl

section Take

variable {loggers : Loggers} (takes : loggers.Take)

include takes

/-- A run is the same for all loggers that take every line. -/
theorem afterWith_of_take (s : Session) (calls : List Call) :
    s.afterWith loggers calls = s.after calls := by
  rw [takes.eq_sink]
  rfl

theorem answersWith_of_take (s : Session) (calls : List Call) :
    s.answersWith loggers calls = s.answers calls := by
  obtain rfl := takes.eq_sink
  induction calls generalizing s with
  | nil => rfl
  | cons c calls ih => exact congrArg (s.answer c :: ·) (ih _)

end Take

theorem next_newBuilder (s : Session) (options : BuilderOptions) :
    s.next (.newBuilder options) = ((newBuilder options).run s).state := by
  rw [next, Call.act, done, Action.run_map, Outcome.state_map]

end Session

end SqlSelect
