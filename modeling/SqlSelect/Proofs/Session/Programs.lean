import SqlSelect.Proofs.Session.Neutral

/-!
Programs: calls that are written down before any of them is made. A program names a column, a
predicate or another fragment by the number of the step that gives it, so the same program can be
played for each database, with whatever fragments its builders make there. A step that names a
fragment, a builder or a root that is not there is no call.
-/
namespace SqlSelect.Session

/-- The answers of the steps so far, with nothing where a step was no call. -/
abbrev Past := List (Option (Except QueryError Answer))

def Past.answer? (past : Past) (step : Nat) : Option Answer :=
  past[step]?.join.bind Except.toOption

def Answer.column? : Answer → Option Column
  | column c => some c
  | _ => none

def Answer.predicate? : Answer → Option Predicate
  | predicate p => some p
  | _ => none

def Answer.selection? : Answer → Option Selection
  | selection s => some s
  | _ => none

def Answer.order? : Answer → Option OrderTerm
  | order term => some term
  | _ => none

/-- The fragments that can be handed over, each under the number of the step that gave it. -/
structure Fragments where
  column? : Nat → Option Column
  predicate? : Nat → Option Predicate
  selection? : Nat → Option Selection
  order? : Nat → Option OrderTerm

def Past.fragments (past : Past) : Fragments where
  column? step := (past.answer? step).bind Answer.column?
  predicate? step := (past.answer? step).bind Answer.predicate?
  selection? step := (past.answer? step).bind Answer.selection?
  order? step := (past.answer? step).bind Answer.order?

/-- A test of a column. -/
inductive Test where
  | compare (comparison : Comparison) (v : Value)
  | among (negated : Bool) (values : List Value)
  | like (negated : Bool) (mode : LikeMode) (v : Value)
  | between (low high : Value)
  | isNull (negated : Bool)

def Test.on (c : Column) : Test → Criterion
  | compare comparison v => .compare c comparison v
  | among negated values => .among c negated values
  | like negated mode v => .like c negated mode v
  | between low high => .between c low high
  | isNull negated => .isNull c negated

inductive Counted where
  | root (ref : RootRef)
  | column (step : Nat)
  | other

/-- What a builder is asked to make, from fragments of earlier steps. -/
inductive Request where
  | test (column : Nat) (t : Test)
  | group (connective : Connective) (members : List Nat)
  | lower (column : Nat)
  | upper (column : Nat)
  | order (column : Nat) (direction : Direction)
  | columns (list : List Nat)
  | all (ref : RootRef)
  | count (items : List Counted)

inductive Wiring where
  | assign (name : String)
  | attach (type : JoinType) (source target : Nat)
  | condition (predicate : Nat)

inductive Ordered where
  | one (step : Nat)
  | several (steps : List Nat)

inductive Clause where
  | selection (step : Nat)
  | condition (predicate : Nat)
  | distinct (value : Bool)
  | order (arguments : List Ordered)
  | grouping (columns : List Nat)
  | limit (count : Double)
  | offset (count : Double)

/-- One step of a program. It leaves open for which database builders and roots are made. -/
inductive Move where
  | aside (a : Aside)
  | newBuilder (resolver : Handle .resolver) (logs : Bool) (startAlias joinAlias : String)
      (listed? : Option (List RootRef))
  | start (h : Handle .builder) (e : Entity)
  | join (h : Handle .builder) (e : Entity) (source : Nat) (targetField : String)
      (type : JoinType)
  | roots (h : Handle .builder)
  | make (h : Handle .builder) (request : Request)
  | newRoot (e : Entity) (h : Handle .resolver)
  | change (ref : RootRef) (wiring : Wiring)
  | ask (ref : RootRef) (question : Question)
  | newQuery (builder? : Option (Handle .builder))
  | bind (h : Handle .query) (builder : Handle .builder)
  | set (h : Handle .query) (clause : Clause)
  | render (h : Handle .query)

/-! The call of a step, if all fragments that it names are there. -/

section Calls

variable (σ : Fragments)

def Counted.argument? : Counted → Option CountArgument
  | root ref => some (.root (.here ref))
  | column step => (σ.column? step).map .column
  | other => some .other

def Request.fragment? : Request → Option Fragment
  | test c t => (σ.column? c).map fun c => .criterion (t.on c)
  | group connective members => (members.mapM σ.predicate?).map (.group connective)
  | lower c => (σ.column? c).map .lower
  | upper c => (σ.column? c).map .upper
  | order c direction => (σ.column? c).map fun c => .order c direction
  | columns list => (list.mapM σ.column?).map .columns
  | all ref => some (.all (.here ref))
  | count items => (items.mapM (Counted.argument? σ)).map .count

def Wiring.change? : Wiring → Option RootChange
  | assign name => some (.assign name)
  | attach type source target => do
    return .attach type (← σ.column? source) (← σ.column? target)
  | condition p => (σ.predicate? p).map .condition

def Ordered.argument? : Ordered → Option OrderArgument
  | one step => (σ.order? step).map .one
  | several steps => (steps.mapM σ.order?).map .several

def Clause.setting? : Clause → Option Setting
  | selection step => (σ.selection? step).map .selection
  | condition p => (σ.predicate? p).map .condition
  | distinct value => some (.distinct value)
  | order arguments => (arguments.mapM (Ordered.argument? σ)).map .order
  | grouping columns => (columns.mapM σ.column?).map .grouping
  | limit count => some (.limit count)
  | offset count => some (.offset count)

def Move.call? (choice : DialectChoice) (dialect : Dialect) : Move → Option Call
  | aside a => some (.aside a)
  | newBuilder resolver logs startAlias joinAlias listed? =>
    some (.newBuilder ⟨choice, resolver, logs, startAlias, joinAlias, listed?⟩)
  | start h e => some (.start h e)
  | join h e source targetField type =>
    (σ.column? source).map fun c => .join h e c targetField type.name
  | roots h => some (.roots h)
  | make h request => (request.fragment? σ).map (.make h)
  | newRoot e h => some (.newRoot e h dialect)
  | change ref wiring => (wiring.change? σ).map (.change ref)
  | ask ref question => some (.ask ref question)
  | newQuery builder? => some (.newQuery builder?)
  | bind h builder => some (.bind h builder)
  | set h clause => (clause.setting? σ).map (.set h)
  | render h => some (.render h)

end Calls

/-- The call of a step with all builders and roots for one database, if there is one to make. -/
def Move.callFor? (d : Database) (s : Session) (past : Past) (move : Move) : Option Call :=
  (move.call? past.fragments (.named d.name) ⟨d, 0⟩).filter (Call.isOn s)

/-- The steps of a program from a session on. -/
def playFrom (d : Database) : Session → Past → List Move → Past
  | _, past, [] => past
  | s, past, move :: moves =>
    match move.callFor? d s past with
    | none => playFrom d s (past ++ [none]) moves
    | some c => playFrom d (s.next c) (past ++ [some (s.answer c)]) moves

def play (d : Database) (program : List Move) : Past := playFrom d initial [] program

/-! Programs for every database: no dates, no full joins, and all names of the shape that names have
to be of. Concatenations and rows distinct by columns have no step. -/

def Test.Dateless : Test → Prop
  | compare _ v | like _ _ v => v.Dateless
  | among _ values => ∀ v ∈ values, v.Dateless
  | between low high => low.Dateless ∧ high.Dateless
  | isNull _ => True

def Request.Dateless : Request → Prop
  | test _ t => t.Dateless
  | _ => True

def Move.Portable : Move → Prop
  | aside a => a.Portable
  | start _ e | newRoot e _ => e.Shaped
  | join _ e _ _ type => e.Shaped ∧ type ≠ .full
  | make _ request => request.Dateless
  | ask _ question => question.Portable
  | _ => True

structure Fragments.Portable (d : Database) (σ : Fragments) : Prop where
  column : ∀ step, ∀ c ∈ σ.column? step, c.Portable
  predicate : ∀ step, ∀ p ∈ σ.predicate? step, p.Regular d
  selection : ∀ step, ∀ s ∈ σ.selection? step, s.Portable
  order : ∀ step, ∀ term ∈ σ.order? step, term.column.Portable

section Portable

variable {d : Database} {σ : Fragments}

/-- What a list of steps gave is what its steps gave. -/
private theorem forall_of_mapM {α β : Type} {f : α → Option β} {P : β → Prop}
    (each : ∀ x, ∀ y ∈ f x, P y) {xs : List α} {ys : List β} (given : xs.mapM f = some ys) :
    ∀ y ∈ ys, P y := by
  induction xs generalizing ys with
  | nil =>
    obtain rfl := Option.some.inj given
    nofun
  | cons x xs ih =>
    rw [List.mapM_cons] at given
    obtain ⟨y, first, given⟩ := Option.bind_eq_some_iff.1 given
    obtain ⟨rest, others, given⟩ := Option.bind_eq_some_iff.1 given
    obtain rfl := Option.some.inj given
    exact List.forall_mem_cons.2 ⟨each x y first, ih others⟩

theorem Test.dateless_on {t : Test} (h : t.Dateless) (c : Column) : (t.on c).Dateless := by
  cases t <;> exact h

theorem Test.columns_on (t : Test) (c : Column) : (t.on c).columns = [c] := by
  cases t <;> rfl

theorem Counted.portable_argument? (available : σ.Portable d) {item : Counted} :
    ∀ argument ∈ item.argument? σ, argument.Portable := by
  intro argument given
  cases item with
  | root ref =>
    obtain rfl := Option.some.inj given
    exact ⟨ref, rfl⟩
  | column step =>
    obtain ⟨c, there, rfl⟩ := Option.map_eq_some_iff.1 given
    exact available.column step c there
  | other =>
    obtain rfl := Option.some.inj given
    trivial

theorem Request.portable_fragment? (available : σ.Portable d) {request : Request}
    (h : request.Dateless) : ∀ f ∈ request.fragment? σ, f.Portable d := by
  intro f given
  cases request with
  | test column t =>
    obtain ⟨c, there, rfl⟩ := Option.map_eq_some_iff.1 given
    refine ⟨Test.dateless_on h c, fun inner mem => ?_⟩
    rw [t.columns_on] at mem
    exact List.mem_singleton.1 mem ▸ available.column column c there
  | group connective members =>
    obtain ⟨ps, there, rfl⟩ := Option.map_eq_some_iff.1 given
    exact forall_of_mapM available.predicate there
  | lower column | upper column | order column =>
    obtain ⟨c, there, rfl⟩ := Option.map_eq_some_iff.1 given
    exact available.column column c there
  | columns list =>
    obtain ⟨cs, there, rfl⟩ := Option.map_eq_some_iff.1 given
    exact forall_of_mapM available.column there
  | all ref =>
    obtain rfl := Option.some.inj given
    exact ⟨ref, rfl⟩
  | count items =>
    obtain ⟨arguments, there, rfl⟩ := Option.map_eq_some_iff.1 given
    exact forall_of_mapM (fun _ => Counted.portable_argument? available) there

theorem Wiring.portable_change? (available : σ.Portable d) {wiring : Wiring} :
    ∀ c ∈ wiring.change? σ, c.Portable d := by
  intro c given
  cases wiring with
  | assign name =>
    obtain rfl := Option.some.inj given
    trivial
  | attach type source target =>
    obtain ⟨first, there, given⟩ := Option.bind_eq_some_iff.1 given
    obtain ⟨second, behind, given⟩ := Option.bind_eq_some_iff.1 given
    obtain rfl := Option.some.inj given
    exact ⟨available.column source first there, available.column target second behind⟩
  | condition step =>
    obtain ⟨p, there, rfl⟩ := Option.map_eq_some_iff.1 given
    exact available.predicate step p there

theorem Ordered.portable_argument? (available : σ.Portable d) {item : Ordered} :
    ∀ a ∈ item.argument? σ, ∀ term ∈ a.terms, term.column.Portable := by
  intro a given
  cases item with
  | one step =>
    obtain ⟨term, there, rfl⟩ := Option.map_eq_some_iff.1 given
    exact List.forall_mem_singleton.2 (available.order step term there)
  | several steps =>
    obtain ⟨terms, there, rfl⟩ := Option.map_eq_some_iff.1 given
    exact forall_of_mapM available.order there

theorem Clause.portable_setting? (available : σ.Portable d) {clause : Clause} :
    ∀ c ∈ clause.setting? σ, c.Portable d := by
  intro c given
  cases clause with
  | selection step =>
    obtain ⟨s, there, rfl⟩ := Option.map_eq_some_iff.1 given
    exact available.selection step s there
  | condition step =>
    obtain ⟨p, there, rfl⟩ := Option.map_eq_some_iff.1 given
    exact available.predicate step p there
  | order arguments =>
    obtain ⟨given, there, rfl⟩ := Option.map_eq_some_iff.1 given
    exact forall_of_mapM (fun _ => Ordered.portable_argument? available) there
  | grouping columns =>
    obtain ⟨given, there, rfl⟩ := Option.map_eq_some_iff.1 given
    exact forall_of_mapM available.column there
  | distinct | limit | offset =>
    obtain rfl := Option.some.inj given
    trivial

theorem Move.portable_call? (available : σ.Portable d) {move : Move} (h : move.Portable)
    (dialect : Dialect) : ∀ c ∈ move.call? σ (.named d.name) dialect, c.Portable d := by
  intro c given
  cases move with
  | join k e source targetField type =>
    obtain ⟨column, there, rfl⟩ := Option.map_eq_some_iff.1 given
    exact ⟨h.1, available.column source column there, type, h.2, rfl⟩
  | make k request =>
    obtain ⟨f, there, rfl⟩ := Option.map_eq_some_iff.1 given
    exact Request.portable_fragment? available h f there
  | change ref wiring =>
    obtain ⟨c, there, rfl⟩ := Option.map_eq_some_iff.1 given
    exact Wiring.portable_change? available c there
  | set k clause =>
    obtain ⟨c, there, rfl⟩ := Option.map_eq_some_iff.1 given
    exact Clause.portable_setting? available c there
  | newBuilder =>
    obtain rfl := Option.some.inj given
    rfl
  | aside | start | roots | newRoot | ask | newQuery | bind | render =>
    obtain rfl := Option.some.inj given
    exact h

end Portable

/-! The neutral form of a step's call is made from the neutral forms of its fragments. -/

def Fragments.neutral (σ : Fragments) : Fragments :=
  { σ with predicate? := fun step => (σ.predicate? step).map Predicate.neutral }

section Neutral

variable (σ : Fragments)

private theorem mapM_map {α β γ : Type} (f : α → Option β) (g : β → γ) (xs : List α) :
    xs.mapM (fun x => (f x).map g) = (xs.mapM f).map (List.map g) := by
  induction xs with
  | nil => rfl
  | cons x xs ih =>
    rw [List.mapM_cons, List.mapM_cons, ih]
    cases f x with
    | none => rfl
    | some y => cases xs.mapM f <;> rfl

theorem Request.fragment?_neutral (request : Request) :
    request.fragment? σ.neutral = (request.fragment? σ).map Fragment.neutral := by
  cases request with
  | group connective members =>
    have mapped := mapM_map σ.predicate? Predicate.neutral members
    simp only [fragment?, Fragments.neutral, mapped, Option.map_map]
    rfl
  | test | lower | upper | order | columns | count =>
    simp only [fragment?, Option.map_map]
    rfl
  | all => rfl

theorem Wiring.change?_neutral (wiring : Wiring) :
    wiring.change? σ.neutral = (wiring.change? σ).map RootChange.neutral := by
  cases wiring with
  | assign => rfl
  | attach type source target =>
    simp only [change?, Fragments.neutral]
    cases σ.column? source with
    | none => rfl
    | some c => cases σ.column? target <;> rfl
  | condition =>
    simp only [change?, Fragments.neutral, Option.map_map]
    rfl

theorem Clause.setting?_neutral (clause : Clause) :
    clause.setting? σ.neutral = (clause.setting? σ).map Setting.neutral := by
  cases clause with
  | selection | condition | order | grouping =>
    simp only [setting?, Fragments.neutral, Option.map_map]
    rfl
  | distinct | limit | offset => rfl

theorem Move.call?_neutral (move : Move) (choice : DialectChoice) (dialect : Dialect) :
    move.call? σ.neutral (.given Dialect.neutral) Dialect.neutral =
      (move.call? σ choice dialect).map Call.neutral := by
  cases move with
  | make h request =>
    simp only [call?, request.fragment?_neutral, Option.map_map]
    rfl
  | change ref wiring =>
    simp only [call?, wiring.change?_neutral, Option.map_map]
    rfl
  | set h clause =>
    simp only [call?, clause.setting?_neutral, Option.map_map]
    rfl
  | join =>
    simp only [call?, Option.map_map]
    rfl
  | aside | newBuilder | start | roots | newRoot | ask | newQuery | bind | render => rfl

end Neutral

end SqlSelect.Session
