import SqlSelect.Proofs.Session.Failures
import SqlSelect.Proofs.Session.Roots

/-!
The life of a root, from the call that makes it. Its alias and its join are each given once, in any
order, its condition as often as wanted, and calls that fail leave no trace. Every column that it
gives stands under its one alias.
-/
namespace SqlSelect

/-- What stays of a join whatever conditions are added to it. -/
def Join.wiring (j : Join) : JoinType × Column × Column := (j.type, j.source, j.target)

namespace Session

def RootChange.name? : RootChange → Option String
  | assign name => some name
  | attach _ _ _ | condition _ => none

def RootChange.wiring? : RootChange → Option (JoinType × Column × Column)
  | attach type source target => some (type, source, target)
  | assign _ | condition _ => none

/-- The root is what a list of changes has made of one that was new. -/
structure Lived (deeds : List RootChange) (r : TableRoot) : Prop where
  named : r.alias?.toList = deeds.filterMap RootChange.name?
  valid : ∀ name ∈ r.alias?, Identifier.isIdentifier name.toList = true
  wired : (r.join?.map Join.wiring).toList = deeds.filterMap RootChange.wiring?
  conditions : r.join?.bind Join.condition? = (deeds.filterMap RootChange.condition?).getLast?
  uncrossed : ∀ join ∈ r.join?, join.type = .cross → join.condition? = none

namespace Lived

variable {deeds : List RootChange} {r next : TableRoot}

theorem fresh (e : Entity) (h : Handle .resolver) (dialect : Dialect) :
    Lived [] (.fresh e h dialect) := ⟨rfl, nofun, rfl, rfl, nofun⟩

theorem bare_iff : Lived deeds r.bare ↔ Lived deeds r := by
  constructor <;> rintro ⟨named, valid, wired, conditions, uncrossed⟩ <;>
    exact ⟨named, valid, wired, conditions, uncrossed⟩

/-- A change that is accepted is the next of the list. -/
theorem apply (lived : Lived deeds r) {c : RootChange} (ok : c.apply r = .ok next) :
    Lived (deeds ++ [c]) next := by
  have kept {β : Type} (part? : RootChange → Option β) (other : part? c = none) :
      deeds.filterMap part? = (deeds ++ [c]).filterMap part? := by
    simp [other]
  have added {β : Type} (part? : RootChange → Option β) {x : β} (this : part? c = some x) :
      (deeds ++ [c]).filterMap part? = deeds.filterMap part? ++ [x] := by
    simp [this]
  obtain ⟨named, valid, wired, conditions, uncrossed⟩ := lived
  rcases RootChange.apply_ok ok with
    ⟨name, rfl, unnamed, rfl⟩ | ⟨type, source, target, rfl, apart, rfl⟩ |
    ⟨p, join, rfl, there, plain, rfl⟩
  · obtain ⟨-, identifier, -⟩ := TableRoot.withAlias_eq_ok.1 ok
    rw [unnamed] at named
    refine ⟨?_, ?_, wired.trans (kept _ rfl),
      conditions.trans (congrArg _ (kept _ rfl)), uncrossed⟩
    · rw [added RootChange.name? rfl, ← named]
      rfl
    · rintro _ ⟨⟩
      exact identifier
  · rw [apart] at wired conditions
    refine ⟨named.trans (kept _ rfl), valid, ?_, conditions.trans (congrArg _ (kept _ rfl)), ?_⟩
    · rw [added RootChange.wiring? rfl, ← wired]
      rfl
    · rintro _ ⟨⟩ -
      rfl
  · rw [there] at wired
    refine ⟨named.trans (kept _ rfl), valid, wired.trans (kept _ rfl), ?_, ?_⟩
    · rw [added RootChange.condition? rfl, List.getLast?_append]
      rfl
    · rintro _ ⟨⟩ crossed
      exact absurd crossed plain

theorem turns (lived : Lived deeds r) {change? : Option RootChange} (turns : Turns change? r next) :
    Lived (deeds ++ change?.toList) next := by
  cases change? with
  | none =>
    obtain rfl : next = r := turns
    simpa using lived
  | some c => exact lived.apply turns

theorem joined (lived : Lived deeds r) (apart : r.join? = none) {type : JoinType}
    {source target : Column} : Lived (deeds ++ [.attach type source target])
      { r with join? := some ⟨type, source, target, none⟩ } := by
  have attached : r.withJoin type source target =
      .ok { r with join? := some ⟨type, source, target, none⟩ } :=
    TableRoot.withJoin_eq_ok.2 ⟨apart, rfl⟩
  exact lived.apply attached

/-- What a builder declares has been given its alias first. -/
theorem aliasedRoot {b : Builder} {e : Entity} {name : String}
    (valid : Identifier.isIdentifier name.toList = true) :
    Lived [.assign name] (b.aliasedRoot e name) := by
  have assigned : (b.newRoot e).withAlias name = .ok (b.aliasedRoot e name) :=
    TableRoot.withAlias_eq_ok.2 ⟨rfl, valid, rfl⟩
  have born : Lived [] (b.newRoot e) := fresh e b.resolver b.dialect
  exact born.apply assigned

end Lived

/-! The call that makes a root. -/

/-- The root is there, under a handle that was given out. -/
structure Holds (s : Session) (ref : RootRef) : Prop where
  given : s.Given ref
  there : s.has ref = true

/-- The call is to make the root, and to begin its life with the given changes. -/
inductive Makes (s : Session) : Call → RootRef → List RootChange → Prop
  | newRoot (e : Entity) (h : Handle .resolver) (dialect : Dialect) :
      Makes s (.newRoot e h dialect) (.loose ⟨s.roots.size⟩) []
  | start (h : Handle .builder) (e : Entity) :
      Makes s (.start h e) (.start h) [.assign (s.builders.get h).startAlias]
  | join {h : Handle .builder} {e : Entity} {source : Column} {targetField typeName : String}
      {type : JoinType} {name column : String}
      (typed : (s.builders.get h).database.join? typeName = some type)
      (free : name = Alias.firstFree (s.builders.get h).taken (s.builders.get h).joinAlias)
      (named : e.columnName? targetField = some column) :
      Makes s (.join h e source targetField typeName)
        (.joined h (s.builders.get h).joins.length)
        [.assign name, .attach type source (.ofExpr (.column name column))]

theorem holds_bare (s : Session) (ref : RootRef) : s.bare.Holds ref ↔ s.Holds ref := by
  constructor
  · rintro ⟨given, there⟩
    exact ⟨(given_bare s ref).1 given, has_bare s ▸ there⟩
  · rintro ⟨given, there⟩
    exact ⟨(given_bare s ref).2 given, (has_bare s).symm ▸ there⟩

section Meaning

variable {s t : Session} {c : Call} {a : Answer} {ref : RootRef}

theorem Makes.of_bare {own : List RootChange} (makes : Makes s.bare c ref own) :
    Makes s c ref own := by
  cases makes with
  | newRoot e h dialect => exact .newRoot e h dialect
  | start h e => exact .start h e
  | @join h e source targetField typeName type name column typed free named =>
    have joins : (s.bare.builders.get h).joins.length = (s.builders.get h).joins.length :=
      List.length_map _
    have names : (s.bare.builders.get h).taken = (s.builders.get h).taken := Builder.taken_bare _
    rw [joins]
    rw [names] at free
    exact .join typed free named

/-- Where one builder comes in the place of another, only roots of its own can be new. -/
theorem holds_of_setBuilder {h : Handle .builder} {b : Builder}
    (holds : (s.setBuilder h b).Holds ref)
    (start : ref = .start h → b.start?.isSome = true → s.has ref = true)
    (joined : ∀ i, ref = .joined h i → i < b.joins.length → s.has ref = true) : s.Holds ref := by
  have there := holds.there
  cases ref with
  | start k =>
    refine ⟨holds.given, ?_⟩
    by_cases own : k = h
    · subst own
      rw [has, setBuilder, Store.get_set_self] at there
      exact start rfl there
    · rwa [has, setBuilder, Store.get_set_of_ne _ own] at there
  | joined k i =>
    refine ⟨holds.given, ?_⟩
    by_cases own : k = h
    · subst own
      rw [has, setBuilder, Store.get_set_self] at there
      exact joined i rfl (of_decide_eq_true there)
    · rwa [has, setBuilder, Store.get_set_of_ne _ own] at there
  | loose k => exact ⟨holds.given, there⟩

theorem made_of_start {h : Handle .builder} {e : Entity} {b : Builder}
    (plain : (s.builders.get h).plainStart e = .ok b) (holds : (s.setBuilder h b).Holds ref) :
    s.Holds ref ∨
      ∃ own, Makes s (.start h e) ref own ∧ Lived own ((s.setBuilder h b).root ref) := by
  obtain ⟨unset, named, rfl⟩ := Builder.plainStart_checked plain
  by_cases new : ref = .start h
  · subst new
    refine .inr ⟨_, .start h e, ?_⟩
    rw [root, setBuilder, Store.get_set_self]
    exact Lived.aliasedRoot named
  · refine .inl (holds_of_setBuilder holds (fun own => absurd own new) fun i own inside => ?_)
    rw [own]
    exact decide_eq_true inside

theorem made_of_join {h : Handle .builder} {e : Entity} {source : Column}
    {targetField typeName : String} {b : Builder}
    (plain : (s.builders.get h).plainJoin e source targetField typeName = .ok b)
    (holds : (s.setBuilder h b).Holds ref) :
    s.Holds ref ∨ ∃ own, Makes s (.join h e source targetField typeName) ref own ∧
      Lived own ((s.setBuilder h b).root ref) := by
  obtain ⟨declared, valid, type, column, typed, named, rfl⟩ := Builder.plainJoin_checked plain
  by_cases new : ref = .joined h (s.builders.get h).joins.length
  · subst new
    refine .inr ⟨_, .join typed rfl named, ?_⟩
    rw [root, setBuilder, Store.get_set_self, List.getElem?_concat_length]
    exact (Lived.aliasedRoot valid).joined rfl
  · refine .inl (holds_of_setBuilder holds (fun own _ => own ▸ declared) fun i own inside => ?_)
    have other : i ≠ (s.builders.get h).joins.length := fun last => new (last ▸ own)
    rw [List.length_append, List.length_singleton] at inside
    rw [own]
    exact decide_eq_true (Nat.lt_of_le_of_ne (Nat.le_of_lt_succ inside) other)

theorem holds_of_addBuilder {b : Builder} (begins : b.start? = none) (joins : b.joins = [])
    (holds : { s with builders := (s.builders.add b).2 }.Holds ref) : s.Holds ref := by
  obtain ⟨given, there⟩ := holds
  have old {h : Handle .builder} (le : h.index < s.builders.size + 1) (ne : h ≠ ⟨s.builders.size⟩) :
      h.index < s.builders.size :=
    Nat.lt_of_le_of_ne (Nat.le_of_lt_succ le) fun last => ne (by rw [← last])
  have same {h : Handle .builder} (ne : h ≠ ⟨s.builders.size⟩) :
      (s.builders.add b).2.get h = s.builders.get h := Store.get_set_of_ne _ ne b
  have held : (s.builders.add b).2.get ⟨s.builders.size⟩ = b := Store.get_add_self _ b
  cases ref with
  | start h =>
    by_cases new : h = ⟨s.builders.size⟩
    · subst new
      rw [has, held, begins] at there
      cases there
    · rw [has, same new] at there
      exact ⟨old given new, there⟩
  | joined h i =>
    by_cases new : h = ⟨s.builders.size⟩
    · subst new
      rw [has, held, joins] at there
      cases of_decide_eq_true there
    · rw [has, same new] at there
      exact ⟨old given new, there⟩
  | loose h => exact ⟨given, there⟩

/-- A root that is there after a call was there before, or the call has made it. -/
theorem made_of_meaning (meant : c.meaning s = .ok (a, t)) (holds : t.Holds ref) :
    s.Holds ref ∨ ∃ own, Makes s c ref own ∧ Lived own (t.root ref) := by
  cases leaves_of_meaning meant with
  | newBuilder make =>
    obtain ⟨-, -, rfl⟩ := Builder.make_eq_ok.1 make
    exact .inl (holds_of_addBuilder rfl rfl holds)
  | start plain => exact made_of_start plain holds
  | join plain => exact made_of_join plain holds
  | @newRoot e h dialect r =>
    obtain ⟨-, same⟩ := Prod.mk.inj (Except.ok.inj meant)
    cases ref with
    | start | joined => exact .inl ⟨holds.given, holds.there⟩
    | loose k =>
      by_cases new : k = ⟨s.roots.size⟩
      · subst new
        have held := congrArg (fun t : Session => t.roots.get ⟨s.roots.size⟩) same
        have new : (s.roots.add r).2.get ⟨s.roots.size⟩ = (TableRoot.fresh e h dialect).bare :=
          held.symm.trans (Store.get_add_self s.roots _)
        refine .inr ⟨[], .newRoot e h dialect, ?_⟩
        rw [root, new]
        exact Lived.bare_iff.2 (.fresh e h dialect)
      · have given : k.index < s.roots.size + 1 := holds.given
        have old : k.index < s.roots.size :=
          Nat.lt_of_le_of_ne (Nat.le_of_lt_succ given) fun last => new (by rw [← last])
        exact .inl ⟨old, decide_eq_true old⟩
  | @change other change r changed =>
    cases other with
    | start k =>
      refine .inl (holds_of_setBuilder holds (fun own begins => ?_) fun i own inside => ?_)
      · rw [own, has]
        simpa using begins
      · rw [own]
        exact decide_eq_true inside
    | joined k i =>
      refine .inl (holds_of_setBuilder holds (fun own begins => ?_) fun i own inside => ?_)
      · rw [own]
        exact begins
      · rw [own]
        exact decide_eq_true (by simpa using inside)
    | loose k => exact .inl ⟨by cases ref <;> exact holds.given, by cases ref <;> exact holds.there⟩
  | newQuery | bind | set => exact .inl ⟨by cases ref <;> exact holds.given, holds.there⟩
  | same => exact .inl holds

end Meaning

/-! Whole runs. -/

/-- The change of a root that a call makes, if it succeeds. -/
def change? (s : Session) (ref : RootRef) (c : Call) : Option RootChange :=
  if (s.answer c).isOk then c.changeOn? ref else none

/-- All changes of a root that the calls of a run make, in order. -/
def changes (ref : RootRef) : Session → List Call → List RootChange
  | _, [] => []
  | s, c :: calls => (s.change? ref c).toList ++ changes ref (s.next c) calls

section Runs

variable {s : Session} (sound : s.Sound) {ref : RootRef} {deeds : List RootChange}
include sound

theorem turns_next (holds : s.Holds ref) (c : Call) : (s.next c).Holds ref ∧
    Turns (s.change? ref c) (s.root ref).bare ((s.next c).root ref).bare := by
  rw [← holds_bare] at holds ⊢
  rw [← root_bare, ← root_bare, change?]
  rcases next_cases sound c with ⟨a, answered, meant⟩ | ⟨e, failed, left⟩
  · obtain ⟨there, turns⟩ := root_of_meaning meant holds.given holds.there
    rw [answered]
    exact ⟨⟨holds.given.meaning meant, there⟩, turns⟩
  · rw [failed, left]
    exact ⟨holds, rfl⟩

/-- A root that is there lives on by the changes that are made of it. -/
theorem Lived.after (holds : s.Holds ref) (lived : Lived deeds (s.root ref)) (calls : List Call) :
    (s.after calls).Holds ref ∧
      Lived (deeds ++ changes ref s calls) ((s.after calls).root ref) := by
  induction calls generalizing s deeds with
  | nil => exact ⟨holds, by simpa [changes] using lived⟩
  | cons c calls ih =>
    obtain ⟨there, turns⟩ := turns_next sound holds c
    have next := bare_iff.1 ((bare_iff.2 lived).turns turns)
    rw [changes, ← List.append_assoc]
    exact ih (sound.next c) there next

theorem made_next {c : Call} (holds : (s.next c).Holds ref) (new : ¬ s.Holds ref) :
    ∃ own, (∃ a, s.answer c = .ok a) ∧ Makes s c ref own ∧ Lived own ((s.next c).root ref) := by
  rw [← holds_bare] at holds new
  rcases next_cases sound c with ⟨a, answered, meant⟩ | ⟨e, failed, left⟩
  · obtain ⟨own, makes, lived⟩ := (made_of_meaning meant holds).resolve_left new
    rw [root_bare] at lived
    exact ⟨own, ⟨a, answered⟩, makes.of_bare, Lived.bare_iff.1 lived⟩
  · exact absurd (left ▸ holds) new

/-- A root that comes to be there in a run is made by one of its calls, and lives by the changes
that are made of it from then on. -/
theorem made_after {calls : List Call} (holds : (s.after calls).Holds ref) (new : ¬ s.Holds ref) :
    ∃ before c behind own, calls = before ++ c :: behind ∧
      (∃ a, (s.after before).answer c = .ok a) ∧ Makes (s.after before) c ref own ∧
      Lived (own ++ changes ref ((s.after before).next c) behind) ((s.after calls).root ref) := by
  induction calls generalizing s with
  | nil => exact absurd holds new
  | cons c calls ih =>
    by_cases there : (s.next c).Holds ref
    · obtain ⟨own, answered, makes, lived⟩ := made_next sound there new
      exact ⟨[], c, calls, own, rfl, answered, makes, (lived.after (sound.next c) there calls).2⟩
    · obtain ⟨before, d, behind, own, rfl, made⟩ := ih (sound.next c) holds there
      exact ⟨c :: before, d, behind, own, rfl, made⟩

end Runs

theorem not_holds_initial (ref : RootRef) : ¬ initial.Holds ref := by
  rintro ⟨given, -⟩
  cases ref <;> exact Nat.not_lt_zero _ given

/-- What was given once is there for good. -/
theorem eq_some_of_toList {α : Type} {o o' : Option α} {more : List α}
    (extended : o'.toList = o.toList ++ more) {x : α} (given : o = some x) : o' = some x := by
  subst given
  cases o' with
  | none => cases extended
  | some y => exact congrArg some (List.cons.inj extended).1

/-- The expression of the column that a root is asked for, under an alias. -/
def Question.expr? (r : TableRoot) (name : String) : Question → Option Expr
  | all => some (.all name)
  | column field _ => (r.entity.columnName? field).map (.column name)
  | count field _ => (r.entity.columnName? field).map fun column => .count (.column name column)
  | formatDate field pattern _ => (r.entity.columnName? field).map fun column =>
    .formatDate r.dialect.database (.column name column) pattern
  | shown | aliasName | table => none

theorem Question.expr?_of_reply {r : TableRoot} {question : Question} {c : Column}
    (given : question.reply r = .ok (.column c)) :
    ∃ name, r.alias? = some name ∧ question.expr? r name = some c.expr := by
  -- A column of a field is an expression over the plain one, with a name for the result or not.
  have ofField {field : String} {name? : Option String} {f : Expr → Expr}
      (plain : (r.plainExpr field >>= fun e => Column.ofExprAs (f e) name?) = .ok c) :
      ∃ name, r.alias? = some name ∧
        (r.entity.columnName? field).map (fun column => f (.column name column)) =
          some c.expr := by
    obtain ⟨e, plain, renamed⟩ := except_bind_eq_ok.1 plain
    obtain ⟨column, name, called, aliased, rfl⟩ := r.plainExpr_ok plain
    refine ⟨name, aliased, ?_⟩
    rw [called, Column.expr_ofExprAs renamed]
    rfl
  cases question with
  | shown | table => cases given
  | aliasName =>
    obtain ⟨_, -, other⟩ := except_map_eq_ok.1 given
    cases other
  | all =>
    obtain ⟨_, whole, same⟩ := except_map_eq_ok.1 given
    cases same
    obtain ⟨name, aliased, rfl⟩ := except_map_eq_ok.1 whole
    exact ⟨name, r.aliasName_eq_ok.1 aliased, rfl⟩
  | column field name? =>
    obtain ⟨_, plain, same⟩ := except_map_eq_ok.1 given
    cases same
    exact ofField plain
  | count field name? =>
    obtain ⟨_, plain, same⟩ := except_map_eq_ok.1 given
    cases same
    exact ofField plain
  | formatDate field pattern name? =>
    obtain ⟨_, plain, same⟩ := except_map_eq_ok.1 given
    cases same
    exact ofField plain

/-- Every root that is there has been made by one call, and what it is now comes from the changes
that it was made with and those that were accepted on it since: it has no alias before one is
given and no join before one is attached, each is given once and stays, the alias is an identifier,
and the condition is the last one added, never on a cross join. A call that fails leaves the root as
it is, and every column that it gives is that of its field under its one alias. -/
theorem root_follows_changes {calls : List Call} {ref : RootRef}
    (holds : (initial.after calls).Holds ref) (more : List Call) :
    let s := initial.after calls
    let t := s.after more
    (∃ before c behind own, calls = before ++ c :: behind ∧
      (∃ a, (initial.after before).answer c = .ok a) ∧ Makes (initial.after before) c ref own ∧
      Lived (own ++ changes ref ((initial.after before).next c) behind) (s.root ref)) ∧
    (∀ name, (s.root ref).alias? = some name → (t.root ref).alias? = some name) ∧
    (∀ wiring, (s.root ref).join?.map Join.wiring = some wiring →
      (t.root ref).join?.map Join.wiring = some wiring) ∧
    (∀ c e, s.answer c = .error e → (s.next c).root ref = s.root ref) ∧
    ∀ question c, s.answer (.ask ref question) = .ok (.column c) →
      ∃ name, (s.root ref).alias? = some name ∧
        question.expr? (s.root ref) name = some c.expr := by
  intro s t
  have sound : s.Sound := sound_after calls
  obtain ⟨before, c, behind, own, split, answered, makes, lived⟩ :=
    made_after sound_initial holds (not_holds_initial ref)
  obtain ⟨-, later⟩ := lived.after sound holds more
  refine ⟨⟨before, c, behind, own, split, answered, makes, lived⟩, ?_, ?_, ?_, ?_⟩
  · intro name given
    have extended := later.named
    rw [List.filterMap_append, ← lived.named] at extended
    exact eq_some_of_toList extended given
  · intro wiring given
    have extended := later.wired
    rw [List.filterMap_append, ← lived.wired] at extended
    exact eq_some_of_toList extended given
  · intro c e failed
    obtain ⟨builders, roots, -⟩ := keepsObjects_next failed
    cases ref with
    | start | joined => simp only [root, builders]
    | loose => simp only [root, roots]
  · intro question c given
    rcases next_cases sound (.ask ref question) with ⟨a, answered, meant⟩ | ⟨e, failed, -⟩
    · obtain rfl := Except.ok.inj (answered.symm.trans given)
      obtain ⟨answer, replied, same⟩ := except_map_eq_ok.1 meant
      obtain ⟨rfl, -⟩ := Prod.mk.inj same
      rw [root_bare] at replied
      have known := Question.expr?_of_reply replied
      cases question <;> exact known
    · cases failed.symm.trans given

/-- A root that is joined before it has an alias. Until then a second join is refused for want of
an alias, and afterwards because the root is joined. -/
theorem root_keeps_first_join :
    let user : Entity := .base ⟨1, "User", none, [⟨"userId", none⟩]⟩
    let ref : RootRef := .loose ⟨0⟩
    let source : Column := .ofExpr (.column "m" "id")
    let again : Call := .change ref (.attach .inner source source)
    let made : Call := .newRoot user sharedResolver ⟨.mysql, 0⟩
    let deeds : List RootChange := [.attach .cross source source, .assign "x"]
    let calls : List Call := [made, .change ref (.attach .cross source source), again,
      .change ref (.assign "1x"), .change ref (.assign "x")]
    let s := initial.after calls
    let t := s.after [.change ref (.assign "y"), again]
    s.Holds ref ∧
    (initial.after [made, .change ref (.attach .cross source source)]).answer again =
      .error (.aliasMissing "User") ∧
    s.answer again = .error (.alreadyJoined "User" "x") ∧ (s.next again).root ref = s.root ref ∧
    changes ref (initial.next made) calls.tail = deeds ∧
    (t.root ref).alias? = some "x" ∧
    (t.root ref).join?.map Join.wiring = some (.cross, source, source) ∧
    s.answer (.ask ref (.count "userId" none)) =
      .ok (.column (.ofExpr (.count (.column "x" "user_id")))) := by
  intro user ref source again made deeds calls s t
  have holds : s.Holds ref := ⟨Nat.lt_succ_self 0, by cbv⟩
  have missing : (initial.after [made, .change ref (.attach .cross source source)]).answer again =
      .error (.aliasMissing "User") := by cbv
  have refused : s.answer again = .error (.alreadyJoined "User" "x") := by cbv
  have lived : changes ref (initial.next made) calls.tail = deeds := by cbv
  have named : (s.root ref).alias? = some "x" := by cbv
  have joined : (s.root ref).join?.map Join.wiring = some (.cross, source, source) := by cbv
  have counted : s.answer (.ask ref (.count "userId" none)) =
      .ok (.column (.ofExpr (.count (.column "x" "user_id")))) := by cbv
  obtain ⟨-, names, joins, unchanged, -⟩ :=
    root_follows_changes holds [.change ref (.assign "y"), again]
  exact ⟨holds, missing, refused, unchanged again _ refused, lived, names "x" named,
    joins _ joined, counted⟩

end Session

end SqlSelect
