import SqlSelect.Proofs.Query.Neutral
import SqlSelect.Proofs.Query.Portable
import SqlSelect.Proofs.Session.Roots

/-!
Runs that every database takes: no concatenations, no formatted dates, no full joins, no rows
distinct by columns, all names of the shape that names have to be of, and every fragment one that
such calls give. What these calls make of a session and what they answer can be used in further
calls, and every statement that is rendered can be read.
-/
namespace SqlSelect

theorem Store.forall_set {kind : ObjectKind} {α : Type} {P : Handle kind → α → Prop}
    {s : Store kind α} (all : ∀ h, P h (s.get h)) {k : Handle kind} {x : α} (new : P k x)
    (h : Handle kind) : P h ((s.set k x).get h) := by
  by_cases same : h = k
  · subst same
    rwa [get_set_self]
  · rw [get_set_of_ne _ same]
    exact all h

theorem Store.forall_add {kind : ObjectKind} {α : Type} {P : α → Prop} {s : Store kind α}
    (all : ∀ h : Handle kind, h.index < s.size → P (s.get h)) {x : α} (new : P x)
    (h : Handle kind) (given : h.index < (s.add x).2.size) : P ((s.add x).2.get h) := by
  by_cases same : h = ⟨s.size⟩
  · subst same
    have held : (s.add x).2.get ⟨s.size⟩ = x := get_add_self s x
    rwa [held]
  · have old : (s.add x).2.get h = s.get h := get_set_of_ne _ same x
    have before : h.index ≠ s.size := fun at_end => same (by rw [← at_end])
    rw [old]
    exact all h (Nat.lt_of_le_of_ne (Nat.le_of_lt_succ given) before)

/-- Only roots with a join can stand in a statement. -/
theorem Query.wired_of_statement {q : Query} {sources : Sources} {sql : String}
    (stated : q.statement (some sources) = .ok sql) :
    ∀ r ∈ sources.joins, r.join?.isSome = true := by
  have each {rs : List TableRoot} {checked : List Unit}
      (all : rs.mapM TableRoot.checkJoined = .ok checked) : ∀ r ∈ rs, r.join?.isSome = true := by
    intro r mem
    obtain ⟨u, -, ok⟩ := exists_of_mem_right (mapM_eq_ok_iff.1 all).flip mem
    unfold TableRoot.checkJoined at ok
    cases wired : r.join? with
    | some join => rfl
    | none => cases named : r.aliasName <;> simp [wired, named, bind, Except.bind] at ok
  unfold statement at stated
  cases begins : sources.start? with
  | none => simp [begins] at stated
  | some start =>
    simp only [begins] at stated
    obtain ⟨selected, -, stated⟩ := except_bind_eq_ok.1 stated
    obtain ⟨name, -, stated⟩ := except_bind_eq_ok.1 stated
    obtain ⟨checked, all, -⟩ := except_bind_eq_ok.1 stated
    exact each all

/-- Both the start and the joined roots are over names of the shape that names have to be of. -/
structure Builder.Portable (d : Database) (b : Builder) : Prop where
  start : ∀ r ∈ b.start?, r.Portable d
  joins : ∀ r ∈ b.joins, r.Portable d

namespace Session

/-- All tables of a session are over names of the shape that names have to be of, and its builders
and conditions are for the one database. -/
structure Portable (d : Database) (s : Session) : Prop where
  databases : ∀ h : Handle .builder, h.index < s.builders.size → (s.builders.get h).database = d
  owned : ∀ h, (s.builders.get h).Portable d
  roots : ∀ h : Handle .root, h.index < s.roots.size → (s.roots.get h).Portable d
  apart : ∀ h : Handle .root, s.roots.size ≤ h.index → (s.roots.get h).join? = none
  queries : ∀ h, (s.queries.get h).Portable d

variable {d : Database}

theorem portable_initial (d : Database) : initial.bare.Portable d where
  databases _ given := absurd given (Nat.not_lt_zero _)
  owned _ := ⟨nofun, nofun⟩
  roots _ given := absurd given (Nat.not_lt_zero _)
  apart _ _ := rfl
  queries _ := ⟨⟨nofun, nofun, nofun⟩, nofun, rfl⟩

namespace Portable

variable {s : Session}

theorem root (h : s.Portable d) {ref : RootRef} (there : s.has ref = true) :
    (s.root ref).Portable d := by
  cases ref with
  | start k =>
    obtain ⟨r, begins⟩ := Option.isSome_iff_exists.1 there
    rw [Session.root, begins]
    exact (h.owned k).start r begins
  | joined k i =>
    have inside := of_decide_eq_true there
    rw [Session.root, List.getElem?_eq_getElem inside]
    exact (h.owned k).joins _ (List.getElem_mem inside)
  | loose k => exact h.roots k (of_decide_eq_true there)

/-- What is not there has no join, so it cannot stand in a statement. -/
theorem root_of_joined (h : s.Portable d) {ref : RootRef}
    (wired : (s.root ref).join?.isSome = true) : (s.root ref).Portable d := by
  refine h.root (has_of_joined ?_ wired)
  rintro k rfl
  by_contra outside
  have wired : (s.roots.get k).join?.isSome = true := wired
  rw [h.apart k (Nat.le_of_not_lt outside)] at wired
  cases wired

theorem setBuilder (before : s.Portable d) {h : Handle .builder} {b : Builder}
    (database : b.database = (s.builders.get h).database) (owned : b.Portable d) :
    (s.setBuilder h b).Portable d where
  databases := Store.forall_set (P := fun k (b : Builder) =>
      k.index < s.builders.size → b.database = d) before.databases
    fun given => database.trans (before.databases h given)
  owned := Store.forall_set before.owned owned
  roots := before.roots
  apart := before.apart
  queries := before.queries

theorem addBuilder (before : s.Portable d) {b : Builder} (database : b.database = d)
    (owned : b.Portable d) :
    { s with builders := (s.builders.add b).2 }.Portable d where
  databases := Store.forall_add (P := fun b : Builder => b.database = d) before.databases database
  owned := Store.forall_set before.owned owned
  roots := before.roots
  apart := before.apart
  queries := before.queries

theorem setQuery (before : s.Portable d) {q : Query} (portable : q.Portable d)
    (h : Handle .query) : (s.setQuery h q).Portable d :=
  { before with queries := Store.forall_set before.queries portable }

theorem addQuery (before : s.Portable d) {q : Query} (portable : q.Portable d) :
    { s with queries := (s.queries.add q).2 }.Portable d :=
  { before with queries := Store.forall_set before.queries portable }

theorem addRoot (before : s.Portable d) {r : TableRoot} (portable : r.Portable d) :
    { s with roots := (s.roots.add r).2 }.Portable d where
  databases := before.databases
  owned := before.owned
  roots := Store.forall_add before.roots portable
  apart h outside := by
    have new : h ≠ ⟨s.roots.size⟩ := by
      rintro rfl
      exact absurd outside (Nat.not_succ_le_self _)
    have same : (s.roots.add r).2.get h = s.roots.get h := Store.get_set_of_ne _ new r
    exact same ▸ before.apart h (Nat.le_of_succ_le outside)
  queries := before.queries

theorem setRoot (before : s.Portable d) {ref : RootRef} (there : s.has ref = true) {r : TableRoot}
    (portable : r.Portable d) : (s.setRoot ref r).Portable d := by
  cases ref with
  | start h =>
    refine before.setBuilder rfl ⟨fun k mem => ?_, (before.owned h).joins⟩
    obtain ⟨-, -, rfl⟩ := Option.map_eq_some_iff.1 mem
    exact portable
  | joined h i =>
    refine before.setBuilder rfl ⟨(before.owned h).start, fun k mem => ?_⟩
    rcases List.mem_or_eq_of_mem_set mem with mem | rfl
    · exact (before.owned h).joins k mem
    · exact portable
  | loose h =>
    have roots := Store.forall_set (P := fun k (r : TableRoot) =>
      k.index < s.roots.size → r.Portable d) before.roots (k := h) fun _ => portable
    have apart := Store.forall_set (P := fun k (r : TableRoot) =>
      s.roots.size ≤ k.index → r.join? = none) before.apart (k := h) (x := r)
      fun outside => absurd (of_decide_eq_true there) (Nat.not_lt_of_le outside)
    exact { before with roots := roots, apart := apart }

/-- A statement that is rendered can be read, and its pieces are those of the query. -/
theorem scan_statement (h : s.Portable d) {k : Handle .query} {sql : String}
    (stated : (s.queries.get k).statement ((s.queries.get k).builder?.map s.sources) = .ok sql) :
    ∃ sources start selected, (s.queries.get k).builder?.map s.sources = some sources ∧
      sources.start? = some start ∧ (s.queries.get k).selectClause = .ok selected ∧
      d.scan sql.toList =
        some (words selected ++ (s.queries.get k).tailPieces start sources.joins) := by
  obtain ⟨sources, start, selected, given, begins, chosen, rfl⟩ := Query.statement_ok stated
  refine ⟨sources, start, selected, given, begins, chosen, ?_⟩
  rw [given] at stated
  obtain ⟨b, -, rfl⟩ := Option.map_eq_some_iff.1 given
  refine (h.queries k).scan_statement ((h.owned b).start start begins) (fun r mem => ?_) chosen
  have wired := Query.wired_of_statement stated r mem
  obtain ⟨ref, -, rfl⟩ := List.mem_map.1 mem
  exact h.root_of_joined wired

end Portable

/-! Calls and answers. -/

/-- Texts without strings, and fragments that can be handed over again. -/
def Answer.Portable (d : Database) : Answer → Prop
  | text content => quoteMark ∉ content.toList
  | column c => c.Portable
  | predicate p => p.Regular d
  | selection s => s.Portable
  | distinctOn _ => False
  | order term => term.column.Portable
  | done | root _ | roots _ _ => True

def Aside.Portable : Aside → Prop
  | table _ e | column _ e _ => e.Shaped
  | sharedDialect _ | freshDialect _ | clearDialects => False
  | entity _ _ _ _ | newResolver _ | clear _ | listen _ _ _ _ | unlisten _ _ => True

def CountArgument.Portable : CountArgument → Prop
  | root r => ∃ ref, r = .here ref
  | column c => c.Portable
  | other => True

def Fragment.Portable (d : Database) : Fragment → Prop
  | criterion c => c.Dateless ∧ ∀ column ∈ c.columns, column.Portable
  | group _ members => ∀ p ∈ members, p.Regular d
  | lower c | upper c | order c _ => c.Portable
  | columns list => ∀ c ∈ list, c.Portable
  | all r => ∃ ref, r = .here ref
  | count items => ∀ item ∈ items, item.Portable
  | concat _ | distinctOn _ => False

def RootChange.Portable (d : Database) : RootChange → Prop
  | assign _ => True
  | attach _ source target => source.Portable ∧ target.Portable
  | condition p => p.Regular d

def Question.Portable : Question → Prop
  | formatDate _ _ _ => False
  | shown | aliasName | table | all | column _ _ | count _ _ => True

def Setting.Portable (d : Database) : Setting → Prop
  | selection s => s.Portable
  | condition p => p.Regular d
  | distinctOn _ => False
  | order arguments => ∀ a ∈ arguments, ∀ term ∈ a.terms, term.column.Portable
  | grouping columns => ∀ c ∈ columns, c.Portable
  | distinct _ | limit _ | offset _ => True

def Call.Portable (d : Database) : Call → Prop
  | aside a => a.Portable
  | newBuilder options => options.dialect = .named d.name
  | start _ e => e.Shaped
  | join _ e source _ typeName =>
    e.Shaped ∧ source.Portable ∧ ∃ type : JoinType, type ≠ .full ∧ typeName = type.name
  | make _ f => f.Portable d
  | newRoot e _ _ => e.Shaped
  | change _ c => c.Portable d
  | ask _ question => question.Portable
  | set _ c => c.Portable d
  | roots _ | newQuery _ | bind _ _ | render _ => True

/-- The call works on builders and roots that are there. -/
def Call.isOn (s : Session) : Call → Bool
  | start h _ | join h _ _ _ _ | roots h => h.index < s.builders.size
  | make h f => h.index < s.builders.size && f.refs.all s.has
  | change ref _ | ask ref _ => s.has ref
  | aside _ | newBuilder _ | newRoot _ _ _ | newQuery _ | bind _ _ | set _ _ | render _ => true

/-- What is counted are the rows of one root, or columns that were given. -/
theorem ofCount_ok {rootAt : RootRef → TableRoot} {items : List CountArgument} {s : Selection}
    (counted : Selection.ofCount (items.map (CountArgument.countable rootAt)) = .ok s) :
    (∃ r name, items = [.root r] ∧ (r.root rootAt).aliasName = .ok name ∧ s = .countAll name) ∨
    ∃ columns, s = .countColumns columns ∧ ∀ c ∈ columns, .column c ∈ items := by
  have chosen {c : Column} (mem : c ∈ (items.map (CountArgument.countable rootAt)).filterMap
      Selection.Countable.column?) : .column c ∈ items := by
    obtain ⟨countable, there, isColumn⟩ := List.mem_filterMap.1 mem
    obtain ⟨item, inside, rfl⟩ := List.mem_map.1 there
    cases item with
    | column c => exact Option.some.inj isColumn ▸ inside
    | root | other => cases isColumn
  by_cases single : ∃ r, items = [.root r]
  · obtain ⟨r, rfl⟩ := single
    obtain ⟨name, named, rfl⟩ := except_map_eq_ok.1 counted
    exact .inl ⟨r, name, rfl, named, rfl⟩
  · have many (r : TableRoot) : items.map (CountArgument.countable rootAt) ≠ [.root r] := by
      intro only
      match items, only with
      | [.root r], _ => exact single ⟨r, rfl⟩
    rw [Selection.ofCount_many many] at counted
    split at counted
    · cases counted
    · split at counted
      · cases counted
      · obtain rfl := Except.ok.inj counted
        exact .inr ⟨_, rfl, fun c mem => chosen mem⟩

theorem Fragment.portable_make {f : Fragment} (h : f.Portable d) {rootAt : RootRef → TableRoot}
    (there : ∀ ref ∈ f.refs, (rootAt ref).Portable d) {a : Answer}
    (made : f.make d rootAt = .ok a) : a.Portable d := by
  have qualifier {ref : RootRef} (mem : ref ∈ f.refs) {name : String}
      (named : (rootAt ref).aliasName = .ok name) :
      Identifier.isIdentifier name.toList = true :=
    (there ref mem).named name ((rootAt ref).aliasName_eq_ok.1 named)
  cases f with
  | criterion c =>
    obtain ⟨p, given, rfl⟩ := except_map_eq_ok.1 made
    exact Criterion.regular_of_make given fun column mem => (h.2 column mem).regular d
  | group connective members =>
    obtain ⟨p, given, rfl⟩ := except_map_eq_ok.1 made
    cases members with
    | nil => cases given
    | cons first others =>
      obtain rfl := Except.ok.inj given
      exact Predicate.allRegular_iff.2 h
  | lower c =>
    obtain rfl := Except.ok.inj made
    exact Column.Portable.lower h
  | upper c =>
    obtain rfl := Except.ok.inj made
    exact Column.Portable.upper h
  | order c direction =>
    obtain rfl := Except.ok.inj made
    exact h
  | columns list =>
    obtain ⟨s, given, rfl⟩ := except_map_eq_ok.1 made
    cases list with
    | nil => cases given
    | cons first others =>
      obtain rfl := Except.ok.inj given
      exact h
  | all r =>
    obtain ⟨ref, rfl⟩ := h
    obtain ⟨s, given, rfl⟩ := except_map_eq_ok.1 made
    obtain ⟨name, named, rfl⟩ := except_map_eq_ok.1 given
    exact qualifier List.mem_cons_self named
  | count items =>
    obtain ⟨s, given, rfl⟩ := except_map_eq_ok.1 made
    rcases ofCount_ok given with ⟨r, name, rfl, named, rfl⟩ | ⟨columns, rfl, each⟩
    · obtain ⟨ref, rfl⟩ := h _ List.mem_cons_self
      exact qualifier List.mem_cons_self named
    · exact fun c mem => h _ (each c mem)
  | concat | distinctOn => exact h.elim

theorem Question.portable_reply {question : Question} (h : question.Portable) {r : TableRoot}
    (there : r.Portable d) {a : Answer} (replied : question.reply r = .ok a) : a.Portable d := by
  have column {field : String} {e : Expr} (given : r.plainExpr field = .ok e) :
      ∀ d, e.Regular d := by
    obtain ⟨name, qualifier, named, aliased, rfl⟩ := r.plainExpr_ok given
    exact fun d => ⟨there.named qualifier aliased, there.columns field name named⟩
  cases question with
  | shown =>
    obtain rfl := Except.ok.inj replied
    trivial
  | aliasName =>
    obtain ⟨name, named, rfl⟩ := except_map_eq_ok.1 replied
    exact quoteMark_not_mem_of_isIdentifier (there.named name (r.aliasName_eq_ok.1 named))
  | table =>
    obtain rfl := Except.ok.inj replied
    exact quoteMark_not_mem_of_isQualified there.table
  | all =>
    obtain ⟨c, given, rfl⟩ := except_map_eq_ok.1 replied
    obtain ⟨qualifier, named, rfl⟩ := except_map_eq_ok.1 given
    exact ⟨fun d => there.named qualifier (r.aliasName_eq_ok.1 named), nofun⟩
  | column field name? =>
    obtain ⟨c, given, rfl⟩ := except_map_eq_ok.1 replied
    obtain ⟨e, found, given⟩ := except_bind_eq_ok.1 given
    exact Column.portable_ofExprAs given (column found)
  | count field name? =>
    obtain ⟨c, given, rfl⟩ := except_map_eq_ok.1 replied
    obtain ⟨e, found, given⟩ := except_bind_eq_ok.1 given
    exact Column.portable_ofExprAs given fun d => column found d
  | formatDate => exact h.elim

theorem Aside.portable_reply {a : Aside} (h : a.Portable) {b : Answer}
    (replied : a.reply = .ok b) : b.Portable d := by
  cases a with
  | entity =>
    obtain ⟨e, -, rfl⟩ := except_map_eq_ok.1 replied
    trivial
  | table _ e =>
    obtain rfl := Except.ok.inj replied
    exact quoteMark_not_mem_of_isQualified h.table
  | column _ e field =>
    obtain ⟨name, named, rfl⟩ := except_map_eq_ok.1 replied
    exact quoteMark_not_mem_of_isIdentifier (h.columns field name (Entity.columnOf_eq_ok.1 named))
  | sharedDialect | freshDialect | clearDialects => exact h.elim
  | newResolver | clear | listen | unlisten =>
    obtain rfl := Except.ok.inj replied
    trivial

theorem RootChange.portable_apply {c : RootChange} (h : c.Portable d) {r next : TableRoot}
    (before : r.Portable d) (ok : c.apply r = .ok next) : next.Portable d := by
  cases c with
  | assign name =>
    obtain ⟨-, valid, rfl⟩ := TableRoot.withAlias_eq_ok.1 ok
    refine ⟨⟨⟨before.table, ?_⟩, before.wired⟩, before.columns⟩
    rintro _ ⟨⟩
    exact valid
  | attach type source target =>
    obtain ⟨-, rfl⟩ := TableRoot.withJoin_eq_ok.1 ok
    refine ⟨⟨⟨before.table, before.named⟩, ?_⟩, before.columns⟩
    rintro _ ⟨⟩
    exact ⟨h.1.regular d, h.2.regular d, nofun⟩
  | condition p =>
    rcases RootChange.apply_ok ok with ⟨_, ⟨⟩, -⟩ | ⟨_, _, _, ⟨⟩, -⟩ | ⟨_, join, ⟨⟩, wired, -, rfl⟩
    have regular := before.wired join wired
    refine ⟨⟨⟨before.table, before.named⟩, ?_⟩, before.columns⟩
    rintro _ ⟨⟩
    refine ⟨regular.source, regular.target, ?_⟩
    rintro _ ⟨⟩
    exact h

theorem Setting.portable_apply {c : Setting} (h : c.Portable d) {q next : Query}
    (before : q.Portable d) (ok : c.apply q = .ok next) : next.Portable d := by
  cases c with
  | selection s =>
    obtain rfl := Except.ok.inj ok
    refine ⟨⟨before.condition, before.grouping, before.order⟩, ?_, before.plain⟩
    rintro _ ⟨⟩
    exact h
  | condition p =>
    have ok : q.withCondition p = .ok next := ok
    unfold Query.withCondition at ok
    split at ok
    · cases ok
    · obtain rfl := Except.ok.inj ok
      refine ⟨⟨?_, before.grouping, before.order⟩, before.selection, before.plain⟩
      rintro _ ⟨⟩
      exact h
  | distinctOn => exact h.elim
  | distinct value =>
    obtain rfl := Except.ok.inj ok
    exact ⟨⟨before.condition, before.grouping, before.order⟩, before.selection, before.plain⟩
  | order arguments =>
    obtain rfl := Except.ok.inj ok
    refine ⟨⟨before.condition, before.grouping, fun term mem => ?_⟩, before.selection, before.plain⟩
    obtain ⟨a, given, item⟩ := List.mem_flatMap.1 mem
    exact (h a given term item).regular d
  | grouping columns =>
    obtain rfl := Except.ok.inj ok
    exact ⟨⟨before.condition, fun c mem => (h c mem).regular d, before.order⟩,
      before.selection, before.plain⟩
  | limit count | offset count =>
    obtain ⟨-, -, rfl⟩ := except_map_eq_ok.1 ok
    exact ⟨⟨before.condition, before.grouping, before.order⟩, before.selection, before.plain⟩

section Meaning

variable {s t : Session} {c : Call} {a : Answer}

/-- A call that succeeds leaves a session in which more such calls can be made, and what it answers
can be handed over in them; only a statement is not handed over. -/
theorem Portable.meaning (before : s.Portable d) (h : c.Portable d) (on : c.isOn s = true)
    (meant : c.meaning s = .ok (a, t)) :
    t.Portable d ∧ (a.Portable d ∨ ∃ k, c = .render k) := by
  cases c with
  | aside b =>
    obtain ⟨answer, replied, same⟩ := except_map_eq_ok.1 meant
    obtain ⟨rfl, rfl⟩ := Prod.mk.inj same
    exact ⟨before, .inl (Aside.portable_reply h replied)⟩
  | newBuilder options =>
    obtain ⟨database, chosen, meant⟩ := except_bind_eq_ok.1 meant
    obtain ⟨b, made, meant⟩ := except_bind_eq_ok.1 meant
    obtain ⟨rfl, rfl⟩ := Prod.mk.inj (Except.ok.inj meant)
    have isNamed : options.dialect = .named d.name := h
    have same : DialectPool.database d.name = .ok d := by cases d <;> rfl
    rw [isNamed, DialectChoice.database, same] at chosen
    obtain rfl := Except.ok.inj chosen
    obtain ⟨-, -, rfl⟩ := Builder.make_eq_ok.1 made
    exact ⟨before.addBuilder rfl ⟨nofun, nofun⟩, .inl trivial⟩
  | start k e =>
    obtain ⟨b, plain, same⟩ := except_map_eq_ok.1 meant
    obtain ⟨rfl, rfl⟩ := Prod.mk.inj same
    obtain ⟨-, named, rfl⟩ := Builder.plainStart_checked plain
    refine ⟨before.setBuilder rfl ⟨?_, (before.owned k).joins⟩, .inl trivial⟩
    rintro _ ⟨⟩
    exact Builder.portable_aliasedRoot h _ named d
  | join k e source targetField typeName =>
    obtain ⟨b, plain, same⟩ := except_map_eq_ok.1 meant
    obtain ⟨rfl, rfl⟩ := Prod.mk.inj same
    obtain ⟨-, named, type, column, -, found, rfl⟩ := Builder.plainJoin_checked plain
    obtain ⟨shaped, fromSource, -⟩ := h
    refine ⟨before.setBuilder rfl ⟨(before.owned k).start, fun r mem => ?_⟩, .inl trivial⟩
    rcases List.mem_append.1 mem with mem | mem
    · exact (before.owned k).joins r mem
    · obtain rfl := List.mem_singleton.1 mem
      have root := Builder.portable_aliasedRoot shaped (s.builders.get k) named d
      refine ⟨⟨⟨root.table, root.named⟩, ?_⟩, root.columns⟩
      rintro _ ⟨⟩
      exact ⟨fromSource.regular d, ⟨named, shaped.columns _ _ found⟩, nofun⟩
  | roots k =>
    obtain ⟨rfl, rfl⟩ := Prod.mk.inj (Except.ok.inj meant)
    exact ⟨before, .inl trivial⟩
  | make k f =>
    obtain ⟨answer, made, same⟩ := except_map_eq_ok.1 meant
    obtain ⟨rfl, rfl⟩ := Prod.mk.inj same
    obtain ⟨given, there⟩ := Bool.and_eq_true_iff.1 on
    rw [before.databases k (of_decide_eq_true given)] at made
    exact ⟨before, .inl (f.portable_make h (fun ref mem =>
      before.root (List.all_eq_true.1 there ref mem)) made)⟩
  | newRoot e k dialect =>
    obtain ⟨rfl, rfl⟩ := Prod.mk.inj (Except.ok.inj meant)
    have shaped : e.Shaped := h
    exact ⟨before.addRoot ⟨⟨⟨shaped.table, nofun⟩, nofun⟩, shaped.columns⟩, .inl trivial⟩
  | change ref c =>
    obtain ⟨r, changed, same⟩ := except_map_eq_ok.1 meant
    obtain ⟨rfl, rfl⟩ := Prod.mk.inj same
    exact ⟨before.setRoot on (c.portable_apply h (before.root on) changed), .inl trivial⟩
  | ask ref question =>
    obtain ⟨answer, replied, same⟩ := except_map_eq_ok.1 meant
    obtain ⟨rfl, rfl⟩ := Prod.mk.inj same
    exact ⟨before, .inl (question.portable_reply h (before.root on) replied)⟩
  | newQuery builder? =>
    obtain ⟨rfl, rfl⟩ := Prod.mk.inj (Except.ok.inj meant)
    exact ⟨before.addQuery ⟨⟨nofun, nofun, nofun⟩, nofun, rfl⟩, .inl trivial⟩
  | bind k builder =>
    obtain ⟨rfl, rfl⟩ := Prod.mk.inj (Except.ok.inj meant)
    have q := before.queries k
    have bound : ((s.queries.get k).setBuilder builder).Portable d :=
      ⟨⟨q.condition, q.grouping, q.order⟩, q.selection, q.plain⟩
    exact ⟨before.setQuery bound k, .inl trivial⟩
  | set k c =>
    obtain ⟨q, applied, same⟩ := except_map_eq_ok.1 meant
    obtain ⟨rfl, rfl⟩ := Prod.mk.inj same
    exact ⟨before.setQuery (c.portable_apply h (before.queries k) applied) k, .inl trivial⟩
  | render k =>
    obtain ⟨sql, -, same⟩ := except_map_eq_ok.1 meant
    obtain ⟨rfl, rfl⟩ := Prod.mk.inj same
    exact ⟨before, .inr ⟨k, rfl⟩⟩

end Meaning

theorem Call.isOn_bare (s : Session) (c : Call) : c.isOn s.bare = c.isOn s := by
  unfold isOn
  rw [has_bare]
  rfl

/-- The same for calls on any session that is reached, and for statements: these can be read. -/
theorem Portable.next {s : Session} (sound : s.Sound) (before : s.bare.Portable d) {c : Call}
    (h : c.Portable d) (on : c.isOn s = true) :
    (s.next c).bare.Portable d ∧ ∀ a, s.answer c = .ok a → a.Portable d ∨ ∃ k, c = .render k := by
  rcases next_cases sound c with ⟨a, given, meant⟩ | ⟨e, failed, left⟩
  · obtain ⟨after, answered⟩ := before.meaning h ((c.isOn_bare s).trans on) meant
    refine ⟨after, fun b same => ?_⟩
    obtain rfl := Except.ok.inj (given.symm.trans same)
    exact answered
  · refine ⟨left ▸ before, fun b same => ?_⟩
    cases failed.symm.trans same

end Session

end SqlSelect
