import SqlSelect.Proofs.Session.Rendering

/-!
Statements against the history of their builder. A history keeps what the calls that succeeded have
asked for: the entity to start from, the joins in the order of their calls, and on each join the
condition that was added last. The tables of a statement are this history, written down.
-/
namespace SqlSelect

structure JoinRecord where
  entity : Entity
  source : Column
  targetField : String
  type : JoinType
  condition? : Option Predicate

namespace JoinRecord

variable (j : JoinRecord)

def targetName : String := (j.entity.columnName? j.targetField).getD ""

/-- The join in a statement, with its root under the given alias. -/
def clause (name : String) : String :=
  let opening := " " ++ j.type.keyword ++ " " ++ j.entity.tableName ++ " " ++ name ++ " "
  if j.type = .cross then opening
  else opening ++ "ON " ++ j.source.text ++ " = " ++ (name ++ "." ++ j.targetName) ++
    (j.condition?.map fun p => " AND " ++ p.text).getD "" ++ " "

end JoinRecord

structure History where
  start? : Option Entity
  joins : List JoinRecord

namespace History

def empty : History := ⟨none, []⟩

def join (past : History) (j : JoinRecord) : History := { past with joins := past.joins ++ [j] }

def addCondition (past : History) (i : Nat) (p : Predicate) : History :=
  { past with joins := past.joins.modify i fun j => { j with condition? := some p } }

/-- The aliases of the joined roots. -/
def names (past : History) (start base : String) : List String :=
  Alias.sequenceWithout start base past.joins.length

def joinClauses (past : History) (start base : String) : String :=
  String.join (List.zipWith (fun name j => j.clause name) (past.names start base) past.joins)

/-- What a call that succeeds adds to the history of a builder. -/
def record (h : Handle .builder) (past : History) : Session.Call → History
  | .start k e => if k = h then { past with start? := some e } else past
  | .join k e source targetField typeName =>
    match JoinType.ofName? typeName with
    | some type => if k = h then past.join ⟨e, source, targetField, type, none⟩ else past
    | none => past
  | .change (.joined k i) (.condition p) => if k = h then past.addCondition i p else past
  | _ => past

theorem record_of_spares {h : Handle .builder} {c : Session.Call} (spares : c.Spares h)
    (past : History) : past.record h c = past := by
  cases c with
  | start k e => exact if_neg spares
  | join k e source targetField typeName =>
    have other : k ≠ h := spares
    simp only [record, if_neg other]
    split <;> rfl
  | change ref c =>
    cases ref with
    | joined k i =>
      cases c with
      | condition p => exact if_neg spares
      | assign | attach => rfl
    | start | loose => rfl
  | _ => rfl

end History

namespace Session

/-- The history of a builder over a run that goes on from an earlier one. -/
def history (h : Handle .builder) : Session → List Call → History → History
  | _, [], past => past
  | s, c :: calls, past =>
    history h (s.next c) calls (if (s.answer c).isOk then past.record h c else past)

end Session

/-- A change in one place of the second list. -/
theorem zipWith_modify {α β γ : Type} {f : α → β → γ} {xs : List α} {ys : List β} {i : Nat}
    {x : α} {y : β} (left : xs[i]? = some x) (right : ys[i]? = some y) (g : β → β) :
    List.zipWith f xs (ys.modify i g) = (List.zipWith f xs ys).set i (f x (g y)) := by
  apply List.ext_getElem?
  intro k
  by_cases same : i = k
  · subst same
    have inside : i < (List.zipWith f xs ys).length := by
      obtain ⟨insideLeft, -⟩ := List.getElem?_eq_some_iff.1 left
      obtain ⟨insideRight, -⟩ := List.getElem?_eq_some_iff.1 right
      rw [List.length_zipWith]
      exact Nat.lt_min.2 ⟨insideLeft, insideRight⟩
    simp [List.getElem?_zipWith, left, right, List.getElem?_set_self inside]
  · simp [List.getElem?_zipWith, same]

namespace Builder

def joinedRoot (b : Builder) (name : String) (j : JoinRecord) : TableRoot :=
  { b.aliasedRoot j.entity name with
    join? := some ⟨j.type, j.source, .ofExpr (.column name j.targetName), j.condition?⟩ }

theorem joinClause_joinedRoot (b : Builder) (name : String) (j : JoinRecord) :
    (b.joinedRoot name j).joinClause = j.clause name := by
  have target : (Column.ofExpr (.column name j.targetName)).text = name ++ "." ++ j.targetName := by
    simp [Column.text, Column.ofExpr, Expr.text]
  simp only [TableRoot.joinClause, JoinRecord.clause, TableRoot.tableClause, joinedRoot,
    aliasedRoot, newRoot, TableRoot.fresh, Option.getD_some, String.append_assoc, target]

/-- The builder has what its history says, every join of a type that its database runs and with
a target that its entity has. -/
structure Matches (past : History) (b : Builder) : Prop where
  unlisted : b.listed? = none
  start : b.start?.map (fun r => (r.entity, r.alias?)) =
    past.start?.map fun e => (e, some b.startAlias)
  joins : b.joins = List.zipWith b.joinedRoot (past.names b.startAlias b.joinAlias) past.joins
  supported : ∀ j ∈ past.joins, j.type ∈ b.database.joinTypes ∧
    (j.entity.columnName? j.targetField).isSome = true

namespace Matches

variable {past : History} {b next : Builder}

theorem aliases (matched : b.Matches past) :
    b.joins.map TableRoot.alias? = (past.names b.startAlias b.joinAlias).map some := by
  have length : (past.names b.startAlias b.joinAlias).length ≤ past.joins.length :=
    Nat.le_of_eq (Alias.length_sequenceWithout _ _ _)
  calc
    b.joins.map TableRoot.alias? =
        ((past.names b.startAlias b.joinAlias).zip past.joins).map (some ∘ Prod.fst) := by
      rw [matched.joins, List.map_zipWith, ← List.map_uncurry_zip_eq_zipWith]
      rfl
    _ = (past.names b.startAlias b.joinAlias).map some := by
      rw [← List.map_map, List.map_fst_zip length]

theorem named (matched : b.Matches past) {r : TableRoot} (begins : b.start? = some r) :
    past.start? = some r.entity ∧ r.alias? = some b.startAlias := by
  have start := matched.start
  rw [begins] at start
  obtain ⟨e, isStart, same⟩ := Option.map_eq_some_iff.1 start.symm
  obtain ⟨rfl, named⟩ := Prod.mk.inj same
  exact ⟨isStart, named.symm⟩

theorem allocated (matched : b.Matches past) :
    b.Allocated b.startAlias b.joinAlias past.joins.length :=
  ⟨rfl, rfl, matched.unlisted, fun _ begins => (matched.named begins).2, matched.aliases⟩

theorem withStart {e : Entity} (matched : b.Matches past) (plain : b.plainStart e = .ok next) :
    next.Matches { past with start? := some e } := by
  obtain ⟨-, rfl⟩ := plainStart_ok plain
  exact ⟨matched.unlisted, rfl, matched.joins, matched.supported⟩

theorem withJoin {e : Entity} {source : Column} {targetField typeName : String}
    (matched : b.Matches past) (plain : b.plainJoin e source targetField typeName = .ok next) :
    ∃ type, JoinType.ofName? typeName = some type ∧
      next.Matches (past.join ⟨e, source, targetField, type, none⟩) := by
  obtain ⟨declared, type, column, supported, named, rfl⟩ := plainJoin_ok plain
  obtain ⟨known, -⟩ := Option.filter_eq_some_iff.1 supported
  let name := Alias.firstFree b.taken b.joinAlias
  let j : JoinRecord := ⟨e, source, targetField, type, none⟩
  have names : (past.join j).names b.startAlias b.joinAlias =
      past.names b.startAlias b.joinAlias ++ [name] := by
    simp only [History.names, History.join, List.length_append, List.length_singleton]
    rw [Alias.sequenceWithout_succ]
    exact congrArg (fun taken => _ ++ [Alias.firstFree taken b.joinAlias])
      (matched.allocated.taken declared).symm
  have length : (past.names b.startAlias b.joinAlias).length = past.joins.length :=
    Alias.length_sequenceWithout _ _ _
  have root : b.joinedRoot name j = { b.aliasedRoot e name with
      join? := some ⟨type, source, .ofExpr (.column name column), none⟩ } := by
    simp [joinedRoot, j, JoinRecord.targetName, named]
  have joins : b.joins ++ [b.joinedRoot name j] =
      List.zipWith b.joinedRoot ((past.join j).names b.startAlias b.joinAlias)
        (past.join j).joins := by
    rw [names, History.join, List.zipWith_append length, ← matched.joins]
    rfl
  rw [root] at joins
  refine ⟨type, known, matched.unlisted, matched.start, joins, fun k mem => ?_⟩
  rcases List.mem_append.1 mem with mem | mem
  · exact matched.supported k mem
  · rw [List.mem_singleton.1 mem]
    exact ⟨Database.join?_mem supported, by simp [named]⟩

/-- Only the entity and the alias of a start count. -/
theorem changeStart {c : Session.RootChange} {r : TableRoot} (matched : b.Matches past)
    (changed : ∀ old ∈ b.start?, c.apply old = .ok r) :
    { b with start? := b.start?.map fun _ => r }.Matches past := by
  refine ⟨matched.unlisted, ?_, matched.joins, matched.supported⟩
  refine Eq.trans ?_ matched.start
  cases begins : b.start? with
  | none => rfl
  | some old =>
    have named := (matched.named begins).2
    rcases Session.RootChange.apply_ok (changed old begins) with
      ⟨name, -, unnamed, -⟩ | ⟨_, _, _, -, -, rfl⟩ | ⟨_, _, -, -, -, rfl⟩
    · rw [unnamed] at named
      cases named
    · rfl
    · rfl

theorem addCondition {i : Nat} {name : String} {j : JoinRecord} (matched : b.Matches past)
    (isName : (past.names b.startAlias b.joinAlias)[i]? = some name)
    (isRecord : past.joins[i]? = some j) (p : Predicate) :
    { b with joins := b.joins.set i (b.joinedRoot name { j with condition? := some p }) }.Matches
      (past.addCondition i p) := by
  refine ⟨matched.unlisted, matched.start, ?_, fun k mem => ?_⟩
  · have names : (past.addCondition i p).names b.startAlias b.joinAlias =
        past.names b.startAlias b.joinAlias := by
      rw [History.names, History.addCondition, List.length_modify, History.names]
    dsimp only
    rw [names, History.addCondition, matched.joins]
    exact (zipWith_modify isName isRecord fun j => { j with condition? := some p }).symm
  · obtain ⟨n, there⟩ := List.mem_iff_getElem?.1 mem
    rw [History.addCondition, List.getElem?_modify] at there
    obtain ⟨old, before, rfl⟩ := Option.map_eq_some_iff.1 there
    have supported := matched.supported old (List.mem_of_getElem? before)
    split
    · exact supported
    · exact supported

/-- The only change that a joined root takes is a condition. -/
theorem changeJoined {c : Session.RootChange} {i : Nat} {r : TableRoot} {h : Handle .builder}
    (matched : b.Matches past) (changed : ∀ old ∈ b.joins[i]?, c.apply old = .ok r) :
    { b with joins := b.joins.set i r }.Matches (past.record h (.change (.joined h i) c)) := by
  have names : (past.names b.startAlias b.joinAlias).length = past.joins.length :=
    Alias.length_sequenceWithout _ _ _
  have length : b.joins.length = past.joins.length := by
    rw [matched.joins, List.length_zipWith, names, Nat.min_self]
  rcases Nat.lt_or_ge i past.joins.length with inside | outside
  · obtain ⟨name, isName⟩ : ∃ name, (past.names b.startAlias b.joinAlias)[i]? = some name :=
      ⟨_, List.getElem?_eq_getElem (names.symm ▸ inside)⟩
    obtain ⟨j, isRecord⟩ : ∃ j, past.joins[i]? = some j := ⟨_, List.getElem?_eq_getElem inside⟩
    have old : b.joins[i]? = some (b.joinedRoot name j) := by
      rw [matched.joins]
      simp [List.getElem?_zipWith, isName, isRecord]
    rcases Session.RootChange.apply_ok (changed _ old) with
      ⟨_, -, unnamed, -⟩ | ⟨_, _, _, -, apart, -⟩ | ⟨p, join, rfl, wired, -, rfl⟩
    · cases unnamed
    · cases apart
    · obtain rfl := Option.some.inj wired
      rw [History.record, if_pos rfl]
      exact matched.addCondition isName isRecord p
  · -- There is no such root: neither the builder nor its history changes.
    have same : b.joins.set i r = b.joins := List.set_eq_of_length_le (length ▸ outside)
    have kept : past.record h (.change (.joined h i) c) = past := by
      cases c with
      | condition p =>
        rw [History.record, if_pos rfl, History.addCondition, List.modify_eq_self outside]
      | assign | attach => rfl
    rw [same, kept]
    exact matched

end Matches

end Builder

namespace Session

variable {h : Handle .builder} {past : History}

/-- Each call that succeeds makes the builder what its history then says, and leaves its options as
they are. -/
theorem Call.Alters.matches {b next : Builder} {c : Call} (alters : c.Alters h b next)
    (matched : b.Matches past) :
    next.Matches (past.record h c) ∧ next.startAlias = b.startAlias ∧
      next.joinAlias = b.joinAlias := by
  cases alters with
  | @started e next plain =>
    obtain ⟨-, made⟩ := Builder.plainStart_ok plain
    have recorded : past.record h (.start h e) = { past with start? := some e } := if_pos rfl
    refine ⟨recorded ▸ matched.withStart plain, ?_⟩
    rw [made]
    exact ⟨rfl, rfl⟩
  | @joined e source targetField typeName next plain =>
    obtain ⟨-, _, _, -, -, made⟩ := Builder.plainJoin_ok plain
    obtain ⟨type, known, after⟩ := matched.withJoin plain
    have recorded : past.record h (.join h e source targetField typeName) =
        past.join ⟨e, source, targetField, type, none⟩ := by
      simp [History.record, known]
    refine ⟨recorded ▸ after, ?_⟩
    rw [made]
    exact ⟨rfl, rfl⟩
  | startRoot changed => exact ⟨matched.changeStart changed, rfl, rfl⟩
  | joinedRoot changed => exact ⟨matched.changeJoined changed, rfl, rfl⟩
  | spared spares => exact ⟨(History.record_of_spares spares past).symm ▸ matched, rfl, rfl⟩

/-- The session has under the handle a builder that its history describes. -/
structure Recounts (h : Handle .builder) (options : BuilderOptions) (past : History)
    (s : Session) : Prop where
  given : h.index < s.builders.size
  startAlias : (s.builders.get h).startAlias = options.startAlias
  joinAlias : (s.builders.get h).joinAlias = options.joinAlias
  matched : (s.builders.get h).Matches past

theorem Recounts.next {options : BuilderOptions} {s : Session} (sound : s.Sound)
    (recounts : s.bare.Recounts h options past) (c : Call) :
    (s.next c).bare.Recounts h options
      (if (s.answer c).isOk then past.record h c else past) := by
  rcases next_cases sound c with ⟨a, given, meant⟩ | ⟨e, failed, left⟩
  · rw [given]
    rcases alters_of_meaning meant h with ⟨rfl, -⟩ | alters
    · exact absurd recounts.given (Nat.lt_irrefl _)
    · obtain ⟨matched, start, join⟩ := alters.matches recounts.matched
      exact ⟨Nat.lt_of_lt_of_le recounts.given (size_builders_of_meaning meant),
        start.trans recounts.startAlias, join.trans recounts.joinAlias, matched⟩
  · rw [failed, left]
    exact recounts

theorem Recounts.after {options : BuilderOptions} {s : Session} (sound : s.Sound)
    (recounts : s.bare.Recounts h options past) (calls : List Call) :
    (s.after calls).bare.Recounts h options (s.history h calls past) := by
  induction calls generalizing s past with
  | nil => exact recounts
  | cons c calls ih => exact ih (sound.next c) (recounts.next sound c)

theorem recounts_newBuilder {options : BuilderOptions} {s : Session}
    (made : ((newBuilder options).run s).result = .ok h) (unlisted : options.listed? = none) :
    ((newBuilder options).run s).state.bare.Recounts h options .empty := by
  obtain ⟨-, -, given, -, dialect, -, held⟩ := newBuilder_ok made
  have held : ((newBuilder options).run s).state.bare.builders.get h = Builder.bare _ :=
    congrArg Builder.bare held
  have matched : (((newBuilder options).run s).state.bare.builders.get h).Matches .empty := by
    rw [held]
    exact ⟨unlisted, rfl, rfl, nofun⟩
  exact ⟨given, congrArg Builder.startAlias held, congrArg Builder.joinAlias held, matched⟩

/-- The tables of a statement are the history of its builder over any run: the entity of the start
under its alias, then one clause for each join that succeeded, in the order of the calls and
under the next name of the sequence, with the condition that was added to it last. Every type of
join among them is one that the database runs, and every target a column of its entity. -/
theorem statement_follows_history (before : List Call) {options : BuilderOptions}
    {h : Handle .builder}
    (made : ((newBuilder options).run (initial.after before)).result = .ok h)
    (unlisted : options.listed? = none) (calls : List Call) (k : Handle .query) (sql : String) :
    let s := ((newBuilder options).run (initial.after before)).state
    let t := s.after calls
    let q := t.queries.get k
    let past := s.history h calls .empty
    q.builder? = some h → ((render k).run t).result = .ok sql →
      (∃ selected e, q.selectClause = .ok selected ∧ past.start? = some e ∧
        sql = selected ++ (e.tableName ++ " " ++ options.startAlias) ++
          past.joinClauses options.startAlias options.joinAlias ++ q.whereClause ++
          q.groupClause ++ q.orderClause ++ q.limitClause ++ q.offsetText) ∧
      (t.builders.get h).joins.map TableRoot.alias? =
        (past.names options.startAlias options.joinAlias).map some ∧
      ∀ j ∈ past.joins, j.type ∈ (t.builders.get h).database.joinTypes ∧
        (j.entity.columnName? j.targetField).isSome = true := by
  intro s t q past bound rendered
  have sound : ((newBuilder options).run (initial.after before)).state.Sound :=
    next_newBuilder _ options ▸ (sound_after before).next _
  have recounts : t.bare.Recounts h options past :=
    (recounts_newBuilder made unlisted).after sound calls
  let b := t.bare.builders.get h
  have matched : b.Matches past := recounts.matched
  have start : b.startAlias = options.startAlias := recounts.startAlias
  have join : b.joinAlias = options.joinAlias := recounts.joinAlias
  have aliases : b.joins.map TableRoot.alias? = (t.builders.get h).joins.map TableRoot.alias? :=
    List.map_map
  have text : q.statement (some b.sources) = .ok sql := by
    rw [run_render] at rendered
    have computed := (q.computes_render _).eq_ok (sound.after calls).names rendered
    rwa [← statement_bare, bound, Option.map_some, sources_of_unlisted matched.unlisted] at computed
  obtain ⟨sources, r, selected, isSources, begins, selects, rfl⟩ := Query.statement_ok text
  obtain rfl := Option.some.inj isSources
  refine ⟨⟨selected, r.entity, selects, (matched.named begins).1, ?_⟩, ?_, matched.supported⟩
  · have table : r.tableClause = r.entity.tableName ++ " " ++ options.startAlias := by
      simp [TableRoot.tableClause, (matched.named begins).2, start]
    have joined : String.join (b.joins.map TableRoot.joinClause) =
        past.joinClauses options.startAlias options.joinAlias := by
      rw [matched.joins, List.map_zipWith, start, join]
      simp only [Builder.joinClause_joinedRoot, History.joinClauses]
    have own : b.sources.joins = b.joins := rfl
    rw [Query.tail, own, table, joined]
    simp only [String.append_assoc]
  · rw [← aliases, matched.aliases, start, join]

/-- Two of four joins fail, one too early and one of a type that the database lacks; the two others
stand in the statement, the first with the condition that was added to it later. -/
theorem statement_skips_failed_joins :
    let options : BuilderOptions := ⟨.named "mysql", sharedResolver, false, "m", "j", none⟩
    let user : Entity := .base ⟨1, "User", some "users", [⟨"id", none⟩]⟩
    let order : Entity := .base ⟨2, "Order", some "orders", [⟨"userId", none⟩]⟩
    let source := Column.ofExpr (.column "m" "id")
    let paid := Predicate.isNull (.column "j" "paid") true
    let calls : List Call := [.join ⟨0⟩ order source "userId" "LEFT", .start ⟨0⟩ user,
      .join ⟨0⟩ order source "userId" "FULL", .join ⟨0⟩ order source "userId" "LEFT",
      .join ⟨0⟩ user source "id" "CROSS", .change (.joined ⟨0⟩ 0) (.condition paid),
      .newQuery (some ⟨0⟩), .set ⟨0⟩ (.selection (.raw "SELECT m.id FROM "))]
    let s := ((newBuilder options).run initial).state
    let t := s.after calls
    ((newBuilder options).run initial).result = .ok ⟨0⟩ ∧ options.listed? = none ∧
      (t.queries.get ⟨0⟩).builder? = some ⟨0⟩ ∧
      ((render ⟨0⟩).run t).result = .ok ("SELECT m.id FROM users m" ++
        " LEFT OUTER JOIN orders j ON m.id = j.user_id AND j.paid IS NOT NULL  " ++
        " CROSS JOIN users j1 ") ∧
      (t.builders.get ⟨0⟩).joins.map TableRoot.alias? = [some "j", some "j1"] := by
  intro options user order source paid calls s t
  have made : ((newBuilder options).run initial).result = .ok ⟨0⟩ := by cbv
  let dialect : Dialect := ⟨.mysql, 0⟩
  let b : Builder := ⟨dialect, sharedResolver, false, "m", "j",
    some ⟨user, sharedResolver, dialect, some "m", none⟩,
    [⟨order, sharedResolver, dialect, some "j",
      some ⟨.left, source, .ofExpr (.column "j" "user_id"), some paid⟩⟩,
      ⟨user, sharedResolver, dialect, some "j1",
        some ⟨.cross, source, .ofExpr (.column "j1" "id"), none⟩⟩], none⟩
  let q : Query := { Query.fresh (some ⟨0⟩) with selection? := some (.raw "SELECT m.id FROM ") }
  have query : t.queries.get ⟨0⟩ = q := by
    show (((newBuilder options).run initial).state.after calls).queries.get ⟨0⟩ = q
    cbv
  have builder : t.builders.get ⟨0⟩ = b := by
    show (((newBuilder options).run initial).state.after calls).builders.get ⟨0⟩ = b
    cbv
  have joins : (((newBuilder options).run (initial.after [])).state.history ⟨0⟩ calls
      .empty).joins.length = 2 := by cbv
  have reached : t = initial.after (.newBuilder options :: calls) := by
    rw [after_cons, next_newBuilder]
  have quiet : t.Quiet := by
    rw [reached]
    exact quiet_after (by simp [calls, Call.Quiet])
  have sound : t.Sound := by
    rw [reached]
    exact sound_after _
  have unlisted : ∀ h ∈ (t.queries.get ⟨0⟩).builder?, (t.builders.get h).listed? = none := by
    intro h mem
    rw [query] at mem
    obtain rfl := Option.some.inj mem
    rw [builder]
  have rendered : ((render ⟨0⟩).run t).result = .ok ("SELECT m.id FROM users m" ++
      " LEFT OUTER JOIN orders j ON m.id = j.user_id AND j.paid IS NOT NULL  " ++
      " CROSS JOIN users j1 ") := by
    have bound : q.builder?.map (fun h => (t.builders.get h).sources) = some b.sources :=
      congrArg (fun b => some (Builder.sources b)) builder
    rw [result_render unlisted sound quiet, query, bound]
    decide +kernel
  obtain ⟨-, aliases, -⟩ := statement_follows_history [] made rfl calls ⟨0⟩ _
    (congrArg Query.builder? query) rendered
  refine ⟨made, rfl, congrArg Query.builder? query, rendered, aliases.trans ?_⟩
  rw [History.names, joins]
  decide +kernel

end Session
end SqlSelect
