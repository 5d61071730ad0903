import SqlSelect.Proofs.Condition.Phrases
import SqlSelect.Proofs.Session.Rendering
import SqlSelect.Proofs.Session.Roots

/-!
The conditions of a join. A root that is joined keeps its join over every run, with the condition
that was added to it last in place of those before. The clause that is written for it tests only
what stands in front of the first `or` of that condition together with the columns of the join.
-/
namespace SqlSelect

open Condition

namespace Join

variable (j : Join)

/-- The columns that are compared. -/
def test : String := j.source.text ++ " = " ++ j.target.text

/-- What stands behind `ON`. -/
def onText : String := j.test ++ (j.condition?.map fun p => " AND " ++ p.text).getD ""

end Join

/-- The condition is read behind the test, as one part of the clause. -/
theorem Database.outline?_onText {d : Database} {j : Join} {left right : Factor}
    {condition? : Option Outline} (source : d.factor? j.source.text = some left)
    (target : d.factor? j.target.text = some right)
    (condition : (j.condition?.map fun p => d.outline? p.text) = condition?.map some) :
    d.outline? j.onText = some (conjoined (left ++ .comparison .equal :: right) condition?) := by
  have test := factor?_equal source target
  unfold Join.onText
  cases there : j.condition? with
  | none =>
    rw [there] at condition
    obtain rfl := Option.map_eq_none_iff.1 condition.symm
    exact (congrArg d.outline? (String.append_empty)).trans (outline?_of_factor? test)
  | some p =>
    rw [there] at condition
    obtain ⟨o, rfl, read⟩ := Option.map_eq_some_iff.1 condition.symm
    exact (congrArg d.outline? String.append_assoc.symm).trans (outline?_and test read.symm)

theorem TableRoot.joinClause_eq {r : TableRoot} {join : Join} (wired : r.join? = some join)
    (conditional : join.type ≠ .cross) :
    r.joinClause =
      " " ++ join.type.keyword ++ " " ++ r.tableClause ++ " ON " ++ join.onText ++ " " := by
  have opening : " ON " = " " ++ "ON " := by decide
  simp only [joinClause, wired, conditional, if_false, Join.onText, Join.test, opening,
    String.append_assoc]

namespace Session

/-- The condition that a call is to add to a root. -/
def Call.conditionOn? (ref : RootRef) : Call → Option Predicate
  | .change other c => if other = ref then c.condition? else none
  | _ => none

/-- The condition that a call adds to a root, if it succeeds. -/
def addition? (s : Session) (ref : RootRef) (c : Call) : Option Predicate :=
  if (s.answer c).isOk then c.conditionOn? ref else none

/-- All conditions that the calls of a run add to a root, in order. -/
def accepted (ref : RootRef) : Session → List Call → List Predicate
  | _, [] => []
  | s, c :: calls => (s.addition? ref c).toList ++ accepted ref (s.next c) calls

theorem RootChange.join?_apply {c : RootChange} {r next : TableRoot} {join : Join}
    (ok : c.apply r = .ok next) (joined : r.join? = some join) :
    next.join? = some { join with condition? := c.condition?.or join.condition? } := by
  rcases RootChange.apply_ok ok with
    ⟨_, rfl, -, rfl⟩ | ⟨_, _, _, -, apart, -⟩ | ⟨p, wired, rfl, there, -, rfl⟩
  · exact joined
  · rw [apart] at joined
    cases joined
  · obtain rfl := Option.some.inj (there.symm.trans joined)
    rfl

theorem Call.conditionOn?_eq (ref : RootRef) (c : Call) :
    c.conditionOn? ref = (c.changeOn? ref).bind RootChange.condition? := by
  cases c with
  | change other c =>
    rw [conditionOn?, changeOn?]
    split <;> rfl
  | _ => rfl

section Meaning

variable {s t : Session} {c : Call} {a : Answer} {ref : RootRef} {join : Join}

/-- A call that succeeds leaves a join as it is, but for the condition that it adds. -/
theorem join?_of_meaning (meant : c.meaning s = .ok (a, t)) (given : s.Given ref)
    (joined : (s.root ref).join? = some join) :
    (t.root ref).join? =
      some { join with condition? := (c.conditionOn? ref).or join.condition? } := by
  have there : s.has ref = true := by
    refine has_of_joined ?_ (by rw [joined]; rfl)
    rintro h rfl
    exact given
  obtain ⟨-, turns⟩ := root_of_meaning meant given there
  rw [Call.conditionOn?_eq]
  cases asked : c.changeOn? ref with
  | none =>
    rw [asked] at turns
    exact (congrArg TableRoot.join? turns).trans joined
  | some change =>
    rw [asked] at turns
    exact RootChange.join?_apply turns joined

end Meaning

section Runs

variable {s : Session} {ref : RootRef} {join : Join} (sound : s.Sound) (given : s.Given ref)
  (joined : (s.root ref).join? = some join)

include sound given joined

theorem join?_next (c : Call) : ((s.next c).root ref).join? =
    some { join with condition? := (s.addition? ref c).or join.condition? } := by
  have bare (s : Session) : (s.root ref).join? = (s.bare.root ref).join? := by
    rw [root_bare, TableRoot.bare_join?]
  rw [bare] at joined ⊢
  rcases next_cases sound c with ⟨a, answered, meant⟩ | ⟨e, failed, left⟩
  · have there : s.bare.Given ref := by cases ref <;> exact given
    rw [addition?, answered]
    exact join?_of_meaning meant there joined
  · rw [addition?, failed, left]
    exact joined

/-- Over a run the last condition that was added takes the place of all before it. -/
theorem join?_after (calls : List Call) : ((s.after calls).root ref).join? =
    some { join with condition? := (accepted ref s calls).getLast?.or join.condition? } := by
  induction calls generalizing s join with
  | nil => exact joined
  | cons c calls ih =>
    rw [after_cons, ih (sound.next c) (given.next sound c) (join?_next sound given joined c),
      accepted, List.getLast?_append, Option.or_assoc]
    cases s.addition? ref c <;> rfl

end Runs

/-- A statement holds the clause of every root that it joins. -/
theorem joinClause_of_render {s : Session} (sound : s.Sound) {h : Handle .query}
    {k : Handle .builder} {sql : String} (rendered : ((render h).run s).result = .ok sql)
    (bound : (s.queries.get h).builder? = some k) {ref : RootRef} (among : ref ∈ s.joinRoots k) :
    ∃ front back, sql = front ++ (s.root ref).joinClause ++ back := by
  have text := statement_of_render sound rendered
  rw [bound] at text
  obtain ⟨sources, start, selected, same, -, -, rfl⟩ := Query.statement_ok text
  obtain rfl := Option.some.inj same
  obtain ⟨before, behind, split⟩ := List.append_of_mem among
  have joins : (s.sources k).joins =
      before.map s.root ++ s.root ref :: behind.map s.root := by
    simp [Session.sources, split]
  refine ⟨selected ++ start.tableClause ++ String.join ((before.map s.root).map
    TableRoot.joinClause), String.join ((behind.map s.root).map TableRoot.joinClause) ++
    (s.queries.get h).whereClause ++ (s.queries.get h).groupClause ++
    (s.queries.get h).orderClause ++ (s.queries.get h).limitClause ++
    (s.queries.get h).offsetText, ?_⟩
  rw [Query.tail, joins, List.map_append, List.map_cons, String.join_append, String.join_cons]
  simp only [String.append_assoc]

section Statement

variable {s : Session} {ref : RootRef} {join : Join} {calls : List Call} {d : Database}
  {left right : Factor} {conditions : List Outline} {h : Handle .query} {k : Handle .builder}
  {sql : String}

/-- Whatever conditions were added to a join, its clause in a statement holds the test and the last
of them, and is read as such: the first conjunction of the condition goes with the test, and those
behind an `or` go without it. So the clause is equivalent to the test and all conditions exactly if
every conjunction in it has the test and covers every condition; and so it is for no condition, or
for a single one without an `or` outside of parentheses. -/
theorem join_conditions_hold_iff (reached : ∃ before, initial.after before = s)
    (given : s.Given ref) (joined : (s.root ref).join? = some join)
    (conditional : join.type ≠ .cross) (fresh : join.condition? = none)
    (source : d.factor? join.source.text = some left)
    (target : d.factor? join.target.text = some right)
    (wellFormed : (accepted ref s calls).map (d.outline? ·.text) = conditions.map some)
    (bound : ((s.after calls).queries.get h).builder? = some k)
    (among : ref ∈ (s.after calls).joinRoots k)
    (rendered : ((render h).run (s.after calls)).result = .ok sql) :
    let last : Join := { join with condition? := (accepted ref s calls).getLast? }
    let test : Factor := left ++ .comparison .equal :: right
    let on : Outline := conjoined test conditions.getLast?
    (∃ front back, sql = front ++ (" " ++ join.type.keyword ++ " " ++
      ((s.after calls).root ref).tableClause ++ " ON " ++ last.onText ++ " ") ++ back) ∧
    d.outline? last.onText = some on ∧
    ((∀ v, evaluate v on = .all (v test :: conditions.map (evaluate v))) ↔
      ∀ factors ∈ on, test ∈ factors ∧
        ∀ c ∈ conditions, ∃ conjunction ∈ c, conjunction ⊆ factors) ∧
    (conditions.length ≤ 1 → (∀ c ∈ conditions, c.length = 1) →
      ∀ v, evaluate v on = .all (v test :: conditions.map (evaluate v))) := by
  intro last test on
  obtain ⟨before, rfl⟩ := reached
  have sound := sound_after before
  have wired : (((initial.after before).after calls).root ref).join? = some last := by
    rw [join?_after sound given joined calls, fresh, Option.or_none]
  have clause := TableRoot.joinClause_eq wired conditional
  have holds := evaluate_eq_all_iff fun v => all_le_evaluate_conjoined v test conditions
  refine ⟨?_, ?_, holds, fun single plain => holds.2 ?_⟩
  · obtain ⟨front, back, text⟩ := joinClause_of_render (sound.after calls) rendered bound among
    exact ⟨front, back, text.trans (by rw [clause])⟩
  · refine Database.outline?_onText source target ?_
    have ends := congrArg List.getLast? wellFormed
    rwa [List.getLast?_map, List.getLast?_map] at ends
  · match conditions, single with
    | [], _ => simp [conjoined]
    | [c], _ =>
      obtain ⟨factors, rfl⟩ := List.length_eq_one_iff.1 (plain c List.mem_cons_self)
      simp [conjoined]

/-- The first condition is gone from the statement, but the second one covers it. -/
theorem join_conditions_hold_when_covered :
    let user : Entity := .base ⟨1, "User", some "users", [⟨"id", none⟩]⟩
    let order : Entity := .base ⟨2, "Order", some "orders", [⟨"userId", none⟩]⟩
    let source := Column.ofExpr (.column "m" "id")
    let target := Column.ofExpr (.column "j" "user_id")
    let join : Join := ⟨.left, source, target, none⟩
    let ref : RootRef := .joined ⟨0⟩ 0
    let before : List Call := [.newBuilder ⟨.standard, sharedResolver, false, "m", "j", none⟩,
      .start ⟨0⟩ user, .join ⟨0⟩ order source "userId" "LEFT"]
    let calls : List Call := [.change ref (.condition (.raw "j.paid or j.gift")),
      .change ref (.condition (.raw "j.paid and j.sent")), .newQuery (some ⟨0⟩),
      .set ⟨0⟩ (.selection (.all "m"))]
    let s := initial.after before
    let paid : Factor := [.name "j.paid"]
    let conditions : List Outline := [[[paid], [[.name "j.gift"]]], [[paid, [.name "j.sent"]]]]
    let test : Factor := [.name "m.id", .comparison .equal, .name "j.user_id"]
    s.Given ref ∧ (s.root ref).join? = some join ∧ join.type ≠ .cross ∧
      Database.postgresql.factor? source.text = some [.name "m.id"] ∧
      Database.postgresql.factor? target.text = some [.name "j.user_id"] ∧
      (accepted ref s calls).map (Database.postgresql.outline? ·.text) = conditions.map some ∧
      ((s.after calls).queries.get ⟨0⟩).builder? = some ⟨0⟩ ∧
      ref ∈ (s.after calls).joinRoots ⟨0⟩ ∧
      ((render ⟨0⟩).run (s.after calls)).result = .ok
        ("SELECT m.* FROM users m LEFT OUTER JOIN orders j ON " ++
          "m.id = j.user_id AND j.paid and j.sent ") ∧
      ∀ v, evaluate v [[test, paid, [.name "j.sent"]]] =
        .all (v test :: conditions.map (evaluate v)) := by
  intro user order source target join ref before calls s paid conditions test
  let q : Query := { Query.fresh (some ⟨0⟩) with selection? := some (.all "m") }
  let b : Builder := ⟨⟨.postgresql, 0⟩, sharedResolver, false, "m", "j",
    some ⟨user, sharedResolver, ⟨.postgresql, 0⟩, some "m", none⟩,
    [⟨order, sharedResolver, ⟨.postgresql, 0⟩, some "j",
      some { join with condition? := some (.raw "j.paid and j.sent") }⟩], none⟩
  have size : s.builders.size = 1 := by
    show (initial.after before).builders.size = 1
    cbv
  have given : s.Given ref := by
    show 0 < s.builders.size
    rw [size]
    exact Nat.one_pos
  have joined : (s.root ref).join? = some join := by
    show ((initial.after before).root (.joined ⟨0⟩ 0)).join? = some join
    cbv
  have wellFormed : (accepted ref s calls).map (Database.postgresql.outline? ·.text) =
      conditions.map some := by
    show (accepted (.joined ⟨0⟩ 0) (initial.after before) calls).map _ = conditions.map some
    cbv
  have left : Database.postgresql.factor? source.text = some [.name "m.id"] := by cbv
  have right : Database.postgresql.factor? target.text = some [.name "j.user_id"] := by cbv
  have whole : s.after calls = initial.after (before ++ calls) := List.foldl_append.symm
  have query : (s.after calls).queries.get ⟨0⟩ = q := by
    rw [whole]
    cbv
  have builder : (s.after calls).builders.get ⟨0⟩ = b := by
    rw [whole]
    cbv
  have rendered : ((render ⟨0⟩).run (s.after calls)).result = .ok
      ("SELECT m.* FROM users m LEFT OUTER JOIN orders j ON " ++
        "m.id = j.user_id AND j.paid and j.sent ") := by
    rw [whole] at query builder ⊢
    rw [result_render_after (by simp [before, calls, Call.Quiet]) query rfl builder rfl]
    decide +kernel
  have bound : ((s.after calls).queries.get ⟨0⟩).builder? = some ⟨0⟩ :=
    congrArg Query.builder? query
  have roots : (s.after calls).joinRoots ⟨0⟩ = [ref] := by
    rw [joinRoots, builder]
    rfl
  have among : ref ∈ (s.after calls).joinRoots ⟨0⟩ := roots ▸ List.mem_singleton_self ref
  have crossed : join.type ≠ .cross := JoinType.noConfusion
  have reached : ∃ before, initial.after before = s := ⟨before, rfl⟩
  have holds := (join_conditions_hold_iff (s := s) (d := .postgresql) reached given joined crossed
    rfl left right wellFormed bound among rendered).2.2.1
  have covered : ∀ factors ∈ conjoined test conditions.getLast?, test ∈ factors ∧
      ∀ c ∈ conditions, ∃ conjunction ∈ c, conjunction ⊆ factors := by
    simp [conjoined, conditions, test, paid]
  exact ⟨given, joined, crossed, left, right, wellFormed, bound, among, rendered, holds.2 covered⟩

/-- Two conditions are accepted, and rows that fail the first are joined. -/
theorem earlier_join_condition_is_lost :
    let user : Entity := .base ⟨1, "User", some "users", [⟨"id", none⟩]⟩
    let order : Entity := .base ⟨2, "Order", some "orders", [⟨"userId", none⟩]⟩
    let source := Column.ofExpr (.column "m" "id")
    let first : Predicate := .compare (.column "j" "total") .greater ⟨.postgresql, "5"⟩
    let second : Predicate := .compare (.column "j" "status") .equal ⟨.postgresql, "paid"⟩
    let ref : RootRef := .joined ⟨0⟩ 0
    let before : List Call := [.newBuilder ⟨.standard, sharedResolver, false, "m", "j", none⟩,
      .start ⟨0⟩ user, .join ⟨0⟩ order source "userId" "LEFT"]
    let calls : List Call := [.change ref (.condition first), .change ref (.condition second),
      .newQuery (some ⟨0⟩), .set ⟨0⟩ (.selection (.all "m"))]
    let s := initial.after before
    let test : Factor := [.name "m.id", .comparison .equal, .name "j.user_id"]
    let total : Factor := [.name "j.total", .comparison .greater, .literal ⟨.postgresql, "5"⟩]
    let status : Factor := [.name "j.status", .comparison .equal, .literal ⟨.postgresql, "paid"⟩]
    accepted ref s calls = [first, second] ∧
      ((render ⟨0⟩).run (s.after calls)).result = .ok
        ("SELECT m.* FROM users m LEFT OUTER JOIN orders j ON " ++
          "m.id = j.user_id AND  j.status = 'paid'  ") ∧
      Database.postgresql.factor? "m.id = j.user_id" = some test ∧
      Database.postgresql.outline? first.text = some [[total]] ∧
      Database.postgresql.outline? second.text = some [[status]] ∧
      Database.postgresql.outline? "m.id = j.user_id AND  j.status = 'paid' " =
        some [[test, status]] ∧
      ¬ ∀ v, evaluate v [[test, status]] =
        .all [v test, evaluate v [[total]], evaluate v [[status]]] := by
  intro user order source first second ref before calls s test total status
  let target := Column.ofExpr (.column "j" "user_id")
  let q : Query := { Query.fresh (some ⟨0⟩) with selection? := some (.all "m") }
  let b : Builder := ⟨⟨.postgresql, 0⟩, sharedResolver, false, "m", "j",
    some ⟨user, sharedResolver, ⟨.postgresql, 0⟩, some "m", none⟩,
    [⟨order, sharedResolver, ⟨.postgresql, 0⟩, some "j",
      some ⟨.left, source, target, some second⟩⟩], none⟩
  have whole : s.after calls = initial.after (before ++ calls) := List.foldl_append.symm
  have query : (initial.after (before ++ calls)).queries.get ⟨0⟩ = q := by cbv
  have builder : (initial.after (before ++ calls)).builders.get ⟨0⟩ = b := by cbv
  have rendered : ((render ⟨0⟩).run (s.after calls)).result = .ok
      ("SELECT m.* FROM users m LEFT OUTER JOIN orders j ON " ++
        "m.id = j.user_id AND  j.status = 'paid'  ") := by
    rw [whole, result_render_after (by simp [before, calls, Call.Quiet]) query rfl builder rfl]
    decide +kernel
  have both : accepted ref s calls = [first, second] := by
    show accepted (.joined ⟨0⟩ 0) (initial.after before) calls = [first, second]
    cbv
  refine ⟨both, rendered, by cbv, by cbv, by cbv, by cbv, fun equivalent => ?_⟩
  have row := equivalent fun f => if f = total then .no else .yes
  revert row
  decide +kernel

end Statement

end Session

end SqlSelect
