import Mathlib
import SqlSelect.Proofs.Session.Programs

/-!
A program that every database takes comes to the same for any two of them. Each step fails with the
same error or gives corresponding answers, and a statement differs from the other one only in how
its literals are quoted.
-/
namespace SqlSelect

/-- Each text as its own database reads it: the same literals, and the same text around them. -/
def SameText (d d' : Database) (t t' : String) : Prop :=
  ∃ pieces, d.scan t.toList = some pieces ∧ d'.scan t'.toList = some pieces

namespace SameText

variable {d d' : Database}

theorem of_plain {t : String} (plain : quoteMark ∉ t.toList) : SameText d d' t t := by
  have read (d : Database) : d.scan t.toList = some (words t) := by
    have scanned := scan_words_append d plain []
    simpa [Database.scan] using scanned
  exact ⟨words t, read d, read d'⟩

theorem of_neutral {p p' : Predicate} (alike : p'.neutral = p.neutral) (h : p.Regular d)
    (h' : p'.Regular d') : SameText d d' p.text p'.text := by
  refine ⟨p.pieces, ?_, ?_⟩
  · rw [← p.write_pieces h]
    exact scan_write d (p.separated_pieces h)
  · rw [← p.pieces_neutral, ← alike, p'.pieces_neutral, ← p'.write_pieces h']
    exact scan_write d' (p'.separated_pieces h')

end SameText

namespace Session

/-- Texts and conditions are read alike; all other answers are the same, but for the database that
the conditions of joins are quoted for. -/
def Answer.Agrees (d d' : Database) : Answer → Answer → Prop
  | text t, text t' => SameText d d' t t'
  | predicate p, predicate p' => SameText d d' p.text p'.text ∧ p'.neutral = p.neutral
  | a, a' => a'.neutral = a.neutral

/-- Both calls fail with the same error, or both succeed. -/
def Agree (d d' : Database) : Except QueryError Answer → Except QueryError Answer → Prop
  | .error e, .error e' => e' = e
  | .ok a, .ok a' => a.Agrees d d' a'
  | _, _ => False

variable {d d' : Database}

theorem Answer.agrees_of_neutral {a a' : Answer} (alike : a'.neutral = a.neutral)
    (h : a.Portable d) (h' : a'.Portable d') : a.Agrees d d' a' := by
  cases a with
  | text t =>
    cases a' with
    | text t' =>
      obtain rfl := Answer.text.inj alike
      exact SameText.of_plain h
    | _ => cases alike
  | predicate p =>
    cases a' with
    | predicate p' =>
      have same := Answer.predicate.inj alike
      exact ⟨SameText.of_neutral same h h', same⟩
    | _ => cases alike
  | _ => exact alike

theorem agree_of_neutral {x y : Except QueryError Answer}
    (alike : y.map Answer.neutral = x.map Answer.neutral) (usable : ∀ a, x = .ok a → a.Portable d)
    (usable' : ∀ a, y = .ok a → a.Portable d') : Agree d d' x y := by
  cases x with
  | error e =>
    cases y with
    | error e' => exact Except.error.inj alike
    | ok a' => cases alike
  | ok a =>
    cases y with
    | error e' => cases alike
    | ok a' => exact Answer.agrees_of_neutral (Except.ok.inj alike) (usable a rfl) (usable' a' rfl)

theorem bare_neutral (s : Session) : s.neutral.bare = s.bare.neutral := by
  have builders (b : Builder) : b.neutral.bare = b.bare.neutral := by
    simp only [Builder.bare, Builder.neutral, Option.map_map, List.map_map]
    rfl
  simp only [bare, neutral, Store.map, builders]
  rfl

section Step

variable {s t : Session} (same : t.neutral = s.neutral)

include same

/-- The same pieces make up both statements. -/
theorem pieces_eq {k : Handle .query} {sources sources' : Sources} {start start' : TableRoot}
    (given : (s.queries.get k).builder?.map s.sources = some sources)
    (given' : (t.queries.get k).builder?.map t.sources = some sources')
    (begins : sources.start? = some start) (begins' : sources'.start? = some start') :
    (t.queries.get k).tailPieces start' sources'.joins =
      (s.queries.get k).tailPieces start sources.joins := by
  have query : (t.queries.get k).neutral = (s.queries.get k).neutral :=
    congrArg (fun u : Session => u.queries.get k) same
  obtain ⟨b, bound, rfl⟩ := Option.map_eq_some_iff.1 given
  obtain ⟨b', bound', rfl⟩ := Option.map_eq_some_iff.1 given'
  have builder : (t.queries.get k).neutral.builder? = (s.queries.get k).neutral.builder? := by
    rw [query]
  obtain rfl : b' = b := Option.some.inj (bound'.symm.trans (builder.trans bound))
  have tables : (t.sources b').neutral = (s.sources b').neutral := by
    rw [← sources_neutral, ← sources_neutral, same]
  have starts : start'.neutral = start.neutral := by
    have both : (t.sources b').start?.map TableRoot.neutral =
      (s.sources b').start?.map TableRoot.neutral := congrArg Sources.start? tables
    rw [begins, begins'] at both
    exact Option.some.inj both
  have joins : (t.sources b').joins.map TableRoot.neutral =
      (s.sources b').joins.map TableRoot.neutral := congrArg Sources.joins tables
  rw [← Query.tailPieces_neutral, query, starts, joins, Query.tailPieces_neutral]

theorem sameText_of_statement (left : s.Portable d) (right : t.Portable d') {k : Handle .query}
    {sql sql' : String}
    (stated : (s.queries.get k).statement ((s.queries.get k).builder?.map s.sources) = .ok sql)
    (stated' : (t.queries.get k).statement ((t.queries.get k).builder?.map t.sources) = .ok sql') :
    SameText d d' sql sql' := by
  obtain ⟨_, _, _, given, begins, chosen, scanned⟩ := left.scan_statement stated
  obtain ⟨_, _, _, given', begins', chosen', scanned'⟩ := right.scan_statement stated'
  have query : (t.queries.get k).neutral = (s.queries.get k).neutral :=
    congrArg (fun u : Session => u.queries.get k) same
  have selects : (t.queries.get k).selectClause = (s.queries.get k).selectClause := by
    rw [← Query.selectClause_neutral, query, Query.selectClause_neutral]
  obtain rfl := Except.ok.inj (chosen.symm.trans (selects.symm.trans chosen'))
  rw [pieces_eq same given given' begins begins'] at scanned'
  exact ⟨_, scanned, scanned'⟩

/-- A statement comes out of both sessions or of none, with the same pieces. -/
theorem agree_render (sound : s.Sound) (sound' : t.Sound) (left : s.bare.Portable d)
    (right : t.bare.Portable d') (k : Handle .query) :
    (t.next (.render k)).neutral = (s.next (.render k)).neutral ∧
      Agree d d' (s.answer (.render k)) (t.answer (.render k)) := by
  obtain ⟨before, ends⟩ := s.render_neutral k
  obtain ⟨before', ends'⟩ := t.render_neutral k
  rw [same] at before' ends'
  refine ⟨before'.symm.trans before, ?_⟩
  have both := ends'.symm.trans ends
  have bare : t.bare.neutral = s.bare.neutral := by rw [← bare_neutral, ← bare_neutral, same]
  rcases next_cases sound (.render k) with ⟨a, given, meant⟩ | ⟨e, failed, -⟩ <;>
    rcases next_cases sound' (.render k) with ⟨a', given', meant'⟩ | ⟨e', failed', -⟩
  · obtain ⟨sql, stated, same⟩ := except_map_eq_ok.1 meant
    obtain ⟨sql', stated', same'⟩ := except_map_eq_ok.1 meant'
    obtain ⟨rfl, -⟩ := Prod.mk.inj same
    obtain ⟨rfl, -⟩ := Prod.mk.inj same'
    rw [given, given']
    exact sameText_of_statement bare left right stated stated'
  · rw [given, failed'] at both
    cases both
  · rw [failed, given'] at both
    cases both
  · rw [failed, failed'] at both ⊢
    exact Except.error.inj both

/-- One step on two sessions for two databases: the same call, but for its database. -/
theorem agree_step (sound : s.Sound) (sound' : t.Sound) (left : s.bare.Portable d)
    (right : t.bare.Portable d') {c c' : Call} (h : c.Portable d) (h' : c'.Portable d')
    (alike : c'.neutral = c.neutral) (on : c.isOn s = true) (on' : c'.isOn t = true) :
    (t.next c').neutral = (s.next c).neutral ∧ Agree d d' (s.answer c) (t.answer c') := by
  -- The neutral call gives the answers of all calls but those whose texts hold literals.
  by_cases renders : ∃ k, c = .render k
  · obtain ⟨k, rfl⟩ := renders
    obtain rfl : c' = .render k := by
      cases c' with
      | render => exact alike
      | _ => cases alike
    exact agree_render same sound sound' left right k
  · have renders' : ¬ ∃ k, c' = .render k := by
      rintro ⟨k, rfl⟩
      cases c with
      | render => exact renders ⟨_, rfl⟩
      | _ => cases alike
    have one := Reflects.call h renders s
    have two := Reflects.call h' renders' t
    rw [alike, same, one] at two
    obtain ⟨states, -, results⟩ := Outcome.mk.inj two
    exact ⟨states.symm, agree_of_neutral results.symm
      (fun a given => ((left.next sound h on).2 a given).resolve_right renders)
      fun a given => ((right.next sound' h' on').2 a given).resolve_right renders'⟩

end Step

/-! What earlier steps gave is handed over alike. -/

theorem Answer.Agrees.cases {a a' : Answer} (h : a.Agrees d d' a') :
    (∃ t t', a = .text t ∧ a' = .text t') ∨ a'.neutral = a.neutral := by
  cases a with
  | text t =>
    cases a' with
    | text t' => exact .inl ⟨t, t', rfl, rfl⟩
    | _ => exact .inr h
  | predicate p =>
    cases a' with
    | predicate p' => exact .inr (congrArg Answer.predicate h.2)
    | _ => exact .inr h
  | _ => exact .inr h

/-- What is read off the neutral form of an answer is the same for answers that agree. -/
theorem Answer.Agrees.same {β : Type} {f g : Answer → β} (read : ∀ a, f a = g a.neutral)
    (textless : ∀ t t', f (.text t') = f (.text t)) {a a' : Answer} (h : a.Agrees d d' a') :
    f a' = f a := by
  rcases h.cases with ⟨t, t', rfl, rfl⟩ | alike
  · exact textless t t'
  · rw [read, alike, ← read]

theorem Past.answer?_eq_some {past : Past} {step : Nat} {a : Answer}
    (given : past.answer? step = some a) : some (.ok a) ∈ past := by
  obtain ⟨result, there, isOk⟩ := Option.bind_eq_some_iff.1 given
  cases result with
  | error e => cases isOk
  | ok b =>
    obtain rfl := Option.some.inj isOk
    exact List.mem_of_getElem? (Option.join_eq_some_iff.1 there)

/-- All answers but texts can be handed over. -/
def Past.Portable (d : Database) (past : Past) : Prop :=
  ∀ a, some (.ok a) ∈ past → a.Portable d ∨ ∃ t, a = .text t

theorem Past.Portable.forall_part {past : Past} (h : past.Portable d) {β : Type}
    {f : Answer → Option β} {P : β → Prop} (each : ∀ a, a.Portable d → ∀ x ∈ f a, P x)
    (textless : ∀ t, f (.text t) = none) (step : Nat) :
    ∀ x ∈ (past.answer? step).bind f, P x := by
  intro x given
  obtain ⟨a, there, isPart⟩ := Option.bind_eq_some_iff.1 given
  rcases h a (Past.answer?_eq_some there) with usable | ⟨t, rfl⟩
  · exact each a usable x isPart
  · cases (textless t).symm.trans isPart

theorem Past.Portable.fragments {past : Past} (h : past.Portable d) :
    past.fragments.Portable d where
  column := h.forall_part (fun a usable c isColumn => by
    cases a with
    | column => exact Option.some.inj isColumn ▸ usable
    | _ => cases isColumn) fun _ => rfl
  predicate := h.forall_part (fun a usable p isPredicate => by
    cases a with
    | predicate => exact Option.some.inj isPredicate ▸ usable
    | _ => cases isPredicate) fun _ => rfl
  selection := h.forall_part (fun a usable s isSelection => by
    cases a with
    | selection => exact Option.some.inj isSelection ▸ usable
    | _ => cases isSelection) fun _ => rfl
  order := h.forall_part (fun a usable term isOrder => by
    cases a with
    | order => exact Option.some.inj isOrder ▸ usable
    | _ => cases isOrder) fun _ => rfl

section Past

variable {past past' : Past}

theorem answer?_agrees (all : List.Forall₂ (Option.Rel (Agree d d')) past past') (step : Nat) :
    Option.Rel (Answer.Agrees d d') (past.answer? step) (past'.answer? step) := by
  induction all generalizing step with
  | nil => exact .none
  | cons first _ ih =>
    cases step with
    | succ step => exact ih step
    | zero =>
      cases first with
      | none => exact .none
      | @some r r' agree =>
        cases r with
        | error e =>
          cases r' with
          | error e' => exact .none
          | ok a' => exact agree.elim
        | ok a =>
          cases r' with
          | error e' => exact agree.elim
          | ok a' => exact .some agree

theorem part_eq {β : Type} {f g : Answer → Option β} (read : ∀ a, f a = g a.neutral)
    (textless : ∀ t t', f (.text t') = f (.text t)) {x y : Option Answer}
    (agree : Option.Rel (Answer.Agrees d d') x y) : y.bind f = x.bind f := by
  cases agree with
  | none => rfl
  | some agree => exact agree.same read textless

theorem fragments_neutral (all : List.Forall₂ (Option.Rel (Agree d d')) past past') :
    past'.fragments.neutral = past.fragments.neutral := by
  have agree := answer?_agrees all
  have columns : past'.fragments.column? = past.fragments.column? := funext fun step =>
    part_eq (g := Answer.column?) (fun a => by cases a <;> rfl) (fun _ _ => rfl) (agree step)
  have selections : past'.fragments.selection? = past.fragments.selection? := funext fun step =>
    part_eq (g := Answer.selection?) (fun a => by cases a <;> rfl) (fun _ _ => rfl) (agree step)
  have orders : past'.fragments.order? = past.fragments.order? := funext fun step =>
    part_eq (g := Answer.order?) (fun a => by cases a <;> rfl) (fun _ _ => rfl) (agree step)
  have predicates (step : Nat) : (past'.fragments.predicate? step).map Predicate.neutral =
      (past.fragments.predicate? step).map Predicate.neutral := by
    rw [Past.fragments, Past.fragments, Option.map_bind, Option.map_bind]
    exact part_eq (g := Answer.predicate?) (fun a => by cases a <;> rfl) (fun _ _ => rfl)
      (agree step)
  simp only [Fragments.neutral, columns, selections, orders, predicates]

end Past

/-! Two plays of one program. -/

theorem has_neutral (s : Session) : s.neutral.has = s.has := has_recast Builder.recasts_neutral s

theorem Call.isOn_neutral (s : Session) (c : Call) : c.neutral.isOn s.neutral = c.isOn s := by
  cases c with
  | make h f =>
    have refs : f.neutral.refs = f.refs := by cases f <;> rfl
    simp only [neutral, isOn, has_neutral, refs]
    rfl
  | change | ask => simp only [neutral, isOn, has_neutral]
  | _ => rfl

/-- A play for one database, after some of its steps. -/
structure Playing (d : Database) (s : Session) (past : Past) : Prop where
  sound : s.Sound
  session : s.bare.Portable d
  past : past.Portable d

/-- The plays for both databases, after the same steps. -/
structure Alongside (d d' : Database) (s t : Session) (past past' : Past) : Prop where
  left : Playing d s past
  right : Playing d' t past'
  same : t.neutral = s.neutral
  answers : List.Forall₂ (Option.Rel (Agree d d')) past past'

theorem Playing.skip {s : Session} {past : Past} (h : Playing d s past) :
    Playing d s (past ++ [none]) :=
  { h with past := fun a mem => h.past a (by simpa using mem) }

/-- A statement is a text. -/
theorem text_of_render {s : Session} {k : Handle .query} {a : Answer}
    (given : s.answer (.render k) = .ok a) : ∃ t, a = .text t := by
  rw [answer, Call.act, Action.run_map, Outcome.result_map] at given
  obtain ⟨t, -, rfl⟩ := except_map_eq_ok.1 given
  exact ⟨t, rfl⟩

theorem Playing.step {s : Session} {past : Past} (h : Playing d s past) {c : Call}
    (portable : c.Portable d) (on : c.isOn s = true) :
    Playing d (s.next c) (past ++ [some (s.answer c)]) := by
  obtain ⟨session, answered⟩ := h.session.next h.sound portable on
  refine ⟨h.sound.next c, session, fun a mem => ?_⟩
  rcases List.mem_append.1 mem with mem | mem
  · exact h.past a mem
  · have given : s.answer c = .ok a := (Option.some.inj (List.mem_singleton.1 mem)).symm
    refine (answered a given).imp_right ?_
    rintro ⟨k, rfl⟩
    exact text_of_render given

theorem Playing.portable_callFor? {s : Session} {past : Past} (h : Playing d s past) {move : Move}
    (portable : move.Portable) {c : Call} (there : move.callFor? d s past = some c) :
    c.Portable d ∧ c.isOn s = true := by
  obtain ⟨given, on⟩ := Option.filter_eq_some_iff.1 there
  exact ⟨Move.portable_call? h.past.fragments portable _ c given, on⟩

namespace Alongside

variable {s t : Session} {past past' : Past}

theorem initial (d d' : Database) : Alongside d d' Session.initial Session.initial [] [] where
  left := ⟨sound_initial, portable_initial d, nofun⟩
  right := ⟨sound_initial, portable_initial d', nofun⟩
  same := rfl
  answers := .nil

/-- A step is a call for both databases or for none, and the same call but for its database. -/
theorem callFor?_eq (h : Alongside d d' s t past past') (move : Move) :
    (move.callFor? d' t past').map Call.neutral = (move.callFor? d s past).map Call.neutral := by
  have calls : (move.call? past'.fragments (.named d'.name) ⟨d', 0⟩).map Call.neutral =
      (move.call? past.fragments (.named d.name) ⟨d, 0⟩).map Call.neutral := by
    rw [← move.call?_neutral, ← move.call?_neutral, fragments_neutral h.answers]
  have filtered (s : Session) (x : Option Call) :
      (x.filter (Call.isOn s)).map Call.neutral =
        (x.map Call.neutral).filter (Call.isOn s.neutral) := by
    cases x with
    | none => rfl
    | some c =>
      simp only [Option.map_some, Option.filter_some, c.isOn_neutral]
      split <;> rfl
  rw [Move.callFor?, Move.callFor?, filtered, filtered, calls, h.same]

theorem next (h : Alongside d d' s t past past') {c c' : Call} (portable : c.Portable d)
    (portable' : c'.Portable d') (alike : c'.neutral = c.neutral) (on : c.isOn s = true)
    (on' : c'.isOn t = true) :
    Alongside d d' (s.next c) (t.next c') (past ++ [some (s.answer c)])
      (past' ++ [some (t.answer c')]) := by
  obtain ⟨same, agree⟩ := agree_step h.same h.left.sound h.right.sound h.left.session
    h.right.session portable portable' alike on on'
  exact ⟨h.left.step portable on, h.right.step portable' on', same,
    List.rel_append h.answers (.cons (.some agree) .nil)⟩

theorem playFrom (h : Alongside d d' s t past past') {program : List Move}
    (portable : ∀ move ∈ program, move.Portable) :
    List.Forall₂ (Option.Rel (Agree d d')) (playFrom d s past program)
      (playFrom d' t past' program) := by
  -- Skipped steps are recorded in both plays, so that steps keep their numbers.
  induction program generalizing s t past past' with
  | nil => exact h.answers
  | cons move moves ih =>
    obtain ⟨first, others⟩ := List.forall_mem_cons.1 portable
    have calls := h.callFor?_eq move
    rw [Session.playFrom, Session.playFrom]
    cases there : move.callFor? d s past with
    | none =>
      rw [there, Option.map_none, Option.map_eq_none_iff] at calls
      rw [calls]
      have skipped := List.rel_append h.answers (.cons .none .nil)
      exact ih ⟨h.left.skip, h.right.skip, h.same, skipped⟩ others
    | some c =>
      rw [there, Option.map_some] at calls
      obtain ⟨c', there', alike⟩ := Option.map_eq_some_iff.1 calls
      rw [there']
      obtain ⟨usable, on⟩ := h.left.portable_callFor? first there
      obtain ⟨usable', on'⟩ := h.right.portable_callFor? first there'
      exact ih (h.next usable usable' alike on on') others

end Alongside

/-- Played for two databases, each step of a portable program is no call in both plays, fails in
both with the same error, or succeeds in both with answers that agree: its statements hold the same
literals with the same text around them. -/
theorem dialects_agree (program : List Move) (portable : ∀ move ∈ program, move.Portable)
    (d d' : Database) :
    List.Forall₂ (Option.Rel (Agree d d')) (play d program) (play d' program) :=
  (Alongside.initial d d').playFrom portable

/-- Values with quotes and backslashes, in a pattern and in a list, and a join that fails. -/
theorem dialects_agree_on_quotes :
    let user : Entity := .base ⟨1, "User", some "users", [⟨"id", none⟩, ⟨"name", none⟩]⟩
    let note : Entity := .base ⟨2, "Note", none, [⟨"userId", none⟩, ⟨"body", some "content"⟩]⟩
    let program : List Move := [.newBuilder sharedResolver false "u" "n" none, .start ⟨0⟩ user,
      .ask (.start ⟨0⟩) (.column "id" none), .join ⟨0⟩ note 2 "missing" .left,
      .join ⟨0⟩ note 2 "userId" .left, .ask (.start ⟨0⟩) (.column "name" none),
      .ask (.joined ⟨0⟩ 0) (.column "body" none),
      .make ⟨0⟩ (.test 5 (.like false .anywhere (.text "O'Neil\\"))),
      .make ⟨0⟩ (.test 6 (.among true [.text "it's", .text "\\' OR '"])),
      .make ⟨0⟩ (.group .and [7, 8]), .make ⟨0⟩ (.columns [5, 6]), .newQuery (some ⟨0⟩),
      .set ⟨0⟩ (.selection 10), .set ⟨0⟩ (.condition 9), .render ⟨0⟩]
    let condition (d : Database) : Predicate := .group .and
      [.like (.column "u" "name") false ⟨d, "%O'Neil\\%"⟩,
        .among (.column "n" "content") true [⟨d, "it's"⟩, ⟨d, "\\' OR '"⟩]]
    (∀ move ∈ program, move.Portable) ∧
      (play .mysql (program.take 10))[9]? = some (some (.ok (.predicate (condition .mysql)))) ∧
      List.Forall₂ (Option.Rel (Agree .postgresql .mysql)) (play .postgresql program)
        (play .mysql program) := by
  intro user note program condition
  have userShaped : user.Shaped := Entity.shaped_base (by decide +kernel) (by decide +kernel)
  have noteShaped : note.Shaped := Entity.shaped_base (by decide +kernel) (by decide +kernel)
  have portable : ∀ move ∈ program, move.Portable := by
    simp [program, Move.Portable, Question.Portable, Request.Dateless, Test.Dateless,
      Value.Dateless, userShaped, noteShaped]
  refine ⟨portable, ?_, dialects_agree program portable .postgresql .mysql⟩
  cbv

end Session

end SqlSelect
