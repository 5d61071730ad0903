import SqlSelect.Proofs.Session.Rendering

/-!
Setting the parts of a query. A call that is accepted takes the place of what was set of the same
part before and touches no other part; a call that is refused does nothing. So a query is what the
last accepted calls make of it, in whatever order they came.
-/
namespace SqlSelect

/-- The parts of a query that can be set. -/
inductive Slot where
  | builder
  | selection
  | condition
  | distinctOn
  | distinct
  | order
  | grouping
  | limit
  | offset
deriving DecidableEq, Repr

namespace Query

/-- Two queries have the same in one part. -/
def AgreeAt (q r : Query) : Slot → Prop
  | .builder => q.builder? = r.builder?
  | .selection => q.selection? = r.selection?
  | .condition => q.condition? = r.condition?
  | .distinctOn => q.distinctOn? = r.distinctOn?
  | .distinct => q.distinct = r.distinct
  | .order => q.order = r.order
  | .grouping => q.grouping = r.grouping
  | .limit => q.limit = r.limit
  | .offset => q.offset? = r.offset?

variable {q r t : Query} {slot : Slot}

namespace AgreeAt

theorem refl (q : Query) (slot : Slot) : q.AgreeAt q slot := by cases slot <;> rfl

theorem symm (h : q.AgreeAt r slot) : r.AgreeAt q slot := by cases slot <;> exact Eq.symm h

theorem trans (first : q.AgreeAt r slot) (second : r.AgreeAt t slot) : q.AgreeAt t slot := by
  cases slot <;> exact Eq.trans first second

end AgreeAt

/-- There is nothing more to a query than its parts. -/
theorem eq_of_agreeAt (h : ∀ slot, q.AgreeAt r slot) : q = r := by
  obtain ⟨_, _, _, _, _, _, _, _, _⟩ := q
  obtain ⟨_, _, _, _, _, _, _, _, _⟩ := r
  obtain rfl := h .builder
  obtain rfl := h .selection
  obtain rfl := h .condition
  obtain rfl := h .distinctOn
  obtain rfl := h .distinct
  obtain rfl := h .order
  obtain rfl := h .grouping
  obtain rfl := h .limit
  obtain rfl := h .offset
  rfl

end Query

/-- A call that sets a part of a query, with the arguments that the caller gives. -/
inductive SetCall where
  | builder (h : Handle .builder)
  | selection (s : Selection)
  | condition (p : Predicate)
  | distinctOn (d : DistinctOn)
  | distinct (value : Bool)
  | order (arguments : List OrderArgument)
  | grouping (columns : List Column)
  | limit (count : Double)
  | offset (count : Double)

namespace SetCall

def slot : SetCall → Slot
  | builder _ => .builder
  | selection _ => .selection
  | condition _ => .condition
  | distinctOn _ => .distinctOn
  | distinct _ => .distinct
  | order _ => .order
  | grouping _ => .grouping
  | limit _ => .limit
  | offset _ => .offset

/-- The same call with all terms to order by in one list. -/
def flat : SetCall → SetCall
  | order arguments => order [.several (OrderArgument.flatten arguments)]
  | c => c

/-- The call on a query of the session. -/
def call (h : Handle .query) : SetCall → Session.Call
  | builder b => .bind h b
  | selection s => .set h (.selection s)
  | condition p => .set h (.condition p)
  | distinctOn d => .set h (.distinctOn d)
  | distinct value => .set h (.distinct value)
  | order arguments => .set h (.order arguments)
  | grouping columns => .set h (.grouping columns)
  | limit count => .set h (.limit count)
  | offset count => .set h (.offset count)

def apply : SetCall → Query → Except QueryError Query
  | builder b, q => .ok (q.setBuilder b)
  | selection s, q => .ok (q.setSelection s)
  | condition p, q => q.withCondition p
  | distinctOn d, q => .ok (q.setDistinctOn d)
  | distinct value, q => .ok (q.setDistinct value)
  | order arguments, q => .ok (q.setOrder arguments)
  | grouping columns, q => .ok (q.setGrouping columns)
  | limit count, q => q.withLimit count
  | offset count, q => q.withOffset count

/-- What the call makes of a query if it is accepted. -/
def put : SetCall → Query → Query
  | builder b, q => q.setBuilder b
  | selection s, q => q.setSelection s
  | condition p, q => { q with condition? := some p }
  | distinctOn d, q => q.setDistinctOn d
  | distinct value, q => q.setDistinct value
  | order arguments, q => q.setOrder arguments
  | grouping columns, q => q.setGrouping columns
  | limit count, q => { q with limit := count }
  | offset count, q => { q with offset? := some count }

/-- Whether the arguments of the call are taken. -/
def valid : SetCall → Bool
  | condition p => !Text.isBlank p.text
  | limit count | offset count => count.isInteger && !count.lessThan .zero
  | _ => true

variable {c d : SetCall} {q r : Query} {slot : Slot}

/-- Whether a call is accepted does not depend on the query. -/
theorem isOk_apply (c : SetCall) (q : Query) : (c.apply q).isOk = c.valid := by
  cases c with
  | condition p =>
    simp only [apply, Query.withCondition, valid]
    cases Text.isBlank p.text <;> rfl
  | limit count | offset count =>
    simp only [apply, Query.withLimit, Query.withOffset, checkRowCount, valid]
    cases count.isInteger && !count.lessThan .zero <;> rfl
  | _ => rfl

theorem eq_put_of_apply (ok : c.apply q = .ok r) : r = c.put q := by
  cases c with
  | condition p =>
    simp only [apply, Query.withCondition] at ok
    split at ok
    · cases ok
    · exact (Except.ok.inj ok).symm
  | limit count | offset count =>
    obtain ⟨-, -, rfl⟩ := except_map_eq_ok.1 ok
    rfl
  | _ => exact (Except.ok.inj ok).symm

/-- The other parts stay as they are. -/
theorem put_agreeAt_of_ne (other : c.slot ≠ slot) (q : Query) : (c.put q).AgreeAt q slot := by
  cases c <;> cases slot <;> first | rfl | exact absurd rfl other

/-- What is set does not depend on what was there. -/
theorem put_agreeAt_own (c : SetCall) (q r : Query) : (c.put q).AgreeAt (c.put r) c.slot := by
  cases c <;> rfl

@[simp] theorem put_flat (c : SetCall) (q : Query) : c.flat.put q = c.put q := by
  cases c with
  | order arguments => simp [flat, put, Query.setOrder, OrderArgument.flatten, OrderArgument.terms]
  | _ => rfl

/-- What accepted calls make of a query, one after the other. -/
def putAll (calls : List SetCall) (q : Query) : Query := calls.foldl (fun q c => c.put q) q

/-- The last call for one part. -/
def last? (slot : Slot) (calls : List SetCall) : Option SetCall :=
  (calls.filter (·.slot = slot)).getLast?

/-- The last call for a part decides what is there in the end. -/
theorem putAll_agreeAt (calls : List SetCall) (q : Query) (slot : Slot) :
    (putAll calls q).AgreeAt ((last? slot calls).elim q (·.put q)) slot := by
  induction calls using List.reverseRecOn with
  | nil => exact .refl _ _
  | append_singleton calls c ih =>
    have step : putAll (calls ++ [c]) q = c.put (putAll calls q) := List.foldl_concat ..
    rw [step]
    by_cases own : c.slot = slot
    · have last : last? slot (calls ++ [c]) = some c := by simp [last?, own]
      rw [last]
      exact own ▸ c.put_agreeAt_own _ _
    · have last : last? slot (calls ++ [c]) = last? slot calls := by simp [last?, own]
      rw [last]
      exact (put_agreeAt_of_ne own _).trans ih

theorem putAll_congr {calls others : List SetCall}
    (same : ∀ slot, (last? slot calls).map flat = (last? slot others).map flat) (q : Query) :
    putAll calls q = putAll others q := by
  refine Query.eq_of_agreeAt fun slot => (putAll_agreeAt calls q slot).trans ?_
  have flattened (c? : Option SetCall) :
      c?.elim q (·.put q) = (c?.map flat).elim q (·.put q) := by
    cases c? <;> simp
  rw [flattened, same slot, ← flattened]
  exact (putAll_agreeAt others q slot).symm

end SetCall

namespace Session

theorem act_setCall (h : Handle .query) (c : SetCall) :
    (c.call h).act = done (changeQuery h c.apply) := by
  cases c with
  | builder b => exact act_bind h b
  | _ => exact act_set h _

theorem isOk_answer_setCall (h : Handle .query) (c : SetCall) (s : Session) :
    (s.answer (c.call h)).isOk = c.valid := by
  rw [← c.isOk_apply (s.queries.get h), answer, act_setCall, done, Action.run_map,
    Outcome.result_map, run_changeQuery]
  cases c.apply (s.queries.get h) <;> rfl

theorem next_setCall (h : Handle .query) (c : SetCall) (s : Session) : s.next (c.call h) =
    if c.valid then { s with queries := s.queries.set h (c.put (s.queries.get h)) } else s := by
  rw [← c.isOk_apply (s.queries.get h), next, act_setCall, done, Action.run_map,
    Outcome.state_map, run_changeQuery]
  cases applied : c.apply (s.queries.get h) with
  | error e => rfl
  | ok q =>
    obtain rfl := SetCall.eq_put_of_apply applied
    rfl

/-- The calls of a run on one query that are accepted. -/
def acceptedSettings (h : Handle .query) : Session → List SetCall → List SetCall
  | _, [] => []
  | s, c :: calls =>
    (if (s.answer (c.call h)).isOk then [c] else []) ++
      acceptedSettings h (s.next (c.call h)) calls

/-- The last accepted call for one part. -/
def lastSetting? (slot : Slot) (h : Handle .query) (s : Session) (calls : List SetCall) :
    Option SetCall :=
  SetCall.last? slot (acceptedSettings h s calls)

variable {h k : Handle .query} {s : Session}

theorem acceptedSettings_eq_filter (h : Handle .query) (s : Session) (calls : List SetCall) :
    acceptedSettings h s calls = calls.filter SetCall.valid := by
  induction calls generalizing s with
  | nil => rfl
  | cons c calls ih =>
    rw [acceptedSettings, ih, isOk_answer_setCall, List.filter_cons]
    cases c.valid <;> rfl

theorem get_after_settings (calls : List SetCall) :
    (s.after (calls.map (SetCall.call h))).queries.get h =
      SetCall.putAll (acceptedSettings h s calls) (s.queries.get h) := by
  rw [acceptedSettings_eq_filter]
  induction calls generalizing s with
  | nil => rfl
  | cons c calls ih =>
    rw [List.map_cons, after_cons, ih, next_setCall, List.filter_cons]
    cases c.valid
    · rfl
    · exact congrArg (SetCall.putAll _) (Store.get_set_self _ _ _)

/-- Setting parts of a query changes nothing but the queries. -/
theorem after_settings (calls : List SetCall) : s.after (calls.map (SetCall.call h)) =
    { s with queries := (s.after (calls.map (SetCall.call h))).queries } := by
  induction calls generalizing s with
  | nil => rfl
  | cons c calls ih =>
    rw [List.map_cons, after_cons, ih, next_setCall]
    split <;> rfl

/-! Runs in which a query is set last. -/

section Setup

variable {before : List Call} {calls : List SetCall} {q : Query}
  (query : SetCall.putAll (calls.filter SetCall.valid) ((initial.after before).queries.get h) = q)

include query

theorem get_after_setup :
    (initial.after (before ++ calls.map (SetCall.call h))).queries.get h = q := by
  rw [after, List.foldl_append, ← query, ← acceptedSettings_eq_filter h (initial.after before)]
  exact get_after_settings calls

/-- Without refusals, what the run leaves is rendered to the statement of the query. -/
theorem result_render_settings (harmless : ∀ c ∈ before, c.Quiet) {k : Handle .builder}
    {b : Builder} (bound : q.builder? = some k)
    (builder : (initial.after before).builders.get k = b) (unlisted : b.listed? = none) :
    ((render h).run (initial.after (before ++ calls.map (SetCall.call h)))).result =
      q.statement (some b.sources) := by
  refine result_render_after ?_ (get_after_setup query) bound ?_ unlisted
  · intro c mem
    rcases List.mem_append.1 mem with mem | mem
    · exact harmless c mem
    · obtain ⟨d, -, rfl⟩ := List.mem_map.1 mem
      cases d <;> trivial
  · have parts : initial.after (before ++ calls.map (SetCall.call h)) =
        (initial.after before).after (calls.map (SetCall.call h)) := List.foldl_append
    rw [parts, after_settings]
    exact builder

end Setup

/-- Let two queries of a session start alike, as two new ones do, and let each be set by calls of
its own, some of which may be refused. If the last accepted call for each part is the same for both,
the terms to order by taken as one list, then both are the same query in the end and render to the
same text or fail with the same error, and both report the same and leave the same names. -/
theorem render_follows_last_settings (s : Session) (h k : Handle .query)
    (calls others : List SetCall) (alike : s.queries.get h = s.queries.get k)
    (same : ∀ slot, (lastSetting? slot h s calls).map SetCall.flat =
      (lastSetting? slot k s others).map SetCall.flat) :
    let left := s.after (calls.map (SetCall.call h))
    let right := s.after (others.map (SetCall.call k))
    left.queries.get h = right.queries.get k ∧
      ((render h).run left).result = ((render k).run right).result ∧
      ((render h).run left).journal = ((render k).run right).journal ∧
      ((render h).run left).state.resolvers = ((render k).run right).state.resolvers := by
  intro left right
  have equal : left.queries.get h = right.queries.get k := by
    rw [get_after_settings, get_after_settings, alike]
    exact SetCall.putAll_congr same _
  -- What is left apart from the queries is the session that both runs start from.
  have leftSources : left.sources = s.sources := by
    rw [show left = _ from after_settings calls]
    rfl
  have rightSources : right.sources = s.sources := by
    rw [show right = _ from after_settings others]
    rfl
  have names : left.resolvers = right.resolvers := by
    rw [show left = _ from after_settings calls, show right = _ from after_settings others]
  rw [run_render, run_render, equal, leftSources, rightSources, run_onResolvers, run_onResolvers,
    names]
  exact ⟨rfl, rfl, rfl, rfl⟩

/-- One query is set step by step, with a limit that is replaced and one that is refused; the other
is set in another order and with a blank condition that is refused. -/
theorem render_skips_refused_settings :
    let user : Entity := .base ⟨1, "User", some "users", [⟨"id", none⟩, ⟨"userName", none⟩]⟩
    let byName : OrderTerm := ⟨.ofExpr (.column "m" "user_name"), .ascending⟩
    let byId : OrderTerm := ⟨.ofExpr (.column "m" "id"), .descending⟩
    let options : BuilderOptions := ⟨.named "postgresql", sharedResolver, false, "m", "j", none⟩
    let setup : List Call := [.newBuilder options, .start ⟨0⟩ user, .newQuery none, .newQuery none]
    let calls : List SetCall := [.limit (.ofNat 5), .builder ⟨0⟩, .selection (.all "m"),
      .order [.one byName, .one byId], .limit (.ofNat 20), .offset (.ofNat 40),
      .limit (.ofDecimal false 25 (-1))]
    let others : List SetCall := [.order [.one byId], .order [.several [byName, byId]],
      .offset (.ofNat 40), .limit (.ofNat 20), .condition (.raw " "), .selection (.all "m"),
      .builder ⟨0⟩]
    let s := initial.after setup
    let left := s.after (calls.map (SetCall.call ⟨0⟩))
    let right := s.after (others.map (SetCall.call ⟨1⟩))
    s.queries.get ⟨0⟩ = s.queries.get ⟨1⟩ ∧
      (∀ slot, (lastSetting? slot ⟨0⟩ s calls).map SetCall.flat =
        (lastSetting? slot ⟨1⟩ s others).map SetCall.flat) ∧
      ((render ⟨0⟩).run left).result = ((render ⟨1⟩).run right).result ∧
      ((render ⟨0⟩).run left).result = .ok
        "SELECT m.* FROM users m ORDER BY  m.user_name asc, m.id desc LIMIT 20 OFFSET 40" := by
  intro user byName byId options setup calls others s left right
  have first : s.queries.get ⟨0⟩ = .fresh none := by
    show (initial.after setup).queries.get ⟨0⟩ = .fresh none
    cbv
  have second : s.queries.get ⟨1⟩ = .fresh none := by
    show (initial.after setup).queries.get ⟨1⟩ = .fresh none
    cbv
  have alike : s.queries.get ⟨0⟩ = s.queries.get ⟨1⟩ := first.trans second.symm
  have five : (SetCall.limit (.ofNat 5)).valid = true := by decide +kernel
  have twenty : (SetCall.limit (.ofNat 20)).valid = true := by decide +kernel
  have forty : (SetCall.offset (.ofNat 40)).valid = true := by decide +kernel
  have broken : (SetCall.limit (.ofDecimal false 25 (-1))).valid = false := by decide +kernel
  have blank : (SetCall.condition (.raw " ")).valid = false := by decide +kernel
  have free : (SetCall.builder ⟨0⟩).valid = true ∧ (SetCall.selection (.all "m")).valid = true ∧
      ∀ terms, (SetCall.order terms).valid = true := ⟨rfl, rfl, fun _ => rfl⟩
  have accepted : calls.filter SetCall.valid = calls.dropLast := by
    simp [calls, free, five, twenty, forty, broken]
  have same (slot : Slot) : (lastSetting? slot ⟨0⟩ s calls).map SetCall.flat =
      (lastSetting? slot ⟨1⟩ s others).map SetCall.flat := by
    have acceptedOthers : others.filter SetCall.valid = others.eraseIdx 4 := by
      simp [others, free, twenty, forty, blank]
    simp only [lastSetting?, acceptedSettings_eq_filter, accepted, acceptedOthers]
    cases slot <;> rfl
  obtain ⟨-, equal, -⟩ := render_follows_last_settings s ⟨0⟩ ⟨1⟩ calls others alike same
  let b : Builder := ⟨⟨.postgresql, 0⟩, sharedResolver, false, "m", "j",
    some ⟨user, sharedResolver, ⟨.postgresql, 0⟩, some "m", none⟩, [], none⟩
  have builder : (initial.after setup).builders.get ⟨0⟩ = b := by cbv
  have run : left = initial.after (setup ++ calls.map (SetCall.call ⟨0⟩)) :=
    List.foldl_append.symm
  have rendered : ((render ⟨0⟩).run left).result = .ok
      "SELECT m.* FROM users m ORDER BY  m.user_name asc, m.id desc LIMIT 20 OFFSET 40" := by
    rw [run, result_render_settings (by rw [accepted, first]) (by simp [setup, Call.Quiet]) rfl
      builder rfl]
    decide +kernel
  exact ⟨alike, same, equal, rendered⟩

end Session

end SqlSelect
