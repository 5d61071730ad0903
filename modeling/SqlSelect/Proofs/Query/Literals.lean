import Mathlib
import SqlSelect.Proofs.Query.Criteria
import SqlSelect.Proofs.Query.Pieces
import SqlSelect.Session

/-!
Values never change the structure of a statement. Two statements that are asked for by the same
calls with different values have the same text outside of their literals, and the literals read
back as the texts of the values in their order.
-/
namespace SqlSelect

/-- The calls that join one table, with the last condition that was added. -/
structure JoinCall where
  entity : Entity
  aliasName : String
  type : JoinType
  source : Column
  target : Column
  condition? : Option Criterion

/-- The calls from which the text behind the selected columns comes. -/
structure Script where
  entity : Entity
  aliasName : String
  joins : List JoinCall
  condition? : Option Criterion
  grouping : List Column
  order : List OrderTerm
  limit : Double
  offset? : Option Double

namespace JoinCall

def columns (j : JoinCall) : List Column :=
  j.source :: j.target :: (j.condition?.map Criterion.columns).getD []

/-- The same calls without their values. -/
def blank (j : JoinCall) : JoinCall :=
  { j with
    source := j.source.blank
    target := j.target.blank
    condition? := j.condition?.map Criterion.blank }

end JoinCall

namespace Script

def columns (s : Script) : List Column :=
  s.joins.flatMap JoinCall.columns ++ ((s.condition?.map Criterion.columns).getD [] ++
    (s.grouping ++ s.order.map OrderTerm.column))

/-- The same calls without their values. -/
def blank (s : Script) : Script :=
  { s with
    joins := s.joins.map JoinCall.blank
    condition? := s.condition?.map Criterion.blank
    grouping := s.grouping.map Column.blank
    order := s.order.map OrderTerm.blank }

end Script

/-- The texts of the values of a condition, if there is one. -/
def conditionTexts (d : Database) (condition? : Option Criterion) :
    Except QueryError (List String) :=
  match condition? with
  | none => .ok []
  | some c => c.texts d

namespace JoinCall

def texts (d : Database) (j : JoinCall) : Except QueryError (List String) :=
  if j.type = .cross then .ok []
  else (conditionTexts d j.condition?).map fun texts =>
    j.source.expr.strings ++ j.target.expr.strings ++ texts

end JoinCall

namespace Script

/-- The texts of all values, in the order in which the statement has them. -/
def texts (d : Database) (s : Script) : Except QueryError (List String) := do
  let joined ← s.joins.mapM (JoinCall.texts d)
  let condition ← conditionTexts d s.condition?
  return joined.flatten ++ (condition ++
    (s.grouping.flatMap (·.expr.strings) ++ s.order.flatMap (·.column.expr.strings)))

/-- All columns come from roots and builders for the one database, and all names are of the shape
that names have to be of. -/
structure Sound (d : Database) (s : Script) : Prop where
  built : ∀ c ∈ s.columns, c.Built d
  columns : ∀ c ∈ s.columns, c.expr.Named
  tables : ∀ e ∈ s.entity :: s.joins.map JoinCall.entity,
    Identifier.isQualified e.tableName.toList = true
  aliases : ∀ name ∈ s.aliasName :: s.joins.map JoinCall.aliasName,
    Identifier.isIdentifier name.toList = true

end Script

/-- The condition that was made for a criterion. -/
def MadeFor (d : Database) : Option Criterion → Option Predicate → Prop :=
  Option.Rel fun c p => c.make d = .ok p

/-- The root that a join call leaves. -/
structure JoinCall.Makes (d : Database) (j : JoinCall) (r : TableRoot) : Prop where
  entity : r.entity = j.entity
  named : r.alias? = some j.aliasName
  wired : ∃ condition?, MadeFor d j.condition? condition? ∧
    r.join? = some ⟨j.type, j.source, j.target, condition?⟩

/-- The query and the tables that the calls of a script leave; what the query selects is open. -/
structure Script.Makes (d : Database) (s : Script) (q : Query) (sources : Sources) : Prop where
  start : ∃ start, sources.start? = some start ∧ start.entity = s.entity ∧
    start.alias? = some s.aliasName
  joins : List.Forall₂ (JoinCall.Makes d) s.joins sources.joins
  condition : MadeFor d s.condition? q.condition?
  grouping : q.grouping = s.grouping
  order : q.order = s.order
  limit : q.limit = s.limit
  offset : q.offset? = s.offset?

namespace MadeFor

variable {d : Database} {c? c'? : Option Criterion} {p? p'? : Option Predicate}

theorem regular (h : MadeFor d c? p?)
    (columns : ∀ c ∈ (c?.map Criterion.columns).getD [], c.expr.Regular d) :
    ∀ p ∈ p?, p.Regular d := by
  cases h with
  | none => simp
  | some made => simpa using Criterion.regular_of_make made (by simpa using columns)

theorem texts (h : MadeFor d c? p?) :
    conditionTexts d c? = .ok ((p?.map Predicate.strings).getD []) := by
  cases h with
  | none => rfl
  | some made => exact Criterion.texts_of_make made

/-- Criteria that differ in their values only are made into predicates that differ in their
strings only. -/
theorem blank (h : MadeFor d c? p?) (h' : MadeFor d c'? p'?)
    (same : c?.map Criterion.blank = c'?.map Criterion.blank) :
    p?.map Predicate.blank = p'?.map Predicate.blank := by
  cases h with
  | none => cases h' with
    | none => rfl
    | some made => simp at same
  | some made => cases h' with
    | none => simp at same
    | some made' =>
      obtain ⟨p, blankMade, blankSame⟩ := Criterion.make_blank made
      obtain ⟨p', blankMade', blankSame'⟩ := Criterion.make_blank made'
      rw [Option.some.inj same, blankMade'] at blankMade
      obtain rfl := Except.ok.inj blankMade
      simp [← blankSame, ← blankSame']

end MadeFor

namespace JoinCall.Makes

variable {d : Database} {j j' : JoinCall} {r r' : TableRoot}

theorem regular (h : j.Makes d r) (columns : ∀ c ∈ j.columns, c.expr.Regular d)
    (table : Identifier.isQualified j.entity.tableName.toList = true)
    (named : Identifier.isIdentifier j.aliasName.toList = true) : r.Regular d := by
  obtain ⟨condition?, made, wired⟩ := h.wired
  obtain ⟨source, target, condition⟩ : j.source.expr.Regular d ∧ j.target.expr.Regular d ∧
      ∀ c ∈ (j.condition?.map Criterion.columns).getD [], c.expr.Regular d := by
    simpa [JoinCall.columns] using columns
  exact ⟨⟨h.entity ▸ table, by simpa [h.named] using named⟩,
    by simpa [wired] using ⟨source, target, made.regular condition⟩⟩

theorem texts (h : j.Makes d r) : j.texts d = .ok r.joinStrings := by
  obtain ⟨condition?, made, wired⟩ := h.wired
  unfold JoinCall.texts TableRoot.joinStrings
  simp only [wired, Option.map_some, Option.getD_some, Join.strings, made.texts]
  split <;> rfl

theorem joinPieces_blank (h : j.Makes d r) (h' : j'.Makes d r') (same : j.blank = j'.blank) :
    r.blank.joinPieces = r'.blank.joinPieces := by
  obtain ⟨condition?, made, wired⟩ := h.wired
  obtain ⟨condition'?, made', wired'⟩ := h'.wired
  simp only [blank, JoinCall.mk.injEq] at same
  obtain ⟨entity, named, type, source, target, condition⟩ := same
  have table : r.tableClause = r'.tableClause := by
    simp [TableRoot.tableClause, h.entity, h'.entity, entity, h.named, h'.named, named]
  have table' : r.blank.tableClause = r'.blank.tableClause := table
  have join : r.blank.join? = r'.blank.join? := by
    simp [TableRoot.blank, wired, wired', Join.blank, type, source, target,
      made.blank made' condition]
  simp only [TableRoot.joinPieces, join, table']

theorem mapM_texts {js : List JoinCall} {rs : List TableRoot}
    (h : List.Forall₂ (JoinCall.Makes d) js rs) :
    js.mapM (JoinCall.texts d) = .ok (rs.map TableRoot.joinStrings) := by
  induction h with
  | nil => rfl
  | cons first _ others =>
    rw [List.mapM_cons, first.texts, others]
    rfl

theorem flatMap_joinPieces {js js' : List JoinCall} {rs rs' : List TableRoot}
    (h : List.Forall₂ (JoinCall.Makes d) js rs) (h' : List.Forall₂ (JoinCall.Makes d) js' rs')
    (same : js.map JoinCall.blank = js'.map JoinCall.blank) :
    (rs.map TableRoot.blank).flatMap TableRoot.joinPieces =
      (rs'.map TableRoot.blank).flatMap TableRoot.joinPieces := by
  induction h generalizing js' rs' with
  | nil => cases h' with
    | nil => rfl
    | cons _ _ => simp at same
  | cons first _ ih => cases h' with
    | nil => simp at same
    | cons first' others' =>
      obtain ⟨sameFirst, sameOthers⟩ := List.cons.inj same
      simp only [List.map_cons, List.flatMap_cons]
      rw [first.joinPieces_blank first' sameFirst, ih others' sameOthers]

end JoinCall.Makes

namespace Script.Makes

variable {d : Database} {s s' : Script} {q q' : Query} {sources sources' : Sources}

theorem regular (h : s.Makes d q sources) (sound : s.Sound d) : q.Regular d := by
  have regular {c : Column} (mem : c ∈ s.columns) : c.expr.Regular d :=
    (sound.built c mem).regular (sound.columns c mem)
  constructor
  · apply h.condition.regular
    intro c mem
    exact regular (List.mem_append_right _ (List.mem_append_left _ mem))
  · intro c mem
    rw [h.grouping] at mem
    apply regular
    simp [columns, mem]
  · intro term mem
    rw [h.order] at mem
    have := List.mem_map_of_mem (f := OrderTerm.column) mem
    apply regular
    simp [columns, this]

theorem regular_joins (h : s.Makes d q sources) (sound : s.Sound d) :
    ∀ r ∈ sources.joins, r.Regular d := by
  intro r mem
  obtain ⟨j, there, makes⟩ := exists_of_mem_right h.joins mem
  apply makes.regular
  · intro c inside
    have mem : c ∈ s.columns := List.mem_append_left _ (List.mem_flatMap.2 ⟨j, there, inside⟩)
    exact (sound.built c mem).regular (sound.columns c mem)
  · exact sound.tables _ (List.mem_cons_of_mem _ (List.mem_map_of_mem there))
  · exact sound.aliases _ (List.mem_cons_of_mem _ (List.mem_map_of_mem there))

theorem texts (h : s.Makes d q sources) :
    s.texts d = .ok (q.tailStrings sources.joins) := by
  unfold Script.texts Query.tailStrings
  rw [JoinCall.Makes.mapM_texts h.joins, h.condition.texts, h.grouping, h.order, List.flatMap_def]
  rfl

/-- Statements that are asked for by the same calls have the same pieces but for their literals. -/
theorem tailPieces_blank (h : s.Makes d q sources) (h' : s'.Makes d q' sources')
    (same : s.blank = s'.blank) {start start' : TableRoot} (starts : sources.start? = some start)
    (starts' : sources'.start? = some start') :
    (q.tailPieces start sources.joins).map Piece.blank =
      (q'.tailPieces start' sources'.joins).map Piece.blank := by
  simp only [blank, Script.mk.injEq] at same
  obtain ⟨entity, named, joins, condition, grouping, order, limit, offset⟩ := same
  have joined := JoinCall.Makes.flatMap_joinPieces h.joins h'.joins joins
  have table : start.tableClause = start'.tableClause := by
    obtain ⟨r, there, isEntity, isNamed⟩ := h.start
    obtain ⟨r', there', isEntity', isNamed'⟩ := h'.start
    obtain rfl := Option.some.inj (starts.symm.trans there)
    obtain rfl := Option.some.inj (starts'.symm.trans there')
    simp [TableRoot.tableClause, isEntity, isEntity', entity, isNamed, isNamed', named]
  have conditions : q.blank.condition? = q'.blank.condition? :=
    h.condition.blank h'.condition condition
  have groupings : q.blank.grouping = q'.blank.grouping := by
    simp only [Query.blank, h.grouping, h'.grouping, grouping]
  have orders : q.blank.order = q'.blank.order := by
    simp only [Query.blank, h.order, h'.order, order]
  have limits : q.blank.limit = q'.blank.limit := h.limit.trans (limit.trans h'.limit.symm)
  have offsets : q.blank.offset? = q'.blank.offset? := h.offset.trans (offset.trans h'.offset.symm)
  rw [← Query.tailPieces_blank, ← Query.tailPieces_blank]
  simp only [Query.tailPieces, joined, table, conditions, Query.groupPieces, groupings,
    Query.orderPieces, orders, Query.limitClause, limits, Query.offsetText, offsets]

end Script.Makes

/-- Behind the selected columns the statement is read as these pieces, the scan ends outside of
literals, and the literals are the texts of the values. -/
structure Script.ReadAs (d : Database) (s : Script) (q : Query) (sql : String)
    (pieces : List Piece) : Prop where
  scanned : ∃ head tail, q.selectClause = .ok head ∧ sql = head ++ tail ∧
    d.scan tail.toList = some pieces
  literals : ∃ texts, s.texts d = .ok texts ∧
    pieces.filterMap Piece.content? = texts.map String.toList

/-- From coherent resolvers a statement is read as its pieces. -/
theorem Script.Makes.readAs {d : Database} {s : Script} {q : Query} {sources : Sources}
    (h : s.Makes d q sources) (sound : s.Sound d) {names : Resolvers} (coherent : names.Coherent)
    {sql : String} (rendered : ((q.render (some sources)).run names).result = .ok sql) :
    ∃ start, sources.start? = some start ∧
      s.ReadAs d q sql (q.tailPieces start sources.joins) := by
  obtain ⟨_, start, head, given, starts, selected, same⟩ :=
    Query.statement_ok ((q.computes_render (some sources)).eq_ok coherent rendered)
  obtain rfl := Option.some.inj given
  have regular := h.regular sound
  have wired := h.regular_joins sound
  have begins : start.Shaped := by
    obtain ⟨r, there, isEntity, isNamed⟩ := h.start
    obtain rfl := Option.some.inj (starts.symm.trans there)
    refine ⟨isEntity ▸ sound.tables _ List.mem_cons_self, ?_⟩
    simpa [isNamed] using sound.aliases _ List.mem_cons_self
  refine ⟨start, starts, ⟨head, _, selected, same, ?_⟩, _, h.texts, ?_⟩
  · rw [← Query.write_tailPieces regular wired]
    exact scan_write d (Query.separated_tailPieces regular begins wired)
  · exact q.contents_tailPieces start sources.joins

/-- Two statements that the same calls ask for with different values: their texts behind the
selected columns are read as the same pieces but for the contents of literals, and these contents
are the texts of the values that were handed in, in their order. -/
theorem literals_keep_structure {d : Database} {s s' : Script} (same : s.blank = s'.blank)
    (sound : s.Sound d) (sound' : s'.Sound d) {q q' : Query} {sources sources' : Sources}
    (makes : s.Makes d q sources) (makes' : s'.Makes d q' sources') {names names' : Resolvers}
    (reached : ∀ h, ∃ logs calls, names.get h = (Resolver.fresh logs).after calls)
    (reached' : ∀ h, ∃ logs calls, names'.get h = (Resolver.fresh logs).after calls)
    {sql sql' : String} (rendered : ((q.render (some sources)).run names).result = .ok sql)
    (rendered' : ((q'.render (some sources')).run names').result = .ok sql') :
    ∃ pieces pieces', s.ReadAs d q sql pieces ∧ s'.ReadAs d q' sql' pieces' ∧
      pieces.map Piece.blank = pieces'.map Piece.blank := by
  obtain ⟨start, starts, read⟩ :=
    makes.readAs sound (Resolvers.coherent_of_after reached) rendered
  obtain ⟨start', starts', read'⟩ :=
    makes'.readAs sound' (Resolvers.coherent_of_after reached') rendered'
  exact ⟨_, _, read, read', makes.tailPieces_blank makes' same starts starts'⟩

/-- A value that tries to end its literal, and one that does not, have the same statement around
them. -/
theorem hostile_value_stays_literal :
    let customer : Entity := .base ⟨1, "Customer", some "customers", [⟨"name", some "full_name"⟩]⟩
    let root : TableRoot := ⟨customer, Session.sharedResolver, ⟨.mysql, 0⟩, some "m", none⟩
    let name := Column.ofExpr (.column "m" "full_name")
    let label (suffix : String) :=
      Column.ofExpr (.concat .mysql [name.expr, .literal ⟨.mysql, suffix⟩])
    let script (content suffix : String) : Script :=
      ⟨customer, "m", [], some (.like name false .start (.text content)), [],
        [⟨label suffix, .ascending⟩], .zero, none⟩
    let query (content suffix : String) : Query :=
      { Query.fresh none with
        selection? := some (.all "m")
        condition? := some (.like name.expr false ⟨.mysql, content ++ "%"⟩)
        order := [⟨label suffix, .ascending⟩] }
    let sources : Option Sources := some ⟨false, some root, []⟩
    let names := Session.initial.resolvers
    let hostile := "\\' OR 1=1 -- "
    (script hostile "\\").texts .mysql = .ok [hostile ++ "%", "\\"] ∧
    ∃ sql sql' pieces pieces',
      (((query hostile "\\").render sources).run names).result = .ok sql ∧
      (((query "Ann" "!").render sources).run names).result = .ok sql' ∧
      (script hostile "\\").ReadAs .mysql (query hostile "\\") sql pieces ∧
      (script "Ann" "!").ReadAs .mysql (query "Ann" "!") sql' pieces' ∧
      pieces.map Piece.blank = pieces'.map Piece.blank := by
  intro customer root name label script query sources names hostile
  have nameBuilt : name.Built .mysql := by
    have given : ((root.column "name" none).run names).result = .ok name := by cbv
    exact .column given
  have named : name.expr.Named := ⟨by decide +kernel, by decide +kernel⟩
  have sound (content suffix : String) : (script content suffix).Sound .mysql := by
    have columns {c : Column} (mem : c ∈ (script content suffix).columns) :
        c = name ∨ c = label suffix := by
      simpa [script, Script.columns, JoinCall.columns, Criterion.columns] using mem
    constructor
    · intro c mem
      rcases columns mem with rfl | rfl
      · exact nameBuilt
      · apply @Column.Built.concat .mysql [.column name, .text suffix] _ _ rfl
        intro part mem
        obtain rfl : part = name := by simpa using mem
        exact nameBuilt
    · intro c mem
      rcases columns mem with rfl | rfl
      · exact named
      · exact ⟨named, trivial, trivial⟩
    · change ∀ e ∈ [customer], Identifier.isQualified e.tableName.toList = true
      decide +kernel
    · change ∀ name ∈ ["m"], Identifier.isIdentifier name.toList = true
      decide +kernel
  have makes (content suffix : String) :
      (script content suffix).Makes .mysql (query content suffix) ⟨false, some root, []⟩ :=
    ⟨⟨_, rfl, rfl, rfl⟩, .nil, .some rfl, rfl, rfl, rfl, rfl⟩
  have unused (h : Handle .resolver) : names.get h = Resolver.fresh false :=
    ite_self (c := h = ⟨0⟩) (Resolver.fresh false)
  have reached (h : Handle .resolver) :
      ∃ logs calls, names.get h = (Resolver.fresh logs).after calls := ⟨false, [], unused h⟩
  have rendered (content suffix : String) :
      ∃ sql, (((query content suffix).render sources).run names).result = .ok sql := by
    have computed := (query content suffix).computes_render sources
    rw [computed.result_of_quiet (Resolvers.coherent_of_after reached)]
    · exact ⟨_, rfl⟩
    · rintro message ⟨h, l, there, -⟩
      simp [unused, Resolver.fresh] at there
  obtain ⟨sql, there⟩ := rendered hostile "\\"
  obtain ⟨sql', there'⟩ := rendered "Ann" "!"
  obtain ⟨pieces, pieces', read, read', same⟩ := literals_keep_structure
    (by rfl) (sound _ _) (sound _ _) (makes _ _) (makes _ _) reached reached there there'
  exact ⟨by rfl, sql, sql', pieces, pieces', there, there', read, read', same⟩

end SqlSelect
