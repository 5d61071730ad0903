import SqlSelect.Proofs.Resolver.Names
import SqlSelect.Query

/-!
The text of a statement with its tables named as their entities name them. Rendering computes this
text, whichever names are remembered already.
-/
namespace SqlSelect

namespace TableRoot

variable (r : TableRoot)

def tableClause : String := r.entity.tableName ++ " " ++ r.alias?.getD ""

def joinClause : String :=
  match r.join? with
  | none => ""
  | some join =>
    let opening := " " ++ join.type.keyword ++ " " ++ r.tableClause ++ " "
    if join.type = .cross then opening
    else opening ++ "ON " ++ join.source.text ++ " = " ++ join.target.text ++
      (join.condition?.map fun p => " AND " ++ p.text).getD "" ++ " "

/-- What keeps a root from being joined in a statement. -/
def checkJoined : Except QueryError Unit :=
  match r.join? with
  | none => r.aliasName >>= fun name => .error (.wiringMissing r.entity.name name)
  | some _ => r.aliasName.map fun _ => ()

end TableRoot

namespace Query

variable (q : Query) (r start : TableRoot) (joins : List TableRoot)

def offsetText : String := (q.offset?.map fun count => " OFFSET " ++ count.text).getD ""

/-- Everything behind the selected columns. -/
def tail : String :=
  start.tableClause ++ String.join (joins.map TableRoot.joinClause) ++ q.whereClause ++
    q.groupClause ++ q.orderClause ++ q.limitClause ++ q.offsetText

/-- The whole statement, or the first error on the way to it. -/
def statement (sources? : Option Sources) : Except QueryError String :=
  match sources? with
  | none => .error .unbound
  | some sources =>
    match sources.start? with
    | none => .error .fromMissing
    | some start => do
      let selected ← q.selectClause
      let _ ← start.aliasName
      let _ ← sources.joins.mapM TableRoot.checkJoined
      let _ ← q.offsetClause
      return selected ++ q.tail start sources.joins

theorem statement_ok {q : Query} {sources? : Option Sources} {sql : String}
    (h : q.statement sources? = .ok sql) : ∃ sources start selected, sources? = some sources ∧
      sources.start? = some start ∧ q.selectClause = .ok selected ∧
      sql = selected ++ q.tail start sources.joins := by
  unfold statement at h
  cases sources? with
  | none => cases h
  | some sources =>
    cases begins : sources.start? with
    | none => simp [begins] at h
    | some start =>
      simp only [begins] at h
      obtain ⟨selected, chosen, h⟩ := except_bind_eq_ok.1 h
      obtain ⟨name, -, h⟩ := except_bind_eq_ok.1 h
      obtain ⟨joined, -, h⟩ := except_bind_eq_ok.1 h
      obtain ⟨skipped, -, h⟩ := except_bind_eq_ok.1 h
      exact ⟨sources, start, selected, rfl, begins, chosen, (Except.ok.inj h).symm⟩

theorem computes_tableText : Computes (tableText r) (r.aliasName.map fun _ => r.tableClause) := by
  refine (r.computes_tableName.bind fun table _ => (Computes.lift r.aliasName).bind fun name _ =>
    Computes.pure (table ++ " " ++ name)).congr ?_
  unfold TableRoot.aliasName TableRoot.tableClause
  cases r.alias? <;> rfl

theorem computes_joinText : Computes (joinText r) (r.checkJoined.map fun _ => r.joinClause) := by
  cases wired : r.join? with
  | none =>
    simp only [joinText, TableRoot.joinClause, TableRoot.checkJoined, wired]
    refine ((Computes.lift r.aliasName).bind fun _ _ => Computes.fail _).congr ?_
    cases r.aliasName <;> rfl
  | some join =>
    have clause {table : String} (same : r.aliasName.map (fun _ => r.tableClause) = .ok table) :
        Computes (do
          let opening := " " ++ join.type.keyword ++ " " ++ table ++ " "
          if join.type = .cross then return opening
          let extra := (join.condition?.map fun p => " AND " ++ p.text).getD ""
          return opening ++ "ON " ++ join.source.text ++ " = " ++ join.target.text ++ extra ++ " ")
        (.ok r.joinClause) := by
      have isClause : table = r.tableClause := by
        cases named : r.aliasName with
        | error e => simp [named, Except.map] at same
        | ok name => simpa [named, Except.map] using same.symm
      simp only [TableRoot.joinClause, wired, isClause]
      split <;> exact Computes.pure _
    simp only [joinText, TableRoot.checkJoined, wired]
    refine ((computes_tableText r).bind fun table same => clause same).congr ?_
    cases r.aliasName <;> rfl

theorem computes_joinTexts : Computes (joinTexts joins)
    ((joins.mapM TableRoot.checkJoined).map fun _ =>
      String.join (joins.map TableRoot.joinClause)) := by
  induction joins with
  | nil => exact Computes.pure _
  | cons r joins ih =>
    refine ((computes_joinText r).bind fun first _ => ih.bind fun others _ =>
      Computes.pure (first ++ others)).congr ?_
    rw [List.mapM_cons, List.map_cons, String.join_cons]
    cases r.checkJoined with
    | error e => rfl
    | ok u => cases joins.mapM TableRoot.checkJoined <;> rfl

theorem offsetClause_eq : q.offsetClause = q.offsetClause.map fun _ => q.offsetText := by
  unfold offsetClause offsetText
  cases q.offset? with
  | none => rfl
  | some count => dsimp only; split <;> rfl

theorem computes_render (sources? : Option Sources) :
    Computes (q.render sources?) (q.statement sources?) := by
  cases sources? with
  | none => exact Computes.fail _
  | some sources =>
    cases begins : sources.start? with
    | none =>
      simp only [render, statement, begins]
      exact Computes.fail _
    | some start =>
      simp only [render, statement, begins]
      refine (Computes.lift _).bind fun selected _ => ?_
      refine ((computes_tableText start).bind fun table _ =>
        (computes_joinTexts sources.joins).bind fun joined _ =>
        (Computes.lift _).bind fun skipped _ => (Computes.log _ _).bind fun _ _ =>
        Computes.pure _).congr ?_
      rw [offsetClause_eq]
      simp only [tail, String.append_assoc]
      cases start.aliasName with
      | error e => rfl
      | ok name => cases sources.joins.mapM TableRoot.checkJoined with
        | error e => rfl
        | ok u => cases q.offsetClause <;> rfl

end Query

end SqlSelect
