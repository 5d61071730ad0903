import SqlSelect.Proofs.Builder.Steps
import SqlSelect.Proofs.Query.Criteria
import SqlSelect.Proofs.Query.Pieces

/-!
Conditions, roots, builders and queries that know of no database but the default one. Apart from
dates, formats and concatenations, what is made for another database differs from what is made for
the default one in nothing but the database of its literals, so its neutral form is the same; and
the pieces of a text are those of its neutral form.
-/
namespace SqlSelect

def Dialect.neutral : Dialect := ⟨Builder.defaultDatabase, 0⟩

def Literal.neutral (l : Literal) : Literal := { l with database := Builder.defaultDatabase }

namespace Predicate

mutual

def neutral : Predicate → Predicate
  | raw text => raw text
  | compare left comparison right => compare left comparison right.neutral
  | among left negated values => among left negated (values.map Literal.neutral)
  | like left negated pattern => like left negated pattern.neutral
  | between left low high => between left low.neutral high.neutral
  | isNull left negated => isNull left negated
  | group connective members => group connective (allNeutral members)

def allNeutral : List Predicate → List Predicate
  | [] => []
  | p :: ps => p.neutral :: allNeutral ps

end

@[simp] theorem allNeutral_eq_map (ps : List Predicate) : allNeutral ps = ps.map neutral := by
  induction ps with
  | nil => rfl
  | cons p ps ih => simp [allNeutral, ih]

/-- Pieces do not tell for which database they are written. -/
@[simp] theorem pieces_neutral (p : Predicate) : p.neutral.pieces = p.pieces := by
  induction p with
  | raw | compare | like | between | isNull => rfl
  | among left negated values =>
    have same : (values.map Literal.neutral).map Literal.pieces = values.map Literal.pieces :=
      List.map_map
    simp only [neutral, pieces, same]
  | group connective members ih =>
    have same : (members.map neutral).map pieces = members.map pieces := by
      rw [List.map_map]
      exact List.map_congr_left ih
    simp only [neutral, pieces, allNeutral_eq_map, allPieces_eq_map, same]

theorem isBlank_text (p : Predicate) (made : ∀ text, p ≠ raw text) :
    Text.isBlank p.text = false := by
  have quoted (l : Literal) : quoteMark ∈ l.text.toList := by
    simp [Literal.text, Database.quote, Database.quoteChars]
  cases p with
  | raw text => exact absurd rfl (made text)
  | compare | like | between =>
    exact Text.isBlank_of_mem (c := quoteMark) (by simp [text, quoted]) (by decide)
  | among | group => exact Text.isBlank_of_mem (c := ')') (by simp [text]) (by decide)
  | isNull left negated =>
    cases negated <;> exact Text.isBlank_of_mem (c := 'N') (by simp [text]) (by decide)

theorem isBlank_text_neutral (p : Predicate) :
    Text.isBlank p.neutral.text = Text.isBlank p.text := by
  cases p with
  | raw => rfl
  | _ =>
    rw [isBlank_text _ (by simp [neutral]), isBlank_text _ (by simp)]

theorem ofMembers_neutral (connective : Connective) (members : List Predicate) :
    ofMembers connective (members.map neutral) = (ofMembers connective members).map neutral := by
  cases members with
  | nil => rfl
  | cons p members => simp [ofMembers, neutral, allNeutral, Except.map]

end Predicate

/-- Values that all databases write alike. -/
def Value.Dateless (v : Value) : Prop := ∀ instant?, v ≠ .date instant?

theorem Value.Dateless.valueText_eq {v : Value} (h : v.Dateless) (d : Database) :
    d.valueText v = Builder.defaultDatabase.valueText v := by
  cases v with
  | date instant? => exact absurd rfl (h instant?)
  | _ => rfl

/-- A single test, without dates. -/
def Criterion.Dateless : Criterion → Prop
  | compare _ _ v | like _ _ _ v => v.Dateless
  | among _ _ values => ∀ v ∈ values, v.Dateless
  | between _ low high => low.Dateless ∧ high.Dateless
  | isNull _ _ => True
  | group _ _ => False

namespace Criterion

theorem mapM_valueText_eq {values : List Value} (h : ∀ v ∈ values, v.Dateless) (d : Database) :
    values.mapM d.valueText = values.mapM Builder.defaultDatabase.valueText := by
  induction values with
  | nil => rfl
  | cons v values ih =>
    obtain ⟨first, others⟩ := List.forall_mem_cons.1 h
    rw [List.mapM_cons, List.mapM_cons, first.valueText_eq d, ih others]

/-- A test is made for every database from the same contents. -/
theorem make_neutral {c : Criterion} (h : c.Dateless) (d : Database) :
    (c.make d).map Predicate.neutral = c.make Builder.defaultDatabase := by
  cases c with
  | compare c comparison v =>
    simp only [make, Predicate.ofComparison, Literal.ofValue, Value.Dateless.valueText_eq h d]
    cases Builder.defaultDatabase.valueText v <;> rfl
  | like c negated mode v =>
    simp only [make, Predicate.ofPattern, Literal.ofPattern, Value.Dateless.valueText_eq h d]
    cases Builder.defaultDatabase.valueText v <;> rfl
  | among c negated values =>
    simp only [make, Predicate.ofValues, ofValues_eq, mapM_valueText_eq h d]
    split
    · rfl
    · cases values.mapM Builder.defaultDatabase.valueText with
      | error e => rfl
      | ok texts =>
        exact congrArg (fun list => Except.ok (Predicate.among c.expr negated list)) List.map_map
  | between c low high =>
    simp only [make, Predicate.ofRange, Literal.ofValue, h.1.valueText_eq d, h.2.valueText_eq d]
    cases Builder.defaultDatabase.valueText low with
    | error e => rfl
    | ok first => cases Builder.defaultDatabase.valueText high <;> rfl
  | isNull => rfl
  | group => exact h.elim

end Criterion

def Join.neutral (join : Join) : Join :=
  { join with condition? := join.condition?.map Predicate.neutral }

theorem conditionPieces_neutral (word : String) (condition? : Option Predicate) :
    conditionPieces word (condition?.map Predicate.neutral) = conditionPieces word condition? := by
  cases condition? with
  | none => rfl
  | some p => simp [conditionPieces]

namespace TableRoot

variable (r : TableRoot)

def neutral : TableRoot :=
  { r with dialect := Dialect.neutral, join? := r.join?.map Join.neutral }

@[simp] theorem neutral_alias? : r.neutral.alias? = r.alias? := rfl

@[simp] theorem neutral_join? : r.neutral.join? = r.join?.map Join.neutral := rfl

@[simp] theorem aliasName_neutral : r.neutral.aliasName = r.aliasName := rfl

theorem withAlias_neutral (name : String) :
    r.neutral.withAlias name = (r.withAlias name).map neutral := by
  unfold withAlias
  rw [neutral_alias?]
  cases r.alias? with
  | some given => rfl
  | none => cases checkAlias name <;> rfl

theorem withJoin_neutral (type : JoinType) (source target : Column) :
    r.neutral.withJoin type source target = (r.withJoin type source target).map neutral := by
  unfold withJoin
  rw [neutral_join?, aliasName_neutral]
  cases r.join? with
  | none => rfl
  | some join => cases r.aliasName <;> rfl

theorem withCondition_neutral (p : Predicate) :
    r.neutral.withCondition p.neutral = (r.withCondition p).map neutral := by
  unfold withCondition
  rw [neutral_join?]
  cases r.join? with
  | none => rfl
  | some join =>
    simp only [Option.map_some, Join.neutral]
    split <;> rfl

theorem joinPieces_neutral : r.neutral.joinPieces = r.joinPieces := by
  unfold joinPieces
  rw [neutral_join?]
  cases r.join? with
  | none => rfl
  | some join =>
    simp only [Option.map_some, Join.neutral, conditionPieces_neutral]
    rfl

end TableRoot

namespace Builder

variable (b : Builder)

def neutral : Builder :=
  { b with
    dialect := Dialect.neutral
    start? := b.start?.map TableRoot.neutral
    joins := b.joins.map TableRoot.neutral }

@[simp] theorem isSome_start?_neutral : b.neutral.start?.isSome = b.start?.isSome :=
  Option.isSome_map

@[simp] theorem isNone_start?_neutral : b.neutral.start?.isNone = b.start?.isNone :=
  Option.isNone_map

theorem newRoot_neutral (e : Entity) : b.neutral.newRoot e = (b.newRoot e).neutral := rfl

theorem recasts_neutral : Recasts TableRoot.neutral neutral :=
  ⟨fun _ _ => rfl, fun _ _ => rfl, fun _ => rfl, fun _ => rfl, fun _ => rfl⟩

theorem taken_neutral : b.neutral.taken = b.taken := recasts_neutral.taken_eq b

/-- Every database can run all joins but one. -/
theorem joinType_name {type : JoinType} (portable : type ≠ .full) :
    b.joinType type.name = .ok type := by
  rw [joinType_eq_ok, Database.join?, JoinType.ofName?_name]
  cases type with
  | full => exact absurd rfl portable
  | inner | left | right | cross => cases b.database <;> rfl

theorem make_neutral (dialect : Dialect) (resolver : Handle .resolver) (logs : Bool)
    (startAlias joinAlias : String) (listed? : Option (List RootRef)) :
    make Dialect.neutral resolver logs startAlias joinAlias listed? =
      (make dialect resolver logs startAlias joinAlias listed?).map neutral := by
  unfold make
  cases checkAlias startAlias with
  | error e => rfl
  | ok u => cases checkAlias joinAlias <;> rfl

end Builder

namespace Query

variable (q : Query)

def neutral : Query := { q with condition? := q.condition?.map Predicate.neutral }

theorem withCondition_neutral (p : Predicate) :
    q.neutral.withCondition p.neutral = (q.withCondition p).map neutral := by
  unfold withCondition
  rw [p.isBlank_text_neutral]
  split <;> rfl

theorem selectClause_neutral : q.neutral.selectClause = q.selectClause := rfl

theorem tailPieces_neutral (start : TableRoot) (joins : List TableRoot) :
    q.neutral.tailPieces start.neutral (joins.map TableRoot.neutral) =
      q.tailPieces start joins := by
  have joined : (joins.map TableRoot.neutral).flatMap TableRoot.joinPieces =
      joins.flatMap TableRoot.joinPieces := by
    rw [List.flatMap_map]
    exact congrArg (List.flatMap · joins) (funext TableRoot.joinPieces_neutral)
  have condition := conditionPieces_neutral " WHERE " q.condition?
  simp only [tailPieces, joined, neutral, condition]
  rfl

end Query

def Sources.neutral (sources : Sources) : Sources :=
  { sources with
    start? := sources.start?.map TableRoot.neutral
    joins := sources.joins.map TableRoot.neutral }

end SqlSelect
