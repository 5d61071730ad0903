import Mathlib.Data.List.Forall2
import SqlSelect.Proofs.Literal.Pieces
import SqlSelect.Proofs.Resolver.Names

/-!
Columns and criteria as callers make them: columns through roots and builders, and criteria as
trees of calls with the values that were handed in. The predicate of a criterion holds the texts of
these values and nothing else that depends on them.
-/
namespace SqlSelect

theorem mapM_eq_ok_iff {α β : Type} {f : α → Except QueryError β} {xs : List α} {ys : List β} :
    xs.mapM f = .ok ys ↔ List.Forall₂ (fun x y => f x = .ok y) xs ys := by
  induction xs generalizing ys with
  | nil => simp [pure, Except.pure, eq_comm]
  | cons x xs ih =>
    rw [List.mapM_cons]
    constructor
    · intro h
      obtain ⟨y, first, h⟩ := except_bind_eq_ok.1 h
      obtain ⟨rest, others, h⟩ := except_bind_eq_ok.1 h
      exact Except.ok.inj h ▸ .cons first (ih.1 others)
    · rintro (_ | ⟨first, others⟩)
      rw [first, ih.2 others]
      rfl

theorem exists_mapM_eq_ok {α β : Type} {f : α → Except QueryError β} {xs : List α}
    (h : ∀ x ∈ xs, ∃ y, f x = .ok y) : ∃ ys, xs.mapM f = .ok ys := by
  induction xs with
  | nil => exact ⟨[], rfl⟩
  | cons x xs ih =>
    obtain ⟨⟨y, first⟩, each⟩ := List.forall_mem_cons.1 h
    obtain ⟨ys, others⟩ := ih each
    exact ⟨y :: ys, mapM_eq_ok_iff.2 (.cons first (mapM_eq_ok_iff.1 others))⟩

theorem exists_of_mem_right {α β : Type} {R : α → β → Prop} {xs : List α} {ys : List β}
    (h : List.Forall₂ R xs ys) {y : β} (mem : y ∈ ys) : ∃ x ∈ xs, R x y := by
  induction h with
  | nil => simp at mem
  | cons first _ ih =>
    rcases List.mem_cons.1 mem with rfl | mem
    · exact ⟨_, List.mem_cons_self, first⟩
    · obtain ⟨x, there, related⟩ := ih mem
      exact ⟨x, List.mem_cons_of_mem _ there, related⟩

namespace Expr

mutual

/-- All names are identifiers. -/
def Named : Expr → Prop
  | raw _ => True
  | column qualifier name => Identifier.isIdentifier qualifier.toList = true ∧
      Identifier.isIdentifier name.toList = true
  | all qualifier => Identifier.isIdentifier qualifier.toList = true
  | literal _ => True
  | lower argument => argument.Named
  | upper argument => argument.Named
  | count argument => argument.Named
  | formatDate _ argument _ => argument.Named
  | concat _ parts => AllNamed parts

def AllNamed : List Expr → Prop
  | [] => True
  | e :: es => e.Named ∧ AllNamed es

end

@[simp] theorem allNamed_iff {es : List Expr} : AllNamed es ↔ ∀ e ∈ es, e.Named := by
  induction es with
  | nil => simp [AllNamed]
  | cons e es ih => simp [AllNamed, ih]

end Expr

namespace Column

/-- Columns that roots and builders for one database give. -/
inductive Built (d : Database) : Column → Prop
  | column {r : TableRoot} {field : String} {name? : Option String} {names : Resolvers} {c : Column}
      (given : ((r.column field name?).run names).result = .ok c) : Built d c
  | all {r : TableRoot} {c : Column} (given : r.all = .ok c) : Built d c
  | count {r : TableRoot} {field : String} {name? : Option String} {names : Resolvers} {c : Column}
      (given : ((r.count field name?).run names).result = .ok c) : Built d c
  | formatDate {r : TableRoot} {field pattern : String} {name? : Option String}
      {names : Resolvers} {c : Column} (dialect : r.dialect.database = d)
      (given : ((r.formatDate field pattern name?).run names).result = .ok c) : Built d c
  | lower {c : Column} (argument : Built d c) : Built d c.lower
  | upper {c : Column} (argument : Built d c) : Built d c.upper
  | concat {parts : List Part} {c : Column}
      (arguments : ∀ part, .column part ∈ parts → Built d part)
      (given : Column.concat d parts = .ok c) : Built d c

theorem expr_ofExprAs {e : Expr} {name? : Option String} {c : Column}
    (h : ofExprAs e name? = .ok c) : c.expr = e := by
  cases name? with
  | none => exact Except.ok.inj h ▸ rfl
  | some name =>
    simp only [ofExprAs, named] at h
    cases valid : checkAlias name with
    | error e => simp [valid, Except.map] at h
    | ok u =>
      rw [valid] at h
      exact Except.ok.inj h ▸ rfl

theorem isIdentifier_ofExprAs {e : Expr} {name? : Option String} {c : Column}
    (h : ofExprAs e name? = .ok c) :
    ∀ name ∈ c.alias?, Identifier.isIdentifier name.toList = true := by
  cases name? with
  | none =>
    obtain rfl := Except.ok.inj h
    nofun
  | some name =>
    obtain ⟨_, valid, rfl⟩ := except_map_eq_ok.1 h
    rintro _ ⟨⟩
    exact checkAlias_eq_ok.1 valid

theorem columnExpr_ok {r : TableRoot} {field : String} {names : Resolvers} {e : Expr}
    (h : ((r.columnExpr field).run names).result = .ok e) :
    ∃ qualifier name, e = .column qualifier name := by
  obtain ⟨name, -, h⟩ := Action.run_bind_eq_ok h
  obtain ⟨qualifier, -, h⟩ := Action.run_bind_eq_ok h
  exact ⟨qualifier, name, (Except.ok.inj h).symm⟩

/-- A column that was built holds no text taken as it is, and all its literals are for the one
database. -/
theorem Built.regular {d : Database} {c : Column} (h : c.Built d) (named : c.expr.Named) :
    c.expr.Regular d := by
  induction h with
  | column given =>
    obtain ⟨e, there, given⟩ := Action.run_bind_eq_ok given
    obtain ⟨qualifier, name, rfl⟩ := columnExpr_ok there
    rw [Action.run_lift] at given
    rw [expr_ofExprAs given] at named ⊢
    exact named
  | all given =>
    obtain ⟨qualifier, -, rfl⟩ := except_map_eq_ok.1 given
    exact named
  | count given =>
    obtain ⟨e, there, given⟩ := Action.run_bind_eq_ok given
    obtain ⟨qualifier, name, rfl⟩ := columnExpr_ok there
    rw [Action.run_lift] at given
    rw [expr_ofExprAs given] at named ⊢
    exact named
  | formatDate dialect given =>
    obtain ⟨e, there, given⟩ := Action.run_bind_eq_ok given
    obtain ⟨qualifier, name, rfl⟩ := columnExpr_ok there
    rw [Action.run_lift] at given
    rw [expr_ofExprAs given] at named ⊢
    exact ⟨dialect, named⟩
  | lower _ ih | upper _ ih => exact ih named
  | @concat parts c _ given ih =>
    obtain ⟨es, there, rfl⟩ := except_map_eq_ok.1 given
    refine ⟨rfl, Expr.allRegular_iff.2 ?_⟩
    intro e mem
    have each := Expr.allNamed_iff.1 named e mem
    obtain ⟨part, partMem, partExpr⟩ := exists_of_mem_right (mapM_eq_ok_iff.1 there) mem
    cases part with
    | column part =>
      obtain rfl := Except.ok.inj partExpr
      exact ih part partMem each
    | text content =>
      obtain rfl := Except.ok.inj partExpr
      rfl
    | other => simp [Part.expr] at partExpr

end Column

/-- A condition as its caller asks for it, with the values handed in. -/
inductive Criterion where
  | compare (c : Column) (comparison : Comparison) (v : Value)
  | among (c : Column) (negated : Bool) (values : List Value)
  | like (c : Column) (negated : Bool) (mode : LikeMode) (v : Value)
  | between (c : Column) (low high : Value)
  | isNull (c : Column) (negated : Bool)
  | group (connective : Connective) (members : List Criterion)

namespace Criterion

/-- Induction with a hypothesis for every member of a group. -/
@[induction_eliminator]
theorem ind {motive : Criterion → Prop}
    (compare : ∀ c comparison v, motive (compare c comparison v))
    (among : ∀ c negated values, motive (among c negated values))
    (like : ∀ c negated mode v, motive (like c negated mode v))
    (between : ∀ c low high, motive (between c low high))
    (isNull : ∀ c negated, motive (isNull c negated))
    (group : ∀ connective members, (∀ c ∈ members, motive c) → motive (group connective members))
    (c : Criterion) : motive c :=
  @Criterion.rec motive (fun members => ∀ c ∈ members, motive c) compare among like between isNull
    group (by simp) (fun _ _ first others => List.forall_mem_cons.2 ⟨first, others⟩) c

mutual

/-- The calls of the builder, those for the members of a group first. -/
def make (d : Database) : Criterion → Except QueryError Predicate
  | compare c comparison v => Predicate.ofComparison d c comparison v
  | among c negated values => Predicate.ofValues d c negated values
  | like c negated mode v => Predicate.ofPattern d c negated mode v
  | between c low high => Predicate.ofRange d c low high
  | isNull c negated => .ok (Predicate.nullTest c negated)
  | group connective members => makeAll d members >>= Predicate.ofMembers connective

def makeAll (d : Database) : List Criterion → Except QueryError (List Predicate)
  | [] => .ok []
  | c :: cs => do return (← c.make d) :: (← makeAll d cs)

end

theorem makeAll_eq_mapM {d : Database} (cs : List Criterion) :
    makeAll d cs = cs.mapM (make d) := by
  induction cs with
  | nil => rfl
  | cons c cs ih => rw [makeAll, ih, List.mapM_cons]

mutual

def columns : Criterion → List Column
  | compare c _ _ => [c]
  | among c _ _ => [c]
  | like c _ _ _ => [c]
  | between c _ _ => [c]
  | isNull c _ => [c]
  | group _ members => allColumns members

def allColumns : List Criterion → List Column
  | [] => []
  | c :: cs => c.columns ++ allColumns cs

end

@[simp] theorem allColumns_eq_flatMap (cs : List Criterion) :
    allColumns cs = cs.flatMap columns := by
  induction cs with
  | nil => rfl
  | cons c cs ih => simp [allColumns, ih]

theorem columns_of_mem {connective : Connective} {members : List Criterion} {c : Criterion}
    (mem : c ∈ members) {column : Column} (inside : column ∈ c.columns) :
    column ∈ (group connective members).columns := by
  rw [columns, allColumns_eq_flatMap]
  exact List.mem_flatMap.2 ⟨c, mem, inside⟩

mutual

/-- The strings of the columns and the texts of the values, in order; a pattern is its value with
the wildcards of its mode. -/
def texts (d : Database) : Criterion → Except QueryError (List String)
  | compare c _ v => (d.valueText v).map fun text => c.expr.strings ++ [text]
  | among c _ values => (values.mapM d.valueText).map fun list => c.expr.strings ++ list
  | like c _ mode v => (d.valueText v).map fun text => c.expr.strings ++ [mode.pattern text]
  | between c low high => do return c.expr.strings ++ [← d.valueText low, ← d.valueText high]
  | isNull c _ => .ok c.expr.strings
  | group _ members => allTexts d members

def allTexts (d : Database) : List Criterion → Except QueryError (List String)
  | [] => .ok []
  | c :: cs => do return (← c.texts d) ++ (← allTexts d cs)

end

mutual

/-- The same calls without the values, and without the strings of the columns. -/
def blank : Criterion → Criterion
  | compare c comparison _ => compare c.blank comparison (.text "")
  | among c negated values => among c.blank negated (values.map fun _ => .text "")
  | like c negated mode _ => like c.blank negated mode (.text "")
  | between c _ _ => between c.blank (.text "") (.text "")
  | isNull c negated => isNull c.blank negated
  | group connective members => group connective (allBlank members)

def allBlank : List Criterion → List Criterion
  | [] => []
  | c :: cs => c.blank :: allBlank cs

end

@[simp] theorem allBlank_eq_map (cs : List Criterion) : allBlank cs = cs.map blank := by
  induction cs with
  | nil => rfl
  | cons c cs ih => simp [allBlank, ih]

variable {d : Database}

theorem ofValues_eq (values : List Value) : Literal.ofValues d values =
    (values.mapM d.valueText).map fun list => list.map (Literal.mk d) := by
  unfold Literal.ofValues
  induction values with
  | nil => rfl
  | cons v values ih =>
    rw [List.mapM_cons, List.mapM_cons, ih]
    unfold Literal.ofValue
    cases d.valueText v with
    | error e => rfl
    | ok text => cases values.mapM d.valueText <;> rfl

/-- What a criterion is made into, one case for each kind of call. -/
theorem make_ok {c : Criterion} {p : Predicate} (h : c.make d = .ok p) :
    match c with
    | compare c comparison v =>
      ∃ text, d.valueText v = .ok text ∧ p = .compare c.expr comparison ⟨d, text⟩
    | among c negated values => values ≠ [] ∧ ∃ list, values.mapM d.valueText = .ok list ∧
        p = .among c.expr negated (list.map (Literal.mk d))
    | like c negated mode v =>
      ∃ text, d.valueText v = .ok text ∧ p = .like c.expr negated ⟨d, mode.pattern text⟩
    | between c low high => ∃ first last, d.valueText low = .ok first ∧
        d.valueText high = .ok last ∧ p = .between c.expr ⟨d, first⟩ ⟨d, last⟩
    | isNull c negated => p = .isNull c.expr negated
    | group connective members => members ≠ [] ∧ ∃ ps,
        List.Forall₂ (fun c p => c.make d = .ok p) members ps ∧ p = .group connective ps := by
  cases c with
  | compare c comparison v =>
    obtain ⟨l, given, rfl⟩ := except_map_eq_ok.1 h
    obtain ⟨text, there, rfl⟩ := except_map_eq_ok.1 given
    exact ⟨text, there, rfl⟩
  | among c negated values =>
    simp only [make, Predicate.ofValues] at h
    split at h
    · simp at h
    · next some =>
      obtain ⟨literals, given, rfl⟩ := except_map_eq_ok.1 h
      rw [ofValues_eq] at given
      obtain ⟨list, there, rfl⟩ := except_map_eq_ok.1 given
      exact ⟨some, list, there, rfl⟩
  | like c negated mode v =>
    obtain ⟨l, given, rfl⟩ := except_map_eq_ok.1 h
    obtain ⟨text, there, rfl⟩ := except_map_eq_ok.1 given
    exact ⟨text, there, rfl⟩
  | between c low high =>
    obtain ⟨l, lower, h⟩ := except_bind_eq_ok.1 h
    obtain ⟨k, upper, h⟩ := except_bind_eq_ok.1 h
    obtain ⟨first, there, rfl⟩ := except_map_eq_ok.1 lower
    obtain ⟨last, behind, rfl⟩ := except_map_eq_ok.1 upper
    exact ⟨first, last, there, behind, (Except.ok.inj h).symm⟩
  | isNull c negated => exact (Except.ok.inj h).symm
  | group connective members =>
    obtain ⟨ps, made, h⟩ := except_bind_eq_ok.1 h
    cases ps with
    | nil => simp [Predicate.ofMembers] at h
    | cons first others =>
      rw [makeAll_eq_mapM] at made
      have made := mapM_eq_ok_iff.1 made
      refine ⟨?_, _, made, (Except.ok.inj h).symm⟩
      rintro rfl
      nomatch made

theorem regular_of_make {c : Criterion} {p : Predicate} (h : c.make d = .ok p)
    (regular : ∀ column ∈ c.columns, column.expr.Regular d) : p.Regular d := by
  induction c generalizing p with
  | compare c comparison v =>
    obtain ⟨text, -, rfl⟩ := make_ok h
    exact ⟨regular c List.mem_cons_self, rfl⟩
  | among c negated values =>
    obtain ⟨-, list, -, rfl⟩ := make_ok h
    exact ⟨regular c List.mem_cons_self, by simp⟩
  | like c negated mode v =>
    obtain ⟨text, -, rfl⟩ := make_ok h
    exact ⟨regular c List.mem_cons_self, rfl⟩
  | between c low high =>
    obtain ⟨first, last, -, -, rfl⟩ := make_ok h
    exact ⟨regular c List.mem_cons_self, rfl, rfl⟩
  | isNull c negated =>
    have same : p = .isNull c.expr negated := make_ok h
    exact same ▸ regular c List.mem_cons_self
  | group connective members ih =>
    obtain ⟨-, ps, made, rfl⟩ := make_ok h
    apply Predicate.allRegular_iff.2
    intro p mem
    obtain ⟨c, there, madeOf⟩ := exists_of_mem_right made mem
    apply ih c there madeOf
    intro column inside
    exact regular column (columns_of_mem there inside)

/-- The predicate holds the texts of the values and the strings of the columns, and no others. -/
theorem texts_of_make {c : Criterion} {p : Predicate} (h : c.make d = .ok p) :
    c.texts d = .ok p.strings := by
  induction c generalizing p with
  | compare c comparison v =>
    obtain ⟨text, given, rfl⟩ := make_ok h
    simp [texts, given, Except.map, Predicate.strings]
  | among c negated values =>
    obtain ⟨-, list, given, rfl⟩ := make_ok h
    simp [texts, given, Except.map, Predicate.strings, Function.comp_def]
  | like c negated mode v =>
    obtain ⟨text, given, rfl⟩ := make_ok h
    simp [texts, given, Except.map, Predicate.strings]
  | between c low high =>
    obtain ⟨first, last, lower, upper, rfl⟩ := make_ok h
    simp [texts, lower, upper, Predicate.strings, bind, Except.bind, pure, Except.pure]
  | isNull c negated =>
    have same : p = .isNull c.expr negated := make_ok h
    rw [same]
    rfl
  | group connective members ih =>
    obtain ⟨-, ps, made, rfl⟩ := make_ok h
    simp only [texts, Predicate.strings, Predicate.allStrings_eq_flatMap]
    clear h
    induction made with
    | nil => rfl
    | cons first _ others =>
      obtain ⟨ihFirst, ihOthers⟩ := List.forall_mem_cons.1 ih
      simp [allTexts, ihFirst first, others ihOthers, bind, Except.bind, pure, Except.pure]

/-- Without its values a criterion is made into the same predicate without its strings, but for
the wildcards of patterns. -/
theorem make_blank {c : Criterion} {p : Predicate} (h : c.make d = .ok p) :
    ∃ p₀, c.blank.make d = .ok p₀ ∧ p₀.blank = p.blank := by
  induction c generalizing p with
  | compare c comparison v =>
    obtain ⟨text, -, rfl⟩ := make_ok h
    exact ⟨_, rfl, by simp [Predicate.blank, Column.blank, Literal.blank]⟩
  | among c negated values =>
    obtain ⟨some, list, given, rfl⟩ := make_ok h
    have same := (mapM_eq_ok_iff.1 given).length_eq
    have texts (n : Nat) : (List.replicate n (Value.text "")).mapM d.valueText =
        .ok (List.replicate n "") := by
      induction n with
      | zero => rfl
      | succ n ih =>
        rw [List.replicate_succ, List.mapM_cons, ih]
        rfl
    refine ⟨.among c.expr.blank negated (List.replicate values.length ⟨d, ""⟩), ?_, ?_⟩
    · simp [blank, make, Predicate.ofValues, some, ofValues_eq, texts, Except.map, Column.blank]
    · simp [Predicate.blank, Literal.blank, Function.comp_def, same]
  | like c negated mode v =>
    obtain ⟨text, -, rfl⟩ := make_ok h
    exact ⟨_, rfl, by simp [Predicate.blank, Column.blank, Literal.blank]⟩
  | between c low high =>
    obtain ⟨first, last, -, -, rfl⟩ := make_ok h
    exact ⟨_, rfl, by simp [Predicate.blank, Column.blank, Literal.blank]⟩
  | isNull c negated =>
    have same : p = .isNull c.expr negated := make_ok h
    exact ⟨_, rfl, by simp [same, Predicate.blank, Column.blank, Predicate.nullTest]⟩
  | group connective members ih =>
    obtain ⟨some, ps, made, rfl⟩ := make_ok h
    have list : ∃ ps₀, makeAll d (members.map blank) = .ok ps₀ ∧
        ps₀.map Predicate.blank = ps.map Predicate.blank := by
      clear h some
      induction made with
      | nil => exact ⟨[], rfl, rfl⟩
      | cons first _ others =>
        obtain ⟨ihFirst, ihOthers⟩ := List.forall_mem_cons.1 ih
        obtain ⟨p₀, there, same⟩ := ihFirst first
        obtain ⟨ps₀, behind, rest⟩ := others ihOthers
        refine ⟨p₀ :: ps₀, ?_, by simp [same, rest]⟩
        simp [makeAll, there, behind, bind, Except.bind, pure, Except.pure]
    obtain ⟨ps₀, there, same⟩ := list
    have nonempty : ps₀ ≠ [] := by
      rintro rfl
      have none : ps = [] := by simpa using same
      exact some (List.length_eq_zero_iff.1 (made.length_eq.trans (by simp [none])))
    refine ⟨.group connective ps₀, ?_, by simp [Predicate.blank, same]⟩
    simp [blank, make, there, Predicate.ofMembers, bind, Except.bind]

end Criterion

end SqlSelect
