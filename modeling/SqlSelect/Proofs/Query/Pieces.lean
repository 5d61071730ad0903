import SqlSelect.Proofs.Literal.Pieces
import SqlSelect.Proofs.Query.Render

/-!
The pieces of a statement behind the selected columns. No literal touches another one, neither
within a clause nor where two clauses meet.
-/
namespace SqlSelect

theorem quoteMark_not_mem_of_isQualified {name : List Char}
    (h : Identifier.isQualified name = true) : quoteMark ∉ name := fun mem => by
  rcases Identifier.isPart_or_dot_of_mem h mem with part | dot
  · exact absurd part (by decide)
  · exact absurd dot (by decide)

/-! Numbers are written without quotes. -/

private theorem quoteMark_not_mem_digits (n : Nat) : quoteMark ∉ Nat.toDigits 10 n := fun mem =>
  absurd (Nat.isDigit_of_mem_toDigits (by decide) (by decide) mem) (by decide)

private theorem quoteMark_not_mem_styled {digits : List Char} (h : quoteMark ∉ digits)
    (style : NumeralStyle) (place : Int) : quoteMark ∉ style.layOut digits place := by
  have zeros (n : Nat) : quoteMark ∉ List.replicate n '0' := fun mem =>
    absurd (List.eq_of_mem_replicate mem) (by decide)
  have dot : quoteMark ≠ '.' := by decide
  have zero : quoteMark ≠ '0' := by decide
  have signs (negative : Prop) [Decidable negative] :
      quoteMark ≠ if negative then '-' else '+' := by split <;> decide
  unfold NumeralStyle.layOut
  split
  · split
    · simp [h, zeros]
    · split
      · have before : quoteMark ∉ digits.take place.toNat := fun mem => h (List.mem_of_mem_take mem)
        have behind : quoteMark ∉ digits.drop place.toNat := fun mem => h (List.mem_of_mem_drop mem)
        simp [before, behind, dot]
      · simp [h, zeros, zero, dot]
  · have exponent : quoteMark ≠ 'e' := by decide
    simp only [List.mem_append, List.mem_cons, not_or]
    refine ⟨?_, exponent, signs _, quoteMark_not_mem_digits _⟩
    split
    · simpa [dot] using h
    · exact h

theorem quoteMark_not_mem_layOut (d : Decimal) : quoteMark ∉ d.layOut := by
  unfold Decimal.layOut
  split
  · decide
  · apply quoteMark_not_mem_styled
    intro mem
    unfold dropTrailingZeros at mem
    have kept := (List.dropWhile_sublist _).subset (List.mem_reverse.1 mem)
    exact quoteMark_not_mem_digits _ (List.mem_reverse.1 kept)

theorem quoteMark_not_mem_number (x : Double) : quoteMark ∉ x.text.toList := by
  cases x with
  | nan => decide
  | infinite negative => cases negative <;> decide
  | finite negative m =>
    have digits := quoteMark_not_mem_layOut m.shortest
    simp only [Double.text, String.toList_ofList, List.mem_append, not_or]
    refine ⟨?_, digits⟩
    split <;> decide

theorem Text.isBlank_intercalate {first : String} (h : Text.isBlank first = false)
    (separator : String) (others : List String) :
    Text.isBlank (separator.intercalate (first :: others)) = false := by
  cases others with
  | nil => simpa using h
  | cons second others => simp [String.intercalate_cons_cons, Text.isBlank_append, h]

/-- A condition behind the word that opens it, if there is one. -/
def conditionPieces (word : String) (condition? : Option Predicate) : List Piece :=
  match condition? with
  | none => []
  | some p => words word ++ p.pieces

def OrderTerm.pieces (term : OrderTerm) : List Piece :=
  words " " ++ (term.column.expr.pieces ++ words (" " ++ term.direction.keyword))

namespace TableRoot

def joinPieces (r : TableRoot) : List Piece :=
  match r.join? with
  | none => []
  | some join =>
    let opening := words (" " ++ join.type.keyword ++ " " ++ r.tableClause ++ " ")
    if join.type = .cross then opening
    else opening ++ (words "ON " ++ (join.source.expr.pieces ++ (words " = " ++
      (join.target.expr.pieces ++ (conditionPieces " AND " join.condition? ++ words " ")))))

end TableRoot

namespace Query

def groupPieces (q : Query) : List Piece :=
  match q.grouping with
  | [] => []
  | columns => words " GROUP BY " ++ (words ", ").intercalate (columns.map (·.expr.pieces))

def orderPieces (q : Query) : List Piece :=
  match q.order with
  | [] => []
  | terms => words " ORDER BY " ++ (words ",").intercalate (terms.map OrderTerm.pieces)

def tailPieces (q : Query) (start : TableRoot) (joins : List TableRoot) : List Piece :=
  words start.tableClause ++ (joins.flatMap TableRoot.joinPieces ++
    (conditionPieces " WHERE " q.condition? ++ (q.groupPieces ++ (q.orderPieces ++
      words (q.limitClause ++ q.offsetText)))))

end Query

/-! Statements whose names are all of the right shape, and that hold no text taken as it is. -/

structure Join.Regular (d : Database) (join : Join) : Prop where
  source : join.source.expr.Regular d
  target : join.target.expr.Regular d
  condition : ∀ p ∈ join.condition?, p.Regular d

structure TableRoot.Shaped (r : TableRoot) : Prop where
  table : Identifier.isQualified r.entity.tableName.toList = true
  named : ∀ name ∈ r.alias?, Identifier.isIdentifier name.toList = true

structure TableRoot.Regular (d : Database) (r : TableRoot) : Prop extends r.Shaped where
  wired : ∀ join ∈ r.join?, join.Regular d

structure Query.Regular (d : Database) (q : Query) : Prop where
  condition : ∀ p ∈ q.condition?, p.Regular d
  grouping : ∀ c ∈ q.grouping, c.expr.Regular d
  order : ∀ term ∈ q.order, term.column.expr.Regular d

section Writing

variable {d : Database}

theorem write_conditionPieces {condition? : Option Predicate}
    (h : ∀ p ∈ condition?, p.Regular d) (word : String) :
    d.write (conditionPieces word condition?) =
      ((condition?.map fun p => word ++ p.text).getD "").toList := by
  cases condition? with
  | none => rfl
  | some p => simp [conditionPieces, p.write_pieces (h p rfl)]

theorem follows_conditionPieces {condition? : Option Predicate}
    (h : ∀ p ∈ condition?, p.Regular d) (word : String) (opens : Fence word) :
    Follows (conditionPieces word condition?) := by
  cases condition? with
  | none => exact follows_nil
  | some p => exact opens.follows (p.separated_pieces (h p rfl))

namespace TableRoot

variable {r : TableRoot}

theorem quoteMark_not_mem_tableClause (h : r.Shaped) : quoteMark ∉ r.tableClause.toList := by
  have blank : quoteMark ≠ ' ' := by decide
  cases named : r.alias? with
  | none => simp [tableClause, named, quoteMark_not_mem_of_isQualified h.table, blank]
  | some name =>
    simp [tableClause, named, quoteMark_not_mem_of_isQualified h.table, blank,
      quoteMark_not_mem_of_isIdentifier (h.named name named)]

theorem write_joinPieces (h : r.Regular d) : d.write r.joinPieces = r.joinClause.toList := by
  unfold joinPieces joinClause
  cases wired : r.join? with
  | none => rfl
  | some join =>
    have regular := h.wired join wired
    dsimp only
    split
    · simp
    · simp [Column.text, Expr.write_pieces regular.source, Expr.write_pieces regular.target,
        write_conditionPieces regular.condition]

theorem follows_joinPieces (h : r.Regular d) : Follows r.joinPieces := by
  unfold joinPieces
  cases wired : r.join? with
  | none => exact follows_nil
  | some join =>
    have regular := h.wired join wired
    have opening : Follows (words (" " ++ join.type.keyword ++ " " ++ r.tableClause ++ " ")) := by
      have keyword : quoteMark ∉ join.type.keyword.toList := by cases join.type <;> decide
      have blank : quoteMark ≠ ' ' := by decide
      exact follows_words _ (by simp [keyword, blank, quoteMark_not_mem_tableClause h.toShaped])
    dsimp only
    split
    · exact opening
    · have condition := follows_conditionPieces regular.condition " AND " (by decide)
      have target := (Expr.separated_pieces regular.target).append
        (condition.append (follows_words " " (by decide)))
      exact opening.append (Fence.follows (by decide)
        ((Expr.separated_pieces regular.source).fence target (by decide)))

end TableRoot

theorem OrderTerm.write_pieces {term : OrderTerm} (h : term.column.expr.Regular d) :
    d.write term.pieces = term.text.toList := by
  simp [OrderTerm.pieces, OrderTerm.text, Column.text, Expr.write_pieces h]

theorem OrderTerm.separated_pieces {term : OrderTerm} (h : term.column.expr.Regular d) :
    Separated term.pieces := by
  have behind : Fence (" " ++ term.direction.keyword) := by cases term.direction <;> decide
  exact Separated.words_append (by decide) ((Expr.separated_pieces h).close behind)

namespace Query

variable {q : Query}

theorem write_groupPieces (h : q.Regular d) : d.write q.groupPieces = q.groupClause.toList := by
  unfold groupPieces groupClause Column.listText
  have texts := write_list ", " fun c mem => Expr.write_pieces (h.grouping c mem)
  cases columns : q.grouping with
  | nil => rfl
  | cons c others =>
    have shown := Expr.isBlank_text (h.grouping c (by simp [columns]))
    rw [columns] at texts
    simp only [write_append, write_words]
    rw [texts]
    simp [Text.isBlank_intercalate, Column.text, shown, Function.comp_def]

theorem follows_groupPieces (h : q.Regular d) : Follows q.groupPieces := by
  have list := Separated.list (fun c mem => Expr.separated_pieces (h.grouping c mem))
    ", " (by decide)
  unfold groupPieces
  cases columns : q.grouping with
  | nil => exact follows_nil
  | cons c others => exact Fence.follows (by decide) (columns ▸ list)

theorem write_orderPieces (h : q.Regular d) : d.write q.orderPieces = q.orderClause.toList := by
  unfold orderPieces orderClause
  have texts := write_list "," fun term mem => OrderTerm.write_pieces (h.order term mem)
  cases terms : q.order with
  | nil => rfl
  | cons term others =>
    have shown : Text.isBlank term.text = false := by
      have := Expr.isBlank_text (h.order term (by simp [terms]))
      simp [OrderTerm.text, Text.isBlank_append, Column.text, this]
    rw [terms] at texts
    simp only [write_append, write_words]
    rw [texts]
    simp [Text.isBlank_intercalate, shown]

theorem follows_orderPieces (h : q.Regular d) : Follows q.orderPieces := by
  have list := Separated.list (fun term mem => OrderTerm.separated_pieces (h.order term mem))
    "," (by decide)
  unfold orderPieces
  cases terms : q.order with
  | nil => exact follows_nil
  | cons term others => exact Fence.follows (by decide) (terms ▸ list)

theorem quoteMark_not_mem_counts (q : Query) :
    quoteMark ∉ (q.limitClause ++ q.offsetText).toList := by
  have limit : quoteMark ∉ q.limitClause.toList := by
    unfold limitClause
    split
    · have word : quoteMark ∉ " LIMIT ".toList := by decide
      simp only [String.toList_append, List.mem_append, not_or]
      exact ⟨word, quoteMark_not_mem_number _⟩
    · decide
  have offset : quoteMark ∉ q.offsetText.toList := by
    unfold offsetText
    cases q.offset? with
    | none => decide
    | some count =>
      have word : quoteMark ∉ " OFFSET ".toList := by decide
      simp only [Option.map_some, Option.getD_some, String.toList_append, List.mem_append, not_or]
      exact ⟨word, quoteMark_not_mem_number _⟩
  simp only [String.toList_append, List.mem_append, not_or]
  exact ⟨limit, offset⟩

variable {start : TableRoot} {joins : List TableRoot}

theorem write_tailPieces (h : q.Regular d) (wired : ∀ r ∈ joins, r.Regular d) :
    d.write (q.tailPieces start joins) = (q.tail start joins).toList := by
  have joined : d.write (joins.flatMap TableRoot.joinPieces) =
      (String.join (joins.map TableRoot.joinClause)).toList := by
    induction joins with
    | nil => rfl
    | cons r joins ih =>
      obtain ⟨first, others⟩ := List.forall_mem_cons.1 wired
      simp [TableRoot.write_joinPieces first, ih others]
  simp only [tailPieces, write_append, write_words, joined, write_conditionPieces h.condition,
    write_groupPieces h, write_orderPieces h]
  simp [tail, whereClause]

theorem separated_tailPieces (h : q.Regular d) (begins : start.Shaped)
    (wired : ∀ r ∈ joins, r.Regular d) : Separated (q.tailPieces start joins) := by
  have joined : Follows (joins.flatMap TableRoot.joinPieces) := by
    induction joins with
    | nil => exact follows_nil
    | cons r joins ih =>
      obtain ⟨first, others⟩ := List.forall_mem_cons.1 wired
      exact (TableRoot.follows_joinPieces first).append (ih others)
  have condition := follows_conditionPieces h.condition " WHERE " (by decide)
  have counts := follows_words _ q.quoteMark_not_mem_counts
  have lists := (follows_groupPieces h).append ((follows_orderPieces h).append counts)
  exact (joined.append (condition.append lists)).separated.words_append
    (TableRoot.quoteMark_not_mem_tableClause begins)

end Query

end Writing

/-! Statements without their strings, and the strings in the order of the text. -/

def OrderTerm.blank (term : OrderTerm) : OrderTerm := { term with column := term.column.blank }

def Join.blank (join : Join) : Join where
  type := join.type
  source := join.source.blank
  target := join.target.blank
  condition? := join.condition?.map Predicate.blank

/-- A join without a condition on rows prints none of its strings. -/
def Join.strings (join : Join) : List String :=
  if join.type = .cross then []
  else join.source.expr.strings ++ join.target.expr.strings ++
    (join.condition?.map Predicate.strings).getD []

theorem conditionPieces_blank (word : String) (condition? : Option Predicate) :
    conditionPieces word (condition?.map Predicate.blank) =
      (conditionPieces word condition?).map Piece.blank := by
  cases condition? with
  | none => rfl
  | some p => simp [conditionPieces, p.pieces_blank]

theorem contents_conditionPieces (word : String) (condition? : Option Predicate) :
    (conditionPieces word condition?).filterMap Piece.content? =
      ((condition?.map Predicate.strings).getD []).map String.toList := by
  cases condition? with
  | none => rfl
  | some p => simp [conditionPieces, p.contents_pieces]

namespace TableRoot

def blank (r : TableRoot) : TableRoot := { r with join? := r.join?.map Join.blank }

def joinStrings (r : TableRoot) : List String := (r.join?.map Join.strings).getD []

theorem joinPieces_blank (r : TableRoot) : r.blank.joinPieces = r.joinPieces.map Piece.blank := by
  unfold joinPieces blank
  cases r.join? with
  | none => rfl
  | some join =>
    simp only [Option.map_some, Join.blank, Column.blank]
    split
    · exact (blank_words _).symm
    · simp [Expr.pieces_blank, conditionPieces_blank, tableClause]

theorem contents_joinPieces (r : TableRoot) :
    r.joinPieces.filterMap Piece.content? = r.joinStrings.map String.toList := by
  unfold joinPieces joinStrings
  cases r.join? with
  | none => rfl
  | some join =>
    simp only [Option.map_some, Option.getD_some, Join.strings]
    split
    · exact contents_words _
    · simp [Expr.contents_pieces, contents_conditionPieces]

end TableRoot

namespace Query

variable (q : Query) (start : TableRoot) (joins : List TableRoot)

def blank : Query :=
  { q with
    condition? := q.condition?.map Predicate.blank
    grouping := q.grouping.map Column.blank
    order := q.order.map OrderTerm.blank }

def tailStrings : List String :=
  joins.flatMap TableRoot.joinStrings ++ ((q.condition?.map Predicate.strings).getD [] ++
    (q.grouping.flatMap (·.expr.strings) ++ q.order.flatMap (·.column.expr.strings)))

theorem groupPieces_blank : q.blank.groupPieces = q.groupPieces.map Piece.blank := by
  have item (c : Column) : c.blank.expr.pieces = c.expr.pieces.map Piece.blank :=
    c.expr.pieces_blank
  have list := @blank_list _ q.grouping (·.expr.pieces) ", " Column.blank fun c _ => item c
  unfold groupPieces
  cases columns : q.grouping with
  | nil => simp [blank, columns]
  | cons c others =>
    rw [columns] at list
    simp [blank, columns] at list ⊢
    exact list

theorem orderPieces_blank : q.blank.orderPieces = q.orderPieces.map Piece.blank := by
  have item (term : OrderTerm) : term.blank.pieces = term.pieces.map Piece.blank := by
    simp [OrderTerm.pieces, OrderTerm.blank, Column.blank, Expr.pieces_blank]
  have list := blank_list "," fun (term : OrderTerm) (_ : term ∈ q.order) => item term
  unfold orderPieces
  cases terms : q.order with
  | nil => simp [blank, terms]
  | cons t others =>
    rw [terms] at list
    simp [blank, terms] at list ⊢
    exact list

theorem tailPieces_blank :
    q.blank.tailPieces start (joins.map TableRoot.blank) =
      (q.tailPieces start joins).map Piece.blank := by
  have joined : (joins.map TableRoot.blank).flatMap TableRoot.joinPieces =
      (joins.flatMap TableRoot.joinPieces).map Piece.blank := by
    rw [List.flatMap_map, List.map_flatMap]
    exact congrArg (List.flatMap · joins) (funext TableRoot.joinPieces_blank)
  have counts : q.blank.limitClause ++ q.blank.offsetText = q.limitClause ++ q.offsetText := rfl
  simp only [tailPieces, joined, groupPieces_blank, orderPieces_blank, counts, List.map_append,
    blank_words, ← conditionPieces_blank]
  rfl

theorem contents_groupPieces : q.groupPieces.filterMap Piece.content? =
    (q.grouping.flatMap (·.expr.strings)).map String.toList := by
  have list := contents_list ", " fun (c : Column) (_ : c ∈ q.grouping) => c.expr.contents_pieces
  unfold groupPieces
  cases columns : q.grouping with
  | nil => rfl
  | cons c others =>
    rw [columns] at list
    simpa using list

theorem contents_orderPieces : q.orderPieces.filterMap Piece.content? =
    (q.order.flatMap (·.column.expr.strings)).map String.toList := by
  have list := contents_list "," fun (t : OrderTerm) (_ : t ∈ q.order) =>
    show t.pieces.filterMap Piece.content? = t.column.expr.strings.map String.toList by
      simp [OrderTerm.pieces, Expr.contents_pieces]
  unfold orderPieces
  cases terms : q.order with
  | nil => rfl
  | cons t others =>
    rw [terms] at list
    simpa using list

theorem contents_tailPieces : (q.tailPieces start joins).filterMap Piece.content? =
    (q.tailStrings joins).map String.toList := by
  have joined : (joins.flatMap TableRoot.joinPieces).filterMap Piece.content? =
      (joins.flatMap TableRoot.joinStrings).map String.toList := by
    rw [List.filterMap_flatMap, List.map_flatMap]
    exact congrArg (List.flatMap · joins) (funext TableRoot.contents_joinPieces)
  simp [tailPieces, tailStrings, joined, contents_conditionPieces, contents_groupPieces,
    contents_orderPieces]

end Query

end SqlSelect
