import SqlSelect.Proofs.Condition.Grammar

/-!
A reader for conditions. It accepts exactly what the grammar writes, and gives the tree that it was
written for; so no two trees are written alike.
-/
namespace SqlSelect.Condition

/-! The reader goes through the tokens once. It keeps the conditions that are open, innermost
first, and expects an operand or what can follow one. -/

/-- A condition that is being read: the conjunctions before the last `or`, and the operands
behind it. -/
structure Frame where
  disjuncts : List (List Operand)
  conjuncts : List Operand

namespace Frame

def empty : Frame := ⟨[], []⟩

def add (f : Frame) (o : Operand) : Frame := { f with conjuncts := f.conjuncts ++ [o] }

/-- Starts another conjunction. -/
def next (f : Frame) : Frame := ⟨f.disjuncts ++ [f.conjuncts], []⟩

def close (f : Frame) : List (List Operand) := f.disjuncts ++ [f.conjuncts]

end Frame

mutual

def readOperand (opened : List Frame) (frame : Frame) :
    List Token → Option (List (List Operand))
  | .opening :: rest => readOperand (frame :: opened) .empty rest
  | .name column :: .comparison comparison :: .literal right :: rest =>
    readOperator opened (frame.add (.test (.compare column comparison right))) rest
  | .name column :: .keyword .among :: .opening :: rest =>
    readValues opened frame column false [] rest
  | .name column :: .keyword .not :: .keyword .among :: .opening :: rest =>
    readValues opened frame column true [] rest
  | .name column :: .keyword .like :: .literal pattern :: rest =>
    readOperator opened (frame.add (.test (.like column false pattern))) rest
  | .name column :: .keyword .not :: .keyword .like :: .literal pattern :: rest =>
    readOperator opened (frame.add (.test (.like column true pattern))) rest
  | .name column :: .keyword .between :: .literal low :: .keyword .and :: .literal high :: rest =>
    readOperator opened (frame.add (.test (.between column low high))) rest
  | .name column :: .keyword .is :: .keyword .null :: rest =>
    readOperator opened (frame.add (.test (.isNull column false))) rest
  | .name column :: .keyword .is :: .keyword .not :: .keyword .null :: rest =>
    readOperator opened (frame.add (.test (.isNull column true))) rest
  | _ => none

/-- Reads the list of an `in`; the values before are given. -/
def readValues (opened : List Frame) (frame : Frame) (column : String) (negated : Bool)
    (before : List Literal) : List Token → Option (List (List Operand))
  | .literal v :: .comma :: rest =>
    readValues opened frame column negated (before ++ [v]) rest
  | .literal v :: .closing :: rest =>
    readOperator opened (frame.add (.test (.among column negated (before ++ [v])))) rest
  | _ => none

def readOperator (opened : List Frame) (frame : Frame) : List Token → Option (List (List Operand))
  | [] => if opened.isEmpty then some frame.close else none
  | .keyword .and :: rest => readOperand opened frame rest
  | .keyword .or :: rest => readOperand opened frame.next rest
  | .closing :: rest =>
    match opened with
    | [] => none
    | outer :: opened => readOperator opened (outer.add (.grouped frame.close)) rest
  | _ => none

end

/-- The tree of a condition, if all the tokens make up one condition. -/
def read (tokens : List Token) : Option (List (List Operand)) := readOperand [] .empty tokens

theorem readValues_list (opened : List Frame) (frame : Frame) (column : String) (negated : Bool)
    {values : List Literal} (some : values ≠ []) (before : List Literal) (rest : List Token) :
    readValues opened frame column negated before
        (joined .comma (values.map ([.literal ·])) ++ .closing :: rest) =
      readOperator opened (frame.add (.test (.among column negated (before ++ values)))) rest := by
  match values, some with
  | [v], _ => simp [readValues]
  | v :: next :: others, _ =>
    have behind := readValues_list opened frame column negated (List.cons_ne_nil next others)
      (before ++ [v]) rest
    simpa [readValues] using behind

/-- The tokens are read as this operand, wherever an operand can stand. -/
def Reads (tokens : List Token) (o : Operand) : Prop :=
  ∀ opened frame rest,
    readOperand opened frame (tokens ++ rest) = readOperator opened (frame.add o) rest

theorem reads_test {t : Test} (h : t.Proper) : Reads t.tokens (.test t) := by
  intro opened frame rest
  cases t with
  | compare => rfl
  | among column negated values =>
    have list := readValues_list opened frame column negated h [] rest
    cases negated <;> simpa [Test.tokens, negation, readOperand] using list
  | like column negated => cases negated <;> rfl
  | between => rfl
  | isNull column negated => cases negated <;> rfl

theorem readOperand_conjunction {os : List Operand} (some : os ≠ [])
    (members : ∀ o ∈ os, Reads o.tokens o) (opened : List Frame) (frame : Frame)
    (rest : List Token) :
    readOperand opened frame (conjunction os ++ rest) =
      readOperator opened { frame with conjuncts := frame.conjuncts ++ os } rest := by
  match os, some with
  | [o], _ =>
    rw [conjunction_singleton]
    exact members o List.mem_cons_self opened frame rest
  | o :: next :: others, _ =>
    have first := members o List.mem_cons_self opened frame
      (.keyword .and :: (conjunction (next :: others) ++ rest))
    have behind := readOperand_conjunction (List.cons_ne_nil next others)
      (fun o mem => members o (List.mem_cons_of_mem _ mem)) opened (frame.add o) rest
    calc readOperand opened frame (conjunction (o :: next :: others) ++ rest)
        = readOperator opened (frame.add o)
            (.keyword .and :: (conjunction (next :: others) ++ rest)) := by
          rw [conjunction_cons, List.append_assoc]
          exact first
      _ = readOperand opened (frame.add o) (conjunction (next :: others) ++ rest) := by
          rw [readOperator]
      _ = readOperator opened
            { frame with conjuncts := frame.conjuncts ++ o :: next :: others } rest := by
          simpa [Frame.add] using behind

theorem readOperand_disjunction {disjuncts : List (List Operand)} (some : disjuncts ≠ [])
    (each : ∀ conjuncts ∈ disjuncts, conjuncts ≠ [])
    (members : ∀ conjuncts ∈ disjuncts, ∀ o ∈ conjuncts, Reads o.tokens o) (opened : List Frame)
    (before : List (List Operand)) (rest : List Token) :
    ∃ frame : Frame, frame.close = before ++ disjuncts ∧
      readOperand opened ⟨before, []⟩ (disjunction disjuncts ++ rest) =
        readOperator opened frame rest := by
  match disjuncts, some with
  | [conjuncts], _ =>
    have only := readOperand_conjunction (each conjuncts List.mem_cons_self)
      (members conjuncts List.mem_cons_self) opened ⟨before, []⟩ rest
    refine ⟨⟨before, conjuncts⟩, rfl, ?_⟩
    rw [disjunction_singleton]
    exact only
  | conjuncts :: next :: others, _ =>
    have first := readOperand_conjunction (each conjuncts List.mem_cons_self)
      (members conjuncts List.mem_cons_self) opened ⟨before, []⟩
      (.keyword .or :: (disjunction (next :: others) ++ rest))
    obtain ⟨frame, closed, behind⟩ := readOperand_disjunction (List.cons_ne_nil next others)
      (fun c mem => each c (List.mem_cons_of_mem _ mem))
      (fun c mem => members c (List.mem_cons_of_mem _ mem)) opened (before ++ [conjuncts]) rest
    refine ⟨frame, by simpa using closed, ?_⟩
    calc readOperand opened ⟨before, []⟩ (disjunction (conjuncts :: next :: others) ++ rest)
        = readOperator opened ⟨before, conjuncts⟩
            (.keyword .or :: (disjunction (next :: others) ++ rest)) := by
          rw [disjunction_cons, List.append_assoc]
          exact first
      _ = readOperand opened ⟨before ++ [conjuncts], []⟩
            (disjunction (next :: others) ++ rest) := by
          rw [readOperator]
          rfl
      _ = readOperator opened frame rest := behind

theorem Operand.Proper.reads {o : Operand} (h : o.Proper) : Reads o.tokens o := by
  induction h with
  | test h => exact reads_test h
  | @grouped disjuncts some each _ ih =>
    intro opened frame rest
    obtain ⟨inner, closed, within⟩ := readOperand_disjunction some each ih (frame :: opened) []
      (.closing :: rest)
    calc readOperand opened frame ((Operand.grouped disjuncts).tokens ++ rest)
        = readOperand (frame :: opened) .empty (disjunction disjuncts ++ .closing :: rest) := by
          simp [Operand.tokens, disjunction, readOperand]
      _ = readOperator (frame :: opened) inner (.closing :: rest) := within
      _ = readOperator opened (frame.add (.grouped inner.close)) rest := by rw [readOperator]
      _ = readOperator opened (frame.add (.grouped disjuncts)) rest := by
          rw [closed, List.nil_append]

/-- Every condition that the grammar writes is read as the tree it was written for. -/
theorem read_disjunction {disjuncts : List (List Operand)}
    (h : (Operand.grouped disjuncts).Proper) :
    read (disjunction disjuncts) = some disjuncts := by
  cases h with
  | grouped some each all =>
    obtain ⟨frame, closed, reading⟩ := readOperand_disjunction some each
      (fun conjuncts mem o inside => (all conjuncts mem o inside).reads) [] [] []
    rw [List.append_nil] at reading
    calc read (disjunction disjuncts) = readOperator [] frame [] := reading
      _ = Option.some frame.close := rfl
      _ = Option.some disjuncts := by rw [closed, List.nil_append]

namespace Frame

/-- The tokens of the condition so far, where an operand is expected. -/
def pending (f : Frame) : List Token :=
  continued (.keyword .or) (f.disjuncts.map conjunction) ++
    continued (.keyword .and) (f.conjuncts.map Operand.tokens)

/-- The tokens of the condition so far, behind an operand. -/
def settled (f : Frame) : List Token :=
  continued (.keyword .or) (f.disjuncts.map conjunction) ++ conjunction f.conjuncts

theorem settled_add (f : Frame) (o : Operand) : (f.add o).settled = f.pending ++ o.tokens := by
  simp [settled, add, pending, conjunction, joined_concat]

theorem disjunction_close (f : Frame) : disjunction f.close = f.settled := by
  simp [disjunction, close, settled, joined_concat]

theorem pending_of_ne_nil {f : Frame} (some : f.conjuncts ≠ []) :
    f.pending = f.settled ++ [.keyword .and] := by
  obtain ⟨before, last, same⟩ := List.eq_nil_or_concat f.conjuncts |>.resolve_left some
  simp [pending, settled, same, conjunction, joined_concat, continued]

theorem pending_next (f : Frame) : f.next.pending = f.settled ++ [.keyword .or] := by
  simp [pending, next, settled, continued]

/-- All that was read so far is what the grammar writes. -/
structure Proper (f : Frame) : Prop where
  disjuncts : ∀ conjuncts ∈ f.disjuncts, conjuncts ≠ [] ∧ ∀ o ∈ conjuncts, o.Proper
  conjuncts : ∀ o ∈ f.conjuncts, o.Proper

theorem proper_empty : empty.Proper := ⟨by simp [empty], by simp [empty]⟩

theorem Proper.add {f : Frame} (h : f.Proper) {o : Operand} (proper : o.Proper) :
    (f.add o).Proper := by
  refine ⟨h.disjuncts, ?_⟩
  intro p mem
  rcases List.mem_append.1 mem with before | last
  · exact h.conjuncts p before
  · exact List.mem_singleton.1 last ▸ proper

theorem Proper.close {f : Frame} (h : f.Proper) (some : f.conjuncts ≠ []) :
    (Operand.grouped f.close).Proper := by
  apply Operand.Proper.grouped
  · simp [Frame.close]
  · intro conjuncts mem
    rcases List.mem_append.1 mem with before | last
    · exact (h.disjuncts conjuncts before).1
    · exact List.mem_singleton.1 last ▸ some
  · intro conjuncts mem
    rcases List.mem_append.1 mem with before | last
    · exact (h.disjuncts conjuncts before).2
    · exact List.mem_singleton.1 last ▸ h.conjuncts

theorem Proper.next {f : Frame} (h : f.Proper) (some : f.conjuncts ≠ []) : f.next.Proper := by
  constructor
  · intro conjuncts mem
    rcases List.mem_append.1 mem with before | last
    · exact h.disjuncts conjuncts before
    · obtain rfl := List.mem_singleton.1 last
      exact ⟨some, h.conjuncts⟩
  · simp [Frame.next]

end Frame

/-- The tokens of the conditions that are open, innermost last. -/
def openedTokens : List Frame → List Token
  | [] => []
  | f :: opened => openedTokens opened ++ (f.pending ++ [.opening])

/-! An answer of the reader, in each of its three positions, stands for what the open conditions
hold and the tokens that were left. -/

def OperandSound (opened : List Frame) (frame : Frame) (tokens : List Token) : Prop :=
  (∀ f ∈ frame :: opened, f.Proper) → ∀ disjuncts,
    readOperand opened frame tokens = some disjuncts →
    Derives disjuncts (openedTokens opened ++ (frame.pending ++ tokens))

def ValuesSound (opened : List Frame) (frame : Frame) (column : String) (negated : Bool)
    (before : List Literal) (tokens : List Token) : Prop :=
  (∀ f ∈ frame :: opened, f.Proper) → ∀ disjuncts,
    readValues opened frame column negated before tokens = some disjuncts →
    Derives disjuncts (openedTokens opened ++ (frame.pending ++ (.name column ::
      (negation negated ++ .keyword .among :: .opening ::
        (continued .comma (before.map ([.literal ·])) ++ tokens)))))

def OperatorSound (opened : List Frame) (frame : Frame) (tokens : List Token) : Prop :=
  (∀ f ∈ frame :: opened, f.Proper) → frame.conjuncts ≠ [] →
    ∀ disjuncts, readOperator opened frame tokens = some disjuncts →
    Derives disjuncts (openedTokens opened ++ (frame.settled ++ tokens))

/-- Behind a test the reader goes on. -/
theorem OperatorSound.test {opened : List Frame} {frame : Frame} {t : Test} {rest : List Token}
    (sound : OperatorSound opened (frame.add (.test t)) rest) (proper : t.Proper)
    (frames : ∀ f ∈ frame :: opened, f.Proper) {disjuncts : List (List Operand)}
    (read : readOperator opened (frame.add (.test t)) rest = some disjuncts) :
    Derives disjuncts (openedTokens opened ++ (frame.pending ++ (t.tokens ++ rest))) := by
  obtain ⟨first, others⟩ := List.forall_mem_cons.1 frames
  have derived := sound (List.forall_mem_cons.2 ⟨first.add (.test proper), others⟩)
    (by simp [Frame.add]) disjuncts read
  rwa [Frame.settled_add, List.append_assoc] at derived

/-- The cases are those of the reader; each adds what it reads to what the frames hold. -/
theorem readOperand_sound (opened : List Frame) (frame : Frame) (tokens : List Token) :
    OperandSound opened frame tokens := by
  apply readOperand.induct OperandSound ValuesSound OperatorSound
  · -- an opening parenthesis
    intro opened frame rest ih frames disjuncts read
    have derived := ih (List.forall_mem_cons.2 ⟨Frame.proper_empty, frames⟩) disjuncts read
    simpa [openedTokens, Frame.pending, Frame.empty, continued] using derived
  · intro opened frame column comparison right rest ih frames disjuncts read
    exact ih.test trivial frames read
  · intro opened frame column rest ih frames disjuncts read
    exact ih frames disjuncts read
  · intro opened frame column rest ih frames disjuncts read
    exact ih frames disjuncts read
  · intro opened frame column pattern rest ih frames disjuncts read
    exact ih.test trivial frames read
  · intro opened frame column pattern rest ih frames disjuncts read
    exact ih.test trivial frames read
  · intro opened frame column low high rest ih frames disjuncts read
    exact ih.test trivial frames read
  · intro opened frame column rest ih frames disjuncts read
    exact ih.test trivial frames read
  · intro opened frame column rest ih frames disjuncts read
    exact ih.test trivial frames read
  · intro tokens opened frame
    intros
    intro frames disjuncts read
    simp_all [readOperand]
  · -- a value with another behind it
    intro opened frame column negated before v rest ih frames disjuncts read
    have derived := ih frames disjuncts read
    simpa [continued] using derived
  · -- the last value
    intro opened frame column negated before v rest ih frames disjuncts read
    have some : before ++ [v] ≠ [] := by simp
    have derived := ih.test some frames read
    simpa [Test.tokens, joined_concat] using derived
  · intro tokens opened frame column negated before _ _ frames disjuncts read
    simp_all [readValues]
  · -- the end of the whole condition
    intro opened frame closed frames some disjuncts read
    obtain rfl := List.isEmpty_iff.1 closed
    obtain rfl := Option.some.inj read
    have proper := (frames frame List.mem_cons_self).close some
    exact ⟨proper, by simp [openedTokens, Frame.disjunction_close]⟩
  · intro opened frame closed frames some disjuncts read
    simp [readOperator, closed] at read
  · intro opened frame rest ih frames some disjuncts read
    have derived := ih frames disjuncts read
    rw [Frame.pending_of_ne_nil some] at derived
    simpa using derived
  · intro opened frame rest ih frames some disjuncts read
    obtain ⟨first, others⟩ := List.forall_mem_cons.1 frames
    have derived := ih (List.forall_mem_cons.2 ⟨first.next some, others⟩) disjuncts read
    rw [Frame.pending_next] at derived
    simpa using derived
  · intro frame rest frames some disjuncts read
    simp [readOperator] at read
  · -- a closing parenthesis
    intro frame rest outer opened ih frames some disjuncts read
    obtain ⟨first, others⟩ := List.forall_mem_cons.1 frames
    obtain ⟨second, others⟩ := List.forall_mem_cons.1 others
    have derived := ih (List.forall_mem_cons.2 ⟨second.add (first.close some), others⟩)
      (by simp [Frame.add]) disjuncts read
    rw [Frame.settled_add, Operand.tokens] at derived
    have inner : joined (.keyword .or) (allConjunctions frame.close) = frame.settled := by
      rw [allConjunctions_eq_map]
      exact frame.disjunction_close
    rw [inner] at derived
    simpa [openedTokens] using derived
  · intro tokens opened frame _ _ _ _ frames some disjuncts read
    simp_all [readOperator]

/-- The reader accepts what the grammar writes and nothing else. -/
theorem read_eq_some_iff {tokens : List Token} {disjuncts : List (List Operand)} :
    read tokens = some disjuncts ↔ Derives disjuncts tokens := by
  constructor
  · intro given
    have frames : ∀ f ∈ [Frame.empty], f.Proper := by
      simpa using Frame.proper_empty
    simpa [openedTokens, Frame.pending, Frame.empty, continued] using
      readOperand_sound [] .empty tokens frames disjuncts given
  · intro derived
    rw [← derived.tokens]
    exact read_disjunction derived.proper

example (low high : Literal) :
    read [.name "a", .keyword .is, .keyword .null, .keyword .or, .name "b", .keyword .between,
        .literal low, .keyword .and, .literal high, .keyword .and, .name "c", .keyword .is,
        .keyword .null] =
      some [[.test (.isNull "a" false)],
        [.test (.between "b" low high), .test (.isNull "c" false)]] :=
  rfl

end SqlSelect.Condition
