import SqlSelect.Predicate

/-!
The grammar of conditions. A condition is a disjunction of conjunctions, since
`or` binds weaker than `and`; a member of a conjunction is a test of one column, or a condition in
parentheses. The `and` of a range belongs to its test. The prefix `not` in front of a whole
condition, and operands other than columns and literals, are not part of this grammar.
-/
namespace SqlSelect.Condition

inductive Keyword where
  | and
  | or
  | not
  | among
  | like
  | between
  | is
  | null
deriving DecidableEq, Repr

inductive Token where
  | name (text : String)
  | keyword (word : Keyword)
  | comparison (operator : Comparison)
  | literal (content : Literal)
  | opening
  | closing
  | comma
  /-- What no condition holds. -/
  | stray (text : String)
deriving DecidableEq, Repr

/-- A test of one column against literals. -/
inductive Test where
  | compare (column : String) (comparison : Comparison) (right : Literal)
  | among (column : String) (negated : Bool) (values : List Literal)
  | like (column : String) (negated : Bool) (pattern : Literal)
  | between (column : String) (low high : Literal)
  | isNull (column : String) (negated : Bool)
deriving DecidableEq, Repr

inductive Operand where
  | test (content : Test)
  /-- Parentheses around a disjunction of conjunctions. -/
  | grouped (disjuncts : List (List Operand))
deriving Repr

/-! What the grammar writes for a tree. -/

def negation (negated : Bool) : List Token := if negated then [.keyword .not] else []

/-- Members with a token between them. -/
def joined (separator : Token) (members : List (List Token)) : List Token :=
  [separator].intercalate members

@[simp] theorem joined_singleton (separator : Token) (member : List Token) :
    joined separator [member] = member := List.intercalate_singleton

@[simp] theorem joined_cons_cons (separator : Token) (first second : List Token)
    (others : List (List Token)) :
    joined separator (first :: second :: others) =
      first ++ separator :: joined separator (second :: others) := by
  simp [joined, List.intercalate_cons_cons]

/-- Members with a token behind each of them. -/
def continued (separator : Token) (members : List (List Token)) : List Token :=
  members.flatMap fun tokens => tokens ++ [separator]

theorem joined_concat (separator : Token) (members : List (List Token)) (last : List Token) :
    joined separator (members ++ [last]) = continued separator members ++ last := by
  induction members with
  | nil => simp [joined, continued]
  | cons first others ih =>
    have more : others ++ [last] ≠ [] := by simp
    unfold joined at ih ⊢
    rw [List.cons_append, List.intercalate_cons_of_ne_nil more, ih]
    simp [continued]

def Test.tokens : Test → List Token
  | compare column comparison right => [.name column, .comparison comparison, .literal right]
  | among column negated values => .name column :: (negation negated ++
      .keyword .among :: .opening :: (joined .comma (values.map ([.literal ·])) ++ [.closing]))
  | like column negated pattern =>
    .name column :: (negation negated ++ [.keyword .like, .literal pattern])
  | between column low high =>
    [.name column, .keyword .between, .literal low, .keyword .and, .literal high]
  | isNull column negated => .name column :: .keyword .is :: (negation negated ++ [.keyword .null])

mutual

def Operand.tokens : Operand → List Token
  | .test content => content.tokens
  | .grouped disjuncts =>
    .opening :: (joined (.keyword .or) (allConjunctions disjuncts) ++ [.closing])

def allConjunctions : List (List Operand) → List (List Token)
  | [] => []
  | conjuncts :: others =>
    joined (.keyword .and) (allTokens conjuncts) :: allConjunctions others

def allTokens : List Operand → List (List Token)
  | [] => []
  | o :: others => o.tokens :: allTokens others

end

@[simp] theorem allTokens_eq_map (os : List Operand) : allTokens os = os.map Operand.tokens := by
  induction os with
  | nil => rfl
  | cons o os ih => simp [allTokens, ih]

def conjunction (conjuncts : List Operand) : List Token :=
  joined (.keyword .and) (conjuncts.map Operand.tokens)

@[simp] theorem allConjunctions_eq_map (disjuncts : List (List Operand)) :
    allConjunctions disjuncts = disjuncts.map conjunction := by
  induction disjuncts with
  | nil => rfl
  | cons conjuncts others ih => simp [allConjunctions, conjunction, ih]

def disjunction (disjuncts : List (List Operand)) : List Token :=
  joined (.keyword .or) (disjuncts.map conjunction)

theorem conjunction_singleton (o : Operand) : conjunction [o] = o.tokens := by
  simp [conjunction]

theorem disjunction_singleton (conjuncts : List Operand) :
    disjunction [conjuncts] = conjunction conjuncts := by
  simp [disjunction]

theorem conjunction_cons (o next : Operand) (others : List Operand) :
    conjunction (o :: next :: others) =
      o.tokens ++ .keyword .and :: conjunction (next :: others) := by
  simp [conjunction]

theorem disjunction_cons (conjuncts next : List Operand) (others : List (List Operand)) :
    disjunction (conjuncts :: next :: others) =
      conjunction conjuncts ++ .keyword .or :: disjunction (next :: others) := by
  simp [disjunction]

/-! No list in a tree is empty. -/

def Test.Proper : Test → Prop
  | .among _ _ values => values ≠ []
  | _ => True

inductive Operand.Proper : Operand → Prop where
  | test {t : Test} (h : t.Proper) : Proper (.test t)
  | grouped {disjuncts : List (List Operand)} (some : disjuncts ≠ [])
      (each : ∀ conjuncts ∈ disjuncts, conjuncts ≠ [])
      (all : ∀ conjuncts ∈ disjuncts, ∀ o ∈ conjuncts, Proper o) : Proper (.grouped disjuncts)

/-- The grammar writes the tree as these tokens. -/
structure Derives (disjuncts : List (List Operand)) (tokens : List Token) : Prop where
  proper : (Operand.grouped disjuncts).Proper
  tokens : disjunction disjuncts = tokens

end SqlSelect.Condition
