import Mathlib.Order.MinMax
import SqlSelect.Proofs.Condition.Tokens

/-!
The outline of a condition of any kind. Since `or` binds weaker than `and`, a condition is a
disjunction of conjunctions of factors, and a factor is whatever stands between connectives outside
of all parentheses. What a factor says is left open: conditions are compared under every way to give
truth values to factors, in the three-valued logic of the databases.
-/
namespace SqlSelect.Condition

/-- What a token does to the structure of the condition it stands in. -/
inductive Sign where
  | opens
  | closes
  | and
  | or
  | range
  /-- A connective between the two in strength. -/
  | between
  | plain
deriving DecidableEq, Repr

/-- A `case` is closed by its `end` like an opening parenthesis by the closing one. -/
def wordSign (word : String) : Sign :=
  if word = "case" then .opens
  else if word = "end" then .closes
  else if word = "xor" then .between
  else .plain

/-- The elements of an array stand in brackets. -/
def markSign (mark : String) : Sign :=
  if mark = "[" then .opens
  else if mark = "]" then .closes
  else .plain

def Token.sign : Token → Sign
  | opening => .opens
  | closing => .closes
  | keyword .and => .and
  | keyword .or => .or
  | keyword .between => .range
  | name text => wordSign text.toLower
  | stray text => markSign text
  | _ => .plain

/-- How many parentheses are open, and whether the next `and` outside of them belongs to a range. -/
structure Place where
  depth : Nat
  ranged : Bool
deriving DecidableEq, Repr

inductive Role where
  | part
  | and
  | or
deriving DecidableEq, Repr

namespace Place

def top : Place := ⟨0, false⟩

/-- The role of a token and the place behind it, if a condition can go on with the token. -/
def step : Place → Sign → Option (Role × Place)
  | ⟨depth, ranged⟩, .opens => some (.part, ⟨depth + 1, ranged⟩)
  | ⟨depth + 1, ranged⟩, .closes => some (.part, ⟨depth, ranged⟩)
  | place, .plain => some (.part, place)
  | ⟨0, false⟩, .range => some (.part, ⟨0, true⟩)
  | ⟨0, true⟩, .and => some (.part, top)
  | ⟨0, false⟩, .and => some (.and, top)
  | ⟨0, false⟩, .or => some (.or, top)
  | ⟨0, _⟩, _ => none
  | place, _ => some (.part, place)

theorem step_plain (place : Place) : place.step .plain = some (.part, place) := by
  obtain ⟨_ | depth, ranged⟩ := place <;> rfl

end Place

/-- The tokens with their roles, and the place behind them. -/
def mark (place : Place) : List Token → Option (List (Role × Token) × Place)
  | [] => some ([], place)
  | t :: others => do
    let (role, next) ← place.step t.sign
    let (marks, last) ← mark next others
    return ((role, t) :: marks, last)

theorem mark_cons {place next : Place} {t : Token} {role : Role}
    (stepped : place.step t.sign = some (role, next)) (others : List Token) :
    mark place (t :: others) = (mark next others).map fun m => ((role, t) :: m.1, m.2) := by
  simp only [mark, stepped, Option.bind_eq_bind, Option.bind_some]
  cases mark next others <;> rfl

theorem mark_append {place next : Place} {first : List Token} {marks : List (Role × Token)}
    (marked : mark place first = some (marks, next)) (others : List Token) :
    mark place (first ++ others) = (mark next others).map fun m => (marks ++ m.1, m.2) := by
  induction first generalizing place marks with
  | nil =>
    obtain ⟨rfl, rfl⟩ := Prod.mk.inj (Option.some.inj marked)
    simp
  | cons t first ih =>
    cases stepped : place.step t.sign with
    | none => simp [mark, stepped] at marked
    | some between =>
      obtain ⟨role, between⟩ := between
      rw [mark_cons stepped] at marked
      obtain ⟨⟨more, last⟩, there, same⟩ := Option.map_eq_some_iff.1 marked
      obtain ⟨rfl, rfl⟩ := Prod.mk.inj same
      rw [List.cons_append, mark_cons stepped, ih there, Option.map_map]
      rfl

/-- The tokens belong to one factor, and leave the place as it was. -/
def Passes (place : Place) (tokens : List Token) : Prop :=
  mark place tokens = some (tokens.map (Prod.mk .part), place)

instance (place : Place) (tokens : List Token) : Decidable (Passes place tokens) :=
  inferInstanceAs (Decidable (_ = _))

namespace Passes

variable {place : Place} {first others : List Token}

theorem nil : Passes place [] := rfl

theorem append (hfirst : Passes place first) (hothers : Passes place others) :
    Passes place (first ++ others) := by
  unfold Passes at hothers ⊢
  rw [mark_append hfirst, hothers, List.map_append]
  rfl

theorem cons {t : Token} (plain : t.sign = .plain) (hothers : Passes place others) :
    Passes place (t :: others) := by
  unfold Passes at hothers ⊢
  rw [mark_cons (by rw [plain, Place.step_plain]), hothers]
  rfl

theorem enclosed (inner : Passes ⟨place.depth + 1, place.ranged⟩ first) :
    Passes place (.opening :: (first ++ [.closing])) := by
  have opens : place.step Token.opening.sign =
      some (.part, ⟨place.depth + 1, place.ranged⟩) := rfl
  unfold Passes
  rw [mark_cons opens, mark_append inner, mark_cons rfl]
  simp [mark]

end Passes

abbrev Factor := List Token

/-- The factors of each conjunction, for one conjunction after the other. -/
abbrev Outline := List (List Factor)

/-- The tokens between connectives. -/
def split (marks : List (Role × Token)) : Outline :=
  (marks.splitOnP (·.1 == .or)).map fun conjunction =>
    (conjunction.splitOnP (·.1 == .and)).map (List.map Prod.snd)

/-- The outline of a condition: all that was opened is closed, and no factor is empty. -/
def outline (tokens : List Token) : Option Outline :=
  match mark .top tokens with
  | none => none
  | some (marks, last) =>
    if last = .top ∧ ∀ factors ∈ split marks, [] ∉ factors then some (split marks) else none

theorem outline_eq_some {tokens : List Token} {o : Outline} :
    outline tokens = some o ↔ ∃ marks, mark .top tokens = some (marks, .top) ∧
      (∀ factors ∈ split marks, [] ∉ factors) ∧ split marks = o := by
  unfold outline
  cases mark .top tokens with
  | none => simp
  | some marked =>
    obtain ⟨marks, last⟩ := marked
    simp only [Option.ite_none_right_eq_some, Option.some.injEq, Prod.mk.injEq]
    grind

theorem split_ne_nil (marks : List (Role × Token)) : split marks ≠ [] := by
  simp [split, List.splitOnP_ne_nil]

/-- Parts in front of a text go to its first disjunct. -/
theorem splitOnP_or_append {first others : List (Role × Token)}
    (parts : ∀ m ∈ first, m.1 ≠ .or) :
    (first ++ others).splitOnP (·.1 == .or) =
      (others.splitOnP (·.1 == .or)).modifyHead (first ++ ·) := by
  induction first with
  | nil => exact (congrFun List.modifyHead_id _).symm
  | cons m first ih =>
    obtain ⟨head, behind⟩ := List.forall_mem_cons.1 parts
    rw [List.cons_append, List.splitOnP_cons_eq_if_modifyHead, if_neg (by simpa using head),
      ih behind, List.modifyHead_modifyHead]
    rfl

/-- A factor and a condition behind `and`: the factor joins the first of the condition's
conjunctions, and no other. -/
theorem split_and (tokens : List Token) (others : List (Role × Token)) :
    split (tokens.map (Prod.mk .part) ++ (.and, .keyword .and) :: others) =
      (split others).modifyHead (tokens :: ·) := by
  let front : List (Role × Token) := tokens.map (Prod.mk .part) ++ [(.and, .keyword .and)]
  have parts : ∀ m ∈ front, m.1 ≠ .or := by
    intro m mem
    rcases List.mem_append.1 mem with mem | mem
    · obtain ⟨t, -, rfl⟩ := List.mem_map.1 mem
      exact Role.noConfusion
    · obtain rfl := List.mem_singleton.1 mem
      exact Role.noConfusion
  have conjoined (conjunction : List (Role × Token)) :
      ((front ++ conjunction).splitOnP (·.1 == .and)).map (List.map Prod.snd) =
        tokens :: (conjunction.splitOnP (·.1 == .and)).map (List.map Prod.snd) := by
    have single : (tokens.map (Prod.mk Role.part)).splitOnP (·.1 == .and) =
        [tokens.map (Prod.mk Role.part)] := List.splitOnP_eq_singleton (by simp)
    rw [List.append_assoc, List.singleton_append, List.splitOnP_append_cons _ _ rfl, single]
    simp [Function.comp_def]
  have shape : tokens.map (Prod.mk .part) ++ (.and, .keyword .and) :: others = front ++ others := by
    simp [front]
  rw [split, shape, splitOnP_or_append parts, split]
  obtain ⟨first, more, same⟩ := List.exists_cons_of_ne_nil
    (List.splitOnP_ne_nil (fun m : Role × Token => m.1 == .or) others)
  rw [same, List.modifyHead_cons, List.map_cons, conjoined, List.map_cons, List.modifyHead_cons]

theorem outline_of_passes {tokens : List Token} (passes : Passes .top tokens)
    (some : tokens ≠ []) : outline tokens = Option.some [[tokens]] := by
  have alone : split (tokens.map (Prod.mk .part)) = [[tokens]] := by
    simp [split, List.splitOnP_eq_singleton, Function.comp_def]
  refine outline_eq_some.2 ⟨_, passes, ?_, alone⟩
  simp [alone, some.symm]

/-- The outline of a factor and a condition behind it. -/
theorem outline_and {factor condition : List Token} {o : Outline} (passes : Passes .top factor)
    (some : factor ≠ []) (h : outline condition = Option.some o) :
    outline (factor ++ .keyword .and :: condition) =
      Option.some (o.modifyHead (factor :: ·)) := by
  obtain ⟨marks, marked, each, rfl⟩ := outline_eq_some.1 h
  have behind : mark .top (.keyword .and :: condition) =
      Option.some ((.and, .keyword .and) :: marks, .top) := by
    have stepped : Place.top.step (Token.keyword .and).sign = Option.some (.and, .top) := rfl
    rw [mark_cons stepped, marked]
    rfl
  refine outline_eq_some.2 ⟨_, ?_, ?_, split_and factor marks⟩
  · rw [mark_append passes, behind]
    rfl
  · rw [split_and]
    obtain ⟨first, more, same⟩ := List.exists_cons_of_ne_nil (split_ne_nil marks)
    rw [same] at each ⊢
    obtain ⟨head, others⟩ := List.forall_mem_cons.1 each
    simpa [some.symm, head] using others

/-- The truth values of a row's tests, the least true first. -/
inductive Truth where
  | no
  | unknown
  | yes
deriving DecidableEq, Repr

namespace Truth

def rank : Truth → Nat
  | no => 0
  | unknown => 1
  | yes => 2

theorem rank_injective : Function.Injective rank := by
  intro t u same
  cases t <;> cases u <;> first | rfl | cases same

instance : LinearOrder Truth := LinearOrder.lift' rank rank_injective

theorem no_le (t : Truth) : no ≤ t := Nat.zero_le t.rank

theorem le_yes (t : Truth) : t ≤ yes := by
  cases t <;> decide

/-- The truth of a conjunction. -/
def all (ts : List Truth) : Truth := ts.foldr min yes

/-- The truth of a disjunction. -/
def any (ts : List Truth) : Truth := ts.foldr max no

theorem le_all_iff {t : Truth} {ts : List Truth} : t ≤ all ts ↔ ∀ u ∈ ts, t ≤ u := by
  induction ts with
  | nil => simp [all, le_yes]
  | cons u ts ih =>
    rw [List.forall_mem_cons, ← ih]
    exact le_min_iff

theorem any_le_iff {t : Truth} {ts : List Truth} : any ts ≤ t ↔ ∀ u ∈ ts, u ≤ t := by
  induction ts with
  | nil => simp [any, no_le]
  | cons u ts ih =>
    rw [List.forall_mem_cons, ← ih]
    exact max_le_iff

theorem all_eq_yes {ts : List Truth} : all ts = yes ↔ ∀ t ∈ ts, t = yes := by
  have top (t : Truth) : yes ≤ t ↔ t = yes := ⟨fun le => le_antisymm t.le_yes le, ge_of_eq⟩
  rw [← top, le_all_iff]
  simp only [top]

theorem any_eq_yes {ts : List Truth} : any ts = yes ↔ yes ∈ ts := by
  induction ts with
  | nil => simp [any]
  | cons u ts ih =>
    have either (t u : Truth) : max t u = yes ↔ t = yes ∨ u = yes := by
      cases t <;> cases u <;> decide
    rw [List.mem_cons, ← ih, eq_comm (a := yes)]
    exact either u (any ts)

end Truth

/-- The truth of a condition, from the truth of its factors. -/
def evaluate (v : Factor → Truth) (o : Outline) : Truth :=
  .any (o.map fun factors => .all (factors.map v))

/-- A test, alone or with a condition behind it. -/
def conjoined (test : Factor) : Option Outline → Outline
  | none => [[test]]
  | some o => o.modifyHead (test :: ·)

/-- A row passes if it passes the test and the condition. -/
theorem min_le_evaluate_conjoined (v : Factor → Truth) (test : Factor) (o : Outline) :
    min (v test) (evaluate v o) ≤ evaluate v (conjoined test (some o)) := by
  cases o with
  | nil => exact min_le_right _ _
  | cons first others =>
    have distributed : min (v test) (evaluate v (first :: others)) =
        max (min (v test) (.all (first.map v))) (min (v test) (evaluate v others)) :=
      min_max_distrib_left _ _ _
    rw [distributed]
    exact max_le_max le_rfl (min_le_right _ _)

/-- A row passes if it passes the test and all conditions, of which only the last is there. -/
theorem all_le_evaluate_conjoined (v : Factor → Truth) (test : Factor)
    (conditions : List Outline) :
    .all (v test :: conditions.map (evaluate v)) ≤
      evaluate v (conjoined test conditions.getLast?) := by
  cases last : conditions.getLast? with
  | none =>
    rw [List.getLast?_eq_none_iff.1 last]
    exact le_max_left _ _
  | some o =>
    obtain ⟨tested, others⟩ := List.forall_mem_cons.1 (Truth.le_all_iff.1
      (le_refl (Truth.all (v test :: conditions.map (evaluate v)))))
    have met := others _ (List.mem_map_of_mem (List.mem_of_getLast? last))
    exact (le_min tested met).trans (min_le_evaluate_conjoined v test o)

/-- A condition that lets through all that passes a test and some other conditions is equivalent to
their conjunction exactly if each of its own conjunctions has the test among its factors, and all
factors of one conjunction of every other condition. -/
theorem evaluate_eq_all_iff {o : Outline} {test : Factor} {conditions : List Outline}
    (lets : ∀ v, .all (v test :: conditions.map (evaluate v)) ≤ evaluate v o) :
    (∀ v, evaluate v o = .all (v test :: conditions.map (evaluate v))) ↔
      ∀ factors ∈ o, test ∈ factors ∧ ∀ c ∈ conditions, ∃ conjunction ∈ c,
        conjunction ⊆ factors := by
  constructor
  · -- Rows for which just the factors of one conjunction are true tell what it must hold.
    intro equivalent factors mem
    let v : Factor → Truth := fun f => if f ∈ factors then .yes else .no
    have isYes (f : Factor) : v f = .yes ↔ f ∈ factors := by
      by_cases inside : f ∈ factors <;> simp [v, inside]
    have conjunctionIsYes (c : List Factor) : Truth.all (c.map v) = .yes ↔ c ⊆ factors := by
      simp [Truth.all_eq_yes, isYes, List.subset_def]
    have whole : Truth.all (factors.map v) = .yes := (conjunctionIsYes _).2 (List.Subset.refl _)
    have holds : evaluate v o = .yes := Truth.any_eq_yes.2 (List.mem_map.2 ⟨factors, mem, whole⟩)
    rw [equivalent v, Truth.all_eq_yes] at holds
    obtain ⟨tested, others⟩ := List.forall_mem_cons.1 holds
    refine ⟨(isYes test).1 tested, fun c inside => ?_⟩
    have met : evaluate v c = .yes := others _ (List.mem_map_of_mem inside)
    obtain ⟨conjunction, there, holds⟩ := List.mem_map.1 (Truth.any_eq_yes.1 met)
    exact ⟨conjunction, there, (conjunctionIsYes _).1 holds⟩
  · intro each v
    refine le_antisymm ?_ (lets v)
    refine Truth.any_le_iff.2 (List.forall_mem_map.2 fun factors mem => ?_)
    obtain ⟨tested, others⟩ := each factors mem
    have below {conjunction : List Factor} (subset : conjunction ⊆ factors) :
        Truth.all (factors.map v) ≤ .all (conjunction.map v) :=
      Truth.le_all_iff.2 (List.forall_mem_map.2 fun f inside =>
        Truth.le_all_iff.1 le_rfl _ (List.mem_map_of_mem (subset inside)))
    refine Truth.le_all_iff.2
      (List.forall_mem_cons.2 ⟨?_, List.forall_mem_map.2 fun c inside => ?_⟩)
    · exact Truth.le_all_iff.1 le_rfl _ (List.mem_map_of_mem tested)
    · obtain ⟨conjunction, there, subset⟩ := others c inside
      exact (below subset).trans
        (Truth.any_le_iff.1 le_rfl _ (List.mem_map.2 ⟨conjunction, there, rfl⟩))

end SqlSelect.Condition
