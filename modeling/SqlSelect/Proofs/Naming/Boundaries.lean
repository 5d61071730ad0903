import SqlSelect.Proofs.Naming.Shape

/-!
The naming convention by the places where it puts its underscores. The scan takes each run of
capitals as a whole. No boundary lies behind a capital, so none is missed in a run or at its end:
the scan comes to the same as a look at each two neighbours.
-/
namespace SqlSelect.Naming

open Text Identifier

/-- The character at this index is a small letter, and the next one a capital. -/
def isBoundary (cs : List Char) (i : Nat) : Bool := cs[i]?.any isSmall && cs[i + 1]?.any isCapital

/-- The text with one underscore behind the character at each boundary, and nowhere else. -/
def underscored (cs : List Char) : List Char :=
  (cs.mapIdx fun i c => if isBoundary cs i then [c, '_'] else [c]).flatten

theorem underscored_cons (c : Char) (cs : List Char) :
    underscored (c :: cs) =
      (if isSmall c && cs.head?.any isCapital then [c, '_'] else [c]) ++ underscored cs := by
  have first : isBoundary (c :: cs) 0 = (isSmall c && cs.head?.any isCapital) := by
    rw [List.head?_eq_getElem?]
    rfl
  have later (i : Nat) : isBoundary (c :: cs) (i + 1) = isBoundary cs i := rfl
  simp only [underscored, List.mapIdx_cons, List.flatten_cons, first, later]

theorem isSmall_of_isCapital {c : Char} (h : isCapital c = true) : isSmall c = false := by
  simp only [isCapital, Bool.and_eq_true, decide_eq_true_eq] at h
  simp only [isSmall, Bool.and_eq_false_iff, decide_eq_false_iff_not]
  left
  intro small
  exact absurd (Char.le_trans small h.2) (by decide)

/-- No boundary lies behind a capital. -/
theorem underscored_capitals_append {run : List Char} (capitals : ∀ c ∈ run, isCapital c = true)
    (rest : List Char) : underscored (run ++ rest) = run ++ underscored rest := by
  induction run with
  | nil => rfl
  | cons c run ih =>
    obtain ⟨first, others⟩ := List.forall_mem_cons.1 capitals
    rw [List.cons_append, underscored_cons, isSmall_of_isCapital first, ih others]
    rfl

theorem any_head?_isCapital (cs : List Char) :
    cs.head?.any isCapital = !(cs.takeWhile isCapital).isEmpty := by
  cases cs with
  | nil => rfl
  | cons c cs => cases capital : isCapital c <;> simp [capital]

/-- The induction is on the steps of the scan, each of which takes one character or, behind a small
letter, a whole run of capitals. -/
theorem separate_eq_underscored (cs : List Char) : separate cs = underscored cs := by
  fun_induction separate cs with
  | case1 => rfl
  | case2 c rest run found ih =>
    have capitals : ∀ d ∈ run, isCapital d = true := fun d mem => List.mem_takeWhile_imp mem
    have split : underscored rest = run ++ underscored (rest.dropWhile isCapital) := by
      rw [← underscored_capitals_append capitals, List.takeWhile_append_dropWhile]
    rw [underscored_cons, any_head?_isCapital, if_pos found, split, ih]
    rfl
  | case3 c rest run found ih =>
    rw [underscored_cons, any_head?_isCapital, if_neg found, ih]
    rfl

/-- A text without capitals has no boundaries. -/
theorem underscored_of_no_capitals {cs : List Char} (h : ∀ c ∈ cs, isCapital c = false) :
    underscored cs = cs := by
  induction cs with
  | nil => rfl
  | cons c cs ih =>
    obtain ⟨-, others⟩ := List.forall_mem_cons.1 h
    have next : cs.head?.any isCapital = false := by
      rw [Option.any_eq_false]
      intro d head
      simp [h d (List.mem_cons_of_mem c (List.mem_of_mem_head? head))]
    rw [underscored_cons, next, Bool.and_false, ih others]
    rfl

theorem snakeCase_of_no_capitals {name : String}
    (h : ∀ c ∈ name.toList, isCapital c = false) : snakeCase name = lowerCase name := by
  rw [snakeCase, separate_eq_underscored, underscored_of_no_capitals h, String.ofList_toList]

/-- Lower-casing leaves no ASCII capital. -/
theorem isCapital_of_isSettled {c : Char} (h : IsSettled c) : isCapital c = false := by
  by_cases ascii : c.toNat < 0x80
  · exact forall_ascii (P := fun c => IsSettled c → isCapital c = false) (by decide +kernel) ascii h
  · rw [isCapital, Bool.and_eq_false_iff]
    right
    rw [decide_eq_false_iff_not]
    intro capital
    have : c.toNat ≤ 0x5A := UInt32.le_iff_toNat_le.1 capital
    omega

theorem isCapital_of_mem_snakeCase {name : String} {c : Char}
    (mem : c ∈ (snakeCase name).toList) : isCapital c = false :=
  isCapital_of_isSettled (isSettled_of_mem_lowerCase mem)

theorem snakeCase_snakeCase (name : String) : snakeCase (snakeCase name) = snakeCase name := by
  rw [snakeCase_of_no_capitals fun c mem => isCapital_of_mem_snakeCase mem, snakeCase,
    lowerCase_lowerCase]

theorem fold_of_isPart {c : Char} (h : isPart c = true) : fold c = c := by
  apply if_neg
  rintro rfl
  exact absurd h (by decide)

theorem isIdentifier_snakeCase_of_isIdentifier {name : String}
    (h : isIdentifier name.toList = true) : isIdentifier (snakeCase name).toList = true := by
  have folded : name.toList.map fold = name.toList := by
    rw [List.map_congr_left fun c mem => fold_of_isPart (isPart_of_mem h mem), List.map_id']
  rw [isIdentifier_snakeCase, folded, h]

/-- The convention is lower-casing behind underscores at all boundaries and no other place. -/
theorem snakeCase_follows_boundaries (name : String) :
    snakeCase name = lowerCase (String.ofList (underscored name.toList)) ∧
      snakeCase (snakeCase name) = snakeCase name ∧
      ((∀ c ∈ name.toList, isCapital c = false) → snakeCase name = lowerCase name) ∧
      (isIdentifier name.toList = true → isIdentifier (snakeCase name).toList = true) := by
  refine ⟨?_, snakeCase_snakeCase name, snakeCase_of_no_capitals,
    isIdentifier_snakeCase_of_isIdentifier⟩
  rw [snakeCase, separate_eq_underscored]

/-- Runs of capitals one after another, and capitals that are no ASCII letters. -/
theorem snakeCase_of_mixed_names :
    (isIdentifier "orderIDsOfEU_aBC".toList = true ∧
      isIdentifier (snakeCase "orderIDsOfEU_aBC").toList = true ∧
      snakeCase "orderIDsOfEU_aBC" = "order_ids_of_eu_a_bc") ∧
    (∀ c ∈ "ÄnderungΣ".toList, isCapital c = false) ∧
      snakeCase "ÄnderungΣ" = lowerCase "ÄnderungΣ" := by
  have identifier : isIdentifier "orderIDsOfEU_aBC".toList = true := by decide +kernel
  have plain : ∀ c ∈ "ÄnderungΣ".toList, isCapital c = false := by simp [isCapital]
  obtain ⟨rule, -, -, keeps⟩ := snakeCase_follows_boundaries "orderIDsOfEU_aBC"
  obtain ⟨-, -, lowers, -⟩ := snakeCase_follows_boundaries "ÄnderungΣ"
  exact ⟨⟨identifier, keeps identifier, rule.trans (by decide +kernel)⟩, plain, lowers plain⟩

end SqlSelect.Naming
