import SqlSelect.Text.LowerCase

/-!
Lower-casing a second time changes nothing: no lower-case form has a lower-case form of its own.
The table has too many characters to compare each with each, so the characters that are changed
and the forms they get are laid out as the bits of two numbers, which share no bit.
-/
namespace SqlSelect.Text

theorem forall_ascii {P : Char → Prop} (h : ∀ n < 0x80, P (Char.ofNat n)) {c : Char}
    (ascii : c.toNat < 0x80) : P c := by
  rw [← Char.ofNat_toNat c]
  exact h _ ascii

/-- What `Char.toLower` does is seen on the ASCII characters: it leaves all others alone. -/
theorem forall_toLower {P : Char → Char → Prop}
    (h : ∀ n < 0x80, P (Char.ofNat n) (Char.ofNat n).toLower) (same : ∀ c, P c c) (c : Char) :
    P c c.toLower := by
  by_cases ascii : c.toNat < 0x80
  · exact forall_ascii (P := fun c => P c c.toLower) h ascii
  · have unchanged : c.toLower = c := by
      unfold Char.toLower
      apply dif_neg
      rintro ⟨-, small⟩
      have : c.toNat ≤ 90 := UInt32.le_iff_toNat_le.1 small
      omega
    rw [unchanged]
    exact same c

/-- A code that is no character gives the first one. -/
theorem forall_ofNat {P : Char → Prop} {code : Nat} (h : ∀ c : Char, c.toNat = code → P c)
    (first : P '\x00') : P (Char.ofNat code) := by
  by_cases valid : code.isValidChar
  · rw [Char.ofNat, dif_pos valid]
    exact h _ rfl
  · rw [Char.ofNat, dif_neg valid]
    exact first

/-! Lists of codes as bits. -/

def bits (codes : List Nat) : Nat := codes.foldr (fun code rest => rest ||| 1 <<< code) 0

theorem testBit_bits {codes : List Nat} {n : Nat} :
    (bits codes).testBit n = true ↔ n ∈ codes := by
  induction codes with
  | nil => simp [bits]
  | cons code codes ih =>
    have step : bits (code :: codes) = bits codes ||| 1 <<< code := rfl
    rw [step, Nat.testBit_or, Bool.or_eq_true, ih, Nat.one_shiftLeft, Nat.testBit_two_pow,
      decide_eq_true_eq, List.mem_cons, or_comm, eq_comm]

theorem not_mem_of_bits {first second : List Nat} (h : bits first &&& bits second = 0) {n : Nat}
    (mem : n ∈ first) : n ∉ second := by
  intro both
  have shared : (bits first &&& bits second).testBit n = true := by
    rw [Nat.testBit_and, testBit_bits.2 mem, testBit_bits.2 both]
    rfl
  rw [h, Nat.zero_testBit] at shared
  exact Bool.false_ne_true shared

/-! The table of lower-case forms. -/

def CaseRun.codes (run : CaseRun) : List Nat :=
  (List.range ((run.last - run.first) / run.step + 1)).map (run.first + · * run.step)

theorem CaseRun.mem_codes {run : CaseRun} {code : Nat} (h : run.covers code = true) :
    code ∈ run.codes := by
  simp only [covers, Bool.and_eq_true, decide_eq_true_eq, beq_iff_eq] at h
  obtain ⟨⟨from_first, to_last⟩, steps⟩ := h
  have whole := Nat.div_mul_cancel (Nat.dvd_of_mod_eq_zero steps)
  have within := Nat.div_le_div_right (c := run.step) (Nat.sub_le_sub_right to_last run.first)
  refine List.mem_map.2 ⟨(code - run.first) / run.step, List.mem_range.2 (by omega), ?_⟩
  rw [whole, Nat.add_sub_cancel' from_first]

/-- The lower-case forms of the run. -/
def CaseRun.forms (run : CaseRun) : List Nat :=
  run.codes.map fun code : Nat => (code + run.distance).toNat

/-- A character without a lower-case form of its own; the dotted capital I has one that is not in
the table. -/
def IsLowered (code : Nat) : Prop :=
  code ≠ 0x130 ∧ ∀ run ∈ lowerRuns, run.covers code = false

theorem isLowered_of_mem_forms {run : CaseRun} (mem : run ∈ lowerRuns) {code : Nat}
    (h : code ∈ run.forms) : IsLowered code := by
  have none : bits (lowerRuns.flatMap CaseRun.forms) &&&
      bits (0x130 :: lowerRuns.flatMap CaseRun.codes) = 0 := by decide +kernel
  have apart := not_mem_of_bits none (List.mem_flatMap.2 ⟨run, mem, h⟩)
  constructor
  · rintro rfl
    exact apart List.mem_cons_self
  · intro other there
    rw [← Bool.not_eq_true]
    intro covers
    exact apart (List.mem_cons_of_mem _
      (List.mem_flatMap.2 ⟨other, there, CaseRun.mem_codes covers⟩))

theorem isLowered_lowerCode {code : Nat} (h : code ≠ 0x130) : IsLowered (lowerCode code) := by
  unfold lowerCode
  split
  · next run found =>
    have covers := List.find?_some found
    exact isLowered_of_mem_forms (List.mem_of_find?_eq_some found)
      (List.mem_map.2 ⟨code, CaseRun.mem_codes covers, rfl⟩)
  · next none => exact ⟨h, fun run mem => by simpa using List.find?_eq_none.1 none run mem⟩

theorem IsLowered.lowerCode_eq {code : Nat} (h : IsLowered code) : lowerCode code = code := by
  have none : lowerRuns.find? (·.covers code) = none :=
    List.find?_eq_none.2 fun run mem => by simp [h.2 run mem]
  rw [lowerCode, none]

/-! Texts that lower-casing leaves as they are. -/

/-- Lower-casing leaves the character as it is, wherever it stands; only of the capital sigma does
it depend on the place what becomes of it. -/
def IsSettled (c : Char) : Prop := c.toNat ≠ 0x3A3 ∧ lowerChar c = [c]

instance (c : Char) : Decidable (IsSettled c) := inferInstanceAs (Decidable (_ ∧ _))

theorem toLower_of_isLowered {c : Char} (h : IsLowered c.toNat) : c.toLower = c := by
  -- the ASCII capitals are the first run of the table
  have outside := h.2 ⟨0x41, 0x5A, 1, 32⟩ List.mem_cons_self
  unfold Char.toLower
  apply dif_neg
  rintro ⟨from_first, to_last⟩
  have first : 0x41 ≤ c.toNat := UInt32.le_iff_toNat_le.1 from_first
  have last : c.toNat ≤ 0x5A := UInt32.le_iff_toNat_le.1 to_last
  simp [CaseRun.covers, first, last, Nat.mod_one] at outside

theorem isSettled_of_isLowered {c : Char} (h : IsLowered c.toNat) : IsSettled c := by
  constructor
  · intro sigma
    have covered : ∃ run ∈ lowerRuns, run.covers 0x3A3 = true := by decide +kernel
    obtain ⟨run, mem, covers⟩ := covered
    rw [← sigma, h.2 run mem] at covers
    exact Bool.false_ne_true covers
  · unfold lowerChar
    split
    · rw [toLower_of_isLowered h]
    · rw [if_neg h.1, h.lowerCode_eq, Char.ofNat_toNat]

theorem isSettled_ofNat {code : Nat} (h : IsLowered code) : IsSettled (Char.ofNat code) :=
  forall_ofNat (fun _ same => isSettled_of_isLowered (same ▸ h)) (by decide)

theorem isSettled_of_mem_lowerChar {c x : Char} (h : x ∈ lowerChar c) : IsSettled x := by
  unfold lowerChar at h
  split at h
  · next ascii =>
    rw [List.mem_singleton.1 h]
    exact forall_ascii (P := fun c => IsSettled c.toLower) (by decide +kernel) ascii
  · split at h
    · have both : IsSettled 'i' ∧ IsSettled '\u0307' := by decide +kernel
      rcases List.mem_cons.1 h with rfl | h
      · exact both.1
      · exact List.mem_singleton.1 h ▸ both.2
    · next plain =>
      rw [List.mem_singleton.1 h]
      exact isSettled_ofNat (isLowered_lowerCode plain)

theorem isSettled_of_mem_lowerFrom {cs before : List Char} {x : Char}
    (h : x ∈ lowerFrom before cs) : IsSettled x := by
  induction cs generalizing before with
  | nil => simp [lowerFrom] at h
  | cons c cs ih =>
    rw [lowerFrom] at h
    rcases List.mem_append.1 h with here | later
    · split at here
      · have both : IsSettled '\u03C2' ∧ IsSettled '\u03C3' := by decide +kernel
        split at here
        · exact List.mem_singleton.1 here ▸ both.1
        · exact List.mem_singleton.1 here ▸ both.2
      · exact isSettled_of_mem_lowerChar here
    · exact ih later

theorem lowerFrom_of_isSettled {cs : List Char} (h : ∀ c ∈ cs, IsSettled c)
    (before : List Char) : lowerFrom before cs = cs := by
  induction cs generalizing before with
  | nil => rfl
  | cons c cs ih =>
    obtain ⟨first, others⟩ := List.forall_mem_cons.1 h
    rw [lowerFrom, if_neg first.1, first.2, ih others]
    rfl

theorem isSettled_of_mem_lowerCase {s : String} {c : Char} (h : c ∈ (lowerCase s).toList) :
    IsSettled c := by
  rw [lowerCase, String.toList_ofList] at h
  exact isSettled_of_mem_lowerFrom h

theorem lowerCase_lowerCase (s : String) : lowerCase (lowerCase s) = lowerCase s := by
  rw [lowerCase, lowerFrom_of_isSettled (fun c mem => isSettled_of_mem_lowerCase mem),
    String.ofList_toList]

end SqlSelect.Text
