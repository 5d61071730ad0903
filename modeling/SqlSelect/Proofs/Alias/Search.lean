import SqlSelect.Alias
import SqlSelect.Identifier

/-!
The search for an alias finds the first candidate that is not taken. Searching again and again,
with one name taken from the start, gives the candidates in their order with that name left out.
-/
namespace SqlSelect.Alias

structure IsFirstFree (taken : List String) (base : String) (k : Nat) : Prop where
  free : candidate base k ∉ taken
  least : ∀ j < k, candidate base j ∈ taken

theorem IsFirstFree.unique {taken : List String} {base : String} {i k : Nat}
    (hi : IsFirstFree taken base i) (hk : IsFirstFree taken base k) : i = k := by
  rcases Nat.lt_trichotomy i k with lt | eq | gt
  · exact absurd (hk.least i lt) hi.free
  · exact eq
  · exact absurd (hi.least k gt) hk.free

def candidates (base : String) (n : Nat) : List String := (List.range n).map (candidate base)

@[simp] theorem length_candidates (base : String) (n : Nat) : (candidates base n).length = n := by
  simp [candidates]

theorem mem_candidates {base name : String} {n : Nat} :
    name ∈ candidates base n ↔ ∃ j < n, candidate base j = name := by
  simp [candidates]

theorem candidates_succ (base : String) (n : Nat) :
    candidates base (n + 1) = candidates base n ++ [candidate base n] := by
  simp [candidates, List.range_succ]

theorem nodup_candidates (base : String) (n : Nat) : (candidates base n).Nodup := by
  have distinct : ∀ i j, i ≠ j → candidate base i ≠ candidate base j := by
    intro i j ne same
    exact ne (candidate_injective base same)
  exact List.Pairwise.map _ distinct (List.nodup_range (n := n))

/-- So many names cannot take one candidate more. -/
theorem lt_length_of_taken {taken : List String} {base : String} {n : Nat}
    (h : ∀ j ≤ n, candidate base j ∈ taken) : n < taken.length := by
  have sub : candidates base (n + 1) ⊆ taken := by
    intro name mem
    obtain ⟨j, lt, rfl⟩ := mem_candidates.1 mem
    exact h j (Nat.le_of_lt_succ lt)
  simpa [Nat.succ_le_iff] using (nodup_candidates base (n + 1)).length_le_of_subset sub

/-- The induction is on the tries that are left; the candidates passed so far are all taken. -/
theorem firstFreeFrom_isFirstFree {taken : List String} {base : String} (tries n : Nat)
    (passed : ∀ j < n, candidate base j ∈ taken) (enough : taken.length ≤ n + tries) :
    ∃ k ≤ n + tries, firstFreeFrom taken base tries n = candidate base k ∧
      IsFirstFree taken base k := by
  induction tries generalizing n with
  | zero =>
    have free : candidate base n ∉ taken := by
      intro last
      have all : ∀ j ≤ n, candidate base j ∈ taken := by
        intro j le
        rcases Nat.lt_or_eq_of_le le with lt | rfl
        · exact passed j lt
        · exact last
      have := lt_length_of_taken all
      omega
    exact ⟨n, Nat.le_refl n, rfl, free, passed⟩
  | succ tries ih =>
    unfold firstFreeFrom
    split
    · next here =>
      have all : ∀ j < n + 1, candidate base j ∈ taken := fun j lt =>
        (Nat.lt_succ_iff_lt_or_eq.1 lt).elim (passed j) (fun eq => eq ▸ here)
      obtain ⟨k, le, same, first⟩ := ih (n + 1) all (by omega)
      exact ⟨k, by omega, same, first⟩
    · next free => exact ⟨n, by omega, rfl, free, passed⟩

theorem firstFree_isFirstFree (taken : List String) (base : String) :
    ∃ k ≤ taken.length, firstFree taken base = candidate base k ∧ IsFirstFree taken base k := by
  simpa [firstFree] using
    @firstFreeFrom_isFirstFree taken base taken.length 0 (by simp) (by simp)

theorem firstFree_eq {taken : List String} {base : String} {k : Nat}
    (h : IsFirstFree taken base k) : firstFree taken base = candidate base k := by
  obtain ⟨j, -, same, first⟩ := firstFree_isFirstFree taken base
  rw [same, first.unique h]

open Identifier in
theorem isIdentifier_candidate {base : String} (h : isIdentifier base.toList = true) (k : Nat) :
    isIdentifier (candidate base k).toList = true := by
  cases k with
  | zero => exact h
  | succ k =>
    have digits : (Nat.toDigits 10 (k + 1)).all isPart = true := by
      rw [List.all_eq_true]
      intro c mem
      have := Nat.isDigit_of_mem_toDigits (by decide) (by decide) mem
      simp [isPart, Char.isAlphanum, this]
    unfold candidate
    rw [String.toList_append, String.toList_ofList]
    cases chars : base.toList with
    | nil => simp [chars, isIdentifier] at h
    | cons c rest => simpa [chars, isIdentifier, digits] using h

/-- The first candidates, as many as asked for, with one name left out; that name is at most one
of the candidates. -/
def sequenceWithout (excluded base : String) (n : Nat) : List String :=
  ((candidates base (n + 1)).filter (· != excluded)).take n

example : sequenceWithout "j1" "j" 3 = ["j", "j2", "j3"] := by decide +kernel

theorem candidate_not_mem_candidates {base : String} {n k : Nat} (h : n ≤ k) :
    candidate base k ∉ candidates base n := by
  intro mem
  obtain ⟨j, lt, same⟩ := mem_candidates.1 mem
  have := candidate_injective base same
  omega

/-- The name left out lies among the first candidates. -/
private theorem sequenceWithout_of_mem {excluded base : String} {n : Nat}
    (h : excluded ∈ candidates base (n + 1)) :
    sequenceWithout excluded base n = (candidates base (n + 1)).filter (· != excluded) := by
  have count : ((candidates base (n + 1)).filter (· != excluded)).length = n := by
    have erased := List.length_erase_of_mem h
    rw [(nodup_candidates base (n + 1)).erase_eq_filter] at erased
    simpa using erased
  exact List.take_of_length_le (Nat.le_of_eq count)

private theorem sequenceWithout_of_not_mem {excluded base : String} {n : Nat}
    (h : excluded ∉ candidates base (n + 1)) :
    sequenceWithout excluded base n = candidates base n := by
  have all : (candidates base (n + 1)).filter (· != excluded) = candidates base (n + 1) :=
    List.filter_eq_self.2 fun name mem => by
      simpa using fun same : name = excluded => h (same ▸ mem)
  rw [sequenceWithout, all, candidates_succ]
  simp

/-- The next name of the sequence is what a search finds that knows the earlier ones. -/
theorem sequenceWithout_succ (excluded base : String) (n : Nat) :
    sequenceWithout excluded base (n + 1) = sequenceWithout excluded base n ++
      [firstFree (excluded :: sequenceWithout excluded base n) base] := by
  by_cases h : excluded ∈ candidates base (n + 1)
  · have later : excluded ∈ candidates base (n + 2) := by
      rw [candidates_succ]
      exact List.mem_append_left _ h
    have next : candidate base (n + 1) ≠ excluded := by
      rintro rfl
      exact candidate_not_mem_candidates (Nat.le_refl (n + 1)) h
    have first : IsFirstFree (excluded :: sequenceWithout excluded base n) base (n + 1) := by
      rw [sequenceWithout_of_mem h]
      constructor
      · intro mem
        rcases List.mem_cons.1 mem with same | kept
        · exact next same
        · exact candidate_not_mem_candidates (Nat.le_refl _) (List.mem_filter.1 kept).1
      · intro j lt
        by_cases same : candidate base j = excluded
        · exact same ▸ List.mem_cons_self
        · exact List.mem_cons_of_mem _
            (List.mem_filter.2 ⟨mem_candidates.2 ⟨j, lt, rfl⟩, by simpa using same⟩)
    rw [firstFree_eq first, sequenceWithout_of_mem later, sequenceWithout_of_mem h,
      candidates_succ base (n + 1), List.filter_append]
    simp [next]
  · have first : IsFirstFree (excluded :: sequenceWithout excluded base n) base n := by
      rw [sequenceWithout_of_not_mem h]
      constructor
      · intro mem
        rcases List.mem_cons.1 mem with same | kept
        · exact h (mem_candidates.2 ⟨n, Nat.lt_succ_self n, same⟩)
        · exact candidate_not_mem_candidates (Nat.le_refl n) kept
      · intro j lt
        exact List.mem_cons_of_mem _ (mem_candidates.2 ⟨j, lt, rfl⟩)
    have kept : (candidates base (n + 1)).filter (· != excluded) = candidates base (n + 1) := by
      apply List.filter_eq_self.2
      intro name mem
      have different : name ≠ excluded := by
        rintro rfl
        exact h mem
      simpa using different
    rw [firstFree_eq first, sequenceWithout_of_not_mem h, ← candidates_succ, sequenceWithout,
      candidates_succ base (n + 1), List.filter_append, kept]
    simp

@[simp] theorem sequenceWithout_zero (excluded base : String) :
    sequenceWithout excluded base 0 = [] := by
  simp [sequenceWithout]

theorem length_sequenceWithout (excluded base : String) (n : Nat) :
    (sequenceWithout excluded base n).length = n := by
  induction n with
  | zero => simp
  | succ n ih => simp [sequenceWithout_succ, ih]

/-- The names are different from one another and from the one left out. -/
theorem nodup_sequenceWithout (excluded base : String) (n : Nat) :
    (excluded :: sequenceWithout excluded base n).Nodup := by
  have sub := List.take_sublist n ((candidates base (n + 1)).filter (· != excluded))
  apply List.nodup_cons.2
  constructor
  · intro mem
    have := List.mem_filter.1 (sub.subset mem)
    simp at this
  · exact ((nodup_candidates base (n + 1)).filter _).sublist sub

theorem isIdentifier_of_mem_sequenceWithout {excluded base name : String} {n : Nat}
    (h : Identifier.isIdentifier base.toList = true)
    (mem : name ∈ sequenceWithout excluded base n) :
    Identifier.isIdentifier name.toList = true := by
  have kept := List.mem_of_mem_take mem
  obtain ⟨j, -, rfl⟩ := mem_candidates.1 (List.mem_filter.1 kept).1
  exact isIdentifier_candidate h j

end SqlSelect.Alias
