import Mathlib.Data.Finset.Card
import SqlSelect.Proofs.Alias.Search

/-!
The search for an alias as it looks names up, one after the other. Nothing but the answers ends it:
a search that has used up the lookups it is allowed has no result yet. Finitely many names cannot
take all candidates, no two of which are equal, so one lookup more than there are names is enough.
-/
namespace SqlSelect.Alias

/-- The names that a search looked up, in this order, and the one that was free. -/
structure Probe where
  asked : List String
  name : String
deriving DecidableEq, Repr

/-- Looks up the candidates from `n` on until one is free, so many of them at most. -/
def probeFrom (isTaken : String → Bool) (base : String) : (lookups n : Nat) → Option Probe
  | 0, _ => none
  | lookups + 1, n =>
    if isTaken (candidate base n) then
      (probeFrom isTaken base lookups (n + 1)).map fun rest =>
        { rest with asked := candidate base n :: rest.asked }
    else some { asked := [candidate base n], name := candidate base n }

/-- The search ends at the first free candidate if it may look that one up. The induction is on the
taken candidates before it, each of which costs one lookup. -/
theorem probeFrom_eq {isTaken : String → Bool} {base : String} {passed n : Nat}
    (taken : ∀ j < passed, isTaken (candidate base (n + j)) = true)
    (free : isTaken (candidate base (n + passed)) = false) (lookups : Nat) :
    probeFrom isTaken base lookups n =
      if passed < lookups then
        some { asked := (List.range' n (passed + 1)).map (candidate base)
               name := candidate base (n + passed) }
      else none := by
  induction passed generalizing n lookups with
  | zero =>
    cases lookups with
    | zero => rfl
    | succ lookups =>
      rw [Nat.add_zero] at free
      rw [probeFrom, free, if_pos (Nat.succ_pos lookups)]
      rfl
  | succ passed ih =>
    cases lookups with
    | zero => rfl
    | succ lookups =>
      have first : isTaken (candidate base n) = true := taken 0 (Nat.succ_pos passed)
      have others : ∀ j < passed, isTaken (candidate base (n + 1 + j)) = true := by
        intro j lt
        rw [Nat.add_right_comm, Nat.add_assoc]
        exact taken (j + 1) (Nat.succ_lt_succ lt)
      have next : n + (passed + 1) = n + 1 + passed := by omega
      rw [next] at free ⊢
      rw [probeFrom, if_pos first, ih others free, List.range'_succ]
      simp only [Nat.add_lt_add_iff_right]
      split <;> rfl

/-- The candidates before the first free one are different names, and all are taken. -/
theorem IsFirstFree.le_card {taken : List String} {base : String} {k : Nat}
    (h : IsFirstFree taken base k) : k ≤ taken.toFinset.card := by
  cases k with
  | zero => exact Nat.zero_le _
  | succ last =>
    rw [List.card_toFinset]
    apply lt_length_of_taken
    intro j le
    exact List.mem_dedup.2 (h.least j (Nat.lt_succ_of_le le))

/-- However many names are taken, the search comes to an end, one lookup behind them at the
latest. -/
theorem probe_comes_to_end (taken : List String) (base : String) :
    ∃ k ≤ taken.toFinset.card,
      (∀ lookups, probeFrom (fun name => decide (name ∈ taken)) base lookups 0 =
        if k < lookups then
          some { asked := candidates base (k + 1), name := candidate base k }
        else none) ∧
      firstFree taken base = candidate base k ∧
      candidate base k ∉ taken ∧ (∀ j < k, candidate base j ∈ taken) ∧
      (checkAlias base = .ok () → checkAlias (candidate base k) = .ok ()) := by
  obtain ⟨k, -, same, first⟩ := firstFree_isFirstFree taken base
  refine ⟨k, first.le_card, ?_, same, first.free, first.least, ?_⟩
  · intro lookups
    have earlier : ∀ j < k, decide (candidate base (0 + j) ∈ taken) = true := by
      intro j lt
      simpa using first.least j lt
    have free : decide (candidate base (0 + k) ∈ taken) = false := by
      simpa using first.free
    rw [probeFrom_eq earlier free, candidates, List.range_eq_range', Nat.zero_add]
  · intro valid
    exact checkAlias_eq_ok.2 (isIdentifier_candidate (checkAlias_eq_ok.1 valid) k)

/-- The base ends in a digit itself, and one name is listed twice. -/
theorem probe_of_numbered_base : checkAlias "j1" = .ok () ∧
    probeFrom (fun name => decide (name ∈ ["j11", "j1", "j12", "j1"])) "j1" 4 0 =
      some { asked := ["j1", "j11", "j12", "j13"], name := "j13" } ∧
    checkAlias "j13" = .ok () := by
  have valid : checkAlias "j1" = .ok () := by decide +kernel
  obtain ⟨k, -, ends, same, -, -, keeps⟩ :=
    probe_comes_to_end ["j11", "j1", "j12", "j1"] "j1"
  have found : candidate "j1" k = candidate "j1" 3 := by
    rw [← same]
    decide +kernel
  obtain rfl := candidate_injective "j1" found
  exact ⟨valid, (ends 4).trans (by decide +kernel), keeps valid⟩

end SqlSelect.Alias
