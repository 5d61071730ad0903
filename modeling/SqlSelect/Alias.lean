/-! Finding an alias that nobody has taken yet: the base itself, or the base with the least
positive number after it. -/
namespace SqlSelect.Alias

def candidate (base : String) : Nat → String
  | 0 => base
  | n + 1 => base ++ String.ofList (Nat.toDigits 10 (n + 1))

/-- Tries the candidates from `n` on and gives up the search, not the answer, after `tries` of
them. -/
def firstFreeFrom (taken : List String) (base : String) : (tries n : Nat) → String
  | 0, n => candidate base n
  | tries + 1, n =>
    if candidate base n ∈ taken then firstFreeFrom taken base tries (n + 1) else candidate base n

/-- The first candidate that is not taken; so many names cannot take one candidate more. -/
def firstFree (taken : List String) (base : String) : String :=
  firstFreeFrom taken base taken.length 0

example : firstFree ["j", "j1", "j3"] "j" = "j2" := by decide +kernel

@[simp] theorem candidate_zero (base : String) : candidate base 0 = base := rfl

theorem candidate_injective (base : String) {m n : Nat} (h : candidate base m = candidate base n) :
    m = n := by
  have ne (k : Nat) : candidate base (k + 1) ≠ base := by
    intro h
    have := congrArg (fun s => s.toList.length) h
    simp [candidate] at this
  match m, n with
  | 0, 0 => rfl
  | 0, n + 1 => exact absurd h.symm (ne n)
  | m + 1, 0 => exact absurd h (ne m)
  | m + 1, n + 1 =>
    have h := congrArg String.toList h
    simp only [candidate, String.toList_append, String.toList_ofList,
      List.append_cancel_left_eq] at h
    have := congrArg (Nat.ofDigitChars 10 · 0) h
    simpa [Nat.ofDigitChars_ten_toDigits] using this

end SqlSelect.Alias
