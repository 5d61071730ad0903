/-! Blank text: nothing but white space and line ends. The class is wider than core's
`Char.isWhitespace`: it holds every Unicode space separator, the two Unicode line ends and
the byte order mark. -/
namespace SqlSelect.Text

/-- White space, a line end, or the byte order mark. -/
def blankChar (c : Char) : Bool :=
  (0x09 ≤ c.toNat && c.toNat ≤ 0x0D) || c.toNat == 0x20 || c.toNat == 0xA0 ||
  c.toNat == 0x1680 || (0x2000 ≤ c.toNat && c.toNat ≤ 0x200A) || c.toNat == 0x2028 ||
  c.toNat == 0x2029 || c.toNat == 0x202F || c.toNat == 0x205F || c.toNat == 0x3000 ||
  c.toNat == 0xFEFF

def isBlank (s : String) : Bool := s.toList.all blankChar

@[simp] theorem isBlank_empty : isBlank "" = true := rfl

theorem isBlank_append (s t : String) : isBlank (s ++ t) = (isBlank s && isBlank t) := by
  simp [isBlank]

theorem isBlank_of_mem {s : String} {c : Char} (mem : c ∈ s.toList) (h : blankChar c = false) :
    isBlank s = false :=
  List.all_eq_false.2 ⟨c, mem, by simp [h]⟩

end SqlSelect.Text
