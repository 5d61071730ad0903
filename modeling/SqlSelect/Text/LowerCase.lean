import SqlSelect.Text.CaseTable

/-! Full Unicode lower-casing. Two characters need more than a table: a capital sigma at the end
of a word becomes a final sigma, and the dotted capital I becomes two characters. -/
namespace SqlSelect.Text

/-- The one-character lower-case form; a character without one is its own. -/
def lowerCode (code : Nat) : Nat :=
  match lowerRuns.find? (·.covers code) with
  | some run => (code + run.distance).toNat
  | none => code

def lowerChar (c : Char) : List Char :=
  if c.toNat < 0x80 then [c.toLower]
  else if c.toNat = 0x130 then ['i', '\u0307']
  else [Char.ofNat (lowerCode c.toNat)]

/-- A cased letter comes first in the list, after characters that are passed over. -/
def casedAhead (cs : List Char) : Bool :=
  match cs.dropWhile isIgnorable with
  | [] => false
  | c :: _ => isCased c

/-- Lower-cases the rest of a text; the first argument is the text before it, last character
first. -/
def lowerFrom : List Char → List Char → List Char
  | _, [] => []
  | before, c :: rest =>
    (if c.toNat = 0x3A3 then
      if casedAhead before && !casedAhead rest then ['\u03C2'] else ['\u03C3']
    else lowerChar c) ++ lowerFrom (c :: before) rest

def lowerCase (s : String) : String := String.ofList (lowerFrom [] s.toList)

example : lowerCase "ΟΔΟΣ ΣΑΣ" = "οδος σας" := by decide +kernel

end SqlSelect.Text
