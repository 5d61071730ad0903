/-! Lengths and cuts in UTF-16 code units: a character beyond the basic plane counts twice. -/
namespace SqlSelect.Text

def charUnits (c : Char) : Nat := if c.toNat < 0x10000 then 1 else 2

def listUnits : List Char → Nat
  | [] => 0
  | c :: cs => charUnits c + listUnits cs

def units (s : String) : Nat := listUnits s.toList

/-- The longest start of the text that fits into `room` units; a character that would be
split is left out. -/
def takeUnits : Nat → List Char → List Char
  | _, [] => []
  | room, c :: cs => if charUnits c ≤ room then c :: takeUnits (room - charUnits c) cs else []

/-- The text up to the unit position `stop`; a negative position counts from the end. -/
def sliceTo (s : String) (stop : Int) : String :=
  let room := if stop < 0 then (units s + stop).toNat else stop.toNat
  String.ofList (takeUnits room s.toList)

end SqlSelect.Text
