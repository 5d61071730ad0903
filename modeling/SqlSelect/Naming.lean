import SqlSelect.Text.LowerCase

/-! The naming convention for what has no declared name: an underscore goes between a small
letter and the run of capitals after it, then everything is lower-cased. -/
namespace SqlSelect.Naming

/-- The convention looks at ASCII letters only. -/
def isSmall (c : Char) : Bool := 'a' ≤ c && c ≤ 'z'

def isCapital (c : Char) : Bool := 'A' ≤ c && c ≤ 'Z'

/-- Passes over the text from left to right and takes each run of capitals as a whole. -/
def separate : List Char → List Char
  | [] => []
  | c :: rest =>
    let run := rest.takeWhile isCapital
    if isSmall c && !run.isEmpty then
      c :: '_' :: run ++ separate (rest.dropWhile isCapital)
    else c :: separate rest
termination_by s => s.length
decreasing_by
  · have := (List.dropWhile_sublist isCapital (l := rest)).length_le
    simp only [List.length_cons]
    omega
  · simp

def snakeCase (name : String) : String :=
  Text.lowerCase (String.ofList (separate name.toList))

example : snakeCase "customerID" = "customer_id" := by cbv

example : snakeCase "HTTPServer" = "httpserver" := by cbv

end SqlSelect.Naming
