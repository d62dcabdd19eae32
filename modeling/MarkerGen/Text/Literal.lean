import MarkerGen.Text

/-! Text inside a string literal of generated code. -/
namespace MarkerGen.Text

def escapeChars : List Char → List Char
  | [] => []
  | c :: rest => if c = '\\' ∨ c = '"' then '\\' :: c :: escapeChars rest else c :: escapeChars rest

def escape (s : String) : String := String.ofList (escapeChars s.toList)

/-- Lines, each ended by a line break. -/
def lines (ls : List String) : String := String.join (ls.map (· ++ "\n"))

end MarkerGen.Text
