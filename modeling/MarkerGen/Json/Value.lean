/-! JSON values. Objects keep their fields in order and may repeat a name. Numbers are kept as
they are written. A string with a lone surrogate has no text. -/
namespace MarkerGen

inductive Json where
  | null
  | bool (value : Bool)
  | num (literal : String)
  | str (text : Option String)
  | arr (items : List Json)
  | obj (fields : List (Option String × Json))

namespace Json

def text (s : String) : Json := .str (some s)

def nat (n : Nat) : Json := .num (toString n)

def object (fields : List (String × Json)) : Json := .obj (fields.map fun (name, value) => (some name, value))

end Json

end MarkerGen
