import MarkerGen.Text

/-! The name of a capability. Names that differ only in letter case, in blanks around them
or in `_` for `-` are one tag. -/
namespace MarkerGen

structure Tag where
  text : String
  deriving DecidableEq, Repr, Inhabited

namespace Tag

def normalize (name : List Char) : List Char :=
  (Chars.lower (Chars.trim name)).map fun c => if c = '_' then '-' else c

def ofText (name : String) : Tag := ⟨String.ofList (normalize name.toList)⟩

end Tag

end MarkerGen
