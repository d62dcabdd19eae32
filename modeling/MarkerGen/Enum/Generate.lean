import MarkerGen.Enum.Render

/-! The two capabilities for enumerations: conversions to and from strings, and to and from
JSON. Both take a text to be left out at the front of the labels. -/
namespace MarkerGen.Enum

/-- The name of the only argument. -/
def leadArgument : String := "prefix"

def checkArgument (tag : Tag) (arg : Argument) : Except GenerationError Unit :=
  match arg.name with
  | none => .error (.invalidInput ("unexpected argument '" ++ arg.value ++ "' for " ++ tag.text))
  | some name =>
    if name = leadArgument then .ok ()
    else .error (.invalidInput ("unknown argument '" ++ name ++ "' for " ++ tag.text))

def generateWith (render : Table → String) (r : Request) : Except Fault (List Code) := do
  complaining (r.marker.args.forM (checkArgument r.capability))
  let table ← table r.decl (r.marker.arg? leadArgument)
  return [.ofText (render table)]

def toStringStrategy : Strategy := Reply.ofResult ∘ generateWith stringConversions

def toJsonStrategy : Strategy := Reply.ofResult ∘ generateWith jsonConversions

end MarkerGen.Enum
