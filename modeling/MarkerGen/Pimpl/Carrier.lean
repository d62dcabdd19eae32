import MarkerGen.Strategy

/-! Carriers: class templates whose parameter defaults name an implementation class and, if
there is one, the interface class in front of it. -/
namespace MarkerGen.Pimpl

structure Carrier where
  implementation : String
  interface : Option String
  deriving DecidableEq, Repr

/-- Reads one template parameter into the settings found so far. -/
def readParam (owner : String) (found : Option String × Option String) (p : TemplateParam) :
    Except GenerationError (Option String × Option String) :=
  if p.kind ≠ .typeParam ∨ p.isPack then
    .error (.invalidInput ("template parameter '" ++ p.name ++ "' of '" ++ owner ++
      "' must be a plain type parameter"))
  else
    let type := (p.fallback.map Text.trim).getD ""
    if type.isEmpty then
      .error (.invalidInput ("template parameter '" ++ p.name ++ "' of '" ++ owner ++ "' needs a default type"))
    else if p.name = "impl" then .ok (some type, found.2)
    else if p.name = "interface" then .ok (found.1, some type)
    else .error (.invalidInput ("unknown template parameter '" ++ p.name ++ "' with value '" ++ type ++ "'"))

def carrier (d : Declaration) : Except GenerationError Carrier :=
  if d.templateParams.isEmpty then
    .error (.invalidInput ("'" ++ d.qualifiedName ++ "' must be a class template with an " ++
      "\x60impl\x60 parameter"))
  else do
    let found ← d.templateParams.foldlM (readParam d.qualifiedName) (none, none)
    match found.1 with
    | none => .error (.invalidInput ("'" ++ d.qualifiedName ++ "' has no \x60impl\x60 template parameter"))
    | some implementation => .ok ⟨implementation, found.2⟩

def Carrier.record (c : Carrier) (u : SourceUnit) : Except GenerationError Declared :=
  match u.findRecord? c.implementation with
  | some record => .ok record
  | none => .error (.missingContext ("implementation class '" ++ c.implementation ++
      "' is not defined in this translation unit"))

end MarkerGen.Pimpl
