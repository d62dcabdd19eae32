import MarkerGen.Pimpl.Carrier
import MarkerGen.Pimpl.Forwarding
import MarkerGen.Pimpl.Storage

/-! The three capabilities for implementation classes behind a pointer: a report of what is
passed on, the methods that pass it on, and the storage member. -/
namespace MarkerGen.Pimpl

/-- A carrier with its implementation class, which must have methods. -/
def resolve (r : Request) : Except Fault (Carrier × Declared) := do
  let settings ← complaining (carrier r.decl)
  let record ← complaining (settings.record r.unit)
  if ← looking (r.unit.anyMethod record.decl.children) then return (settings, record)
  else throw (.complaint (.unsupported ("no methods in '" ++ record.decl.qualifiedName ++ "'")))

def report (r : Request) : Except Fault (List Code) := do
  match r.marker.args with
  | arg :: _ =>
    throw (.complaint (.invalidInput (r.capability.text ++ " takes no arguments, got '" ++ arg.value ++ "'")))
  | [] =>
    let (settings, record) ← resolve r
    let signatures ← forwardable r.unit record.decl fun method => .ok (signature method.decl none)
    let behind := match settings.interface with
      | some interface => " behind " ++ interface
      | none => ""
    return [.ofText ("// pimpl: " ++ settings.implementation ++ behind ++ ", " ++ toString signatures.length ++
      " forwarded method(s)\n" ++ String.join (signatures.map fun signature => "//   " ++ signature ++ "\n"))]

def withoutBody (args : List Argument) : Except GenerationError Bool :=
  args.foldlM (fun _ arg =>
    if arg.name = none ∧ arg.value = "without_method_body" then .ok true
    else .error (.invalidInput ("unknown argument '" ++ arg.name.getD "" ++ "' with value '" ++ arg.value ++ "'")))
    false

def methodCalls (r : Request) : Except Fault (List Code) := do
  let withoutBody ← complaining (withoutBody r.marker.args)
  let (settings, record) ← resolve r
  let texts ← forwardable r.unit record.decl fun method =>
    complaining (forward settings.interface withoutBody method.decl)
  return [.ofText (String.join texts)]

def storage (r : Request) : Except Fault (List Code) := do
  let settings ← complaining (carrier r.decl)
  let storage ← complaining (Storage.parse r.marker)
  return [.ofText (storage.render settings.implementation)]

end MarkerGen.Pimpl
