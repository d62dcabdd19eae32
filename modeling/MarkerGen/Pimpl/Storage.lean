import MarkerGen.Number
import MarkerGen.Strategy

/-! The storage member that holds an implementation object in place. Sizes are 64-bit words. -/
namespace MarkerGen.Pimpl

structure Storage where
  size : Nat
  alignment : Nat
  padding : Nat
  deriving DecidableEq, Repr

namespace Storage

def defaultAlignment : Nat := 8

/-- Arguments read so far; the size has no default. -/
structure Draft where
  size : Option Nat
  alignment : Nat
  padding : Nat
  deriving DecidableEq, Repr

def integer (name value : String) : Except GenerationError Nat :=
  match Number.unsignedWord? 64 10 (Chars.trim value.toList) with
  | some n => .ok n
  | none => .error (.invalidInput ("unable to convert argument '" ++ name ++ "' with value '" ++ value ++
      "' to an integer"))

def readArgument (draft : Draft) (arg : Argument) : Except GenerationError Draft :=
  match arg.name with
  | none => .error (.invalidInput ("unexpected argument '" ++ arg.value ++ "' for inject-pimpl-storage"))
  | some "size" => (integer "size" arg.value).map fun n => { draft with size := some n }
  | some "alignment" => (integer "alignment" arg.value).map fun n => { draft with alignment := n }
  | some "sizePadding" => (integer "sizePadding" arg.value).map fun n => { draft with padding := n }
  | some other => .error (.invalidInput ("unknown argument '" ++ other ++ "' with value '" ++ arg.value ++ "'"))

def isPowerOfTwo (n : Nat) : Bool := (List.range 64).any fun k => n == Number.wordSize k

def parse (m : Marker) : Except GenerationError Storage := do
  let draft ← m.args.foldlM readArgument ⟨none, defaultAlignment, 0⟩
  match draft.size with
  | none => .error (.invalidInput
      "inject-pimpl-storage needs \x60size = <bytes>\x60: the implementation layout is unknown")
  | some size =>
    if isPowerOfTwo draft.alignment then .ok ⟨size, draft.alignment, draft.padding⟩
    else .error (.invalidInput ("alignment " ++ toString draft.alignment ++ " is not a power of two"))

/-- Size with padding, at most the largest word. -/
def total (s : Storage) : Nat := min (s.size + s.padding) (Number.wordSize 64 - 1)

def render (s : Storage) (implementation : String) : String :=
  "::pimpl::FastPimpl<" ++ implementation ++ ", /*Size*/" ++ toString s.total ++ ", /*Alignment*/" ++
    toString s.alignment ++ ", ::pimpl::SizePolicy::AtLeast, ::pimpl::AlignPolicy::AtLeast> impl_;\n"

end Storage

end MarkerGen.Pimpl
