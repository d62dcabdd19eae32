import MarkerGen.Text

/-! How generated blocks without a file name of their own are grouped into files. -/
namespace MarkerGen

inductive OutputMode where
  /-- One file for each source file and tag. -/
  | perFile
  /-- One file for each declaration and tag. -/
  | perDeclaration
  deriving DecidableEq, Repr

namespace OutputMode

def name : OutputMode → String
  | .perFile => "per-file"
  | .perDeclaration => "per-declaration"

def all : List OutputMode := [.perFile, .perDeclaration]

def ofName? (name : String) : Option OutputMode := all.find? (·.name == name)

end OutputMode

end MarkerGen
