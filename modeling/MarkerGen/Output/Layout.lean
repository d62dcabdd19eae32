import MarkerGen.Chars.Utf8
import MarkerGen.Digest
import MarkerGen.Output.Mode
import MarkerGen.RunError
import MarkerGen.Strategy

/-! Where generated blocks go. A block goes to the file it asks for, or else to a file that is
named after its source, its tag and, in one mode, its declaration; the blocks of such a file
follow each other in source order. -/
namespace MarkerGen

structure Section where
  plugin : String
  pluginVersion : String
  capability : Tag
  declaration : String
  location : Location
  code : Code
  deriving DecidableEq, Repr

namespace Section

def origin (s : Section) : String := s.plugin ++ " [" ++ s.capability.text ++ "] " ++ s.declaration

def header (s : Section) : String :=
  "// Generated by flextool: " ++ s.plugin ++ " " ++ s.pluginVersion ++ " [" ++ s.capability.text ++ "] " ++
    s.declaration ++ ". Do not edit."

def render (s : Section) : String :=
  let text := s.header ++ "\n" ++ s.code.contents
  if text.toList.getLast? = some '\n' then text else text ++ "\n"

def attempt (s : Section) : Attempt := ⟨s.plugin, s.capability, s.declaration, s.location⟩

end Section

structure Fragment where
  input : Path
  output : Path
  contents : String
  fingerprint : String
  origin : String
  deriving DecidableEq, Repr

def Fragment.ofText (input output : Path) (contents origin : String) : Fragment :=
  ⟨input, output, contents, Digest.fingerprint contents.toUTF8, origin⟩

/-- A file name that a strategy asks for and cannot have. -/
inductive TargetFault where
  | outside (name : String)
  | empty (name : String)
  deriving DecidableEq, Repr

def TargetFault.message : TargetFault → String
  | .outside name =>
    "output file name '" ++ name ++ "' must be relative and stay inside the output directory"
  | .empty name => "output file name '" ++ name ++ "' is empty"

structure Layout where
  mode : OutputMode
  inDir : Option Path
  defaultExtension : String

namespace Layout

/-- A layout, with an extension that may be written with leading dots. -/
def make (mode : OutputMode) (inDir : Option Path) (extension : String) : Layout :=
  ⟨mode, inDir, String.ofList (extension.toList.dropWhile (· == '.'))⟩

/-- An input as seen from the input directory, or its file name if it lies elsewhere. -/
def sourcePath (l : Layout) (input : Path) : Path :=
  let inside := l.inDir.bind (Path.relativeTo? · input)
  match inside with
  | some below => if below.text.isEmpty then named else below
  | none => named
where
  named : Path := match input.fileName? with
    | some name => ⟨name⟩
    | none => input

def explicitTarget (name : String) : Except TargetFault Path :=
  let components := (Path.mk name).components
  let names := components.filterMap fun
    | .name text => some text
    | _ => none
  if (Path.mk name).isConfined then
    if names.isEmpty then .error (.empty name) else .ok (.ofNames names)
  else .error (.outside name)

def isPlainChar (c : Char) : Bool := c.isAlphanum || c == '.' || c == '_' || c == '-' || c == '~'

def nameComponent (qualifiedName : String) : String :=
  let dotted := ['.'].intercalate (Chars.splitPair ':' ':' qualifiedName.toList)
  String.ofList (dotted.map fun c => if isPlainChar c then c else '_')

def extensionOf (l : Layout) (code : Code) : String :=
  match code.extension with
  | some extension => if extension.isEmpty then l.defaultExtension else extension
  | none => l.defaultExtension

/-- The file that is named after the source of a block. The name of a source is bytes, and what of
them is no text is lost. -/
def derivedIn (l : Layout) (parent : Path) (bytes : List UInt8) (s : Section) : Path :=
  let name := Utf8.lossy bytes
  let tail := "." ++ s.capability.text ++ "." ++ l.extensionOf s.code
  match l.mode with
  | .perFile => parent.join ⟨name ++ tail⟩
  | .perDeclaration => (parent.join ⟨name ++ ".d"⟩).join ⟨nameComponent s.declaration ++ tail⟩

def derivedTarget (l : Layout) (input : Path) (s : Section) : Path :=
  let source := l.sourcePath input
  l.derivedIn (source.parent?.getD ⟨""⟩) (Utf8.encode (source.fileName?.getD "")) s

def target (l : Layout) (input : Path) (s : Section) : Except TargetFault Path :=
  match s.code.fileName with
  | some name => explicitTarget name
  | none => .ok (l.derivedTarget input s)

structure Draft where
  output : Path
  text : String
  origin : String
  explicit : Bool
  deriving DecidableEq, Repr

/-- Appends a block to the first file of that name which is not asked for by name. -/
def extend? (output : Path) (block : String) : List Draft → Option (List Draft)
  | [] => none
  | draft :: rest =>
    if !draft.explicit && draft.output.same output then
      some ({ draft with text := draft.text ++ "\n" ++ block } :: rest)
    else (extend? output block rest).map (draft :: ·)

def addSection (drafts : List Draft) (placed : Section × Path) : List Draft :=
  let (s, output) := placed
  let explicit := s.code.fileName.isSome
  let draft : Draft := ⟨output, s.render, s.origin, explicit⟩
  if explicit then drafts ++ [draft]
  else (extend? output s.render drafts).getD (drafts ++ [draft])

def placed (l : Layout) (input : Path) (sections : List Section) : List (Section × Path) :=
  sections.filterMap fun s => match l.target input s with
    | .ok output => some (s, output)
    | .error _ => none

def misplaced (l : Layout) (input : Path) (sections : List Section) : List RunError :=
  sections.filterMap fun s => match l.target input s with
    | .ok _ => none
    | .error fault => some (.generation s.attempt fault.message)

def assemble (l : Layout) (input : Path) (sections : List Section) : List Fragment × List RunError :=
  let drafts := (l.placed input sections).foldl addSection []
  (drafts.map fun draft => .ofText input draft.output draft.text draft.origin, l.misplaced input sections)

end Layout

end MarkerGen
