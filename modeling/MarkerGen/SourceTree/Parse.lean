import MarkerGen.FileStore
import MarkerGen.SourceTree.Outline

/-! Reading a source file into its declarations. A file whose tree has an error, or that cannot
be read, gives a failure and no declarations at all. -/
namespace MarkerGen

structure ParseFailure where
  file : Path
  diagnostics : List Diagnostic
  deriving DecidableEq, Repr

namespace ParseFailure

def unreadable (file : Path) (error : FileError) : ParseFailure :=
  ⟨file, [⟨.error, "cannot read source file: " ++ error.message, none⟩]⟩

def fatal (failure : ParseFailure) : List Diagnostic := failure.diagnostics.filter (·.isFatal)

def firstLocation? (failure : ParseFailure) : Option Location := failure.fatal.findSome? (·.location)

def message (failure : ParseFailure) : String :=
  let first := match failure.fatal with
    | [] => ""
    | diagnostic :: _ => "; first: " ++ diagnostic.text
  "failed to parse " ++ failure.file.text ++ " (" ++ toString failure.fatal.length ++ " error(s)" ++ first ++ ")"

end ParseFailure

/-- At most this many faults of a file are reported. -/
def maxFaults : Nat := 16

def Reading.faultDiagnostic (r : Reading) (n : Node) : Diagnostic :=
  let message :=
    if n.info.isMissing then "missing '" ++ n.kind ++ "'"
    else
      "syntax error near '" ++ String.ofList (Chars.squash ((r.textOf n).toList.take 40)) ++ "'"
  ⟨.error, message, some (r.location n)⟩

def Reading.parse (r : Reading) (present : Path → Bool) (root : Node) : Except ParseFailure SourceUnit :=
  if root.hasError then .error ⟨r.file, (Node.firstFaults maxFaults [root]).map r.faultDiagnostic⟩
  else .ok (.ofTree r present root)

/-- How source files are read: the trees of source texts, whether comments carry markers, and
where includes are looked up. -/
structure Frontend where
  grammar : String → Node
  commentMarkers : Bool
  includePaths : List Path

namespace Frontend

def parseText (f : Frontend) (fs : FileStore) (path : Path) (text : String) :
    Except ParseFailure SourceUnit :=
  let reading : Reading := ⟨text, path, f.includePaths, f.commentMarkers⟩
  reading.parse fs.present (f.grammar text)

def parseFile (f : Frontend) (fs : FileStore) (path : Path) : Except ParseFailure SourceUnit :=
  match fs.readText path with
  | .error error => .error (.unreadable path error)
  | .ok text => f.parseText fs path text

end Frontend

end MarkerGen
