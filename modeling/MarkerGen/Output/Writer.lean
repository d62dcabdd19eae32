import MarkerGen.Output.Layout

/-! Writing output files. Within a run no file is written twice: a batch with a path that an
earlier fragment claimed is refused as a whole. A file that already has the right content is
left alone. -/
namespace MarkerGen

inductive WriteStatus where
  | written
  | unchanged
  deriving DecidableEq, Repr

structure WriteRecord where
  input : Path
  output : Path
  fingerprint : String
  status : WriteStatus
  deriving DecidableEq, Repr

inductive WriteError where
  | collision (path : Path) (first second : String)
  | io (path : Path) (error : FileError)
  deriving DecidableEq, Repr

def WriteError.toRunError : WriteError → RunError
  | .collision path first second => .outputCollision path first second
  | .io path error => .ofFile path error

def FileStore.fingerprint (fs : FileStore) (path : Path) : Except FileError (Option String) :=
  match fs.read path with
  | .ok content => .ok (some (Digest.fingerprint content))
  | .error .notFound => .ok none
  | .error error => .error error

/-- Puts a complete file at a path, making the directories on the way. Those stay even if the
file cannot be put there. -/
def FileStore.writeFile (fs : FileStore) (path : Path) (content : ByteArray) : FileStore × Except WriteError Unit :=
  let parent := match path.parent? with
    | some parent => if parent.text.isEmpty then ⟨"."⟩ else parent
    | none => ⟨"."⟩
  match fs.makeDirectory parent with
  | .error error => (fs, .error (.io parent error))
  | .ok made =>
    match made.replace path content with
    | .error error => (made, .error (.io path error))
    | .ok written => (written, .ok ())

/-- The output directory of a run, and the paths that fragments have claimed, with the origins
of those fragments. -/
structure Writer where
  outDir : Path
  claimed : List (Path × String)

namespace Writer

def fresh (outDir : Path) : Writer := ⟨outDir, []⟩

def claimant? (claimed : List (Path × String)) (output : Path) : Option String :=
  (claimed.find? (·.1.same output)).map (·.2)

def claim (claimed : List (Path × String)) : List Fragment → Except WriteError (List (Path × String))
  | [] => .ok claimed
  | fragment :: rest =>
    match claimant? claimed fragment.output with
    | some first => .error (.collision fragment.output first fragment.origin)
    | none => claim (claimed ++ [(fragment.output, fragment.origin)]) rest

def record (fragment : Fragment) (status : WriteStatus) : WriteRecord :=
  ⟨fragment.input, fragment.output, fragment.fingerprint, status⟩

def writeFragment (outDir : Path) (fs : FileStore) (fragment : Fragment) :
    FileStore × Except WriteError WriteRecord :=
  let target := outDir.join fragment.output
  match fs.fingerprint target with
  | .error error => (fs, .error (.io target error))
  | .ok existing =>
    if existing = some fragment.fingerprint then (fs, .ok (record fragment .unchanged))
    else
      let (fs, written) := fs.writeFile target fragment.contents.toUTF8
      (fs, written.map fun () => record fragment .written)

/-- Writes fragments in order up to the first failure; what was written before it stays. -/
def writeAll (outDir : Path) (fs : FileStore) : List Fragment → FileStore × Except WriteError (List WriteRecord)
  | [] => (fs, .ok [])
  | fragment :: rest =>
    match writeFragment outDir fs fragment with
    | (fs, .error error) => (fs, .error error)
    | (fs, .ok record) =>
      let (fs, records) := writeAll outDir fs rest
      (fs, records.map (record :: ·))

def writeBatch (w : Writer) (fs : FileStore) (fragments : List Fragment) :
    Writer × FileStore × Except WriteError (List WriteRecord) :=
  match claim w.claimed fragments with
  | .error error => (w, fs, .error error)
  | .ok claimed =>
    let (final, records) := writeAll w.outDir fs fragments
    ({ w with claimed }, final, records)

end Writer

end MarkerGen
