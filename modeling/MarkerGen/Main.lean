import MarkerGen.Program
import MarkerGen.SourceTree.Listing

/-! The program on a real file system. All that a run may look at is read first; then the run is
computed, and what it changed is written. The syntax tree of a source file is read from the
file beside it whose name has `.tree` added. -/
namespace MarkerGen.Main

/-- The spot that a path leads to, whatever is there. -/
def spotOf (fs : FileStore) (path : Path) : Spot :=
  (fs.route path).2.foldl (fun (spot : Spot) piece =>
    if piece = [] ∨ piece = ['.'] then spot
    else if piece = ['.', '.'] then spot.dropLast
    else spot ++ [String.ofList piece]) (fs.route path).1

def spotText (spot : Spot) : String := "/" ++ Text.join "/" spot

def probe (spot : Spot) : IO (Option Stored) := do
  try
    return some (.file (← IO.FS.readBinFile (spotText spot)))
  catch
    | .inappropriateType .. => return some .directory
    | _ => return none

def visit (fs : FileStore) (spot : Spot) : IO FileStore := do
  let mut fs := fs
  for count in List.range (spot.length + 1) do
    let place := spot.take count
    match fs.lookup place with
    | some .directory => pure ()
    | some (.file _) => return fs
    | none =>
      match ← probe place with
      | none => return fs
      | some stored => fs := fs.put place stored
  return fs

def visitAll (fs : FileStore) (spots : List Spot) : IO FileStore := spots.foldlM visit fs

def treePath (source : Path) : Path := ⟨source.text ++ ".tree"⟩

def blankTree : Node := .mk ⟨0, "translation_unit", "", 0, 0, true, false, false, false⟩ []

def treesOf (fs : FileStore) (sources : List Path) : List (String × Node) :=
  sources.filterMap fun source => do
    let text ← (fs.readText source).toOption
    let tree ← (fs.readText (treePath source)).toOption.bind Node.ofListing?
    return (text, tree)

def hostOf (environment : Environment.Variables) (trees : List (String × Node)) : Program.Host where
  environment := environment
  openModule := fun _ => .notAModule
  grammar := fun text => ((trees.find? (·.1 == text)).map (·.2)).getD blankTree

/-- The environment of the process, as the system shows it in a file. -/
def environment : IO Environment.Variables := do
  try
    let content ← IO.FS.readBinFile "/proc/self/environ"
    let items := Chars.splitAt (·.toNat == 0) ((String.fromUTF8? content).getD "").toList
    return items.filterMap fun item =>
      (Chars.breakOn? ['='] item).map fun (name, value) => (String.ofList name, String.ofList value)
  catch _ => return []

def namedPaths (line : CommandLine) (workDir : Path) : List Path :=
  let sources := line.sources workDir
  Config.fileNames.map workDir.join ++ line.config.toList ++ line.plugins.map (⟨·⟩) ++ sources ++
    sources.map treePath

def manifestPaths (environment : Environment.Variables) (fs : FileStore) (line : CommandLine) : List Path × List Path :=
  match line.configure fs environment (Program.workDir fs) with
  | .error _ => ([], [])
  | .ok config =>
    let outDir := line.targetDir (Program.workDir fs)
    let path := outDir.join ⟨config.output.manifestName⟩
    ([path], (Manifest.load fs path).entries.map (outDir.join ·.output))

def commit (before after : FileStore) : IO Unit := do
  for (spot, stored) in after.entries do
    match before.lookup spot, stored with
    | some .directory, .directory => pure ()
    | _, .directory => IO.FS.createDirAll (spotText spot)
    | some (.file old), .file content => if content != old then IO.FS.writeBinFile (spotText spot) content
    | _, .file content => IO.FS.writeBinFile (spotText spot) content
  for (spot, stored) in before.entries do
    match stored, after.lookup spot with
    | .file _, none => IO.FS.removeFile (spotText spot)
    | _, _ => pure ()

/-- Reads all that a run may look at: the paths it is given, the manifest with its outputs, and
the outputs that the run would make if there were none yet. -/
def gather (environment : Environment.Variables) (start : FileStore) (args : List String) : IO FileStore := do
  match CommandLine.parse args with
  | .error _ => return start
  | .ok line =>
    let spots (paths : List Path) := paths.map (spotOf start)
    let named ← visitAll start (spots (namedPaths line (Program.workDir start)))
    let listed ← visitAll named (spots (manifestPaths environment named line).1)
    let known ← visitAll listed (spots (manifestPaths environment listed line).2)
    let trees := treesOf known (line.sources (Program.workDir start))
    visitAll known ((Program.run (hostOf environment trees) known args).files.entries.map (·.1))

def launch (args : List String) : IO UInt32 := do
  let environment ← environment
  let home := (Text.splitAt '/' (toString (← IO.currentDir))).filter (!·.isEmpty)
  let before ← gather environment ⟨home, []⟩ args
  let trees := match CommandLine.parse args with
    | .ok line => treesOf before (line.sources (Program.workDir before))
    | .error _ => []
  let ending := Program.run (hostOf environment trees) before args
  commit before ending.files
  IO.print ending.output
  IO.eprint ending.complaints
  return ending.code.toUInt32

end MarkerGen.Main

def main (args : List String) : IO UInt32 := MarkerGen.Main.launch args
