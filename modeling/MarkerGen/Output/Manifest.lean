import MarkerGen.Distinct
import MarkerGen.Json.Printer
import MarkerGen.Json.Reader
import MarkerGen.Number
import MarkerGen.Output.Writer

/-! The manifest: which outputs the last run made from which inputs. It is kept as a JSON file
in the output directory. A file that is not a manifest counts as an empty one. -/
namespace MarkerGen

structure ManifestEntry where
  input : Path
  output : Path
  fingerprint : String
  status : WriteStatus
  deriving DecidableEq, Repr

structure Manifest where
  version : Nat
  entries : List ManifestEntry
  deriving DecidableEq, Repr

def WriteStatus.name : WriteStatus → String
  | .written => "written"
  | .unchanged => "unchanged"

def WriteStatus.ofName? (name : String) : Option WriteStatus :=
  [WriteStatus.written, WriteStatus.unchanged].find? (·.name == name)

namespace Manifest

def formatVersion : Nat := 1

def empty : Manifest := ⟨formatVersion, []⟩

def entryToJson (e : ManifestEntry) : Json :=
  .object [("input", .text e.input.text), ("output", .text e.output.text), ("fingerprint", .text e.fingerprint),
    ("status", .text e.status.name)]

def toJson (m : Manifest) : Json :=
  .object [("version", .nat m.version), ("entries", .arr (m.entries.map entryToJson))]

def text (m : Manifest) : String := m.toJson.pretty ++ "\n"

/-- The values of named fields. They are written as an object, where each must occur once and
other fields do not count, or as an array of exactly these. -/
def record? (names : List String) : Json → Option (List Json)
  | .arr items => if items.length = names.length then some items else none
  | .obj fields =>
    if fields.all (·.1.isSome) then
      names.mapM fun name =>
        match fields.filter (·.1 == some name) with
        | [(_, value)] => some value
        | _ => none
    else none
  | _ => none

def text? : Json → Option String
  | .str text => text
  | _ => none

def word? (bits : Nat) : Json → Option Nat
  | .num literal => Number.unsignedWord? bits 10 literal.toList
  | _ => none

/-- A status, by its name or as an object with that name and no value. -/
def status? : Json → Option WriteStatus
  | .str (some name) | .obj [(some name, .null)] => WriteStatus.ofName? name
  | _ => none

def entry? (value : Json) : Option ManifestEntry := do
  match ← record? ["input", "output", "fingerprint", "status"] value with
  | [input, output, fingerprint, status] =>
    return ⟨⟨← text? input⟩, ⟨← text? output⟩, ← text? fingerprint, ← status? status⟩
  | _ => none

def entries? : Json → Option (List ManifestEntry)
  | .arr items => items.mapM entry?
  | _ => none

def ofJson? (value : Json) : Option Manifest := do
  match ← record? ["version", "entries"] value with
  | [version, entries] => return ⟨← word? 32 version, ← entries? entries⟩
  | _ => none

def parse? (text : String) : Option Manifest :=
  ((Json.parse? text).bind ofJson?).filter (·.version == formatVersion)

def load (fs : FileStore) (path : Path) : Manifest :=
  match fs.readText path with
  | .ok text => (parse? text).getD empty
  | .error _ => empty

def save (m : Manifest) (fs : FileStore) (path : Path) : FileStore × Except WriteError Unit :=
  fs.writeFile path m.text.toUTF8

def entriesFor (m : Manifest) (input : Path) : List ManifestEntry := m.entries.filter (·.input.same input)

/-- The number of outputs that the last run changed. -/
def changed (m : Manifest) : Nat := m.entries.countP (·.status == .written)

def lists (m : Manifest) (output : Path) : Bool := m.entries.any (·.output.same output)

/-- The outputs of inputs that were generated again, without those that were made again. -/
def staleOutputs (previous current : Manifest) (regenerated : List Path) : List Path :=
  let stale := previous.entries.filter fun entry =>
    regenerated.any (·.same entry.input) && !current.lists entry.output
  firstOfEach Path.same [] (stale.map (·.output))

end Manifest

end MarkerGen
