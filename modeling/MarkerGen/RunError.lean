import MarkerGen.Capability.Tag
import MarkerGen.Json.Value
import MarkerGen.SourceTree.Parse

/-! Everything that can go wrong in a run. A warning is recorded and the run goes on; a fatal
error ends it. A panic is no error: nothing reports it, and it takes the program down. -/
namespace MarkerGen

/-- Why a part of the program does not come to its end. -/
inductive Halt (ε : Type) where
  | error (e : ε)
  | panic (message : String)
  deriving DecidableEq, Repr

def Halt.map {ε δ : Type} (f : ε → δ) : Halt ε → Halt δ
  | .error e => .error (f e)
  | .panic message => .panic message

inductive Severity where
  | warning
  | fatal
  deriving DecidableEq, Repr

structure ErrorReport where
  kind : String
  severity : Severity
  message : String
  file : Option Path
  line : Option Nat
  column : Option Nat
  deriving DecidableEq, Repr

namespace ErrorReport

def text (r : ErrorReport) : String :=
  let severity := match r.severity with
    | .warning => "warning"
    | .fatal => "error"
  let position := match r.line, r.column with
    | some line, some column => ":" ++ toString line ++ ":" ++ toString column
    | _, _ => ""
  let place := match r.file with
    | some file => " " ++ file.text ++ position
    | none => ""
  severity ++ "[" ++ r.kind ++ "]" ++ place ++ ": " ++ r.message

def toJson (r : ErrorReport) : Json :=
  .object <|
    [("kind", .text r.kind),
     ("severity", .text (match r.severity with | .warning => "warning" | .fatal => "fatal")),
     ("message", .text r.message)] ++
    (r.file.map fun file => ("file", Json.text file.text)).toList ++
    (r.line.map fun line => ("line", Json.nat line)).toList ++
    (r.column.map fun column => ("column", Json.nat column)).toList

end ErrorReport

/-- A request to a plugin, as errors name it. -/
structure Attempt where
  plugin : String
  capability : Tag
  declaration : String
  location : Location
  deriving DecidableEq, Repr

inductive RunError where
  | parseFailure (file : Path) (message : String) (location : Option Location)
  | unknownCapability (tag : Tag) (location : Option Location)
  | duplicateCapability (message : String)
  | generation (attempt : Attempt) (message : String)
  | pluginCrash (attempt : Attempt) (message : String)
  | outputCollision (path : Path) (first second : String)
  | incompatiblePlugin (plugin : String) (expected found : Nat)
  | fileTimeout (file : Path) (timeoutMs : Nat)
  | pluginLoad (message : String)
  | config (message : String)
  | io (path : Path) (message : String)
  | internal (message : String)
  deriving DecidableEq, Repr

namespace RunError

def kind : RunError → String
  | .parseFailure .. => "ParseFailure"
  | .unknownCapability .. => "UnknownCapability"
  | .duplicateCapability .. => "DuplicateCapability"
  | .generation .. => "GenerationError"
  | .pluginCrash .. => "PluginCrash"
  | .outputCollision .. => "OutputCollision"
  | .incompatiblePlugin .. => "IncompatiblePluginVersion"
  | .fileTimeout .. => "FileTimeout"
  | .pluginLoad .. => "PluginLoad"
  | .config .. => "Config"
  | .io .. => "Io"
  | .internal .. => "Internal"

def severity : RunError → Severity
  | .parseFailure .. | .generation .. | .fileTimeout .. => .warning
  | _ => .fatal

def isFatal (e : RunError) : Bool := e.severity == .fatal

def attemptText (a : Attempt) (verb message : String) : String :=
  "Plugin '" ++ a.plugin ++ "' " ++ verb ++ " [" ++ a.capability.text ++ "] for '" ++ a.declaration ++
    "': " ++ message

def message : RunError → String
  | .parseFailure file message _ => "Parse failure in '" ++ file.text ++ "': " ++ message
  | .unknownCapability tag _ => "Unknown capability '" ++ tag.text ++ "'"
  | .duplicateCapability message => message
  | .generation attempt message => attemptText attempt "could not generate" message
  | .pluginCrash attempt message => attemptText attempt "crashed while generating" message
  | .outputCollision path first second =>
    "Output '" ++ path.text ++ "' is produced by both " ++ first ++ " and " ++ second
  | .incompatiblePlugin plugin expected found =>
    "Plugin '" ++ plugin ++ "' speaks capability interface " ++ toString found ++ ", host expects " ++
      toString expected
  | .fileTimeout file timeoutMs =>
    "Processing '" ++ file.text ++ "' exceeded " ++ toString timeoutMs ++ " ms and was abandoned"
  | .pluginLoad message => "Plugin load failed: " ++ message
  | .config message => "Configuration error: " ++ message
  | .io path message => "IO error on '" ++ path.text ++ "': " ++ message
  | .internal message => "Internal error: " ++ message

/-- The file and the place in it that an error concerns. -/
def place : RunError → Option Path × Option Location
  | .parseFailure file _ location => (some file, location)
  | .unknownCapability _ location => (location.map (·.file), location)
  | .generation attempt _ | .pluginCrash attempt _ => (some attempt.location.file, some attempt.location)
  | .outputCollision path _ _ | .io path _ => (some path, none)
  | .fileTimeout file _ => (some file, none)
  | _ => (none, none)

def report (e : RunError) : ErrorReport where
  kind := e.kind
  severity := e.severity
  message := e.message
  file := e.place.1
  line := e.place.2.map (·.line)
  column := e.place.2.map (·.column)

def ofParseFailure (failure : ParseFailure) : RunError :=
  let message := match failure.fatal with
    | [] => failure.message
    | diagnostic :: _ => diagnostic.message
  .parseFailure failure.file message failure.firstLocation?

def ofFile (path : Path) (error : FileError) : RunError := .io path error.message

end RunError

end MarkerGen
