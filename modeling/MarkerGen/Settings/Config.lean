import MarkerGen.FileStore
import MarkerGen.Marker
import MarkerGen.Output.Mode
import MarkerGen.RunError
import MarkerGen.Settings.Environment
import MarkerGen.Settings.Toml.Reader
import MarkerGen.Verbosity

/-! The configuration of a run: defaults, a settings file over them, and the environment over
that. Names that are not known do not count, and no value is taken for one of another type. -/
namespace MarkerGen

inductive LogFormat where
  | json
  | pretty
  deriving DecidableEq, Repr

def LogFormat.name : LogFormat → String
  | .json => "json"
  | .pretty => "pretty"

def LogFormat.ofName? (name : String) : Option LogFormat := [LogFormat.json, .pretty].find? (·.name == name)

structure LoggingConfig where
  level : String
  format : LogFormat
  directives : List String

structure ScannerConfig where
  lead : String
  commentMarkers : Bool

structure RegistryConfig where
  strict : Bool
  required : List String
  priority : List (String × List String)

structure RuntimeConfig where
  jobs : Nat
  fileTimeoutMs : Nat

structure OutputConfig where
  mode : OutputMode
  defaultExtension : String
  manifestName : String
  removeStale : Bool

structure Config where
  logging : LoggingConfig
  scanner : ScannerConfig
  registry : RegistryConfig
  runtime : RuntimeConfig
  output : OutputConfig
  plugins : List (String × Setting)

/-- Why a configuration cannot be used. -/
inductive ConfigFault where
  | logLevel (level : String)
  | noJobs
  | noTimeout
  | noMarkerLead
  | noExtension
  | manifestName
  | outputMode (name : String)
  deriving DecidableEq, Repr

def ConfigFault.message : ConfigFault → String
  | .logLevel level =>
    "Invalid log level '" ++ level ++ "', must be one of: " ++ Text.join ", " Verbosity.levels
  | .noJobs => "runtime.jobs cannot be 0"
  | .noTimeout => "runtime.fileTimeoutMs cannot be 0"
  | .noMarkerLead => "scanner.markerPrefix cannot be empty"
  | .noExtension => "output.defaultExtension cannot be empty"
  | .manifestName => "output.manifestName must be a plain file name"
  | .outputMode name =>
    "Unknown output layout '" ++ name ++ "', must be one of: " ++ Text.join ", " (OutputMode.all.map (·.name))

inductive ConfigError where
  /-- The settings are not well formed, or of a wrong type. -/
  | malformed
  | notFound (path : Path)
  | invalid (fault : ConfigFault)
  deriving DecidableEq, Repr

namespace ConfigError

def invalidMessage (reason : String) : String := "Invalid configuration: " ++ reason

def message : ConfigError → String
  | .malformed => "Figment error: malformed settings"
  | .notFound path => "Configuration file '" ++ path.text ++ "' not found"
  | .invalid fault => invalidMessage fault.message

def toRunError (e : ConfigError) : RunError := .config e.message

end ConfigError

def OutputMode.parse (name : String) : Except ConfigError OutputMode :=
  match OutputMode.ofName? name with
  | some mode => .ok mode
  | none => .error (.invalid (.outputMode name))

namespace Config

def default : Config where
  logging := ⟨"info", .pretty, []⟩
  scanner := ⟨Marker.defaultLead, true⟩
  registry := ⟨false, [], []⟩
  runtime := ⟨1, 60000⟩
  output := ⟨.perFile, "hpp", ".flextool-manifest.json", false⟩
  plugins := []

/-- Checks a configuration; the first fault counts. -/
def validate (c : Config) : Except ConfigError Unit :=
  let extension := c.output.defaultExtension.toList.dropWhile (· == '.')
  let name := c.output.manifestName.toList
  let faults : List (Bool × ConfigFault) := [
    (!Verbosity.levels.contains c.logging.level, .logLevel c.logging.level),
    (c.runtime.jobs == 0, .noJobs),
    (c.runtime.fileTimeoutMs == 0, .noTimeout),
    (Text.isBlank c.scanner.lead, .noMarkerLead),
    (extension.isEmpty, .noExtension),
    (name.isEmpty || name.any fun c => c == '/' || c == '\\', .manifestName)]
  match faults.find? (·.1) with
  | some (_, fault) => .error (.invalid fault)
  | none => .ok ()

def textList (texts : List String) : Setting := .list (texts.map .text)

def toSetting (c : Config) : Setting :=
  .table [
    ("logging", .table [("directives", textList c.logging.directives), ("format", .text c.logging.format.name),
      ("level", .text c.logging.level)]),
    ("output", .table [("defaultExtension", .text c.output.defaultExtension), ("layout", .text c.output.mode.name),
      ("manifestName", .text c.output.manifestName), ("removeStale", .flag c.output.removeStale)]),
    ("plugins", .table [("settings", .table c.plugins)]),
    ("registry", .table [("priority", .table (c.registry.priority.map fun (tag, ids) => (tag, textList ids))),
      ("requiredCapabilities", textList c.registry.required), ("strictCapabilities", .flag c.registry.strict)]),
    ("runtime", .table [("fileTimeoutMs", .int c.runtime.fileTimeoutMs), ("jobs", .int c.runtime.jobs)]),
    ("scanner", .table [("commentMarkers", .flag c.scanner.commentMarkers), ("markerPrefix", .text c.scanner.lead)])]

def required {α : Type} (entries : Setting.Entries) (name : String) (read : Setting → Option α) : Option α :=
  (Setting.lookup? entries name).bind read

/-- A setting that may be missing. -/
def optional {α : Type} (entries : Setting.Entries) (name : String) (fallback : α) (read : Setting → Option α) :
    Option α :=
  match Setting.lookup? entries name with
  | none => some fallback
  | some setting => read setting

def logging? (setting : Setting) : Option LoggingConfig := do
  let s ← setting.record? ["level", "format", "directives"]
  return ⟨← required s "level" Setting.text?,
    ← required s "format" fun s => s.text?.bind LogFormat.ofName?,
    ← optional s "directives" [] Setting.texts?⟩

def scanner? (setting : Setting) : Option ScannerConfig := do
  let s ← setting.record? ["markerPrefix", "commentMarkers"]
  return ⟨← required s "markerPrefix" Setting.text?, ← required s "commentMarkers" Setting.flag?⟩

def priority? (setting : Setting) : Option (List (String × List String)) := do
  (← setting.entries?).mapM fun (tag, ids) => ids.texts?.map (tag, ·)

def registry? (setting : Setting) : Option RegistryConfig := do
  let s ← setting.record? ["strictCapabilities", "requiredCapabilities", "priority"]
  return ⟨← optional s "strictCapabilities" false Setting.flag?,
    ← optional s "requiredCapabilities" [] Setting.texts?,
    ← optional s "priority" [] priority?⟩

def runtime? (setting : Setting) : Option RuntimeConfig := do
  let s ← setting.record? ["jobs", "fileTimeoutMs"]
  return ⟨← required s "jobs" Setting.word?, ← required s "fileTimeoutMs" Setting.word?⟩

def output? (setting : Setting) : Option OutputConfig := do
  let s ← setting.record? ["layout", "defaultExtension", "manifestName", "removeStale"]
  return ⟨← required s "layout" fun s => s.text?.bind OutputMode.ofName?,
    ← required s "defaultExtension" Setting.text?,
    ← required s "manifestName" Setting.text?,
    ← required s "removeStale" Setting.flag?⟩

def plugins? (setting : Setting) : Option (List (String × Setting)) := do
  optional (← setting.record? ["settings"]) "settings" [] Setting.entries?

/-- The configuration that settings stand for. -/
def ofSetting? (setting : Setting) : Option Config := do
  let s ← setting.entries?
  return {
    logging := ← optional s "logging" default.logging logging?
    scanner := ← optional s "scanner" default.scanner scanner?
    registry := ← optional s "registry" default.registry registry?
    runtime := ← optional s "runtime" default.runtime runtime?
    output := ← optional s "output" default.output output?
    plugins := ← optional s "plugins" default.plugins plugins? }

/-- The settings files that are looked for in a directory, the first one first. -/
def fileNames : List Path := [⟨"flextool.toml"⟩, ⟨".flextool/config.toml"⟩]

/-- The settings file to be read, if there is one. -/
def file? (fs : FileStore) (dir : Path) (explicit : Option Path) : Except ConfigError (Option Path) :=
  match explicit with
  | some path => if fs.isFile path then .ok (some path) else .error (.notFound path)
  | none => .ok ((fileNames.map dir.join).find? fs.isFile)

def readFile (fs : FileStore) (path : Path) : Except ConfigError Setting :=
  match (fs.readText path).toOption.bind Toml.parse? with
  | some setting => .ok setting
  | none => .error .malformed

def load (fs : FileStore) (environment : Environment.Variables) (dir : Path) (explicit : Option Path) :
    Except ConfigError Config := do
  let file ← match ← file? fs dir explicit with
    | some path => readFile fs path
    | none => .ok (.table [])
  match ofSetting? ((default.toSetting.merge file).merge (Environment.settings environment)) with
  | none => .error .malformed
  | some config =>
    config.validate
    return config

end Config

end MarkerGen
