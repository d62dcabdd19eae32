import MarkerGen.CommandLine
import MarkerGen.Run.Pipeline

/-! The whole program as a function: from arguments, environment and files to an exit code, what
is printed, and the files afterwards. Everything that can be refused at the start is refused
before a file is touched. -/
namespace MarkerGen

def RunOptions.ofConfig (config : Config) (outDir : Path) (inDir : Option Path) (includePaths : List Path) :
    RunOptions where
  outDir := outDir
  inDir := inDir
  includePaths := includePaths
  mode := config.output.mode
  defaultExtension := config.output.defaultExtension
  manifestName := config.output.manifestName
  removeStale := config.output.removeStale
  jobs := max config.runtime.jobs 1
  fileTimeoutMs := config.runtime.fileTimeoutMs
  lead := config.scanner.lead
  strict := config.registry.strict

namespace Program

/-- What the program is given by its surroundings. -/
structure Host where
  environment : Environment.Variables
  openModule : ByteArray → SharedModule
  grammar : String → Node

structure Ending where
  code : Nat
  output : String
  complaints : String
  files : FileStore

def successCode : Nat := 0

def fatalCode : Nat := 1

def warningsCode : Nat := 2

def usageCode : Nat := 2

def panicCode : Nat := 101

def workDir (fs : FileStore) : Path := ⟨"/" ++ Text.join "/" fs.home⟩

/-- The plugins of a run: those that are named, or else all that are built in. -/
def choosePlugins (host : Host) (fs : FileStore) (line : CommandLine) : List (Except LoadError LoadedPlugin) :=
  if line.plugins.isEmpty then Plugin.builtins.map fun plugin => .ok ⟨plugin, .builtin⟩
  else line.plugins.map (Plugin.load host.openModule fs)

def addPlugin (registry : Registry) (loaded : Except LoadError LoadedPlugin) : Except RunError Registry :=
  match loaded with
  | .error error => .error error.toRunError
  | .ok loaded => (registry.register loaded).mapError RegistryError.toRunError

/-- A registry that knows priorities and no plugin. -/
def prioritized (priority : List (String × List String)) : Registry :=
  priority.foldl (fun registry (tag, ids) => registry.setPriority (.ofText tag) ids) .empty

def buildRegistry (host : Host) (fs : FileStore) (line : CommandLine) (config : Config) :
    Except RunError Registry :=
  (choosePlugins host fs line).foldlM addPlugin (prioritized config.registry.priority)

/-- Calls the load hooks, then checks that what the configuration requires is there. -/
def prepare (registry : Registry) (config : Config) (outDir : Path) : Except (Halt RunError) Unit :=
  let settings := config.plugins.map fun (id, setting) => (id, setting.toJson)
  let required := if config.registry.strict then config.registry.required.map Tag.ofText else []
  ((registry.runLoadHooks settings outDir).2.bind fun () => (registry.require required).mapError .error).mapError
    (·.map RegistryError.toRunError)

def padded (width : Nat) (text : String) : String :=
  text ++ String.ofList (List.replicate (width - text.length) ' ')

def pluginText (loaded : LoadedPlugin) : String :=
  let plugin := loaded.plugin
  let capability (c : Capability) := "  " ++ padded 28 c.tag.text ++ " [" ++ c.scope.text ++ "]\n"
  plugin.id ++ " " ++ plugin.version ++ " (" ++ loaded.source.text ++ ")\n" ++
    Text.join "" (plugin.capabilities.map capability)

def reportText (format : ReportFormat) (report : ErrorReport) : String :=
  match format with
  | .human => report.text
  | .json => report.toJson.compact

def abort (format : ReportFormat) (fs : FileStore) (error : RunError) : Ending where
  code := fatalCode
  output := ""
  complaints := reportText format error.report ++ "\nflextool: aborted (" ++ error.kind ++ ")\n"
  files := fs

/-- The end of a program in which something panicked. The place of the panic is not told. -/
def crash (fs : FileStore) (message : String) : Ending where
  code := panicCode
  output := ""
  complaints := "thread 'main' panicked:\n" ++ message ++ "\n"
  files := fs

def halt (format : ReportFormat) (fs : FileStore) : Halt RunError → Ending
  | .error error => abort format fs error
  | .panic message => crash fs message

def conclude (line : CommandLine) (fs : FileStore) (report : RunReport) : Ending where
  code := if report.outcome = .completedWithWarnings ∧ line.failOnWarnings then warningsCode else successCode
  output := ""
  complaints := Text.join "" (report.warnings.map fun warning => reportText line.reportFormat warning ++ "\n") ++
    "flextool: " ++ report.summary ++ "\n"
  files := fs

def generate (host : Host) (fs : FileStore) (line : CommandLine) (config : Config) (registry : Registry) : Ending :=
  let inDir := line.sourceDir (workDir fs)
  let options := RunOptions.ofConfig config (line.targetDir (workDir fs)) (some inDir) line.includePaths
  let pipeline : Pipeline := ⟨registry, host.grammar, config.scanner.commentMarkers, options⟩
  match pipeline.run fs (line.sources (workDir fs)) with
  | (fs, .error reason) => halt line.reportFormat fs reason
  | (fs, .ok report) => conclude line fs report

structure Setup where
  config : Config
  registry : Registry

/-- Loads configuration and plugins. When the plugins are only listed, they are not prepared. -/
def setUp (host : Host) (fs : FileStore) (line : CommandLine) : Except (Halt RunError) Setup := do
  let config ← (line.configure fs host.environment (workDir fs)).mapError (.error ∘ ConfigError.toRunError)
  let registry ← (buildRegistry host fs line config).mapError .error
  if !line.listPlugins then prepare registry config (line.targetDir (workDir fs))
  return ⟨config, registry⟩

def execute (host : Host) (fs : FileStore) (line : CommandLine) : Ending :=
  match setUp host fs line with
  | .error reason => halt line.reportFormat fs reason
  | .ok ⟨config, registry⟩ =>
    if line.listPlugins then ⟨successCode, Text.join "" (registry.plugins.map pluginText), "", fs⟩
    else generate host fs line config registry

def usage : String := "Usage: flextool [OPTIONS] <INPUTS>..."

def helpText : String :=
  "Generates C++ code for annotated declarations using pluggable strategies\n\n" ++ usage ++ "\n\nOptions:\n" ++
    Text.join "" (OptionName.all.map fun name => "      --" ++ name.text ++ "\n")

def endUsage (fs : FileStore) : UsageStop → Ending
  | .helpWanted => ⟨successCode, helpText, "", fs⟩
  | .versionWanted => ⟨successCode, "flextool " ++ Plugin.hostVersion ++ "\n", "", fs⟩
  | stop => ⟨usageCode, "", "error: " ++ stop.reason ++ "\n\n" ++ usage ++ "\n", fs⟩

def run (host : Host) (fs : FileStore) (args : List String) : Ending :=
  match CommandLine.parse args with
  | .error stop => endUsage fs stop
  | .ok line => execute host fs line

end Program

end MarkerGen
