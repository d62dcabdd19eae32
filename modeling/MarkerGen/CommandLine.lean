import MarkerGen.Distinct
import MarkerGen.Settings.Config

/-! The command line: options by their long names, and source files. An argument is given its
meaning as soon as it is read, but the value of an option is looked at only when the next
option, source file or the end is reached; an unknown option is therefore reported first. -/
namespace MarkerGen

inductive ReportFormat where
  | human
  | json
  deriving DecidableEq, Repr

def ReportFormat.ofName? : String → Option ReportFormat
  | "human" => some .human
  | "json" => some .json
  | _ => none

inductive OptionName where
  | outDir
  | inDir
  | loadPlugin
  | extraArg
  | config
  | jobs
  | timeoutMs
  | layout
  | reportFormat
  | logLevel
  | moduleLevels
  | enableLogging
  | listPlugins
  | failOnWarnings
  | help
  | version
  deriving DecidableEq, Repr

namespace OptionName

def all : List OptionName :=
  [.outDir, .inDir, .loadPlugin, .extraArg, .config, .jobs, .timeoutMs, .layout, .reportFormat, .logLevel,
   .moduleLevels, .enableLogging, .listPlugins, .failOnWarnings, .help, .version]

def text : OptionName → String
  | .outDir => "outdir"
  | .inDir => "indir"
  | .loadPlugin => "load_plugin"
  | .extraArg => "extra-arg"
  | .config => "config"
  | .jobs => "jobs"
  | .timeoutMs => "timeout-ms"
  | .layout => "layout"
  | .reportFormat => "report-format"
  | .logLevel => "log-level"
  | .moduleLevels => "vmodule"
  | .enableLogging => "enable-logging"
  | .listPlugins => "list-plugins"
  | .failOnWarnings => "fail-on-warnings"
  | .help => "help"
  | .version => "version"

def ofText? (text : String) : Option OptionName := all.find? (·.text == text)

def ofLetter? : Char → Option OptionName
  | 'h' => some .help
  | 'V' => some .version
  | _ => none

def isSwitch : OptionName → Bool
  | .listPlugins | .failOnWarnings | .help | .version => true
  | _ => false

/-- Options whose value may look like an option. -/
def takesAnyText : OptionName → Bool
  | .extraArg | .logLevel => true
  | _ => false

def isRepeatable : OptionName → Bool
  | .loadPlugin | .extraArg => true
  | _ => false

def impliedValue? : OptionName → Option String
  | .enableLogging => some "stderr"
  | _ => none

end OptionName

inductive UsageStop where
  | missingInputs
  | unknownOption
  | badValue
  | badNumber
  | repeatedOption
  | unwantedValue
  | helpWanted
  | versionWanted
  deriving DecidableEq, Repr

def UsageStop.reason : UsageStop → String
  | .missingInputs => "no source files are given"
  | .unknownOption => "unexpected argument"
  | .badValue => "invalid or missing value of an option"
  | .badNumber => "invalid number"
  | .repeatedOption => "an option is given more than once"
  | .unwantedValue => "unexpected value of an option"
  | .helpWanted | .versionWanted => ""

structure CommandLine where
  outDir : Option Path
  inDir : Option Path
  plugins : List String
  extraArgs : List String
  config : Option Path
  jobs : Option Nat
  timeoutMs : Option Nat
  mode : Option OutputMode
  reportFormat : ReportFormat
  logLevel : Option String
  moduleLevels : Option String
  enableLogging : Option String
  listPlugins : Bool
  failOnWarnings : Bool
  inputs : List Path
  deriving DecidableEq, Repr

namespace CommandLine

def empty : CommandLine :=
  ⟨none, none, [], [], none, none, none, none, .human, none, none, none, false, false, []⟩

def pathOf (value : String) : Except UsageStop Path :=
  if value = "" then .error .badValue else .ok ⟨value⟩

def numberOf (value : String) : Except UsageStop Nat :=
  match Number.unsignedWord? 64 10 value.toList with
  | some number => .ok number
  | none => .error .badNumber

def choiceOf {α : Type} (ofName? : String → Option α) (value : String) : Except UsageStop α :=
  match ofName? value with
  | some choice => .ok choice
  | none => .error .badValue

def setValue (line : CommandLine) (name : OptionName) (value : String) : Except UsageStop CommandLine :=
  match name with
  | .outDir => (pathOf value).map fun path => { line with outDir := some path }
  | .inDir => (pathOf value).map fun path => { line with inDir := some path }
  | .config => (pathOf value).map fun path => { line with config := some path }
  | .jobs => (numberOf value).map fun number => { line with jobs := some number }
  | .timeoutMs => (numberOf value).map fun number => { line with timeoutMs := some number }
  | .layout => (choiceOf OutputMode.ofName? value).map fun mode => { line with mode := some mode }
  | .reportFormat => (choiceOf ReportFormat.ofName? value).map fun format => { line with reportFormat := format }
  | .loadPlugin => .ok { line with plugins := line.plugins ++ [value] }
  | .extraArg => .ok { line with extraArgs := line.extraArgs ++ [value] }
  | .logLevel => .ok { line with logLevel := some value }
  | .moduleLevels => .ok { line with moduleLevels := some value }
  | .enableLogging => .ok { line with enableLogging := some value }
  | .listPlugins | .failOnWarnings | .help | .version => .error .unwantedValue

/-- The command line after an option without value. -/
def setSwitch (line : CommandLine) (name : OptionName) : Except UsageStop CommandLine :=
  match name with
  | .help => .error .helpWanted
  | .version => .error .versionWanted
  | .listPlugins => .ok { line with listPlugins := true }
  | .failOnWarnings => .ok { line with failOnWarnings := true }
  | _ => .error .badValue

inductive Pending where
  | nothing
  | option (name : OptionName) (value : Option String)
  | inputs (texts : List String)

/-- A command line that is read up to some argument. -/
structure Reading where
  line : CommandLine
  given : List OptionName
  pending : Pending
  onlyInputs : Bool

namespace Reading

def start : Reading := ⟨empty, [], .nothing, false⟩

def note (r : Reading) (name : OptionName) : Except UsageStop Reading :=
  if !name.isRepeatable && r.given.contains name then .error .repeatedOption
  else .ok { r with given := name :: r.given }

def giveValue (r : Reading) (name : OptionName) (value : String) : Except UsageStop Reading := do
  let r ← r.note name
  return { r with line := ← r.line.setValue name value }

def giveSwitch (r : Reading) (name : OptionName) : Except UsageStop Reading := do
  let r ← r.note name
  return { r with line := ← r.line.setSwitch name }

/-- Looks at what is pending. An option that waits for its value does not get one. -/
def settle (r : Reading) : Except UsageStop Reading :=
  let rest := { r with pending := .nothing }
  match r.pending with
  | .nothing => .ok rest
  | .option _ none => .error .badValue
  | .option name (some value) => rest.giveValue name value
  | .inputs texts => do
    let inputs ← texts.mapM pathOf
    return { rest with line := { r.line with inputs := r.line.inputs ++ inputs } }

/-- The option that waits for its value. -/
def waiting? (r : Reading) : Option OptionName :=
  match r.pending with
  | .option name none => some name
  | _ => none

def readInput (r : Reading) (text : String) : Except UsageStop Reading :=
  match r.pending with
  | .inputs texts => .ok { r with pending := .inputs (texts ++ [text]) }
  | _ => r.settle.map fun r => { r with pending := .inputs [text] }

def readOption (r : Reading) (name : OptionName) (value : Option String) : Except UsageStop Reading :=
  if name.isSwitch then
    match value with
    | some _ => .error .unwantedValue
    | none => do (← r.settle).giveSwitch name
  else match value.or name.impliedValue? with
    | some value => do (← r.settle).giveValue name value
    | none => r.settle.map fun r => { r with pending := .option name none }

def readLong (r : Reading) (text : List Char) : Except UsageStop Reading :=
  let (name, value) := match Chars.breakOn? ['='] text with
    | some (name, value) => (name, some (String.ofList value))
    | none => (text, none)
  match OptionName.ofText? (String.ofList name) with
  | some name => r.readOption name value
  | none => .error .unknownOption

def readShort (r : Reading) (letter : Char) : Except UsageStop Reading :=
  match OptionName.ofLetter? letter with
  | some name => r.readOption name none
  | none => .error .unknownOption

def readPlain (r : Reading) (text : String) : Except UsageStop Reading :=
  match r.waiting? with
  | some name => .ok { r with pending := .option name (some text) }
  | none => r.readInput text

def read (r : Reading) (text : String) : Except UsageStop Reading :=
  if r.onlyInputs then r.readInput text
  else if r.waiting?.any OptionName.takesAnyText then r.readPlain text
  else match text.toList with
    | ['-', '-'] => .ok { r with onlyInputs := true }
    | '-' :: '-' :: rest => r.readLong rest
    | '-' :: letter :: _ => r.readShort letter
    | _ => r.readPlain text

end Reading

/-- Reads a command line. Source files are needed unless the plugins are to be listed. -/
def parse (args : List String) : Except UsageStop CommandLine := do
  let line := (← (← args.foldlM Reading.read .start).settle).line
  if line.inputs.isEmpty && !line.listPlugins then throw .missingInputs
  return line

def sourceDir (line : CommandLine) (workDir : Path) : Path :=
  match line.inDir with
  | some dir => workDir.join dir
  | none => workDir

def targetDir (line : CommandLine) (workDir : Path) : Path :=
  match line.outDir with
  | some dir => workDir.join dir
  | none => (line.sourceDir workDir).join ⟨"generated"⟩

/-- The include paths among compiler arguments, with the path attached or as the next argument. -/
def includesOf : List String → List Path
  | [] => []
  | arg :: rest =>
    match Text.afterLead? "-I" arg with
    | none => includesOf rest
    | some "" =>
      match rest with
      | [] => []
      | path :: rest => ⟨path⟩ :: includesOf rest
    | some path => ⟨path⟩ :: includesOf rest

def includePaths (line : CommandLine) : List Path := includesOf line.extraArgs

def sources (line : CommandLine) (workDir : Path) : List Path :=
  firstOfEach Path.same [] (line.inputs.map (line.sourceDir workDir).join)

def override (line : CommandLine) (c : Config) : Config :=
  { c with
    logging := { c.logging with
      level := line.logLevel.elim c.logging.level fun text => String.ofList (Verbosity.logLevel text.toList)
      directives := c.logging.directives ++ line.moduleLevels.elim [] Verbosity.directives }
    runtime := ⟨line.jobs.getD c.runtime.jobs, line.timeoutMs.getD c.runtime.fileTimeoutMs⟩
    output := { c.output with mode := line.mode.getD c.output.mode } }

/-- The configuration of a run that is started in a directory. -/
def configure (line : CommandLine) (fs : FileStore) (environment : Environment.Variables) (workDir : Path) :
    Except ConfigError Config := do
  let config := line.override (← Config.load fs environment workDir line.config)
  config.validate
  return config

end CommandLine

end MarkerGen
