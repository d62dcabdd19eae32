import MarkerGen.Output.Manifest
import MarkerGen.Run.Generator
import MarkerGen.Run.Report

/-! A run over many source files. Each file is parsed, generated and written before the next
one. A file that cannot be parsed or takes too long is left out with a warning, and its earlier
outputs stay as they are. A fatal error ends the run and leaves the manifest alone.

With more than one job the files are worked on side by side. The batch of a file is written in one
piece, so that only the order of the batches is left open. It does not show in the outcome if no file
comes to something else at another time. -/
namespace MarkerGen

structure RunOptions where
  outDir : Path
  inDir : Option Path
  includePaths : List Path
  mode : OutputMode
  defaultExtension : String
  manifestName : String
  removeStale : Bool
  jobs : Nat
  fileTimeoutMs : Nat
  lead : String
  strict : Bool

namespace RunOptions

def manifestPath (o : RunOptions) : Path := o.outDir.join ⟨o.manifestName⟩

def layout (o : RunOptions) : Layout := .make o.mode o.inDir o.defaultExtension

end RunOptions

/-- A product of machine words, which may be too large for one. -/
def wordProduct (a b : Nat) : Except String Nat :=
  if a * b < Number.wordSize 64 then .ok (a * b) else .error "attempt to multiply with overflow"

def maxPermits : Nat := (Number.wordSize 64 - 1) / 8

def semaphore (permits : Nat) : Except String Nat :=
  if permits ≤ maxPermits then .ok permits
  else .error ("a semaphore may not have more than MAX_PERMITS permits (" ++ toString maxPermits ++ ")")

/-- The workers of a run: how many files are worked on at once, and how many batches can wait for
the writer. -/
structure Workers where
  files : Nat
  batches : Nat

def Workers.start (jobs : Nat) : Except String Workers := do
  let jobs := max jobs 1
  let batches ← semaphore (← wordProduct jobs 2)
  return ⟨← semaphore jobs, batches⟩

structure Pipeline where
  registry : Registry
  grammar : String → Node
  commentMarkers : Bool
  options : RunOptions

/-- The time of a run in milliseconds, and when the plugins that take one call at a time will be
free again. -/
structure Clock where
  now : Nat
  busy : List (String × Nat)

namespace Clock

def start : Clock := ⟨0, []⟩

def freeAt (c : Clock) (plugin : Plugin) : Nat :=
  if plugin.threadSafe then c.now
  else max c.now (((c.busy.find? (·.1 == plugin.id)).map (·.2)).getD 0)

def spend (c : Clock) (call : Call) : Clock :=
  let finished := c.freeAt call.plugin + call.reply.delayMs
  let busy := if call.plugin.threadSafe then c.busy
    else (call.plugin.id, finished) :: c.busy.filter (·.1 != call.plugin.id)
  ⟨finished, busy⟩

/-- The time after all calls for a file, and whether they kept within a limit. A file is
abandoned when the limit is reached, but its calls go on. -/
def watch (c : Clock) (limit : Nat) (calls : List Call) : Clock × Bool :=
  let finished := calls.foldl spend c
  if finished.now < c.now + limit then (finished, true)
  else ({ finished with now := c.now + limit }, false)

end Clock

inductive FileResult where
  | generated (records : List WriteRecord) (warnings : List RunError)
  | parseFailed (error : RunError)
  | timedOut (error : RunError)

namespace Pipeline

def generator (p : Pipeline) : Generator :=
  ⟨p.registry, p.options.layout, p.options.lead, p.options.strict⟩

def frontend (p : Pipeline) : Frontend := ⟨p.grammar, p.commentMarkers, p.options.includePaths⟩

structure State where
  files : FileStore
  writer : Writer
  clock : Clock

inductive Prepared where
  | ready (output : FileOutput)
  | parseFailed (error : RunError)
  | timedOut (error : RunError)
  | broken (error : RunError)

def Prepared.ofResult : Except RunError FileOutput → Prepared
  | .ok output => .ready output
  | .error error => .broken error

def prepare (p : Pipeline) (fs : FileStore) (clock : Clock) (input : Path) : Clock × Prepared :=
  let (calls, prepared) := match p.frontend.parseFile fs input with
    | .ok u =>
      let (calls, made) := p.generator.trace u
      (calls, Prepared.ofResult made)
    | .error failure => ([], .parseFailed (.ofParseFailure failure))
  let (clock, inTime) := clock.watch p.options.fileTimeoutMs calls
  (clock, if inTime then prepared else .timedOut (.fileTimeout input p.options.fileTimeoutMs))

def processFile (p : Pipeline) (s : State) (input : Path) : State × Except RunError FileResult :=
  let (clock, prepared) := p.prepare s.files s.clock input
  let s := { s with clock }
  match prepared with
  | .parseFailed error => (s, .ok (.parseFailed error))
  | .timedOut error => (s, .ok (.timedOut error))
  | .broken error => (s, .error error)
  | .ready output =>
    let (writer, files, written) := s.writer.writeBatch s.files output.fragments
    let s := { s with writer, files }
    match written with
    | .error error => (s, .error error.toRunError)
    | .ok records => (s, .ok (.generated records output.warnings))

def processFiles (p : Pipeline) (s : State) : List Path → FileStore × Except RunError (List FileResult)
  | [] => (s.files, .ok [])
  | input :: rest =>
    match p.processFile s input with
    | (s, .error error) => (s.files, .error error)
    | (s, .ok result) =>
      let (files, results) := p.processFiles s rest
      (files, results.map (result :: ·))

structure Ledger where
  report : RunReport
  entries : List ManifestEntry
  regenerated : List Path

def Ledger.start (inputs : List Path) : Ledger := ⟨⟨inputs.length, 0, 0, [], 0, 0, []⟩, [], []⟩

def entryOf (source : Path) (r : WriteRecord) : ManifestEntry := ⟨source, r.output, r.fingerprint, r.status⟩

def Ledger.enter (l : Ledger) (previous : Manifest) (source : Path) : FileResult → Ledger
  | .generated records warnings =>
    { report := { l.report with
        filesGenerated := l.report.filesGenerated + 1
        fragmentsWritten := l.report.fragmentsWritten + records.countP (·.status == .written)
        fragmentsUnchanged := l.report.fragmentsUnchanged + records.countP (·.status == .unchanged)
        warnings := l.report.warnings ++ warnings.map (·.report) }
      entries := l.entries ++ records.map (entryOf source)
      regenerated := l.regenerated ++ [source] }
  | .parseFailed error =>
    { l with
      report := { l.report with
        parseFailures := l.report.parseFailures + 1
        warnings := l.report.warnings ++ [error.report] }
      entries := l.entries ++ previous.entriesFor source }
  | .timedOut error =>
    { l with
      report := { l.report with warnings := l.report.warnings ++ [error.report] }
      entries := l.entries ++ previous.entriesFor source }

def Ledger.gather (previous : Manifest) (l : Ledger) (results : List (Path × FileResult)) : Ledger :=
  results.foldl (fun (l : Ledger) (source, result) => l.enter previous source result) l

/-- Removes stale outputs; those that cannot be removed stay. -/
def removeAll (fs : FileStore) (outDir : Path) (outputs : List Path) : FileStore :=
  outputs.foldl (fun fs output => (fs.remove (outDir.join output)).toOption.getD fs) fs

/-- The entries of the results and those of inputs that were no part of the run. -/
def currentEntries (previous : Manifest) (sources : List Path) (entries : List ManifestEntry) :
    List ManifestEntry :=
  entries ++ previous.entries.filter fun entry => !sources.any (·.same entry.input)

/-- The first entry of each stale output, which is kept until the output is removed. -/
def staleEntries (previous : Manifest) (stale : List Path) : List ManifestEntry :=
  stale.filterMap fun output => previous.entries.find? (·.output.same output)

def finish (p : Pipeline) (fs : FileStore) (previous : Manifest) (inputs : List Path)
    (results : List FileResult) : FileStore × Except RunError RunReport :=
  let sources := inputs.map p.options.layout.sourcePath
  let ledger := Ledger.gather previous (.start inputs) (sources.zip results)
  let current : Manifest := ⟨Manifest.formatVersion, currentEntries previous sources ledger.entries⟩
  let stale := previous.staleOutputs current ledger.regenerated
  let (fs, kept) := if p.options.removeStale then (removeAll fs p.options.outDir stale, [])
    else (fs, staleEntries previous stale)
  let saved := { current with entries := current.entries ++ kept }
  match saved.save fs p.options.manifestPath with
  | (fs, .error error) => (fs, .error error.toRunError)
  | (fs, .ok ()) => (fs, .ok { ledger.report with staleOutputs := stale })

def resume (p : Pipeline) (previous : Manifest) (fs : FileStore) (inputs : List Path) :
    FileStore × Except (Halt RunError) RunReport :=
  match Workers.start p.options.jobs with
  | .error message => (fs, .error (.panic message))
  | .ok _ =>
    match p.processFiles ⟨fs, .fresh p.options.outDir, .start⟩ inputs with
    | (fs, .error error) => (fs, .error (.error error))
    | (fs, .ok results) =>
      let (fs, ended) := p.finish fs previous inputs results
      (fs, ended.mapError .error)

def run (p : Pipeline) (fs : FileStore) (inputs : List Path) : FileStore × Except (Halt RunError) RunReport :=
  match fs.makeDirectory p.options.outDir with
  | .error error => (fs, .error (.error (.ofFile p.options.outDir error)))
  | .ok fs => p.resume (Manifest.load fs p.options.manifestPath) fs inputs

end Pipeline

end MarkerGen
