import MarkerGen.Output.Layout
import MarkerGen.Plugin.Registry
import MarkerGen.Scan

/-! Generating the output of one source file. The markers are handled in source order. What a
strategy cannot do is a warning and the others go on; a strategy that breaks down ends the
file, and so does an unknown tag if the generator is strict. -/
namespace MarkerGen

structure Generator where
  registry : Registry
  layout : Layout
  lead : String
  strict : Bool

structure FileOutput where
  input : Path
  fragments : List Fragment
  warnings : List RunError
  requests : Nat
  deriving DecidableEq, Repr

structure Call where
  plugin : Plugin
  reply : Reply

inductive Step where
  | skipped
  | unsupported (error : RunError)
  | unknown (error : RunError)
  | called (call : Call)

namespace Generator

/-- How errors name a marked declaration and the plugin it was given to. -/
def attempt (m : Match) (plugin : String) : Attempt :=
  ⟨plugin, m.marker.tag, m.declared.decl.qualifiedName, m.declared.decl.location⟩

def step (g : Generator) (u : SourceUnit) (m : Match) : Step :=
  match g.registry.resolveFor m.marker.tag m.declared.decl.kind with
  | .ok claim => .called ⟨claim.plugin, claim.capability.strategy ⟨u, m.declared, m.marker, claim.plugin.id⟩⟩
  | .error (.unknownCapability tag) =>
    if g.strict then .unknown (.unknownCapability tag (some m.declared.decl.location)) else .skipped
  | .error error => .unsupported (.generation (attempt m "<none>") error.message)

/-- The blocks and warnings so far, and the number of calls. -/
structure Progress where
  sections : List Section
  warnings : List RunError
  requests : Nat

def Progress.start : Progress := ⟨[], [], 0⟩

def sectionsOf (m : Match) (plugin : Plugin) (codes : List Code) : List Section :=
  codes.map fun code =>
    ⟨plugin.id, plugin.version, m.marker.tag, m.declared.decl.qualifiedName, m.declared.decl.location, code⟩

def advance (m : Match) (progress : Progress) : Step → Except RunError Progress
  | .skipped => .ok progress
  | .unsupported error => .ok { progress with warnings := progress.warnings ++ [error] }
  | .unknown error => .error error
  | .called ⟨plugin, reply⟩ =>
    let requests := progress.requests + 1
    match reply.outcome with
    | .generated codes =>
      .ok { progress with sections := progress.sections ++ sectionsOf m plugin codes, requests }
    | .failed error =>
      let warning := RunError.generation (attempt m plugin.id) error.message
      .ok { progress with warnings := progress.warnings ++ [warning], requests }
    | .crashed message => .error (.pluginCrash (attempt m plugin.id) message)

/-- Handles markers in order, and tells which calls were made before the end. -/
def handle (g : Generator) (u : SourceUnit) (progress : Progress) :
    List Match → List Call × Except RunError Progress
  | [] => ([], .ok progress)
  | m :: rest =>
    let step := g.step u m
    let calls := match step with
      | .called call => [call]
      | _ => []
    match advance m progress step with
    | .error error => (calls, .error error)
    | .ok next =>
      let (later, result) := handle g u next rest
      (calls ++ later, result)

def finish (g : Generator) (u : SourceUnit) (progress : Progress) : FileOutput :=
  let (fragments, misplaced) := g.layout.assemble u.path progress.sections
  ⟨u.path, fragments, progress.warnings ++ misplaced, progress.requests⟩

def trace (g : Generator) (u : SourceUnit) : List Call × Except RunError FileOutput :=
  let (calls, result) := g.handle u .start (Scan.matchesOf g.lead u)
  (calls, result.map (g.finish u))

def generate (g : Generator) (u : SourceUnit) : Except RunError FileOutput := (g.trace u).2

end Generator

end MarkerGen
