import MarkerGen.RunError

/-! The report of a run that came to its end. -/
namespace MarkerGen

structure RunReport where
  filesTotal : Nat
  filesGenerated : Nat
  parseFailures : Nat
  warnings : List ErrorReport
  fragmentsWritten : Nat
  fragmentsUnchanged : Nat
  staleOutputs : List Path
  deriving DecidableEq, Repr

inductive RunOutcome where
  | success
  | completedWithWarnings
  deriving DecidableEq, Repr

def RunOutcome.name : RunOutcome → String
  | .success => "success"
  | .completedWithWarnings => "completed-with-warnings"

namespace RunReport

def outcome (r : RunReport) : RunOutcome :=
  if r.warnings.isEmpty then .success else .completedWithWarnings

/-- The number of files with a new content. -/
def changed (r : RunReport) : Nat := r.fragmentsWritten

/-- A count with what it counts, or nothing for zero. -/
def remark (count : Nat) (what : String) : String :=
  if count = 0 then "" else ", " ++ toString count ++ " " ++ what

def summary (r : RunReport) : String :=
  toString r.filesTotal ++ " file(s), " ++ toString r.filesGenerated ++ " generated, " ++
    toString r.fragmentsWritten ++ " written, " ++ toString r.fragmentsUnchanged ++ " unchanged" ++
    remark r.parseFailures "parse failure(s)" ++ remark r.warnings.length "warning(s)" ++
    remark r.staleOutputs.length "stale output(s)"

end RunReport

end MarkerGen
