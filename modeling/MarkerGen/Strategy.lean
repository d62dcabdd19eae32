import MarkerGen.Marker
import MarkerGen.SourceUnit

/-! Strategies: the functions behind capabilities. A strategy answers a request for one
declaration with blocks of code or with an error that the run can live with. -/
namespace MarkerGen

/-- A block of generated text, with a file name or an extension if the strategy asks for it. -/
structure Code where
  contents : String
  fileName : Option String
  extension : Option String
  deriving DecidableEq, Repr

namespace Code

def ofText (contents : String) : Code := ⟨contents, none, none⟩

def withExtension (code : Code) (extension : String) : Code :=
  { code with extension := some (String.ofList (extension.toList.dropWhile (· == '.'))) }

end Code

inductive GenerationError where
  | unsupported (message : String)
  | invalidInput (message : String)
  | missingContext (message : String)
  | internal (message : String)
  deriving DecidableEq, Repr

def GenerationError.message : GenerationError → String
  | .unsupported message => "Unsupported declaration: " ++ message
  | .invalidInput message => "Invalid annotation input: " ++ message
  | .missingContext message => "Missing context: " ++ message
  | .internal message => "Internal error: " ++ message

/-- Why a strategy of this program can break down. -/
inductive Crash where
  /-- A negation left the range of a word. -/
  | negationOverflow
  | missingMember (missing : MissingMember)
  deriving DecidableEq, Repr

def Crash.message : Crash → String
  | .negationOverflow => "attempt to negate with overflow"
  | .missingMember missing => missing.message

/-- Why a strategy gives no code: it complains about its input, or it breaks down. -/
inductive Fault where
  | complaint (error : GenerationError)
  | crash (cause : Crash)
  deriving DecidableEq, Repr

def complaining {α : Type} : Except GenerationError α → Except Fault α
  | .ok value => .ok value
  | .error error => .error (.complaint error)

def looking {α : Type} : Except MissingMember α → Except Fault α
  | .ok value => .ok value
  | .error missing => .error (.crash (.missingMember missing))

structure Request where
  unit : SourceUnit
  declared : Declared
  marker : Marker
  plugin : String

namespace Request

def decl (r : Request) : Declaration := r.declared.decl

def capability (r : Request) : Tag := r.marker.tag

end Request

inductive Outcome where
  | generated (codes : List Code)
  | failed (error : GenerationError)
  | crashed (message : String)
  deriving DecidableEq, Repr

/-- The answer of a strategy and the time it takes. -/
structure Reply where
  outcome : Outcome
  delayMs : Nat
  deriving DecidableEq, Repr

namespace Reply

def ofOutcome (outcome : Outcome) : Reply := ⟨outcome, 0⟩

def ofResult : Except Fault (List Code) → Reply
  | .ok codes => .ofOutcome (.generated codes)
  | .error (.complaint error) => .ofOutcome (.failed error)
  | .error (.crash cause) => .ofOutcome (.crashed cause.message)

end Reply

abbrev Strategy := Request → Reply

end MarkerGen
