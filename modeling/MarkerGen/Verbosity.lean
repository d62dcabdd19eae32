import MarkerGen.Number
import MarkerGen.Text

/-! Log levels by name and by number, for the whole program and for single modules. -/
namespace MarkerGen.Verbosity

def levels : List String := ["trace", "debug", "info", "warn", "error"]

/-- The level of a verbosity; the higher it is the more is told. -/
def level (verbosity : Int) : String :=
  if 2 ≤ verbosity then "trace"
  else if verbosity = 1 then "debug"
  else if verbosity = 0 then "info"
  else "warn"

def number? (text : List Char) : Option Int := Number.signedWord? 32 10 (Chars.trim text)

def logLevel (text : List Char) : List Char :=
  match number? text with
  | some verbosity => (level verbosity).toList
  | none => Chars.lower (Chars.trim text)

def directives (text : String) : List String :=
  let items := ((Chars.splitAt (· == ',') text.toList).map Chars.trim).filter (!·.isEmpty)
  items.map fun item => String.ofList <|
    match Chars.breakOn? ['='] item with
    | some (name, level) => Chars.trim name ++ '=' :: logLevel level
    | none => item

/-- The module that a pattern names: without file endings and wildcards, and with underscores
for dashes. -/
def moduleOf (pattern : List Char) : List Char :=
  ((Chars.dropTails ['.', 'r', 's'] (Chars.trim pattern)).filter fun c => c != '*' && c != '?').map
    fun c => if c = '-' then '_' else c

def patternDirectives (text : String) : List String :=
  (Chars.splitAt (· == ',') text.toList).filterMap fun item => do
    let (pattern, level) ← Chars.breakOn? ['='] item
    let verbosity ← number? level
    if (moduleOf pattern).isEmpty then none
    else some (String.ofList (moduleOf pattern) ++ "=" ++ Verbosity.level verbosity)

end MarkerGen.Verbosity
