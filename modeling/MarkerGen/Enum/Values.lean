import MarkerGen.Number
import MarkerGen.Strategy

/-! Values of enumerators as far as they can be told without evaluating expressions: integer
literals, names of earlier enumerators, and successors of known values. Numbers are 128-bit
words. -/
namespace MarkerGen.Enum

def wordBits : Nat := 128

def isIntegerSuffix (c : Char) : Bool := c == 'u' || c == 'U' || c == 'l' || c == 'L'

/-- The digits of a literal without integer suffix and digit separators. -/
def literalDigits (literal : List Char) : List Char :=
  (Chars.dropRightWhile isIntegerSuffix literal).filter (· != '\'')

def magnitude? (digits : List Char) : Option Int :=
  match digits with
  | '0' :: 'x' :: hex | '0' :: 'X' :: hex => Number.signedWord? wordBits 16 hex
  | '0' :: 'b' :: binary | '0' :: 'B' :: binary => Number.signedWord? wordBits 2 binary
  | '0' :: octal =>
    if octal.isEmpty then Number.signedWord? wordBits 10 digits else Number.signedWord? wordBits 8 octal
  | _ => Number.signedWord? wordBits 10 digits

def literalValue (text : List Char) : Except Crash (Option Int) :=
  match text with
  | '-' :: rest =>
    match magnitude? (literalDigits (Chars.trim rest)) with
    | none => .ok none
    | some value => if Number.inSignedRange wordBits (-value) then .ok (some (-value)) else .error .negationOverflow
  | _ => .ok (magnitude? (literalDigits text))

def successor? (value : Option Int) : Option Int :=
  value.bind fun v => if Number.inSignedRange wordBits (v + 1) then some (v + 1) else none

/-- Enumerators read so far with their values, the last one first. -/
abbrev Known := List (String × Option Int)

def Known.value? (known : Known) (name : String) : Option Int :=
  (known.reverse.find? (·.1 == name)).bind (·.2)

def valueAfter (known : Known) (enumerator : Enumerator) : Except Crash (Option Int) :=
  match enumerator.value with
  | none =>
    match known with
    | [] => .ok (some 0)
    | (_, previous) :: _ => .ok (successor? previous)
  | some text =>
    let text := Chars.trim text.toList
    match literalValue text with
    | .error crash => .error crash
    | .ok (some value) => .ok (some value)
    | .ok none => .ok (known.value? (String.ofList text))

def valuesFrom (known : Known) : List Enumerator → Except Crash (List (Option Int))
  | [] => .ok []
  | enumerator :: rest =>
    match valueAfter known enumerator with
    | .error crash => .error crash
    | .ok value => (valuesFrom ((enumerator.name, value) :: known) rest).map (value :: ·)

/-- The values of enumerators in order; `none` where a value is not known. -/
def values (enumerators : List Enumerator) : Except Crash (List (Option Int)) := valuesFrom [] enumerators

end MarkerGen.Enum
