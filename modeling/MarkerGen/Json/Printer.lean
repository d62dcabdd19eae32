import MarkerGen.Json.Value

/-! Writing JSON, on one line or indented by two spaces. Of the characters only quotes,
backslashes and control characters are escaped. -/
namespace MarkerGen.Json

def hexDigit (n : Nat) : Char := "0123456789abcdef".toList.getD n '0'

def escapeChar (c : Char) : List Char :=
  if c = '"' then ['\\', '"']
  else if c = '\\' then ['\\', '\\']
  else if c = '\n' then ['\\', 'n']
  else if c = '\r' then ['\\', 'r']
  else if c = '\t' then ['\\', 't']
  else if c.toNat = 8 then ['\\', 'b']
  else if c.toNat = 12 then ['\\', 'f']
  else if c.toNat < 32 then ['\\', 'u', '0', '0', hexDigit (c.toNat / 16), hexDigit (c.toNat % 16)]
  else [c]

/-- A string literal. -/
def quote (s : String) : List Char := '"' :: s.toList.flatMap escapeChar ++ ['"']

def newline (depth : Nat) : List Char := '\n' :: List.replicate (2 * depth) ' '

mutual
/-- The text of a value whose first line stands at `depth`; `none` writes all on one line. -/
def write (depth : Option Nat) : Json → List Char
  | .null => "null".toList
  | .bool value => (if value then "true" else "false").toList
  | .num literal => literal.toList
  | .str text => quote (text.getD "")
  | .arr [] => ['[', ']']
  | .arr (item :: items) => '[' :: writeItems (depth.map (· + 1)) (item :: items) ++ closing depth ++ [']']
  | .obj [] => ['\x7b', '\x7d']
  | .obj (field :: fields) =>
    '\x7b' :: writeFields (depth.map (· + 1)) (field :: fields) ++ closing depth ++ ['\x7d']
def writeItems (depth : Option Nat) : List Json → List Char
  | [] => []
  | item :: items => closing depth ++ write depth item ++ separator items.isEmpty ++ writeItems depth items
def writeFields (depth : Option Nat) : List (Option String × Json) → List Char
  | [] => []
  | (name, value) :: fields =>
    closing depth ++ quote (name.getD "") ++ (if depth.isSome then [':', ' '] else [':']) ++
      write depth value ++ separator fields.isEmpty ++ writeFields depth fields
def closing (depth : Option Nat) : List Char :=
  match depth with
  | none => []
  | some depth => newline depth
def separator (last : Bool) : List Char := if last then [] else [',']
end

def compact (value : Json) : String := String.ofList (value.write none)

def pretty (value : Json) : String := String.ofList (value.write (some 0))

end MarkerGen.Json
