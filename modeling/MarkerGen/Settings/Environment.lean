import MarkerGen.Settings.Literal
import MarkerGen.Settings.Value

/-! Settings from environment variables. The name of a variable tells the path of a setting: two
underscores divide the names on the way, and one underscore stands before a capital. -/
namespace MarkerGen.Environment

abbrev Variables := List (String × String)

/-- The lead of the variables that are settings, in any letter case. -/
def lead : String := "flextool__"

/-- A name without underscores, where a letter after one becomes a capital and all other letters
become small. -/
def camelCase (capital : Bool) : List Char → List Char
  | [] => []
  | c :: rest =>
    if c = '_' then camelCase true rest
    else (if capital then Chars.upperChar c else Chars.lowerChar c) ++ camelCase false rest

def keyPath (key : List Char) : List Char :=
  ['.'].intercalate ((Chars.splitPair '_' '_' key).map (camelCase false))

def key? (name : String) : Option (List Char) :=
  let name := Chars.trim name.toList
  if (name.take lead.length).map Char.toLower = lead.toList then some (name.drop lead.length) else none

def isSpace (c : Char) : Bool := c == ' ' || c == '\t' || c == '\n' || c == '\r' || c.toNat == 12

def skipSpace (s : List Char) : List Char := s.dropWhile isSpace

def isSeparator (c : Char) : Bool := c == ',' || c == '[' || c == ']' || c == '\x7b' || c == '\x7d'

def isKeyChar (c : Char) : Bool := c.isAlphanum || c == '_' || c == '-'

/-- Whether a text with a point is a number. -/
def isFloat (s : List Char) : Bool :=
  let unsigned := match s with
    | '+' :: rest | '-' :: rest => rest
    | s => s
  let whole := unsigned.takeWhile Char.isDigit
  match unsigned.drop whole.length with
  | '.' :: rest =>
    let fraction := rest.takeWhile Char.isDigit
    let exponent := match rest.drop fraction.length with
      | [] => true
      | mark :: rest =>
        (mark == 'e' || mark == 'E') && (match rest with
          | '+' :: digits | '-' :: digits => (Number.digits? 10 digits).isSome
          | digits => (Number.digits? 10 digits).isSome)
    !(whole.isEmpty && fraction.isEmpty) && exponent
  | _ => false

def word (s : List Char) : Setting :=
  if isFloat s then .float (String.ofList s)
  else match Number.unsignedWord? 64 10 s with
    | some n => .int n
    | none =>
      match Number.signedWord? 64 10 s with
      | some v => .int v
      | none => .text (String.ofList s)

def entryName : List Char → Option (List Char × List Char)
  | '"' :: rest => Literal.basic rest
  | s =>
    match s.takeWhile isKeyChar with
    | [] => none
    | name => some (name, s.drop name.length)

mutual
def value : Nat → List Char → Option (Setting × List Char)
  | 0, _ => none
  | fuel + 1, s =>
    match bareValue fuel (skipSpace s) with
    | some (setting, rest) => some (setting, skipSpace rest)
    | none => none
def bareValue : Nat → List Char → Option (Setting × List Char)
  | 0, _ => none
  | fuel + 1, s =>
    match s with
    | 't' :: 'r' :: 'u' :: 'e' :: rest => some (.flag true, rest)
    | 'f' :: 'a' :: 'l' :: 's' :: 'e' :: rest => some (.flag false, rest)
    | '\x7b' :: rest => (entries fuel [] rest).map fun (entries, rest) => (.table entries, rest)
    | '[' :: rest => (items fuel rest).map fun (items, rest) => (.list items, rest)
    | '"' :: rest => (Literal.basic rest).map fun (text, rest) => (.text (String.ofList text), rest)
    | '\'' :: c :: '\'' :: rest => some (.text (String.ofList [c]), rest)
    | '\'' :: _ => none
    | s =>
      let token := s.takeWhile (!isSeparator ·)
      some (word (Chars.trim token), s.drop token.length)
def items : Nat → List Char → Option (List Setting × List Char)
  | 0, _ => none
  | fuel + 1, s =>
    match s with
    | ']' :: rest => some ([], rest)
    | s => do
      let (item, rest) ← value fuel s
      match rest with
      | ',' :: rest =>
        let (more, rest) ← items fuel rest
        return (item :: more, rest)
      | ']' :: rest => return ([item], rest)
      | _ => none
def entries : Nat → Setting.Entries → List Char → Option (Setting.Entries × List Char)
  | 0, _, _ => none
  | fuel + 1, before, s =>
    match s with
    | '\x7d' :: rest => some (before, rest)
    | s => do
      let (name, rest) ← entryName (skipSpace s)
      match skipSpace rest with
      | '=' :: rest =>
        let (setting, rest) ← value fuel rest
        let before := Setting.put (String.ofList name) setting before
        match rest with
        | ',' :: rest => entries fuel before rest
        | '\x7d' :: rest => return (before, rest)
        | _ => none
      | _ => none
end

/-- The value of a variable. What is not written like one is a text as it stands. -/
def parse (text : String) : Setting :=
  match value (3 * text.length + 3) text.toList with
  | some (setting, []) => setting
  | _ => .text text

def setting? (entry : String × String) : Option Setting :=
  (key? entry.1).map fun key =>
    let path := Chars.splitAt (· == '.') (Chars.trim (keyPath key))
    (parse entry.2).nest (path.map String.ofList)

def settings (environment : Variables) : Setting :=
  (environment.filterMap setting?).foldl Setting.merge (.table [])

end MarkerGen.Environment
