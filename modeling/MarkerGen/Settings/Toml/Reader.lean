import MarkerGen.Settings.Literal
import MarkerGen.Settings.Toml.Scalar
import MarkerGen.Settings.Toml.Table

/-! Reading a settings file: lines with headers and with names and values. -/
namespace MarkerGen.Toml

def isSpace (c : Char) : Bool := c == ' ' || c == '\t'

def skipSpace (s : List Char) : List Char := s.dropWhile isSpace

/-- Skips blanks, line breaks and comments. It stops at what may not stand in a comment. -/
def skipLines (inComment : Bool) : List Char → List Char
  | [] => []
  | '\n' :: rest => skipLines false rest
  | '\r' :: '\n' :: rest => skipLines false rest
  | c :: rest =>
    if inComment then
      if c == '\t' || 32 ≤ c.toNat then skipLines true rest else c :: rest
    else if isSpace c then skipLines false rest
    else if c = '#' then skipLines true rest
    else c :: rest

def isBareChar (c : Char) : Bool := c.isAlphanum || c == '_' || c == '-'

def simpleName : List Char → Option (String × List Char)
  | '"' :: rest => (Literal.basic rest).map fun (text, rest) => (String.ofList text, rest)
  | '\'' :: rest => (Literal.verbatim rest).map fun (text, rest) => (String.ofList text, rest)
  | s =>
    match s.takeWhile isBareChar with
    | [] => none
    | name => some (String.ofList name, s.drop name.length)

def names : Nat → List Char → Option (List String × List Char)
  | 0, _ => none
  | fuel + 1, s => do
    let (name, rest) ← simpleName (skipSpace s)
    match skipSpace rest with
    | '.' :: rest =>
      let (more, rest) ← names fuel rest
      return (name :: more, rest)
    | rest => return ([name], rest)

def endsScalar (c : Char) : Bool :=
  isSpace c || c == '\n' || c == '\r' || c == ',' || c == ']' || c == '\x7d' || c == '#' || c == '='

/-- Reads a number, a date or a word. A blank may stand between a date and a time. -/
def scalar (s : List Char) : Option (Setting × List Char) :=
  let token := s.takeWhile (!endsScalar ·)
  let rest := s.drop token.length
  let (token, rest) := match rest with
    | ' ' :: after =>
      let time := after.takeWhile (!endsScalar ·)
      if isDate token && !time.isEmpty then (token ++ 'T' :: time, after.drop time.length) else (token, rest)
    | _ => (token, rest)
  (scalar? token).map (·, rest)

def asText (read : Option (List Char × List Char)) : Option (Setting × List Char) :=
  read.map fun (text, rest) => (.text (String.ofList text), rest)

mutual
def value : Nat → List Char → Option (Setting × List Char)
  | 0, _ => none
  | fuel + 1, s =>
    match s with
    | '"' :: '"' :: '"' :: rest => asText (Literal.basicLines .off (Literal.dropBreak rest))
    | '"' :: rest => asText (Literal.basic rest)
    | '\'' :: '\'' :: '\'' :: rest => asText (Literal.verbatimLines (Literal.dropBreak rest))
    | '\'' :: rest => asText (Literal.verbatim rest)
    | '[' :: rest => (items fuel rest).map fun (items, rest) => (.list items, rest)
    | '\x7b' :: rest =>
      match skipSpace rest with
      | '\x7d' :: rest => some (.table [], rest)
      | rest => do
        let (pairs, rest) ← pairs fuel rest
        let entries ← pairs.foldlM (fun entries (names, value) => Items.addValue entries names value) []
        return (.table (sorted entries), rest)
    | s => scalar s
def items : Nat → List Char → Option (List Setting × List Char)
  | 0, _ => none
  | fuel + 1, s =>
    match skipLines false s with
    | ']' :: rest => some ([], rest)
    | s => do
      let (item, rest) ← value fuel s
      match skipLines false rest with
      | ',' :: rest =>
        let (more, rest) ← items fuel rest
        return (item :: more, rest)
      | ']' :: rest => return ([item], rest)
      | _ => none
def pairs : Nat → List Char → Option (List (List String × Setting) × List Char)
  | 0, _ => none
  | fuel + 1, s => do
    let (pair, rest) ← pair fuel s
    match skipSpace rest with
    | ',' :: rest =>
      let (more, rest) ← pairs fuel rest
      return (pair :: more, rest)
    | '\x7d' :: rest => return ([pair], rest)
    | _ => none
def pair : Nat → List Char → Option ((List String × Setting) × List Char)
  | 0, _ => none
  | fuel + 1, s => do
    let (names, rest) ← names fuel s
    match rest with
    | '=' :: rest =>
      let (value, rest) ← value fuel (skipSpace rest)
      return ((names, value), rest)
    | _ => none
end

/-- The tables read so far, and the header that the reader is below. -/
structure Progress where
  items : Items
  header : List String

def Progress.add (p : Progress) (names : List String) (value : Setting) : Option Progress :=
  (Items.within false .header p.items (fun _ inner => inner.addValue names value) p.header).map fun items =>
    { p with items }

/-- One header, or one name with its value. -/
def statement (fuel : Nat) (p : Progress) (s : List Char) : Option (Progress × List Char) :=
  match s with
  | '[' :: '[' :: rest => do
    let (names, rest) ← names fuel rest
    match rest with
    | ']' :: ']' :: rest => return (⟨← p.items.openNext names, names⟩, rest)
    | _ => none
  | '[' :: rest => do
    let (names, rest) ← names fuel rest
    match rest with
    | ']' :: rest => return (⟨← p.items.openTable names, names⟩, rest)
    | _ => none
  | s => do
    let ((names, value), rest) ← pair fuel s
    return (← p.add names value, rest)

def atLineEnd : List Char → Bool
  | [] => true
  | '\n' :: _ => true
  | '\r' :: '\n' :: _ => true
  | '#' :: _ => true
  | _ => false

def statements : Nat → Progress → List Char → Option Progress
  | 0, _, _ => none
  | fuel + 1, p, s =>
    match skipLines false s with
    | [] => some p
    | s => do
      let (p, rest) ← statement fuel p s
      let rest := skipSpace rest
      if atLineEnd rest then statements fuel p rest else none

def parse? (text : String) : Option Setting :=
  let chars := match text.toList with
    | c :: rest => if c.toNat = 0xFEFF then rest else c :: rest
    | [] => []
  let fuel := 4 * chars.length + 4
  (statements fuel ⟨[], []⟩ chars).map fun p => .table (sorted p.items)

end MarkerGen.Toml
