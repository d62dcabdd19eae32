import MarkerGen.Number

/-! String literals in settings. Between double quotes a backslash starts an escape; between
single quotes every character stands for itself. -/
namespace MarkerGen.Literal

/-- Characters that may stand for themselves on a line. -/
def isTextChar (c : Char) : Bool := c == '\t' || (32 ≤ c.toNat && c.toNat ≠ 127)

def unescape? : Char → Option Char
  | 'b' => some (Char.ofNat 8)
  | 't' => some '\t'
  | 'n' => some '\n'
  | 'f' => some (Char.ofNat 12)
  | 'r' => some '\r'
  | '"' => some '"'
  | '\\' => some '\\'
  | _ => none

def hexChar? (digits : List Char) : Option Char :=
  (Number.digits? 16 digits).bind fun n => if n.isValidChar then some (Char.ofNat n) else none

def keep (c : Option Char) (rest : Option (List Char × List Char)) : Option (List Char × List Char) :=
  match c, rest with
  | some c, some (text, rest) => some (c :: text, rest)
  | _, _ => none

def basic : List Char → Option (List Char × List Char)
  | [] => none
  | '"' :: rest => some ([], rest)
  | '\\' :: 'u' :: a :: b :: c :: d :: rest => keep (hexChar? [a, b, c, d]) (basic rest)
  | '\\' :: 'U' :: a :: b :: c :: d :: e :: f :: g :: h :: rest =>
    keep (hexChar? [a, b, c, d, e, f, g, h]) (basic rest)
  | '\\' :: c :: rest => keep (unescape? c) (basic rest)
  | c :: rest => if isTextChar c && c != '\\' then keep (some c) (basic rest) else none

def verbatim : List Char → Option (List Char × List Char)
  | [] => none
  | '\'' :: rest => some ([], rest)
  | c :: rest => if isTextChar c then keep (some c) (verbatim rest) else none

/-- Whether blanks and line breaks are being left out after a backslash at the end of a line. -/
inductive Folding where
  | off
  | awaitingBreak
  | on
  deriving DecidableEq, Repr

def basicLines : Folding → List Char → Option (List Char × List Char)
  | _, [] => none
  | .awaitingBreak, '\r' :: '\n' :: rest => basicLines .on rest
  | .awaitingBreak, c :: rest =>
    if c = '\n' then basicLines .on rest
    else if c = ' ' ∨ c = '\t' then basicLines .awaitingBreak rest
    else none
  | folding, '\r' :: '\n' :: rest =>
    if folding = .on then basicLines .on rest else keep (some '\n') (basicLines .off rest)
  | _, '"' :: '"' :: '"' :: '"' :: '"' :: rest => some (['"', '"'], rest)
  | _, '"' :: '"' :: '"' :: '"' :: rest => some (['"'], rest)
  | _, '"' :: '"' :: '"' :: rest => some ([], rest)
  | _, '\\' :: 'u' :: a :: b :: c :: d :: rest => keep (hexChar? [a, b, c, d]) (basicLines .off rest)
  | _, '\\' :: 'U' :: a :: b :: c :: d :: e :: f :: g :: h :: rest =>
    keep (hexChar? [a, b, c, d, e, f, g, h]) (basicLines .off rest)
  | _, '\\' :: '\r' :: '\n' :: rest => basicLines .on rest
  | _, '\\' :: c :: rest =>
    if c = '\n' then basicLines .on rest
    else if c = ' ' ∨ c = '\t' then basicLines .awaitingBreak rest
    else keep (unescape? c) (basicLines .off rest)
  | folding, c :: rest =>
    if folding = .on ∧ (c = ' ' ∨ c = '\t' ∨ c = '\n') then basicLines .on rest
    else if (isTextChar c && c != '\\') || c == '\n' then keep (some c) (basicLines .off rest)
    else none

def verbatimLines : List Char → Option (List Char × List Char)
  | [] => none
  | '\r' :: '\n' :: rest => keep (some '\n') (verbatimLines rest)
  | '\'' :: '\'' :: '\'' :: '\'' :: '\'' :: rest => some (['\'', '\''], rest)
  | '\'' :: '\'' :: '\'' :: '\'' :: rest => some (['\''], rest)
  | '\'' :: '\'' :: '\'' :: rest => some ([], rest)
  | c :: rest => if isTextChar c || c == '\n' then keep (some c) (verbatimLines rest) else none

def dropBreak : List Char → List Char
  | '\n' :: rest => rest
  | '\r' :: '\n' :: rest => rest
  | text => text

end MarkerGen.Literal
