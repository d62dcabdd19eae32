import MarkerGen.Json.Value

/-! Reading JSON strictly: one value, nothing after it but blanks, no comments and no trailing
commas. The text is cut into tokens, and the tokens are put together by a machine that keeps
the arrays and objects still open. -/
namespace MarkerGen.Json

inductive Token where
  | openBrace
  | closeBrace
  | openBracket
  | closeBracket
  | comma
  | colon
  | scalar (value : Json)

/-- Characters of a string literal. A UTF-16 half of a character stands for itself until its
other half follows. -/
inductive Unit16 where
  | char (c : Char)
  | half (code : Nat)

def join16 : List Unit16 → Option (List Char)
  | [] => some []
  | .char c :: rest => (join16 rest).map (c :: ·)
  | .half high :: .half low :: rest =>
    if high < 0xDC00 ∧ 0xDC00 ≤ low then
      (join16 rest).map (Char.ofNat (0x10000 + (high - 0xD800) * 0x400 + (low - 0xDC00)) :: ·)
    else none
  | .half _ :: _ => none

def hexValue? (c : Char) : Option Nat :=
  if '0' ≤ c ∧ c ≤ '9' then some (c.toNat - '0'.toNat)
  else if 'a' ≤ c ∧ c ≤ 'f' then some (c.toNat - 'a'.toNat + 10)
  else if 'A' ≤ c ∧ c ≤ 'F' then some (c.toNat - 'A'.toNat + 10)
  else none

def unescape? : Char → Option Char
  | '"' => some '"'
  | '\\' => some '\\'
  | '/' => some '/'
  | 'b' => some (Char.ofNat 8)
  | 'f' => some (Char.ofNat 12)
  | 'n' => some '\n'
  | 'r' => some '\r'
  | 't' => some '\t'
  | _ => none

def unit16 (code : Nat) : Unit16 :=
  if 0xD800 ≤ code ∧ code < 0xE000 then .half code else .char (Char.ofNat code)

def digits? (s : List Char) : Option (List Char) :=
  match s with
  | c :: rest => if c.isDigit then some (rest.dropWhile Char.isDigit) else none
  | [] => none

/-- Whether a text is a number: no leading zeros, and digits on both sides of a point. -/
def isNumber (literal : List Char) : Bool :=
  let unsigned := match literal with
    | '-' :: rest => rest
    | rest => rest
  let whole := match unsigned with
    | '0' :: rest => some rest
    | rest => digits? rest
  let fraction := whole.bind fun
    | '.' :: rest => digits? rest
    | rest => some rest
  let exponent := fraction.bind fun
    | e :: rest =>
      if e = 'e' ∨ e = 'E' then
        match rest with
        | '+' :: rest | '-' :: rest => digits? rest
        | rest => digits? rest
      else some (e :: rest)
    | [] => some []
  exponent == some []

def isNumberChar (c : Char) : Bool := c.isDigit || c == '-' || c == '+' || c == '.' || c == 'e' || c == 'E'

/-- The position of the scan: between tokens, in a string literal, after a backslash in one,
in a hexadecimal escape, in a number or in a word. Text read so far is kept reversed. -/
inductive Lexing where
  | idle
  | literal (read : List Unit16)
  | escape (read : List Unit16)
  | hex (read : List Unit16) (digits : Nat) (code : Nat)
  | number (read : List Char)
  | word (read : List Char)

def wordToken? (word : List Char) : Option Token :=
  match String.ofList word with
  | "null" => some (.scalar .null)
  | "true" => some (.scalar (.bool true))
  | "false" => some (.scalar (.bool false))
  | _ => none

def numberToken? (literal : List Char) : Option Token :=
  if isNumber literal then some (.scalar (.num (String.ofList literal))) else none

def begin? (c : Char) : Option (List Token × Lexing) :=
  match c with
  | ' ' | '\n' | '\r' | '\t' => some ([], .idle)
  | '\x7b' => some ([.openBrace], .idle)
  | '\x7d' => some ([.closeBrace], .idle)
  | '[' => some ([.openBracket], .idle)
  | ']' => some ([.closeBracket], .idle)
  | ',' => some ([.comma], .idle)
  | ':' => some ([.colon], .idle)
  | '"' => some ([], .literal [])
  | c =>
    if c.isDigit || c == '-' then some ([], .number [c])
    else if c.isAlpha then some ([], .word [c])
    else none

def lexStep : Lexing → Char → Option (List Token × Lexing)
  | .idle, c => begin? c
  | .literal read, c =>
    if c = '"' then
      some ([.scalar (.str ((join16 read.reverse).map String.ofList))], .idle)
    else if c = '\\' then some ([], .escape read)
    else if c.toNat < 32 then none
    else some ([], .literal (.char c :: read))
  | .escape read, c =>
    if c = 'u' then some ([], .hex read 0 0)
    else (unescape? c).map fun c => ([], .literal (.char c :: read))
  | .hex read digits code, c =>
    (hexValue? c).map fun value =>
      let code := code * 16 + value
      if digits = 3 then ([], .literal (unit16 code :: read)) else ([], .hex read (digits + 1) code)
  | .number read, c =>
    if isNumberChar c then some ([], .number (c :: read))
    else do
      let token ← numberToken? read.reverse
      let (tokens, next) ← begin? c
      return (token :: tokens, next)
  | .word read, c =>
    if c.isAlpha then some ([], .word (c :: read))
    else do
      let token ← wordToken? read.reverse
      let (tokens, next) ← begin? c
      return (token :: tokens, next)

def lexEnd : Lexing → Option (List Token)
  | .idle => some []
  | .number read => (numberToken? read.reverse).map ([·])
  | .word read => (wordToken? read.reverse).map ([·])
  | _ => none

def lexFrom : Lexing → List Char → Option (List Token)
  | state, [] => lexEnd state
  | state, c :: rest =>
    match lexStep state c with
    | none => none
    | some (tokens, next) => (lexFrom next rest).map (tokens ++ ·)

inductive Frame where
  | array (items : List Json)
  | object (fields : List (Option String × Json)) (name : Option String)

/-- What may come next. `close` tells whether an empty array or object may be closed. -/
inductive Parsing where
  | value (close : Bool) (frames : List Frame)
  | name (close : Bool) (fields : List (Option String × Json)) (frames : List Frame)
  | colon (name : Option String) (fields : List (Option String × Json)) (frames : List Frame)
  | complete (value : Json) (frames : List Frame)

def parseStep : Parsing → Token → Option Parsing
  | .value _ frames, .scalar value => some (.complete value frames)
  | .value _ frames, .openBracket => some (.value true (.array [] :: frames))
  | .value _ frames, .openBrace => some (.name true [] frames)
  | .value true (.array [] :: frames), .closeBracket => some (.complete (.arr []) frames)
  | .name _ fields frames, .scalar (.str name) => some (.colon name fields frames)
  | .name true [] frames, .closeBrace => some (.complete (.obj []) frames)
  | .colon name fields frames, .colon => some (.value false (.object fields name :: frames))
  | .complete value (.array items :: frames), .comma => some (.value false (.array (value :: items) :: frames))
  | .complete value (.array items :: frames), .closeBracket =>
    some (.complete (.arr (value :: items).reverse) frames)
  | .complete value (.object fields name :: frames), .comma => some (.name false ((name, value) :: fields) frames)
  | .complete value (.object fields name :: frames), .closeBrace =>
    some (.complete (.obj ((name, value) :: fields).reverse) frames)
  | _, _ => none

def parseTokens (tokens : List Token) : Option Json :=
  match tokens.foldlM parseStep (.value false []) with
  | some (.complete value []) => some value
  | _ => none

def parse? (s : String) : Option Json := (lexFrom .idle s.toList).bind parseTokens

end MarkerGen.Json
