import MarkerGen.Text

/-! Annotation tokens. A comment is one token, the text inside its delimiters; an attribute
holds one token for each call of `annotate`, the string literals at the start of its
arguments put together. -/
namespace MarkerGen.AnnotationTokens

inductive Literals where
  | between (seen : Bool)
  | inside
  | escaped
  deriving DecidableEq, Repr

def unescape : Char → Char
  | 'n' => '\n'
  | 't' => '\t'
  | c => c

/-- Decodes and joins the string literals at the start of an argument list, which must end
with a comma or a closing parenthesis. -/
def leadingLiterals : Literals → List Char → Option (List Char)
  | _, [] => none
  | .between seen, c :: s =>
    if Chars.isBlank c then leadingLiterals (.between seen) s
    else if c = '"' then leadingLiterals .inside s
    else if seen && (c = ',' || c = ')') then some []
    else none
  | .inside, c :: s =>
    if c = '"' then leadingLiterals (.between true) s
    else if c = '\\' then leadingLiterals .escaped s
    else (leadingLiterals .inside s).map (c :: ·)
  | .escaped, c :: s => (leadingLiterals .inside s).map (unescape c :: ·)

def callToken? (s : List Char) : Option (List Char) :=
  match Chars.trimLeft s with
  | '(' :: args => leadingLiterals (.between false) args
  | _ => none

def annotate : List Char := ['a', 'n', 'n', 'o', 't', 'a', 't', 'e']

/-- The tokens of all calls of `annotate`, where `previous` is the character in front. -/
def attributeTokensFrom (previous : Option Char) : List Char → List (List Char)
  | [] => []
  | c :: s =>
    let token? :=
      match Chars.afterLead? annotate (c :: s) with
      | some rest => if previous.any Chars.isWordChar then none else callToken? rest
      | none => none
    token?.toList ++ attributeTokensFrom (some c) s

def attributeTokens (text : String) : List String :=
  (attributeTokensFrom none text.toList).map String.ofList

def commentLine (line : List Char) : List Char :=
  Chars.trim ((Chars.trim line).dropWhile (· == '*'))

def commentBody? (text : List Char) : Option (List Char) :=
  match Chars.trim text with
  | '/' :: '/' :: line => some (Chars.trim (line.dropWhile fun c => c == '/' || c == '!'))
  | '/' :: '*' :: block =>
    let block := (Chars.beforeTail? ['*', '/'] block).getD block
    let lines := Chars.splitAt (· == '\n') (block.dropWhile fun c => c == '*' || c == '!')
    some ([' '].intercalate ((lines.map commentLine).filter (!·.isEmpty)))
  | _ => none

def commentToken? (text : String) : Option String :=
  match commentBody? text.toList with
  | some (c :: body) => some (String.ofList (c :: body))
  | _ => none

end MarkerGen.AnnotationTokens
