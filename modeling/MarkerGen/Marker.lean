import MarkerGen.Capability.Tag

/-! Generation markers. A marker is a token `<lead><name>(<arguments>)`, where the lead is a
fixed text that tells markers from plain annotations. The closing parenthesis is the one that
matches the first opening one outside string literals, and nothing may follow it. -/
namespace MarkerGen

structure Argument where
  name : Option String
  value : String
  deriving DecidableEq, Repr

structure Marker where
  tag : Tag
  args : List Argument
  raw : String
  deriving DecidableEq, Repr

inductive MarkerFault where
  | missingArguments
  | invalidName
  | unbalanced
  | trailingInput
  deriving DecidableEq, Repr

def MarkerFault.message (token : String) : MarkerFault → String
  | .missingArguments => "marker '" ++ token ++ "' has no argument list"
  | .invalidName => "marker '" ++ token ++ "' has an empty or invalid capability name"
  | .unbalanced => "marker '" ++ token ++ "' has unbalanced parentheses or quotes"
  | .trailingInput => "marker '" ++ token ++ "' has trailing text after the argument list"

namespace Marker

def defaultLead : String := "\x7bgen\x7d;\x7bfunccall\x7d;"

def isNameChar (c : Char) : Bool := c.isAlphanum || c == '_' || c == '-'

def isName (p : Char → Bool) (name : List Char) : Bool := !name.isEmpty && name.all p

inductive Quoting where
  | outside
  | inside
  | escaped
  deriving DecidableEq, Repr

/-- Splits the text after an opening parenthesis at its closing one. `depth` counts the
parentheses opened since and not yet closed. -/
def closeParen : Quoting → Nat → List Char → Option (List Char × List Char)
  | _, _, [] => none
  | .escaped, depth, c :: s => keep c (closeParen .inside depth s)
  | .inside, depth, c :: s =>
    let next := if c = '\\' then .escaped else if c = '"' then .outside else .inside
    keep c (closeParen next depth s)
  | .outside, depth, c :: s =>
    if c = '"' then keep c (closeParen .inside depth s)
    else if c = '(' then keep c (closeParen .outside (depth + 1) s)
    else if c = ')' then
      match depth with
      | 0 => some ([], s)
      | depth + 1 => keep c (closeParen .outside depth s)
    else keep c (closeParen .outside depth s)
where
  keep (c : Char) : Option (List Char × List Char) → Option (List Char × List Char) :=
    Option.map fun (body, rest) => (c :: body, rest)

structure Nesting where
  brackets : Nat
  angles : Nat
  quoted : Bool
  afterDash : Bool
  deriving DecidableEq, Repr

namespace Nesting

def start : Nesting := ⟨0, 0, false, false⟩

def isTop (n : Nesting) : Bool := n.brackets == 0 && n.angles == 0 && !n.quoted

/-- The nesting after a character. Angle brackets count only if `useAngles` is set, and the
head of an arrow is none. -/
def step (useAngles : Bool) (n : Nesting) (c : Char) : Nesting :=
  let next := { n with afterDash := c == '-' }
  if c = '"' then { next with quoted := !n.quoted }
  else if n.quoted then next
  else if c = '(' ∨ c = '[' ∨ c = '\x7b' then { next with brackets := n.brackets + 1 }
  else if c = ')' ∨ c = ']' ∨ c = '\x7d' then { next with brackets := n.brackets - 1 }
  else if useAngles ∧ c = '<' then { next with angles := n.angles + 1 }
  else if useAngles ∧ c = '>' ∧ !n.afterDash then { next with angles := n.angles - 1 }
  else next

end Nesting

/-- Pieces between separators outside every bracket and literal; `none` if an angle bracket
is left open. -/
def splitNested (useAngles : Bool) (sep : Char) : Nesting → List Char → Option (List (List Char))
  | nesting, [] => if nesting.angles = 0 then some [[]] else none
  | nesting, c :: s =>
    match splitNested useAngles sep (nesting.step useAngles c) s with
    | none => none
    | some pieces =>
      if c = sep ∧ nesting.isTop then some ([] :: pieces)
      else match pieces with
        | [] => some [[c]]
        | piece :: pieces => some ((c :: piece) :: pieces)

/-- Splits at top-level separators. Angle brackets that do not pair up are comparison signs. -/
def splitTop (sep : Char) (s : List Char) : List (List Char) :=
  match splitNested true sep .start s with
  | some pieces => pieces
  | none => (splitNested false sep .start s).getD [s]

def unquote (value : List Char) : List Char :=
  match value with
  | '"' :: rest => (Chars.beforeTail? ['"'] rest).getD value
  | _ => value

def parseArgument (item : List Char) : Argument :=
  match splitTop '=' item with
  | head :: _ :: _ =>
    let name := Chars.trim head
    if isName Chars.isWordChar name then
      ⟨some (String.ofList name), String.ofList (unquote (Chars.trim (item.drop (head.length + 1))))⟩
    else ⟨none, String.ofList (unquote item)⟩
  | _ => ⟨none, String.ofList (unquote item)⟩

def parseArguments (body : List Char) : List Argument :=
  (((splitTop ',' body).map Chars.trim).filter (!·.isEmpty)).map parseArgument

/-- Reads a token. A token without the lead is no marker, and no error either. -/
def parse (lead token : String) : Except MarkerFault (Option Marker) :=
  match Chars.afterLead? lead.toList (Chars.trim token.toList) with
  | none => .ok none
  | some rest =>
    match Chars.breakOn? ['('] (Chars.trim rest) with
    | none => .error .missingArguments
    | some (before, after) =>
      let name := Chars.trim before
      if isName isNameChar name then
        match closeParen .outside 0 after with
        | none => .error .unbalanced
        | some (body, rest) =>
          if rest.all Chars.isBlank then
            .ok (some ⟨.ofText (String.ofList name), parseArguments body, token⟩)
          else .error .trailingInput
      else .error .invalidName

def arg? (m : Marker) (name : String) : Option String :=
  (m.args.find? (·.name == some name)).map (·.value)

def hasFlag (m : Marker) (flag : String) : Bool :=
  m.args.any fun arg => arg.name.isNone && arg.value == flag

/-- The written form of an argument, its value as a string literal. -/
def printArgument (arg : Argument) : List Char :=
  let literal := '"' :: arg.value.toList ++ ['"']
  match arg.name with
  | none => literal
  | some name => name.toList ++ [' ', '=', ' '] ++ literal

def print (lead name : List Char) (args : List Argument) : List Char :=
  lead ++ name ++ '(' :: [',', ' '].intercalate (args.map printArgument) ++ [')']

end Marker

end MarkerGen
