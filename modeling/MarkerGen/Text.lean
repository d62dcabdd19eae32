import MarkerGen.Chars.Blank
import MarkerGen.Chars.Case
import MarkerGen.Chars.Search

/-! Text operations on strings, each the character-list operation of the same name. -/
namespace MarkerGen.Text

def trim (s : String) : String := String.ofList (Chars.trim s.toList)

def trimLeft (s : String) : String := String.ofList (Chars.trimLeft s.toList)

def trimRight (s : String) : String := String.ofList (Chars.trimRight s.toList)

def squash (s : String) : String := String.ofList (Chars.squash s.toList)

def lower (s : String) : String := String.ofList (Chars.lower s.toList)

def isBlank (s : String) : Bool := s.toList.all Chars.isBlank

def startsWith (lead s : String) : Bool := Chars.startsWith lead.toList s.toList

def contains (needle s : String) : Bool := Chars.contains needle.toList s.toList

def afterLead? (lead s : String) : Option String :=
  (Chars.afterLead? lead.toList s.toList).map String.ofList

def beforeTail? (tail s : String) : Option String :=
  (Chars.beforeTail? tail.toList s.toList).map String.ofList

/-- Pieces between the occurrences of one character. -/
def splitAt (sep : Char) (s : String) : List String :=
  (Chars.splitAt (· == sep) s.toList).map String.ofList

/-- Joins pieces with a separator between each two. -/
def join (sep : String) : List String → String
  | [] => ""
  | [piece] => piece
  | piece :: next :: rest => piece ++ sep ++ join sep (next :: rest)

end MarkerGen.Text
