import MarkerGen.Chars.CaseTable

/-! Full lower and upper case of text. A capital sigma becomes a final sigma exactly when a
cased character stands before it and none after it, ignorable characters not counted. -/
namespace MarkerGen.Chars
open CaseTable

def isAscii (c : Char) : Bool := c.toNat < 128

def lowerChar (c : Char) : List Char :=
  if isAscii c then [c.toLower] else image lowerRuns lowerLong c

def upperChar (c : Char) : List Char :=
  if isAscii c then [c.toUpper] else image upperRuns upperLong c

def isIgnorable (c : Char) : Bool := within ignorableRanges c.toNat

def isCased (c : Char) : Bool := within casedRanges c.toNat

/-- Whether the first character that is not ignorable is cased. -/
def startsCased (s : List Char) : Bool :=
  match s.dropWhile isIgnorable with
  | [] => false
  | c :: _ => isCased c

/-- Lower case of `rest`, where `before` is the text in front of it, last character first. -/
def lowerFrom (before : List Char) : List Char → List Char
  | [] => []
  | c :: rest =>
    let image :=
      if c.toNat == 0x3A3 then
        [if startsCased before && !startsCased rest then Char.ofNat 0x3C2 else Char.ofNat 0x3C3]
      else lowerChar c
    image ++ lowerFrom (c :: before) rest

def lower (s : List Char) : List Char := lowerFrom [] s

end MarkerGen.Chars
