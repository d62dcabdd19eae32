import MarkerGen.Text

/-! Names written with `::`. Inside template arguments `::` does not divide a name. -/
namespace MarkerGen.QualifiedName

/-- Splits at `::` outside angle brackets, where `depth` counts the open ones. -/
def segmentsFrom (depth : Int) : List Char → List (List Char)
  | [] => [[]]
  | c :: s =>
    match c, s with
    | ':', ':' :: rest =>
      if depth = 0 then [] :: segmentsFrom 0 rest else extend ':' (segmentsFrom depth (':' :: rest))
    | '<', s => extend '<' (segmentsFrom (depth + 1) s)
    | '>', s => extend '>' (segmentsFrom (depth - 1) s)
    | c, s => extend c (segmentsFrom depth s)
where
  extend (c : Char) : List (List Char) → List (List Char)
    | [] => [[c]]
    | segment :: segments => (c :: segment) :: segments

def splitChars (text : List Char) : List (List Char) × List Char :=
  let segments := (segmentsFrom 0 text).map Chars.trim
  (segments.dropLast.filter (!·.isEmpty), segments.getLast?.getD [])

def split (text : String) : List String × String :=
  let (enclosing, name) := splitChars text.toList
  (enclosing.map String.ofList, String.ofList name)

def join (enclosing : List String) (name : String) : String := Text.join "::" (enclosing ++ [name])

def dropTemplateArgs (name : String) : String :=
  String.ofList (Chars.trim (name.toList.takeWhile (· != '<')))

/-- The identifiers of a namespace written as `a::inline b::c`. -/
def namespaceSegments (text : String) : List String :=
  (((Chars.splitPair ':' ':' text.toList).map Chars.trim).map String.ofList).filter
    fun segment => segment != "" && segment != "inline"

end MarkerGen.QualifiedName
