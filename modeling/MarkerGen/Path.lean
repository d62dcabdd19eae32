import MarkerGen.Text

/-! File paths written with slashes. A path keeps its text; its meaning is the list of its
components, in which repeated slashes, inner dots and a trailing slash do not show. Nothing
here looks at a file system, so `..` is a component like any other. -/
namespace MarkerGen

inductive Component where
  | root
  | here
  | up
  | name (text : String)
  deriving DecidableEq, Repr

structure Path where
  text : String
  deriving DecidableEq, Repr, Inhabited

namespace Path

def isAbsolute (p : Path) : Bool := p.text.toList.head? == some '/'

/-- What a piece of text between slashes stands for. A dot counts only as the first piece
of a relative path. -/
def component? (first : Bool) (piece : List Char) : Option Component :=
  if piece = [] then none
  else if piece = ['.'] then if first then some .here else none
  else if piece = ['.', '.'] then some .up
  else some (.name (String.ofList piece))

abbrev Piece := List Char × Option Component

def pieces (p : Path) : List Piece :=
  match p.text.toList with
  | '/' :: rest => (Chars.splitAt (· == '/') rest).map fun piece => (piece, component? false piece)
  | text =>
    match Chars.splitAt (· == '/') text with
    | [] => []
    | piece :: rest =>
      (piece, component? true piece) :: rest.map fun piece => (piece, component? false piece)

def components (p : Path) : List Component :=
  (if p.isAbsolute then [.root] else []) ++ p.pieces.filterMap (·.2)

def same (p q : Path) : Bool := p.components == q.components

def silent (piece : Piece) : Bool := piece.2.isNone

def joinPieces (pieces : List Piece) : List Char := ['/'].intercalate (pieces.map (·.1))

def dropSilentEnd (pieces : List Piece) : List Piece :=
  (pieces.reverse.dropWhile silent).reverse

def ofPieces (absolute : Bool) (pieces : List Piece) : Path :=
  ⟨String.ofList ((if absolute then ['/'] else []) ++ joinPieces pieces)⟩

def parent? (p : Path) : Option Path :=
  match p.pieces.reverse.dropWhile silent with
  | [] => none
  | _ :: rest => some (ofPieces p.isAbsolute (rest.dropWhile silent).reverse)

def fileName? (p : Path) : Option String :=
  match p.components.getLast? with
  | some (.name text) => some text
  | _ => none

/-- Parts of a file name around its last dot; a leading dot does not divide it. -/
def splitExtension (name : String) : String × Option String :=
  let chars := name.toList
  let extension := (chars.reverse.takeWhile (· != '.')).reverse
  let stem := chars.take (chars.length - extension.length - 1)
  if extension.length = chars.length || stem.isEmpty then (name, none)
  else (String.ofList stem, some (String.ofList extension))

def fileStem? (p : Path) : Option String := p.fileName?.map fun name => (splitExtension name).1

/-- `other` as seen from `base`; an absolute `other` stands for itself. -/
def join (base other : Path) : Path :=
  if other.isAbsolute then other
  else
    let chars := base.text.toList
    let slash := if chars = [] ∨ chars.getLast? = some '/' then [] else ['/']
    ⟨String.ofList (chars ++ slash ++ other.text.toList)⟩

def dropComponents : Nat → List Piece → List Piece
  | 0, pieces => pieces
  | _ + 1, [] => []
  | count + 1, (_, none) :: pieces => dropComponents (count + 1) pieces
  | count + 1, (_, some _) :: pieces => dropComponents count pieces

/-- The rest of a path below `base`, as it is written. -/
def relativeTo? (base p : Path) : Option Path :=
  if base.components.isPrefixOf p.components then
    let below := base.components.length
    if below = 0 then some (ofPieces p.isAbsolute (dropSilentEnd p.pieces))
    else
      let named := if p.isAbsolute then below - 1 else below
      some (ofPieces false (dropSilentEnd ((dropComponents named p.pieces).dropWhile silent)))
  else none

def ofNames (names : List String) : Path := ⟨Text.join "/" names⟩

/-- Whether a path stays below any directory it is joined to. -/
def isConfined (p : Path) : Bool :=
  p.components.all fun component => component != .root && component != .up

end Path

instance : ToString Path := ⟨Path.text⟩

end MarkerGen
