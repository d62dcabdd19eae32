import MarkerGen.Path

/-! A file system as a value. Every operation either gives the changed store or says why the
system refuses it. There are no links, so a path leads to one spot. -/
namespace MarkerGen

inductive FileError where
  | notFound
  | exists
  | notDirectory
  | isDirectory
  | notText
  deriving DecidableEq, Repr

def FileError.message : FileError → String
  | .notFound => "No such file or directory (os error 2)"
  | .exists => "File exists (os error 17)"
  | .notDirectory => "Not a directory (os error 20)"
  | .isDirectory => "Is a directory (os error 21)"
  | .notText => "stream did not contain valid UTF-8"

/-- The names on the way from the root. -/
abbrev Spot := List String

inductive Stored where
  | directory
  | file (content : ByteArray)

instance : DecidableEq Stored
  | .directory, .directory => isTrue rfl
  | .directory, .file _ => isFalse Stored.noConfusion
  | .file _, .directory => isFalse Stored.noConfusion
  | .file content, .file other =>
    decidable_of_iff (content.data = other.data) (by rw [Stored.file.injEq, ByteArray.ext_iff])

def Stored.isDirectory : Stored → Bool
  | .directory => true
  | .file _ => false

/-- What is stored at each spot. The working directory and the directories above it are
always there. -/
structure FileStore where
  home : Spot
  entries : List (Spot × Stored)

namespace FileStore

def lookup (fs : FileStore) (spot : Spot) : Option Stored :=
  if spot.isPrefixOf fs.home then some .directory
  else (fs.entries.find? (·.1 == spot)).map (·.2)

def erase (fs : FileStore) (spot : Spot) : FileStore :=
  { fs with entries := fs.entries.filter (·.1 != spot) }

def eraseTree (fs : FileStore) (spot : Spot) : FileStore :=
  { fs with entries := fs.entries.filter fun entry => !spot.isPrefixOf entry.1 }

def put (fs : FileStore) (spot : Spot) (stored : Stored) : FileStore :=
  { fs with entries := (fs.entries.filter (·.1 != spot)) ++ [(spot, stored)] }

/-- Follows pieces of a path. Every spot that is passed must be a directory; the last one
need not exist. -/
def follow (fs : FileStore) : Spot → List (List Char) → Except FileError Spot
  | spot, [] => .ok spot
  | spot, piece :: rest =>
    match fs.lookup spot with
    | none => .error .notFound
    | some (.file _) => .error .notDirectory
    | some .directory =>
      if piece = [] ∨ piece = ['.'] then follow fs spot rest
      else if piece = ['.', '.'] then follow fs spot.dropLast rest
      else follow fs (spot ++ [String.ofList piece]) rest

/-- The spot where a path starts, and the pieces to follow from there. -/
def route (fs : FileStore) (p : Path) : Spot × List (List Char) :=
  match p.text.toList with
  | '/' :: rest => ([], Chars.splitAt (· == '/') rest)
  | text => (fs.home, Chars.splitAt (· == '/') text)

def locate (fs : FileStore) (p : Path) : Except FileError Spot :=
  if p.text = "" then .error .notFound
  else fs.follow (fs.route p).1 (fs.route p).2

def stat (fs : FileStore) (p : Path) : Except FileError Stored := do
  match fs.lookup (← fs.locate p) with
  | some stored => return stored
  | none => throw .notFound

def present (fs : FileStore) (p : Path) : Bool :=
  match fs.stat p with
  | .ok _ => true
  | .error _ => false

def isFile (fs : FileStore) (p : Path) : Bool :=
  match fs.stat p with
  | .ok (.file _) => true
  | _ => false

def isDirectory (fs : FileStore) (p : Path) : Bool :=
  match fs.stat p with
  | .ok .directory => true
  | _ => false

def read (fs : FileStore) (p : Path) : Except FileError ByteArray := do
  match ← fs.stat p with
  | .file content => return content
  | .directory => throw .isDirectory

def readText (fs : FileStore) (p : Path) : Except FileError String := do
  match String.fromUTF8? (← fs.read p) with
  | some text => return text
  | none => throw .notText

def makeAlong (fs : FileStore) (spot : Spot) : List (List Char) → Except FileError FileStore
  | [] => .ok fs
  | piece :: rest =>
    if piece = [] ∨ piece = ['.'] then makeAlong fs spot rest
    else if piece = ['.', '.'] then makeAlong fs spot.dropLast rest
    else
      let next := spot ++ [String.ofList piece]
      match fs.lookup next with
      | some .directory => makeAlong fs next rest
      | some (.file _) =>
        .error (if rest.all fun piece => piece = [] then .exists else .notDirectory)
      | none => makeAlong (fs.put next .directory) next rest

def makeDirectory (fs : FileStore) (p : Path) : Except FileError FileStore :=
  fs.makeAlong (fs.route p).1 (fs.route p).2

/-- Puts a complete file in place of what a path leads to. A path with a slash at its end can
only lead to a directory. -/
def replace (fs : FileStore) (p : Path) (content : ByteArray) : Except FileError FileStore := do
  let pieces := ((fs.route p).2.reverse.dropWhile (·.isEmpty)).reverse
  let spot ← fs.follow (fs.route p).1 pieces
  if p.text.toList.getLast? = some '/' then throw .notDirectory
  else if (fs.lookup spot).any Stored.isDirectory then throw .isDirectory
  else return fs.put spot (.file content)

def remove (fs : FileStore) (p : Path) : Except FileError FileStore := do
  let spot ← fs.locate p
  match fs.lookup spot with
  | some .directory => throw .isDirectory
  | some (.file _) => return fs.erase spot
  | none => throw .notFound

def below (fs : FileStore) (spot : Spot) : List (Spot × Stored) :=
  fs.entries.filterMap fun (place, stored) =>
    if spot.isPrefixOf place && spot != place then some (place.drop spot.length, stored) else none

end FileStore

end MarkerGen
