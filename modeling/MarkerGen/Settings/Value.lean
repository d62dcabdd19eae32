import MarkerGen.Json.Value
import MarkerGen.Number
import MarkerGen.Text

/-! Settings as they are read from files and from the environment, before they are given their
meaning. A table keeps its entries sorted by name. -/
namespace MarkerGen

inductive Setting where
  | text (value : String)
  | flag (value : Bool)
  | int (value : Int)
  /-- A number that is not whole, as it is written. -/
  | float (literal : String)
  | list (items : List Setting)
  | table (entries : List (String × Setting))

namespace Setting

abbrev Entries := List (String × Setting)

def lookup? (entries : Entries) (name : String) : Option Setting :=
  (entries.find? (·.1 == name)).map (·.2)

def put (name : String) (value : Setting) : Entries → Entries
  | [] => [(name, value)]
  | (other, old) :: rest =>
    if name = other then (name, value) :: rest
    else if name < other then (name, value) :: (other, old) :: rest
    else (other, old) :: put name value rest

mutual
/-- Lays settings over others: tables are joined entry by entry, all else is replaced. -/
def merge (under : Setting) : Setting → Setting
  | .table entries =>
    match under with
    | .table old => .table (mergeEntries old entries)
    | _ => .table entries
  | other => other
def mergeEntries (old : Entries) : Entries → Entries
  | [] => old
  | (name, value) :: rest =>
    let joined := match lookup? old name with
      | some under => merge under value
      | none => value
    mergeEntries (put name joined old) rest
end

def nest (value : Setting) : List String → Setting
  | [] => value
  | name :: rest => .table [(name, nest value rest)]

mutual
def toJson : Setting → Json
  | .text value => .text value
  | .flag value => .bool value
  | .int value => .num (toString value)
  | .float literal => .num literal
  | .list items => .arr (itemsToJson items)
  | .table entries => .obj (entriesToJson entries)
def itemsToJson : List Setting → List Json
  | [] => []
  | item :: rest => item.toJson :: itemsToJson rest
def entriesToJson : Entries → List (Option String × Json)
  | [] => []
  | (name, value) :: rest => (some name, value.toJson) :: entriesToJson rest
end

def text? : Setting → Option String
  | .text value => some value
  | _ => none

def flag? : Setting → Option Bool
  | .flag value => some value
  | _ => none

/-- A whole number that fits a word of 64 bits without sign. -/
def word? : Setting → Option Nat
  | .int value => if 0 ≤ value ∧ value < Number.wordSize 64 then some value.toNat else none
  | _ => none

def texts? : Setting → Option (List String)
  | .list items => items.mapM text?
  | _ => none

def entries? : Setting → Option Entries
  | .table entries => some entries
  | _ => none

/-- The entries of a table with known names; these can also be listed in order. -/
def record? (names : List String) : Setting → Option Entries
  | .table entries => some entries
  | .list items => some (names.zip items)
  | _ => none

end Setting

end MarkerGen
