import MarkerGen.Json.Reader
import MarkerGen.Number
import MarkerGen.SourceTree.Node

/-! Trees as they are kept in files: a JSON array of the nodes in pre-order, each an array of its
depth, kind, field, start, stop and flags. The flags add up 1 for a named node, 2 for an error,
4 for a missing node and 8 for a node with an error that is not listed. -/
namespace MarkerGen.Node

def number? : Json → Option Nat
  | .num literal => Number.unsignedWord? 64 10 literal.toList
  | _ => none

/-- A node with its depth, at a place in the listing. -/
def row? (id : Nat) : Json → Option (Nat × NodeInfo)
  | .arr [depth, .str (some kind), .str (some field), start, stop, flags] => do
    let flags ← number? flags
    return (← number? depth, ⟨id, kind, field, ← number? start, ← number? stop, flags % 2 == 1,
      flags / 2 % 2 == 1, flags / 4 % 2 == 1, flags / 8 % 2 == 1⟩)
  | _ => none

def ofListing? (text : String) : Option Node :=
  match Json.parse? text with
  | some (.arr rows) => (rows.zipIdx.mapM fun (row, id) => row? id row).bind ofPreorder?
  | _ => none

end MarkerGen.Node
