/-! Searching, stripping and splitting of character lists. All searches are for the
leftmost occurrence and all splits are at occurrences that do not overlap. -/
namespace MarkerGen.Chars

def afterLead? : (lead s : List Char) → Option (List Char)
  | [], s => some s
  | _ :: _, [] => none
  | l :: lead, c :: s => if l = c then afterLead? lead s else none

def beforeTail? (tail s : List Char) : Option (List Char) :=
  (afterLead? tail.reverse s.reverse).map List.reverse

def startsWith (lead s : List Char) : Bool := (afterLead? lead s).isSome

def breakOn? (needle : List Char) : List Char → Option (List Char × List Char)
  | [] => if needle.isEmpty then some ([], []) else none
  | c :: s =>
    match afterLead? needle (c :: s) with
    | some rest => some ([], rest)
    | none => (breakOn? needle s).map fun (before, after) => (c :: before, after)

def contains (needle s : List Char) : Bool := (breakOn? needle s).isSome

def splitAt (sep : Char → Bool) : List Char → List (List Char)
  | [] => [[]]
  | c :: s =>
    if sep c then [] :: splitAt sep s
    else match splitAt sep s with
      | [] => [[c]]
      | piece :: pieces => (c :: piece) :: pieces

/-- Splits at a two-character separator, as in a qualified name. -/
def splitPair (a b : Char) : List Char → List (List Char)
  | [] => [[]]
  | [c] => [[c]]
  | c :: d :: s =>
    if c = a ∧ d = b then [] :: splitPair a b s
    else match splitPair a b (d :: s) with
      | [] => [[c]]
      | piece :: pieces => (c :: piece) :: pieces

/-- Drops `lead` from the front as often as it stands there. -/
def dropLeads (lead : List Char) (s : List Char) : List Char :=
  match afterLead? lead s with
  | none => s
  | some rest => if rest.length < s.length then dropLeads lead rest else s
termination_by s.length

def dropTails (tail s : List Char) : List Char :=
  (dropLeads tail.reverse s.reverse).reverse

def isWordChar (c : Char) : Bool := c.isAlphanum || c == '_'

end MarkerGen.Chars
