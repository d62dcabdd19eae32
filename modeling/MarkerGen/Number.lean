import MarkerGen.Chars.Blank

/-! Reading whole numbers in a given base. -/
namespace MarkerGen.Number

def digitValue? (base : Nat) (c : Char) : Option Nat :=
  let value :=
    if '0' ≤ c ∧ c ≤ '9' then c.toNat - '0'.toNat
    else if 'a' ≤ c ∧ c ≤ 'z' then c.toNat - 'a'.toNat + 10
    else if 'A' ≤ c ∧ c ≤ 'Z' then c.toNat - 'A'.toNat + 10
    else base
  if value < base then some value else none

def digitsFrom (base read : Nat) : List Char → Option Nat
  | [] => some read
  | c :: rest =>
    match digitValue? base c with
    | none => none
    | some value => digitsFrom base (read * base + value) rest

def digits? (base : Nat) : List Char → Option Nat
  | [] => none
  | c :: rest => digitsFrom base 0 (c :: rest)

def signed? (base : Nat) : List Char → Option Int
  | '-' :: rest => (digits? base rest).map fun n => -(n : Int)
  | '+' :: rest => (digits? base rest).map Int.ofNat
  | rest => (digits? base rest).map Int.ofNat

/-- The number of values that a word of `bits` bits can have. -/
def wordSize (bits : Nat) : Nat := Nat.pow 2 bits

def inSignedRange (bits : Nat) (v : Int) : Bool :=
  -(wordSize (bits - 1) : Int) ≤ v && v < (wordSize (bits - 1) : Int)

/-- Reads a signed number that fits a word of `bits` bits. -/
def signedWord? (bits base : Nat) (s : List Char) : Option Int :=
  (signed? base s).filter (inSignedRange bits)

def unsignedWord? (bits base : Nat) (s : List Char) : Option Nat :=
  let unsigned := match s with
    | '+' :: rest => rest
    | rest => rest
  (digits? base unsigned).filter (· < wordSize bits)

end MarkerGen.Number
