/-! Bytes as text. Where they are no UTF-8, a replacement character stands for each part of them
that begins a character and does not end it. -/
namespace MarkerGen.Utf8

/-- A character that has begun: its value so far, how many bytes it is still owed, and the range of
the next one. -/
structure Begun where
  value : Nat
  owed : Nat
  low : Nat
  high : Nat

def replacement : Char := Char.ofNat 0xFFFD

def first (b : Nat) : List Char × Option Begun :=
  if b ≤ 0x7F then ([Char.ofNat b], none)
  else if 0xC2 ≤ b ∧ b ≤ 0xDF then ([], some ⟨b - 0xC0, 1, 0x80, 0xBF⟩)
  else if 0xE0 ≤ b ∧ b ≤ 0xEF then
    ([], some ⟨b - 0xE0, 2, if b = 0xE0 then 0xA0 else 0x80, if b = 0xED then 0x9F else 0xBF⟩)
  else if 0xF0 ≤ b ∧ b ≤ 0xF4 then
    ([], some ⟨b - 0xF0, 3, if b = 0xF0 then 0x90 else 0x80, if b = 0xF4 then 0x8F else 0xBF⟩)
  else ([replacement], none)

/-- What a byte adds to the text. One that does not go on with a character starts the next one. -/
def step (begun : Option Begun) (b : Nat) : List Char × Option Begun :=
  match begun with
  | none => first b
  | some c =>
    if c.low ≤ b ∧ b ≤ c.high then
      let value := c.value * 64 + (b - 0x80)
      if c.owed = 1 then ([Char.ofNat value], none) else ([], some ⟨value, c.owed - 1, 0x80, 0xBF⟩)
    else
      let (made, begun) := first b
      (replacement :: made, begun)

def lossyFrom (begun : Option Begun) : List UInt8 → List Char
  | [] => if begun.isSome then [replacement] else []
  | b :: rest =>
    let (made, begun) := step begun b.toNat
    made ++ lossyFrom begun rest

def lossy (bytes : List UInt8) : String := String.ofList (lossyFrom none bytes)

def encode (text : String) : List UInt8 := text.toList.flatMap String.utf8EncodeChar

end MarkerGen.Utf8
