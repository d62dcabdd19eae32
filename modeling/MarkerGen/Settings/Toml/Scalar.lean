import MarkerGen.Settings.Toml.Moment
import MarkerGen.Settings.Value

/-! Numbers, truth values and dates in settings files. -/
namespace MarkerGen.Toml

/-- Digits of a base with single underscores between some of them. -/
def grouped? (base : Nat) (s : List Char) : Option (List Char) :=
  let groups := Chars.splitAt (· == '_') s
  if groups.all fun group => (Number.digits? base group).isSome then some groups.flatten else none

def unsigned (s : List Char) : List Char :=
  match s with
  | '+' :: rest | '-' :: rest => rest
  | s => s

/-- A decimal number without needless zeros at the front, apart from its sign. -/
def decimal? (s : List Char) : Option (List Char) :=
  match s with
  | ['0'] => some ['0']
  | '0' :: _ => none
  | s => grouped? 10 s

def integer? (s : List Char) : Option Int :=
  let value : Option Int := match s with
    | '0' :: 'x' :: digits => (grouped? 16 digits).bind (Number.signed? 16)
    | '0' :: 'o' :: digits => (grouped? 8 digits).bind (Number.signed? 8)
    | '0' :: 'b' :: digits => (grouped? 2 digits).bind (Number.signed? 2)
    | s => (decimal? (unsigned s)).bind fun digits =>
      (Number.digits? 10 digits).map fun n => if s.head? = some '-' then -(n : Int) else n
  value.filter (Number.inSignedRange 64)

def exponent? (s : List Char) : Option (List Char) := grouped? 10 (unsigned s)

def cut (p : Char → Bool) (s : List Char) : List Char × Option (List Char) :=
  match s.dropWhile (!p ·) with
  | [] => (s, none)
  | _ :: rest => (s.takeWhile (!p ·), some rest)

def isFloat (s : List Char) : Bool :=
  let (mantissa, exponent) := cut (fun c => c == 'e' || c == 'E') s
  let (whole, fraction) := cut (· == '.') mantissa
  (exponent.isSome || fraction.isSome) && (decimal? (unsigned whole)).isSome &&
    fraction.all (grouped? 10 · |>.isSome) && exponent.all (exponent? · |>.isSome)

def isSpecialFloat (s : List Char) : Bool :=
  unsigned s == "inf".toList || unsigned s == "nan".toList

def momentName : String := "$__toml_private_datetime"

def scalar? (s : List Char) : Option Setting :=
  if s = "true".toList then some (.flag true)
  else if s = "false".toList then some (.flag false)
  else if isSpecialFloat s then some (.float "null")
  else if isFloat s then some (.float (String.ofList (s.filter fun c => c != '_' && c != '+')))
  else match integer? s with
    | some value => some (.int value)
    | none => (moment? s).map fun moment => .table [(momentName, .text moment)]

end MarkerGen.Toml
