import MarkerGen.Number
import MarkerGen.Text

/-! Dates and times in settings files. They have no type of their own in the settings; what is
kept of them is their usual spelling. -/
namespace MarkerGen.Toml

def fixed? (count low high : Nat) (s : List Char) : Option (Nat × List Char) :=
  if (s.take count).length = count then
    match Number.digits? 10 (s.take count) with
    | some n => if low ≤ n ∧ n ≤ high then some (n, s.drop count) else none
    | none => none
  else none

def expect? (c : Char) : List Char → Option (List Char)
  | d :: rest => if c = d then some rest else none
  | [] => none

def isLeapYear (year : Nat) : Bool := year % 4 == 0 && (year % 100 != 0 || year % 400 == 0)

def daysIn (year month : Nat) : Nat :=
  if month = 2 then if isLeapYear year then 29 else 28
  else if [4, 6, 9, 11].contains month then 30
  else 31

def padded (width n : Nat) : String :=
  let digits := toString n
  String.ofList (List.replicate (width - digits.length) '0') ++ digits

def date? (s : List Char) : Option (String × List Char) := do
  let (year, s) ← fixed? 4 0 9999 s
  let (month, s) ← fixed? 2 1 12 (← expect? '-' s)
  let (day, s) ← fixed? 2 1 (daysIn year month) (← expect? '-' s)
  return (padded 4 year ++ "-" ++ padded 2 month ++ "-" ++ padded 2 day, s)

/-- The digits of a fraction of a second, of which nine count and zeros at the end do not. -/
def fraction? (s : List Char) : Option (String × List Char) :=
  match s with
  | '.' :: rest =>
    let digits := rest.takeWhile Char.isDigit
    let kept := Chars.dropRightWhile (· == '0') (digits.take 9)
    if digits.isEmpty then none
    else some (if kept.isEmpty then "" else "." ++ String.ofList kept, rest.drop digits.length)
  | _ => some ("", s)

def time? (s : List Char) : Option (String × List Char) := do
  let (hour, s) ← fixed? 2 0 23 s
  let (minute, s) ← fixed? 2 0 59 (← expect? ':' s)
  let (second, s) ← fixed? 2 0 60 (← expect? ':' s)
  let (fraction, s) ← fraction? s
  return (padded 2 hour ++ ":" ++ padded 2 minute ++ ":" ++ padded 2 second ++ fraction, s)

def offset? (s : List Char) : Option String :=
  match s with
  | [] => some ""
  | sign :: rest =>
    if sign = 'Z' ∨ sign = 'z' then if rest.isEmpty then some "Z" else none
    else if sign = '+' ∨ sign = '-' then do
      let (hour, rest) ← fixed? 2 0 23 rest
      let (minute, rest) ← fixed? 2 0 59 (← expect? ':' rest)
      let shown := if hour = 0 ∧ minute = 0 then "+" else String.ofList [sign]
      if rest.isEmpty then some (shown ++ padded 2 hour ++ ":" ++ padded 2 minute) else none
    else none

/-- The usual spelling of a date, a time or both, if the whole text is one. -/
def moment? (s : List Char) : Option String :=
  match date? s with
  | some (date, []) => some date
  | some (date, mark :: rest) =>
    if mark = 'T' ∨ mark = 't' ∨ mark = ' ' then do
      let (time, rest) ← time? rest
      return date ++ "T" ++ time ++ (← offset? rest)
    else none
  | none =>
    match time? s with
    | some (time, []) => some time
    | _ => none

def isDate (s : List Char) : Bool :=
  match date? s with
  | some (_, []) => true
  | _ => false

end MarkerGen.Toml
