import MarkerGen.Enum.Values
import MarkerGen.Strategy

/-! What the conversions of an enumeration need to know: its enumerators with the labels they
are printed as, and which of them repeat the value of an earlier one. -/
namespace MarkerGen.Enum

structure Row where
  name : String
  label : String
  isAlias : Bool
  deriving DecidableEq, Repr

structure Table where
  qualifiedName : String
  localName : String
  namespaces : List String
  rows : List Row
  deriving DecidableEq, Repr

/-- A name without the given lead, unless nothing would be left. -/
def label (lead : Option String) (name : String) : String :=
  match lead.bind (Text.afterLead? · name) with
  | some rest => if rest.isEmpty then name else rest
  | none => name

/-- For each value whether it is known and came before. -/
def aliasesFrom (seen : List (Option Int)) : List (Option Int) → List Bool
  | [] => []
  | value :: rest => (value.isSome && seen.contains value) :: aliasesFrom (seen ++ [value]) rest

def aliases (values : List (Option Int)) : List Bool := aliasesFrom [] values

def rows (lead : Option String) (enumerators : List Enumerator) (values : List (Option Int)) : List Row :=
  (enumerators.zip (aliases values)).map fun (enumerator, isAlias) =>
    ⟨enumerator.name, label lead enumerator.name, isAlias⟩

/-- A qualified name without its namespaces, as one identifier. -/
def localName (namespaces : List String) (qualifiedName : String) : String :=
  let space := String.join (namespaces.map (· ++ "::"))
  let inner := (Text.afterLead? space qualifiedName).getD qualifiedName
  String.ofList (['_'].intercalate (Chars.splitPair ':' ':' inner.toList))

def enumerators (d : Declaration) : Except GenerationError (List Enumerator) :=
  match d.detail.enumeration? with
  | none => .error (.unsupported ("'" ++ d.qualifiedName ++ "' is a " ++ d.kind.name ++ ", not an enum"))
  | some info =>
    if d.name.isEmpty then .error (.unsupported "anonymous enums have no type to convert")
    else if info.enumerators.isEmpty then
      .error (.unsupported ("enum '" ++ d.qualifiedName ++ "' has no enumerators"))
    else .ok info.enumerators

def table (d : Declaration) (lead : Option String) : Except Fault Table :=
  match enumerators d with
  | .error error => .error (.complaint error)
  | .ok enumerators =>
    match values enumerators with
    | .error crash => .error (.crash crash)
    | .ok values =>
      .ok ⟨d.qualifiedName, localName d.namespaces d.qualifiedName, d.namespaces, rows lead enumerators values⟩

namespace Table

def qualify (t : Table) (row : Row) : String := t.qualifiedName ++ "::" ++ row.name

def distinct (t : Table) : List Row := t.rows.filter (!·.isAlias)

end Table

end MarkerGen.Enum
