import MarkerGen.Settings.Value

/-! Tables of a settings file while it is read. A table is made by a header, by being on the way
to another header, or by being on the way of a dotted name; what may still be added to it
depends on that. -/
namespace MarkerGen.Toml

/-- How a table came about. -/
inductive Origin where
  | header
  | wayToHeader
  | dottedName
  deriving DecidableEq, Repr

inductive Item where
  | value (setting : Setting)
  | table (origin : Origin) (entries : List (String × Item))
  /-- Tables under one repeated header. -/
  | tables (items : List (List (String × Item)))

abbrev Items := List (String × Item)

namespace Items

def lookup? (items : Items) (name : String) : Option Item := (items.find? (·.1 == name)).map (·.2)

def put (items : Items) (name : String) (item : Item) : Items := items.filter (·.1 != name) ++ [(name, item)]

/-- Changes the table at the end of a path, making tables on the way. A dotted name does not
lead into a table that has a header. -/
def within (dotted : Bool) (origin : Origin) (items : Items) (change : Origin → Items → Option Items) :
    List String → Option Items
  | [] => change origin items
  | name :: rest =>
    match lookup? items name with
    | none =>
      let origin := if dotted then Origin.dottedName else .wayToHeader
      (within dotted origin [] change rest).map fun inner => items.put name (.table origin inner)
    | some (.value _) => none
    | some (.table origin entries) =>
      if dotted ∧ origin = .header then none
      else (within dotted origin entries change rest).map fun inner => items.put name (.table origin inner)
    | some (.tables tables) =>
      match tables.getLast? with
      | none => none
      | some last =>
        (within dotted .header last change rest).map fun inner =>
          items.put name (.tables (tables.dropLast ++ [inner]))

def addValue (items : Items) (names : List String) (value : Setting) : Option Items :=
  match names.getLast? with
  | none => none
  | some name =>
    let way := names.dropLast
    within true .header items (fun origin inner =>
      if (origin == .dottedName) == way.isEmpty || (inner.lookup? name).isSome then none
      else some (inner.put name (.value value))) way

def openTable (items : Items) (names : List String) : Option Items :=
  match names.getLast? with
  | none => none
  | some name =>
    within false .header items (fun _ inner =>
      match inner.lookup? name with
      | none => some (inner.put name (.table .header []))
      | some (.table .wayToHeader entries) => some (inner.put name (.table .header entries))
      | some _ => none) names.dropLast

def openNext (items : Items) (names : List String) : Option Items :=
  match names.getLast? with
  | none => none
  | some name =>
    within false .header items (fun _ inner =>
      match inner.lookup? name with
      | none => some (inner.put name (.tables [[]]))
      | some (.tables tables) => some (inner.put name (.tables (tables ++ [[]])))
      | some _ => none) names.dropLast

end Items

mutual
def Item.toSetting : Item → Setting
  | .value setting => setting
  | .table _ entries => .table (sorted entries)
  | .tables items => .list (tablesToSettings items)
def tablesToSettings : List (List (String × Item)) → List Setting
  | [] => []
  | entries :: rest => .table (sorted entries) :: tablesToSettings rest
def sorted : List (String × Item) → Setting.Entries
  | [] => []
  | (name, item) :: rest => Setting.put name item.toSetting (sorted rest)
end

end MarkerGen.Toml
