import MarkerGen.Declaration

/-! A source file with its declarations in source order, each before its members. The
position of a declaration is its identity within the unit. -/
namespace MarkerGen

structure SourceUnit where
  path : Path
  includePaths : List Path
  decls : Array Declaration
  diagnostics : List Diagnostic
  deriving DecidableEq, Repr

/-- A declaration with its position in the unit. -/
structure Declared where
  id : Nat
  decl : Declaration
  deriving DecidableEq, Repr

/-- A position among the children of a declaration that is outside of the unit. Only a unit
whose declarations come with lists of children can have one. -/
structure MissingMember where
  size : Nat
  id : Nat
  deriving DecidableEq, Repr

def MissingMember.message (m : MissingMember) : String :=
  "index out of bounds: the len is " ++ toString m.size ++ " but the index is " ++ toString m.id

namespace SourceUnit

def empty (path : Path) (includePaths : List Path) : SourceUnit := ⟨path, includePaths, #[], []⟩

def size (u : SourceUnit) : Nat := u.decls.size

def push (u : SourceUnit) (decl : Declaration) : SourceUnit :=
  let id := u.decls.size
  let decls := match decl.parent with
    | some parent => u.decls.modify parent fun above => { above with children := above.children ++ [id] }
    | none => u.decls
  { u with decls := decls.push decl }

def report (u : SourceUnit) (diagnostic : Diagnostic) : SourceUnit :=
  { u with diagnostics := u.diagnostics ++ [diagnostic] }

def get? (u : SourceUnit) (id : Nat) : Option Declared := u.decls[id]?.map (⟨id, ·⟩)

def entries (u : SourceUnit) : List Declared := u.decls.toList.zipIdx.map fun (decl, id) => ⟨id, decl⟩

def parent? (u : SourceUnit) (d : Declaration) : Option Declared := d.parent.bind u.get?

def member (u : SourceUnit) (id : Nat) : Except MissingMember Declared :=
  match u.get? id with
  | some declared => .ok declared
  | none => .error ⟨u.size, id⟩

def members (u : SourceUnit) (d : Declaration) : Except MissingMember (List Declared) := d.children.mapM u.member

def fields (u : SourceUnit) (d : Declaration) : Except MissingMember (List Declared) :=
  (u.members d).map fun members => members.filter (·.decl.kind == .field)

def methods (u : SourceUnit) (d : Declaration) : Except MissingMember (List Declared) :=
  (u.members d).map fun members => members.filter (·.decl.kind == .method)

/-- Whether there is a method at one of the positions; those after it are not looked at. -/
def anyMethod (u : SourceUnit) : List Nat → Except MissingMember Bool
  | [] => .ok false
  | id :: rest =>
    match u.member id with
    | .error missing => .error missing
    | .ok declared => if declared.decl.kind = .method then .ok true else u.anyMethod rest

def records (u : SourceUnit) : List Declared := u.entries.filter (·.decl.kind.isRecord)

/-- Finds a record by name. A name with `::` is a qualified name, with or without leading
`::`; any other is a short name, which must be unique or be itself the qualified name. -/
def findRecord? (u : SourceUnit) (name : String) : Option Declared :=
  let wanted := String.ofList (Chars.dropLeads [':', ':'] (Chars.trim name.toList))
  if Text.contains "::" wanted then
    u.records.find? (·.decl.qualifiedName == wanted)
  else
    match u.records.filter (·.decl.name == wanted) with
    | [only] => some only
    | candidates => candidates.find? (·.decl.qualifiedName == wanted)

end SourceUnit

end MarkerGen
