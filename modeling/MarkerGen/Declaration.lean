import MarkerGen.Path

/-! Declarations of a source file: what is known about an enumeration, record, function or
member that may carry a marker. Parent and children are positions in the unit that holds
the declaration. -/
namespace MarkerGen

inductive Kind where
  | enumeration
  | classType
  | structType
  | unionType
  | function
  | method
  | field
  deriving DecidableEq, Repr, Inhabited

namespace Kind

def all : List Kind := [.enumeration, .classType, .structType, .unionType, .function, .method, .field]

def name : Kind → String
  | .enumeration => "enum"
  | .classType => "class"
  | .structType => "struct"
  | .unionType => "union"
  | .function => "function"
  | .method => "method"
  | .field => "field"

def isRecord : Kind → Bool
  | .classType | .structType | .unionType => true
  | _ => false

theorem mem_all (kind : Kind) : kind ∈ all := by cases kind <;> decide

end Kind

/-- A place in a file; line and column count from one, columns in bytes. -/
structure Location where
  file : Path
  line : Nat
  column : Nat
  deriving DecidableEq, Repr

def Location.text (l : Location) : String :=
  l.file.text ++ ":" ++ toString l.line ++ ":" ++ toString l.column

inductive Access where
  | publicMember
  | protectedMember
  | privateMember
  deriving DecidableEq, Repr

namespace Access

def name : Access → String
  | .publicMember => "public"
  | .protectedMember => "protected"
  | .privateMember => "private"

/-- How much an access level hides. -/
def level : Access → Nat
  | .publicMember => 0
  | .protectedMember => 1
  | .privateMember => 2

end Access

inductive TemplateParamKind where
  | typeParam
  | valueParam
  | templateParam
  deriving DecidableEq, Repr

structure TemplateParam where
  kind : TemplateParamKind
  name : String
  fallback : Option String
  isPack : Bool
  deriving DecidableEq, Repr

inductive RecordTag where
  | classTag
  | structTag
  | unionTag
  deriving DecidableEq, Repr

namespace RecordTag

def kind : RecordTag → Kind
  | .classTag => .classType
  | .structTag => .structType
  | .unionTag => .unionType

/-- The access of members before the first access specifier. -/
def defaultAccess : RecordTag → Access
  | .classTag => .privateMember
  | .structTag | .unionTag => .publicMember

end RecordTag

structure RecordInfo where
  tag : RecordTag
  bases : List String
  deriving DecidableEq, Repr

structure Enumerator where
  name : String
  value : Option String
  deriving DecidableEq, Repr

structure EnumInfo where
  isScoped : Bool
  underlying : Option String
  enumerators : List Enumerator
  deriving DecidableEq, Repr

/-- A parameter of a function. `full` is the parameter as written without its default, and
an unnamed parameter has the empty name. -/
structure Param where
  typeName : String
  name : String
  full : String
  fallback : Option String
  isRvalueRef : Bool
  isByValueClass : Bool
  isPack : Bool
  deriving DecidableEq, Repr

namespace Param

def needsMove (p : Param) : Bool := p.isRvalueRef || p.isByValueClass

/-- The element type of a pack of forwarding references. -/
def packType? (p : Param) : Option String :=
  if p.isPack && p.isRvalueRef then
    let shown := Chars.trimRight (Chars.dropTails ['.', '.', '.'] (Chars.trimRight p.typeName.toList))
    match Chars.beforeTail? ['&', '&'] shown with
    | none => none
    | some element =>
      let element := Chars.trim element
      if element.isEmpty then none else some (String.ofList element)
  else none

end Param

structure FunctionInfo where
  returnType : Option String
  params : List Param
  isConst : Bool
  isNoexcept : Bool
  isStatic : Bool
  isVirtual : Bool
  isConstexpr : Bool
  isExplicit : Bool
  isConstructor : Bool
  isDestructor : Bool
  isOperator : Bool
  isDefinition : Bool
  deriving DecidableEq, Repr

structure FieldInfo where
  typeName : String
  isStatic : Bool
  deriving DecidableEq, Repr

inductive Detail where
  | record (info : RecordInfo)
  | enumeration (info : EnumInfo)
  | function (info : FunctionInfo)
  | field (info : FieldInfo)
  deriving DecidableEq, Repr

namespace Detail

def record? : Detail → Option RecordInfo
  | .record info => some info
  | _ => none

def enumeration? : Detail → Option EnumInfo
  | .enumeration info => some info
  | _ => none

def function? : Detail → Option FunctionInfo
  | .function info => some info
  | _ => none

def field? : Detail → Option FieldInfo
  | .field info => some info
  | _ => none

end Detail

/-- A declaration. Its annotations are the tokens of comments and attributes attached to
it, in source order. -/
structure Declaration where
  kind : Kind
  name : String
  qualifiedName : String
  namespaces : List String
  enclosingRecords : List String
  location : Location
  annotations : List String
  templateParams : List TemplateParam
  access : Access
  parent : Option Nat
  children : List Nat
  detail : Detail
  deriving DecidableEq, Repr

namespace Declaration

def hasAnnotation (d : Declaration) (lead : String) : Bool :=
  d.annotations.any (Text.startsWith lead)

def templateParam? (d : Declaration) (name : String) : Option TemplateParam :=
  d.templateParams.find? (·.name == name)

def isTemplate (d : Declaration) : Bool := !d.templateParams.isEmpty

end Declaration

inductive DiagnosticSeverity where
  | warning
  | error
  deriving DecidableEq, Repr

structure Diagnostic where
  severity : DiagnosticSeverity
  message : String
  location : Option Location
  deriving DecidableEq, Repr

namespace Diagnostic

def isFatal (d : Diagnostic) : Bool := d.severity == .error

def text (d : Diagnostic) : String :=
  let severity := match d.severity with
    | .warning => "warning"
    | .error => "error"
  match d.location with
  | some location => location.text ++ ": " ++ severity ++ ": " ++ d.message
  | none => severity ++ ": " ++ d.message

end Diagnostic

end MarkerGen
