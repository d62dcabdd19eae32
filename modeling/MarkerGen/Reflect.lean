import MarkerGen.Distinct
import MarkerGen.Strategy
import MarkerGen.Text.Literal

/-! Reflection tables of records: the name, the data members that are not static, and the names
of the ordinary methods. -/
namespace MarkerGen.Reflect
open Text (escape lines)

structure Member where
  name : String
  typeName : String
  access : Access
  deriving DecidableEq, Repr

structure Metadata where
  qualifiedName : String
  fields : List Member
  methods : List String
  deriving DecidableEq, Repr

def fieldMember? (d : Declaration) : Option Member :=
  d.detail.field?.bind fun info => if info.isStatic then none else some ⟨d.name, info.typeName, d.access⟩

/-- Whether a method is neither constructor nor destructor nor operator. -/
def isOrdinary (d : Declaration) : Bool :=
  d.detail.function?.any fun info => !info.isConstructor && !info.isDestructor && !info.isOperator

def ofMembers (record : Declaration) (fields methods : List Declared) : Except GenerationError Metadata :=
  let fields := fields.filterMap (fieldMember? ·.decl)
  let methods := firstOfEach (· == ·) [] ((methods.filter (isOrdinary ·.decl)).map (·.decl.name))
  if fields.isEmpty && methods.isEmpty then
    .error (.unsupported ("'" ++ record.qualifiedName ++ "' has no fields or methods to reflect"))
  else .ok ⟨record.qualifiedName, fields, methods⟩

def collect (u : SourceUnit) (record : Declaration) (fieldsOnly : Bool) : Except Fault Metadata := do
  if record.isTemplate then
    throw (.complaint (.unsupported ("'" ++ record.qualifiedName ++
      "' is a class template; reflect a specialization instead")))
  let fields ← looking (u.fields record)
  let methods ← looking (u.methods record)
  complaining (ofMembers record fields (if fieldsOnly then [] else methods))

def accessName : Access → String
  | .publicMember => "Public"
  | .protectedMember => "Protected"
  | .privateMember => "Private"

def fieldLine (m : Member) : String :=
  "    \x7b\"" ++ escape m.name ++ "\", \"" ++ escape m.typeName ++ "\", Access::" ++ accessName m.access ++ "\x7d,"

def Metadata.render (m : Metadata) : String :=
  let count := toString m.fields.length
  lines <|
    ["#pragma once", "", "#include <array>", "#include <cstddef>", "#include <string_view>", "",
     "namespace flex::reflect \x7b", "",
     "template <typename T>", "struct TypeInfo;", "",
     "template <>", "struct TypeInfo<::" ++ m.qualifiedName ++ ">", "\x7b",
     "  enum class Access \x7b Public, Protected, Private \x7d;", "",
     "  struct Field", "  \x7b", "    std::string_view name;", "    std::string_view type;",
     "    Access access;", "  \x7d;", "",
     "  static constexpr std::string_view name = \"" ++ escape m.qualifiedName ++ "\";",
     "  static constexpr std::size_t field_count = " ++ count ++ ";", "",
     "  static constexpr std::array<Field, " ++ count ++ "> fields = \x7b\x7b"] ++
    m.fields.map fieldLine ++
    ["  \x7d\x7d;", "",
     "  static constexpr std::array<std::string_view, " ++ toString m.methods.length ++ "> methods = \x7b\x7b"] ++
    m.methods.map (fun name => "    \"" ++ escape name ++ "\",") ++
    ["  \x7d\x7d;", "\x7d;", "", "\x7d // namespace flex::reflect"]

/-- Whether only data members are asked for; the last argument decides. -/
def fieldsOnly (args : List Argument) : Except GenerationError Bool :=
  args.foldlM (fun _ arg =>
    if arg.name = none ∧ arg.value = "fields_only" then .ok true
    else if arg.name = some "fields_only" then .ok (arg.value != "false")
    else .error (.invalidInput
      ("unknown argument '" ++ arg.name.getD arg.value ++ "' for reflection-metadata"))) false

def generate (r : Request) : Except Fault (List Code) := do
  let metadata ← collect r.unit r.decl (← complaining (fieldsOnly r.marker.args))
  return [.ofText metadata.render]

end MarkerGen.Reflect
