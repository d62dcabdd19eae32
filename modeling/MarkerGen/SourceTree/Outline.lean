import MarkerGen.SourceTree.Reading

/-! The outline of a source tree: its declarations nested by membership, in source order.
Namespaces, linkage blocks, template headers and preprocessor conditionals only surround
declarations; a record owns its members, and an access specifier holds for what follows it
in the same body. -/
namespace MarkerGen

inductive Entry where
  | declared (head : Declaration) (members : List Entry)
  | inclusion (inclusion : Inclusion)

/-- The lexical surroundings of a declaration. -/
structure Surroundings where
  namespaces : List String
  records : List String
  recordName : Option String
  access : Access
  deriving DecidableEq, Repr

namespace Surroundings

def global : Surroundings := ⟨[], [], none, .publicMember⟩

def qualify (s : Surroundings) (name : String) : String :=
  Text.join "::" (s.namespaces ++ s.records ++ [name])

def inRecord (s : Surroundings) (enclosing : List String) (name : String) (tag : RecordTag) : Surroundings :=
  { s with
    records := s.records ++ enclosing ++ [name]
    recordName := some name
    access := tag.defaultAccess }

def declare (s : Surroundings) (kind : Kind) (name : String) (enclosing : List String)
    (location : Location) (annotations : List String) (templateParams : List TemplateParam)
    (detail : Detail) : Declaration where
  kind
  name
  qualifiedName := s.qualify (QualifiedName.join enclosing name)
  namespaces := s.namespaces
  enclosingRecords := s.records
  location
  annotations
  templateParams
  access := s.access
  parent := none
  children := []
  detail

end Surroundings

/-- The template header around a declaration, with the parameters of the innermost one. -/
structure TemplateHeader where
  outer : Place
  params : List TemplateParam

inductive Construct where
  | namespaceBlock
  | linkage
  | template
  | record (tag : RecordTag)
  | enumeration
  | declaration
  | functionDefinition
  | accessSpecifier
  | conditional
  | inclusion
  | other
  deriving DecidableEq, Repr

def Construct.ofKind : String → Construct
  | "namespace_definition" => .namespaceBlock
  | "linkage_specification" => .linkage
  | "template_declaration" => .template
  | "class_specifier" => .record .classTag
  | "struct_specifier" => .record .structTag
  | "union_specifier" => .record .unionTag
  | "enum_specifier" => .enumeration
  | "declaration" | "field_declaration" => .declaration
  | "function_definition" => .functionDefinition
  | "access_specifier" => .accessSpecifier
  | "preproc_if" | "preproc_ifdef" | "preproc_else" | "preproc_elif" | "preproc_elifdef" => .conditional
  | "preproc_include" => .inclusion
  | _ => .other

def Node.construct (n : Node) : Construct := .ofKind n.kind

namespace Outline

def outerOf (template : Option TemplateHeader) (p : Place) : Place := (template.map (·.outer)).getD p

def paramsOf (template : Option TemplateHeader) : List TemplateParam := (template.map (·.params)).getD []

def bases (r : Reading) (n : Node) : List String :=
  let clauses := (n.children.filter (·.kind == "base_class_clause")).flatMap Node.children
  let named := clauses.filter fun c => c.isNamed && !(["access_specifier", "comment"].contains c.kind)
  (named.map r.squashed).filter (· != "virtual")

def enumeration (r : Reading) (s : Surroundings) (core outer : Place) : List Entry :=
  let n := core.node
  match n.child? "body", n.child? "name" with
  | some body, some nameNode =>
    let enumerator? (c : Node) : Option Enumerator :=
      (c.child? "name").map fun name => ⟨r.textOf name, (c.child? "value").map r.squashed⟩
    let info : EnumInfo := {
      isScoped := n.children.any fun c => c.kind == "class" || c.kind == "struct"
      underlying := (n.child? "base").map r.squashed
      enumerators := (body.children.filter (·.kind == "enumerator")).filterMap enumerator? }
    [.declared (s.declare .enumeration (r.squashed nameNode) [] (r.location n)
      (r.annotations core outer) [] (.enumeration info)) []]
  | _, _ => []

def trailingQualifiers (r : Reading) (function : Node) : Bool × Bool :=
  let after := ((function.child? "parameters").map Node.stop).getD function.start
  let trailing := function.children.filter (after ≤ ·.start)
  let isConst (c : Node) := c.kind == "type_qualifier" && r.trimmed c == "const"
  let isNoexcept (c : Node) := c.kind == "noexcept" || Text.startsWith "noexcept" (r.trimmed c)
  (trailing.any isConst, trailing.any fun c => !isConst c && isNoexcept c)

/-- A function or method; a function pointer is none. -/
def function (r : Reading) (s : Surroundings) (core : Place) (declarator : Node)
    (template : Option TemplateHeader) (isDefinition : Bool) : List Entry :=
  match Reading.functionDeclarator? declarator with
  | none => []
  | some (around, func) =>
    match func.child? "declarator" with
    | none => []
    | some nameNode =>
      if nameNode.kind = "parenthesized_declarator" then []
      else
        let n := core.node
        let (enclosing, name) := QualifiedName.split (r.squashed nameNode)
        let isDestructor := Text.startsWith "~" name
        let isOperator := Text.startsWith "operator" name
        let returnType := r.returnType? n declarator around
        let owner := enclosing.getLast?.or s.recordName
        let specifiers := (Reading.childrenBefore n declarator).map r.trimmed
        let (isConst, isNoexcept) := trailingQualifiers r func
        let info : FunctionInfo := {
          returnType
          params := ((func.child? "parameters").map Node.children).getD [] |>.filterMap r.param?
          isConst
          isNoexcept
          isStatic := specifiers.contains "static"
          isVirtual := specifiers.contains "virtual"
          isConstexpr := specifiers.contains "constexpr"
          isExplicit := specifiers.any (Text.startsWith "explicit")
          isConstructor := !isDestructor && !isOperator && returnType.isNone &&
            owner.any (QualifiedName.dropTemplateArgs · == name)
          isDestructor
          isOperator
          isDefinition }
        let kind := if s.recordName.isSome then Kind.method else .function
        [.declared (s.declare kind name enclosing (r.location n)
          (r.annotations core (outerOf template core)) (paramsOf template) (.function info)) []]

def field (r : Reading) (s : Surroundings) (core : Place) (declarator : Node) (outer : Place) :
    List Entry :=
  match r.declaratorName? declarator with
  | none => []
  | some name =>
    let n := core.node
    let type := n.child? "type"
    let leading := Reading.childrenBefore n declarator
    let isStatic (c : Node) := c.kind == "storage_class_specifier" && r.trimmed c == "static"
    let isTypePart (c : Node) :=
      !isStatic c && (c.kind == "type_qualifier" || type.any fun t => t.id == c.id)
    let suffix := Words.declaratorSuffix (r.textOf declarator).toList name.toList
    let info : FieldInfo := {
      typeName := Text.join " " ((leading.filter isTypePart).map r.squashed) ++ String.ofList suffix
      isStatic := leading.any isStatic }
    [.declared (s.declare .field name [] (r.location declarator) (r.annotations core outer) []
      (.field info)) []]

def declarators (r : Reading) (s : Surroundings) (core : Place) (template : Option TemplateHeader) :
    List Entry :=
  (core.node.childrenAt "declarator").flatMap fun declarator =>
    if (Reading.functionDeclarator? declarator).isSome then function r s core declarator template false
    else if core.node.kind == "field_declaration" && s.recordName.isSome then
      field r s core declarator (outerOf template core)
    else []

def accessOf (r : Reading) (n : Node) : Access :=
  match String.ofList (Chars.trim (Chars.dropRightWhile (· == ':') (r.textOf n).toList)) with
  | "private" => .privateMember
  | "protected" => .protectedMember
  | _ => .publicMember

def templated? (p : Place) : Option Place :=
  p.children.find? fun c =>
    c.node.isNamed && !(["template_parameter_list", "comment"].contains c.node.kind)

theorem sizeOf_lt_of_templated? {p c : Place} (found : templated? p = some c) :
    sizeOf c.node < sizeOf p.node :=
  Place.sizeOf_lt_of_mem_children (List.mem_of_find?_eq_some found)

def inNamespace (r : Reading) (s : Surroundings) (n : Node) : Surroundings :=
  match n.child? "name" with
  | none => s
  | some name => { s with namespaces := s.namespaces ++ QualifiedName.namespaceSegments (r.textOf name) }

mutual
/-- The entries of one node, and the access that holds after it. -/
def visit (r : Reading) (s : Surroundings) (template : Option TemplateHeader) (p : Place) :
    List Entry × Access :=
  match p.node.construct with
  | .namespaceBlock =>
    match _found : p.child? "body" with
    | none => ([], s.access)
    | some body => ((items r (inNamespace r s p.node) [] body.node.children).1, s.access)
  | .linkage =>
    match _found : p.child? "body" with
    | none => ([], s.access)
    | some body =>
      if body.node.kind = "declaration_list" then items r s [] body.node.children
      else visit r s none body
  | .template =>
    match _found : templated? p with
    | none => ([], s.access)
    | some inner => visit r s (some ⟨outerOf template p, r.templateParams p.node⟩) inner
  | .record tag => (record r s tag template p (outerOf template p), s.access)
  | .enumeration => (enumeration r s p (outerOf template p), s.access)
  | .declaration =>
    let specified :=
      match _found : p.child? "type" with
      | none => []
      | some type =>
        match type.node.construct with
        | .record tag => record r s tag template type (outerOf template p)
        | .enumeration => enumeration r s type (outerOf template p)
        | _ => []
    (specified ++ declarators r s p template, s.access)
  | .functionDefinition =>
    match p.node.child? "declarator" with
    | none => ([], s.access)
    | some declarator => (function r s p declarator template true, s.access)
  | .accessSpecifier => ([], accessOf r p.node)
  | .conditional => items r s [] p.node.children
  | .inclusion => ((r.inclusion? p.node).toList.map .inclusion, s.access)
  | .other => ([], s.access)
termination_by 2 * sizeOf p.node + 1
decreasing_by
  · have := Nat.lt_trans (Node.sizeOf_children_lt _) (Place.sizeOf_lt_of_child? _found); omega
  · have := Nat.lt_trans (Node.sizeOf_children_lt _) (Place.sizeOf_lt_of_child? _found); omega
  · have := Place.sizeOf_lt_of_child? _found; omega
  · have := sizeOf_lt_of_templated? _found; omega
  · omega
  · have := Place.sizeOf_lt_of_child? _found; omega
  · have := Node.sizeOf_children_lt p.node; omega

/-- A record with a body and its members; the members of an unnamed record belong to what is
around it. -/
def record (r : Reading) (s : Surroundings) (tag : RecordTag) (template : Option TemplateHeader)
    (core outer : Place) : List Entry :=
  match _found : core.child? "body" with
  | none => []
  | some body =>
    match core.node.child? "name" with
    | none => (items r { s with access := tag.defaultAccess } [] body.node.children).1
    | some nameNode =>
      let (enclosing, name) := QualifiedName.split (r.squashed nameNode)
      let head := s.declare tag.kind name enclosing (r.location core.node)
        (r.annotations core outer) (paramsOf template) (.record ⟨tag, bases r core.node⟩)
      [.declared head (items r (s.inRecord enclosing name tag) [] body.node.children).1]
termination_by 2 * sizeOf core.node
decreasing_by
  · have := Nat.lt_trans (Node.sizeOf_children_lt _) (Place.sizeOf_lt_of_child? _found); omega
  · have := Nat.lt_trans (Node.sizeOf_children_lt _) (Place.sizeOf_lt_of_child? _found); omega

/-- The entries of nodes in order, where `before` stands in front of them, and the access
that holds at the end. -/
def items (r : Reading) (s : Surroundings) (before : List Node) : List Node → List Entry × Access
  | [] => ([], s.access)
  | n :: rest =>
    let first := visit r s none ⟨n, before⟩
    let others := items r { s with access := first.2 } (n :: before) rest
    (first.1 ++ others.1, others.2)
termination_by nodes => 2 * sizeOf nodes
decreasing_by
  · simp only [List.cons.sizeOf_spec]; omega
  · simp only [List.cons.sizeOf_spec]; omega
end

end Outline

namespace SourceUnit

mutual
/-- Appends an entry below `parent`, each declaration directly before its members. -/
def addEntry (present : Path → Bool) (parent : Option Nat) (u : SourceUnit) : Entry → SourceUnit
  | .declared head members => addEntries present (some u.size) (u.push { head with parent }) members
  | .inclusion inclusion => (inclusion.warning? present).elim u u.report
def addEntries (present : Path → Bool) (parent : Option Nat) (u : SourceUnit) : List Entry → SourceUnit
  | [] => u
  | entry :: rest => addEntries present parent (addEntry present parent u entry) rest
end

def ofTree (r : Reading) (present : Path → Bool) (root : Node) : SourceUnit :=
  addEntries present none (.empty r.file r.includePaths) (Outline.items r .global [] root.children).1

end SourceUnit

end MarkerGen
