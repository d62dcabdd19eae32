import MarkerGen.SourceUnit
import MarkerGen.SourceTree.AnnotationTokens
import MarkerGen.SourceTree.Node
import MarkerGen.SourceTree.QualifiedName
import MarkerGen.SourceTree.Words

/-! What single nodes of a source tree say: their text and place, and the parameters, types
and annotations written in them. -/
namespace MarkerGen

structure Reading where
  text : String
  file : Path
  includePaths : List Path
  commentMarkers : Bool

/-- A quoted include, with the paths where its file is looked up. -/
structure Inclusion where
  written : String
  candidates : List Path
  location : Location

/-- A node with the siblings in front of it, nearest first. -/
structure Place where
  node : Node
  before : List Node

namespace Place

def ofChildren (before : List Node) : List Node → List Place
  | [] => []
  | n :: rest => ⟨n, before⟩ :: ofChildren (n :: before) rest

theorem mem_of_ofChildren {p : Place} {before children : List Node}
    (inside : p ∈ ofChildren before children) : p.node ∈ children := by
  induction children generalizing before with
  | nil => cases inside
  | cons n rest ih =>
    rcases List.mem_cons.mp inside with rfl | later
    · exact List.mem_cons_self
    · exact List.mem_cons_of_mem _ (ih later)

def children (p : Place) : List Place := ofChildren [] p.node.children

def child? (p : Place) (field : String) : Option Place := p.children.find? (·.node.field == field)

theorem sizeOf_lt_of_mem_children {p c : Place} (inside : c ∈ p.children) :
    sizeOf c.node < sizeOf p.node :=
  Node.sizeOf_lt_of_mem_children (mem_of_ofChildren inside)

theorem sizeOf_lt_of_child? {p c : Place} {field : String} (found : p.child? field = some c) :
    sizeOf c.node < sizeOf p.node :=
  sizeOf_lt_of_mem_children (List.mem_of_find?_eq_some found)

end Place

namespace Reading

/-- The text between two byte offsets, empty if they cut a character. -/
def slice (r : Reading) (start stop : Nat) : String :=
  (String.fromUTF8? (r.text.toUTF8.extract start stop)).getD ""

def textOf (r : Reading) (n : Node) : String := r.slice n.start n.stop

def squashed (r : Reading) (n : Node) : String := Text.squash (r.textOf n)

def trimmed (r : Reading) (n : Node) : String := Text.trim (r.textOf n)

def row (r : Reading) (offset : Nat) : Nat := (r.text.toUTF8.extract 0 offset).toList.count 10

def column (r : Reading) (offset : Nat) : Nat :=
  ((r.text.toUTF8.extract 0 offset).toList.reverse.takeWhile (· != 10)).length

def location (r : Reading) (n : Node) : Location := ⟨r.file, r.row n.start + 1, r.column n.start + 1⟩

/-- Node kinds whose contents carry no annotation of the declaration around them. -/
def bodyKinds : List String :=
  ["field_declaration_list", "enumerator_list", "compound_statement", "declaration_list",
   "parameter_list", "template_parameter_list"]

mutual
def declaratorName? (r : Reading) : Node → Option String
  | .mk info children =>
    if ["identifier", "field_identifier", "destructor_name", "operator_name"].contains info.kind then
      some (Text.trim (r.slice info.start info.stop))
    else if info.kind = "qualified_identifier" then
      some (Text.squash (r.slice info.start info.stop))
    else declaratorNameIn? r children
def declaratorNameIn? (r : Reading) : List Node → Option String
  | [] => none
  | n :: rest =>
    if n.isNamed && !bodyKinds.contains n.kind then
      (declaratorName? r n).or (declaratorNameIn? r rest)
    else declaratorNameIn? r rest
end

def innerDeclarator? (n : Node) : Option Node :=
  (n.child? "declarator").or (n.children.filter (·.isNamed)).getLast?

theorem sizeOf_lt_of_innerDeclarator? {n inner : Node} (found : innerDeclarator? n = some inner) :
    sizeOf inner < sizeOf n := by
  unfold innerDeclarator? at found
  rcases Option.or_eq_some_iff.mp found with direct | ⟨_, last⟩
  · exact Node.sizeOf_lt_of_child? direct
  · exact Node.sizeOf_lt_of_mem_children (List.mem_filter.mp (List.mem_of_getLast? last)).1

/-- The function declarator inside a declarator, with the pointer, reference and attribute
declarators around it, outermost first. -/
def functionDeclarator? (n : Node) : Option (List Node × Node) :=
  if n.kind = "function_declarator" then some ([], n)
  else if ["pointer_declarator", "reference_declarator", "attributed_declarator"].contains n.kind then
    match _found : innerDeclarator? n with
    | none => none
    | some inner => (functionDeclarator? inner).map fun (around, function) => (n :: around, function)
  else none
termination_by sizeOf n
decreasing_by exact sizeOf_lt_of_innerDeclarator? _found

def lastOfKind (r : Reading) (kind : String) (n : Node) : String :=
  if n.kind = kind then r.trimmed n
  else ((n.children.filter (·.kind == kind)).getLast?.map r.trimmed).getD ""

def childrenBefore (n limit : Node) : List Node := n.children.takeWhile (·.start < limit.start)

def startsWithDoubleReference (r : Reading) (n : Node) : Bool :=
  Text.startsWith "&&" (Text.trimLeft (r.textOf n))

def param? (r : Reading) (n : Node) : Option Param :=
  if ["parameter_declaration", "optional_parameter_declaration",
      "variadic_parameter_declaration"].contains n.kind then
    let declarator := n.child? "declarator"
    let fallback := n.child? "default_value"
    let stop := (fallback.map Node.start).getD n.stop
    let written := Chars.trimRight (r.slice n.start stop).toList
    let full := Chars.squash (Chars.trimRight (Chars.dropRightWhile (· == '=') written))
    if declarator.isNone && full == "void".toList then none
    else
      let name := (declarator.bind (declaratorName? r)).getD ""
      let typeName := if name.isEmpty then full else Words.removeLast full name.toList
      let declaratorKind := (declarator.map Node.kind).getD ""
      let isReference := Text.contains "reference_declarator" declaratorKind
      let isPointer := Text.contains "pointer_declarator" declaratorKind
      let isConst := n.children.any fun c => c.kind == "type_qualifier" && r.trimmed c == "const"
      let isClass := (n.child? "type").any fun t =>
        ["type_identifier", "qualified_identifier", "template_type", "dependent_type"].contains t.kind
      some {
        typeName := String.ofList typeName
        name
        full := String.ofList full
        fallback := fallback.map r.squashed
        isRvalueRef := isReference && declarator.any r.startsWithDoubleReference
        isByValueClass := isClass && !isReference && !isPointer && !isConst
        isPack := n.kind == "variadic_parameter_declaration" ||
          declarator.any (Node.hasKind "variadic_declarator") }
  else none

def templateParamParts? (r : Reading) (n : Node) :
    Option (TemplateParamKind × String × Option String) :=
  let declared := ((n.child? "declarator").bind (declaratorName? r)).getD ""
  match n.kind with
  | "type_parameter_declaration" | "variadic_type_parameter_declaration" =>
    some (.typeParam, r.lastOfKind "type_identifier" n, none)
  | "optional_type_parameter_declaration" =>
    some (.typeParam, ((n.child? "name").map r.squashed).getD "", (n.child? "default_type").map r.squashed)
  | "parameter_declaration" | "variadic_parameter_declaration" => some (.valueParam, declared, none)
  | "optional_parameter_declaration" =>
    some (.valueParam, declared, (n.child? "default_value").map r.squashed)
  | "template_template_parameter_declaration" =>
    let names := (n.children.filter (·.kind != "template_parameter_list")).map (r.lastOfKind "type_identifier")
    some (.templateParam, ((names.filter (· != "")).getLast?).getD "", none)
  | _ => none

def templateParam? (r : Reading) (n : Node) : Option TemplateParam :=
  (r.templateParamParts? n).map fun (kind, name, fallback) =>
    { kind, name, fallback
      isPack := Text.startsWith "variadic" n.kind || Text.contains "..." (r.textOf n) }

def templateParams (r : Reading) (n : Node) : List TemplateParam :=
  match n.child? "parameters" with
  | none => []
  | some list => (list.children.filter (·.isNamed)).filterMap r.templateParam?

def returnSuffix (r : Reading) (n : Node) : String :=
  match n.kind with
  | "pointer_declarator" => "*"
  | "reference_declarator" => if r.startsWithDoubleReference n then "&&" else "&"
  | _ => ""

/-- The return type of a function; constructors, destructors and conversions have none. -/
def returnType? (r : Reading) (n declarator : Node) (around : List Node) : Option String :=
  match n.child? "type" with
  | none => none
  | some type =>
    let part? (c : Node) : Option String :=
      if c.id = type.id then some (r.squashed c)
      else if c.kind = "type_qualifier" && ["const", "volatile"].contains (r.trimmed c) then some (r.trimmed c)
      else none
    let parts := (childrenBefore n declarator).filterMap part?
    some (Text.join " " parts ++ String.join (around.map r.returnSuffix))

/-- Tokens of the comments directly above a node, given the siblings in front of it. A
comment counts if no blank line follows it and nothing stands before it on its line. -/
def commentsAbove (r : Reading) (boundary : Nat) : List Node → List String
  | [] => []
  | comment :: before =>
    let trailing := match before with
      | [] => false
      | other :: _ => r.row other.stop == r.row comment.start
    if comment.kind != "comment" || boundary - r.row comment.stop > 1 || trailing then []
    else commentsAbove r (r.row comment.start) before ++ (AnnotationTokens.commentToken? (r.textOf comment)).toList

def leadingComments (r : Reading) (p : Place) : List String :=
  r.commentsAbove (r.row p.node.start) p.before

mutual
def attributes : Node → List Node
  | .mk _ children => attributesOf children
def attributesOf : List Node → List Node
  | [] => []
  | n :: rest =>
    (if ["attribute_specifier", "attribute_declaration"].contains n.kind then [n]
      else if bodyKinds.contains n.kind then []
      else attributes n) ++ attributesOf rest
end

/-- Annotation tokens of a declaration whose template header or declaration statement is
`outer`: comments above it, comments above its own node, and attributes. -/
def annotations (r : Reading) (core outer : Place) : List String :=
  let comments :=
    if r.commentMarkers then
      r.leadingComments outer ++ (if core.node.id = outer.node.id then [] else r.leadingComments core)
    else []
  comments ++ (attributes outer.node).flatMap fun n => AnnotationTokens.attributeTokens (r.textOf n)

/-- The include of a node, looked up beside the file and on the include paths; one that is not
quoted gives none. -/
def inclusion? (r : Reading) (n : Node) : Option Inclusion :=
  match n.child? "path" with
  | none => none
  | some path =>
    if path.kind = "string_literal" then
      let quoted := (Chars.trim (r.textOf path).toList).dropWhile (· == '"')
      let written := String.ofList (Chars.dropRightWhile (· == '"') quoted)
      let directories := r.file.parent?.toList ++ r.includePaths
      some ⟨written, directories.map (·.join ⟨written⟩), r.location n⟩
    else none

end Reading

def Inclusion.warning? (present : Path → Bool) (i : Inclusion) : Option Diagnostic :=
  if i.candidates.any present then none
  else some ⟨.warning, "cannot resolve include \"" ++ i.written ++ "\"", some i.location⟩

end MarkerGen
