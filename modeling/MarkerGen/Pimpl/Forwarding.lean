import MarkerGen.Strategy

/-! Methods of an interface class that pass their calls on to the implementation object. -/
namespace MarkerGen.Pimpl

/-- A public method that is neither constructor nor destructor nor operator and is not marked
to be skipped. -/
def isForwardable (d : Declaration) : Bool :=
  d.access == .publicMember && !d.hasAnnotation "skip_pimpl" &&
    d.detail.function?.any fun info => !info.isConstructor && !info.isDestructor && !info.isOperator

/-- What `f` makes of the methods to pass on among the members at some positions, in order up to
the first fault. -/
def forwardableAt {α : Type} (u : SourceUnit) (f : Declared → Except Fault α) : List Nat → Except Fault (List α)
  | [] => .ok []
  | id :: rest => do
    let member ← looking (u.member id)
    if member.decl.kind = .method ∧ isForwardable member.decl then
      let made ← f member
      return made :: (← forwardableAt u f rest)
    else forwardableAt u f rest

def forwardable {α : Type} (u : SourceUnit) (record : Declaration) (f : Declared → Except Fault α) :
    Except Fault (List α) :=
  forwardableAt u f record.children

def templateParamText (p : TemplateParam) : String :=
  let pack := if p.isPack then "..." else ""
  match p.kind with
  | .typeParam => "typename" ++ pack ++ " " ++ p.name
  | .valueParam => "auto" ++ pack ++ " " ++ p.name
  | .templateParam => "template<typename...> class" ++ pack ++ " " ++ p.name

def templateText (d : Declaration) : String :=
  if d.isTemplate then "template<" ++ Text.join ", " (d.templateParams.map templateParamText) ++ "> " else ""

def signature (d : Declaration) (interface : Option String) : String :=
  match d.detail.function? with
  | none => templateText d
  | some info =>
    templateText d ++
      (if info.isStatic && interface.isNone then "static " else "") ++
      (if info.isConstexpr then "constexpr " else "") ++
      info.returnType.getD "void" ++ " " ++
      (match interface with | some interface => interface ++ "::" | none => "") ++
      d.name ++ "(" ++ Text.join ", " (info.params.map (·.full)) ++ ")" ++
      (if info.isConst then " const" else "") ++
      (if info.isNoexcept then " noexcept" else "")

def callArgument (p : Param) : String :=
  match p.packType? with
  | some element => "std::forward<" ++ element ++ ">(" ++ p.name ++ ")..."
  | none =>
    let value := if p.needsMove then "std::move(" ++ p.name ++ ")" else p.name
    if p.isPack then value ++ "..." else value

def params (d : Declaration) : List Param := (d.detail.function?.map (·.params)).getD []

def forward (interface : Option String) (withoutBody : Bool) (d : Declaration) :
    Except GenerationError String :=
  if withoutBody then .ok (signature d interface ++ ";\n")
  else match (params d).findIdx? (·.name.isEmpty) with
    | some position => .error (.unsupported ("parameter " ++ toString (position + 1) ++ " of '" ++
        d.qualifiedName ++ "' has no name and cannot be forwarded"))
    | none => .ok (signature d interface ++ "\n\x7b\n return impl_->" ++ d.name ++ "(" ++
        Text.join ", " ((params d).map callArgument) ++ ");\n\x7d\n")

end MarkerGen.Pimpl
