import MarkerGen.Enum.Generate
import MarkerGen.Pimpl.Generate
import MarkerGen.Plugin.Descriptor
import MarkerGen.Reflect

/-! The plugins that are part of the program. -/
namespace MarkerGen.Plugin

def hostVersion : String := "0.3.0"

def builtin (id title description : String) (capabilities : List Capability) : Plugin where
  id := id
  version := hostVersion
  about := ⟨title, "flextool", description⟩
  interfaceVersion := hostInterface
  threadSafe := true
  capabilities := capabilities
  onLoad := none
  onUnload := false

def offer (tag : String) (kinds : List Kind) (strategy : Strategy) : Capability :=
  ⟨.ofText tag, .ofList kinds, false, strategy⟩

def enumConversions : Plugin :=
  builtin "flex_enum_plugin" "Enum conversions" "String and JSON conversions for annotated enums"
    [offer "enum-to-string" [.enumeration] Enum.toStringStrategy,
     offer "enum-to-json" [.enumeration] Enum.toJsonStrategy]

/-- The value of a setting; a null one counts as missing. -/
def setting? (values : Json) (name : String) : Option Json :=
  match values with
  | .obj fields =>
    match fields.find? (·.1 == some name) with
    | none | some (_, .null) => none
    | some (_, value) => some value
  | _ => none

def checkOutDir (settings : PluginSettings) : Except (Halt HookError) Unit :=
  match setting? settings.values "outDir" with
  | none | some (.str _) => .ok ()
  | some value => .error <| .error (.invalidSettings ("outDir must be a string, got " ++ value.compact))

def pimpl : Plugin :=
  let carriers := [Kind.classType, Kind.structType]
  { builtin "flex_pimpl_plugin" "Pimpl" "Generates FastPimpl storage and forwarding methods"
      [offer "reflect-for-pimpl" carriers (Reply.ofResult ∘ Pimpl.report),
       offer "inject-pimpl-method-calls" carriers (Reply.ofResult ∘ Pimpl.methodCalls),
       offer "inject-pimpl-storage" carriers (Reply.ofResult ∘ Pimpl.storage)] with
    onLoad := some checkOutDir
    onUnload := true }

def reflection : Plugin :=
  builtin "flex_reflect_plugin" "Reflection metadata"
    "Compile-time field and method tables for annotated records"
    [offer "reflection-metadata" [.classType, .structType, .unionType] (Reply.ofResult ∘ Reflect.generate)]

/-- The built-in plugins in the order of their ids. -/
def builtins : List Plugin := [enumConversions, pimpl, reflection]

def builtinIds : List String := builtins.map (·.id)

def findBuiltin? (id : String) : Option Plugin := builtins.find? (·.id == id)

end MarkerGen.Plugin
