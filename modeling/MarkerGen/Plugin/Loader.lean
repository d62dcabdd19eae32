import MarkerGen.FileStore
import MarkerGen.Plugin.Builtin
import MarkerGen.RunError

/-! Loading the plugin that a text names: a built-in one by its id, a shared module by its path,
or a built-in one by the file name that it would have as a module. -/
namespace MarkerGen

inductive SharedModule where
  | notAModule
  | undeclared
  | declared (interfaceVersion : Nat) (apiVersion : String) (plugin : Plugin)

inductive PluginSource where
  | builtin
  | library (path : Path)
  deriving DecidableEq, Repr

def PluginSource.text : PluginSource → String
  | .builtin => "built-in"
  | .library path => path.text

structure LoadedPlugin where
  plugin : Plugin
  source : PluginSource

inductive LoadError where
  | incompatibleInterface (plugin : String) (expected found : Nat)
  | incompatibleApi (plugin expected found : String)
  | notAModule (path : String)
  | undeclared (path : String)
  | unknownBuiltin (id : String) (available : List String)
  | notFound (name : String)
  deriving DecidableEq, Repr

namespace LoadError

def message : LoadError → String
  | .incompatibleInterface plugin expected found =>
    "Plugin '" ++ plugin ++ "' speaks capability interface " ++ toString found ++ ", host expects " ++
      toString expected ++ " (plugin must be rebuilt)"
  | .incompatibleApi plugin expected found =>
    "Plugin '" ++ plugin ++ "' was built against plugin API " ++ found ++ ", host provides " ++ expected
  | .notAModule path => "Failed to load library '" ++ path ++ "': not a shared module"
  | .undeclared path => "Library '" ++ path ++ "' does not export 'FLEX_PLUGIN_DECLARATION': undefined symbol"
  | .unknownBuiltin id available =>
    "Unknown built-in plugin '" ++ id ++ "' (available: [" ++
      Text.join ", " (available.map fun known => "\"" ++ known ++ "\"") ++ "])"
  | .notFound name => "Plugin '" ++ name ++ "' not found: not a file and not a built-in plugin"

def isVersionMismatch : LoadError → Bool
  | .incompatibleInterface .. => true
  | _ => false

def toRunError (e : LoadError) : RunError :=
  match e with
  | .incompatibleInterface plugin expected found => .incompatiblePlugin plugin expected found
  | _ => .pluginLoad e.message

end LoadError

namespace Plugin

/-- Plugin API versions are compatible when their first two numbers agree. -/
def isCompatibleApi (found : String) : Bool :=
  match Text.splitAt '.' hostVersion, Text.splitAt '.' found with
  | hostMajor :: hostMinor :: _, major :: minor :: _ => major == hostMajor && minor == hostMinor
  | _, _ => false

def loadBuiltin (id : String) : Except LoadError LoadedPlugin :=
  match findBuiltin? id with
  | some plugin => .ok ⟨plugin, .builtin⟩
  | none => .error (.unknownBuiltin id builtinIds)

/-- Loads the shared module at a path. No code of a module runs before its versions are found
to fit. A path without slash is searched among the libraries of the system, where it is not. -/
def loadLibrary (openModule : ByteArray → SharedModule) (fs : FileStore) (path : Path) :
    Except LoadError LoadedPlugin :=
  let found := if Text.contains "/" path.text then (fs.read path).toOption.map openModule else none
  match found with
  | none | some .notAModule => .error (.notAModule path.text)
  | some .undeclared => .error (.undeclared path.text)
  | some (.declared interfaceVersion apiVersion plugin) =>
    if interfaceVersion ≠ hostInterface then
      .error (.incompatibleInterface path.text hostInterface interfaceVersion)
    else if isCompatibleApi apiVersion then .ok ⟨plugin, .library path⟩
    else .error (.incompatibleApi path.text hostVersion apiVersion)

/-- The id in a file name such as `libflex_enum_plugin.so`. -/
def idOfFileName? (path : Path) : Option String :=
  path.fileStem?.bind fun stem =>
    let id := (Text.afterLead? "lib" stem).getD stem
    if id.isEmpty then none else some id

def load (openModule : ByteArray → SharedModule) (fs : FileStore) (name : String) :
    Except LoadError LoadedPlugin :=
  match Text.afterLead? "builtin:" name with
  | some id => loadBuiltin id
  | none =>
    if fs.isFile ⟨name⟩ then loadLibrary openModule fs ⟨name⟩
    else match (idOfFileName? ⟨name⟩).bind findBuiltin? with
      | some plugin => .ok ⟨plugin, .builtin⟩
      | none => .error (.notFound name)

end Plugin

end MarkerGen
