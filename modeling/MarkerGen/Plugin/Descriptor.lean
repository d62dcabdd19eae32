import MarkerGen.Capability.Scope
import MarkerGen.Distinct
import MarkerGen.Json.Printer
import MarkerGen.RunError
import MarkerGen.Strategy

/-! Plugins as they describe themselves to the program: what they generate, for which kinds of
declarations, and what they do when a run starts and ends. -/
namespace MarkerGen

/-- A strategy offered under a tag. An overriding capability takes its kinds away from the
plugins before it. -/
structure Capability where
  tag : Tag
  scope : Scope
  overrides : Bool
  strategy : Strategy

structure PluginSettings where
  values : Json
  outputDir : Path

inductive HookError where
  | invalidSettings (message : String)
  | internal (message : String)
  deriving DecidableEq, Repr

def HookError.message : HookError → String
  | .invalidSettings message => "Invalid plugin settings: " ++ message
  | .internal message => "Internal error: " ++ message

structure PluginAbout where
  title : String
  author : String
  description : String
  deriving DecidableEq, Repr

structure Plugin where
  id : String
  version : String
  about : PluginAbout
  interfaceVersion : Nat
  threadSafe : Bool
  capabilities : List Capability
  onLoad : Option (PluginSettings → Except (Halt HookError) Unit)
  onUnload : Bool

namespace Plugin

def hostInterface : Nat := 1

def handles (p : Plugin) (tag : Tag) : Bool := p.capabilities.any (·.tag == tag)

/-- The tags of a plugin in the order of its capabilities, each once. -/
def tags (p : Plugin) : List Tag := firstOfEach (· == ·) [] (p.capabilities.map (·.tag))

end Plugin

end MarkerGen
