import MarkerGen.Plugin.Loader

/-! The registry of plugins: which plugin serves a tag for a kind of declaration. Plugins claim
tags in the order they are registered. Claims on one tag may overlap only if one overrides the
other or a priority list ranks one of the two plugins. -/
namespace MarkerGen

/-- A capability of a registered plugin with the kinds that are still served by it. -/
structure Claim where
  plugin : Plugin
  position : Nat
  capability : Capability
  scope : Scope

def Claim.tag (c : Claim) : Tag := c.capability.tag

inductive RegistryError where
  | incompatibleInterface (plugin : String) (expected found : Nat)
  | duplicatePlugin (plugin : String)
  | duplicateCapability (tag : Tag) (scope : Scope) (first second : String)
  | unknownCapability (tag : Tag)
  | unsupportedKind (tag : Tag) (kind : Kind)
  | loadHookFailed (plugin message : String)
  deriving DecidableEq

namespace RegistryError

def message : RegistryError → String
  | .incompatibleInterface plugin expected found =>
    "Plugin '" ++ plugin ++ "' speaks capability interface " ++ toString found ++ ", host expects " ++
      toString expected
  | .duplicatePlugin plugin => "Plugin '" ++ plugin ++ "' is already registered"
  | .duplicateCapability tag scope first second =>
    "Capability '" ++ tag.text ++ "' is claimed by both '" ++ first ++ "' and '" ++ second ++ "' for kinds " ++
      scope.text ++ "; mark one claim as an override or configure registry.priority"
  | .unknownCapability tag => "No loaded plugin provides capability '" ++ tag.text ++ "'"
  | .unsupportedKind tag kind => "Capability '" ++ tag.text ++ "' does not support " ++ kind.name ++ " declarations"
  | .loadHookFailed plugin message => "Plugin '" ++ plugin ++ "' failed to load: " ++ message

def toRunError (e : RegistryError) : RunError :=
  match e with
  | .incompatibleInterface plugin expected found => .incompatiblePlugin plugin expected found
  | .unknownCapability tag => .unknownCapability tag none
  | .duplicatePlugin .. | .duplicateCapability .. => .duplicateCapability e.message
  | .unsupportedKind .. => .config e.message
  | .loadHookFailed .. => .pluginLoad e.message

end RegistryError

structure Registry where
  /-- In the order of registration. -/
  plugins : List LoadedPlugin
  /-- In the order they were made. -/
  claims : List Claim
  /-- For a tag, the ids of the plugins that win it, the first one first. -/
  priority : List (Tag × List String)
  closed : Bool

namespace Registry

def empty : Registry := ⟨[], [], [], false⟩

def setPriority (r : Registry) (tag : Tag) (ids : List String) : Registry :=
  { r with priority := r.priority.filter (·.1 != tag) ++ [(tag, ids)] }

def priorityOf (r : Registry) (tag : Tag) : List String :=
  ((r.priority.find? (·.1 == tag)).map (·.2)).getD []

def plugin? (r : Registry) (id : String) : Option LoadedPlugin := r.plugins.find? (·.plugin.id == id)

def priorityDecides (r : Registry) (tag : Tag) (first second : String) : Bool :=
  (r.priorityOf tag).any fun id => id == first || id == second

/-- A claim after another plugin overrides a tag for some kinds; nothing is left of a claim
without kinds. -/
def overridden (position : Nat) (capability : Capability) (claim : Claim) : Option Claim :=
  if claim.tag ≠ capability.tag then some claim
  else
    let scope := if claim.position = position then claim.scope else claim.scope.difference capability.scope
    if scope.isEmpty then none else some { claim with scope }

def conflicts (r : Registry) (plugin : Plugin) (capability : Capability) (claim : Claim) : Bool :=
  claim.tag == capability.tag && claim.scope.overlaps capability.scope &&
    !r.priorityDecides capability.tag claim.plugin.id plugin.id

def addClaim (r : Registry) (plugin : Plugin) (position : Nat) (claims : List Claim) (capability : Capability) :
    Except RegistryError (List Claim) :=
  let claim : Claim := ⟨plugin, position, capability, capability.scope⟩
  if capability.overrides then .ok (claims.filterMap (overridden position capability) ++ [claim])
  else match claims.find? (r.conflicts plugin capability) with
    | some other => .error (.duplicateCapability capability.tag (other.scope.intersection capability.scope)
        other.plugin.id plugin.id)
    | none => .ok (claims ++ [claim])

/-- Registers a loaded plugin, or refuses it and changes nothing. -/
def register (r : Registry) (loaded : LoadedPlugin) : Except RegistryError Registry :=
  let plugin := loaded.plugin
  if plugin.interfaceVersion ≠ Plugin.hostInterface then
    .error (.incompatibleInterface plugin.id Plugin.hostInterface plugin.interfaceVersion)
  else if (r.plugin? plugin.id).isSome then .error (.duplicatePlugin plugin.id)
  else
    (plugin.capabilities.foldlM (r.addClaim plugin r.plugins.length) r.claims).map fun claims =>
      { r with claims, plugins := r.plugins ++ [loaded] }

/-- Where a claim stands among those of its tag: by the priority list, then by registration.
Plugins that are not listed come after those that are. -/
def rank (r : Registry) (claim : Claim) : Nat × Nat :=
  ((r.priorityOf claim.tag).findIdx (· == claim.plugin.id), claim.position)

def rankLt (a b : Nat × Nat) : Bool := a.1 < b.1 || (a.1 == b.1 && a.2 < b.2)

def best (r : Registry) : List Claim → Option Claim
  | [] => none
  | claim :: rest =>
    match r.best rest with
    | none => some claim
    | some other => if rankLt (r.rank other) (r.rank claim) then some other else some claim

def claimsOf (r : Registry) (tag : Tag) : List Claim := r.claims.filter (·.tag == tag)

def provides (r : Registry) (tag : Tag) : Bool := !(r.claimsOf tag).isEmpty

def resolve (r : Registry) (tag : Tag) : Except RegistryError Claim :=
  match r.best (r.claimsOf tag) with
  | some claim => .ok claim
  | none => .error (.unknownCapability tag)

def resolveFor (r : Registry) (tag : Tag) (kind : Kind) : Except RegistryError Claim :=
  if r.provides tag then
    match r.best ((r.claimsOf tag).filter (·.scope.contains kind)) with
    | some claim => .ok claim
    | none => .error (.unsupportedKind tag kind)
  else .error (.unknownCapability tag)

def require (r : Registry) (tags : List Tag) : Except RegistryError Unit :=
  tags.forM fun tag => (r.resolve tag).map fun _ => ()

def listedBefore (r : Registry) (a b : Claim) : Bool :=
  a.tag.text < b.tag.text || (a.tag == b.tag && !rankLt (r.rank b) (r.rank a))

def listing (r : Registry) : List Claim := r.claims.mergeSort r.listedBefore

structure HookCall where
  plugin : Plugin
  settings : PluginSettings

/-- Calls load hooks up to the first that fails. Nothing stops a panic of a hook. -/
def runHooks (settings : List (String × Json)) (outputDir : Path) :
    List Plugin → List HookCall × Except (Halt RegistryError) Unit
  | [] => ([], .ok ())
  | plugin :: rest =>
    match plugin.onLoad with
    | none => runHooks settings outputDir rest
    | some hook =>
      let values := ((settings.find? (·.1 == plugin.id)).map (·.2)).getD .null
      let call : HookCall := ⟨plugin, values, outputDir⟩
      match hook call.settings with
      | .error halt => ([call], .error (halt.map fun error => .loadHookFailed plugin.id error.message))
      | .ok () =>
        let (calls, result) := runHooks settings outputDir rest
        (call :: calls, result)

def runLoadHooks (r : Registry) (settings : List (String × Json)) (outputDir : Path) :
    List HookCall × Except (Halt RegistryError) Unit :=
  runHooks settings outputDir (r.plugins.map (·.plugin))

/-- Ends the use of a registry: the plugins to be told, the last registered first. A registry
ends once. -/
def shutdown (r : Registry) : Registry × List Plugin :=
  if r.closed then (r, [])
  else ({ r with closed := true }, (r.plugins.reverse.map (·.plugin)).filter (·.onUnload))

end Registry

end MarkerGen
