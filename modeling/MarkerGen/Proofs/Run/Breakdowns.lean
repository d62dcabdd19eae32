import MarkerGen.Plugin.Builtin
import MarkerGen.Proofs.Enum.Overflow
import MarkerGen.Proofs.Registry.Ambiguity
import MarkerGen.Proofs.Run.Isolation
import MarkerGen.Proofs.SourceUnit.Children

/-! What the plugins of the program can break down on. In a unit that was made by appending
declarations no child is missing, so that only enumerators are left whose value overflows. -/
namespace MarkerGen

/-- A result that is a complaint or a value with a property, and no breakdown. -/
def Yields {α : Type} (property : α → Prop) : Except Fault α → Prop
  | .ok value => property value
  | .error (.complaint _) => True
  | .error (.crash _) => False

def Steady {α : Type} (result : Except Fault α) : Prop := Yields (fun _ => True) result

section
variable {α β : Type} {property : α → Prop} {wanted : β → Prop}

theorem Yields.bind {result : Except Fault α} {next : α → Except Fault β} (first : Yields property result)
    (rest : ∀ value, property value → Yields wanted (next value)) : Yields wanted (result >>= next) := by
  match result with
  | .ok value => exact rest value first
  | .error (.complaint _) => trivial
  | .error (.crash _) => exact first

theorem Yields.steady {result : Except Fault α} (yields : Yields property result) : Steady result := by
  match result with
  | .ok _ => trivial
  | .error (.complaint _) => trivial
  | .error (.crash _) => exact yields

theorem steady_ok (value : α) : Steady (.ok value) := trivial

theorem yields_complaining (result : Except GenerationError α) :
    Yields (fun value => result = .ok value) (complaining result) := by
  cases result with
  | ok value => exact rfl
  | error error => trivial

theorem steady_looking {result : Except MissingMember α} (found : ∃ value, result = .ok value) :
    Steady (looking result) := by
  obtain ⟨value, rfl⟩ := found
  trivial

theorem crashed_ofResult_iff {result : Except Fault (List Code)} :
    (∃ message, (Reply.ofResult result).outcome = .crashed message) ↔ ∃ crash, result = .error (.crash crash) := by
  match result with
  | .ok codes => simp [Reply.ofResult, Reply.ofOutcome]
  | .error (.complaint error) => simp [Reply.ofResult, Reply.ofOutcome]
  | .error (.crash cause) => simp [Reply.ofResult, Reply.ofOutcome]

end

namespace SourceUnit
variable {u : SourceUnit}

theorem member_ok {id : Nat} (bound : id < u.size) : ∃ declared, u.member id = .ok declared := by
  have found : u.decls[id]? = some u.decls[id] := Array.getElem?_eq_getElem bound
  exact ⟨⟨id, u.decls[id]⟩, by simp [member, get?, found]⟩

theorem members_ok {d : Declaration} (bounds : ∀ id ∈ d.children, id < u.size) :
    ∃ members, u.members d = .ok members := by
  unfold members
  generalize d.children = ids at bounds
  induction ids with
  | nil => exact ⟨[], rfl⟩
  | cons id rest ih =>
    obtain ⟨declared, first⟩ := member_ok (bounds id List.mem_cons_self)
    obtain ⟨others, later⟩ := ih fun other inside => bounds other (List.mem_cons_of_mem _ inside)
    exact ⟨declared :: others, by rw [List.mapM_cons, first, later]; rfl⟩

theorem anyMethod_ok {ids : List Nat} (bounds : ∀ id ∈ ids, id < u.size) : ∃ found, u.anyMethod ids = .ok found := by
  induction ids with
  | nil => exact ⟨false, rfl⟩
  | cons id rest ih =>
    obtain ⟨declared, first⟩ := member_ok (bounds id List.mem_cons_self)
    obtain ⟨found, later⟩ := ih fun other inside => bounds other (List.mem_cons_of_mem _ inside)
    rw [anyMethod, first]
    dsimp only
    split
    · exact ⟨true, rfl⟩
    · exact ⟨found, later⟩

theorem mem_of_findRecord? {name : String} {declared : Declared} (found : u.findRecord? name = some declared) :
    declared ∈ u.entries := by
  have records : declared ∈ u.records := by
    unfold findRecord? at found
    simp only at found
    split at found
    · exact List.mem_of_find?_eq_some found
    · split at found
      next only filtered =>
        cases found
        exact List.mem_of_mem_filter (filtered ▸ List.mem_singleton_self _)
      next => exact List.mem_of_mem_filter (List.mem_of_find?_eq_some found)
  exact List.mem_of_mem_filter records

theorem Pushed.member_bounds (pushed : Pushed u) {declared : Declared} (inside : declared ∈ u.entries) :
    ∀ id ∈ declared.decl.children, id < u.size :=
  fun _ child => pushed.child_lt (Array.mem_of_getElem? (mem_entries inside)) child

end SourceUnit

open SourceUnit (Pushed)

theorem steady_forwardable {α : Type} {u : SourceUnit} {record : Declaration} {make : Declared → Except Fault α}
    (bounds : ∀ id ∈ record.children, id < u.size) (each : ∀ method, Steady (make method)) :
    Steady (Pimpl.forwardable u record make) := by
  unfold Pimpl.forwardable
  generalize record.children = ids at bounds
  induction ids with
  | nil => trivial
  | cons id rest ih =>
    have others := ih fun other inside => bounds other (List.mem_cons_of_mem _ inside)
    refine (steady_looking (SourceUnit.member_ok (bounds id List.mem_cons_self))).bind fun member _ => ?_
    split
    · exact (each member).bind fun _ _ => others.bind fun _ _ => trivial
    · exact others

section
variable {r : Request} (pushed : Pushed r.unit)
include pushed

theorem steady_collect (inside : r.declared ∈ r.unit.entries) (fieldsOnly : Bool) :
    Steady (Reflect.collect r.unit r.decl fieldsOnly) := by
  obtain ⟨members, found⟩ := SourceUnit.members_ok (pushed.member_bounds inside)
  have fields : ∃ fields, r.unit.fields r.decl = .ok fields := by
    rw [SourceUnit.fields, Request.decl, found]
    exact ⟨_, rfl⟩
  have methods : ∃ methods, r.unit.methods r.decl = .ok methods := by
    rw [SourceUnit.methods, Request.decl, found]
    exact ⟨_, rfl⟩
  unfold Reflect.collect
  dsimp only
  split
  · trivial
  · refine (steady_looking fields).bind fun _ _ => (steady_looking methods).bind fun _ _ => ?_
    exact (yields_complaining _).steady

theorem steady_reflect (inside : r.declared ∈ r.unit.entries) : Steady (Reflect.generate r) :=
  (yields_complaining _).bind fun _ _ => (steady_collect pushed inside _).bind fun _ _ => trivial

theorem yields_resolve : Yields (fun found => ∀ id ∈ found.2.decl.children, id < r.unit.size) (Pimpl.resolve r) := by
  refine (yields_complaining _).bind fun settings _ => (yields_complaining _).bind fun record found => ?_
  have bounds : ∀ id ∈ record.decl.children, id < r.unit.size := by
    unfold Pimpl.Carrier.record at found
    split at found
    next listed =>
      cases found
      exact pushed.member_bounds (SourceUnit.mem_of_findRecord? listed)
    next => cases found
  refine (steady_looking (SourceUnit.anyMethod_ok bounds)).bind fun methods _ => ?_
  split
  · exact bounds
  · trivial

theorem steady_report : Steady (Pimpl.report r) := by
  unfold Pimpl.report
  split
  · trivial
  · refine (yields_resolve pushed).bind fun found bounds => ?_
    exact (steady_forwardable bounds fun _ => steady_ok _).bind fun _ _ => trivial

theorem steady_methodCalls : Steady (Pimpl.methodCalls r) := by
  refine (yields_complaining _).bind fun withoutBody _ => (yields_resolve pushed).bind fun found bounds => ?_
  exact (steady_forwardable bounds fun _ => (yields_complaining _).steady).bind fun _ _ => trivial

end

theorem steady_storage (r : Request) : Steady (Pimpl.storage r) :=
  (yields_complaining _).bind fun _ _ => (yields_complaining _).bind fun _ _ => trivial

namespace Registry

def ofBuiltins (priorities : List (Tag × List String)) : Registry :=
  built priorities (Plugin.builtins.map (⟨·, .builtin⟩))

-- No two capabilities of the program have a tag in common, so that no list is ever asked.
theorem claims_ofBuiltins (priorities : List (Tag × List String)) :
    (ofBuiltins priorities).claims = Plugin.builtins.zipIdx.flatMap fun (plugin, position) =>
      plugin.capabilities.map fun capability => ⟨plugin, position, capability, capability.scope⟩ := by
  have ⟨noPlugins, noClaims⟩ := withPriorities_empty priorities
  unfold ofBuiltins built
  generalize withPriorities priorities = r at noPlugins noClaims ⊢
  obtain ⟨plugins, claims, priority, closed⟩ := r
  subst noPlugins
  subst noClaims
  rfl

theorem mem_claims_ofBuiltins {priorities : List (Tag × List String)} {claim : Claim} :
    claim ∈ (ofBuiltins priorities).claims → ∃ plugin ∈ Plugin.builtins, claim.capability ∈ plugin.capabilities ∧
      claim.scope = claim.capability.scope := by
  intro member
  rw [claims_ofBuiltins] at member
  obtain ⟨⟨plugin, position⟩, numbered, inside⟩ := List.mem_flatMap.mp member
  obtain ⟨capability, offered, rfl⟩ := List.mem_map.mp inside
  exact ⟨plugin, List.fst_mem_of_mem_zipIdx numbered, offered, rfl⟩

end Registry

def enumTags : List Tag := Plugin.enumConversions.capabilities.map (·.tag)

namespace Generator

def ofBuiltins (priorities : List (Tag × List String)) (layout : Layout) (lead : String) (strict : Bool) : Generator :=
  ⟨.ofBuiltins priorities, layout, lead, strict⟩

/-- An enumeration with an enumerator that overflows, marked for a conversion. -/
structure Breaks (m : Match) : Prop where
  kind : m.declared.decl.kind = .enumeration
  tag : m.marker.tag ∈ enumTags
  args : ∀ arg ∈ m.marker.args, arg.name = some Enum.leadArgument
  overflow : ∃ listed, Enum.enumerators m.declared.decl = .ok listed ∧ ∃ e ∈ listed, Enum.Overflows e

/-- A capability of the program converts enumerations, or it does not break down. -/
theorem capability_cases {plugin : Plugin} (known : plugin ∈ Plugin.builtins) {capability : Capability}
    (offered : capability ∈ plugin.capabilities) :
    (capability.tag ∈ enumTags ∧ capability.scope = .ofList [.enumeration] ∧
      ∃ render, capability.strategy = Reply.ofResult ∘ Enum.generateWith render) ∨
    (capability.tag ∉ enumTags ∧ ∃ generate, capability.strategy = Reply.ofResult ∘ generate ∧
      ∀ r : Request, Pushed r.unit → r.declared ∈ r.unit.entries → Steady (generate r)) := by
  simp only [Plugin.builtins, List.mem_cons, List.not_mem_nil, or_false] at known
  rcases known with rfl | rfl | rfl
  · left
    simp only [Plugin.enumConversions, Plugin.builtin, List.mem_cons, List.not_mem_nil, or_false] at offered
    rcases offered with rfl | rfl <;> exact ⟨by decide, rfl, _, rfl⟩
  · right
    simp only [Plugin.pimpl, Plugin.builtin, List.mem_cons, List.not_mem_nil, or_false] at offered
    rcases offered with rfl | rfl | rfl
    · exact ⟨by decide, _, rfl, fun _ pushed _ => steady_report pushed⟩
    · exact ⟨by decide, _, rfl, fun _ pushed _ => steady_methodCalls pushed⟩
    · exact ⟨by decide, _, rfl, fun r _ _ => steady_storage r⟩
  · right
    simp only [Plugin.reflection, Plugin.builtin, List.mem_singleton] at offered
    subst offered
    exact ⟨by decide, _, rfl, fun _ pushed inside => steady_reflect pushed inside⟩

theorem enumClaim_of_tag {tag : Tag} (priorities : List (Tag × List String)) (wanted : tag ∈ enumTags) :
    ∃ claim, claim ∈ (Registry.ofBuiltins priorities).candidates tag .enumeration := by
  obtain ⟨capability, offered, rfl⟩ := List.mem_map.mp wanted
  refine ⟨⟨Plugin.enumConversions, 0, capability, capability.scope⟩, List.mem_filter.mpr ⟨?_, ?_⟩⟩
  · rw [Registry.claims_ofBuiltins]
    exact List.mem_append_left _ (List.mem_map_of_mem offered)
  · simp only [Plugin.enumConversions, Plugin.builtin, List.mem_cons, List.not_mem_nil, or_false] at offered
    rcases offered with rfl | rfl <;> decide

section
variable {u : SourceUnit} {m : Match} {priorities : List (Tag × List String)} {layout : Layout} {lead : String}
  {strict : Bool}

theorem breaks_of_crashed (pushed : Pushed u) (inside : m.declared ∈ u.entries) {claim : Claim} {message : String}
    (crashed : (ofBuiltins priorities layout lead strict).verdict u m = .ok (claim, .crashed message)) : Breaks m := by
  unfold verdict at crashed
  cases resolved : (ofBuiltins priorities layout lead strict).resolved m with
  | error error =>
    rw [resolved] at crashed
    cases crashed
  | ok winner =>
    rw [resolved] at crashed
    obtain ⟨rfl, outcome⟩ := Prod.mk.inj (Except.ok.inj crashed)
    obtain ⟨member, covered⟩ := List.mem_filter.mp (Registry.mem_candidates_of_resolveFor resolved)
    obtain ⟨tagged, contained⟩ : winner.tag = m.marker.tag ∧ winner.scope.contains m.declared.decl.kind = true := by
      simpa [Claim.covers] using covered
    obtain ⟨plugin, known, offered, scope⟩ := Registry.mem_claims_ofBuiltins member
    rcases capability_cases known offered with ⟨tag, kinds, render, strategy⟩ | ⟨_, generate, strategy, steady⟩
    · rw [strategy] at outcome
      obtain ⟨crash, broken⟩ := crashed_ofResult_iff.mp ⟨message, outcome⟩
      obtain ⟨_, args, overflow⟩ := Enum.generateWith_crash_iff.mp broken
      refine ⟨?_, tagged ▸ tag, args, overflow⟩
      rw [scope, kinds] at contained
      generalize m.declared.decl.kind = kind at contained
      revert contained
      cases kind <;> decide
    · rw [strategy] at outcome
      obtain ⟨crash, broken⟩ := crashed_ofResult_iff.mp ⟨message, outcome⟩
      have safe := steady (requestOf u m winner) pushed inside
      rw [broken] at safe
      exact safe.elim

theorem crashed_of_breaks (breaks : Breaks m) :
    ∃ claim message, (ofBuiltins priorities layout lead strict).verdict u m = .ok (claim, .crashed message) := by
  obtain ⟨candidate, among⟩ := enumClaim_of_tag priorities breaks.tag
  obtain ⟨winner, inside, resolved, _⟩ := Registry.resolveFor_listed rfl among
  obtain ⟨member, covered⟩ := List.mem_filter.mp inside
  obtain ⟨tagged, _⟩ : winner.tag = m.marker.tag ∧ winner.scope.contains .enumeration = true := by
    simpa [Claim.covers] using covered
  obtain ⟨plugin, known, offered, _⟩ := Registry.mem_claims_ofBuiltins member
  rw [← breaks.kind] at resolved
  rcases capability_cases known offered with ⟨_, _, render, strategy⟩ | ⟨other, _⟩
  · have broken : Enum.generateWith render (requestOf u m winner) = .error (.crash .negationOverflow) :=
      Enum.generateWith_crash_iff.mpr ⟨rfl, breaks.args, breaks.overflow⟩
    refine ⟨winner, Crash.negationOverflow.message, ?_⟩
    have served : (ofBuiltins priorities layout lead strict).resolved m = .ok winner := resolved
    rw [verdict, served]
    simp [Except.map, strategy, broken, Reply.ofResult, Reply.ofOutcome]
  · have wanted := breaks.tag
    rw [← tagged] at wanted
    exact absurd wanted other

theorem fatal?_crash_iff {g : Generator} :
    (∃ attempt message, g.fatal? u m = some (.pluginCrash attempt message)) ↔
      ∃ claim message, g.verdict u m = .ok (claim, .crashed message) := by
  unfold fatal?
  split
  next claim message verdict => simp [verdict]
  next tag verdict => split <;> simp [verdict]
  next other _ =>
    simp only [reduceCtorEq, exists_false, false_iff, not_exists]
    exact other

theorem generate_error_iff {g : Generator} {error : RunError} :
    g.generate u = .error error ↔ ∃ before m after, g.found u = before ++ m :: after ∧ g.fatal? u m = some error ∧
      ∀ other ∈ before, g.fatal? u other = none := by
  rw [generate_result, ← List.findSome?_eq_some_iff]
  cases (g.found u).findSome? (g.fatal? u) <;> simp

theorem declared_of_found {g : Generator} (inside : m ∈ g.found u) : m.declared ∈ u.entries := by
  obtain ⟨declared, listed, marked⟩ := List.mem_flatMap.mp inside
  obtain ⟨_, _, rfl⟩ := List.mem_map.mp marked
  exact listed

end

/-- With the plugins of the program, a unit that was made by appending declarations breaks down
exactly if it comes to an enumeration whose value overflows, and not at all if there is none. -/
theorem generate_crash_iff {u : SourceUnit} (pushed : Pushed u) (priorities : List (Tag × List String))
    (layout : Layout) (lead : String) (strict : Bool) :
    ((∃ attempt message,
        (ofBuiltins priorities layout lead strict).generate u = .error (.pluginCrash attempt message)) ↔
      ∃ before m after, (ofBuiltins priorities layout lead strict).found u = before ++ m :: after ∧ Breaks m ∧
        ∀ other ∈ before, (ofBuiltins priorities layout lead strict).fatal? u other = none) ∧
    ((∀ declared ∈ u.entries, ∀ listed, Enum.enumerators declared.decl = .ok listed →
        ∀ e ∈ listed, ¬ Enum.Overflows e) →
      ∀ attempt message,
        (ofBuiltins priorities layout lead strict).generate u ≠ .error (.pluginCrash attempt message)) := by
  have known : ∀ m ∈ (ofBuiltins priorities layout lead strict).found u, m.declared ∈ u.entries :=
    fun m inside => declared_of_found inside
  have breaks : ∀ m, m.declared ∈ u.entries →
      ((∃ attempt message,
        (ofBuiltins priorities layout lead strict).fatal? u m = some (.pluginCrash attempt message)) ↔ Breaks m) := by
    intro m inside
    rw [fatal?_crash_iff]
    exact ⟨fun ⟨_, _, crashed⟩ => breaks_of_crashed pushed inside crashed, crashed_of_breaks⟩
  generalize ofBuiltins priorities layout lead strict = g at known breaks ⊢
  have ends : (∃ attempt message, g.generate u = .error (.pluginCrash attempt message)) ↔
      ∃ before m after, g.found u = before ++ m :: after ∧ Breaks m ∧ ∀ other ∈ before, g.fatal? u other = none := by
    simp only [generate_error_iff]
    constructor
    · rintro ⟨attempt, message, before, m, after, parts, crashed, earlier⟩
      have broken := (breaks m (known m (by simp [parts]))).mp ⟨attempt, message, crashed⟩
      exact ⟨before, m, after, parts, broken, earlier⟩
    · rintro ⟨before, m, after, parts, broken, earlier⟩
      obtain ⟨attempt, message, crashed⟩ := (breaks m (known m (by simp [parts]))).mpr broken
      exact ⟨attempt, message, before, m, after, parts, crashed, earlier⟩
  refine ⟨ends, fun fits attempt message crashed => ?_⟩
  obtain ⟨before, m, after, parts, broken, _⟩ := ends.mp ⟨attempt, message, crashed⟩
  obtain ⟨listed, found, e, member, overflow⟩ := broken.overflow
  exact fits m.declared (known m (by simp [parts])) listed found e member overflow

/-- A unit with one enumeration, marked for a conversion, that has one enumerator. -/
def lone (value : Option String) : SourceUnit :=
  (SourceUnit.empty ⟨"s"⟩ []).push ⟨.enumeration, "E", "E", [], [], ⟨⟨"s"⟩, 1, 1⟩, ["@enum-to-string()"], [],
    .publicMember, none, [], .enumeration ⟨false, none, [⟨"A", value⟩]⟩⟩

theorem pushed_lone (value : Option String) : Pushed (lone value) := .push _ (.empty _ _) rfl

theorem no_crash_lone :
    Pushed (lone none) ∧ ∀ attempt message,
      (ofBuiltins [] ⟨.perFile, none, "h"⟩ "@" true).generate (lone none) ≠ .error (.pluginCrash attempt message) := by
  refine ⟨pushed_lone none, (generate_crash_iff (pushed_lone none) [] ⟨.perFile, none, "h"⟩ "@" true).2 ?_⟩
  intro declared inside listed found e member overflow
  obtain ⟨text, _, written, _⟩ := overflow
  have bare : (lone none).entries.all fun declared => (Enum.enumerators declared.decl).toOption.all fun listed =>
      listed.all (·.value.isNone) := by
    decide +kernel
  have empty := List.all_eq_true.mp bare declared inside
  simp only [found, Except.toOption, Option.all_some, List.all_eq_true, Option.isNone_iff_eq_none] at empty
  rw [empty e member] at written
  cases written

def leastNegated : String := "--170141183460469231731687303715884105728"

theorem negated_least_word_crashes :
    Pushed (lone leastNegated) ∧ ∃ attempt,
      (ofBuiltins [] ⟨.perFile, none, "h"⟩ "@" true).generate (lone leastNegated) =
        .error (.pluginCrash attempt "attempt to negate with overflow") := by
  have stopped : ((ofBuiltins [] ⟨.perFile, none, "h"⟩ "@" true).found (lone leastNegated)).findSome?
      ((ofBuiltins [] ⟨.perFile, none, "h"⟩ "@" true).fatal? (lone leastNegated)) =
        some (.pluginCrash ⟨"flex_enum_plugin", ⟨"enum-to-string"⟩, "E", ⟨⟨"s"⟩, 1, 1⟩⟩
          "attempt to negate with overflow") := by
    decide +kernel
  refine ⟨pushed_lone _, ⟨"flex_enum_plugin", ⟨"enum-to-string"⟩, "E", ⟨⟨"s"⟩, 1, 1⟩⟩, ?_⟩
  rw [generate_result, stopped]

end Generator

end MarkerGen
