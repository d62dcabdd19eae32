import Mathlib.Data.Set.Finite.Basic
import MarkerGen.Program
import MarkerGen.Proofs.Registry.LoadOrder

/-! The registry of a run as a function of the priorities in its configuration. Of each list only
the order in which it ranks ids counts, and of several entries for one tag only the last. So the
order of the entries matters wherever two keys stand for one tag and their lists rank differently. -/
namespace MarkerGen

namespace Registry

/-- Two lists rank ids alike. An id that is not listed ranks after all that are. -/
def SameRanking (ids others : List String) : Prop :=
  ∀ a b, ids.idxOf a < ids.idxOf b ↔ others.idxOf a < others.idxOf b

/-- The same registrations under other priorities. -/
def underPriorities (r : Registry) (priority : List (Tag × List String)) : Registry := { r with priority }

theorem mem_iff_idxOf_lt {ids : List String} {a b : String} (unlisted : b ∉ ids) :
    a ∈ ids ↔ ids.idxOf a < ids.idxOf b := by
  rw [List.idxOf_eq_length unlisted, List.idxOf_lt_length_iff]

theorem SameRanking.mem_iff {ids others : List String} (alike : SameRanking ids others) (id : String) :
    id ∈ ids ↔ id ∈ others := by
  obtain ⟨fresh, unlisted⟩ := Infinite.exists_notMem_finset (ids ++ others).toFinset
  rw [List.mem_toFinset, List.mem_append, not_or] at unlisted
  rw [mem_iff_idxOf_lt unlisted.1, mem_iff_idxOf_lt unlisted.2, alike id fresh]

theorem SameRanking.idxOf_eq_iff {ids others : List String} (alike : SameRanking ids others) (a b : String) :
    ids.idxOf a = ids.idxOf b ↔ others.idxOf a = others.idxOf b := by
  have below := alike a b
  have above := alike b a
  omega

section
variable {r : Registry} {priority : List (Tag × List String)}
  (alike : ∀ tag, SameRanking (r.priorityOf tag) ((r.underPriorities priority).priorityOf tag))
include alike

theorem conflicts_underPriorities (plugin : Plugin) (capability : Capability) :
    (r.underPriorities priority).conflicts plugin capability = r.conflicts plugin capability := by
  have decides : ∀ first second, (r.underPriorities priority).priorityDecides capability.tag first second =
      r.priorityDecides capability.tag first second := by
    intro first second
    rw [Bool.eq_iff_iff, priorityDecides_iff, priorityDecides_iff, (alike _).mem_iff, (alike _).mem_iff]
  funext claim
  rw [conflicts, conflicts, decides]

theorem register_underPriorities (loaded : LoadedPlugin) :
    (r.underPriorities priority).register loaded = (r.register loaded).map (·.underPriorities priority) := by
  have step : (r.underPriorities priority).addClaim loaded.plugin r.plugins.length =
      r.addClaim loaded.plugin r.plugins.length := by
    funext claims capability
    rw [addClaim, addClaim, conflicts_underPriorities alike]
  have claims : loaded.plugin.capabilities.foldlM ((r.underPriorities priority).addClaim loaded.plugin
      (r.underPriorities priority).plugins.length) (r.underPriorities priority).claims =
      loaded.plugin.capabilities.foldlM (r.addClaim loaded.plugin r.plugins.length) r.claims := by
    rw [← step]
    rfl
  have known : (r.underPriorities priority).plugin? loaded.plugin.id = r.plugin? loaded.plugin.id := rfl
  rw [register, register, claims, known]
  split
  · rfl
  · split
    · rfl
    · cases loaded.plugin.capabilities.foldlM (r.addClaim loaded.plugin r.plugins.length) r.claims <;> rfl

theorem rankLt_underPriorities {a b : Claim} (same : a.tag = b.tag) :
    rankLt ((r.underPriorities priority).rank a) ((r.underPriorities priority).rank b) =
      rankLt (r.rank a) (r.rank b) := by
  rw [Bool.eq_iff_iff, rankLt_iff, rankLt_iff, Prod.Lex.toLex_lt_toLex, Prod.Lex.toLex_lt_toLex]
  simp only [rank, same]
  change (List.idxOf _ _ < List.idxOf _ _ ∨ List.idxOf _ _ = List.idxOf _ _ ∧ _) ↔
    (List.idxOf _ _ < List.idxOf _ _ ∨ List.idxOf _ _ = List.idxOf _ _ ∧ _)
  rw [alike b.tag, (alike b.tag).idxOf_eq_iff]

theorem best_underPriorities {tag : Tag} {claims : List Claim} (tagged : ∀ claim ∈ claims, claim.tag = tag) :
    (r.underPriorities priority).best claims = r.best claims := by
  induction claims with
  | nil => rfl
  | cons claim rest ih =>
    rw [List.forall_mem_cons] at tagged
    rw [best, best, ih tagged.2]
    cases winner : r.best rest with
    | none => rfl
    | some other =>
      have same : other.tag = claim.tag := (tagged.2 other (best_least winner).1).trans tagged.1.symm
      dsimp only
      rw [rankLt_underPriorities alike same]

theorem resolveFor_underPriorities : (r.underPriorities priority).resolveFor = r.resolveFor := by
  funext tag kind
  have tagged : ∀ claim ∈ (r.claimsOf tag).filter (·.scope.contains kind), claim.tag = tag := by
    intro claim member
    simpa using (List.mem_filter.mp (List.mem_filter.mp member).1).2
  rw [resolveFor, resolveFor, ← best_underPriorities alike tagged]
  rfl

end

theorem withPriorities_eq (priorities : List (Tag × List String)) :
    withPriorities priorities = empty.underPriorities (withPriorities priorities).priority := by
  induction priorities using List.reverseRecOn with
  | nil => rfl
  | append_singleton before entry ih =>
    rw [withPriorities, List.foldl_append, List.foldl_cons, List.foldl_nil]
    change setPriority (withPriorities before) entry.1 entry.2 = _
    rw [ih]
    rfl

theorem withPriorities_eq_underPriorities (priorities others : List (Tag × List String)) :
    withPriorities priorities = (withPriorities others).underPriorities (withPriorities priorities).priority := by
  rw [withPriorities_eq priorities, withPriorities_eq others]
  rfl

theorem ranking_cases (priorities : List (Tag × List String)) (tag : Tag) :
    ((∀ entry ∈ priorities, entry.1 ≠ tag) ∧ ranking priorities tag = []) ∨
      ∃ entry ∈ priorities, entry.1 = tag ∧ ranking priorities tag = entry.2 := by
  rw [ranking]
  cases last : priorities.reverse.find? (·.1 == tag) with
  | none => exact .inl ⟨by simpa using last, rfl⟩
  | some entry =>
    exact .inr ⟨entry, List.mem_reverse.mp (List.mem_of_find?_eq_some last), by
      simpa using List.find?_some last, rfl⟩

theorem ranking_perm {priorities others : List (Tag × List String)} (permuted : priorities.Perm others)
    (agree : ∀ a ∈ priorities, ∀ b ∈ priorities, a.1 = b.1 → SameRanking a.2 b.2) (tag : Tag) :
    SameRanking (ranking priorities tag) (ranking others tag) := by
  rcases ranking_cases priorities tag with ⟨absent, first⟩ | ⟨a, inA, keyA, first⟩
  · rcases ranking_cases others tag with ⟨_, second⟩ | ⟨b, inB, keyB, _⟩
    · rw [first, second]
      exact fun _ _ => Iff.rfl
    · exact absurd keyB (absent b (permuted.mem_iff.mpr inB))
  · rcases ranking_cases others tag with ⟨absent, _⟩ | ⟨b, inB, keyB, second⟩
    · exact absurd keyA (absent a (permuted.mem_iff.mp inA))
    · rw [first, second]
      exact agree a inA b (permuted.mem_iff.mpr inB) (keyA.trans keyB.symm)

theorem underPriorities_alike {priorities others : List (Tag × List String)}
    (alike : ∀ tag, SameRanking (ranking priorities tag) (ranking others tag)) (tag : Tag) :
    SameRanking ((withPriorities priorities).priorityOf tag)
      (((withPriorities priorities).underPriorities (withPriorities others).priority).priorityOf tag) := by
  have second : ((withPriorities priorities).underPriorities (withPriorities others).priority).priorityOf tag =
      (withPriorities others).priorityOf tag := rfl
  rw [second, priorityOf_withPriorities, priorityOf_withPriorities]
  exact alike tag

/-! ### Two plugins that compete for a tag -/

def wholeTag (tag : Tag) : Capability := ⟨tag, .any, false, fun _ => .ofOutcome (.generated [])⟩

/-- A plugin that offers one tag for all kinds. -/
def claimant (tag : Tag) (id : String) : Plugin := Plugin.builtin id "" "" [wholeTag tag]

def wholeClaim (tag : Tag) (id : String) (position : Nat) : Claim :=
  ⟨claimant tag id, position, wholeTag tag, .any⟩

section
variable {r : Registry} {tag : Tag} {a b : String}

theorem addClaim_rival :
    r.addClaim (claimant tag b) 1 [wholeClaim tag a 0] (wholeTag tag) =
      if r.priorityDecides tag a b then .ok [wholeClaim tag a 0, wholeClaim tag b 1]
      else .error (.duplicateCapability tag .any a b) := by
  have standing : r.conflicts (claimant tag b) (wholeTag tag) (wholeClaim tag a 0) = !r.priorityDecides tag a b := by
    simp [conflicts, wholeClaim, wholeTag, claimant, Plugin.builtin, Claim.tag, Scope.overlaps, Scope.intersection,
      Scope.isEmpty]
  rw [addClaim, if_neg (by simp [wholeTag]), List.find?_cons, standing]
  cases r.priorityDecides tag a b <;> rfl

theorem register_rival (apart : a ≠ b) (first second : PluginSource) (plugins : r.plugins = [⟨claimant tag a, first⟩])
    (claims : r.claims = [wholeClaim tag a 0]) :
    r.register ⟨claimant tag b, second⟩ =
      if r.priorityDecides tag a b then
        .ok { r with plugins := [⟨claimant tag a, first⟩, ⟨claimant tag b, second⟩],
                     claims := [wholeClaim tag a 0, wholeClaim tag b 1] }
      else .error (.duplicateCapability tag .any a b) := by
  have unknown : (r.plugin? (claimant tag b).id).isSome = false := by
    rw [plugin?, plugins]
    simpa [claimant, Plugin.builtin] using apart
  have capabilities : (claimant tag b).capabilities = [wholeTag tag] := rfl
  rw [register, if_neg (by simp [claimant, Plugin.builtin]), if_neg (by simp [unknown]), capabilities, plugins, claims,
    List.foldlM_cons, List.length_singleton, addClaim_rival]
  cases r.priorityDecides tag a b <;> rfl

theorem registerAll_claimants (plugins : r.plugins = []) (claims : r.claims = []) (apart : a ≠ b)
    (first second : PluginSource) :
    registerAll r [⟨claimant tag a, first⟩, ⟨claimant tag b, second⟩] =
      if r.priorityDecides tag a b then
        .ok { r with plugins := [⟨claimant tag a, first⟩, ⟨claimant tag b, second⟩],
                     claims := [wholeClaim tag a 0, wholeClaim tag b 1] }
      else .error (.duplicateCapability tag .any a b) := by
  have taken : r.register ⟨claimant tag a, first⟩ =
      .ok { r with plugins := [⟨claimant tag a, first⟩], claims := [wholeClaim tag a 0] } := by
    cases r
    cases plugins
    cases claims
    rfl
  simp only [registerAll, List.foldlM_cons, List.foldlM_nil, bind_pure, taken]
  exact register_rival apart first second rfl rfl

theorem resolveFor_claimants (claims : r.claims = [wholeClaim tag a 0, wholeClaim tag b 1]) (kind : Kind) :
    r.resolveFor tag kind =
      .ok (if (r.priorityOf tag).idxOf b < (r.priorityOf tag).idxOf a then wholeClaim tag b 1
        else wholeClaim tag a 0) := by
  have claimed : r.claimsOf tag = [wholeClaim tag a 0, wholeClaim tag b 1] := by
    simp [claimsOf, claims, wholeClaim, wholeTag, Claim.tag]
  have covering : (r.claimsOf tag).filter (·.scope.contains kind) = [wholeClaim tag a 0, wholeClaim tag b 1] := by
    simp [claimed, wholeClaim, Scope.contains]
  have later : rankLt (r.rank (wholeClaim tag b 1)) (r.rank (wholeClaim tag a 0)) =
      decide ((r.priorityOf tag).idxOf b < (r.priorityOf tag).idxOf a) := by
    simp [rankLt, rank, wholeClaim, wholeTag, claimant, Plugin.builtin, Claim.tag, List.idxOf]
  rw [resolveFor, if_pos (by simp [provides, claimed]), covering]
  by_cases behind : (r.priorityOf tag).idxOf b < (r.priorityOf tag).idxOf a <;> simp [best, later, behind]

/-- Of two plugins for one tag the first serves it, after both are registered, if it ranks before
the other. If neither is listed, the second one is refused. -/
theorem claimant_serves_iff (plugins : r.plugins = []) (claims : r.claims = []) (kind : Kind) (apart : a ≠ b)
    (first second : PluginSource) :
    (∃ next, registerAll r [⟨claimant tag a, first⟩, ⟨claimant tag b, second⟩] = .ok next ∧
      (next.resolveFor tag kind).map (·.plugin.id) = .ok a) ↔
      (r.priorityOf tag).idxOf a < (r.priorityOf tag).idxOf b := by
  rw [registerAll_claimants plugins claims apart]
  by_cases listed : a ∈ r.priorityOf tag ∨ b ∈ r.priorityOf tag
  · have differ : (r.priorityOf tag).idxOf a ≠ (r.priorityOf tag).idxOf b := by
      intro level
      rcases listed with inside | inside
      · exact apart ((List.idxOf_inj inside).mp level)
      · exact apart ((List.idxOf_inj inside).mp level.symm).symm
    rw [if_pos ((priorityDecides_iff r tag a b).mpr listed)]
    simp only [Except.ok.injEq, exists_eq_left']
    rw [resolveFor_claimants rfl]
    change (Except.ok (if (r.priorityOf tag).idxOf b < (r.priorityOf tag).idxOf a then _ else _)).map _ = _ ↔ _
    split
    case isTrue behind =>
      simpa [Except.map, wholeClaim, claimant, Plugin.builtin, apart.symm] using behind.le
    case isFalse before =>
      simpa [Except.map, wholeClaim, claimant, Plugin.builtin] using lt_of_le_of_ne (not_lt.mp before) differ
  · have unlisted : a ∉ r.priorityOf tag := fun inside => listed (.inl inside)
    rw [if_neg (mt (priorityDecides_iff r tag a b).mp listed), List.idxOf_eq_length unlisted]
    simpa using List.idxOf_le_length

end

end Registry

namespace Program

open Registry

/-- A configuration with other priorities. -/
def withPriority (config : Config) (priority : List (String × List String)) : Config :=
  { config with registry := { config.registry with priority } }

/-- What the registry of a run answers once a number of its plugins are registered, or why one of
them is refused. -/
def answersAfter (host : Host) (fs : FileStore) (line : CommandLine) (config : Config) (count : Nat) :
    Except RunError (Tag → Kind → Except RegistryError Claim) :=
  (((choosePlugins host fs line).take count).foldlM addPlugin (prioritized config.registry.priority)).map
    resolveFor

theorem answersAfter_all (host : Host) (fs : FileStore) (line : CommandLine) (config : Config) :
    answersAfter host fs line config (choosePlugins host fs line).length =
      (buildRegistry host fs line config).map resolveFor := by
  rw [answersAfter, List.take_length]
  rfl

/-- The priorities of a configuration by tag. -/
def rankings (config : Config) : List (Tag × List String) :=
  config.registry.priority.map fun (key, ids) => (.ofText key, ids)

theorem answersAfter_eq (host : Host) (fs : FileStore) (line : CommandLine) (config : Config) (count : Nat) :
    answersAfter host fs line config count =
      (((choosePlugins host fs line).take count).foldlM addPlugin (withPriorities (rankings config))).map
        resolveFor := by
  rw [withPriorities, rankings, List.foldl_map]
  rfl

section
variable {r : Registry} {priority : List (Tag × List String)}

theorem addPlugin_underPriorities
    (alike : ∀ tag, SameRanking (r.priorityOf tag) ((r.underPriorities priority).priorityOf tag))
    (loaded : Except LoadError LoadedPlugin) :
    addPlugin (r.underPriorities priority) loaded = (addPlugin r loaded).map (·.underPriorities priority) := by
  cases loaded with
  | error error => rfl
  | ok loaded =>
    rw [addPlugin, addPlugin, register_underPriorities alike]
    cases r.register loaded <;> rfl

theorem priorityOf_addPlugin {next : Registry} {loaded : Except LoadError LoadedPlugin}
    (ok : addPlugin r loaded = .ok next) : next.priorityOf = r.priorityOf := by
  cases loaded with
  | error error => cases ok
  | ok loaded =>
    cases taken : r.register loaded with
    | error error =>
      rw [addPlugin, taken] at ok
      cases ok
    | ok registered =>
      rw [addPlugin, taken] at ok
      cases ok
      obtain ⟨claims, _, rfl⟩ := register_ok taken
      rfl

theorem addPlugins_underPriorities (plugins : List (Except LoadError LoadedPlugin))
    (alike : ∀ tag, SameRanking (r.priorityOf tag) ((r.underPriorities priority).priorityOf tag)) :
    (plugins.foldlM addPlugin (r.underPriorities priority)).map resolveFor =
      (plugins.foldlM addPlugin r).map resolveFor := by
  induction plugins generalizing r with
  | nil => exact congrArg Except.ok (resolveFor_underPriorities alike)
  | cons loaded rest ih =>
    rw [List.foldlM_cons, List.foldlM_cons, addPlugin_underPriorities alike]
    cases step : addPlugin r loaded with
    | error error => rfl
    | ok next =>
      refine ih fun tag => ?_
      rw [priorityOf_addPlugin step]
      exact alike tag

theorem addPlugin_all (plugins : List LoadedPlugin) :
    (plugins.map Except.ok).foldlM addPlugin r = (registerAll r plugins).mapError RegistryError.toRunError := by
  induction plugins generalizing r with
  | nil => rfl
  | cons loaded rest ih =>
    rw [List.map_cons, List.foldlM_cons, registerAll, List.foldlM_cons, addPlugin]
    cases r.register loaded with
    | error error => rfl
    | ok next => exact ih

end

/-- A world in which two files are modules, the one of a first and the other of a second plugin. -/
def rivals (tag : Tag) (a b : String) : Host where
  environment := []
  openModule content := .declared Plugin.hostInterface Plugin.hostVersion
    (claimant tag (if content.size = 0 then a else b))
  grammar _ := .mk ⟨0, "translation_unit", "", 0, 0, true, false, false, false⟩ []

def modules : FileStore := ⟨[], [(["a"], .file ⟨#[]⟩), (["b"], .file ⟨#[0]⟩)]⟩

def bothModules : CommandLine := { CommandLine.empty with plugins := ["/a", "/b"] }

theorem choosePlugins_rivals (tag : Tag) (a b : String) :
    choosePlugins (rivals tag a b) modules bothModules =
      [⟨claimant tag a, .library ⟨"/a"⟩⟩, ⟨claimant tag b, .library ⟨"/b"⟩⟩].map Except.ok := rfl

/-- The first of the two modules serves the tag, with both registered, if its plugin ranks first. -/
theorem rivals_answer_iff (config : Config) (tag : Tag) {a b : String} (apart : a ≠ b) (kind : Kind) :
    (∃ answers, answersAfter (rivals tag a b) modules bothModules config 2 = .ok answers ∧
      (answers tag kind).map (·.plugin.id) = .ok a) ↔
      (ranking (rankings config) tag).idxOf a < (ranking (rankings config) tag).idxOf b := by
  obtain ⟨plugins, claims⟩ := withPriorities_empty (rankings config)
  rw [← priorityOf_withPriorities, ← claimant_serves_iff plugins claims kind apart (.library ⟨"/a"⟩) (.library ⟨"/b"⟩),
    answersAfter_eq, choosePlugins_rivals, ← List.map_take, List.take_succ_cons, List.take_succ_cons, List.take_zero,
    addPlugin_all]
  cases registerAll (withPriorities (rankings config)) _ <;> simp [Except.mapError, Except.map]

theorem answersAfter_perm {config : Config} {priority : List (String × List String)}
    (permuted : config.registry.priority.Perm priority)
    (agree : ∀ a ∈ config.registry.priority, ∀ b ∈ config.registry.priority, Tag.ofText a.1 = Tag.ofText b.1 →
      SameRanking a.2 b.2) (host : Host) (fs : FileStore) (line : CommandLine) (count : Nat) :
    answersAfter host fs line (withPriority config priority) count = answersAfter host fs line config count := by
  have byTag : ∀ a ∈ rankings config, ∀ b ∈ rankings config, a.1 = b.1 → SameRanking a.2 b.2 := by
    simp only [rankings, List.forall_mem_map]
    exact agree
  have alike : ∀ tag, SameRanking (ranking (rankings config) tag)
      (ranking (rankings (withPriority config priority)) tag) := ranking_perm (permuted.map _) byTag
  rw [answersAfter_eq, answersAfter_eq, withPriorities_eq_underPriorities _ (rankings config)]
  exact addPlugins_underPriorities _ (underPriorities_alike alike)

/-- In some order of the priorities a given entry is the one that counts for its tag. -/
theorem exists_order_last {config : Config} {entry : String × List String} (member : entry ∈ config.registry.priority) :
    ∃ priority, config.registry.priority.Perm priority ∧
      ranking (rankings (withPriority config priority)) (.ofText entry.1) = entry.2 := by
  refine ⟨config.registry.priority.erase entry ++ [entry], ?_, ?_⟩
  · exact (List.perm_cons_erase member).trans (List.perm_append_singleton _ _).symm
  · simp [rankings, withPriority, ranking]

/-- The registry of a run is the same for every order of the priorities in its configuration exactly
if keys that stand for one tag have lists that rank alike. -/
theorem answers_any_order_iff (config : Config) :
    (∀ priority, config.registry.priority.Perm priority → ∀ host fs line count,
      answersAfter host fs line (withPriority config priority) count = answersAfter host fs line config count) ↔
    ∀ a ∈ config.registry.priority, ∀ b ∈ config.registry.priority, Tag.ofText a.1 = Tag.ofText b.1 →
      SameRanking a.2 b.2 := by
  constructor
  · intro same a inA b inB tagged x y
    obtain ⟨first, permutedA, lastA⟩ := exists_order_last inA
    obtain ⟨second, permutedB, lastB⟩ := exists_order_last inB
    by_cases equal : x = y
    · rw [equal]
      simp
    · have answerA := rivals_answer_iff (withPriority config first) (.ofText a.1) equal .enumeration
      have answerB := rivals_answer_iff (withPriority config second) (.ofText a.1) equal .enumeration
      rw [same first permutedA, lastA] at answerA
      rw [same second permutedB, tagged, lastB] at answerB
      rw [tagged] at answerA
      exact answerA.symm.trans answerB
  · exact fun agree priority permuted => answersAfter_perm permuted agree

/-- Two keys that are one tag, with a list each: the entry that comes last decides which of two plugins
serves the tag. -/
theorem spellings_visited_in_turn :
    [("x_y", ["p"]), ("x-y", ["q"])].Perm [("x-y", ["q"]), ("x_y", ["p"])] ∧
    (buildRegistry (rivals ⟨"x-y"⟩ "p" "q") modules bothModules
        (withPriority .default [("x_y", ["p"]), ("x-y", ["q"])])).map
      (fun r => (r.resolveFor ⟨"x-y"⟩ .enumeration).map (·.plugin.id)) = .ok (.ok "q") ∧
    (buildRegistry (rivals ⟨"x-y"⟩ "p" "q") modules bothModules
        (withPriority .default [("x-y", ["q"]), ("x_y", ["p"])])).map
      (fun r => (r.resolveFor ⟨"x-y"⟩ .enumeration).map (·.plugin.id)) = .ok (.ok "p") :=
  ⟨List.Perm.swap _ _ [], rfl, rfl⟩

end Program

end MarkerGen
