import Mathlib.Data.List.Perm.Basic
import MarkerGen.Proofs.Registry.Ambiguity

/-! Plugins that override nothing can be loaded in any order. Whether they are all accepted depends
on a condition on pairs of their capabilities that is the same from both sides, and which one serves
a kind depends on the priority list and on the order inside a plugin alone. -/
namespace MarkerGen.Registry

/-- Registers plugins in order, up to the first that is refused. -/
def registerAll (r : Registry) (plugins : List LoadedPlugin) : Except RegistryError Registry :=
  plugins.foldlM register r

/-- A plugin that overrides nothing. -/
def Modest (loaded : LoadedPlugin) : Prop := ∀ capability ∈ loaded.plugin.capabilities, capability.overrides = false

/-- Where two capabilities meet on a kind of a tag, the list of the tag names one of their plugins. -/
def Settled (ids : Tag → List String) (a b : Plugin × Capability) : Prop :=
  a.2.tag = b.2.tag → a.2.scope.overlaps b.2.scope = true → a.1.id ∈ ids a.2.tag ∨ b.1.id ∈ ids a.2.tag

def offered (plugins : List LoadedPlugin) : List (Plugin × Capability) :=
  plugins.flatMap fun loaded => loaded.plugin.capabilities.map (loaded.plugin, ·)

/-- What plugins that override nothing have to meet to be registered side by side. -/
structure Compatible (ids : Tag → List String) (plugins : List LoadedPlugin) : Prop where
  interface : ∀ loaded ∈ plugins, loaded.plugin.interfaceVersion = Plugin.hostInterface
  distinct : (plugins.map (·.plugin.id)).Nodup
  settled : (offered plugins).Pairwise (Settled ids)

theorem foldlM_cons_ok {α β ε : Type} {step : β → α → Except ε β} {item : α} {items : List α} {start final : β}
    (ok : (item :: items).foldlM step start = .ok final) :
    ∃ middle, step start item = .ok middle ∧ items.foldlM step middle = .ok final := by
  rw [List.foldlM_cons] at ok
  cases first : step start item with
  | error error =>
    rw [first] at ok
    cases ok
  | ok middle =>
    rw [first] at ok
    exact ⟨middle, rfl, ok⟩

theorem overlaps_iff (a b : Scope) : a.overlaps b = true ↔ ∃ kind, a.contains kind = true ∧ b.contains kind = true := by
  constructor
  · intro overlap
    have some : ∃ kind, (a.intersection b).contains kind = true := by
      cases common : a.intersection b with
      | any => exact ⟨default, rfl⟩
      | only kinds =>
        obtain ⟨kind, member⟩ : ∃ kind, kind ∈ kinds.members :=
          List.exists_mem_of_ne_nil _ (by simpa [Scope.overlaps, common, Scope.isEmpty] using overlap)
        exact ⟨kind, by simpa [Scope.contains] using member⟩
    simpa using some
  · rintro ⟨kind, first, second⟩
    exact overlaps_of_contains first second

theorem Settled.symm {ids : Tag → List String} {a b : Plugin × Capability} (settled : Settled ids a b) :
    Settled ids b a := by
  intro tagged overlap
  rw [overlaps_iff] at overlap
  obtain ⟨kind, first, second⟩ := overlap
  rw [tagged]
  exact (settled tagged.symm (overlaps_of_contains second first)).symm

theorem Compatible.perm {ids : Tag → List String} {plugins others : List LoadedPlugin} (permuted : plugins.Perm others)
    (compatible : Compatible ids plugins) : Compatible ids others where
  interface loaded member := compatible.interface loaded (permuted.mem_iff.mpr member)
  distinct := (permuted.map _).nodup_iff.mp compatible.distinct
  settled := ((permuted.flatMap_right _).pairwise_iff Settled.symm).mp compatible.settled

theorem Compatible.left {ids : Tag → List String} {plugins others : List LoadedPlugin}
    (compatible : Compatible ids (plugins ++ others)) : Compatible ids plugins where
  interface loaded member := compatible.interface loaded (List.mem_append_left _ member)
  distinct := by
    have distinct := compatible.distinct
    rw [List.map_append] at distinct
    exact distinct.of_append_left
  settled := by
    have settled := compatible.settled
    rw [offered, List.flatMap_append, List.pairwise_append] at settled
    exact settled.1

/-- The claims of a registry in which nothing was overridden. -/
structure Whole (claims : List Claim) (pairs : List (Plugin × Capability)) : Prop where
  pairs : claims.map (fun claim => (claim.plugin, claim.capability)) = pairs
  scopes : ∀ claim ∈ claims, claim.scope = claim.capability.scope

theorem Whole.append {claims : List Claim} {pairs : List (Plugin × Capability)} (whole : Whole claims pairs)
    (plugin : Plugin) (position : Nat) (capability : Capability) :
    Whole (claims ++ [⟨plugin, position, capability, capability.scope⟩]) (pairs ++ [(plugin, capability)]) where
  pairs := by rw [List.map_append, whole.pairs, List.map_singleton]
  scopes claim member := by
    rcases List.mem_append.mp member with earlier | new
    · exact whole.scopes claim earlier
    · rw [List.mem_singleton.mp new]

section
variable {r : Registry} {plugin : Plugin} {position : Nat} {claims : List Claim} {pairs : List (Plugin × Capability)}

theorem conflicts_eq_false_iff {capability : Capability} {claim : Claim}
    (scope : claim.scope = claim.capability.scope) :
    r.conflicts plugin capability claim = false ↔
      Settled r.priorityOf (claim.plugin, claim.capability) (plugin, capability) := by
  rw [conflicts, scope, ← Bool.not_eq_true, Bool.and_eq_true, Bool.and_eq_true, beq_iff_eq, Bool.not_eq_true',
    ← Bool.not_eq_true, priorityDecides_iff]
  constructor
  · intro free tagged overlap
    rw [show claim.capability.tag = capability.tag from tagged]
    by_contra undecided
    exact free ⟨⟨tagged, overlap⟩, undecided⟩
  · rintro settled ⟨⟨tagged, overlap⟩, undecided⟩
    have listed := settled tagged overlap
    rw [show claim.capability.tag = capability.tag from tagged] at listed
    exact undecided listed

theorem addClaim_iff {capability : Capability} {next : List Claim} (modest : capability.overrides = false)
    (whole : Whole claims pairs) :
    r.addClaim plugin position claims capability = .ok next ↔
      (∀ pair ∈ pairs, Settled r.priorityOf pair (plugin, capability)) ∧
        next = claims ++ [⟨plugin, position, capability, capability.scope⟩] := by
  have free : (∀ pair ∈ pairs, Settled r.priorityOf pair (plugin, capability)) ↔
      claims.find? (r.conflicts plugin capability) = none := by
    rw [← whole.pairs, List.find?_eq_none, List.forall_mem_map]
    refine forall₂_congr fun claim member => ?_
    rw [← conflicts_eq_false_iff (whole.scopes claim member), Bool.not_eq_true]
  rw [free, addClaim, if_neg (by simp [modest])]
  cases claims.find? (r.conflicts plugin capability) with
  | some other => simp
  | none => simp [eq_comm]

theorem addClaims_ok_iff {capabilities : List Capability}
    (modest : ∀ capability ∈ capabilities, capability.overrides = false) (whole : Whole claims pairs)
    (settled : pairs.Pairwise (Settled r.priorityOf)) :
    (∃ next, capabilities.foldlM (r.addClaim plugin position) claims = .ok next) ↔
      (pairs ++ capabilities.map (plugin, ·)).Pairwise (Settled r.priorityOf) := by
  induction capabilities generalizing claims pairs with
  | nil => simpa [pure, Except.pure] using settled
  | cons capability rest ih =>
    have own : capability.overrides = false := modest capability List.mem_cons_self
    rw [List.map_cons, List.append_cons]
    by_cases free : ∀ pair ∈ pairs, Settled r.priorityOf pair (plugin, capability)
    · rw [List.foldlM_cons, (addClaim_iff own whole).mpr ⟨free, rfl⟩]
      refine ih (fun c member => modest c (List.mem_cons_of_mem _ member)) (whole.append plugin position capability) ?_
      rw [List.pairwise_append]
      exact ⟨settled, List.pairwise_singleton _ _, by simpa using free⟩
    · constructor
      · rintro ⟨next, ok⟩
        obtain ⟨middle, step, _⟩ := foldlM_cons_ok ok
        exact absurd ((addClaim_iff own whole).mp step).1 free
      · intro all
        rw [List.pairwise_append, List.pairwise_append] at all
        exact absurd (by simpa using all.1.2.2) free

theorem addClaims_whole {capabilities : List Capability} {next : List Claim}
    (modest : ∀ capability ∈ capabilities, capability.overrides = false) (whole : Whole claims pairs)
    (ok : capabilities.foldlM (r.addClaim plugin position) claims = .ok next) :
    Whole next (pairs ++ capabilities.map (plugin, ·)) := by
  induction capabilities generalizing claims pairs with
  | nil =>
    cases ok
    simpa using whole
  | cons capability rest ih =>
    obtain ⟨middle, step, later⟩ := foldlM_cons_ok ok
    obtain ⟨_, rfl⟩ := (addClaim_iff (modest capability List.mem_cons_self) whole).mp step
    rw [List.map_cons, List.append_cons]
    exact ih (fun c member => modest c (List.mem_cons_of_mem _ member)) (whole.append plugin position capability) later

end

theorem interface_of_register {r next : Registry} {loaded : LoadedPlugin} (ok : r.register loaded = .ok next) :
    loaded.plugin.interfaceVersion = Plugin.hostInterface := by
  by_contra foreign
  simp only [register, ne_eq, foreign, not_false_eq_true, if_true] at ok
  cases ok

theorem register_ok_iff {r : Registry} {loaded : LoadedPlugin} (modest : Modest loaded)
    (whole : Whole r.claims (offered r.plugins)) (compatible : Compatible r.priorityOf r.plugins) :
    (∃ next, r.register loaded = .ok next) ↔ Compatible r.priorityOf (r.plugins ++ [loaded]) := by
  have pairs : offered r.plugins ++ loaded.plugin.capabilities.map (loaded.plugin, ·) =
      offered (r.plugins ++ [loaded]) := by
    simp [offered]
  have added : (∃ claims, loaded.plugin.capabilities.foldlM (r.addClaim loaded.plugin r.plugins.length) r.claims =
      .ok claims) ↔ (offered (r.plugins ++ [loaded])).Pairwise (Settled r.priorityOf) :=
    pairs ▸ addClaims_ok_iff modest whole compatible.settled
  constructor
  · rintro ⟨next, ok⟩
    have fresh := fresh_of_register ok
    have speaks := interface_of_register ok
    obtain ⟨claims, folded, _⟩ := register_ok ok
    refine ⟨?_, ?_, added.mp ⟨claims, folded⟩⟩
    · intro other member
      rcases List.mem_append.mp member with earlier | new
      · exact compatible.interface other earlier
      · rw [List.mem_singleton.mp new]
        exact speaks
    · rw [List.map_append, List.map_singleton]
      exact compatible.distinct.append (List.nodup_singleton _) (by simpa using fresh)
  · intro extended
    obtain ⟨claims, folded⟩ := added.mpr extended.settled
    have speaks := extended.interface loaded (by simp)
    have fresh : loaded.plugin.id ∉ r.plugins.map (·.plugin.id) := by
      have distinct := extended.distinct
      rw [List.map_append, List.map_singleton] at distinct
      exact fun known => List.disjoint_of_nodup_append distinct known (List.mem_singleton_self _)
    have unknown : (r.plugin? loaded.plugin.id).isSome = false := by simpa [plugin?] using fresh
    exact ⟨{ r with claims, plugins := r.plugins ++ [loaded] }, by simp [register, speaks, unknown, folded, Except.map]⟩

/-- Plugins that override nothing are all taken in if together with the registered ones they are
compatible. -/
theorem registerAll_ok_iff {plugins : List LoadedPlugin} (modest : ∀ loaded ∈ plugins, Modest loaded) {r : Registry}
    (whole : Whole r.claims (offered r.plugins)) (compatible : Compatible r.priorityOf r.plugins) :
    (∃ next, registerAll r plugins = .ok next) ↔ Compatible r.priorityOf (r.plugins ++ plugins) := by
  induction plugins generalizing r with
  | nil => simpa [registerAll, pure, Except.pure] using compatible
  | cons loaded rest ih =>
    have own : Modest loaded := modest loaded List.mem_cons_self
    have step := register_ok_iff own whole compatible
    rw [List.append_cons]
    by_cases taken : ∃ middle, r.register loaded = .ok middle
    · have stays := step.mp taken
      obtain ⟨middle, result⟩ := taken
      rw [registerAll, List.foldlM_cons, result]
      obtain ⟨claims, folded, rfl⟩ := register_ok result
      refine ih (fun other member => modest other (List.mem_cons_of_mem _ member)) ?_ stays
      simpa [offered] using addClaims_whole own whole folded
    · constructor
      · rintro ⟨next, ok⟩
        obtain ⟨middle, result, _⟩ := foldlM_cons_ok ok
        exact absurd ⟨middle, result⟩ taken
      · exact fun extended => absurd (step.mpr extended.left) taken

theorem registerAll_of_ok {plugins : List LoadedPlugin} {r next : Registry} (ok : registerAll r plugins = .ok next) :
    next = plugins.foldl attempt r ∧ next.plugins = r.plugins ++ plugins := by
  induction plugins generalizing r with
  | nil =>
    cases ok
    simp
  | cons loaded rest ih =>
    obtain ⟨middle, step, later⟩ := foldlM_cons_ok ok
    obtain ⟨rfl, loadedAll⟩ := ih later
    obtain ⟨claims, _, rfl⟩ := register_ok step
    exact ⟨by simp [attempt, step], by simp [loadedAll]⟩

theorem mem_offers_iff {r : Registry} {o : Offer} :
    o ∈ r.offers ↔ ∃ loaded, r.plugins[o.position]? = some loaded ∧ loaded.plugin = o.plugin ∧
      o.plugin.capabilities[o.index]? = some o.capability := by
  constructor
  · intro member
    obtain ⟨⟨loaded, position⟩, numbered, inside⟩ := List.mem_flatMap.mp member
    obtain ⟨⟨capability, index⟩, listed, rfl⟩ := List.mem_map.mp inside
    exact ⟨loaded, List.mem_zipIdx_iff_getElem?.mp numbered, rfl, List.mem_zipIdx_iff_getElem?.mp listed⟩
  · rintro ⟨loaded, numbered, same, listed⟩
    refine List.mem_flatMap.mpr ⟨(loaded, o.position), List.mem_zipIdx_iff_getElem?.mpr numbered, ?_⟩
    change o ∈ offersFrom loaded.plugin o.position 0 loaded.plugin.capabilities
    rw [same]
    exact List.mem_map.mpr ⟨(o.capability, o.index), List.mem_zipIdx_iff_getElem?.mpr listed, rfl⟩

theorem offer_anywhere {r s : Registry} (permuted : r.plugins.Perm s.plugins) {o : Offer} (member : o ∈ r.offers) :
    ∃ position, { o with position } ∈ s.offers := by
  obtain ⟨loaded, numbered, same, listed⟩ := mem_offers_iff.mp member
  obtain ⟨position, found⟩ := List.mem_iff_getElem?.mp (permuted.subset (List.mem_of_getElem? numbered))
  exact ⟨position, mem_offers_iff.mpr ⟨loaded, found, same, listed⟩⟩

/-- What is known of a registry of plugins that override nothing, by how it was built. -/
structure Orderly (ids : Tag → List String) (r : Registry) : Prop where
  modest : ∀ loaded ∈ r.plugins, Modest loaded
  ranked : r.priorityOf = ids
  agrees : Agrees r.claims r.offers
  distinct : (r.plugins.map (·.plugin.id)).Nodup
  decided : Decided ids r.claims

section
variable {r s : Registry} {ids : Tag → List String} {tag : Tag} {kind : Kind}

theorem Orderly.live_of_covers (orderly : Orderly ids r) {o : Offer} (member : o ∈ r.offers)
    (covered : o.covers tag kind = true) : r.Live tag kind o := by
  refine ⟨member, covered, fun later inside _ overrides => ?_⟩
  obtain ⟨loaded, numbered, same, listed⟩ := mem_offers_iff.mp inside
  have modest := orderly.modest loaded (List.mem_of_getElem? numbered) later.capability
    (same ▸ List.mem_of_getElem? listed)
  rw [modest] at overrides
  cases overrides

theorem candidate_of_live (agrees : Agrees r.claims r.offers) {o : Offer} (live : r.Live tag kind o) :
    ∃ c ∈ r.candidates tag kind, c.plugin = o.plugin ∧ c.position = o.position := by
  have core : o.core ∈ (r.candidates tag kind).map Claim.core := by
    rw [candidates, agrees.standing]
    exact List.mem_map_of_mem (mem_standing_iff.mpr live)
  obtain ⟨c, inside, same⟩ := List.mem_map.mp core
  exact ⟨c, inside, congrArg (·.1) same, congrArg (·.2.1) same⟩

/-- Live offers that the list of the tag does not tell apart are those of one plugin. -/
theorem Orderly.position_eq (orderly : Orderly ids r) {a b : Offer} (liveA : r.Live tag kind a)
    (liveB : r.Live tag kind b) (level : (ids tag).idxOf a.plugin.id = (ids tag).idxOf b.plugin.id) :
    a.position = b.position := by
  obtain ⟨first, inFirst, pluginA, positionA⟩ := candidate_of_live orderly.agrees liveA
  obtain ⟨second, inSecond, pluginB, positionB⟩ := candidate_of_live orderly.agrees liveB
  rw [← pluginA, ← pluginB] at level
  rw [← positionA, ← positionB]
  by_contra apart
  obtain ⟨claimedA, coversA⟩ := List.mem_filter.mp inFirst
  obtain ⟨claimedB, coversB⟩ := List.mem_filter.mp inSecond
  have named : first.plugin.id = second.plugin.id := by
    rcases orderly.decided first claimedA second claimedB apart tag kind coversA coversB with listed | listed
    · exact (List.idxOf_inj listed).mp level
    · exact ((List.idxOf_inj listed).mp level.symm).symm
  exact candidate_ids_ne orderly.agrees orderly.distinct inFirst inSecond apart named

theorem Orderly.listed_le (orderly : Orderly ids s) (permuted : r.plugins.Perm s.plugins) {a b : Offer}
    (live : r.Live tag kind a) (least : ∀ other, s.Live tag kind other → place (ids tag) b ≤ place (ids tag) other) :
    (ids tag).idxOf b.plugin.id ≤ (ids tag).idxOf a.plugin.id := by
  obtain ⟨position, twin⟩ := offer_anywhere permuted live.1
  have order := least _ (orderly.live_of_covers twin live.2.1)
  rw [place, place, Prod.Lex.toLex_le_toLex] at order
  rw [List.idxOf, List.idxOf]
  rcases order with less | ⟨same, _⟩
  · exact le_of_lt less
  · exact le_of_eq same

theorem Orderly.least_eq (orderly : Orderly ids s) (permuted : r.plugins.Perm s.plugins) {a b : Offer}
    (liveA : r.Live tag kind a) (liveB : s.Live tag kind b)
    (least : ∀ other, s.Live tag kind other → place (ids tag) b ≤ place (ids tag) other)
    (level : (ids tag).idxOf a.plugin.id = (ids tag).idxOf b.plugin.id) : a.plugin = b.plugin ∧ b.index ≤ a.index := by
  obtain ⟨position, twin⟩ := offer_anywhere permuted liveA.1
  have liveTwin := orderly.live_of_covers twin liveA.2.1
  have positions : b.position = position := orderly.position_eq liveB liveTwin level.symm
  obtain ⟨first, atA, pluginA, _⟩ := mem_offers_iff.mp twin
  obtain ⟨second, atB, pluginB, _⟩ := mem_offers_iff.mp liveB.1
  have one : first = second := Option.some.inj (atA.symm.trans (positions ▸ atB))
  have order := least _ liveTwin
  have plugins : a.plugin = b.plugin := by rw [← pluginB, ← one, pluginA]
  refine ⟨plugins, ?_⟩
  simpa [place, Prod.Lex.toLex_le_toLex, positions, plugins] using order

theorem Orderly.same_offer (first : Orderly ids r) (second : Orderly ids s) (permuted : r.plugins.Perm s.plugins)
    {a b : Offer} (liveA : r.Live tag kind a) (liveB : s.Live tag kind b)
    (leastA : ∀ other, r.Live tag kind other → place (ids tag) a ≤ place (ids tag) other)
    (leastB : ∀ other, s.Live tag kind other → place (ids tag) b ≤ place (ids tag) other) :
    a.plugin = b.plugin ∧ a.capability = b.capability := by
  have level : (ids tag).idxOf a.plugin.id = (ids tag).idxOf b.plugin.id :=
    le_antisymm (first.listed_le permuted.symm liveB leastA) (second.listed_le permuted liveA leastB)
  obtain ⟨plugins, below⟩ := second.least_eq permuted liveA liveB leastB level
  obtain ⟨_, above⟩ := first.least_eq permuted.symm liveB liveA leastA level.symm
  obtain ⟨_, _, _, listedA⟩ := mem_offers_iff.mp liveA.1
  obtain ⟨_, _, _, listedB⟩ := mem_offers_iff.mp liveB.1
  rw [plugins, le_antisymm above below, listedB] at listedA
  exact ⟨plugins, (Option.some.inj listedA).symm⟩

theorem exists_offer_iff (permuted : r.plugins.Perm s.plugins) (wanted : Capability → Prop) :
    (∃ o ∈ r.offers, wanted o.capability) ↔ ∃ o ∈ s.offers, wanted o.capability := by
  constructor
  · rintro ⟨o, member, meets⟩
    obtain ⟨position, twin⟩ := offer_anywhere permuted member
    exact ⟨_, twin, meets⟩
  · rintro ⟨o, member, meets⟩
    obtain ⟨position, twin⟩ := offer_anywhere permuted.symm member
    exact ⟨_, twin, meets⟩

theorem Orderly.resolveFor_eq (first : Orderly ids r) (second : Orderly ids s) (permuted : r.plugins.Perm s.plugins)
    (tag : Tag) (kind : Kind) :
    (r.resolveFor tag kind).map (fun claim => (claim.plugin, claim.capability)) =
      (s.resolveFor tag kind).map fun claim => (claim.plugin, claim.capability) := by
  have tags : (∃ o ∈ r.offers, o.tag = tag) ↔ ∃ o ∈ s.offers, o.tag = tag :=
    exists_offer_iff permuted fun capability => capability.tag = tag
  have kinds : (∃ o ∈ r.offers, o.covers tag kind = true) ↔ ∃ o ∈ s.offers, o.covers tag kind = true :=
    exists_offer_iff permuted fun capability => (capability.tag == tag && capability.scope.contains kind) = true
  have ending := resolveFor_cases second.agrees tag kind
  rw [← tags, ← kinds] at ending
  rcases resolveFor_cases first.agrees tag kind with
    ⟨absent, resultA⟩ | ⟨tagged, missing, resultA⟩ | ⟨served, winnerA, foundA, resultA⟩
  · rcases ending with ⟨_, resultB⟩ | ⟨tagged, _⟩ | ⟨served, _⟩
    · rw [resultA, resultB]
    · exact absurd tagged absent
    · exact absurd (tagged_of_covered served) absent
  · rcases ending with ⟨absent, _⟩ | ⟨_, _, resultB⟩ | ⟨served, _⟩
    · exact absurd tagged absent
    · rw [resultA, resultB]
    · exact absurd served missing
  · rcases ending with ⟨absent, _⟩ | ⟨_, missing, _⟩ | ⟨_, winnerB, foundB, resultB⟩
    · exact absurd (tagged_of_covered served) absent
    · exact absurd served missing
    · obtain ⟨a, coreA, liveA, leastA⟩ := best_standing_least first.agrees (congrFun first.ranked tag) foundA
      obtain ⟨b, coreB, liveB, leastB⟩ := best_standing_least second.agrees (congrFun second.ranked tag) foundB
      obtain ⟨plugins, capabilities⟩ := first.same_offer second permuted liveA liveB leastA leastB
      rw [resultA, resultB]
      change Except.ok (winnerA.core.1, winnerA.core.2.2) = .ok (winnerB.core.1, winnerB.core.2.2)
      rw [coreA, coreB]
      exact congrArg Except.ok (Prod.ext plugins capabilities)

end

section
variable (priorities : List (Tag × List String)) {plugins : List LoadedPlugin}

theorem registerAll_compatible (modest : ∀ loaded ∈ plugins, Modest loaded) :
    (∃ r, registerAll (withPriorities priorities) plugins = .ok r) ↔ Compatible (ranking priorities) plugins := by
  obtain ⟨noPlugins, noClaims⟩ := withPriorities_empty priorities
  have ranked : (withPriorities priorities).priorityOf = ranking priorities :=
    funext (priorityOf_withPriorities priorities)
  have start := registerAll_ok_iff (r := withPriorities priorities) modest
  rw [noPlugins, noClaims, ranked, List.nil_append] at start
  exact start ⟨rfl, by simp⟩ ⟨by simp, List.nodup_nil, List.Pairwise.nil⟩

theorem orderly_registerAll (modest : ∀ loaded ∈ plugins, Modest loaded) {r : Registry}
    (ok : registerAll (withPriorities priorities) plugins = .ok r) :
    Orderly (ranking priorities) r ∧ r.plugins = plugins := by
  obtain ⟨result, taken⟩ := registerAll_of_ok ok
  rw [(withPriorities_empty priorities).1, List.nil_append] at taken
  have isBuilt : r = built priorities plugins := result
  refine ⟨⟨taken ▸ modest, ?_, ?_, ?_, ?_⟩, taken⟩ <;> rw [isBuilt]
  · exact funext (priorityOf_built priorities plugins)
  · exact agrees_built priorities plugins
  · exact ids_built priorities plugins
  · exact decided_built priorities plugins

end

/-- Plugins that override nothing are accepted in one order if they are in another, and then every
tag and kind is served by the same capability of the same plugin, or refused for the same reason. -/
theorem registerAll_any_order (priorities : List (Tag × List String)) {plugins others : List LoadedPlugin}
    (permuted : plugins.Perm others) (modest : ∀ loaded ∈ plugins, Modest loaded) :
    ((∃ r, registerAll (withPriorities priorities) plugins = .ok r) ↔
      ∃ s, registerAll (withPriorities priorities) others = .ok s) ∧
    ∀ r s, registerAll (withPriorities priorities) plugins = .ok r →
      registerAll (withPriorities priorities) others = .ok s → ∀ tag kind,
        (r.resolveFor tag kind).map (fun claim => (claim.plugin, claim.capability)) =
          (s.resolveFor tag kind).map fun claim => (claim.plugin, claim.capability) := by
  have modestOthers : ∀ loaded ∈ others, Modest loaded :=
    fun loaded member => modest loaded (permuted.mem_iff.mpr member)
  constructor
  · rw [registerAll_compatible priorities modest, registerAll_compatible priorities modestOthers]
    exact ⟨Compatible.perm permuted, Compatible.perm permuted.symm⟩
  · intro r s okR okS tag kind
    obtain ⟨first, pluginsR⟩ := orderly_registerAll priorities modest okR
    obtain ⟨second, pluginsS⟩ := orderly_registerAll priorities modestOthers okS
    exact first.resolveFor_eq second (pluginsR ▸ pluginsS ▸ permuted) tag kind

def oneTag (id : String) : LoadedPlugin :=
  ⟨Plugin.builtin id "" "" [Plugin.offer "x" [.classType] fun _ => .ofOutcome (.generated [])], .builtin⟩

theorem registerAll_ranked_pair :
    ∃ r s, registerAll (withPriorities [(⟨"x"⟩, ["b"])]) [oneTag "a", oneTag "b"] = .ok r ∧
      registerAll (withPriorities [(⟨"x"⟩, ["b"])]) [oneTag "b", oneTag "a"] = .ok s ∧
      (r.resolveFor ⟨"x"⟩ .classType).map (fun claim => (claim.plugin, claim.capability)) =
        (s.resolveFor ⟨"x"⟩ .classType).map fun claim => (claim.plugin, claim.capability) := by
  have general := registerAll_any_order [(⟨"x"⟩, ["b"])] (List.Perm.swap (oneTag "b") (oneTag "a") [])
    (by simp [Modest, oneTag, Plugin.builtin, Plugin.offer])
  obtain ⟨r, okR⟩ : ∃ r, registerAll (withPriorities [(⟨"x"⟩, ["b"])]) [oneTag "a", oneTag "b"] = .ok r := ⟨_, rfl⟩
  obtain ⟨s, okS⟩ := general.1.mp ⟨r, okR⟩
  exact ⟨r, s, okR, okS, general.2 r s okR okS _ _⟩

end MarkerGen.Registry
