import Mathlib.Data.List.Nodup
import MarkerGen.Proofs.Registry.Resolution

/-! No two plugins compete for a kind by load order alone. Wherever claims of two plugins meet, the
priority list of the tag names one of the two, so that resolution follows the list. -/
namespace MarkerGen.Registry

/-- The claims that can serve a tag for a kind. -/
def candidates (r : Registry) (tag : Tag) (kind : Kind) : List Claim := r.claims.filter (Claim.covers tag kind)

/-- Where claims of two plugins meet on a kind of a tag, the list of the tag names one of the two. -/
def Decided (ids : Tag → List String) (claims : List Claim) : Prop :=
  ∀ a ∈ claims, ∀ b ∈ claims, a.position ≠ b.position → ∀ tag kind,
    a.covers tag kind = true → b.covers tag kind = true → a.plugin.id ∈ ids tag ∨ b.plugin.id ∈ ids tag

theorem decided_append {ids : Tag → List String} {claims : List Claim} {new : Claim} (decided : Decided ids claims)
    (meets : ∀ a ∈ claims, a.position ≠ new.position → ∀ tag kind, a.covers tag kind = true →
      new.covers tag kind = true → a.plugin.id ∈ ids tag ∨ new.plugin.id ∈ ids tag) :
    Decided ids (claims ++ [new]) := by
  intro a inA b inB apart tag kind coversA coversB
  rw [List.mem_append, List.mem_singleton] at inA inB
  rcases inA with inA | rfl
  · rcases inB with inB | rfl
    · exact decided a inA b inB apart tag kind coversA coversB
    · exact meets a inA apart tag kind coversA coversB
  · rcases inB with inB | rfl
    · exact (meets b inB apart.symm tag kind coversB coversA).symm
    · exact absurd rfl apart

theorem overlaps_of_contains {a b : Scope} {kind : Kind} (first : a.contains kind = true)
    (second : b.contains kind = true) : a.overlaps b = true := by
  cases empty : (a.intersection b).isEmpty with
  | false => simp [Scope.overlaps, empty]
  | true =>
    have none := scope_contains_of_isEmpty empty kind
    simp [first, second] at none

theorem priorityDecides_iff (r : Registry) (tag : Tag) (first second : String) :
    r.priorityDecides tag first second = true ↔ first ∈ r.priorityOf tag ∨ second ∈ r.priorityOf tag := by
  simp only [priorityDecides, List.any_eq_true, Bool.or_eq_true, beq_iff_eq]
  constructor
  · rintro ⟨id, member, rfl | rfl⟩
    · exact .inl member
    · exact .inr member
  · rintro (member | member)
    · exact ⟨first, member, .inl rfl⟩
    · exact ⟨second, member, .inr rfl⟩

/-- What an overriding capability leaves is part of a claim, and of another plugin's claim it leaves
nothing that it covers itself. -/
theorem mem_overridden {position : Nat} {capability : Capability} {claims : List Claim} {left : Claim}
    (member : left ∈ claims.filterMap (overridden position capability)) :
    ∃ claim ∈ claims, left.core = claim.core ∧ ∀ tag kind, left.covers tag kind = true →
      claim.covers tag kind = true ∧
        (claim.position ≠ position → capability.tag = tag → capability.scope.contains kind = false) := by
  obtain ⟨claim, inside, kept⟩ := List.mem_filterMap.mp member
  refine ⟨claim, inside, overridden_core kept, fun tag kind covered => ?_⟩
  have step := overridden_covers position capability claim tag kind
  rw [kept, Option.any_some, covered] at step
  obtain ⟨before, spared⟩ := Bool.and_eq_true_iff.mp step.symm
  refine ⟨before, fun apart same => ?_⟩
  simpa [apart, same] using spared

theorem decided_overridden {ids : Tag → List String} {claims : List Claim} (decided : Decided ids claims)
    (position : Nat) (capability : Capability) :
    Decided ids (claims.filterMap (overridden position capability)) := by
  intro a inA b inB apart tag kind coversA coversB
  obtain ⟨first, inFirst, coreA, partA⟩ := mem_overridden inA
  obtain ⟨second, inSecond, coreB, partB⟩ := mem_overridden inB
  obtain ⟨pluginA, positionA, _⟩ : a.plugin = first.plugin ∧ a.position = first.position ∧ _ := by
    simpa [Claim.core] using coreA
  obtain ⟨pluginB, positionB, _⟩ : b.plugin = second.plugin ∧ b.position = second.position ∧ _ := by
    simpa [Claim.core] using coreB
  rw [positionA, positionB] at apart
  rw [pluginA, pluginB]
  exact decided first inFirst second inSecond apart tag kind (partA tag kind coversA).1 (partB tag kind coversB).1

/-- A claim that overrides nothing is made only if none stands in its way. -/
theorem no_conflict_of_addClaim {r : Registry} {plugin : Plugin} {position : Nat} {claims next : List Claim}
    {capability : Capability} (ok : r.addClaim plugin position claims capability = .ok next)
    (modest : capability.overrides = false) : ∀ a ∈ claims, r.conflicts plugin capability a = false := by
  unfold addClaim at ok
  rw [if_neg (by simp [modest])] at ok
  cases found : claims.find? (r.conflicts plugin capability) with
  | some other =>
    rw [found] at ok
    cases ok
  | none => simpa using found

theorem decided_addClaim {r : Registry} {plugin : Plugin} {position : Nat} {claims next : List Claim}
    {capability : Capability} (decided : Decided r.priorityOf claims)
    (ok : r.addClaim plugin position claims capability = .ok next) : Decided r.priorityOf next := by
  have shape := addClaim_ok ok
  cases overrides : capability.overrides with
  | true =>
    rw [overrides, if_pos rfl] at shape
    rw [shape]
    refine decided_append (decided_overridden decided position capability) ?_
    -- Other plugins keep no kind of the new claim.
    intro a member apart tag kind covered own
    obtain ⟨claim, _, core, spared⟩ := mem_overridden member
    have position_eq : a.position = claim.position := congrArg (fun core => core.2.1) core
    obtain ⟨tagged, contained⟩ : capability.tag = tag ∧ capability.scope.contains kind = true := by
      simpa [Claim.covers, Claim.tag] using own
    have without := (spared tag kind covered).2 (position_eq ▸ apart) tagged
    rw [contained] at without
    cases without
  | false =>
    rw [overrides, if_neg (by simp)] at shape
    rw [shape]
    refine decided_append decided ?_
    intro a member _ tag kind covered own
    have free := no_conflict_of_addClaim ok overrides a member
    obtain ⟨taggedA, containedA⟩ : a.tag = tag ∧ a.scope.contains kind = true := by
      simpa [Claim.covers] using covered
    obtain ⟨tagged, contained⟩ : capability.tag = tag ∧ capability.scope.contains kind = true := by
      simpa [Claim.covers, Claim.tag] using own
    have overlap := overlaps_of_contains containedA contained
    have ranked : r.priorityDecides tag a.plugin.id plugin.id = true := by
      simpa [conflicts, taggedA, tagged, overlap] using free
    exact (priorityDecides_iff r tag _ _).mp ranked

theorem decided_addClaims {r : Registry} {plugin : Plugin} {position : Nat} (capabilities : List Capability)
    {claims next : List Claim} (decided : Decided r.priorityOf claims)
    (ok : capabilities.foldlM (r.addClaim plugin position) claims = .ok next) : Decided r.priorityOf next := by
  induction capabilities generalizing claims with
  | nil =>
    cases ok
    exact decided
  | cons capability rest ih =>
    rw [List.foldlM_cons] at ok
    cases step : r.addClaim plugin position claims capability with
    | error error =>
      rw [step] at ok
      cases ok
    | ok middle =>
      rw [step] at ok
      exact ih (decided_addClaim decided step) ok

theorem decided_built (priorities : List (Tag × List String)) (plugins : List LoadedPlugin) :
    Decided (ranking priorities) (built priorities plugins).claims := by
  have lists : (built priorities plugins).priorityOf = ranking priorities := funext (priorityOf_built priorities plugins)
  rw [← lists]
  apply built_induction priorities plugins (motive := fun r => Decided r.priorityOf r.claims)
  · rw [(withPriorities_empty priorities).2]
    intro a member
    cases member
  · intro r loaded next decided ok
    obtain ⟨claims, folded, rfl⟩ := register_ok ok
    exact decided_addClaims _ decided folded

theorem fresh_of_register {r next : Registry} {loaded : LoadedPlugin} (ok : r.register loaded = .ok next) :
    loaded.plugin.id ∉ r.plugins.map (·.plugin.id) := by
  have unknown : (r.plugin? loaded.plugin.id).isSome = false := by
    cases known : (r.plugin? loaded.plugin.id).isSome with
    | false => rfl
    | true =>
      unfold register at ok
      simp only [known, if_true] at ok
      split at ok <;> cases ok
  simpa [plugin?] using unknown

theorem ids_built (priorities : List (Tag × List String)) (plugins : List LoadedPlugin) :
    ((built priorities plugins).plugins.map (·.plugin.id)).Nodup := by
  apply built_induction priorities plugins (motive := fun r => (r.plugins.map (·.plugin.id)).Nodup)
  · rw [(withPriorities_empty priorities).1]
    exact List.nodup_nil
  · intro r loaded next distinct ok
    have fresh := fresh_of_register ok
    obtain ⟨claims, _, rfl⟩ := register_ok ok
    change ((r.plugins ++ [loaded]).map (·.plugin.id)).Nodup
    rw [List.map_append, List.map_singleton]
    exact distinct.append (List.nodup_singleton _) (by simpa using fresh)

theorem plugin_of_offer {r : Registry} {o : Offer} (member : o ∈ r.offers) :
    ∃ loaded, r.plugins[o.position]? = some loaded ∧ loaded.plugin = o.plugin := by
  obtain ⟨⟨loaded, position⟩, numbered, inside⟩ := List.mem_flatMap.mp member
  obtain ⟨⟨capability, index⟩, _, rfl⟩ := List.mem_map.mp inside
  exact ⟨loaded, List.mem_zipIdx_iff_getElem?.mp numbered, rfl⟩

theorem plugin_of_candidate {r : Registry} (agrees : Agrees r.claims r.offers) {tag : Tag} {kind : Kind} {c : Claim}
    (member : c ∈ r.candidates tag kind) :
    ∃ loaded, r.plugins[c.position]? = some loaded ∧ loaded.plugin = c.plugin := by
  have core : c.core ∈ (r.candidates tag kind).map Claim.core := List.mem_map_of_mem member
  rw [candidates, agrees.standing] at core
  obtain ⟨o, standing, same⟩ := List.mem_map.mp core
  obtain ⟨plugin, position, _⟩ : o.plugin = c.plugin ∧ o.position = c.position ∧ _ := by
    simpa [Claim.core, Offer.core] using same
  rw [← plugin, ← position]
  exact plugin_of_offer (List.mem_filter.mp standing).1

/-- Candidates of different plugins have different ids. -/
theorem candidate_ids_ne {r : Registry} (agrees : Agrees r.claims r.offers)
    (distinct : (r.plugins.map (·.plugin.id)).Nodup) {tag : Tag} {kind : Kind} {a b : Claim}
    (inA : a ∈ r.candidates tag kind) (inB : b ∈ r.candidates tag kind) (apart : a.position ≠ b.position) :
    a.plugin.id ≠ b.plugin.id := by
  obtain ⟨first, atA, pluginA⟩ := plugin_of_candidate agrees inA
  obtain ⟨second, atB, pluginB⟩ := plugin_of_candidate agrees inB
  intro same
  have idA : (r.plugins.map (·.plugin.id))[a.position]? = some a.plugin.id := by simp [atA, pluginA]
  have idB : (r.plugins.map (·.plugin.id))[b.position]? = some a.plugin.id := by simp [atB, pluginB, same]
  have bound := (List.getElem?_eq_some_iff.mp idA).1
  exact apart ((List.getElem?_inj bound distinct).mp (idA.trans idB.symm))

theorem best_least {r : Registry} {claims : List Claim} {winner : Claim} (found : r.best claims = some winner) :
    winner ∈ claims ∧ ∀ c ∈ claims, toLex (r.rank winner) ≤ toLex (r.rank c) := by
  obtain ⟨before, after, rfl, above, notBelow⟩ := best_split found
  refine ⟨by simp, fun c member => ?_⟩
  rw [List.mem_append, List.mem_cons] at member
  rcases member with inBefore | rfl | inAfter
  · exact le_of_lt (above c inBefore)
  · exact le_refl _
  · exact notBelow c inAfter

theorem mem_candidates_of_resolveFor {r : Registry} {tag : Tag} {kind : Kind} {claim : Claim}
    (resolved : r.resolveFor tag kind = .ok claim) : claim ∈ r.candidates tag kind := by
  rw [resolveFor_candidates] at resolved
  split at resolved
  · split at resolved
    next winner found =>
      cases resolved
      exact (best_least found).1
    next => cases resolved
  · cases resolved

/-- The winner among candidates comes first in the list of the tag. -/
theorem resolveFor_listed {r : Registry} {ids : List String} {tag : Tag} {kind : Kind} {a : Claim}
    (ranked : r.priorityOf tag = ids) (member : a ∈ r.candidates tag kind) :
    ∃ winner ∈ r.candidates tag kind, r.resolveFor tag kind = .ok winner ∧
      ∀ c ∈ r.candidates tag kind, ids.idxOf winner.plugin.id ≤ ids.idxOf c.plugin.id := by
  have tagged : ∀ c ∈ r.candidates tag kind, c.tag = tag := by
    intro c inside
    obtain ⟨same, _⟩ : c.tag = tag ∧ c.scope.contains kind = true := by
      simpa [Claim.covers] using (List.mem_filter.mp inside).2
    exact same
  have provided : r.provides tag = true := by
    have claimed : a ∈ r.claimsOf tag := List.mem_filter.mpr ⟨(List.mem_filter.mp member).1, by simp [tagged a member]⟩
    simpa [provides] using List.ne_nil_of_mem claimed
  obtain ⟨winner, found⟩ := best_isSome (r := r) (List.ne_nil_of_mem member)
  obtain ⟨inside, least⟩ := best_least found
  refine ⟨winner, inside, ?_, fun c among => ?_⟩
  · rw [resolveFor_candidates, if_pos provided, ← candidates, found]
  · have order := Prod.Lex.toLex_le_toLex.mp (least c among)
    simp only [rank, tagged winner inside, tagged c among, ranked] at order
    rw [List.idxOf, List.idxOf]
    rcases order with less | ⟨same, _⟩
    · exact le_of_lt less
    · exact le_of_eq same

/-- In every registry that is built, claims of two plugins meet on a kind only if the list of the
tag names one of the two. So at most one plugin that can serve the kind is not in the list, and of
two or more the one that stands first in the list serves it. -/
theorem meeting_claims_listed (priorities : List (Tag × List String)) (plugins : List LoadedPlugin)
    (tag : Tag) (kind : Kind) :
    (built priorities plugins).plugins = (withPriorities priorities).accepted plugins ∧
    (∀ a ∈ (built priorities plugins).candidates tag kind, ∀ b ∈ (built priorities plugins).candidates tag kind,
      a.position ≠ b.position → a.plugin.id ∈ ranking priorities tag ∨ b.plugin.id ∈ ranking priorities tag) ∧
    (∀ a ∈ (built priorities plugins).candidates tag kind, ∀ b ∈ (built priorities plugins).candidates tag kind,
      a.plugin.id ∉ ranking priorities tag → b.plugin.id ∉ ranking priorities tag → a.position = b.position) ∧
    (∀ a ∈ (built priorities plugins).candidates tag kind, ∀ b ∈ (built priorities plugins).candidates tag kind,
      a.position ≠ b.position →
      ∃ winner ∈ (built priorities plugins).candidates tag kind,
        (built priorities plugins).resolveFor tag kind = .ok winner ∧ winner.plugin.id ∈ ranking priorities tag ∧
        ∀ c ∈ (built priorities plugins).candidates tag kind, c.position ≠ winner.position →
          (ranking priorities tag).idxOf winner.plugin.id < (ranking priorities tag).idxOf c.plugin.id) := by
  have decided := decided_built priorities plugins
  have ranked := priorityOf_built priorities plugins tag
  have agrees := agrees_built priorities plugins
  have distinct := ids_built priorities plugins
  refine ⟨plugins_built priorities plugins, ?_⟩
  generalize built priorities plugins = r at *
  have one : ∀ a ∈ r.candidates tag kind, ∀ b ∈ r.candidates tag kind, a.position ≠ b.position →
      a.plugin.id ∈ ranking priorities tag ∨ b.plugin.id ∈ ranking priorities tag := by
    intro a inA b inB apart
    obtain ⟨claimedA, coversA⟩ := List.mem_filter.mp inA
    obtain ⟨claimedB, coversB⟩ := List.mem_filter.mp inB
    exact decided a claimedA b claimedB apart tag kind coversA coversB
  refine ⟨one, ?_, ?_⟩
  · intro a inA b inB unlistedA unlistedB
    by_contra apart
    exact (one a inA b inB apart).elim unlistedA unlistedB
  · intro a inA b inB apart
    obtain ⟨winner, inside, resolved, least⟩ := resolveFor_listed ranked inA
    -- One of the two is listed, and the winner stands before it.
    have listed : winner.plugin.id ∈ ranking priorities tag := by
      rcases one a inA b inB apart with first | second
      · exact List.idxOf_lt_length_iff.mp ((least a inA).trans_lt (List.idxOf_lt_length_iff.mpr first))
      · exact List.idxOf_lt_length_iff.mp ((least b inB).trans_lt (List.idxOf_lt_length_iff.mpr second))
    refine ⟨winner, inside, resolved, listed, fun c among other => ?_⟩
    refine lt_of_le_of_ne (least c among) fun same => ?_
    exact candidate_ids_ne agrees distinct inside among other.symm ((List.idxOf_inj listed).mp same)

/-- Two plugins meet on classes, and the list names the second one. A third one overrides both for
structures, and a fourth, which is not listed either, is refused. -/
theorem meeting_claims_listed_overridden :
    let plugins := [offering "a" [.classType, .structType] false, offering "b" [.classType, .structType] false,
      offering "c" [.structType] true, offering "d" [.classType] false]
    (built [(⟨"x"⟩, ["b"])] plugins).plugins.map (·.plugin.id) = ["a", "b", "c"] ∧
      ∃ winner, (built [(⟨"x"⟩, ["b"])] plugins).resolveFor ⟨"x"⟩ .classType = .ok winner ∧
        winner.plugin.id ∈ ranking [(⟨"x"⟩, ["b"])] ⟨"x"⟩ := by
  intro plugins
  obtain ⟨taken, _, _, first⟩ := meeting_claims_listed [(⟨"x"⟩, ["b"])] plugins ⟨"x"⟩ .classType
  obtain ⟨a, b, both⟩ : ∃ a b, (built [(⟨"x"⟩, ["b"])] plugins).candidates ⟨"x"⟩ .classType = [a, b] ∧
      a.position = 0 ∧ b.position = 1 := ⟨_, _, rfl, rfl, rfl⟩
  obtain ⟨both, atA, atB⟩ := both
  obtain ⟨winner, _, resolved, listed, _⟩ := first a (by simp [both]) b (by simp [both]) (by simp [atA, atB])
  exact ⟨by rw [taken]; rfl, winner, resolved, listed⟩

end MarkerGen.Registry
