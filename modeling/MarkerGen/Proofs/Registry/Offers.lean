import Mathlib.Data.Prod.Lex
import MarkerGen.Plugin.Registry

/-! What registered plugins offer, read off their descriptions alone. The table of claims that
registration keeps up to date holds, for each tag and kind, exactly the offers that no later
plugin overrides, in the order of registration. -/
namespace MarkerGen

/-- A capability of a registered plugin, with the load index of the plugin and the index of the
capability among those of the plugin. -/
structure Offer where
  plugin : Plugin
  position : Nat
  index : Nat
  capability : Capability

namespace Offer

def tag (o : Offer) : Tag := o.capability.tag

def covers (tag : Tag) (kind : Kind) (o : Offer) : Bool := o.tag == tag && o.capability.scope.contains kind

/-- What an offer has in common with the claim that is made for it. -/
def core (o : Offer) : Plugin × Nat × Capability := (o.plugin, o.position, o.capability)

/-- Whether one of the offers takes a kind away from an offer. -/
def overriddenIn (offers : List Offer) (tag : Tag) (kind : Kind) (o : Offer) : Bool :=
  offers.any fun later => decide (o.position < later.position) && later.capability.overrides && later.covers tag kind

def standsIn (offers : List Offer) (tag : Tag) (kind : Kind) (o : Offer) : Bool :=
  o.covers tag kind && !o.overriddenIn offers tag kind

end Offer

def Claim.core (c : Claim) : Plugin × Nat × Capability := (c.plugin, c.position, c.capability)

def Claim.covers (tag : Tag) (kind : Kind) (c : Claim) : Bool := c.tag == tag && c.scope.contains kind

/-- The offers of a plugin at a position, with their indices counted from `start`. -/
def offersFrom (plugin : Plugin) (position start : Nat) (capabilities : List Capability) : List Offer :=
  (capabilities.zipIdx start).map fun (capability, index) => ⟨plugin, position, index, capability⟩

namespace Registry

/-- All offers, in the order of registration. -/
def offers (r : Registry) : List Offer :=
  r.plugins.zipIdx.flatMap fun (loaded, position) => offersFrom loaded.plugin position 0 loaded.plugin.capabilities

/-- The claims are those of the offers made so far: for each tag and kind the same ones stand, in
the same order, and the same tags occur. -/
structure Agrees (claims : List Claim) (offers : List Offer) : Prop where
  standing : ∀ tag kind, (claims.filter (Claim.covers tag kind)).map Claim.core =
    (offers.filter (Offer.standsIn offers tag kind)).map Offer.core
  tags : ∀ tag, (∃ c ∈ claims, c.tag = tag) ↔ ∃ o ∈ offers, o.tag = tag

theorem agrees_nil : Agrees [] [] := ⟨fun _ _ => rfl, fun _ => by simp⟩

theorem standsIn_append (offers : List Offer) (o new : Offer) (tag : Tag) (kind : Kind) :
    o.standsIn (offers ++ [new]) tag kind = (o.standsIn offers tag kind &&
      !(decide (o.position < new.position) && new.capability.overrides && new.covers tag kind)) := by
  simp only [Offer.standsIn, Offer.overriddenIn, List.any_append, List.any_cons, List.any_nil, Bool.or_false,
    Bool.not_or, Bool.and_assoc]

theorem standsIn_last (offers : List Offer) (new : Offer) (tag : Tag) (kind : Kind)
    (last : ∀ o ∈ offers, o.position ≤ new.position) :
    new.standsIn (offers ++ [new]) tag kind = new.covers tag kind := by
  have free : new.overriddenIn offers tag kind = false := by
    simp only [Offer.overriddenIn, List.any_eq_false]
    intro o member
    simp [Nat.not_lt.mpr (last o member)]
  rw [standsIn_append]
  simp [Offer.standsIn, free]

theorem scope_contains_of_isEmpty {scope : Scope} (empty : scope.isEmpty = true) (kind : Kind) :
    scope.contains kind = false := by
  cases scope with
  | any => simp [Scope.isEmpty] at empty
  | only kinds =>
    have none : kinds.members = [] := by simpa [Scope.isEmpty] using empty
    simp [Scope.contains, none]

/-- The kinds that a claim keeps when a capability of the plugin at `position` overrides its tag. -/
def remaining (position : Nat) (capability : Capability) (claim : Claim) : Scope :=
  if claim.position = position then claim.scope else claim.scope.difference capability.scope

theorem remaining_contains (position : Nat) (capability : Capability) (claim : Claim) (kind : Kind) :
    (remaining position capability claim).contains kind = (claim.scope.contains kind &&
      !(decide (claim.position ≠ position) && capability.scope.contains kind)) := by
  unfold remaining
  by_cases own : claim.position = position <;> simp [own]

theorem overridden_same {position : Nat} {capability : Capability} {claim : Claim}
    (same : claim.tag = capability.tag) :
    overridden position capability claim =
      if (remaining position capability claim).isEmpty then none
      else some { claim with scope := remaining position capability claim } := by
  unfold overridden
  rw [if_neg (not_not.mpr same)]
  rfl

theorem overridden_other {position : Nat} {capability : Capability} {claim : Claim}
    (apart : claim.tag ≠ capability.tag) : overridden position capability claim = some claim := by
  simp [overridden, apart]

theorem overridden_core {position : Nat} {capability : Capability} {claim left : Claim}
    (kept : overridden position capability claim = some left) : left.core = claim.core := by
  by_cases same : claim.tag = capability.tag
  · rw [overridden_same same] at kept
    split at kept
    · cases kept
    · cases kept
      rfl
  · rw [overridden_other same] at kept
    cases kept
    rfl

theorem overridden_covers (position : Nat) (capability : Capability) (claim : Claim) (tag : Tag) (kind : Kind) :
    (overridden position capability claim).any (Claim.covers tag kind) = (claim.covers tag kind &&
      !(decide (claim.position ≠ position) && (capability.tag == tag && capability.scope.contains kind))) := by
  by_cases same : claim.tag = capability.tag
  · have contains := remaining_contains position capability claim kind
    have left : (overridden position capability claim).any (Claim.covers tag kind) =
        (claim.tag == tag && (remaining position capability claim).contains kind) := by
      rw [overridden_same same]
      split
      next empty => simp [scope_contains_of_isEmpty empty kind]
      next => rfl
    rw [left, contains, Claim.covers, same]
    cases capability.tag == tag <;> simp
  · rw [overridden_other same, Option.any_some]
    by_cases wanted : claim.tag = tag
    · have apart : capability.tag ≠ tag := fun equal => same (wanted.trans equal.symm)
      simp [apart]
    · simp [Claim.covers, wanted]

theorem filter_overridden (position : Nat) (capability : Capability) (claims : List Claim) (tag : Tag) (kind : Kind) :
    ((claims.filterMap (overridden position capability)).filter (Claim.covers tag kind)).map Claim.core =
      ((claims.filter (Claim.covers tag kind)).map Claim.core).filter fun core =>
        !(decide (core.2.1 ≠ position) && (capability.tag == tag && capability.scope.contains kind)) := by
  induction claims with
  | nil => rfl
  | cons claim rest ih =>
    have step := overridden_covers position capability claim tag kind
    cases kept : overridden position capability claim with
    | none =>
      rw [kept, Option.any_none] at step
      rw [List.filterMap_cons_none kept, ih]
      by_cases covered : claim.covers tag kind = true
      · rw [covered, Bool.true_and] at step
        rw [List.filter_cons_of_pos covered, List.map_cons, List.filter_cons_of_neg]
        rw [Bool.not_eq_true]
        exact step.symm
      · rw [List.filter_cons_of_neg covered]
    | some left =>
      rw [kept, Option.any_some] at step
      rw [List.filterMap_cons_some kept]
      by_cases covered : claim.covers tag kind = true
      · rw [covered, Bool.true_and] at step
        rw [List.filter_cons_of_pos covered, List.map_cons, List.filter_cons, List.filter_cons, step]
        change _ = if (!(decide (claim.position ≠ position) && _)) = true then _ else _
        split
        next => rw [List.map_cons, overridden_core kept, ih]
        next => rw [ih]
      · have gone : left.covers tag kind = false := by simpa [covered] using step
        rw [List.filter_cons_of_neg (by simp [gone]), List.filter_cons_of_neg covered, ih]

theorem addClaim_ok {r : Registry} {plugin : Plugin} {position : Nat} {claims next : List Claim}
    {capability : Capability} (ok : r.addClaim plugin position claims capability = .ok next) :
    next = (if capability.overrides then claims.filterMap (overridden position capability) else claims) ++
      [⟨plugin, position, capability, capability.scope⟩] := by
  unfold addClaim at ok
  by_cases overrides : capability.overrides = true
  · rw [if_pos overrides] at ok ⊢
    cases ok
    rfl
  · rw [if_neg overrides] at ok ⊢
    split at ok
    · cases ok
    · cases ok
      rfl

theorem agrees_standing {claims : List Claim} {offers : List Offer} (agrees : Agrees claims offers) (new : Offer)
    (last : ∀ o ∈ offers, o.position ≤ new.position) (tag : Tag) (kind : Kind) :
    ((if new.capability.overrides then claims.filterMap (overridden new.position new.capability) else claims).filter
        (Claim.covers tag kind)).map Claim.core =
      (offers.filter (Offer.standsIn (offers ++ [new]) tag kind)).map Offer.core := by
  have narrowed : offers.filter (Offer.standsIn (offers ++ [new]) tag kind) =
      (offers.filter (Offer.standsIn offers tag kind)).filter fun o =>
        !(decide (o.position < new.position) && new.capability.overrides && new.covers tag kind) := by
    rw [List.filter_filter]
    apply List.filter_congr
    intro o _
    rw [standsIn_append, Bool.and_comm]
  rw [narrowed]
  by_cases overrides : new.capability.overrides = true
  · rw [if_pos overrides, filter_overridden, agrees.standing, List.filter_map]
    apply congrArg
    apply List.filter_congr
    intro o member
    rcases Nat.eq_or_lt_of_le (last o (List.mem_filter.mp member).1) with same | less
    · simp [Offer.core, same]
    · simp [Offer.core, Nat.ne_of_lt less, less, overrides, Offer.covers, Offer.tag]
  · simp [overrides, agrees.standing]

theorem agrees_addClaim {r : Registry} {plugin : Plugin} {position : Nat} {claims next : List Claim}
    {offers : List Offer} {capability : Capability} (agrees : Agrees claims offers)
    (last : ∀ o ∈ offers, o.position ≤ position) (index : Nat)
    (ok : r.addClaim plugin position claims capability = .ok next) :
    Agrees next (offers ++ [⟨plugin, position, index, capability⟩]) := by
  let new : Offer := ⟨plugin, position, index, capability⟩
  rw [addClaim_ok ok]
  constructor
  · intro tag kind
    rw [List.filter_append, List.map_append, List.filter_append, List.map_append, agrees_standing agrees new last]
    apply congrArg
    have own : [new].filter (Offer.standsIn (offers ++ [new]) tag kind) = [new].filter (Offer.covers tag kind) := by
      apply List.filter_congr
      intro o member
      rw [List.mem_singleton.mp member, standsIn_last _ _ _ _ last]
    rw [own, List.filter_cons, List.filter_cons]
    change List.map _ (if new.covers tag kind then _ else _) = List.map _ (if new.covers tag kind then _ else _)
    split <;> rfl
  · intro tag
    have kept : (∃ c ∈ if capability.overrides then claims.filterMap (overridden position capability) else claims,
        c.tag = tag) ∨ capability.tag = tag ↔ (∃ o ∈ offers, o.tag = tag) ∨ capability.tag = tag := by
      rw [← agrees.tags]
      by_cases same : capability.tag = tag
      · simp [same]
      · simp only [same, or_false]
        split
        · constructor
          · rintro ⟨c, member, tagged⟩
            obtain ⟨claim, inside, left⟩ := List.mem_filterMap.mp member
            have sameTag : c.tag = claim.tag := congrArg (fun core => core.2.2.tag) (overridden_core left)
            exact ⟨claim, inside, sameTag.symm.trans tagged⟩
          · rintro ⟨c, member, tagged⟩
            have apart : c.tag ≠ capability.tag := fun equal => same (equal.symm.trans tagged)
            exact ⟨c, List.mem_filterMap.mpr ⟨c, member, overridden_other apart⟩, tagged⟩
        · exact Iff.rfl
    simp only [List.mem_append, List.mem_singleton, or_and_right, exists_or, exists_eq_left]
    exact kept

theorem agrees_addClaims {r : Registry} {plugin : Plugin} {position : Nat} (capabilities : List Capability)
    {claims next : List Claim} {offers : List Offer} (agrees : Agrees claims offers)
    (last : ∀ o ∈ offers, o.position ≤ position) (start : Nat)
    (ok : capabilities.foldlM (r.addClaim plugin position) claims = .ok next) :
    Agrees next (offers ++ offersFrom plugin position start capabilities) := by
  induction capabilities generalizing claims offers start with
  | nil =>
    cases ok
    simpa [offersFrom] using agrees
  | cons capability rest ih =>
    rw [List.foldlM_cons] at ok
    cases step : r.addClaim plugin position claims capability with
    | error error =>
      rw [step] at ok
      cases ok
    | ok middle =>
      rw [step] at ok
      have added := agrees_addClaim agrees last start step
      have bound : ∀ o ∈ offers ++ [⟨plugin, position, start, capability⟩], o.position ≤ position := by
        intro o member
        rcases List.mem_append.mp member with earlier | new
        · exact last o earlier
        · rw [List.mem_singleton.mp new]
      have whole := ih added bound (start + 1) ok
      rw [List.append_assoc] at whole
      exact whole

theorem offer_position_lt {r : Registry} {o : Offer} (member : o ∈ r.offers) : o.position < r.plugins.length := by
  obtain ⟨⟨loaded, position⟩, numbered, inside⟩ := List.mem_flatMap.mp member
  obtain ⟨⟨capability, index⟩, _, rfl⟩ := List.mem_map.mp inside
  have found := List.mem_zipIdx_iff_getElem?.mp numbered
  exact (List.getElem?_eq_some_iff.mp found).1

/-- A plugin that is taken in comes last; everything else stays as it was. -/
theorem register_ok {r next : Registry} {loaded : LoadedPlugin} (ok : r.register loaded = .ok next) :
    ∃ claims, loaded.plugin.capabilities.foldlM (r.addClaim loaded.plugin r.plugins.length) r.claims = .ok claims ∧
      next = { r with claims, plugins := r.plugins ++ [loaded] } := by
  unfold register at ok
  simp only at ok
  split at ok
  · cases ok
  · split at ok
    · cases ok
    · cases folded : loaded.plugin.capabilities.foldlM (r.addClaim loaded.plugin r.plugins.length) r.claims with
      | error error =>
        rw [folded] at ok
        cases ok
      | ok claims =>
        rw [folded] at ok
        cases ok
        exact ⟨claims, rfl, rfl⟩

theorem offers_register {r next : Registry} {loaded : LoadedPlugin} (ok : r.register loaded = .ok next) :
    next.offers = r.offers ++ offersFrom loaded.plugin r.plugins.length 0 loaded.plugin.capabilities := by
  obtain ⟨claims, _, rfl⟩ := register_ok ok
  simp [offers, List.zipIdx_append]

theorem agrees_register {r next : Registry} {loaded : LoadedPlugin} (agrees : Agrees r.claims r.offers)
    (ok : r.register loaded = .ok next) : Agrees next.claims next.offers := by
  rw [offers_register ok]
  obtain ⟨claims, folded, rfl⟩ := register_ok ok
  exact agrees_addClaims _ agrees (fun o member => Nat.le_of_lt (offer_position_lt member)) 0 folded

end Registry

end MarkerGen
