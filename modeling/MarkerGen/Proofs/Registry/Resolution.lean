import Mathlib.Data.List.Induction
import MarkerGen.Proofs.Registry.Offers

/-! Resolution has a meaning that does not mention the table of claims: among the offers for a
tag and a kind that no later plugin overrides, the least one wins. This holds after any history
of registrations, refused ones included. -/
namespace MarkerGen.Registry

def withPriorities (priorities : List (Tag × List String)) : Registry :=
  priorities.foldl (fun r (tag, ids) => r.setPriority tag ids) .empty

def attempt (r : Registry) (loaded : LoadedPlugin) : Registry :=
  match r.register loaded with
  | .ok next => next
  | .error _ => r

/-- The plugins that a registry accepts when they are registered in order. -/
def accepted (r : Registry) : List LoadedPlugin → List LoadedPlugin
  | [] => []
  | loaded :: rest =>
    match r.register loaded with
    | .ok next => loaded :: next.accepted rest
    | .error _ => r.accepted rest

/-- The registry after priorities are set and plugins are then registered in order. -/
def built (priorities : List (Tag × List String)) (plugins : List LoadedPlugin) : Registry :=
  plugins.foldl attempt (withPriorities priorities)

/-- The ids that were last ranked for a tag. -/
def ranking (priorities : List (Tag × List String)) (tag : Tag) : List String :=
  ((priorities.reverse.find? (·.1 == tag)).map (·.2)).getD []

/-- The place of an offer among those for its tag: by the ranking of its plugin, where a plugin
that is not ranked comes last, then by registration, then by its index. -/
def place (ids : List String) (o : Offer) : Nat ×ₗ Nat ×ₗ Nat :=
  toLex (ids.findIdx (· == o.plugin.id), toLex (o.position, o.index))

/-- An offer for a tag and a kind that no plugin registered later overrides. -/
def Live (r : Registry) (tag : Tag) (kind : Kind) (o : Offer) : Prop :=
  o ∈ r.offers ∧ o.covers tag kind = true ∧
    ∀ later ∈ r.offers, o.position < later.position → later.capability.overrides = true →
      later.covers tag kind = false

theorem mem_standing_iff {r : Registry} {tag : Tag} {kind : Kind} {o : Offer} :
    o ∈ r.offers.filter (Offer.standsIn r.offers tag kind) ↔ r.Live tag kind o := by
  simp only [List.mem_filter, Offer.standsIn, Offer.overriddenIn, Live, Bool.and_eq_true, Bool.not_eq_true',
    List.any_eq_false, decide_eq_true_eq, not_and, Bool.not_eq_true, and_imp]

theorem priorityOf_setPriority (r : Registry) (tag wanted : Tag) (ids : List String) :
    (r.setPriority tag ids).priorityOf wanted = if tag = wanted then ids else r.priorityOf wanted := by
  unfold priorityOf setPriority
  by_cases same : tag = wanted
  · subst same
    have absent : (r.priority.filter (·.1 != tag)).find? (·.1 == tag) = none := by
      rw [List.find?_filter, List.find?_eq_none]
      simp
    simp [absent]
  · have kept : (r.priority.filter (·.1 != tag)).find? (·.1 == wanted) = r.priority.find? (·.1 == wanted) := by
      rw [List.find?_filter]
      congr 1
      funext entry
      by_cases named : entry.1 = wanted <;> grind
    rw [List.find?_append, kept]
    simp [same]

theorem priorityOf_withPriorities (priorities : List (Tag × List String)) (tag : Tag) :
    (withPriorities priorities).priorityOf tag = ranking priorities tag := by
  unfold withPriorities
  induction priorities using List.reverseRecOn with
  | nil => rfl
  | append_singleton before entry ih =>
    rw [List.foldl_append, List.foldl_cons, List.foldl_nil, priorityOf_setPriority, ih]
    unfold ranking
    by_cases same : entry.1 = tag <;> simp [same]

theorem attempt_cases (r : Registry) (loaded : LoadedPlugin) :
    r.attempt loaded = r ∨ r.register loaded = .ok (r.attempt loaded) := by
  unfold attempt
  cases r.register loaded with
  | ok next => exact .inr rfl
  | error error => exact .inl rfl

/-- What holds initially and after each accepted plugin holds of every registry that is built. -/
theorem built_induction {motive : Registry → Prop} (priorities : List (Tag × List String))
    (plugins : List LoadedPlugin) (start : motive (withPriorities priorities))
    (step : ∀ r loaded next, motive r → r.register loaded = .ok next → motive next) :
    motive (built priorities plugins) := by
  unfold built
  induction plugins using List.reverseRecOn with
  | nil => exact start
  | append_singleton before loaded ih =>
    rw [List.foldl_append, List.foldl_cons, List.foldl_nil]
    rcases attempt_cases (before.foldl attempt (withPriorities priorities)) loaded with same | taken
    · rwa [same]
    · exact step _ _ _ ih taken

theorem withPriorities_empty (priorities : List (Tag × List String)) :
    (withPriorities priorities).plugins = [] ∧ (withPriorities priorities).claims = [] := by
  unfold withPriorities
  induction priorities using List.reverseRecOn with
  | nil => exact ⟨rfl, rfl⟩
  | append_singleton before entry ih =>
    rw [List.foldl_append, List.foldl_cons, List.foldl_nil]
    exact ih

theorem plugins_attempts (r : Registry) (plugins : List LoadedPlugin) :
    (plugins.foldl attempt r).plugins = r.plugins ++ r.accepted plugins := by
  induction plugins generalizing r with
  | nil => simp [accepted]
  | cons loaded rest ih =>
    rw [List.foldl_cons, ih, accepted, attempt]
    cases ok : r.register loaded with
    | error error => rfl
    | ok next =>
      obtain ⟨claims, _, rfl⟩ := register_ok ok
      exact List.append_assoc _ _ _

theorem plugins_built (priorities : List (Tag × List String)) (plugins : List LoadedPlugin) :
    (built priorities plugins).plugins = (withPriorities priorities).accepted plugins := by
  rw [built, plugins_attempts, (withPriorities_empty priorities).1, List.nil_append]

theorem agrees_built (priorities : List (Tag × List String)) (plugins : List LoadedPlugin) :
    Agrees (built priorities plugins).claims (built priorities plugins).offers := by
  apply built_induction priorities plugins (motive := fun r => Agrees r.claims r.offers)
  · obtain ⟨noPlugins, noClaims⟩ := withPriorities_empty priorities
    rw [noClaims, offers, noPlugins]
    exact agrees_nil
  · exact fun r loaded next agrees ok => agrees_register agrees ok

theorem priorityOf_built (priorities : List (Tag × List String)) (plugins : List LoadedPlugin) (tag : Tag) :
    (built priorities plugins).priorityOf tag = ranking priorities tag := by
  apply built_induction priorities plugins (motive := fun r => r.priorityOf tag = ranking priorities tag)
  · exact priorityOf_withPriorities priorities tag
  · intro r loaded next same ok
    obtain ⟨claims, _, rfl⟩ := register_ok ok
    exact same

theorem rankLt_iff (a b : Nat × Nat) : rankLt a b = true ↔ toLex a < toLex b := by
  simp [rankLt, Prod.Lex.toLex_lt_toLex]

theorem best_split {r : Registry} {claims : List Claim} {winner : Claim} (found : r.best claims = some winner) :
    ∃ before after, claims = before ++ winner :: after ∧
      (∀ c ∈ before, toLex (r.rank winner) < toLex (r.rank c)) ∧
      ∀ c ∈ after, toLex (r.rank winner) ≤ toLex (r.rank c) := by
  induction claims generalizing winner with
  | nil => cases found
  | cons claim rest ih =>
    rw [best] at found
    cases later : r.best rest with
    | none =>
      rw [later] at found
      cases found
      cases rest with
      | nil => exact ⟨[], [], rfl, by simp, by simp⟩
      | cons next others =>
        rw [best] at later
        split at later
        · cases later
        · split at later <;> cases later
    | some other =>
      rw [later] at found
      obtain ⟨before, after, parts, above, notBelow⟩ := ih later
      dsimp only at found
      split at found
      next less =>
        cases found
        refine ⟨claim :: before, after, by rw [parts]; rfl, ?_, notBelow⟩
        intro c member
        rcases List.mem_cons.mp member with rfl | inside
        · exact (rankLt_iff _ _).mp less
        · exact above c inside
      next notLess =>
        cases found
        have least : toLex (r.rank claim) ≤ toLex (r.rank other) :=
          not_lt.mp fun less => notLess ((rankLt_iff _ _).mpr less)
        refine ⟨[], rest, rfl, by simp, ?_⟩
        intro c member
        rw [parts] at member
        rcases List.mem_append.mp member with inBefore | inRest
        · exact least.trans (le_of_lt (above c inBefore))
        · rcases List.mem_cons.mp inRest with rfl | inAfter
          · exact least
          · exact least.trans (notBelow c inAfter)

theorem best_isSome {r : Registry} {claims : List Claim} (nonempty : claims ≠ []) :
    ∃ winner, r.best claims = some winner := by
  cases claims with
  | nil => exact absurd rfl nonempty
  | cons claim rest =>
    rw [best]
    cases r.best rest with
    | none => exact ⟨claim, rfl⟩
    | some other =>
      dsimp only
      split
      · exact ⟨other, rfl⟩
      · exact ⟨claim, rfl⟩

theorem resolveFor_candidates (r : Registry) (tag : Tag) (kind : Kind) :
    r.resolveFor tag kind = if r.provides tag then
        match r.best (r.claims.filter (Claim.covers tag kind)) with
        | some claim => .ok claim
        | none => .error (.unsupportedKind tag kind)
      else .error (.unknownCapability tag) := by
  have candidates : (r.claimsOf tag).filter (·.scope.contains kind) = r.claims.filter (Claim.covers tag kind) := by
    rw [claimsOf, List.filter_filter]
    apply List.filter_congr
    intro c _
    exact Bool.and_comm _ _
  rw [← candidates]
  rfl

theorem mem_of_resolveFor {r : Registry} {tag : Tag} {kind : Kind} {claim : Claim}
    (resolved : r.resolveFor tag kind = .ok claim) : claim ∈ r.claims := by
  rw [resolveFor_candidates] at resolved
  split at resolved
  · split at resolved
    next winner found =>
      cases resolved
      obtain ⟨before, after, parts, _⟩ := best_split found
      have candidate : claim ∈ r.claims.filter (Claim.covers tag kind) := by simp [parts]
      exact (List.mem_filter.mp candidate).1
    next => cases resolved
  · cases resolved

theorem provides_iff {r : Registry} (agrees : Agrees r.claims r.offers) (tag : Tag) :
    r.provides tag = true ↔ ∃ o ∈ r.offers, o.tag = tag := by
  rw [← agrees.tags]
  simp [provides, claimsOf]

theorem exists_live {r : Registry} {tag : Tag} {kind : Kind} {o : Offer} (member : o ∈ r.offers)
    (covered : o.covers tag kind = true) : ∃ live, r.Live tag kind live := by
  -- An overriding offer that takes the kind away is itself an offer for it, and comes later.
  induction left : r.plugins.length - o.position using Nat.strong_induction_on generalizing o with
  | _ left ih =>
    by_cases taken : ∃ later ∈ r.offers, o.position < later.position ∧ later.capability.overrides = true ∧
        later.covers tag kind = true
    · obtain ⟨later, inside, after, _, covering⟩ := taken
      have bound := offer_position_lt inside
      exact ih (r.plugins.length - later.position) (by omega) inside covering rfl
    · refine ⟨o, member, covered, fun later inside after overrides => ?_⟩
      by_contra covering
      exact taken ⟨later, inside, after, overrides, by simpa using covering⟩

private theorem zipIdx_increasing {α : Type} (items : List α) (start : Nat) :
    (items.zipIdx start).Pairwise (·.2 < ·.2) := by
  rw [← List.pairwise_map (R := (· < ·)), List.zipIdx_map_snd]
  exact List.pairwise_lt_range'

theorem offers_sorted (r : Registry) :
    r.offers.Pairwise fun a b => toLex (a.position, a.index) < toLex (b.position, b.index) := by
  unfold offers
  rw [List.pairwise_flatMap]
  constructor
  · rintro ⟨loaded, position⟩ _
    unfold offersFrom
    rw [List.pairwise_map]
    apply (zipIdx_increasing loaded.plugin.capabilities 0).imp
    intro a b less
    exact Prod.Lex.toLex_lt_toLex.mpr (.inr ⟨rfl, less⟩)
  · apply (zipIdx_increasing r.plugins 0).imp
    intro a b less x inA y inB
    obtain ⟨_, _, rfl⟩ := List.mem_map.mp inA
    obtain ⟨_, _, rfl⟩ := List.mem_map.mp inB
    exact Prod.Lex.toLex_lt_toLex.mpr (.inl less)

theorem rank_of_core {r : Registry} {ids : List String} {c : Claim} {o : Offer} (same : c.core = o.core)
    (ranked : r.priorityOf c.tag = ids) : r.rank c = (ids.findIdx (· == o.plugin.id), o.position) := by
  obtain ⟨plugin, position, _⟩ : c.plugin = o.plugin ∧ c.position = o.position ∧ c.capability = o.capability := by
    simpa [Claim.core, Offer.core] using same
  rw [rank, ranked, plugin, position]

theorem best_standing_least {r : Registry} {tag : Tag} {kind : Kind} {winner : Claim} {ids : List String}
    (agrees : Agrees r.claims r.offers) (ranked : r.priorityOf tag = ids)
    (found : r.best (r.claims.filter (Claim.covers tag kind)) = some winner) :
    ∃ o, winner.core = o.core ∧ r.Live tag kind o ∧ ∀ other, r.Live tag kind other → place ids o ≤ place ids other := by
  obtain ⟨before, after, parts, above, notBelow⟩ := best_split found
  have tagged : ∀ c ∈ r.claims.filter (Claim.covers tag kind), r.priorityOf c.tag = ids := by
    intro c member
    have covered := (List.mem_filter.mp member).2
    have sameTag : c.tag = tag := by
      simp only [Claim.covers, Bool.and_eq_true, beq_iff_eq] at covered
      exact covered.1
    rw [sameTag, ranked]
  -- The standing offers split where the claims do.
  have cores := agrees.standing tag kind
  rw [parts, List.map_append, List.map_cons] at cores
  obtain ⟨earlier, rest, split, earlierCores, restCores⟩ := List.map_eq_append_iff.mp cores.symm
  obtain ⟨o, later, restSplit, core, laterCores⟩ := List.map_eq_cons_iff.mp restCores
  rw [restSplit] at split
  have sorted := (offers_sorted r).filter (Offer.standsIn r.offers tag kind)
  rw [split, List.pairwise_append, List.pairwise_cons] at sorted
  have winnerRank := rank_of_core core.symm (tagged winner (by rw [parts]; simp))
  refine ⟨o, core.symm, mem_standing_iff.mp (by rw [split]; simp), ?_⟩
  intro other live
  have member := mem_standing_iff.mpr live
  rw [split, List.mem_append, List.mem_cons] at member
  rcases member with inEarlier | rfl | inLater
  · obtain ⟨c, inBefore, same⟩ := List.mem_map.mp (earlierCores ▸ List.mem_map_of_mem inEarlier)
    have less := above c inBefore
    rw [winnerRank, rank_of_core same (tagged c (by rw [parts]; simp [inBefore]))] at less
    simp only [place, Prod.Lex.toLex_le_toLex, Prod.Lex.toLex_lt_toLex] at less ⊢
    omega
  · exact le_refl _
  · obtain ⟨c, inAfter, same⟩ := List.mem_map.mp (laterCores ▸ List.mem_map_of_mem inLater)
    have notAbove := notBelow c inAfter
    rw [winnerRank, rank_of_core same (tagged c (by rw [parts]; simp [inAfter]))] at notAbove
    have follows := sorted.2.1.1 other inLater
    simp only [place, Prod.Lex.toLex_le_toLex, Prod.Lex.toLex_lt_toLex] at notAbove follows ⊢
    omega

theorem standing_ne_nil_iff {r : Registry} (agrees : Agrees r.claims r.offers) (tag : Tag) (kind : Kind) :
    r.claims.filter (Claim.covers tag kind) ≠ [] ↔ ∃ o ∈ r.offers, o.covers tag kind = true := by
  have same : r.claims.filter (Claim.covers tag kind) = [] ↔
      r.offers.filter (Offer.standsIn r.offers tag kind) = [] := by
    rw [← List.map_eq_nil_iff (f := Claim.core), agrees.standing, List.map_eq_nil_iff]
  rw [ne_eq, same]
  constructor
  · intro nonempty
    obtain ⟨o, member⟩ := List.exists_mem_of_ne_nil _ nonempty
    have live := mem_standing_iff.mp member
    exact ⟨o, live.1, live.2.1⟩
  · rintro ⟨o, member, covered⟩ empty
    obtain ⟨live, isLive⟩ := exists_live member covered
    have inside := mem_standing_iff.mpr isLive
    rw [empty] at inside
    cases inside

theorem tagged_of_covered {r : Registry} {tag : Tag} {kind : Kind}
    (served : ∃ o ∈ r.offers, o.covers tag kind = true) : ∃ o ∈ r.offers, o.tag = tag := by
  obtain ⟨o, member, covered⟩ := served
  simp only [Offer.covers, Bool.and_eq_true, beq_iff_eq] at covered
  exact ⟨o, member, covered.1⟩

theorem resolveFor_cases {r : Registry} (agrees : Agrees r.claims r.offers) (tag : Tag) (kind : Kind) :
    ((¬ ∃ o ∈ r.offers, o.tag = tag) ∧ r.resolveFor tag kind = .error (.unknownCapability tag)) ∨
    ((∃ o ∈ r.offers, o.tag = tag) ∧ (¬ ∃ o ∈ r.offers, o.covers tag kind = true) ∧
      r.resolveFor tag kind = .error (.unsupportedKind tag kind)) ∨
    ((∃ o ∈ r.offers, o.covers tag kind = true) ∧ ∃ winner,
      r.best (r.claims.filter (Claim.covers tag kind)) = some winner ∧ r.resolveFor tag kind = .ok winner) := by
  rw [resolveFor_candidates, ← provides_iff agrees]
  by_cases provided : r.provides tag = true
  · rw [if_pos provided]
    by_cases served : ∃ o ∈ r.offers, o.covers tag kind = true
    · obtain ⟨winner, found⟩ := best_isSome (r := r) ((standing_ne_nil_iff agrees tag kind).mpr served)
      exact .inr (.inr ⟨served, winner, found, by rw [found]⟩)
    · have empty : r.claims.filter (Claim.covers tag kind) = [] :=
        not_not.mp fun nonempty => served ((standing_ne_nil_iff agrees tag kind).mp nonempty)
      exact .inr (.inl ⟨provided, served, by rw [empty]; rfl⟩)
  · exact .inl ⟨provided, by rw [if_neg provided]⟩

theorem offers_attempt_subset (r : Registry) (loaded : LoadedPlugin) : r.offers ⊆ (r.attempt loaded).offers := by
  rcases attempt_cases r loaded with same | taken
  · rw [same]
    exact List.Subset.refl _
  · rw [offers_register taken]
    exact List.subset_append_left _ _

theorem offers_built_subset (priorities : List (Tag × List String)) (plugins later : List LoadedPlugin) :
    (built priorities plugins).offers ⊆ (built priorities (plugins ++ later)).offers := by
  unfold built
  rw [List.foldl_append]
  generalize plugins.foldl attempt (withPriorities priorities) = r
  induction later generalizing r with
  | nil => exact List.Subset.refl _
  | cons loaded rest ih => exact List.Subset.trans (offers_attempt_subset r loaded) (ih (r.attempt loaded))

/-- Resolution refuses a tag that nothing offers and a kind that no offer for the tag covers. Else
it gives the live offer with the least place. More plugins, overriding or not, never leave a kind
without an answer. -/
theorem resolveFor_least_live (priorities : List (Tag × List String)) (plugins : List LoadedPlugin)
    (tag : Tag) (kind : Kind) :
    (built priorities plugins).plugins = (withPriorities priorities).accepted plugins ∧
    ((built priorities plugins).resolveFor tag kind = .error (.unknownCapability tag) ↔
      ¬ ∃ o ∈ (built priorities plugins).offers, o.tag = tag) ∧
    ((built priorities plugins).resolveFor tag kind = .error (.unsupportedKind tag kind) ↔
      (∃ o ∈ (built priorities plugins).offers, o.tag = tag) ∧
        ¬ ∃ o ∈ (built priorities plugins).offers, o.covers tag kind = true) ∧
    ((∃ o ∈ (built priorities plugins).offers, o.covers tag kind = true) →
      ∃ winner o, (built priorities plugins).resolveFor tag kind = .ok winner ∧ winner.core = o.core ∧
        (built priorities plugins).Live tag kind o ∧
        ∀ other, (built priorities plugins).Live tag kind other →
          place (ranking priorities tag) o ≤ place (ranking priorities tag) other) ∧
    ∀ later winner, (built priorities plugins).resolveFor tag kind = .ok winner →
      ∃ next, (built priorities (plugins ++ later)).resolveFor tag kind = .ok next := by
  have agrees := agrees_built priorities plugins
  have ranked := priorityOf_built priorities plugins tag
  have ending := resolveFor_cases agrees tag kind
  refine ⟨plugins_built priorities plugins, ?_, ?_, ?_, ?_⟩
  · rcases ending with ⟨absent, result⟩ | ⟨tagged, _, result⟩ | ⟨served, winner, _, result⟩
    · simp [result, absent]
    · simp [result, tagged]
    · simp [result, tagged_of_covered served]
  · rcases ending with ⟨absent, result⟩ | ⟨tagged, missing, result⟩ | ⟨served, winner, _, result⟩
    · simp [result, absent]
    · simp only [result, tagged, true_and, true_iff]
      exact missing
    · simp [result, served]
  · intro served
    rcases ending with ⟨absent, _⟩ | ⟨_, missing, _⟩ | ⟨_, winner, found, result⟩
    · exact absurd (tagged_of_covered served) absent
    · exact absurd served missing
    · obtain ⟨o, core, live, least⟩ := best_standing_least agrees ranked found
      exact ⟨winner, o, result, core, live, least⟩
  · intro later winner resolved
    rcases ending with ⟨_, result⟩ | ⟨_, _, result⟩ | ⟨⟨o, member, covered⟩, _⟩
    · rw [resolved] at result
      cases result
    · rw [resolved] at result
      cases result
    · have still := offers_built_subset priorities plugins later member
      rcases resolveFor_cases (agrees_built priorities (plugins ++ later)) tag kind with
        ⟨absent, _⟩ | ⟨_, missing, _⟩ | ⟨_, next, _, answer⟩
      · exact absurd (tagged_of_covered ⟨o, still, covered⟩) absent
      · exact absurd ⟨o, still, covered⟩ missing
      · exact ⟨next, answer⟩

/-- A plugin with one capability, for the tag `x`. -/
def offering (id : String) (kinds : List Kind) (overrides : Bool) : LoadedPlugin :=
  ⟨Plugin.builtin id "" "" [{ Plugin.offer "x" kinds (fun _ => .ofOutcome (.generated [])) with overrides }], .builtin⟩

/-- The second plugin takes classes away from the first one, and the third is refused. -/
theorem resolveFor_least_live_overridden :
    let plugins := [offering "a" [.classType, .structType] false, offering "b" [.classType] true,
      offering "c" [.structType] false]
    (built [] plugins).plugins.map (·.plugin.id) = ["a", "b"] ∧
      ∃ winner o, (built [] plugins).resolveFor ⟨"x"⟩ .classType = .ok winner ∧ winner.core = o.core ∧
        (built [] plugins).Live ⟨"x"⟩ .classType o ∧ winner.plugin.id = "b" := by
  intro plugins
  obtain ⟨taken, _, _, least, _⟩ := resolveFor_least_live [] plugins ⟨"x"⟩ .classType
  obtain ⟨winner, o, resolved, core, live, _⟩ :=
    least ⟨⟨(offering "b" [.classType] true).plugin, 1, 0, _⟩, .tail _ (.head _), rfl⟩
  refine ⟨by rw [taken]; rfl, winner, o, resolved, core, live, ?_⟩
  have served : ((built [] plugins).resolveFor ⟨"x"⟩ .classType).toOption.map (·.plugin.id) = some "b" := by rfl
  rw [resolved] at served
  exact Option.some.inj served

end MarkerGen.Registry
