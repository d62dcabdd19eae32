import MarkerGen.Proofs.Output.Grouping
import MarkerGen.Proofs.SourceUnit.Children
import MarkerGen.Run.Generator

/-! The failure of a request stays its own. It costs a warning, and the output is what it would be
if the request had given no code. A second generator tells this: it differs from the first one in
that requests which fail are excused. -/
namespace MarkerGen

def Outcome.excused : Outcome → Outcome
  | .failed _ => .generated []
  | outcome => outcome

section
variable (excused : Request → Bool)

/-- The strategy that gives no code where a request failed and is excused. -/
def Strategy.excusing (strategy : Strategy) : Strategy := fun r =>
  if excused r then { strategy r with outcome := (strategy r).outcome.excused } else strategy r

def Capability.excusing (c : Capability) : Capability := { c with strategy := Strategy.excusing excused c.strategy }

def Plugin.excusing (p : Plugin) : Plugin := { p with capabilities := p.capabilities.map (·.excusing excused) }

def Claim.excusing (c : Claim) : Claim :=
  { c with plugin := c.plugin.excusing excused, capability := c.capability.excusing excused }

@[simp] theorem Claim.id_excusing (c : Claim) : (c.excusing excused).plugin.id = c.plugin.id := rfl

@[simp] theorem Claim.version_excusing (c : Claim) : (c.excusing excused).plugin.version = c.plugin.version := rfl

namespace Registry

def excusing (r : Registry) : Registry where
  plugins := r.plugins.map fun loaded => { loaded with plugin := loaded.plugin.excusing excused }
  claims := r.claims.map (·.excusing excused)
  priority := r.priority
  closed := r.closed

theorem best_excusing (r : Registry) (claims : List Claim) :
    (r.excusing excused).best (claims.map (·.excusing excused)) = (r.best claims).map (·.excusing excused) := by
  induction claims with
  | nil => rfl
  | cons claim rest ih =>
    have rank (c : Claim) : (r.excusing excused).rank (c.excusing excused) = r.rank c := rfl
    rw [List.map_cons, best, best, ih]
    cases r.best rest with
    | none => rfl
    | some other =>
      simp only [Option.map_some, rank]
      split <;> rfl

theorem resolveFor_excusing (r : Registry) (tag : Tag) (kind : Kind) :
    (r.excusing excused).resolveFor tag kind = (r.resolveFor tag kind).map (·.excusing excused) := by
  have claims : (r.excusing excused).claimsOf tag = (r.claimsOf tag).map (·.excusing excused) := List.filter_map
  have covering : ((r.claimsOf tag).map (·.excusing excused)).filter (·.scope.contains kind) =
      ((r.claimsOf tag).filter (·.scope.contains kind)).map (·.excusing excused) := List.filter_map
  have provides : (r.excusing excused).provides tag = r.provides tag := by simp [Registry.provides, claims]
  rw [resolveFor, resolveFor, provides, claims, covering, best_excusing]
  cases r.best ((r.claimsOf tag).filter (·.scope.contains kind)) <;> split <;> rfl

theorem error_of_resolveFor {r : Registry} {tag : Tag} {kind : Kind} {error : RegistryError}
    (refused : r.resolveFor tag kind = .error error) :
    error = .unknownCapability tag ∨ error = .unsupportedKind tag kind := by
  rw [resolveFor] at refused
  split at refused
  · split at refused
    · cases refused
    · exact .inr (Except.error.inj refused).symm
  · exact .inl (Except.error.inj refused).symm

end Registry

end

namespace Generator

def excusing (excused : Request → Bool) (g : Generator) : Generator :=
  { g with registry := g.registry.excusing excused }

def requestOf (u : SourceUnit) (m : Match) (claim : Claim) : Request := ⟨u, m.declared, m.marker, claim.plugin.id⟩

section
variable (g : Generator) (u : SourceUnit) (m : Match)

def resolved : Except RegistryError Claim := g.registry.resolveFor m.marker.tag m.declared.decl.kind

/-- Who serves a match, and how that ends. -/
def verdict : Except RegistryError (Claim × Outcome) :=
  (g.resolved m).map fun claim => (claim, (claim.capability.strategy (requestOf u m claim)).outcome)

def blocks : List Section :=
  match g.verdict u m with
  | .ok (claim, .generated codes) => codes.map fun code =>
      ⟨claim.plugin.id, claim.plugin.version, m.marker.tag, m.declared.decl.qualifiedName, m.declared.decl.location, code⟩
  | _ => []

def failure? : Option (Request × RunError) :=
  match g.verdict u m with
  | .ok (claim, .failed error) => some (requestOf u m claim, .generation (attempt m claim.plugin.id) error.message)
  | _ => none

/-- The error for a match that is not supported or failed. -/
def complaint? : Option RunError :=
  match g.verdict u m with
  | .ok (claim, .failed error) => some (.generation (attempt m claim.plugin.id) error.message)
  | .error (.unsupportedKind tag kind) =>
    some (.generation (attempt m "<none>") (RegistryError.unsupportedKind tag kind).message)
  | _ => none

/-- The error with which a match ends the file. -/
def fatal? : Option RunError :=
  match g.verdict u m with
  | .ok (claim, .crashed message) => some (.pluginCrash (attempt m claim.plugin.id) message)
  | .error (.unknownCapability tag) =>
    if g.strict then some (.unknownCapability tag (some m.declared.decl.location)) else none
  | _ => none

end

variable {g : Generator} {u : SourceUnit}

-- One step: what a match adds to the progress, or the error it ends the file with.
theorem advance_step (g : Generator) (u : SourceUnit) (m : Match) (progress : Progress) :
    advance m progress (g.step u m) = match g.fatal? u m with
      | some error => .error error
      | none => .ok ⟨progress.sections ++ g.blocks u m, progress.warnings ++ (g.complaint? u m).toList,
          progress.requests + if (g.resolved m).isOk then 1 else 0⟩ := by
  cases resolution : g.resolved m with
  | error error =>
    have refused : g.registry.resolveFor m.marker.tag m.declared.decl.kind = .error error := resolution
    rcases Registry.error_of_resolveFor refused with rfl | rfl
    · cases strict : g.strict <;>
        simp [step, refused, fatal?, blocks, complaint?, verdict, resolution, strict, advance, Except.map, Except.isOk,
          Except.toBool]
    · simp [step, refused, fatal?, blocks, complaint?, verdict, resolution, advance, Except.map, Except.isOk,
        Except.toBool]
  | ok claim =>
    have served : g.registry.resolveFor m.marker.tag m.declared.decl.kind = .ok claim := resolution
    have asked : (⟨u, m.declared, m.marker, claim.plugin.id⟩ : Request) = requestOf u m claim := rfl
    cases outcome : (claim.capability.strategy (requestOf u m claim)).outcome <;>
      simp [step, served, asked, fatal?, blocks, complaint?, verdict, resolution, outcome, advance, sectionsOf, Except.map,
        Except.isOk, Except.toBool]

theorem handle_result (g : Generator) (u : SourceUnit) (progress : Progress) (found : List Match) :
    (g.handle u progress found).2 = match found.findSome? (g.fatal? u) with
      | some error => .error error
      | none => .ok ⟨progress.sections ++ found.flatMap (g.blocks u),
          progress.warnings ++ found.filterMap (g.complaint? u),
          progress.requests + found.countP fun m => (g.resolved m).isOk⟩ := by
  induction found generalizing progress with
  | nil => simp [handle]
  | cons m rest ih =>
    dsimp only [handle]
    rw [advance_step, List.findSome?_cons]
    cases g.fatal? u m with
    | some error => rfl
    | none =>
      have complaints : (m :: rest).filterMap (g.complaint? u) =
          (g.complaint? u m).toList ++ rest.filterMap (g.complaint? u) := by
        cases complaint : g.complaint? u m <;> simp [complaint]
      dsimp only
      rw [ih, List.flatMap_cons, complaints, List.countP_cons, List.append_assoc, List.append_assoc,
        Nat.add_comm (rest.countP _), Nat.add_assoc]

def found (g : Generator) (u : SourceUnit) : List Match := Scan.matchesOf g.lead u

def sections (g : Generator) (u : SourceUnit) : List Section := (g.found u).flatMap (g.blocks u)

-- Unless a match ends the file.
def outputOf (g : Generator) (u : SourceUnit) : FileOutput where
  input := u.path
  fragments := (g.layout.assemble u.path (g.sections u)).1
  warnings := (g.found u).filterMap (g.complaint? u) ++ g.layout.misplaced u.path (g.sections u)
  requests := (g.found u).countP fun m => (g.resolved m).isOk

theorem generate_result (g : Generator) (u : SourceUnit) :
    g.generate u = match (g.found u).findSome? (g.fatal? u) with
      | some error => .error error
      | none => .ok (g.outputOf u) := by
  dsimp only [generate, trace]
  rw [handle_result]
  change Except.map _ (match (g.found u).findSome? (g.fatal? u) with | some error => _ | none => _) = _
  cases (g.found u).findSome? (g.fatal? u) with
  | some error => rfl
  | none => simp [Except.map, finish, Progress.start, outputOf, sections, found, Layout.assemble]

section
variable (excused : Request → Bool) (g : Generator) (u : SourceUnit) (m : Match)

theorem resolved_excusing : (g.excusing excused).resolved m = (g.resolved m).map (·.excusing excused) :=
  Registry.resolveFor_excusing excused g.registry _ _

theorem verdict_excusing :
    (g.excusing excused).verdict u m = (g.verdict u m).map fun (claim, outcome) =>
      (claim.excusing excused, if excused (requestOf u m claim) then outcome.excused else outcome) := by
  rw [verdict, resolved_excusing, verdict]
  cases g.resolved m with
  | error error => rfl
  | ok claim =>
    have strategy : (claim.excusing excused).capability.strategy (requestOf u m (claim.excusing excused)) =
        Strategy.excusing excused claim.capability.strategy (requestOf u m claim) := rfl
    simp only [Except.map, strategy, Strategy.excusing]
    split <;> rfl

theorem isOk_resolved_excusing : ((g.excusing excused).resolved m).isOk = (g.resolved m).isOk := by
  rw [resolved_excusing]
  cases g.resolved m <;> rfl

theorem blocks_excusing : (g.excusing excused).blocks u m = g.blocks u m := by
  unfold blocks
  rw [verdict_excusing]
  rcases g.verdict u m with error | ⟨claim, outcome⟩
  · rfl
  · cases outcome <;> cases pardoned : excused (requestOf u m claim) <;> simp [Except.map, Outcome.excused, pardoned]

theorem fatal?_excusing : (g.excusing excused).fatal? u m = g.fatal? u m := by
  unfold fatal?
  rw [verdict_excusing]
  rcases g.verdict u m with error | ⟨claim, outcome⟩
  · rfl
  · cases outcome <;> cases pardoned : excused (requestOf u m claim) <;> simp [Except.map, Outcome.excused, pardoned]

theorem complaint?_excusing :
    (g.excusing excused).complaint? u m = if (g.failure? u m).any (excused ·.1) then none else g.complaint? u m := by
  unfold complaint? failure?
  rw [verdict_excusing]
  rcases g.verdict u m with error | ⟨claim, outcome⟩
  · rfl
  · cases outcome <;> cases pardoned : excused (requestOf u m claim) <;> simp [Except.map, Outcome.excused, pardoned]

theorem complaint_of_failure {g : Generator} {u : SourceUnit} {m : Match} {failure : Request × RunError}
    (failed : g.failure? u m = some failure) : g.complaint? u m = some failure.2 := by
  unfold failure? at failed
  unfold complaint?
  split at failed
  next claim error verdict =>
    cases failed
    rw [verdict]
  next => cases failed

end

section
variable {α β : Type} {complaint other pardon : α → Option β}

theorem filterMap_pardoned_sublist (items : List α)
    (taken : ∀ item error, pardon item = some error → complaint item = some error ∧ other item = none)
    (left : ∀ item, pardon item = none → other item = complaint item) :
    (items.filterMap other).Sublist (items.filterMap complaint) := by
  induction items with
  | nil => exact .slnil
  | cons item rest ih =>
    cases pardoned : pardon item with
    | some error =>
      obtain ⟨complained, spared⟩ := taken item error pardoned
      simp [complained, spared, ih]
    | none =>
      cases complained : complaint item <;> simp [left item pardoned, complained, ih]

theorem filterMap_pardoned_perm (items : List α)
    (taken : ∀ item error, pardon item = some error → complaint item = some error ∧ other item = none)
    (left : ∀ item, pardon item = none → other item = complaint item) :
    (items.filterMap complaint).Perm (items.filterMap pardon ++ items.filterMap other) := by
  induction items with
  | nil => exact .nil
  | cons item rest ih =>
    cases pardoned : pardon item with
    | some error =>
      obtain ⟨complained, spared⟩ := taken item error pardoned
      simp [pardoned, complained, spared, ih]
    | none =>
      cases complained : complaint item with
      | none => simp [left item pardoned, pardoned, complained, ih]
      | some error =>
        simp only [List.filterMap_cons, left item pardoned, pardoned, complained]
        exact (ih.cons error).trans List.perm_middle.symm

end

def failures (g : Generator) (u : SourceUnit) : List (Request × RunError) := (g.found u).filterMap (g.failure? u)

def pardon? (excused : Request → Bool) (g : Generator) (u : SourceUnit) (m : Match) : Option RunError :=
  ((g.failure? u m).filter (excused ·.1)).map (·.2)

section
variable (excused : Request → Bool) (g : Generator) (u : SourceUnit)

theorem filterMap_pardon? :
    (g.found u).filterMap (g.pardon? excused u) = ((g.failures u).filter (excused ·.1)).map (·.2) := by
  simp only [failures, List.filter_filterMap, List.map_filterMap]
  rfl

theorem pardon?_taken (m : Match) (error : RunError) (pardoned : g.pardon? excused u m = some error) :
    g.complaint? u m = some error ∧ (g.excusing excused).complaint? u m = none := by
  simp only [pardon?, Option.map_eq_some_iff, Option.filter_eq_some_iff] at pardoned
  obtain ⟨failure, ⟨failed, allowed⟩, rfl⟩ := pardoned
  exact ⟨complaint_of_failure failed, by simp [complaint?_excusing, failed, allowed]⟩

theorem pardon?_left (m : Match) (unpardoned : g.pardon? excused u m = none) :
    (g.excusing excused).complaint? u m = g.complaint? u m := by
  rw [complaint?_excusing]
  cases failed : g.failure? u m with
  | none => rfl
  | some failure => simp_all [pardon?, Option.filter]

theorem found_excusing : (g.excusing excused).found u = g.found u := rfl

theorem sections_excusing : (g.excusing excused).sections u = g.sections u := by
  rw [sections, found_excusing, funext (blocks_excusing excused g u), sections]

theorem outputOf_excusing :
    ((g.excusing excused).outputOf u).fragments = (g.outputOf u).fragments ∧
      ((g.excusing excused).outputOf u).requests = (g.outputOf u).requests ∧
      ((g.excusing excused).outputOf u).warnings.Sublist (g.outputOf u).warnings ∧
      (g.outputOf u).warnings.Perm
        (((g.failures u).filter (excused ·.1)).map (·.2) ++ ((g.excusing excused).outputOf u).warnings) := by
  have taken := pardon?_taken excused g u
  have left := pardon?_left excused g u
  refine ⟨?_, ?_, ?_, ?_⟩
  · dsimp only [outputOf]
    rw [sections_excusing]
    rfl
  · dsimp only [outputOf]
    rw [found_excusing, funext (isOk_resolved_excusing excused g)]
  · dsimp only [outputOf]
    rw [sections_excusing]
    exact (filterMap_pardoned_sublist (g.found u) taken left).append (.refl _)
  · dsimp only [outputOf]
    rw [sections_excusing, ← filterMap_pardon?, ← List.append_assoc]
    exact (filterMap_pardoned_perm (g.found u) taken left).append_right _

theorem generate_excusing {output : FileOutput} (ok : g.generate u = .ok output) :
    (g.excusing excused).generate u = .ok ((g.excusing excused).outputOf u) := by
  rw [generate_result] at ok
  rw [generate_result, found_excusing, funext (fatal?_excusing excused g u)]
  cases stopped : (g.found u).findSome? (g.fatal? u) with
  | some error => simp [stopped] at ok
  | none => rfl

end

theorem outputOf_of_generate {output : FileOutput} (ok : g.generate u = .ok output) : output = g.outputOf u := by
  rw [generate_result] at ok
  split at ok
  · cases ok
  · exact (Except.ok.inj ok).symm

theorem kind_of_complaint {m : Match} {error : RunError} (complaint : g.complaint? u m = some error) :
    error.kind = "GenerationError" := by
  unfold complaint? at complaint
  split at complaint <;> cases complaint <;> rfl

theorem kind_of_rejected {l : Layout} {input : Path} {rejected : List Section} {errors : List RunError}
    (told : List.Forall₂ (l.Rejected input) rejected errors) : ∀ error ∈ errors, error.kind = "GenerationError" := by
  intro error member
  induction told with
  | nil => cases member
  | cons one _ ih =>
    rcases List.mem_cons.mp member with rfl | later
    · cases one
      rfl
    · exact ih later

theorem found_apart (g : Generator) (u : SourceUnit) :
    (g.found u).Pairwise fun a b => a.declared ≠ b.declared ∨ a.marker ≠ b.marker := by
  -- The matches of one declaration differ in their tags, those of two in the declaration.
  have distinct : u.entries.Pairwise (· ≠ ·) := u.entries_distinct
  refine List.pairwise_flatMap.mpr ⟨fun declared _ => ?_, distinct.imp fun different a inFirst b inSecond => .inl ?_⟩
  · refine List.pairwise_map.mpr ((firstOfEach_fresh Scan.sameTag [] _).2.imp fun {a b} apart => .inr ?_)
    rintro rfl
    simp [Scan.sameTag] at apart
  · obtain ⟨_, -, rfl⟩ := List.mem_map.mp inFirst
    obtain ⟨_, -, rfl⟩ := List.mem_map.mp inSecond
    exact different

theorem request_of_failure {m : Match} {failure : Request × RunError} (failed : g.failure? u m = some failure) :
    failure.1.declared = m.declared ∧ failure.1.marker = m.marker := by
  unfold failure? at failed
  split at failed <;> cases failed
  exact ⟨rfl, rfl⟩

theorem failures_nodup (g : Generator) (u : SourceUnit) : ((g.failures u).map (·.1)).Nodup := by
  refine List.pairwise_map.mpr (List.pairwise_filterMap.mpr ((g.found_apart u).imp fun apart a first b second => ?_))
  intro same
  obtain ⟨declaredA, markerA⟩ := request_of_failure first
  obtain ⟨declaredB, markerB⟩ := request_of_failure second
  rw [← declaredA, ← declaredB, ← markerA, ← markerB, same] at apart
  simp at apart

/-- A generated file holds what the successful requests gave. There is one warning for each request that
cannot be served, and then one for each block whose target is rejected; nothing else depends on them. -/
theorem generate_isolates {output : FileOutput} (ok : g.generate u = .ok output) :
    let sections := (g.found u).flatMap (g.blocks u)
    output.fragments = (g.layout.assemble u.path sections).1 ∧
      output.requests = (g.found u).countP (fun m => (g.resolved m).isOk) ∧
      (∃ blocks rejections, g.layout.Filing u.path sections blocks output.fragments rejections ∧
        output.warnings = (g.found u).filterMap (g.complaint? u) ++ rejections) ∧
      (∀ warning ∈ output.warnings, warning.kind = "GenerationError") ∧
      ((g.failures u).map (·.1)).Nodup ∧
      ∀ excused : Request → Bool, ∃ second, (g.excusing excused).generate u = .ok second ∧
        second.fragments = output.fragments ∧ second.requests = output.requests ∧
        second.warnings.Sublist output.warnings ∧
        output.warnings.Perm (((g.failures u).filter (excused ·.1)).map (·.2) ++ second.warnings) := by
  intro sections
  obtain rfl := outputOf_of_generate ok
  have filing := g.layout.filing_assemble u.path sections
  refine ⟨rfl, rfl, ⟨_, _, filing, rfl⟩, fun warning member => ?_, g.failures_nodup u, fun excused => ?_⟩
  · rcases List.mem_append.mp member with complained | misplaced
    · obtain ⟨m, -, complaint⟩ := List.mem_filterMap.mp complained
      exact kind_of_complaint complaint
    · exact kind_of_rejected filing.rejected warning misplaced
  · exact ⟨_, generate_excusing excused g u ok, outputOf_excusing excused g u⟩

/-- Serves `a`, with a block that has no place, and complains about `b`, for any declaration. -/
def halfServing : Generator where
  registry := ⟨[], [⟨plugin, 0, serving, .any⟩, ⟨plugin, 0, complaining, .any⟩], [], false⟩
  layout := ⟨.perFile, none, "h"⟩
  lead := "@"
  strict := true
where
  serving : Capability :=
    ⟨⟨"a"⟩, .any, false, fun _ => .ofOutcome (.generated [.ofText "code", ⟨"lost", some "../x", none⟩])⟩
  complaining : Capability := ⟨⟨"b"⟩, .any, false, fun _ => .ofOutcome (.failed (.unsupported "b"))⟩
  plugin : Plugin := ⟨"p", "1", ⟨"", "", ""⟩, 1, true, [serving, complaining], none, false⟩

def twiceMarked : SourceUnit :=
  ⟨⟨"s"⟩, [], #[⟨.field, "f", "f", [], [], ⟨⟨"s"⟩, 1, 1⟩, ["@b()", "@a()"], [], .publicMember, none, [],
    .field ⟨"int", false⟩⟩], []⟩

theorem generate_isolates_halfServing :
    ∃ output second, halfServing.generate twiceMarked = .ok output ∧
      (halfServing.excusing fun _ => true).generate twiceMarked = .ok second ∧
      second.fragments = output.fragments ∧ output.fragments.length = 1 ∧
      (∃ rejection, List.Forall₂ (halfServing.layout.Rejected ⟨"s"⟩)
        ((halfServing.sections twiceMarked).filter fun s => !(halfServing.layout.target ⟨"s"⟩ s).isOk) [rejection]) ∧
      output.warnings.length = 2 ∧ second.warnings.length = 1 := by
  have goesOn : (halfServing.found twiceMarked).findSome? (halfServing.fatal? twiceMarked) = none := by decide +kernel
  have ok : halfServing.generate twiceMarked = .ok (halfServing.outputOf twiceMarked) := by rw [generate_result, goesOn]
  obtain ⟨-, -, ⟨blocks, rejections, filing, -⟩, -, -, isolated⟩ := generate_isolates ok
  obtain ⟨second, again, fragments, -, -, perm⟩ := isolated fun _ => true
  have lost : rejections.length = 1 := filing.rejected.length_eq.symm.trans (by decide +kernel)
  obtain ⟨rejection, rfl⟩ := List.length_eq_one_iff.mp lost
  have two : (halfServing.outputOf twiceMarked).warnings.length = 2 := by decide +kernel
  have failed : ((halfServing.failures twiceMarked).filter fun _ => true).length = 1 := by decide +kernel
  refine ⟨_, second, ok, again, fragments, by decide +kernel, ⟨rejection, filing.rejected⟩, two, ?_⟩
  have counted := perm.length_eq
  rw [List.length_append, List.length_map, two, failed] at counted
  omega

end Generator

end MarkerGen
