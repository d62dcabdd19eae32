import MarkerGen.Proofs.Run.Breakdowns

/-! The first fatal match decides a file. Matches are served in scanner order, and what comes behind the
first one that is fatal has no part in the error. A generator that is not strict only has fewer fatal
matches. -/
namespace MarkerGen.Generator

/-- The errors with which a match ends the file: the strategy that serves it breaks down, or no plugin
provides its tag and the generator is strict. -/
inductive Ends (g : Generator) (u : SourceUnit) (m : Match) : RunError → Prop
  | crash {claim : Claim} {message : String}
      (served : g.registry.resolveFor m.marker.tag m.declared.decl.kind = .ok claim)
      (broken : (claim.capability.strategy ⟨u, m.declared, m.marker, claim.plugin.id⟩).outcome = .crashed message) :
      Ends g u m (.pluginCrash ⟨claim.plugin.id, m.marker.tag, m.declared.decl.qualifiedName, m.declared.decl.location⟩
        message)
  | unknown (strict : g.strict = true) (missing : g.registry.provides m.marker.tag = false) :
      Ends g u m (.unknownCapability m.marker.tag (some m.declared.decl.location))

section
variable {g : Generator} {u : SourceUnit} {m : Match} {error : RunError}

theorem resolved_unknown_iff {tag : Tag} :
    g.resolved m = .error (.unknownCapability tag) ↔ g.registry.provides m.marker.tag = false ∧ tag = m.marker.tag := by
  unfold resolved Registry.resolveFor
  cases g.registry.provides m.marker.tag with
  | false => simp [eq_comm]
  | true => cases g.registry.best _ <;> simp

theorem fatal?_eq_some_iff : g.fatal? u m = some error ↔ g.Ends u m error := by
  constructor
  · intro stopped
    unfold fatal? at stopped
    split at stopped
    next claim message crashed =>
      cases served : g.resolved m with
      | error refusal => simp [verdict, served, Except.map] at crashed
      | ok winner =>
        obtain ⟨rfl, broken⟩ : winner = claim ∧ _ := by simpa [verdict, served, Except.map] using crashed
        obtain rfl := Option.some.inj stopped
        exact .crash served broken
    next tag refused =>
      have unknown : g.resolved m = .error (.unknownCapability tag) := by
        cases served : g.resolved m <;> simp_all [verdict, Except.map]
      obtain ⟨missing, rfl⟩ := resolved_unknown_iff.mp unknown
      split at stopped
      next strict =>
        obtain rfl := Option.some.inj stopped
        exact .unknown strict missing
      next => cases stopped
    next => cases stopped
  · rintro (⟨served, broken⟩ | ⟨strict, missing⟩)
    · have resolved : g.resolved m = .ok _ := served
      simp [fatal?, verdict, resolved, Except.map, requestOf, broken, attempt]
    · have resolved : g.resolved m = .error (.unknownCapability m.marker.tag) :=
        resolved_unknown_iff.mpr ⟨missing, rfl⟩
      simp [fatal?, verdict, resolved, Except.map, strict]

theorem fatal?_eq_none_iff : g.fatal? u m = none ↔ ∀ error, ¬ g.Ends u m error := by
  simp only [← fatal?_eq_some_iff, Option.eq_none_iff_forall_ne_some, ne_eq]

end

/-- The same generator, passing over markers with an unknown tag. -/
def lenient (g : Generator) : Generator := { g with strict := false }

theorem ends_of_lenient {g : Generator} {u : SourceUnit} {m : Match} {error : RunError}
    (ends : g.lenient.Ends u m error) : g.Ends u m error := by
  cases ends with
  | crash served broken => exact .crash served broken
  | unknown strict => cases strict

/-- Generation fails exactly if some match is fatal, with the error of the first one that is. Another
generator fails alike on any unit whose matches are the same and end alike up to that one. Where a strict
generator gives an output, a lenient one gives the same. -/
theorem generate_first_fatal (g : Generator) (u : SourceUnit) :
    ((∃ error, g.generate u = .error error) ↔ ∃ m ∈ g.found u, ∃ error, g.Ends u m error) ∧
    (∀ error, g.generate u = .error error ↔ ∃ before m after, g.found u = before ++ m :: after ∧ g.Ends u m error ∧
      ∀ earlier ∈ before, ∀ other, ¬ g.Ends u earlier other) ∧
    (∀ error before m after, g.found u = before ++ m :: after → g.Ends u m error →
      (∀ earlier ∈ before, ∀ other, ¬ g.Ends u earlier other) →
      ∀ (h : Generator) (v : SourceUnit) (later : List Match), h.found v = before ++ m :: later →
        (∀ same ∈ before ++ [m], ∀ other, h.Ends v same other ↔ g.Ends u same other) →
        h.generate v = .error error) ∧
    ∀ output, g.generate u = .ok output → g.lenient.generate u = .ok output := by
  have first (k : Generator) (w : SourceUnit) (error : RunError) : k.generate w = .error error ↔
      ∃ before m after, k.found w = before ++ m :: after ∧ k.Ends w m error ∧
        ∀ earlier ∈ before, ∀ other, ¬ k.Ends w earlier other := by
    simp only [generate_error_iff, fatal?_eq_some_iff, fatal?_eq_none_iff]
  refine ⟨?_, first g u, ?_, ?_⟩
  · have stops : (∃ error, g.generate u = .error error) ↔ (g.found u).findSome? (g.fatal? u) ≠ none := by
      rw [generate_result]
      cases (g.found u).findSome? (g.fatal? u) <;> simp
    rw [stops, ne_eq, List.findSome?_eq_none_iff]
    simp only [fatal?_eq_none_iff, not_forall, not_not, exists_prop]
  · intro error before m after _ ends clear h v later found alike
    refine (first h v error).mpr ⟨before, m, later, found, (alike m (by simp) error).mpr ends, ?_⟩
    intro earlier inside other fatal
    exact clear earlier inside other ((alike earlier (by simp [inside]) other).mp fatal)
  · intro output ok
    have goesOn : (g.found u).findSome? (g.fatal? u) = none := by
      rw [generate_result] at ok
      split at ok
      · cases ok
      · assumption
    have lenient : (g.found u).findSome? (g.lenient.fatal? u) = none := by
      rw [List.findSome?_eq_none_iff] at goesOn ⊢
      intro m inside
      rw [fatal?_eq_none_iff]
      exact fun error ends => fatal?_eq_none_iff.mp (goesOn m inside) error (ends_of_lenient ends)
    have found : g.lenient.found u = g.found u := rfl
    have outputs : g.lenient.outputOf u = g.outputOf u := rfl
    rw [generate_result, found, lenient, outputs, outputOf_of_generate ok]

/-- Enumerations that are marked in turn. -/
def markedInTurn (markers : List String) : SourceUnit :=
  markers.foldl (fun u marker => u.push (markedEnum marker)) (.empty ⟨"s"⟩ [])
where
  markedEnum (marker : String) : Declaration :=
    ⟨.enumeration, "E", "E", [], [], ⟨⟨"s"⟩, 1, 1⟩, [marker], [], .publicMember, none, [],
      .enumeration ⟨false, none, []⟩⟩

theorem generate_first_fatal_marked :
    let g : Generator := ⟨.empty, ⟨.perFile, none, "h"⟩, "@", true⟩
    let unknown : RunError := .unknownCapability ⟨"a"⟩ (some ⟨⟨"s"⟩, 1, 1⟩)
    g.generate (markedInTurn ["@a()", "@b()"]) = .error unknown ∧
      g.generate (markedInTurn ["@a()", "@c()"]) = .error unknown ∧
      g.generate (markedInTurn []) = .ok ⟨⟨"s"⟩, [], [], 0⟩ ∧
      g.lenient.generate (markedInTurn []) = .ok ⟨⟨"s"⟩, [], [], 0⟩ := by
  intro g unknown
  let m (id : Nat) (name : String) : Match :=
    ⟨⟨id, markedInTurn.markedEnum ("@" ++ name ++ "()")⟩, ⟨⟨name⟩, [], "@" ++ name ++ "()"⟩⟩
  have ends (u : SourceUnit) (error : RunError) : g.Ends u (m 0 "a") error ↔ error = unknown := by
    constructor
    · rintro (⟨served, _⟩ | _)
      · cases served
      · rfl
    · rintro rfl
      exact .unknown rfl rfl
  have ok : g.generate (markedInTurn []) = .ok ⟨⟨"s"⟩, [], [], 0⟩ := by decide +kernel
  have first := generate_first_fatal g (markedInTurn ["@a()", "@b()"])
  have found : g.found (markedInTurn ["@a()", "@b()"]) = [] ++ m 0 "a" :: [m 1 "b"] := by decide +kernel
  have other : g.found (markedInTurn ["@a()", "@c()"]) = [] ++ m 0 "a" :: [m 1 "c"] := by decide +kernel
  have fatal := (ends (markedInTurn ["@a()", "@b()"]) unknown).mpr rfl
  refine ⟨(first.2.1 unknown).mpr ⟨_, _, _, found, fatal, by simp⟩, ?_, ok, (generate_first_fatal g _).2.2.2 _ ok⟩
  refine first.2.2.1 unknown _ _ _ found fatal (by simp) g _ _ other fun same listed error => ?_
  obtain rfl : same = m 0 "a" := by simpa using listed
  rw [ends, ends]

end MarkerGen.Generator
