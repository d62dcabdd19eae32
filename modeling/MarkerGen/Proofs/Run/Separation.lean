import MarkerGen.Proofs.Output.DerivedNames
import MarkerGen.Proofs.Registry.Ambiguity
import MarkerGen.Proofs.Run.Failures
import MarkerGen.Proofs.Run.Idempotence

/-! Runs in which no two fragments meet. If all blocks go to files that are named after their
sources, the sources lie below the input directory and no two of them are one, then every source has
files of its own, and no run ends with a collision. -/
namespace MarkerGen

open Writer

theorem Writer.claim_of_apart {claimed : List (Path × String)} {fragments : List Fragment}
    (apart : Apart (claimed.map (·.1) ++ fragments.map (·.output))) : ∃ next, claim claimed fragments = .ok next := by
  induction fragments generalizing claimed with
  | nil => exact ⟨claimed, rfl⟩
  | cons f rest ih =>
    have free : claimant? claimed f.output = none := by
      have before := (List.pairwise_append.mp apart).2.2
      rw [claimant?, Option.map_eq_none_iff, List.find?_eq_none]
      intro pair member
      simp [before pair.1 (List.mem_map_of_mem member) f.output List.mem_cons_self]
    rw [claim, free]
    refine ih ?_
    rw [List.map_append, List.map_singleton, List.append_assoc]
    exact apart

namespace Pipeline

structure Inside (dir path : Path) : Prop where
  below : Below dir path
  named : ∃ name, path.fileName? = some name

/-- The source files of a run that can be parsed, as they are when their turn comes. -/
def unitsFrom (p : Pipeline) (s : State) : List Path → List SourceUnit
  | [] => []
  | input :: rest => (p.frontend.parseFile s.files input).toOption.toList ++ p.unitsFrom (p.processFile s input).1 rest

def units (p : Pipeline) (fs : FileStore) (inputs : List Path) : List SourceUnit := p.unitsFrom (p.start fs) inputs

variable {p : Pipeline} {s : State} {dir : Path} {inputs : List Path} {extension : String}

theorem prepare_fragments (p : Pipeline) (s : State) (input : Path) :
    (p.prepare s.files s.clock input).2.fragments = [] ∨ ∃ u, p.frontend.parseFile s.files input = .ok u ∧
      (p.prepare s.files s.clock input).2.fragments = (p.options.layout.assemble input (p.generator.sections u)).1 := by
  cases prepared : (p.prepare s.files s.clock input).2 with
  | parseFailed error | timedOut error | broken error => exact .inl rfl
  | ready output =>
    obtain ⟨u, parsed, generated⟩ := generate_of_prepare (.ok output) prepared
    refine .inr ⟨u, parsed, ?_⟩
    rw [Prepared.fragments, Generator.outputOf_of_generate generated, Generator.outputOf,
      Frontend.path_parseFile parsed]
    rfl

theorem sourcePath_named (inDir : p.options.inDir = some dir) {input : Path} (inside : Inside dir input) :
    ∃ name, (p.options.layout.sourcePath input).fileName? = some name := by
  obtain ⟨rest, nonempty, whole⟩ := inside.below
  obtain ⟨name, named⟩ := inside.named
  have parts := components_sourcePath inDir inside.below
  have source : (p.options.layout.sourcePath input).components ≠ [] := by
    rw [whole, List.append_right_inj] at parts
    exact parts ▸ nonempty
  refine ⟨name, ?_⟩
  rw [Path.fileName?, parts, List.getLast?_append_of_ne_nil _ source] at named
  exact named

/-- Blocks of different sources have different files. -/
theorem derivedTarget_apart (inDir : p.options.inDir = some dir) {a b : Path} (insideA : Inside dir a)
    (insideB : Inside dir b) (different : a.same b = false) (flat : '/' ∉ extension.toList) {s t : Section}
    (first : p.options.layout.Derives extension s) (second : p.options.layout.Derives extension t) :
    (p.options.layout.derivedTarget a s).same (p.options.layout.derivedTarget b t) = false := by
  obtain ⟨nameA, namedA⟩ := sourcePath_named inDir insideA
  obtain ⟨nameB, namedB⟩ := sourcePath_named inDir insideB
  rw [← Bool.not_eq_true] at different ⊢
  intro shared
  apply different
  rw [Path.same_iff, components_sourcePath inDir insideA.below, components_sourcePath inDir insideB.below,
    Layout.source_of_derivedTarget first second flat namedA namedB shared]

theorem assemble_outputs_apart (inDir : p.options.inDir = some dir) {a b : Path} (insideA : Inside dir a)
    (insideB : Inside dir b) (different : a.same b = false) (flat : '/' ∉ extension.toList)
    {sections others : List Section} (first : ∀ s ∈ sections, p.options.layout.Derives extension s)
    (second : ∀ s ∈ others, p.options.layout.Derives extension s) :
    ∀ f ∈ (p.options.layout.assemble a sections).1, ∀ g ∈ (p.options.layout.assemble b others).1,
      f.output.same g.output = false := by
  intro f inF g inG
  obtain ⟨s, amongS, outputF⟩ := (Layout.assemble_apart _ a fun s member => (first s member).unasked).2 f inF
  obtain ⟨t, amongT, outputG⟩ := (Layout.assemble_apart _ b fun s member => (second s member).unasked).2 g inG
  rw [outputF, outputG]
  exact derivedTarget_apart inDir insideA insideB different flat (first s amongS) (second t amongT)

theorem fragmentsFrom_derived (inDir : p.options.inDir = some dir) (inside : ∀ input ∈ inputs, Inside dir input)
    (distinct : Apart inputs) (flat : '/' ∉ extension.toList)
    (derives : ∀ u ∈ p.unitsFrom s inputs, ∀ s ∈ p.generator.sections u, p.options.layout.Derives extension s) :
    Apart ((p.fragmentsFrom s inputs).map (·.output)) ∧ ∀ f ∈ p.fragmentsFrom s inputs, ∃ input ∈ inputs, ∃ sections,
      (∀ s ∈ sections, p.options.layout.Derives extension s) ∧ f ∈ (p.options.layout.assemble input sections).1 := by
  induction inputs generalizing s with
  | nil => exact ⟨List.Pairwise.nil, by simp [fragmentsFrom]⟩
  | cons input rest ih =>
    obtain ⟨different, distinctRest⟩ := List.pairwise_cons.mp distinct
    obtain ⟨insideFirst, insideRest⟩ := List.forall_mem_cons.mp inside
    obtain ⟨apartRest, among⟩ := ih insideRest distinctRest fun u member =>
      derives u (List.mem_append_right _ member)
    obtain ⟨sections, derivesFirst, fragments⟩ : ∃ sections, (∀ s ∈ sections, p.options.layout.Derives extension s) ∧
        (p.prepare s.files s.clock input).2.fragments = (p.options.layout.assemble input sections).1 := by
      rcases prepare_fragments p s input with none | ⟨u, parsed, fragments⟩
      · exact ⟨[], by simp, none⟩
      · exact ⟨_, derives u (List.mem_append_left _ (by simp [parsed, Except.toOption])), fragments⟩
    rw [fragmentsFrom, fragments]
    constructor
    · rw [List.map_append]
      refine List.pairwise_append.mpr ⟨?_, apartRest, ?_⟩
      · exact (Layout.assemble_apart _ input fun s member => (derivesFirst s member).unasked).1
      · simp only [List.forall_mem_map]
        intro f inFirst g inRest
        obtain ⟨other, member, others, derivesOther, inside⟩ := among g inRest
        exact assemble_outputs_apart inDir insideFirst (insideRest other member) (different other member) flat
          derivesFirst derivesOther f inFirst g inside
    · intro f member
      rcases List.mem_append.mp member with inFirst | inRest
      · exact ⟨input, List.mem_cons_self, sections, derivesFirst, inFirst⟩
      · obtain ⟨other, member, found⟩ := among f inRest
        exact ⟨other, List.mem_cons_of_mem _ member, found⟩

theorem Failed.uncollided {input path : Path} {error : RunError} {first second : String}
    (failed : p.Failed s input error)
    (free : ∃ next, claim s.writer.claimed (p.prepare s.files s.clock input).2.fragments = .ok next) :
    error ≠ .outputCollision path first second := by
  cases failed with
  | broken generated =>
    rcases Generator.generate_error_cases generated with ⟨_, _, rfl⟩ | ⟨_, _, rfl⟩ <;> simp
  | colliding prepared refused =>
    obtain ⟨next, free⟩ := free
    rw [prepared, Prepared.fragments, refused] at free
    cases free
  | unwritten path cause => simp [RunError.ofFile]

theorem processFiles_uncollided {files : FileStore} {path : Path} {first second : String}
    (apart : Apart (s.writer.claimed.map (·.1) ++ (p.fragmentsFrom s inputs).map (·.output))) :
    p.processFiles s inputs ≠ (files, .error (.outputCollision path first second)) := by
  induction inputs generalizing s with
  | nil => exact nofun
  | cons input rest ih =>
    intro failed
    rcases processFiles_error failed with here | ⟨next, result, processed, later⟩
    · rw [fragmentsFrom, List.map_append, ← List.append_assoc] at apart
      have free := claim_of_apart (List.pairwise_append.mp apart).1
      exact here.uncollided free rfl
    · rw [processed.fragments_cons, List.map_append, ← List.append_assoc] at apart
      refine ih ?_ later
      cases processed with
      | parseFailed prepared | timedOut prepared =>
        rw [prepared, Prepared.fragments, List.map_nil, List.append_nil] at apart
        exact apart
      | generated prepared free written =>
        rw [prepared] at apart
        rw [(claim_ok free (List.pairwise_append.mp (List.pairwise_append.mp apart).1).1).1]
        exact apart

/-- Blocks that are named after their sources never meet. Those of different sources go to different
files, those of one source to one file per tag in the one mode, and no run with such blocks ends
with a collision. -/
theorem run_uncollided (inDir : p.options.inDir = some dir) (inside : ∀ input ∈ inputs, Inside dir input)
    (distinct : Apart inputs) (flat : '/' ∉ extension.toList) :
    (∀ a ∈ inputs, ∀ b ∈ inputs, a.same b = false → ∀ sections others,
      (∀ s ∈ sections, p.options.layout.Derives extension s) → (∀ s ∈ others, p.options.layout.Derives extension s) →
      ∀ f ∈ (p.options.layout.assemble a sections).1, ∀ g ∈ (p.options.layout.assemble b others).1,
        f.output.same g.output = false) ∧
    (p.options.mode = .perFile → ∀ input ∈ inputs, ∀ s t,
      p.options.layout.Derives extension s → p.options.layout.Derives extension t →
      ∃ first second, p.options.layout.target input s = .ok first ∧ p.options.layout.target input t = .ok second ∧
        (first.same second = true ↔ s.capability = t.capability)) ∧
    ∀ fs, (∀ u ∈ p.units fs inputs, ∀ s ∈ p.generator.sections u, p.options.layout.Derives extension s) →
      ¬ ∃ after path first second, p.run fs inputs = (after, .error (.error (.outputCollision path first second))) := by
  refine ⟨?_, ?_, ?_⟩
  · intro a inA b inB different sections others first second
    exact assemble_outputs_apart inDir (inside a inA) (inside b inB) different flat first second
  · intro mode input member s t first second
    obtain ⟨name, named⟩ := sourcePath_named inDir (inside input member)
    exact ⟨_, _, Layout.target_of_derives first input, Layout.target_of_derives second input,
      Layout.same_tag_iff mode first second flat named⟩
  · rintro fs derives ⟨after, path, first, second, failed⟩
    rcases run_error failed with ⟨_, _, refusal⟩ | ⟨files, collided⟩
    · cases refusal
    · refine processFiles_uncollided ?_ collided
      exact (fragmentsFrom_derived inDir inside distinct flat derives).1

def naming : Pipeline := { asking "" with registry := alone fun _ => .ofOutcome (.generated [.ofText "int x;"]) }

theorem derives_naming (u : SourceUnit) : ∀ s ∈ naming.generator.sections u, naming.options.layout.Derives "h" s := by
  intro s member
  obtain ⟨m, _, inside⟩ := List.mem_flatMap.mp member
  unfold Generator.blocks Generator.verdict at inside
  cases resolved : naming.generator.resolved m with
  | error error =>
    rw [resolved] at inside
    cases inside
  | ok claim =>
    obtain ⟨claimed, covers⟩ := List.mem_filter.mp (Registry.mem_candidates_of_resolveFor resolved)
    have tagged : claim.tag = m.marker.tag := by simpa using (Bool.and_eq_true_iff.mp covers).1
    obtain rfl := List.mem_singleton.mp claimed
    rw [resolved] at inside
    obtain rfl := List.mem_singleton.mp inside
    have plain : ∀ c ∈ "x".toList, c ≠ '.' ∧ c ≠ '/' := by simp
    refine ⟨rfl, ?_, rfl⟩
    rw [← tagged]
    exact plain

def dottedSources : FileStore :=
  ⟨[], [(["i"], .directory), (["i", "a"], .file markedText.toUTF8), (["i", "a.x"], .file markedText.toUTF8)]⟩

theorem run_uncollided_dotted :
    ¬ ∃ after path first second,
      naming.run dottedSources [⟨"/i/a"⟩, ⟨"/i/a.x"⟩] =
        (after, .error (.error (.outputCollision path first second))) := by
  have inside : ∀ input ∈ [(⟨"/i/a"⟩ : Path), ⟨"/i/a.x"⟩], Inside ⟨"/i"⟩ input := by
    rintro input member
    rcases List.mem_pair.mp member with rfl | rfl
    · exact ⟨⟨[.name "a"], by decide, by decide +kernel⟩, "a", by decide +kernel⟩
    · exact ⟨⟨[.name "a.x"], by decide, by decide +kernel⟩, "a.x", by decide +kernel⟩
  have distinct : Apart [(⟨"/i/a"⟩ : Path), ⟨"/i/a.x"⟩] := List.pairwise_pair.mpr (by decide +kernel)
  have flat : '/' ∉ "h".toList := by decide
  exact (run_uncollided rfl inside distinct flat).2.2 dottedSources fun u _ => derives_naming u

/-- The names of two sources can be different bytes and yet have one text. -/
theorem lossy_names_meet :
    let s : Section := ⟨"p", "1", ⟨"x"⟩, "E", ⟨⟨"/i/a"⟩, 1, 1⟩, .ofText "int x;"⟩
    let first : List UInt8 := [0x61, 0xFF]
    let second : List UInt8 := [0x61, 0xFE]
    first ≠ second ∧ naming.options.layout.Derives "h" s ∧
      (naming.options.layout.derivedIn ⟨""⟩ first s).same (naming.options.layout.derivedIn ⟨""⟩ second s) = true := by
  intro s first second
  exact ⟨by decide, ⟨rfl, by simp [s], by decide +kernel⟩, by decide +kernel⟩

/-- A source that is given in two ways collides with itself. -/
theorem respelled_source_collides :
    ∃ after path first second, naming.run dottedSources [⟨"/i/a"⟩, ⟨"/i//a"⟩] =
      (after, .error (.error (.outputCollision path first second))) := by
  have collided : (naming.run dottedSources [⟨"/i/a"⟩, ⟨"/i//a"⟩]).2 =
      .error (.error (.outputCollision ⟨"a.x.h"⟩ "p [x] E" "p [x] E")) := by
    decide +kernel
  exact ⟨_, _, _, _, Prod.ext rfl collided⟩

end Pipeline

end MarkerGen
